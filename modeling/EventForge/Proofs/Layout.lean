import EventForge.Layout
import EventForge.Proofs.FileTree.Repetition

/-!
# Preparing projects

Preparing a project only creates directories, so a project can be prepared again with the same
outcome unless its directory is there now (`Layout.prepare_again`). A new project is refused as soon
as something stands at a path that goes on from its source root. The directories of a project lie
below the target when the name of its context does not lead out of it (`Layout.contained_packageDir`).
-/

namespace EventForge.Layout

variable {t t' : FileTree} {target : Path}

open FileTree (Grows Keeps)

theorem keeps_makeAll (t : FileTree) (dirs : List Path) : Keeps [] t (makeAll t dirs).1 := by
  induction dirs generalizing t with
  | nil => exact .refl [] t
  | cons dir rest ih =>
    have hdir := FileTree.keeps_makeDirectories t dir
    rw [makeAll]
    split
    · next t' heq =>
      rw [heq] at hdir
      exact hdir.trans (ih t')
    · next t' cause heq =>
      rw [heq] at hdir
      exact hdir

/-- Directories fail to be created for no other reason. -/
theorem makeAll_fault {dirs : List Path} {fault : Fault} (h : (makeAll t dirs).2 = some fault) :
    ∃ dir cause, fault = .directory dir cause := by
  induction dirs generalizing t with
  | nil => cases h
  | cons dir rest ih =>
    rw [makeAll] at h
    split at h
    · exact ih h
    · next cause _ => exact ⟨dir, cause, (Option.some.inj h).symm⟩

theorem keeps_prepare (l : Layout) (t : FileTree) (target : Path) :
    Keeps [] t (l.prepare t target).1 := by
  rw [prepare]
  split
  · exact .refl [] t
  · exact keeps_makeAll _ _

/-! ## Preparing again -/

theorem makeAll_again {dirs : List Path} (h : Grows (makeAll t dirs).1 t') :
    makeAll t' dirs = (t', (makeAll t dirs).2) := by
  induction dirs generalizing t with
  | nil => rfl
  | cons dir rest ih =>
    simp only [makeAll] at h ⊢
    rcases hmade : t.makeDirectories dir with ⟨t₁, _ | cause⟩
    · simp only [hmade] at h ⊢
      have hdir : Grows (t.makeDirectories dir).1 t' := by
        rw [hmade]
        exact (keeps_makeAll t₁ rest).grows.trans h
      rw [FileTree.makeDirectories_again hdir, hmade]
      exact ih h
    · simp only [hmade] at h ⊢
      have hdir : Grows (t.makeDirectories dir).1 t' := by rwa [hmade]
      rw [FileTree.makeDirectories_again hdir, hmade]

/-- In a later tree nothing is left to do, unless the directory of a new project is there now. -/
theorem prepare_again {l : Layout} (h : Grows (l.prepare t target).1 t') :
    l.prepare t' target =
      if l.mode = .createNew ∧ t'.contains (target.join l.sourceRoot) then
        (t', some (.occupied (target.join l.sourceRoot)))
      else (t', (l.prepare t target).2) := by
  rw [prepare]
  split
  · rfl
  · next hfree =>
    have hbefore : ¬ (l.mode = .createNew ∧ t.contains (target.join l.sourceRoot)) := by
      rintro ⟨hmode, hcontains⟩
      exact hfree ⟨hmode, ((keeps_prepare l t target).grows.trans h).contains hcontains⟩
    rw [prepare, if_neg hbefore] at h ⊢
    exact makeAll_again h

/-- The directories that were created are found afterwards. -/
theorem locate_makeAll {dirs : List Path} (h : (makeAll t dirs).2 = none) {dir : Path}
    (hdir : dir ∈ dirs) :
    ∃ l, (makeAll t dirs).1.locate dir = .ok l ∧
      FileTree.entry? (makeAll t dirs).1 l = some .directory := by
  induction dirs generalizing t with
  | nil => exact absurd hdir List.not_mem_nil
  | cons first rest ih =>
    simp only [makeAll] at h ⊢
    rcases hmade : t.makeDirectories first with ⟨t₁, _ | cause⟩
    · simp only [hmade] at h ⊢
      rcases List.mem_cons.1 hdir with rfl | hdir
      · have hnone : (t.makeDirectories dir).2 = none := by rw [hmade]
        obtain ⟨l, hl, hentry⟩ := FileTree.locate_makeDirectories hnone
        rw [hmade] at hl hentry
        have hgrows := (keeps_makeAll t₁ rest).grows
        exact ⟨l, hgrows.locate hl, hgrows.directory hentry⟩
      · exact ih h hdir
    · simp [hmade] at h

theorem prepare_of_free {l : Layout}
    (h : ¬ (l.mode = .createNew ∧ t.contains (target.join l.sourceRoot))) :
    l.prepare t target =
      makeAll t (PackageKind.all.map fun kind => target.join (l.packageDir kind)) := by
  rw [prepare, if_neg h]

/-- A project can only be prepared when its source root is free. -/
theorem free_of_prepare {l : Layout} (h : (l.prepare t target).2 = none) :
    ¬ (l.mode = .createNew ∧ t.contains (target.join l.sourceRoot)) := by
  intro hoccupied
  rw [prepare, if_pos hoccupied] at h
  cases h

/-- A project is given up for its source root, or for a directory. -/
theorem fault_of_prepare {l : Layout} {fault : Fault} (h : (l.prepare t target).2 = some fault) :
    (l.mode = .createNew ∧ t.contains (target.join l.sourceRoot)) ∨
      ∃ dir cause, fault = .directory dir cause := by
  by_cases hfree : l.mode = .createNew ∧ t.contains (target.join l.sourceRoot)
  · exact .inl hfree
  · rw [prepare_of_free hfree] at h
    exact .inr (makeAll_fault h)

/-- The packages of a project that was prepared are found afterwards. -/
theorem locate_prepare {l : Layout} (h : (l.prepare t target).2 = none) (kind : PackageKind) :
    ∃ place, (l.prepare t target).1.locate (target.join (l.packageDir kind)) = .ok place ∧
      FileTree.entry? (l.prepare t target).1 place = some .directory := by
  have hfree := free_of_prepare h
  rw [prepare_of_free hfree] at h ⊢
  exact locate_makeAll h (List.mem_map_of_mem (by cases kind <;> decide))

/-! ## Files below the source root -/

/-- Below any target, a package goes on from the source root when no part of its name is
absolute. -/
theorem starts_packageDir {l : Layout}
    (h : ∀ piece ∈ Text.pieces '.' l.ns, ¬ (Path.mk piece).isAbsolute) (target : Path)
    (kind : PackageKind) :
    (target.join l.sourceRoot).Starts (target.join (l.packageDir kind)) := by
  have hkind : ¬ (Path.mk kind.text).isAbsolute := by cases kind <;> decide
  rw [packageDir, ← Path.join_assoc, Path.join_extend]
  exact (Path.starts_extend _ h).trans (Path.starts_join _ hkind)

/-- A project that was prepared has its source root when no part of its namespace is absolute. -/
theorem contains_sourceRoot {l : Layout} (hroot : l.sourceRoot.text ≠ "")
    (hns : ∀ piece ∈ Text.pieces '.' l.ns, ¬ (Path.mk piece).isAbsolute)
    (h : (l.prepare t target).2 = none) :
    (l.prepare t target).1.contains (target.join l.sourceRoot) := by
  obtain ⟨place, hplace, hentry⟩ := locate_prepare h .commands
  apply FileTree.contains_of_starts (Path.join_text_ne target hroot)
    (starts_packageDir hns target .commands) (FileTree.pathFault?_of_locate hplace) rfl hplace
  rw [hentry]
  rfl

/-- Neither a part of the package name nor the file name starts with a slash. -/
def Rooted (l : Layout) (className : String) : Prop :=
  (∀ piece ∈ Text.pieces '.' l.ns, ¬ (Path.mk piece).isAbsolute) ∧
    ¬ (Path.mk (className ++ ".java")).isAbsolute

instance (l : Layout) (className : String) : Decidable (l.Rooted className) :=
  inferInstanceAs (Decidable (_ ∧ _))

/-- Below any target, a file of a package goes on from the source root. -/
theorem Rooted.starts {l : Layout} {className : String} (h : l.Rooted className) (target : Path)
    (kind : PackageKind) :
    (target.join l.sourceRoot).Starts
      (target.join ((l.packageDir kind).join ⟨className ++ ".java"⟩)) := by
  rw [← Path.join_assoc]
  exact (starts_packageDir h.1 target kind).trans (Path.starts_join _ h.2)

/-- A new project is not prepared where something stands at a path that one of its files has. -/
theorem Rooted.occupied {l : Layout} {className : String} (h : l.Rooted className)
    (hmode : l.mode = .createNew) (hroot : l.sourceRoot.text ≠ "") {kind : PackageKind}
    {p q : Path} (hq : q = target.join ((l.packageDir kind).join ⟨className ++ ".java"⟩))
    (hcomponents : p.components = q.components) (hfault : FileTree.pathFault? q = none)
    {place : Location} (hplace : t.locate p = .ok place) (hentry : (t.entry? place).isSome) :
    l.prepare t target = (t, some (.occupied (target.join l.sourceRoot))) := by
  have hstarts := h.starts target kind
  rw [← hq] at hstarts
  have hcontains := FileTree.contains_of_starts (Path.join_text_ne target hroot) hstarts hfault
    hcomponents hplace hentry
  rw [prepare, if_pos ⟨hmode, hcontains⟩]

/-! ## Directories below the target -/

/-- The name of the context leads no directory of its project out of the target directory. -/
def NameStays (c : Context) (mode : ProjectMode) : Prop :=
  (mode = .createNew → (Path.mk c.projectName).Contained) ∧
    ∀ piece ∈ Text.pieces '.' (Text.lowerFirst c.projectName), ¬ (Path.mk piece).isAbsolute

instance (c : Context) (mode : ProjectMode) : Decidable (NameStays c mode) :=
  inferInstanceAs (Decidable (_ ∧ _))

theorem contained_piece {s piece : String} (h : piece ∈ Text.pieces '.' s) :
    (Path.mk piece).Contained ↔ ¬ (Path.mk piece).isAbsolute :=
  Path.contained_of_no_dot (Text.not_mem_of_mem_pieces h)

theorem contained_sourceRoot (c : Context) (base : String) (mode : ProjectMode) :
    (ofContext c base mode).sourceRoot.Contained ↔
      (mode = .createNew → (Path.mk c.projectName).Contained) := by
  have hsrc : (Path.mk "src").Contained := by decide
  have hnil : (Path.mk "").Contained := by decide
  cases mode with
  | createNew => simp only [ofContext, Path.contained_join, hsrc, and_true, forall_const]
  | useExisting => simp only [ofContext, hnil, reduceCtorEq, false_imp_iff]

/-- When no part of the base namespace is absolute, the packages of a context lie below the target
directory exactly when its name stays. -/
theorem contained_packageDir (c : Context) {base : String} (mode : ProjectMode)
    (hbase : ∀ piece ∈ Text.pieces '.' base, ¬ (Path.mk piece).isAbsolute) (kind : PackageKind) :
    ((ofContext c base mode).packageDir kind).Contained ↔ NameStays c mode := by
  have hkind : (Path.mk kind.text).Contained := by cases kind <;> decide
  have hns : (ofContext c base mode).ns =
      base ++ String.singleton '.' ++ Text.lowerFirst c.projectName := rfl
  rw [packageDir, Path.contained_join, Path.contained_extend, contained_sourceRoot, hns,
    Text.pieces_append, NameStays]
  constructor
  · rintro ⟨⟨hroot, hpieces⟩, -⟩
    exact ⟨hroot, fun piece hpiece => (hpieces piece (List.mem_append_right _ hpiece)).1⟩
  · rintro ⟨hroot, hpieces⟩
    refine ⟨⟨hroot, fun piece hpiece => ?_⟩, hkind⟩
    rcases List.mem_append.1 hpiece with hpiece | hpiece
    · exact (contained_piece hpiece).2 (hbase piece hpiece)
    · exact (contained_piece hpiece).2 (hpieces piece hpiece)

end EventForge.Layout
