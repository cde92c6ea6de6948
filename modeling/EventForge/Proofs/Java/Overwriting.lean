import EventForge.Proofs.Java.Run
import EventForge.Proofs.Model

/-!
# Files that a run overwrites

The files of one context have paths of their own, and a new project is refused when one of its paths
is taken. So a run overwrites a file of its own only through a project that has no directory of its
own, or whose package or class name leaves it (`written_distinct_iff`).
-/

namespace EventForge.Java.Generator

variable {g : Generator} {target : Path} {t : FileTree} {fs : List SourceFile}

/-- The file lies in the directory that its project has to itself. -/
def SavedProject.Confines (b : SavedProject) (f : SourceFile) : Prop :=
  b.project.2.mode = .createNew ∧ b.project.2.Rooted f.declaration.name

instance (b : SavedProject) (f : SourceFile) : Decidable (b.Confines f) :=
  inferInstanceAs (Decidable (_ ∧ _))

/-- No file of an earlier project has the path of a file that the later one confines. -/
def SavedProject.Apart (a b : SavedProject) : Prop :=
  ∀ f ∈ a.files, ∀ k ∈ b.files, b.Confines k → ¬ f.path.same k.path

/-- The path of a file that is already saved is not saved again in a directory that is new. -/
theorem HoldsAll.not_same (h : HoldsAll target t fs) {p : Context × Layout} (hp : p ∈ g.projects)
    {f k : SourceFile} (hf : f ∈ fs) (hk : k ∈ g.savedOf target t p)
    (hconfines : SavedProject.Confines ⟨p, g.savedOf target t p⟩ k) : ¬ f.path.same k.path := by
  intro hsame
  obtain ⟨hmode, hrooted⟩ := hconfines
  have hroot := sourceRoot_ne_of_new hp hmode
  obtain ⟨kind, hpath⟩ := exists_path_eq ((savedOf_sublist g target t p).mem hk)
  have hcomponents : (f.pathBelow target).components = (k.pathBelow target).components := by
    rw [SourceFile.pathBelow_eq, SourceFile.pathBelow_eq]
    exact Path.components_join_congr target (by simpa [Path.same] using hsame)
  obtain ⟨l, hl, -, _, last, _, -, -, hentry, -⟩ := h f hf
  obtain ⟨l', hl', -⟩ := h.project g p k (List.mem_append_right _ hk)
  -- The saved file stands at the common path, so the source root above it is taken.
  have hoccupied := hrooted.occupied hmode hroot (by rw [SourceFile.pathBelow_eq, hpath])
    hcomponents
    (FileTree.pathFault?_of_locate hl') hl (by rw [hentry]; rfl)
  rw [savedOf, hoccupied] at hk
  exact List.not_mem_nil hk

theorem HoldsAll.log_not_same (h : HoldsAll target t fs) {projects : List (Context × Layout)}
    (hprojects : projects ⊆ g.projects) {b : SavedProject} (hb : b ∈ g.log target t projects)
    {f k : SourceFile} (hf : f ∈ fs) (hk : k ∈ b.files) (hconfines : b.Confines k) :
    ¬ f.path.same k.path := by
  induction projects generalizing t fs with
  | nil => exact absurd hb List.not_mem_nil
  | cons p rest ih =>
    rw [List.cons_subset] at hprojects
    rw [log] at hb
    rcases List.mem_cons.1 hb with rfl | hb
    · exact h.not_same hprojects.1 hf hk hconfines
    · exact ih (h.project g p) hprojects.2 hb (List.mem_append_left _ hf)

theorem HoldsAll.log_apart (h : HoldsAll target t fs) {projects : List (Context × Layout)}
    (hprojects : projects ⊆ g.projects) :
    (g.log target t projects).Pairwise SavedProject.Apart := by
  induction projects generalizing t fs with
  | nil => exact .nil
  | cons p rest ih =>
    rw [List.cons_subset] at hprojects
    rw [log, List.pairwise_cons]
    refine ⟨fun b hb f hf k hk hconfines => ?_, ih (h.project g p) hprojects.2⟩
    exact (h.project g p).log_not_same hprojects.2 hb (List.mem_append_right _ hf) hk hconfines

/-- The files saved for one project have paths of their own. -/
theorem saved_distinct {a : SavedProject} (h : a ∈ g.saved t target) :
    a.files.Pairwise fun f k => ¬ f.path.same k.path :=
  (ContextFiles.distinct_ofContext _ _).sublist (mem_log h).2

theorem read?_eq_some {p : Path} {text : String} {l : Location} (hl : t.locate p = .ok l)
    (hask : p.asksDirectory = false) (hentry : t.entry? l = some (.file text)) :
    t.read? p = some text := by
  simp [FileTree.read?, FileTree.lookup?, hl, hentry, hask]

/-- After a run, the path of a saved file holds the text of the last file saved at its place. -/
theorem read?_saved (g : Generator) (t : FileTree) (target : Path) {f : SourceFile}
    (h : f ∈ g.savedInOrder t target) :
    ∃ earlier last later,
      g.savedInOrder t target = earlier ++ last :: later ∧
      (g.generate t target).1.locate (last.pathBelow target) =
        (g.generate t target).1.locate (f.pathBelow target) ∧
      (∀ k ∈ later, (g.generate t target).1.locate (k.pathBelow target) ≠
        (g.generate t target).1.locate (f.pathBelow target)) ∧
      (g.generate t target).1.read? (f.pathBelow target) = some last.text := by
  obtain ⟨l, hl, hask, earlier, last, later, heq, hlast, hentry, hlater⟩ :=
    holdsAll_saved g t target f h
  refine ⟨earlier, last, later, heq, by rw [hl, hlast], fun k hk => ?_,
    read?_eq_some hl hask hentry⟩
  rw [hl]
  exact hlater k hk

/-- Saved files keep their texts exactly when those that lead to one place have the same text. -/
theorem read?_saved_iff (g : Generator) (t : FileTree) (target : Path) :
    (∀ f ∈ g.savedInOrder t target,
      (g.generate t target).1.read? (f.pathBelow target) = some f.text) ↔
    ∀ f ∈ g.savedInOrder t target, ∀ k ∈ g.savedInOrder t target,
      (g.generate t target).1.locate (f.pathBelow target) =
        (g.generate t target).1.locate (k.pathBelow target) → f.text = k.text := by
  constructor
  · intro h f hf k hk hplace
    obtain ⟨lf, hlf, haskf, _, last, _, -, -, hentry, -⟩ := holdsAll_saved g t target f hf
    obtain ⟨lk, hlk, haskk, -⟩ := holdsAll_saved g t target k hk
    have hsame : lk = lf := by
      rw [hlf, hlk] at hplace
      exact (Except.ok.inj hplace).symm
    rw [hsame] at hlk
    have hreadf := h f hf
    have hreadk := h k hk
    rw [read?_eq_some hlf haskf hentry] at hreadf
    rw [read?_eq_some hlk haskk hentry] at hreadk
    exact Option.some.inj (hreadf.symm.trans hreadk)
  · intro h f hf
    obtain ⟨earlier, last, later, heq, hplace, -, hread⟩ := read?_saved g t target hf
    rw [hread, h last (by rw [heq]; simp) f hf hplace]

theorem saved_apart (g : Generator) (t : FileTree) (target : Path) :
    (g.saved t target).Pairwise SavedProject.Apart :=
  (HoldsAll.nil target t).log_apart (List.Subset.refl _)

/-- Saved files whose names hold no slash have one path when they have one name in one directory. -/
theorem same_path_saved_iff (g : Generator) (t : FileTree) (target : Path) {f k : SourceFile}
    (hf : f ∈ g.savedInOrder t target) (hk : k ∈ g.savedInOrder t target)
    (hfname : '/' ∉ f.declaration.name.toList) (hkname : '/' ∉ k.declaration.name.toList) :
    f.path.same k.path ↔ f.dir.same k.dir ∧ f.declaration.name = k.declaration.name := by
  have hdir : ∀ {f}, f ∈ g.savedInOrder t target → f.dir.text ≠ "" := by
    intro f hf
    obtain ⟨a, ha, hfa⟩ := List.mem_flatMap.1 hf
    obtain ⟨kind, hdir⟩ := ContextFiles.liesIn_ofContext _ _ f ((mem_log ha).2.mem hfa)
    rw [hdir]
    exact Path.join_text_ne _ (by cases kind <;> decide)
  exact SourceFile.same_path_iff (hdir hf) (hdir hk) hfname hkname

theorem written_pairwise_iff (g : Generator) (t : FileTree) (target : Path) :
    (g.generate t target).2.written.Pairwise (fun p q => ¬ p.same q) ↔
      (g.saved t target).Pairwise fun a b =>
        ∀ f ∈ a.files, ∀ k ∈ b.files, ¬ b.Confines k → ¬ f.path.same k.path := by
  rw [written_eq, List.pairwise_map, savedInOrder, List.pairwise_flatMap]
  constructor
  · rintro ⟨-, hpairs⟩
    exact hpairs.imp fun h f hf k hk _ => h f hf k hk
  · intro hpairs
    refine ⟨fun a ha => saved_distinct ha, ?_⟩
    refine hpairs.imp₂ (fun a b hloose hapart f hf k hk => ?_) (saved_apart g t target)
    by_cases hconfines : b.Confines k
    · exact hapart f hf k hk hconfines
    · exact hloose f hf k hk hconfines

/-- New projects whose names lead nowhere else never write a path twice. -/
theorem written_pairwise_createNew (t : FileTree) (target : Path)
    (hmode : g.options.mode = .createNew)
    (hrooted : ∀ project ∈ g.projects, ∀ f ∈ (g.filesOf project).files,
      project.2.Rooted f.declaration.name) :
    (g.generate t target).2.written.Pairwise fun p q => ¬ p.same q := by
  rw [written_pairwise_iff]
  refine List.Pairwise.imp_of_mem ?_ (saved_apart g t target)
  intro a b _ hb _ f _ k hk hloose
  obtain ⟨hproject, hfiles⟩ := mem_log hb
  have hnew : b.project.2.mode = .createNew := by
    rw [layout_of_mem_projects hproject]
    exact hmode
  exact absurd ⟨hnew, hrooted _ hproject k (hfiles.mem hk)⟩ hloose

/-- A run writes no path twice exactly when no saved file that its project does not confine has the
path of a file saved for an earlier project: for names without slashes, its name in its directory.
New projects whose names lead nowhere else confine all of their files. And every saved file is found
with its own text exactly when those that lead to one place have one text. -/
theorem written_distinct_iff (g : Generator) (t : FileTree) (target : Path) :
    (g.generate t target).2.written = (g.savedInOrder t target).map SourceFile.path ∧
    ((g.generate t target).2.written.Pairwise (fun p q => ¬ p.same q) ↔
      (g.saved t target).Pairwise fun a b =>
        ∀ f ∈ a.files, ∀ k ∈ b.files, ¬ b.Confines k → ¬ f.path.same k.path) ∧
    (∀ f ∈ g.savedInOrder t target, ∀ k ∈ g.savedInOrder t target,
      '/' ∉ f.declaration.name.toList → '/' ∉ k.declaration.name.toList →
        (f.path.same k.path ↔ f.dir.same k.dir ∧ f.declaration.name = k.declaration.name)) ∧
    (g.options.mode = .createNew →
      (∀ project ∈ g.projects, ∀ f ∈ (g.filesOf project).files,
        project.2.Rooted f.declaration.name) →
      (g.generate t target).2.written.Pairwise fun p q => ¬ p.same q) ∧
    ((∀ f ∈ g.savedInOrder t target,
        (g.generate t target).1.read? (f.pathBelow target) = some f.text) ↔
      ∀ f ∈ g.savedInOrder t target, ∀ k ∈ g.savedInOrder t target,
        (g.generate t target).1.locate (f.pathBelow target) =
          (g.generate t target).1.locate (k.pathBelow target) → f.text = k.text) :=
  ⟨written_eq g t target, written_pairwise_iff g t target,
    fun _ hf _ hk => same_path_saved_iff g t target hf hk, written_pairwise_createNew t target,
    read?_saved_iff g t target⟩

/-- Two streams whose names differ in the case of a letter, each with an event of one name; both
are generated into the target directory itself. -/
def twinStreams : Generator :=
  .ofModel
    { Model.empty with
      streams := [⟨.uniform 1, "Orders"⟩, ⟨.uniform 2, "orders"⟩]
      events := Dict.ofList
        [(.uniform 3, ⟨.uniform 3, "Placed", some "An order was placed.", none⟩),
          (.uniform 4, ⟨.uniform 4, "Placed", some "A purchase order was placed.", none⟩)]
      placements := Dict.ofList
        [(.uniform 5, ⟨.uniform 5, 0, .event, .uniform 3, .stream, some (.uniform 1)⟩),
          (.uniform 6, ⟨.uniform 6, 0, .event, .uniform 4, .stream, some (.uniform 2)⟩)] }
    ⟨.fallback, .useExisting, .tab⟩

/-- The class of the second stream overwrites that of the first, and nothing is reported. -/
theorem twinStreams_overwritten :
    (twinStreams.generate ∅ ⟨"out"⟩).2 =
        ⟨[⟨"main/orders/events/Placed.java"⟩, ⟨"main/orders/events/Placed.java"⟩], [],
          ["DefaultStream"], []⟩ ∧
      ¬ (twinStreams.generate ∅ ⟨"out"⟩).2.written.Pairwise (fun p q => ¬ p.same q) ∧
      ∃ f ∈ twinStreams.savedInOrder ∅ ⟨"out"⟩,
        (twinStreams.generate ∅ ⟨"out"⟩).1.read? (f.pathBelow ⟨"out"⟩) ≠ some f.text := by
  have hresult : (twinStreams.generate ∅ ⟨"out"⟩).2 =
      ⟨[⟨"main/orders/events/Placed.java"⟩, ⟨"main/orders/events/Placed.java"⟩], [],
        ["DefaultStream"], []⟩ := by decide +kernel
  refine ⟨hresult, ?_, by decide +kernel⟩
  rw [hresult]
  decide

end EventForge.Java.Generator
