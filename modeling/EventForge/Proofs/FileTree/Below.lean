import EventForge.Proofs.FileTree.Repetition

/-!
# What comes to stand below a directory

A path that stays below a directory is walked from there, name by name. Creating directories along
it and saving a file at it add nothing but what the way passes through (`addsOnly_makeDirectories`,
`addsOnly_save`).
-/

namespace EventForge

variable {t : FileTree} {base l place : Location} {target p q dir : Path} {names : List String}

/-- From the base, the way along the path passes through the place. -/
def Path.Passes (base : Location) (q : Path) (place : Location) : Prop :=
  ∃ names, q.steps = names.map .name ∧ place <+: base ++ names

namespace FileTree

/-- The path leads to a directory with nothing below it. -/
def EmptyDirectory (t : FileTree) (p : Path) : Prop :=
  ∃ base, t.locate p = .ok base ∧ t.entry? base = some .directory ∧
    ∀ n rest, n ≠ "/" → n ≠ ".." → t.entry? (base ++ n :: rest) = none

/-- At the start nothing stands in the working directory. -/
theorem emptyDirectory_empty {p : Path} (h : (∅ : FileTree).locate p = .ok []) :
    (∅ : FileTree).EmptyDirectory p := by
  refine ⟨[], h, rfl, fun n rest hroot hup => ?_⟩
  have hground : Location.isGround (n :: rest) = false := by simp [Location.isGround, hroot, hup]
  rw [List.nil_append, entry?, hground]
  rfl

/-- Along directories that are there nothing has to be created. -/
theorem makeAlong_append {cs : List Component} (h : t.locateFrom l cs = .ok place)
    (hplace : t.entry? place = some .directory) (ds : List Component) :
    t.makeAlong l (cs ++ ds) = t.makeAlong place ds := by
  induction cs generalizing l with
  | nil => rw [List.nil_append, Except.ok.inj h]
  | cons c rest ih =>
    obtain ⟨-, next, hstep, hrest⟩ := locateFrom_cons_eq_ok.1 h
    have hnext : t.entry? next = some .directory := by
      rcases entry?_of_locateFrom hrest with hdir | rfl
      · exact hdir
      · exact hplace
    simp only [List.cons_append, makeAlong, hstep, hnext]
    exact ih hrest

/-- Whatever stands in the later tree stood in the earlier one, or is at one of the places. -/
def AddsOnly (t t' : FileTree) (P : Location → Prop) : Prop :=
  ∀ place, (t'.entry? place).isSome → (t.entry? place).isSome ∨ P place

theorem AddsOnly.refl (t : FileTree) (P : Location → Prop) : AddsOnly t t P :=
  fun _ h => .inl h

theorem AddsOnly.trans {t' t'' : FileTree} {P : Location → Prop} (h : AddsOnly t t' P)
    (h' : AddsOnly t' t'' P) : AddsOnly t t'' P :=
  fun place hplace => (h' place hplace).elim (h place) .inr

theorem AddsOnly.mono {t' : FileTree} {P Q : Location → Prop}
    (h : AddsOnly t t' P) (hmono : ∀ place, P place → Q place) :
    AddsOnly t t' Q :=
  fun place hplace => (h place hplace).imp_right (hmono place)

theorem addsOnly_set {P : Location → Prop} (h : P l) (e : FileEntry) :
    AddsOnly t (t.set l e) P := by
  intro place hplace
  rw [entry?_set] at hplace
  split at hplace
  · next hground =>
    left
    simp [FileTree.entry?, hground]
  · split at hplace
    · next hsame => exact .inr (hsame ▸ h)
    · exact .inl hplace

theorem addsOnly_makeAlong (t : FileTree) (l : Location) (names : List String) :
    AddsOnly t (t.makeAlong l (names.map .name)).1 (· <+: l ++ names) := by
  induction names generalizing t l with
  | nil => exact .refl t _
  | cons n names ih =>
    rw [List.map_cons, makeAlong]
    by_cases hlong : n.utf8ByteSize ≤ nameLimit
    · have hway : l ++ n :: names = l ++ [n] ++ names := by simp
      rw [step, if_pos hlong, hway]
      rcases hentry : t.entry? (l ++ [n]) with _ | _ | text
      · simp only [hentry]
        have hset : AddsOnly t (t.set (l ++ [n]) .directory) (· <+: l ++ [n] ++ names) :=
          by
            apply addsOnly_set
            exact List.prefix_append _ _
        exact hset.trans (ih _ _)
      · simp only [hentry]
        exact ih t _
      · simp only [hentry]
        exact .refl t _
    · rw [step, if_neg hlong]
      exact .refl t _

section Base

variable (hbase : t.locate target = .ok base) (hdir : t.entry? base = some .directory)
  (hq : q.Contained)

include hbase hq

/-- Where a path below the target leads, its own steps lead from the base. -/
theorem locate_below (h : t.locate (target.join q) = .ok place) :
    t.locateFrom base q.steps = .ok place := by
  obtain ⟨-, base', hbase', hfrom⟩ := (locate_join_eq_ok hq.1).1 h
  rw [hbase] at hbase'
  cases hbase'
  exact hfrom

/-- A path below the target goes on by names from steps that lead to the base. -/
theorem exists_components_below : ∃ (front : List Component) (names : List String),
    q.steps = names.map .name ∧ (target.join q).components = front ++ names.map .name ∧
      t.locateFrom [] front = .ok base := by
  obtain ⟨front, hcomponents, hfront⟩ := exists_front target hq.1
  obtain ⟨names, hnames⟩ := hq.exists_names
  refine ⟨front, names, hnames, by rw [hcomponents, hnames], ?_⟩
  rw [hfront]
  exact (locate_eq_ok.1 hbase).2

include hdir

theorem addsOnly_makeDirectories :
    AddsOnly t (t.makeDirectories (target.join q)).1 (q.Passes base) := by
  rw [makeDirectories]
  split
  · exact .refl t _
  · obtain ⟨front, names, hnames, hcomponents, hfront⟩ := exists_components_below hbase hq
    rw [hcomponents, makeAlong_append hfront hdir]
    exact (addsOnly_makeAlong t base names).mono fun place hplace => ⟨names, hnames, hplace⟩

omit hdir in
/-- The file itself comes to stand at the end of the way. -/
theorem addsOnly_write (text : String) :
    AddsOnly t (t.write (target.join q) text).1 (q.Passes base) := by
  rcases write_cases t (target.join q) text with ⟨l, hl, -, -, heq⟩ | ⟨fault, heq⟩
  · obtain ⟨base', names, hbase', hnames, rfl⟩ := locate_join_contained hq hl
    rw [hbase] at hbase'
    cases hbase'
    rw [heq]
    exact addsOnly_set ⟨names, hnames, List.prefix_rfl⟩ _
  · rw [heq]
    exact .refl t _

/-- The directory of a file is on the way to it. -/
theorem addsOnly_makeParent {dir : Path} (hne : q.steps ≠ [])
    (hparent : (target.join q).parent? = some dir) :
    AddsOnly t (t.makeDirectories dir).1 (q.Passes base) := by
  obtain ⟨c, hc⟩ := Path.components_of_parent? hparent
  obtain ⟨front, names, hnames, hcomponents, hfront⟩ := exists_components_below hbase hq
  rw [makeDirectories]
  split
  · exact .refl t _
  · obtain ⟨before, last, hlast⟩ := (List.eq_nil_or_concat names).resolve_left fun hnil =>
      hne (by rw [hnames, hnil]; rfl)
    rw [hcomponents, hlast, List.concat_eq_append, List.map_append,
      ← List.append_assoc] at hc
    rw [← (List.append_inj' hc rfl).1, makeAlong_append hfront hdir]
    refine (addsOnly_makeAlong t base before).mono fun place hplace => ⟨names, hnames, ?_⟩
    rw [hlast, List.concat_eq_append, ← List.append_assoc]
    exact hplace.trans (List.prefix_append _ _)

theorem addsOnly_save (text : String) (hne : q.steps ≠ []) :
    AddsOnly t (t.save (target.join q) text).1 (q.Passes base) := by
  rw [save]
  split
  · exact addsOnly_write hbase hq text
  · next dir hparent =>
    have hmade := addsOnly_makeParent hbase hdir hq hne hparent
    have hgrows := grows_makeDirectories t dir
    rcases hresult : t.makeDirectories dir with ⟨t₁, _ | cause⟩
    · rw [hresult] at hmade hgrows
      exact hmade.trans (addsOnly_write (hgrows.locate hbase) hq text)
    · rw [hresult] at hmade
      exact hmade

end Base

end FileTree

end EventForge
