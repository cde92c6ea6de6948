import EventForge.Proofs.FileTree

/-!
# Places with directories above

A path leads to a place through every place above it, so all of these are directories
(`standing_of_locate`). A path without steps up leads nowhere else: when it leads in some tree to a
place that has its directories, it leads there in this tree too (`Standing.locate`).
-/

namespace EventForge.FileTree

variable {t t' : FileTree} {l l' next : Location} {c : Component} {p : Path}

/-- Every place above is a directory. -/
def Standing (t : FileTree) (l : Location) : Prop :=
  ∀ above name below, l = above ++ name :: below → t.entry? above = some .directory

theorem standing_nil (t : FileTree) : t.Standing [] := by
  intro above name below h
  simp at h

/-- What is above the place one name further is above the place, or the place itself. -/
theorem Standing.append (h : t.Standing l) (hl : t.entry? l = some .directory) (name : String) :
    t.Standing (l ++ [name]) := by
  intro above name' below heq
  obtain rfl | ⟨front, last, rfl⟩ := List.eq_nil_or_concat below
  · rw [← (List.append_inj' heq rfl).1]
    exact hl
  · rw [List.concat_eq_append, ← List.cons_append, ← List.append_assoc] at heq
    exact h above name' front (List.append_inj' heq rfl).1

theorem Standing.dropLast (h : t.Standing l) : t.Standing l.dropLast := by
  intro above name below heq
  have hne : l ≠ [] := by
    rintro rfl
    simp at heq
  apply h above name (below ++ [l.getLast hne])
  rw [← List.cons_append, ← List.append_assoc, ← heq, List.dropLast_concat_getLast]

theorem Standing.step (h : t.Standing l) (hl : t.entry? l = some .directory)
    (hstep : step l c = .ok next) : t.Standing next := by
  cases c with
  | root =>
    obtain rfl := Except.ok.inj hstep
    exact (standing_nil t).append rfl "/"
  | here =>
    obtain rfl := Except.ok.inj hstep
    exact h
  | up =>
    obtain rfl := Except.ok.inj hstep
    rw [Location.up]
    split
    · exact h
    · split
      · exact h.append hl ".."
      · exact h.dropLast
  | name n =>
    obtain ⟨-, rfl⟩ := step_name_eq_ok.1 hstep
    exact h.append hl n

theorem standing_of_locateFrom {cs : List Component} (h : t.Standing l)
    (hl : t.locateFrom l cs = .ok l') : t.Standing l' := by
  induction cs generalizing l with
  | nil =>
    obtain rfl := Except.ok.inj hl
    exact h
  | cons c rest ih =>
    obtain ⟨hdir, next, hstep, hrest⟩ := locateFrom_cons_eq_ok.1 hl
    exact ih (h.step hdir hstep) hrest

/-- Where a path leads, all directories above are there. -/
theorem standing_of_locate (h : t.locate p = .ok l) : t.Standing l :=
  standing_of_locateFrom (standing_nil t) (locate_eq_ok.1 h).2

/-- Names lead to a place that has its directories, if they lead there in some tree. -/
theorem Standing.locateFrom {names : List String} (h : t.Standing l')
    (hl : t'.locateFrom l (names.map .name) = .ok l') :
    t.locateFrom l (names.map .name) = .ok l' := by
  induction names generalizing l with
  | nil => exact hl
  | cons n names ih =>
    obtain ⟨-, next, hstep, hrest⟩ := locateFrom_cons_eq_ok.1 hl
    -- The place goes on from here, so this is a directory.
    have hdir : t.entry? l = some .directory := by
      apply h l n names
      rw [locateFrom_names hl]
    exact locateFrom_cons_eq_ok.2 ⟨hdir, next, hstep, ih hrest⟩

/-- A path without steps up leads to a place that has its directories, if it leads there in some
tree. -/
theorem Standing.locate (h : t.Standing l) (hup : .up ∉ p.components) (hl : t'.locate p = .ok l) :
    t.locate p = .ok l := by
  obtain ⟨start, rest, hcomponents, hstart, hrest⟩ := p.exists_start
  obtain ⟨names, rfl⟩ : ∃ names : List String, rest = names.map .name := by
    refine Path.exists_map_name fun c hc => (hrest c hc).resolve_left ?_
    rintro rfl
    exact hup (hcomponents ▸ List.mem_append_right start hc)
  -- The root and the working directory are there in every tree.
  have hstarted : ∃ first, ∀ t : FileTree,
      t.locateFrom [] (start ++ names.map .name) = t.locateFrom first (names.map .name) := by
    rcases hstart with rfl | rfl | rfl
    · exact ⟨[], fun _ => rfl⟩
    · exact ⟨["/"], fun _ => rfl⟩
    · exact ⟨[], fun _ => rfl⟩
  obtain ⟨first, hfirst⟩ := hstarted
  rw [locate_eq_ok, hcomponents, hfirst] at hl ⊢
  exact ⟨hl.1, h.locateFrom hl.2⟩

end EventForge.FileTree
