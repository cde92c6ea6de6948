import EventForge.Java.Imports
import EventForge.Proofs.Dict

/-!
# The names of an import list

The names of a package are sorted, so none of them occurs twice; adding the names of a package that
has none yet appends them as one group.
-/

namespace EventForge.Java

theorem mem_insertName {name n : String} {names : List String} :
    n ∈ insertName name names ↔ n = name ∨ n ∈ names := by
  induction names with
  | nil => simp [insertName]
  | cons m names ih =>
    rw [insertName]
    split
    · exact List.mem_cons
    · split
      · next heq =>
        subst heq
        simp
      · rw [List.mem_cons, ih, List.mem_cons]
        exact or_left_comm

theorem sorted_insertName {name : String} {names : List String} (h : names.Pairwise (· < ·)) :
    (insertName name names).Pairwise (· < ·) := by
  induction names with
  | nil => exact List.pairwise_singleton _ _
  | cons n names ih =>
    obtain ⟨hn, hnames⟩ := List.pairwise_cons.1 h
    rw [insertName]
    split
    · next hlt =>
      refine List.pairwise_cons.2 ⟨fun m hm => ?_, h⟩
      rcases List.mem_cons.1 hm with rfl | hm
      · exact hlt
      · exact String.lt_trans hlt (hn m hm)
    · next hge =>
      split
      · exact h
      · next hne =>
        refine List.pairwise_cons.2 ⟨fun m hm => ?_, ih hnames⟩
        rcases mem_insertName.1 hm with rfl | hm
        · exact Decidable.byContradiction fun hle =>
            hne (String.le_antisymm (String.not_lt.1 hle) (String.not_lt.1 hge))
        · exact hn m hm

theorem foldl_insertName (names : List String) {start : List String}
    (h : start.Pairwise (· < ·)) :
    (names.foldl (fun acc n => insertName n acc) start).Pairwise (· < ·) ∧
      ∀ n, n ∈ names.foldl (fun acc n => insertName n acc) start ↔ n ∈ names ∨ n ∈ start := by
  induction names generalizing start with
  | nil => exact ⟨h, by simp⟩
  | cons m names ih =>
    obtain ⟨hsorted, hmem⟩ := ih (sorted_insertName h)
    refine ⟨hsorted, fun n => ?_⟩
    rw [List.foldl_cons, hmem, mem_insertName, List.mem_cons]
    exact or_left_comm.trans or_assoc.symm

theorem sorted_sortedNames (names : List String) : (sortedNames names).Pairwise (· < ·) :=
  (foldl_insertName names List.Pairwise.nil).1

/-- A sorted list of names has each of the names once. -/
theorem nodup_sortedNames (names : List String) : (sortedNames names).Nodup :=
  (sorted_sortedNames names).imp fun h => String.ne_of_lt h

theorem mem_sortedNames {names : List String} {n : String} : n ∈ sortedNames names ↔ n ∈ names := by
  rw [sortedNames, (foldl_insertName names List.Pairwise.nil).2]
  simp

namespace Imports

variable {imports : Imports} {package : String}

theorem upsert_last {es : List (String × List String)} (h : package ∉ es.map Prod.fst)
    (old new : List String) :
    upsert (es ++ [(package, old)]) package new = es ++ [(package, new)] := by
  induction es with
  | nil => simp [upsert]
  | cons e es ih =>
    rw [List.map_cons, List.mem_cons, not_or] at h
    rw [List.cons_append, upsert, if_neg (Ne.symm h.1), ih h.2, List.cons_append]

theorem find?_last {es : List (String × List String)} (h : package ∉ es.map Prod.fst)
    (names : List String) : find? (es ++ [(package, names)]) package = some names := by
  have hnone : find? es package = none := by
    rw [← Option.not_isSome_iff_eq_none, find?_isSome_iff]
    exact h
  rw [find?_append, hnone]
  simp

/-- Names of a package that has none yet make one group at the end. -/
theorem entries_addAll (h : package ∉ imports.keys) (names : List String) :
    (imports.addAll package names).entries =
      imports.entries ++ (if names = [] then [] else [(package, sortedNames names)]) := by
  have hlast : ∀ (names acc : List String) (i : Imports),
      i.entries = imports.entries ++ [(package, acc)] →
      (i.addAll package names).entries =
        imports.entries ++ [(package, names.foldl (fun acc n => insertName n acc) acc)] := by
    intro names
    induction names with
    | nil => exact fun acc i hi => hi
    | cons n names ih =>
      intro acc i hi
      refine ih (insertName n acc) (i.add package n) ?_
      rw [Imports.add, extend, Dict.entries_insert, Dict.get?, hi, find?_last h, upsert_last h]
      rfl
  cases names with
  | nil => simp [addAll]
  | cons n names =>
    have hfirst : (imports.add package n).entries = imports.entries ++ [(package, [n])] := by
      have hnone : imports.get? package = none := by
        rw [← Option.not_isSome_iff_eq_none, Dict.get?, find?_isSome_iff]
        exact h
      rw [Imports.add, extend, Dict.entries_insert, hnone, upsert_of_not_mem h]
      rfl
    rw [if_neg (List.cons_ne_nil _ _)]
    exact hlast names [n] _ hfirst

/-- A name is imported from a package when it stands in the group of that package. -/
theorem hasName_iff {n : String} :
    imports.hasName package n ↔ ∃ names, (package, names) ∈ imports.entries ∧ n ∈ names := by
  rw [hasName, List.contains_iff_mem]
  constructor
  · intro h
    cases hget : imports.get? package with
    | none => simp [hget] at h
    | some names =>
      rw [hget] at h
      exact ⟨names, Dict.mem_of_get? hget, h⟩
  · rintro ⟨names, hmem, hn⟩
    rw [Dict.get?_of_mem hmem]
    exact hn

end Imports

end EventForge.Java
