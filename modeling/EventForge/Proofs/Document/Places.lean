import EventForge.Proofs.Document.Entities
import EventForge.Proofs.Uuid

/-!
# The places of entries

A warning about an entry names its place. The places of different sections are different, and so are
those of the elements of different interfaces: an identifier is spelled without a full stop.
-/

namespace EventForge.Document

/-- The places of the entries of a section, in order. -/
def Section.places (s : Section) (fields : List (String × Json)) : List String :=
  match find? fields s.member with
  | some (.array items) =>
    (List.range items.length).map fun i => s.text ++ "[" ++ Text.decimal i ++ "]"
  | some (.object entries) => entries.map fun e => s.text ++ "." ++ e.1
  | _ => []

/-- The elements of an interface. -/
def elementsOf : Json → List (String × Json)
  | .object interface => membersOf interface "interface/elements"
  | _ => []

/-- The places of the elements of an entry of the interfaces, in order. -/
def elementPlaces (entry : String × Json) : List String :=
  (elementsOf entry.2).map fun e =>
    Section.interfaces.text ++ "." ++ entry.1 ++ ".elements" ++ "." ++ e.1

/-- The first word of a place. -/
def firstWord (place : String) : List Char :=
  place.toList.takeWhile fun c => c ≠ '.' && c ≠ '['

theorem firstWord_append {word rest : String} {c : Char} {cs : List Char}
    (hword : ∀ c ∈ word.toList, (c ≠ '.' && c ≠ '[') = true) (hrest : rest.toList = c :: cs)
    (hc : (c ≠ '.' && c ≠ '[') = false) : firstWord (word ++ rest) = word.toList := by
  rw [firstWord, String.toList_append, hrest, List.takeWhile_append_of_pos hword,
    List.takeWhile_cons_of_neg (by rw [hc]; decide), List.append_nil]

theorem Section.text_plain (s : Section) :
    ∀ c ∈ s.text.toList, (c ≠ '.' && c ≠ '[') = true := by
  have hall : (s.text.toList.all fun c => c ≠ '.' && c ≠ '[') = true := by
    cases s <;> decide
  exact List.all_eq_true.1 hall

theorem Section.text_injective : ∀ s t : Section, s.text.toList = t.text.toList → s = t := by
  intro s t
  cases s <;> cases t <;> decide

/-- The places of a section start with its name. -/
theorem firstWord_of_mem_places {s : Section} {fields : List (String × Json)} {place : String}
    (h : place ∈ s.places fields) : firstWord place = s.text.toList := by
  rw [Section.places] at h
  split at h
  · obtain ⟨i, -, rfl⟩ := List.mem_map.1 h
    have hrest : ("[" ++ (Text.decimal i ++ "]")).toList
        = '[' :: (Text.decimal i ++ "]").toList := by simp
    rw [String.append_assoc, String.append_assoc]
    exact firstWord_append s.text_plain hrest (by decide)
  · obtain ⟨e, -, rfl⟩ := List.mem_map.1 h
    have hrest : ("." ++ e.1).toList = '.' :: e.1.toList := by simp
    rw [String.append_assoc]
    exact firstWord_append s.text_plain hrest (by decide)
  · cases h

theorem firstWord_of_mem_elementPlaces {entry : String × Json} {place : String}
    (h : place ∈ elementPlaces entry) : firstWord place = Section.interfaces.text.toList := by
  obtain ⟨e, -, rfl⟩ := List.mem_map.1 h
  have hrest : ("." ++ (entry.1 ++ (".elements" ++ ("." ++ e.1)))).toList
      = '.' :: (entry.1 ++ (".elements" ++ ("." ++ e.1))).toList := by simp
  simp only [String.append_assoc]
  exact firstWord_append (Section.text_plain _) hrest (by decide)

/-- A text that is an identifier. -/
def IsId (key : String) : Prop := ∃ id, Uuid.ofText? key = some id

theorem IsId.no_stop {key : String} (h : IsId key) : '.' ∉ key.toList := by
  obtain ⟨id, hid⟩ := h
  intro hmem
  exact absurd (Uuid.isSpelling_of_ofText? hid '.' hmem) (by decide)

theorem takeWhile_append_stop {cs rest : List Char} (h : '.' ∉ cs) :
    (cs ++ '.' :: rest).takeWhile (· ≠ '.') = cs := by
  have hcs : ∀ c ∈ cs, decide (c ≠ '.') = true := by
    intro c hc
    exact decide_eq_true fun heq => h (heq ▸ hc)
  rw [List.takeWhile_append_of_pos hcs, List.takeWhile_cons_of_neg (by decide), List.append_nil]

/-- An element is not at the place of an interface. -/
theorem elementPlace_ne {entry : String × Json} {place key : String}
    (h : place ∈ elementPlaces entry) (hkey : IsId key) :
    place ≠ Section.interfaces.text ++ "." ++ key := by
  obtain ⟨e, -, rfl⟩ := List.mem_map.1 h
  intro heq
  have hkeyEq : key.toList = entry.1.toList ++ (".elements" ++ ("." ++ e.1)).toList := by
    simpa [← String.toList_inj] using heq.symm
  exact hkey.no_stop (by rw [hkeyEq]; simp)

/-- Elements of interfaces with different keys are at different places. -/
theorem elementPlaces_disjoint {entry entry' : String × Json} (hkey : IsId entry.1)
    (hkey' : IsId entry'.1) (hne : entry.1 ≠ entry'.1) {place : String}
    (h : place ∈ elementPlaces entry) : place ∉ elementPlaces entry' := by
  obtain ⟨e, -, rfl⟩ := List.mem_map.1 h
  intro h'
  obtain ⟨e', -, heq⟩ := List.mem_map.1 h'
  have hlists : entry'.1.toList ++ '.' :: ("elements" ++ ("." ++ e'.1)).toList
      = entry.1.toList ++ '.' :: ("elements" ++ ("." ++ e.1)).toList := by
    simpa [← String.toList_inj] using heq
  have hwords := congrArg (List.takeWhile (· ≠ '.')) hlists
  rw [takeWhile_append_stop hkey'.no_stop, takeWhile_append_stop hkey.no_stop] at hwords
  exact hne (String.toList_inj.1 hwords.symm)

end EventForge.Document
