import EventForge.Proofs.Dict
import EventForge.Proofs.Document.Canonical
import EventForge.Proofs.Document.Reading
import EventForge.Proofs.Uuid

/-!
# Reading printed fields

A field is read back as what was printed for it; an optional field that was not printed reads as
absent. Conversely, a field that was read is written in the document.
-/

namespace EventForge

namespace Document

@[simp]
theorem find?_optionalField (key key' : String) (value : Option Json) :
    find? (optionalField key value) key' = if key = key' then value else none := by
  cases value with
  | none => by_cases h : key = key' <;> simp [optionalField, h]
  | some json => by_cases h : key = key' <;> simp [optionalField, h]

theorem readId_toText (id : Uuid) (location : String) : readId id.toText location = .ok id := by
  rw [readId, Uuid.ofText?_toText]

theorem readId_eq_ok_iff {value location : String} {id : Uuid} :
    readId value location = .ok id ↔ Uuid.ofText? value = some id := by
  rw [readId]
  split <;> simp_all

namespace Fields

variable {o : Fields} {key : String}

theorem text?_of_find (text : Option String) (h : find? o.fields key = text.map .string) :
    o.text? key = .ok text := by
  rw [text?, value?, h]
  cases text <;> rfl

theorem text_of_find {text : String} (h : find? o.fields key = some (.string text)) :
    o.text key = .ok text := by
  rw [Fields.text, text?_of_find (some text) h]

theorem id_of_find {id : Uuid} (h : find? o.fields key = some (printId id)) :
    o.id key = .ok id := by
  rw [Fields.id, text_of_find h]
  exact readId_toText id o.location

theorem id?_of_find {id : Option Uuid} (h : find? o.fields key = id.map printId) :
    o.id? key = .ok id := by
  have htext : find? o.fields key = (id.map Uuid.toText).map .string := by
    rw [h, Option.map_map]
    rfl
  rw [id?, text?_of_find _ htext]
  cases id with
  | none => rfl
  | some id =>
    show (readId id.toText o.location).map some = _
    rw [readId_toText]
    rfl

theorem object?_of_find (fields : Option (List (String × Json)))
    (h : find? o.fields key = fields.map .object) : o.object? key = .ok fields := by
  rw [object?, value?, h]
  cases fields <;> rfl

theorem array?_of_find (items : Option (List Json)) (h : find? o.fields key = items.map .array) :
    o.array? key = .ok items := by
  rw [array?, value?, h]
  cases items <;> rfl

theorem integer_of_find {n : Int} (h : find? o.fields key = some (.number (.integer n)))
    (hn : -Int.pow 2 63 ≤ n ∧ n < Int.pow 2 63) : o.integer key = .ok n := by
  rw [integer, value?, h]
  simp only [Json.Number.signed?, if_pos hn]

theorem ofJson_eq_ok_iff {json : Json} {location : String} :
    ofJson json location = .ok o ↔ json = .object o.fields ∧ location = o.location := by
  cases json with
  | object fields =>
    obtain ⟨fields', location'⟩ := o
    simp [ofJson]
  | _ => simp [ofJson]

theorem text?_eq_ok_some_iff {s : String} :
    o.text? key = .ok (some s) ↔ find? o.fields key = some (.string s) := by
  rw [text?, value?]
  split <;> simp_all

theorem text_eq_ok_iff {s : String} :
    o.text key = .ok s ↔ find? o.fields key = some (.string s) := by
  rw [← text?_eq_ok_some_iff, Fields.text]
  split <;> simp_all

theorem array?_eq_ok_some_iff {items : List Json} :
    o.array? key = .ok (some items) ↔ find? o.fields key = some (.array items) := by
  rw [array?, value?]
  split <;> simp_all

theorem array?_eq_ok_none_iff :
    o.array? key = .ok none ↔ find? o.fields key = none ∨ find? o.fields key = some .null := by
  rw [array?, value?]
  split <;> simp_all

end Fields

end Document

end EventForge
