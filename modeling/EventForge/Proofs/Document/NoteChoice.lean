import EventForge.Document.Reader
import EventForge.Proofs.Document.Reading

/-!
# The note of a placement

A placement names the kinds of notes whose members are written in it. It is read with the first of
them; several raise a warning, and none at all leaves the placement out (`readPlacement_object`).
-/

namespace EventForge.Document

open Reading

/-- The placement has the member for notes of a kind, be it null. -/
def namesKind (placement : List (String × Json)) (kind : NoteKind) : Bool :=
  (find? placement (kind.text ++ "/id")).isSome

/-- The first of some kinds, and whether it is the only one. -/
def firstOf : List NoteKind → Option (NoteKind × Bool)
  | [] => none
  | kind :: others => some (kind, others.isEmpty)

/-- The kind of note that a placement is read with, and whether it names no other kind. -/
def noteChoice (placement : List (String × Json)) : Option (NoteKind × Bool) :=
  firstOf (placeable.filter (namesKind placement))

/-- The placement of a note of some kind. -/
def placeNote (placements : Dict Uuid Placement) (key id : Uuid) (o : Fields) (kind : NoteKind) :
    Reading (Dict Uuid Placement) := do
  let laneId ← readLane o kind
  let index ← o.integer "placement/index"
  let noteId ← o.id (kind.text ++ "/id")
  return placements.insert key ⟨id, index, kind, noteId, laneOf kind, laneId⟩

/-- What a placement adds when its note is chosen. -/
def placeChosen (placements : Dict Uuid Placement) (key id : Uuid) (o : Fields) :
    Option (NoteKind × Bool) → Reading (Dict Uuid Placement)
  | none => do
    Reading.warn "placement references no note, skipped" o.location
    return placements
  | some (kind, true) => placeNote placements key id o kind
  | some (kind, false) => do
    Reading.warn ("placement references several notes, using the " ++ kind.text) o.location
    placeNote placements key id o kind

theorem readPlacement_object (placements : Dict Uuid Placement) (key : Uuid)
    (fields : List (String × Json)) (location : String) :
    readPlacement placements ⟨key, .object fields, location⟩ = (do
      let id ← (Fields.mk fields location).id "placement/id"
      checkKey key id location
      placeChosen placements key id ⟨fields, location⟩ (noteChoice fields)) := by
  simp only [readPlacement, Fields.ofJson, lift_ok, read_nil_bind]
  congr 1
  funext id
  congr 1
  funext _
  have hnamed : (placeable.filter fun kind => (Fields.mk fields location).has (kind.text ++ "/id"))
      = placeable.filter (namesKind fields) := rfl
  rw [hnamed, noteChoice]
  cases placeable.filter (namesKind fields) with
  | nil => rfl
  | cons kind others => cases others <;> simp [firstOf, placeChosen, placeNote]

theorem placeNote_eq_read {placements next : Dict Uuid Placement} {key id : Uuid} {o : Fields}
    {kind : NoteKind} {ws : List Diagnostic}
    (h : placeNote placements key id o kind = .read next ws) :
    (∃ p, next = placements.insert key p) ∧ ws = [] := by
  obtain ⟨laneId, -, h⟩ := lift_bind_eq_read_iff.1 h
  obtain ⟨index, -, h⟩ := lift_bind_eq_read_iff.1 h
  obtain ⟨noteId, -, h⟩ := lift_bind_eq_read_iff.1 h
  obtain ⟨rfl, rfl⟩ := pure_eq_read_iff.1 h
  exact ⟨⟨_, rfl⟩, rfl⟩

end EventForge.Document
