import EventForge.Document.Reader
import EventForge.Proofs.Dict
import Mathlib.Data.List.Forall2

/-!
# The entity objects of a document

The event-model object and the entries of its sections are the objects that describe entities. An
edit of one of them changes nothing else of the document (`find?_editMember`).
-/

namespace EventForge.Document

/-- The sections of an event-model object, in the order in which they are read. -/
inductive Section where
  | audiences
  | streams
  | interfaces
  | readModels
  | events
  | commands
  | flows
  | placements
  | schemas
  deriving DecidableEq, Repr

namespace Section

def text : Section → String
  | audiences => "audiences"
  | streams => "streams"
  | interfaces => "interfaces"
  | readModels => "read-models"
  | events => "events"
  | commands => "commands"
  | flows => "flows"
  | placements => "placements"
  | schemas => "schemas"

/-- The member of the event-model object that holds the section. -/
def member (s : Section) : String := sectionKey s.text

theorem member_injective : ∀ s t : Section, s.member = t.member → s = t := by
  intro s t
  cases s <;> cases t <;> decide

end Section

/-- The members of an object member, none when there is no such member. -/
def membersOf (fields : List (String × Json)) (key : String) : List (String × Json) :=
  match find? fields key with
  | some (.object members) => members
  | _ => []

/-- The members of the event-model object of a document. -/
def modelMembers : Json → List (String × Json)
  | .object root => membersOf root "event-model"
  | _ => []

/-- A section that is keyed by identifiers, read entry by entry. -/
def readEntries {β : Type} (s : Section) (step : β → Keyed → Reading β) (start : β)
    (document : Fields) : Reading β := do
  let entries ← keyedSection document s.text
  entries.foldlM step start

/-- An array section, read item by item. -/
def readItems {β : Type} (s : Section) (step : β → Json × Nat → Reading β) (start : β)
    (document : Fields) : Reading β := do
  let items ← listSection document s.text
  items.zipIdx.foldlM step start

/-- An entity object: the event-model object, the entry of a section at a position, or the element
at a position of the interface at a position. -/
inductive Entity where
  | model
  | entry (place : Section) (index : Nat)
  | element (interface index : Nat)
  deriving DecidableEq, Repr

/-- Changes the fields of a value that is an object. -/
def onFields (edit : List (String × Json) → List (String × Json)) : Json → Json
  | .object fields => .object (edit fields)
  | other => other

/-- Changes the value of a member. -/
def editMember (key : String) (edit : Json → Json) (fields : List (String × Json)) :
    List (String × Json) :=
  fields.map fun e => if e.1 = key then (e.1, edit e.2) else e

/-- Changes the entry at a position of an array or an object. -/
def editEntry (index : Nat) (edit : Json → Json) : Json → Json
  | .array items => .array (items.modify index edit)
  | .object fields => .object (fields.modify index fun e => (e.1, edit e.2))
  | other => other

/-- Changes the fields of an entity; the given ones are those of the event-model object. -/
def Entity.edit (change : List (String × Json) → List (String × Json)) :
    Entity → List (String × Json) → List (String × Json)
  | model => change
  | entry place index => editMember place.member (editEntry index (onFields change))
  | element i j =>
    editMember Section.interfaces.member
      (editEntry i (onFields (editMember "interface/elements" (editEntry j (onFields change)))))

/-- A document with the fields of one of its entities changed. -/
def editEntity (entity : Entity) (change : List (String × Json) → List (String × Json)) :
    Json → Json :=
  onFields (editMember "event-model" (onFields (entity.edit change)))

/-- The fields without a member that is null; other members stay as they are. -/
def dropNull (name : String) (fields : List (String × Json)) : List (String × Json) :=
  match find? fields name with
  | some .null => fields.filter fun e => e.1 ≠ name
  | _ => fields

theorem find?_editMember (key : String) (edit : Json → Json) (fields : List (String × Json))
    (key' : String) :
    find? (editMember key edit fields) key' =
      if key' = key then (find? fields key').map edit else find? fields key' := by
  induction fields with
  | nil => simp [editMember]
  | cons e fields ih =>
    obtain ⟨name, value⟩ := e
    rw [editMember, List.map_cons, ← editMember]
    by_cases hname : name = key
    · subst hname
      by_cases hkey : name = key'
      · simp [hkey]
      · simp [hkey, ih]
    · by_cases hkey : name = key'
      · subst hkey
        simp [hname]
      · simp [hname, hkey, ih]

theorem find?_filter_ne {fields : List (String × Json)} {name key : String} (h : key ≠ name) :
    find? (fields.filter fun e => e.1 ≠ name) key = find? fields key := by
  induction fields with
  | nil => rfl
  | cons e fields ih =>
    obtain ⟨name', value⟩ := e
    by_cases hname : name' = name
    · subst hname
      rw [List.filter_cons_of_neg (by simp), find?_cons, if_neg h.symm, ih]
    · rw [List.filter_cons_of_pos (by simpa using hname), find?_cons, find?_cons, ih]

/-- A member is as it was, unless it was null and is gone. -/
theorem find?_dropNull (name : String) (fields : List (String × Json)) (key : String) :
    find? (dropNull name fields) key = find? fields key ∨
      find? (dropNull name fields) key = none ∧ find? fields key = some .null := by
  rw [dropNull]
  split
  · next hnull =>
    by_cases hkey : key = name
    · subst hkey
      refine .inr ⟨?_, hnull⟩
      rw [← Option.not_isSome_iff_eq_none, find?_isSome_iff]
      simp
    · exact .inl (find?_filter_ne hkey)
  · exact .inl rfl

/-- Only the named member can be gone. -/
theorem find?_dropNull_of_ne {name key : String} (h : key ≠ name)
    (fields : List (String × Json)) : find? (dropNull name fields) key = find? fields key := by
  rw [dropNull]
  split
  · exact find?_filter_ne h
  · rfl

theorem mapM_eq_ok {α β : Type} {f : α → Except Fault β} {xs : List α} {ys : List β}
    (h : xs.mapM f = .ok ys) : List.Forall₂ (fun x y => f x = .ok y) xs ys := by
  induction xs generalizing ys with
  | nil =>
    cases h
    exact .nil
  | cons x xs ih =>
    rw [List.mapM_cons] at h
    cases hx : f x with
    | error e =>
      rw [hx] at h
      cases h
    | ok y =>
      rw [hx] at h
      cases hxs : xs.mapM f with
      | error e =>
        rw [hxs] at h
        cases h
      | ok rest =>
        rw [hxs] at h
        cases h
        exact .cons hx (ih hxs)

theorem readKeyed_eq_ok {parent : String} {member : String × Json} {entry : Keyed}
    (h : readKeyed parent member = .ok entry) :
    Uuid.ofText? member.1 = some entry.key ∧ entry.value = member.2 ∧
      entry.location = parent ++ "." ++ member.1 := by
  rw [readKeyed, readId] at h
  cases hid : Uuid.ofText? member.1 with
  | none =>
    rw [hid] at h
    cases h
  | some key =>
    rw [hid] at h
    cases h
    exact ⟨rfl, rfl, rfl⟩

theorem membersOf_of_object? {o : Fields} {key : String}
    {members : Option (List (String × Json))} (h : o.object? key = .ok members) :
    membersOf o.fields key = members.getD [] := by
  rw [Fields.object?, Fields.value?] at h
  rw [membersOf]
  cases hfind : find? o.fields key with
  | none =>
    rw [hfind] at h
    cases h
    rfl
  | some json =>
    rw [hfind] at h
    cases json with
    | null =>
      cases h
      rfl
    | object members =>
      cases h
      rfl
    | _ => cases h

/-- The keyed entries of a section are its members, in order. -/
theorem keyedSection_eq_ok {document : Fields} {s : Section} {entries : List Keyed}
    (h : keyedSection document s.text = .ok entries) :
    List.Forall₂ (fun e entry => readKeyed s.text e = .ok entry)
      (membersOf document.fields s.member) entries := by
  rw [keyedSection] at h
  split at h
  · cases h
  · next hmembers =>
    cases h
    rw [Section.member, membersOf_of_object? hmembers]
    exact .nil
  · next members hmembers =>
    rw [Section.member, membersOf_of_object? hmembers]
    exact mapM_eq_ok h

end EventForge.Document
