import EventForge.Proofs.Document.Canonical
import EventForge.Proofs.Document.NoteChoice
import EventForge.Proofs.Document.TwoReadings
import EventForge.Proofs.Model
import Mathlib.Data.List.Sublists

/-!
# Members that are null

Without a member that is null, an entity is read as with it, as far as the accessors of fields are
concerned. The exception is a placement: the kinds of its notes are those whose members are written,
be it as null, so a null member can take the place of a note or of a warning
(`accepted?_withoutNull_iff`).
-/

namespace EventForge.Document

open Reading

/-- A document without a member of one of its entities, if that member is null. -/
def withoutNull (entity : Entity) (name : String) : Json → Json :=
  editEntity entity (dropNull name)

section Accessors

variable (name : String) (fields : List (String × Json)) (location key : String)

theorem text?_dropNull :
    (Fields.mk (dropNull name fields) location).text? key
      = (Fields.mk fields location).text? key := by
  simp only [Fields.text?, Fields.value?]
  rcases find?_dropNull name fields key with h | ⟨h, hnull⟩
  · rw [h]
  · rw [h, hnull]

theorem text_dropNull :
    (Fields.mk (dropNull name fields) location).text key
      = (Fields.mk fields location).text key := by
  simp only [Fields.text, text?_dropNull]

theorem id_dropNull :
    (Fields.mk (dropNull name fields) location).id key = (Fields.mk fields location).id key := by
  simp only [Fields.id, text_dropNull]

theorem id?_dropNull :
    (Fields.mk (dropNull name fields) location).id? key = (Fields.mk fields location).id? key := by
  simp only [Fields.id?, text?_dropNull]

theorem object?_dropNull :
    (Fields.mk (dropNull name fields) location).object? key
      = (Fields.mk fields location).object? key := by
  simp only [Fields.object?, Fields.value?]
  rcases find?_dropNull name fields key with h | ⟨h, hnull⟩
  · rw [h]
  · rw [h, hnull]

theorem array?_dropNull :
    (Fields.mk (dropNull name fields) location).array? key
      = (Fields.mk fields location).array? key := by
  simp only [Fields.array?, Fields.value?]
  rcases find?_dropNull name fields key with h | ⟨h, hnull⟩
  · rw [h]
  · rw [h, hnull]

/-- An integer is refused both when it is null and when it is absent. -/
theorem follows_integer :
    Follows false (liftM ((Fields.mk fields location).integer key) : Reading Int)
      (liftM ((Fields.mk (dropNull name fields) location).integer key)) := by
  simp only [Fields.integer, Fields.value?]
  rcases find?_dropNull name fields key with h | ⟨h, hnull⟩
  · rw [h]
    exact .refl _
  · rw [h, hnull]
    exact .refused_both _ _

end Accessors

section Readers

variable (name : String)

theorem readListed_dropNull {α : Type} (word : String) (make : Uuid → String → α) (idOf : α → Uuid)
    (read : List α) (item : Json) (position : Nat) :
    readListed word make idOf read (onFields (dropNull name) item, position)
      = readListed word make idOf read (item, position) := by
  cases item with
  | object fields =>
    simp only [readListed, onFields, Fields.ofJson, lift_ok, read_nil_bind, id_dropNull,
      text_dropNull]
  | _ => rfl

theorem readInterfaceKind_dropNull (fields : List (String × Json)) (location : String) :
    readInterfaceKind ⟨dropNull name fields, location⟩ = readInterfaceKind ⟨fields, location⟩ := by
  simp only [readInterfaceKind, text_dropNull, text?_dropNull]

theorem readElements_dropNull (fields : List (String × Json)) (location : String) :
    readElements ⟨dropNull name fields, location⟩ = readElements ⟨fields, location⟩ := by
  simp only [readElements, object?_dropNull]

theorem readInterface_dropNull (interfaces : Dict Uuid Interface) (entry : Keyed) :
    readInterface interfaces (entry.editValue (onFields (dropNull name)))
      = readInterface interfaces entry := by
  obtain ⟨key, value, location⟩ := entry
  cases value with
  | object fields =>
    simp only [readInterface, Keyed.editValue, onFields, Fields.ofJson, lift_ok, read_nil_bind,
      id_dropNull, text_dropNull, text?_dropNull, readInterfaceKind_dropNull,
      readElements_dropNull]
  | _ => rfl

theorem readNote_dropNull (kind : NoteKind) (notes : Dict Uuid Note) (entry : Keyed) :
    readNote kind notes (entry.editValue (onFields (dropNull name)))
      = readNote kind notes entry := by
  obtain ⟨key, value, location⟩ := entry
  cases value with
  | object fields =>
    simp only [readNote, readNoteSchema, Keyed.editValue, onFields, Fields.ofJson, lift_ok,
      read_nil_bind, id_dropNull, text_dropNull, text?_dropNull, object?_dropNull]
  | _ => rfl

theorem readFlow_dropNull (flows : Dict Uuid Flow) (entry : Keyed) :
    readFlow flows (entry.editValue (onFields (dropNull name))) = readFlow flows entry := by
  obtain ⟨key, value, location⟩ := entry
  cases value with
  | object fields =>
    simp only [readFlow, Keyed.editValue, onFields, Fields.ofJson, lift_ok, read_nil_bind,
      id_dropNull]
  | _ => rfl

/-- A schema without a node is refused both when the member is null and when it is absent. -/
theorem follows_readSchema (schemas : Dict Uuid Schema) (entry : Keyed) :
    Follows false (readSchema schemas entry)
      (readSchema schemas (entry.editValue (onFields (dropNull name)))) := by
  obtain ⟨key, value, location⟩ := entry
  cases value with
  | object fields =>
    simp only [readSchema, Keyed.editValue, onFields, Fields.ofJson, lift_ok, read_nil_bind,
      id_dropNull, text_dropNull, text?_dropNull]
    refine .bind_left _ fun id => .bind_left _ fun _ => .bind_left _ fun qualified => ?_
    simp only [Fields.value?]
    rcases find?_dropNull name fields "schema/schema" with h | ⟨h, hnull⟩
    · rw [h]
      exact .refl _
    · rw [h, hnull]
      simp only [readNode]
      exact .refused_both _ _
  | _ => exact .refl _

end Readers

section Placements

theorem follows_placeNote (name : String) (placements : Dict Uuid Placement) (key id : Uuid)
    (fields : List (String × Json)) (location : String) (kind : NoteKind) :
    Follows false (placeNote placements key id ⟨fields, location⟩ kind)
      (placeNote placements key id ⟨dropNull name fields, location⟩ kind) := by
  have hlane : readLane ⟨dropNull name fields, location⟩ kind
      = readLane ⟨fields, location⟩ kind := by
    cases kind <;> simp only [readLane, id?_dropNull]
  simp only [placeNote, hlane, id_dropNull]
  refine .bind_left _ fun laneId => ?_
  exact (follows_integer name fields location "placement/index").bind fun index => .refl _

/-- A placement whose chosen note is null is refused. -/
theorem placeNote_of_null (placements : Dict Uuid Placement) (key id : Uuid)
    {fields : List (String × Json)} (location : String) {kind : NoteKind}
    (h : find? fields (kind.text ++ "/id") = some .null) :
    (placeNote placements key id ⟨fields, location⟩ kind).accepted? = none := by
  rw [accepted?_eq_none_iff]
  intro a ws hread
  obtain ⟨laneId, -, hread⟩ := lift_bind_eq_read_iff.1 hread
  obtain ⟨index, -, hread⟩ := lift_bind_eq_read_iff.1 hread
  obtain ⟨noteId, hid, -⟩ := lift_bind_eq_read_iff.1 hread
  have htext : (Fields.mk fields location).text (kind.text ++ "/id")
      = .error (.missingField (kind.text ++ "/id") location) := by
    simp only [Fields.text, Fields.text?, Fields.value?, h]
  rw [Fields.id, htext] at hid
  cases hid

/-- When some kinds are no longer named, the choice is the same, or its kind is gone, or it is now
the only one. -/
theorem firstOf_filter {p p' : NoteKind → Bool} {gone : NoteKind → Prop}
    (h : ∀ kind, p' kind = p kind ∨ p' kind = false ∧ p kind = true ∧ gone kind)
    (kinds : List NoteKind) :
    firstOf (kinds.filter p') = firstOf (kinds.filter p) ∨
      (∃ kind only, firstOf (kinds.filter p) = some (kind, only) ∧ gone kind) ∨
      ∃ kind, firstOf (kinds.filter p) = some (kind, false) ∧
        firstOf (kinds.filter p') = some (kind, true) := by
  induction kinds with
  | nil => exact .inl rfl
  | cons kind kinds ih =>
    rcases h kind with hsame | ⟨-, hp, hgone⟩
    · by_cases hp : p kind
      · rw [List.filter_cons_of_pos (hsame.trans hp), List.filter_cons_of_pos hp]
        simp only [firstOf]
        cases hothers : (kinds.filter p).isEmpty with
        | false =>
          cases hothers' : (kinds.filter p').isEmpty with
          | false => exact .inl rfl
          | true => exact .inr (.inr ⟨kind, rfl, rfl⟩)
        | true =>
          have hnone : kinds.filter p' = [] := by
            rw [List.isEmpty_iff, List.filter_eq_nil_iff] at hothers
            rw [List.filter_eq_nil_iff]
            intro k hk hp'
            rcases h k with heq | ⟨hfalse, -, -⟩
            · exact hothers k hk (heq ▸ hp')
            · exact absurd hp' (by rw [hfalse]; decide)
          rw [hnone]
          exact .inl rfl
      · rw [List.filter_cons_of_neg (by rwa [hsame]), List.filter_cons_of_neg hp]
        exact ih
    · rw [List.filter_cons_of_pos hp]
      exact .inr (.inl ⟨kind, _, rfl, hgone⟩)

theorem noteChoice_dropNull (name : String) (fields : List (String × Json)) :
    noteChoice (dropNull name fields) = noteChoice fields ∨
      (∃ kind only, noteChoice fields = some (kind, only) ∧
        find? fields (kind.text ++ "/id") = some .null) ∨
      ∃ kind, noteChoice fields = some (kind, false) ∧
        noteChoice (dropNull name fields) = some (kind, true) := by
  refine firstOf_filter (fun kind => ?_) placeable
  rcases find?_dropNull name fields (kind.text ++ "/id") with h | ⟨hgone, hnull⟩
  · exact .inl (congrArg Option.isSome h)
  · exact .inr ⟨congrArg Option.isSome hgone, congrArg Option.isSome hnull, hnull⟩

theorem noteMember_injective :
    ∀ kind kind' : NoteKind, kind.text ++ "/id" = kind'.text ++ "/id" → kind = kind' := by
  intro kind kind'
  cases kind <;> cases kind' <;> decide

/-- Of the kinds that a placement can name, one is missed as the first or beside only one other. -/
theorem firstOf_without : ∀ named ∈ placeable.sublists, ∀ kind ∈ named,
    (firstOf (named.filter fun kind' => kind' ≠ kind) = firstOf named ↔
      named.head? ≠ some kind ∧ named.length ≠ 2) := by
  decide

/-- Without its null member, a kind is no longer named; all others are as before. -/
theorem namesKind_dropNull {placement : List (String × Json)} {kind : NoteKind}
    (h : find? placement (kind.text ++ "/id") = some .null) (kind' : NoteKind) :
    namesKind (dropNull (kind.text ++ "/id") placement) kind'
      = (namesKind placement kind' && decide (kind' ≠ kind)) := by
  by_cases hkind : kind' = kind
  · subst hkind
    have hgone : find? (dropNull (kind'.text ++ "/id") placement) (kind'.text ++ "/id") = none := by
      rw [← Option.not_isSome_iff_eq_none, find?_isSome_iff]
      simp [dropNull, h]
    simp [namesKind, hgone]
  · have hmember : kind'.text ++ "/id" ≠ kind.text ++ "/id" :=
      fun heq => hkind (noteMember_injective _ _ heq)
    simp [namesKind, find?_dropNull_of_ne hmember, hkind]

/-- A null kind decides the choice exactly when it is named first or beside only one other. -/
theorem noteChoice_dropNull_eq_iff {placement : List (String × Json)} {kind : NoteKind}
    (h : find? placement (kind.text ++ "/id") = some .null) :
    noteChoice (dropNull (kind.text ++ "/id") placement) = noteChoice placement ↔
      (placeable.filter (namesKind placement)).head? ≠ some kind ∧
        (placeable.filter (namesKind placement)).length ≠ 2 := by
  have hnamed : kind ∈ placeable.filter (namesKind placement) := by
    rw [List.mem_filter, namesKind, h]
    exact ⟨by cases kind <;> decide, rfl⟩
  have hrest : placeable.filter (namesKind (dropNull (kind.text ++ "/id") placement))
      = (placeable.filter (namesKind placement)).filter fun kind' => kind' ≠ kind := by
    rw [List.filter_filter]
    refine List.filter_congr fun kind' _ => ?_
    rw [namesKind_dropNull h, Bool.and_comm]
  rw [noteChoice, noteChoice, hrest]
  exact firstOf_without _ (List.mem_sublists.2 List.filter_sublist) kind hnamed

/-- A placement has another choice of note without a null member exactly when that member names a
kind, which is the first that the placement names or one of only two. -/
theorem noteChoice_dropNull_ne_iff (name : String) (placement : List (String × Json)) :
    noteChoice (dropNull name placement) ≠ noteChoice placement ↔
      ∃ kind : NoteKind, name = kind.text ++ "/id" ∧ find? placement name = some .null ∧
        ((placeable.filter (namesKind placement)).head? = some kind ∨
          (placeable.filter (namesKind placement)).length = 2) := by
  constructor
  · intro hne
    obtain ⟨kind, hkind⟩ : ∃ kind : NoteKind, name = kind.text ++ "/id" := by
      by_contra hnone
      refine hne (congrArg firstOf (List.filter_congr fun kind _ => ?_))
      have hmember : kind.text ++ "/id" ≠ name := fun heq => hnone ⟨kind, heq.symm⟩
      rw [namesKind, namesKind, find?_dropNull_of_ne hmember]
    have hnull : find? placement name = some .null := by
      by_contra hnull
      refine hne (congrArg noteChoice ?_)
      rw [dropNull]
      split
      · next h => exact absurd h hnull
      · rfl
    subst hkind
    refine ⟨kind, rfl, hnull, ?_⟩
    rw [Ne, noteChoice_dropNull_eq_iff hnull] at hne
    tauto
  · rintro ⟨kind, rfl, hnull, hplace⟩ heq
    obtain ⟨hfirst, htwo⟩ := (noteChoice_dropNull_eq_iff hnull).1 heq
    exact hplace.elim hfirst htwo

/-- A placement without a null member is read with fewer warnings when the choice of its note
differs. -/
theorem follows_readPlacement (name : String) (placements : Dict Uuid Placement) (key : Uuid)
    (fields : List (String × Json)) (location : String) :
    Follows (decide (noteChoice (dropNull name fields) ≠ noteChoice fields))
      (readPlacement placements ⟨key, .object fields, location⟩)
      (readPlacement placements ⟨key, .object (dropNull name fields), location⟩) := by
  rw [readPlacement_object, readPlacement_object, id_dropNull]
  refine .bind_left _ fun id => .bind_left _ fun _ => ?_
  by_cases hsame : noteChoice (dropNull name fields) = noteChoice fields
  · rw [decide_eq_false (not_not_intro hsame), hsame]
    match noteChoice fields with
    | none => exact .refl _
    | some (kind, true) => exact follows_placeNote name placements key id fields location kind
    | some (kind, false) =>
      exact .bind_left _ fun _ => follows_placeNote name placements key id fields location kind
  · rw [decide_eq_true hsame]
    rcases (noteChoice_dropNull name fields).resolve_left hsame with
      ⟨kind, only, hchoice, hnull⟩ | ⟨kind, hchoice, honly⟩
    · have hrefused := placeNote_of_null placements key id location hnull
      rw [hchoice]
      cases only with
      | true => exact .of_refused hrefused
      | false => exact .of_refused (accepted?_bind_eq_none fun _ => hrefused)
    · rw [hchoice, honly]
      exact .warn_bind (follows_placeNote name placements key id fields location kind)

end Placements

section Elements

variable {key key' : String} {edit : Json → Json} {fields : List (String × Json)}
  {location : String}

theorem text?_editMember (h : key' ≠ key) :
    (Fields.mk (editMember key edit fields) location).text? key'
      = (Fields.mk fields location).text? key' := by
  simp only [Fields.text?, Fields.value?, find?_editMember, if_neg h]

theorem text_editMember (h : key' ≠ key) :
    (Fields.mk (editMember key edit fields) location).text key'
      = (Fields.mk fields location).text key' := by
  simp only [Fields.text, text?_editMember h]

theorem readElement_dropNull (name parent : String) (elements : Dict Uuid Element)
    (entry : String × Json) :
    readElement parent elements (entry.1, onFields (dropNull name) entry.2)
      = readElement parent elements entry := by
  simp only [readElement, readKeyed_edit]
  cases readKeyed parent entry with
  | error fault => rfl
  | ok keyed =>
    obtain ⟨key, value, location⟩ := keyed
    cases value with
    | object fields =>
      simp only [Except.map, Keyed.editValue, onFields, Fields.ofJson, lift_ok, read_nil_bind,
        id_dropNull, text_dropNull]
    | _ => rfl

theorem follows_readElements (name : String) (index : Nat) (fields : List (String × Json))
    (location : String) :
    Follows false (readElements ⟨fields, location⟩)
      (readElements ⟨editMember "interface/elements"
        (editEntry index (onFields (dropNull name))) fields, location⟩) := by
  simp only [readElements, Fields.object?, Fields.value?, find?_editMember, ↓reduceIte]
  cases find? fields "interface/elements" with
  | none => exact .refl _
  | some json =>
    cases json with
    | object elements =>
      have hfold : Follows (elements[index]?.any fun _ => false)
          (elements.foldlM (readElement (location ++ ".elements")) ∅)
          ((elements.modify index fun e => (e.1, onFields (dropNull name) e.2)).foldlM
            (readElement (location ++ ".elements")) ∅) :=
        .foldlM_modify (fun acc e _ => .of_eq (readElement_dropNull name _ acc e)) ∅
      simpa [editEntry] using hfold
    | _ => exact .refl _

/-- An interface with a null member of one of its elements removed. -/
theorem follows_readInterface (name : String) (index : Nat) (interfaces : Dict Uuid Interface)
    (entry : Keyed) :
    Follows false (readInterface interfaces entry)
      (readInterface interfaces (entry.editValue (onFields
        (editMember "interface/elements" (editEntry index (onFields (dropNull name))))))) := by
  obtain ⟨key, value, location⟩ := entry
  cases value with
  | object fields =>
    have htext {member : String} (h : member ≠ "interface/elements") :=
      @text_editMember "interface/elements" member (editEntry index (onFields (dropNull name)))
        fields location h
    have htext? {member : String} (h : member ≠ "interface/elements") :=
      @text?_editMember "interface/elements" member (editEntry index (onFields (dropNull name)))
        fields location h
    simp only [readInterface, readInterfaceKind, Keyed.editValue, onFields, Fields.ofJson, lift_ok,
      read_nil_bind, Fields.id, htext (show "interface/id" ≠ "interface/elements" by decide),
      htext (show "interface/type" ≠ "interface/elements" by decide),
      htext (show "interface/name" ≠ "interface/elements" by decide),
      htext? (show "interface/description" ≠ "interface/elements" by decide),
      htext? (show "interface.type.figma/url" ≠ "interface/elements" by decide)]
    refine .bind_left _ fun id => .bind_left _ fun _ => .bind_left _ fun kind => ?_
    refine .bind_left _ fun text => .bind_left _ fun description => ?_
    exact (follows_readElements name index fields location).bind fun elements => .refl _
  | _ => exact .refl _

end Elements

section Documents

variable (name : String) (fields : List (String × Json)) (location : String)

/-- The placement has another choice of note without the member. -/
def changesChoice : Json → Bool
  | .object placement => decide (noteChoice (dropNull name placement) ≠ noteChoice placement)
  | _ => false

theorem follows_readPlacement_value (placements : Dict Uuid Placement) (entry : Keyed) :
    Follows (changesChoice name entry.value) (readPlacement placements entry)
      (readPlacement placements (entry.editValue (onFields (dropNull name)))) := by
  obtain ⟨key, value, location⟩ := entry
  cases value with
  | object placement => exact follows_readPlacement name placements key placement location
  | _ => exact .refl _

theorem listSection_dropNull (place : String) :
    listSection ⟨dropNull name fields, location⟩ place
      = listSection ⟨fields, location⟩ place := by
  simp only [listSection, array?_dropNull]

theorem keyedSection_dropNull (place : String) :
    keyedSection ⟨dropNull name fields, location⟩ place
      = keyedSection ⟨fields, location⟩ place := by
  simp only [keyedSection, object?_dropNull]

theorem readModel_dropNull :
    readModel ⟨dropNull name fields, location⟩ = readModel ⟨fields, location⟩ := by
  simp only [readModel, readAudiences, readStreams, readInterfaces, readNotes, readFlows,
    readPlacements, readSchemas, id_dropNull, text_dropNull, text?_dropNull, listSection_dropNull,
    keyedSection_dropNull]

/-- The entity is a placement with another choice of note without the member. -/
def Entity.changesChoice : Entity → Bool
  | entry .placements index =>
    (membersOf fields Section.placements.member)[index]?.any fun e =>
      Document.changesChoice name e.2
  | _ => false

/-- The readings of an event-model object with and without a null member of one of its entities. -/
theorem follows_readModel_dropNull (entity : Entity) :
    Follows (entity.changesChoice name fields) (readModel ⟨fields, location⟩)
      (readModel ⟨entity.edit (dropNull name) fields, location⟩) := by
  cases entity with
  | model => exact .of_eq (readModel_dropNull name fields location)
  | element i j =>
    have hsection := @follows_readEntries_same _ _ fields i location .interfaces _
      (follows_readInterface name j) ∅
    exact follows_readModel_edit (s := .interfaces) hsection
  | entry place index =>
    have hentries {β : Type} (step : β → Keyed → Reading β) (start : β) (h : ∀ acc e,
        Follows false (step acc e) (step acc (e.editValue (onFields (dropNull name))))) :=
      @follows_readEntries_same β _ fields index location place step h start
    have hitems {β : Type} (step : β → Json × Nat → Reading β) (start : β) (h : ∀ acc item position,
        step acc (onFields (dropNull name) item, position) = step acc (item, position)) :=
      @follows_readItems β _ fields index location place step h start
    have hnotes (kind : NoteKind) :=
      hentries (readNote kind) ∅ fun acc e => .of_eq (readNote_dropNull name kind acc e)
    have hplacements := @follows_readEntries _ _ fields index location place readPlacement _
      (follows_readPlacement_value name) ∅
    refine follows_readModel_edit ?_
    cases place with
    | audiences => exact hitems readAudience [] (readListed_dropNull name _ _ _)
    | streams => exact hitems readStream [] (readListed_dropNull name _ _ _)
    | interfaces =>
      exact hentries readInterface ∅ fun acc e => .of_eq (readInterface_dropNull name acc e)
    | readModels => exact hnotes .readModel
    | events => exact hnotes .event
    | commands => exact hnotes .command
    | flows => exact hentries readFlow ∅ fun acc e => .of_eq (readFlow_dropNull name acc e)
    | placements => exact hplacements
    | schemas => exact hentries readSchema ∅ (follows_readSchema name)

end Documents

theorem follows_ofJson (entity : Entity) (name : String) (document : Json) :
    Follows (entity.changesChoice name (modelMembers document)) (ofJson document)
      (ofJson (withoutNull entity name document)) := by
  cases document with
  | object root =>
    have hversion (edit : Json → Json) :
        checkVersion (editMember "event-model" edit root) = checkVersion root := by
      have hother : "spec-version" ≠ "event-model" := by decide
      simp only [checkVersion, find?_editMember, if_neg hother]
    simp only [withoutNull, editEntity, onFields, ofJson, hversion]
    refine .bind_left _ fun _ => ?_
    simp only [modelFields, find?_editMember, ↓reduceIte, modelMembers, membersOf]
    cases find? root "event-model" with
    | none => exact .refused_both _ _
    | some json =>
      cases json with
      | object fields =>
        simp only [Option.map_some, onFields, lift_ok, read_nil_bind]
        exact follows_readModel_dropNull name fields "event-model" entity
      | _ => exact .refused_both _ _
  | _ => exact .refused_both _ _

theorem Entity.changesChoice_iff (entity : Entity) (name : String)
    (fields : List (String × Json)) :
    entity.changesChoice name fields ↔ ∃ index key placement,
      entity = .entry .placements index ∧
      (membersOf fields Section.placements.member)[index]? = some (key, .object placement) ∧
      noteChoice (dropNull name placement) ≠ noteChoice placement := by
  constructor
  · intro hchanges
    match entity with
    | .entry .placements index =>
      obtain ⟨⟨key, value⟩, hentry, hvalue⟩ := (Option.any_eq_true _ _).1 hchanges
      cases value with
      | object placement => exact ⟨index, key, placement, rfl, hentry, of_decide_eq_true hvalue⟩
      | _ => cases hvalue
  · rintro ⟨index, key, placement, rfl, hentry, hne⟩
    exact (Option.any_eq_true _ _).2 ⟨_, hentry, decide_eq_true hne⟩

/-- Without a null member of one of its entities, a document is accepted as before, with the same
model and the same warnings, exactly when it is refused or no placement has another choice of its
note. It has another one when the entity is a placement and the member, which is null, names a kind
of notes: the first that the placement names, or one of only two. -/
theorem accepted?_withoutNull_iff (document : Json) (entity : Entity) (name : String) :
    ((ofJson (withoutNull entity name document)).accepted? = (ofJson document).accepted? ↔
      (ofJson (withoutNull entity name document)).accepted? = none ∨
        entity.changesChoice name (modelMembers document) = false) ∧
    (entity.changesChoice name (modelMembers document) = true ↔ ∃ index key placement,
      entity = .entry .placements index ∧
      (membersOf (modelMembers document) Section.placements.member)[index]? =
        some (key, .object placement) ∧
      ∃ kind : NoteKind, name = kind.text ++ "/id" ∧ find? placement name = some .null ∧
        ((placeable.filter (namesKind placement)).head? = some kind ∨
          (placeable.filter (namesKind placement)).length = 2)) := by
  refine ⟨(follows_ofJson entity name document).accepted?_eq_iff, ?_⟩
  simp only [entity.changesChoice_iff, noteChoice_dropNull_ne_iff]

/-- A document with a placement whose command is null beside its event. -/
def nullCommand : Json :=
  .object [("event-model", .object
    [("event-model/id", printId (.uniform 1)), ("event-model/name", .string "Shop"),
      ("event-model/placements", .object
        [((Uuid.uniform 2).toText, .object
          [("placement/id", printId (.uniform 2)),
            ("placement/index", .number (.integer 0)), ("command/id", .null),
            ("event/id", printId (.uniform 3))])])])]

/-- The document is refused, although it is accepted without the null. -/
theorem nullCommand_refused :
    (ofJson nullCommand).accepted? = none ∧
      (ofJson (withoutNull (.entry .placements 0) "command/id" nullCommand)).accepted?.isSome := by
  decide +kernel

end EventForge.Document
