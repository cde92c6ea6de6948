import EventForge.Document.Reader

/-!
# Canonical documents

Every model has a canonical document: each section in its place and in the order of the model, keyed
sections keyed by the text of their keys, optional fields written only when they have a value, and
type nodes with the text of their shape behind a colon. `Model.WellFormed` says which models such a
document describes in full: what the format derives on reading (lanes, names of type nodes) is as it
would be derived, and identifiers are declared once and under themselves.
-/

namespace EventForge

open TypeTree (nameFor)

namespace Document

/-- A field that is written only when it has a value. -/
def optionalField (key : String) (value : Option Json) : List (String × Json) :=
  value.toList.map fun json => (key, json)

def printId (id : Uuid) : Json := .string id.toText

/-- A description or another optional text. -/
def textField (key : String) (text : Option String) : List (String × Json) :=
  optionalField key (text.map .string)

/-- A section that is keyed by identifiers, from the fields of its entries. -/
def printKeyed {ν : Type} (fields : ν → List (String × Json)) (d : Dict Uuid ν) : Json :=
  .object (d.entries.map fun e => (e.1.toText, .object (fields e.2)))

/-- A section that is a list, from the fields of its items. -/
def printList {α : Type} (fields : α → List (String × Json)) (items : List α) : Json :=
  .array (items.map fun a => .object (fields a))

def printProperty (entry : String × String) : Json :=
  .object [("key", .string entry.1), ("value", .string entry.2)]

/-- A type node: its shape, its properties if it has a bag of them, and its children if its shape
takes any. -/
def printNode (shape : Shape) (label : Label) (children : Option (List Json)) : Json :=
  .object <| ("type", .string (":" ++ shape.text)) ::
    (optionalField "properties"
        (label.properties.map fun bag => .array (bag.entries.map printProperty)) ++
      optionalField "children" (children.map .array))

mutual

def printType : TypeTree → Json
  | .scalar l kind => printNode (.scalar kind) l none
  | .wrapper l kind child => printNode (.wrapper kind) l (some [printType child])
  | .mapOf l key value => printNode .mapOf l (some [printType key, printType value])
  | .combined l kind members => printNode (.combinator kind) l (some (printMembers members))
  | .object l entries => printNode .map l (some (printEntries entries))
  | .enumeration l symbols =>
    printNode .enum l (some (symbols.map fun s => .object [("symbol", .string s)]))
  | .pattern l expression => printNode .re l (some [.object [("expression", .string expression)]])
  | .reference l target => printNode .ref l (some [.object [("reference", printId target)]])
  | .unset l => printNode .unknown l none

def printMembers : List TypeTree → List Json
  | [] => []
  | t :: ts => printType t :: printMembers ts

def printEntries : List (String × TypeTree) → List Json
  | [] => []
  | (name, t) :: es => .object [("entry", .string name), ("schema", printType t)] :: printEntries es

end

/-- The fields of an item that has an identifier and a name. -/
def listedFields (word : String) (id : Uuid) (name : String) : List (String × Json) :=
  [(word ++ "/id", printId id), (word ++ "/name", .string name)]

def audienceFields (a : Audience) : List (String × Json) := listedFields "audience" a.id a.name

def streamFields (s : Stream) : List (String × Json) := listedFields "stream" s.id s.name

def elementFields (e : Element) : List (String × Json) :=
  [("element/id", printId e.id), ("element/type", .string ("element.type" ++ "/" ++ e.kind.text)),
    ("element/name", .string e.name)]

def interfaceFields (i : Interface) : List (String × Json) :=
  [("interface/id", printId i.id), ("interface/name", .string i.name)] ++
    textField "interface/description" i.description ++
    [("interface/type", .string ("interface.type" ++ "/" ++ i.kind.text))] ++
    textField "interface.type.figma/url" i.kind.url? ++
    [("interface/elements", printKeyed elementFields i.elements)]

/-- The schema of a note is the only entry of a map, under its own identifier. -/
def printNoteSchema (id : Uuid) : Json := .object [(id.toText, printId id)]

def noteFields (kind : NoteKind) (n : Note) : List (String × Json) :=
  [(kind.text ++ "/id", printId n.id), (kind.text ++ "/name", .string n.name)] ++
    textField (kind.text ++ "/description") n.description ++
    optionalField (kind.text ++ "/schemas") (n.schemaId.map printNoteSchema)

def flowFields (f : Flow) : List (String × Json) :=
  [("flow/from", printId f.source), ("flow/to", printId f.target)]

/-- The field for the lane of notes of a kind, for lanes that have an identifier. -/
def laneField (kind : NoteKind) (lane : Option Uuid) : List (String × Json) :=
  match kind with
  | .interface => optionalField "interface/audience" (lane.map printId)
  | .event => optionalField "event/stream" (lane.map printId)
  | _ => []

def placementFields (p : Placement) : List (String × Json) :=
  [("placement/id", printId p.id), ("placement/index", .number (.integer p.index)),
    (p.noteKind.text ++ "/id", printId p.noteId)] ++ laneField p.noteKind p.laneId

def schemaFields (s : Schema) : List (String × Json) :=
  [("schema/id", printId s.id), ("schema/name", .string (s.ns ++ "/" ++ s.name))] ++
    textField "schema/description" s.description ++ [("schema/schema", printType s.type)]

/-- The fields of the event-model object. -/
def sectionFields (m : Model) : List (String × Json) :=
  [("event-model/id", printId m.id), ("event-model/name", .string m.name)] ++
    textField "event-model/description" m.description ++
    [("event-model/audiences", printList audienceFields m.audiences),
      ("event-model/streams", printList streamFields m.streams),
      ("event-model/interfaces", printKeyed interfaceFields m.interfaces),
      ("event-model/read-models", printKeyed (noteFields .readModel) m.readModels),
      ("event-model/events", printKeyed (noteFields .event) m.events),
      ("event-model/commands", printKeyed (noteFields .command) m.commands),
      ("event-model/flows", printKeyed flowFields m.flows),
      ("event-model/placements", printKeyed placementFields m.placements),
      ("event-model/schemas", printKeyed schemaFields m.schemas)]

/-- The canonical document of a model. -/
def printModel (m : Model) : Json :=
  .object [("spec-version", .string supportedVersion), ("event-model", .object (sectionFields m))]

end Document

namespace TypeTree

mutual

/-- No node is unset, the entries of a map have names of their own, and every node has the name that
is handed down to it from `inherited`. -/
def wellFormed (inherited : String) (nested : Bool) : TypeTree → Bool
  | scalar l _ => l.name = inherited
  | wrapper l _ child => l.name = inherited && wellFormed l.name true child
  | mapOf l key value =>
    l.name = inherited && wellFormed (nameFor l.name .key) true key &&
      wellFormed (nameFor l.name .value) true value
  | combined l _ members => l.name = inherited && wellFormedMembers l.name members
  | object l entries =>
    l.name = (if nested then nameFor inherited .object else inherited) &&
      decide (entries.map Prod.fst).Nodup && wellFormedEntries l.name entries
  | enumeration l _ => l.name = (if nested then nameFor inherited .enum else inherited)
  | pattern l _ => l.name = inherited
  | reference l _ => l.name = inherited
  | unset _ => false

def wellFormedMembers (inherited : String) : List TypeTree → Bool
  | [] => true
  | t :: ts => wellFormed inherited true t && wellFormedMembers inherited ts

def wellFormedEntries (inherited : String) : List (String × TypeTree) → Bool
  | [] => true
  | (_, t) :: es => wellFormed inherited true t && wellFormedEntries inherited es

end

end TypeTree

/-- The placement is on the lane of its note, only lanes of interfaces and events have identifiers,
and the index is a signed 64-bit integer. -/
structure Placement.WellFormed (p : Placement) : Prop where
  lane : p.laneKind = Document.laneOf p.noteKind
  laneId : p.laneKind = .timeline → p.laneId = none
  index : -Int.pow 2 63 ≤ p.index ∧ p.index < Int.pow 2 63

instance : DecidablePred Placement.WellFormed := fun _ =>
  decidable_of_iff (_ ∧ _ ∧ _)
    ⟨fun ⟨hlane, hlaneId, hindex⟩ => ⟨hlane, hlaneId, hindex⟩,
      fun ⟨hlane, hlaneId, hindex⟩ => ⟨hlane, hlaneId, hindex⟩⟩

structure Interface.WellFormed (i : Interface) : Prop where
  elements : ∀ e ∈ i.elements.entries, e.1 = e.2.id

instance : DecidablePred Interface.WellFormed := fun _ =>
  decidable_of_iff _ ⟨fun h => ⟨h⟩, fun ⟨h⟩ => h⟩

structure Schema.WellFormed (s : Schema) : Prop where
  name : '/' ∉ s.name.toList
  type : s.type.wellFormed s.name false

instance : DecidablePred Schema.WellFormed := fun _ =>
  decidable_of_iff (_ ∧ _) ⟨fun ⟨hname, htype⟩ => ⟨hname, htype⟩,
    fun ⟨hname, htype⟩ => ⟨hname, htype⟩⟩

/-- A model that a document of the format describes in full. -/
structure Model.WellFormed (m : Model) : Prop where
  audiences : (m.audiences.map Audience.id).Nodup
  streams : (m.streams.map Stream.id).Nodup
  interfaces : ∀ e ∈ m.interfaces.entries, e.1 = e.2.id ∧ e.2.WellFormed
  readModels : ∀ e ∈ m.readModels.entries, e.1 = e.2.id
  events : ∀ e ∈ m.events.entries, e.1 = e.2.id
  commands : ∀ e ∈ m.commands.entries, e.1 = e.2.id
  placements : ∀ e ∈ m.placements.entries, e.1 = e.2.id ∧ e.2.WellFormed
  schemas : ∀ e ∈ m.schemas.entries, e.1 = e.2.id ∧ e.2.WellFormed

instance : DecidablePred Model.WellFormed := fun _ =>
  decidable_of_iff (_ ∧ _ ∧ _ ∧ _ ∧ _ ∧ _ ∧ _ ∧ _)
    ⟨fun ⟨ha, hs, hi, hr, he, hc, hp, ht⟩ => ⟨ha, hs, hi, hr, he, hc, hp, ht⟩,
      fun ⟨ha, hs, hi, hr, he, hc, hp, ht⟩ => ⟨ha, hs, hi, hr, he, hc, hp, ht⟩⟩

end EventForge
