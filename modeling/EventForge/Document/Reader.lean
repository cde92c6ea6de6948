import EventForge.Document.SyntaxSpan
import EventForge.Document.TypeNode
import EventForge.FileTree
import EventForge.Json.Reader
import EventForge.Model
import EventForge.SpecVersion

/-!
# Reading event-model documents

A document is read strictly in its outer shape and in the fields that every entity needs, and
leniently in what generation can do without: versions, unknown kinds and notes with several schemas
only raise warnings. Sections are read in a fixed order, so of several faults the first one in that
order is reported.
-/

namespace EventForge.Document

/-- The format version that is read. -/
def supportedVersion : String := "0.1.0-beta"

/-- Whether a declared version is the supported one. -/
def isSupported (declared : String) : Bool :=
  match SpecVersion.ofText declared, SpecVersion.ofText supportedVersion with
  | .ok v, .ok w => v = w
  | _, _ => false

def checkVersion (root : List (String × Json)) : Reading Unit :=
  match find? root "spec-version" with
  | some (.string declared) =>
    if isSupported declared then return ()
    else
      Reading.warn
        ("different spec-version: expected '" ++ supportedVersion ++ "' but was '" ++ declared
          ++ "'")
        "spec-version"
  | _ => Reading.warn ("no spec-version declared, assuming " ++ supportedVersion) "spec-version"

/-- The member of the event-model object that holds a section. -/
def sectionKey (name : String) : String := "event-model/" ++ name

/-- An entry of a section that is keyed by identifiers. -/
structure Keyed where
  key : Uuid
  value : Json
  location : String
  deriving Repr

/-- The entry with a key that is written at a place below `parent`. -/
def readKeyed (parent : String) (entry : String × Json) : Except Fault Keyed :=
  let location := parent ++ "." ++ entry.1
  (readId entry.1 location).map fun key => ⟨key, entry.2, location⟩

/-- The entries of a section; all keys are read before any entry. -/
def keyedSection (document : Fields) (name : String) : Except Fault (List Keyed) :=
  match document.object? (sectionKey name) with
  | .error e => .error e
  | .ok none => .ok []
  | .ok (some entries) => entries.mapM (readKeyed name)

/-- The items of an array section. -/
def listSection (document : Fields) (name : String) : Except Fault (List Json) :=
  (document.array? (sectionKey name)).map fun items => items.getD []

/-- The key of an entry and the identifier it declares should agree. -/
def checkKey (key id : Uuid) (location : String) : Reading Unit :=
  if key = id then return ()
  else
    Reading.warn ("entry keyed by " ++ key.toText ++ " declares id " ++ id.toText) location

/-- The last segment of a slash-separated tag, in lower case. -/
def lastSegment (tag : String) : String :=
  let segment := match Text.cutLast? '/' tag.toList with
    | some (_, last) => String.ofList last
    | none => tag
  Text.lower segment

/-- Adds one item of an array section, which has an identifier and a name; one whose identifier was
read before is skipped with a warning. Places, members and the warning name it by its word. -/
def readListed {α : Type} (word : String) (make : Uuid → String → α) (idOf : α → Uuid)
    (read : List α) (item : Json × Nat) : Reading (List α) := do
  let location := word ++ "s" ++ "[" ++ Text.decimal item.2 ++ "]"
  let o ← Fields.ofJson item.1 location
  let id ← o.id (word ++ "/id")
  let name ← o.text (word ++ "/name")
  let new := make id name
  if read.any fun old => idOf old = idOf new then
    Reading.warn ("duplicate " ++ word ++ " id " ++ (idOf new).toText ++ ", skipped") location
    return read
  else return read ++ [new]

def readAudience : List Audience → Json × Nat → Reading (List Audience) :=
  readListed "audience" Audience.mk Audience.id

def readStream : List Stream → Json × Nat → Reading (List Stream) :=
  readListed "stream" Stream.mk Stream.id

def readAudiences (document : Fields) : Reading (List Audience) := do
  let items ← listSection document "audiences"
  items.zipIdx.foldlM readAudience []

def readStreams (document : Fields) : Reading (List Stream) := do
  let items ← listSection document "streams"
  items.zipIdx.foldlM readStream []

/-- Adds one element; an element of an unknown kind is skipped with a warning. -/
def readElement (parent : String) (elements : Dict Uuid Element) (entry : String × Json) :
    Reading (Dict Uuid Element) := do
  let ⟨key, value, location⟩ ← readKeyed parent entry
  let o ← Fields.ofJson value location
  let id ← o.id "element/id"
  checkKey key id location
  let tag ← o.text "element/type"
  match ElementKind.ofTag? (lastSegment tag) with
  | none =>
    Reading.warn ("unknown element type '" ++ tag ++ "', skipped") location
    return elements
  | some kind =>
    let name ← o.text "element/name"
    return elements.insert key ⟨id, kind, name⟩

def readElements (interface : Fields) : Reading (Dict Uuid Element) := do
  match ← interface.object? "interface/elements" with
  | none => return ∅
  | some entries => entries.foldlM (readElement (interface.location ++ ".elements")) ∅

def readInterfaceKind (interface : Fields) : Reading InterfaceKind := do
  let tag ← interface.text "interface/type"
  match lastSegment tag with
  | "blank" => return .blank
  | "rest" => return .rest
  | "html" => return .html
  | "job" => return .job
  | "figma" => return .figma (← interface.text? "interface.type.figma/url")
  | _ =>
    Reading.warn ("unknown interface type '" ++ tag ++ "', using blank") interface.location
    return .blank

def readInterface (interfaces : Dict Uuid Interface) (entry : Keyed) :
    Reading (Dict Uuid Interface) := do
  let o ← Fields.ofJson entry.value entry.location
  let id ← o.id "interface/id"
  checkKey entry.key id entry.location
  let kind ← readInterfaceKind o
  let name ← o.text "interface/name"
  let description ← o.text? "interface/description"
  let elements ← readElements o
  return interfaces.insert entry.key ⟨id, name, description, kind, elements⟩

def readInterfaces (document : Fields) : Reading (Dict Uuid Interface) := do
  let entries ← keyedSection document "interfaces"
  entries.foldlM readInterface ∅

/-- The schema of a note: its only one. None or several leave it unset with a warning. -/
def readNoteSchema (note : Fields) (kind : NoteKind) : Reading (Option Uuid) := do
  let member := kind.text ++ "/schemas"
  match ← note.object? member with
  | none => return none
  | some [(_, .string target)] => return some (← readId target note.location)
  | some [_] => .refused (.invalidField member note.location "a map of schema ids")
  | some [] =>
    Reading.warn "no schema declared, schema left unset" note.location
    return none
  | some declared =>
    Reading.warn
      ("multiple schemas not supported (" ++ Text.decimal declared.length
        ++ " declared), schema left unset")
      note.location
    return none

def readNote (kind : NoteKind) (notes : Dict Uuid Note) (entry : Keyed) :
    Reading (Dict Uuid Note) := do
  let o ← Fields.ofJson entry.value entry.location
  let id ← o.id (kind.text ++ "/id")
  checkKey entry.key id entry.location
  let schemaId ← readNoteSchema o kind
  let name ← o.text (kind.text ++ "/name")
  let description ← o.text? (kind.text ++ "/description")
  return notes.insert entry.key ⟨id, name, description, schemaId⟩

def readNotes (document : Fields) (kind : NoteKind) : Reading (Dict Uuid Note) := do
  let entries ← keyedSection document (kind.text ++ "s")
  entries.foldlM (readNote kind) ∅

def readFlow (flows : Dict Uuid Flow) (entry : Keyed) : Reading (Dict Uuid Flow) := do
  let o ← Fields.ofJson entry.value entry.location
  let source ← o.id "flow/from"
  let target ← o.id "flow/to"
  return flows.insert entry.key ⟨source, target⟩

def readFlows (document : Fields) : Reading (Dict Uuid Flow) := do
  let entries ← keyedSection document "flows"
  entries.foldlM readFlow ∅

/-- The kinds of notes in the order in which a placement is asked for them. -/
def placeable : List NoteKind := [.interface, .command, .readModel, .event]

/-- The kind of lane that notes of a kind are placed on. -/
def laneOf : NoteKind → LaneKind
  | .interface => .audience
  | .command => .timeline
  | .readModel => .timeline
  | .event => .stream

/-- The identifier of the lane, for lanes that have one. -/
def readLane (placement : Fields) : NoteKind → Except Fault (Option Uuid)
  | .interface => placement.id? "interface/audience"
  | .event => placement.id? "event/stream"
  | _ => .ok none

/-- Adds one placement; one without a note is skipped with a warning. -/
def readPlacement (placements : Dict Uuid Placement) (entry : Keyed) :
    Reading (Dict Uuid Placement) := do
  let o ← Fields.ofJson entry.value entry.location
  let id ← o.id "placement/id"
  checkKey entry.key id entry.location
  match placeable.filter fun kind => o.has (kind.text ++ "/id") with
  | [] =>
    Reading.warn "placement references no note, skipped" entry.location
    return placements
  | kind :: others =>
    unless others.isEmpty do
      Reading.warn ("placement references several notes, using the " ++ kind.text) entry.location
    let laneId ← readLane o kind
    let index ← o.integer "placement/index"
    let noteId ← o.id (kind.text ++ "/id")
    return placements.insert entry.key ⟨id, index, kind, noteId, laneOf kind, laneId⟩

def readPlacements (document : Fields) : Reading (Dict Uuid Placement) := do
  let entries ← keyedSection document "placements"
  entries.foldlM readPlacement ∅

def readSchema (schemas : Dict Uuid Schema) (entry : Keyed) : Reading (Dict Uuid Schema) := do
  let o ← Fields.ofJson entry.value entry.location
  let id ← o.id "schema/id"
  checkKey entry.key id entry.location
  let (ns, name) := Model.splitQualified (← o.text "schema/name")
  match o.value? "schema/schema" with
  | none => .refused (.missingField "schema/schema" entry.location)
  | some root =>
    let type ← readNode root name false entry.location
    let description ← o.text? "schema/description"
    return schemas.insert entry.key ⟨id, name, ns, description, type⟩

def readSchemas (document : Fields) : Reading (Dict Uuid Schema) := do
  let entries ← keyedSection document "schemas"
  entries.foldlM readSchema ∅

/-- The event-model object of a document. -/
def modelFields (root : List (String × Json)) : Except Fault Fields :=
  match find? root "event-model" with
  | some (.object fields) => .ok ⟨fields, "event-model"⟩
  | some other => .error (.rootShape "an 'event-model' object" other.kind)
  | none => .error (.rootShape "an 'event-model' object" "nothing")

/-- Reads the event-model object, section by section. -/
def readModel (document : Fields) : Reading Model := do
  let id ← document.id "event-model/id"
  let name ← document.text "event-model/name"
  let description ← document.text? "event-model/description"
  let audiences ← readAudiences document
  let streams ← readStreams document
  let interfaces ← readInterfaces document
  let readModels ← readNotes document .readModel
  let events ← readNotes document .event
  let commands ← readNotes document .command
  let flows ← readFlows document
  let placements ← readPlacements document
  let schemas ← readSchemas document
  return { id, name, description, audiences, streams, interfaces, commands, events, readModels,
           flows, placements, schemas }

/-- The model in a JSON value, with the warnings raised while reading it. -/
def ofJson (json : Json) : Reading Model :=
  match json with
  | .object root => do
    checkVersion root
    readModel (← modelFields root)
  | other => .refused (.rootShape "a JSON object" other.kind)

/-- The model in a text, with the warnings raised while reading it. -/
def ofText (text : String) : Reading Model :=
  match Json.ofText? text with
  | some json => ofJson json
  | none => .refused .malformed

/-- The model in the file at a path, with the warnings raised while reading it. -/
def ofFile (t : FileTree) (path : Path) : Reading Model :=
  match t.read? path with
  | some text => ofText text
  | none => .refused (.unreadable path.text)

end EventForge.Document
