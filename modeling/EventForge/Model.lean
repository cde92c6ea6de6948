import EventForge.TypeTree

/-!
# Event models

A model places notes (interfaces, commands, read models and events) on lanes and joins the
placements by flows; commands, read models and events may have a schema. Sections keyed by
identifiers keep the order of the document; the key of an entry may differ from the identifier that
the entry declares.
-/

namespace EventForge

/-- A lane for interfaces. -/
structure Audience where
  id : Uuid
  name : String
  deriving DecidableEq, Repr

/-- A lane for events. -/
structure Stream where
  id : Uuid
  name : String
  deriving DecidableEq, Repr

inductive ElementKind where
  | connect
  | delete
  | get
  | head
  | options
  | patch
  | post
  | put
  | trace
  deriving DecidableEq, Repr

namespace ElementKind

def text : ElementKind → String
  | connect => "connect"
  | delete => "delete"
  | get => "get"
  | head => "head"
  | options => "options"
  | patch => "patch"
  | post => "post"
  | put => "put"
  | trace => "trace"

def all : List ElementKind :=
  [connect, delete, get, head, options, patch, post, put, trace]

def ofTag? (tag : String) : Option ElementKind := all.find? fun k => k.text = tag

end ElementKind

/-- An element of an interface, such as an endpoint. -/
structure Element where
  id : Uuid
  kind : ElementKind
  name : String
  deriving DecidableEq, Repr

inductive InterfaceKind where
  | blank
  | rest
  | html
  | job
  | figma (url : Option String)
  deriving DecidableEq, Repr

namespace InterfaceKind

def text : InterfaceKind → String
  | blank => "blank"
  | rest => "rest"
  | html => "html"
  | job => "job"
  | figma _ => "figma"

def url? : InterfaceKind → Option String
  | figma url => url
  | _ => none

end InterfaceKind

structure Interface where
  id : Uuid
  name : String
  description : Option String
  kind : InterfaceKind
  elements : Dict Uuid Element
  deriving DecidableEq, Repr

/-- A command, event or read model. -/
structure Note where
  id : Uuid
  name : String
  description : Option String
  schemaId : Option Uuid
  deriving DecidableEq, Repr

inductive NoteKind where
  | interface
  | command
  | readModel
  | event
  deriving DecidableEq, Repr

namespace NoteKind

/-- The word that the document puts in front of a note's fields. -/
def text : NoteKind → String
  | interface => "interface"
  | command => "command"
  | readModel => "read-model"
  | event => "event"

def all : List NoteKind := [interface, command, readModel, event]

end NoteKind

inductive LaneKind where
  | audience
  | timeline
  | stream
  deriving DecidableEq, Repr

namespace LaneKind

def text : LaneKind → String
  | audience => "audience"
  | timeline => "timeline"
  | stream => "stream"

end LaneKind

/-- A directed edge between two placements. -/
structure Flow where
  source : Uuid
  target : Uuid
  deriving DecidableEq, Repr

/-- A note on a lane. The timeline has no lane identifier, nor has the default stream. -/
structure Placement where
  id : Uuid
  index : Int
  noteKind : NoteKind
  noteId : Uuid
  laneKind : LaneKind
  laneId : Option Uuid
  deriving DecidableEq, Repr

/-- A named type in a namespace. -/
structure Schema where
  id : Uuid
  name : String
  ns : String
  description : Option String
  type : TypeTree
  deriving Repr

structure Model where
  id : Uuid
  name : String
  description : Option String
  audiences : List Audience
  streams : List Stream
  interfaces : Dict Uuid Interface
  commands : Dict Uuid Note
  events : Dict Uuid Note
  readModels : Dict Uuid Note
  flows : Dict Uuid Flow
  placements : Dict Uuid Placement
  schemas : Dict Uuid Schema
  deriving Repr

namespace Model

/-- The namespace of a schema whose name has none. -/
def defaultNamespace : String := "default"

/-- The namespace and the name in a qualified name, which is split at its last slash. -/
def splitQualified (qualified : String) : String × String :=
  match Text.cutLast? '/' qualified.toList with
  | some (ns, name) => (String.ofList ns, String.ofList name)
  | none => (defaultNamespace, qualified)

def schema? (m : Model) (id : Uuid) : Option Schema := m.schemas.get? id

def stream? (m : Model) (id : Uuid) : Option Stream := m.streams.find? fun s => s.id = id

/-- The section of notes of one kind; interfaces are not notes of this sort. -/
def section? (m : Model) : NoteKind → Option (Dict Uuid Note)
  | .command => some m.commands
  | .event => some m.events
  | .readModel => some m.readModels
  | .interface => none

def note? (m : Model) (kind : NoteKind) (id : Uuid) : Option Note :=
  (m.section? kind).bind fun notes => notes.get? id

/-- Notes of one kind in document order. -/
def notes (m : Model) (kind : NoteKind) : List Note :=
  match m.section? kind with
  | some notes => notes.values
  | none => []

/-- Placements of notes of one kind in document order. -/
def placementsOf (m : Model) (kind : NoteKind) : List Placement :=
  m.placements.values.filter fun p => p.noteKind = kind

end Model

end EventForge
