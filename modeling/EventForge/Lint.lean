import EventForge.Context
import EventForge.Diagnostic

/-!
# Lints

A lint looks over a model for one kind of problem that generation survives: notes and references
with unknown schemas, flows between unknown placements, and events outside every stream.
-/

namespace EventForge

structure Lint where
  name : String
  check : Model → List Diagnostic

namespace Lint

def warning (message location : String) : Diagnostic :=
  ⟨.warning, "validate", message, some location⟩

/-- The kinds of notes that have schemas. -/
def schemaKinds : List NoteKind := [.command, .event, .readModel]

def missingSchemaOf (m : Model) (kind : NoteKind) (note : Note) : Option Diagnostic :=
  match note.schemaId with
  | none => none
  | some id =>
    if (m.schema? id).isSome then none
    else
      some <| warning
        (kind.text ++ " '" ++ note.name ++ "' references unknown schema " ++ id.toText)
        (kind.text ++ "s." ++ note.id.toText)

/-- Notes whose schema is not in the model. -/
def missingSchema : Lint where
  name := "missing-schema"
  check m := schemaKinds.flatMap fun kind => (m.notes kind).filterMap (missingSchemaOf m kind)

def unresolvedOf (m : Model) (schema : Schema) : List Diagnostic :=
  (schema.type.references.filter fun target => (m.schema? target).isNone).map fun target =>
    warning ("schema '" ++ schema.name ++ "' references unknown schema " ++ target.toText)
      ("schemas." ++ schema.id.toText)

/-- References to schemas that are not in the model. -/
def unresolvedReference : Lint where
  name := "unresolved-reference"
  check m := m.schemas.values.flatMap (unresolvedOf m)

def danglingEnd (m : Model) (flow : Uuid) (side : String) (placement : Uuid) :
    Option Diagnostic :=
  if m.placements.contains placement then none
  else
    some <| warning
      ("flow " ++ flow.toText ++ " has unknown " ++ side ++ " placement " ++ placement.toText)
      ("flows." ++ flow.toText)

/-- Flows with an end that is no placement of the model. -/
def danglingFlow : Lint where
  name := "dangling-flow"
  check m := m.flows.entries.flatMap fun (key, flow) =>
    [("source", flow.source), ("target", flow.target)].filterMap fun (side, placement) =>
      danglingEnd m key side placement

/-- The name of the event at a placement, or its identifier when it is unknown. -/
def eventName (m : Model) (p : Placement) : String :=
  match m.note? .event p.noteId with
  | some note => note.name
  | none => p.noteId.toText

def strayEventOf (m : Model) (p : Placement) : Option Diagnostic :=
  let location := "placements." ++ p.id.toText
  match p.laneId with
  | none =>
    some <| warning
      ("event '" ++ eventName m p ++ "' has no stream, generated into " ++ Context.defaultName)
      location
  | some lane =>
    if p.laneKind ≠ .stream ∨ (m.stream? lane).isNone then
      some <| warning
        ("event '" ++ eventName m p ++ "' is placed on unknown stream " ++ lane.toText
          ++ ", not generated")
        location
    else none

/-- Events on no stream and events on an unknown one. -/
def defaultStream : Lint where
  name := "default-stream"
  check m := (m.placementsOf .event).filterMap (strayEventOf m)

def all : List Lint := [missingSchema, unresolvedReference, danglingFlow, defaultStream]

end Lint

end EventForge
