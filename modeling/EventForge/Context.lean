import EventForge.Java.Naming
import EventForge.Model

/-!
# Bounded contexts

Every stream makes a context, and one default context takes the events that are on no stream. A
context holds the events of its stream, the commands that a flow joins to one of them in either
direction, and the read models that one of them flows into. Commands and read models may belong to
several contexts.
-/

namespace EventForge

/-- The placements that are generated together as one project. -/
structure Context where
  stream : Option Uuid
  name : String
  placements : List Uuid
  deriving DecidableEq, Repr

namespace Context

/-- The name of the context for events that are on no stream. -/
def defaultName : String := "DefaultStream"

def isEmpty (c : Context) : Bool := c.placements.isEmpty

def isDefault (c : Context) : Bool := c.stream.isNone

def contains (c : Context) (placement : Uuid) : Bool := c.placements.contains placement

/-- The name of the project made from the context. -/
def projectName (c : Context) : String := Java.titled c.name

/-- Appends the elements that are not yet in a list, each once. -/
def union {α : Type} [DecidableEq α] (xs ys : List α) : List α :=
  ys.foldl (fun acc y => if y ∈ acc then acc else acc ++ [y]) xs

/-- The identifiers of the events placed on a stream. -/
def eventIds (m : Model) (stream : Option Uuid) : List Uuid :=
  union []
    (((m.placementsOf .event).filter fun p => p.laneKind = .stream ∧ p.laneId = stream).map
      Placement.id)

/-- A flow joins the placement to one of the events, in either direction. -/
def touches (m : Model) (events : List Uuid) (placement : Uuid) : Bool :=
  m.flows.values.any fun f =>
    (f.source = placement ∧ f.target ∈ events) ∨ (f.target = placement ∧ f.source ∈ events)

/-- A flow runs from one of the events into the placement. -/
def isFedBy (m : Model) (events : List Uuid) (placement : Uuid) : Bool :=
  m.flows.values.any fun f => f.target = placement ∧ f.source ∈ events

/-- The placements of a stream's context: events, then commands, then read models. -/
def placementsFor (m : Model) (stream : Option Uuid) : List Uuid :=
  let events := eventIds m stream
  let commands := ((m.placementsOf .command).map Placement.id).filter (touches m events)
  let readModels := ((m.placementsOf .readModel).map Placement.id).filter (isFedBy m events)
  union (union events commands) readModels

/-- The contexts of a model: one per stream, empty ones included, and the default one. -/
def partition (m : Model) : List Context :=
  m.streams.map (fun s => ⟨some s.id, s.name, placementsFor m (some s.id)⟩)
    ++ [⟨none, defaultName, placementsFor m none⟩]

/-- The number of a context's placements that hold notes of one kind. -/
def count (m : Model) (c : Context) (kind : NoteKind) : Nat :=
  ((c.placements.filterMap m.placements.get?).filter fun p => p.noteKind = kind).length

end Context

end EventForge
