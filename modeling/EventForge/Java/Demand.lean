import EventForge.Model

/-!
# Schemas that a note uses

Apart from its own class, a note needs the classes and enums that its schema names, directly or
through references. A schema is entered at most once, so circular references end.
-/

namespace EventForge.Java

/-- A declaration of the schemas package that a note asks for. -/
inductive Demand where
  | entity (type : TypeTree) (description : Option String)
  | enum (type : TypeTree) (description : Option String)

/-- A walk over schemas: those that references have led to, and what was asked for so far. -/
structure Walk where
  visited : List Uuid
  demands : List Demand

namespace Walk

def ask (w : Walk) (d : Demand) : Walk := { w with demands := w.demands ++ [d] }

mutual

/-- Walks a tree; `description` documents the class of an object at its root. References are
handed to `follow`. -/
def node (follow : Uuid → Walk → Walk) (description : Option String) (w : Walk) : TypeTree → Walk
  | .object l entries =>
    nodesOfEntries follow (w.ask (.entity (.object l entries) description)) entries
  | .reference _ id => follow id w
  | .wrapper _ kind c => if kind = .not then w else node follow none w c
  | .mapOf _ k v => node follow none (node follow none w k) v
  | _ => w

/-- Walks the entries of a map. -/
def nodesOfEntries (follow : Uuid → Walk → Walk) (w : Walk) : List (String × TypeTree) → Walk
  | [] => w
  | (_, t) :: rest => nodesOfEntries follow (node follow none w t) rest

end

/-- Walks what is below a node. -/
def children (follow : Uuid → Walk → Walk) (w : Walk) : TypeTree → Walk
  | .object _ entries => nodesOfEntries follow w entries
  | .reference _ _ => w
  | t => node follow none w t

/-- Asks for the root of a schema that a reference leads to, and walks on from there. -/
def enter (follow : Uuid → Walk → Walk) (description : Option String) (w : Walk) (root : TypeTree) :
    Walk :=
  match root with
  | .enumeration _ _ => w.ask (.enum root description)
  | .reference _ id => follow id (w.ask (.entity root description))
  | _ => children follow (w.ask (.entity root description)) root

/-- Follows references at most `steps` deep. A schema is entered once; one that is not in the model
is passed over. -/
def follow (m : Model) (description : Option String) : Nat → Uuid → Walk → Walk
  | 0, _, w => w
  | steps + 1, id, w =>
    if id ∈ w.visited then w
    else
      let w := { w with visited := w.visited ++ [id] }
      match m.schema? id with
      | none => w
      | some schema => enter (follow m description steps) description w schema.type

end Walk

/-- What a note asks for when its schema is `schema`. A chain of references has no more links than
the model has schemas, so one step more than that follows every chain. -/
def demands (m : Model) (note : Note) (schema : Schema) : List Demand :=
  let follow := Walk.follow m note.description (m.schemas.size + 1)
  (Walk.node follow schema.description ⟨[], []⟩ schema.type).demands

end EventForge.Java
