import EventForge.Document.Fields
import EventForge.Document.Reading
import EventForge.Text.Casing
import EventForge.Text.Numeral
import EventForge.TypeTree

/-!
# Type nodes

A type node is an object with a `type`, optional `properties` and optional `children`. An unknown
type and missing children leave the node unset with a warning; what a node needs but does not have
is a fault. Names are handed down from the schema: nested maps and enums, and the two sides of a
`map-of`, append a suffix.
-/

namespace EventForge.Document

open TypeTree (NameRole nameFor)

theorem sizeOf_find?_lt {fields : List (String × Json)} {key : String} {j : Json}
    (h : find? fields key = some j) : sizeOf j < sizeOf fields := by
  unfold find? at h
  match he : fields.find? fun e => e.1 = key with
  | none => rw [he] at h; cases h
  | some (k, j') =>
    rw [he] at h
    cases h
    have := List.sizeOf_lt_of_mem (List.mem_of_find?_eq_some he)
    simp only [Prod.mk.sizeOf_spec] at this
    show sizeOf j' < sizeOf fields
    omega

/-- A declared type as a tag: without its leading colon, in lower case, with `_` for `-`. -/
def normalizeTag (declared : String) : String :=
  let bare := match declared.toList with
    | ':' :: rest => String.ofList rest
    | _ => declared
  Text.replaceChar '-' '_' (Text.lower bare)

/-- Adds one property to a bag; a property without a scalar value is skipped with a warning. -/
def readProperty (location : String) (bag : Dict String String) (item : Json) :
    Reading (Dict String String) := do
  let entry ← Fields.ofJson item location
  let key ← entry.text "key"
  match (entry.value? "value").bind Json.scalarText? with
  | some value => return bag.insert key value
  | none =>
    Reading.warn ("property '" ++ key ++ "' has no scalar value") location
    return bag

/-- The properties of a node; a node without the member has no bag. -/
def readProperties (node : Fields) : Reading (Option (Dict String String)) := do
  match ← node.array? "properties" with
  | none => return none
  | some items =>
    let bag ← items.foldlM (readProperty (node.location ++ ".properties")) ∅
    return some bag

/-- A value that is smaller than the fields of a node, and so can be read before the node is. -/
abbrev Part (fields : List (String × Json)) : Type := {c : Json // sizeOf c < sizeOf fields}

/-- The children of a node. -/
def childrenOf (node : Fields) : Except Fault (List (Part node.fields)) :=
  match h : find? node.fields "children" with
  | none => .ok []
  | some .null => .ok []
  | some (.array items) =>
    .ok <| items.attach.map fun c => ⟨c.1, by
      have h₁ := sizeOf_find?_lt h
      have h₂ := List.sizeOf_lt_of_mem c.2
      simp only [Json.array.sizeOf_spec] at h₁
      omega⟩
  | some _ => .error (.invalidField "children" node.location "an array")

/-- A child that is an entry of a map: its name and its schema. -/
def readEntry {fields : List (String × Json)} (child : Part fields) (location : String) :
    Except Fault (String × Part fields) :=
  match h : child.1 with
  | .object entry =>
    match Fields.text ⟨entry, location⟩ "entry" with
    | .error e => .error e
    | .ok name =>
      match hs : find? entry "schema" with
      | none => .error (.missingField "schema" location)
      | some schema =>
        .ok (name, ⟨schema, by
          have h₁ := child.2
          have h₂ := sizeOf_find?_lt hs
          rw [h, Json.object.sizeOf_spec] at h₁
          omega⟩)
  | _ => .error (.invalidField "value" location "an object")

/-- A text member of a child of a node. -/
def childText (child : Json) (key location : String) : Except Fault String :=
  (Fields.ofJson child location).bind fun o => o.text key

/-- The name of a node: nested maps and enums append a suffix to the name they inherit. -/
def nodeName (shape : Shape) (nested : Bool) (inherited : String) : String :=
  match shape, nested with
  | .map, true => nameFor inherited .object
  | .enum, true => nameFor inherited .enum
  | _, _ => inherited

/-- A node whose required children are missing. -/
def childless (label : Label) (shape : Shape) (location : String) : Reading TypeTree := do
  Reading.warn ("shape '" ++ shape.text ++ "' is missing its children, left unset") location
  return .unset label

/-- Adds one entry to those of a map; of a repeated name the last one counts, with a warning. -/
def addEntry {fields : List (String × Json)} (location : String)
    (readPart : Part fields → String → String → Reading TypeTree) (name : String)
    (entries : List (String × TypeTree)) (child : Part fields) :
    Reading (List (String × TypeTree)) := do
  let (key, schema) ← readEntry child location
  let type ← readPart schema name (location ++ "." ++ key)
  if (find? entries key).isSome then
    Reading.warn ("duplicate entry '" ++ key ++ "', last one wins") location
  return upsert entries key type

/-- Reads what is particular to a shape. Children that are nodes are read by `readPart`, which takes
the name handed down to them and their place. -/
def readShape {fields : List (String × Json)} (shape : Shape) (label : Label) (location : String)
    (children : List (Part fields))
    (readPart : Part fields → String → String → Reading TypeTree) : Reading TypeTree :=
  match shape, children with
  | .wrapper kind, c :: _ => do
    return .wrapper label kind (← readPart c label.name (location ++ ".0"))
  | .mapOf, k :: v :: _ => do
    let key ← readPart k (nameFor label.name .key) (location ++ ".key")
    let value ← readPart v (nameFor label.name .value) (location ++ ".value")
    return .mapOf label key value
  | .combinator kind, children => do
    let members ← children.zipIdx.mapM fun (c, i) =>
      readPart c label.name (location ++ "." ++ Text.decimal i)
    return .combined label kind members
  | .map, children => do
    return .object label (← children.foldlM (addEntry location readPart label.name) [])
  | .enum, children => do
    return .enumeration label (← children.mapM fun c => childText c.1 "symbol" location)
  | .re, c :: _ => do return .pattern label (← childText c.1 "expression" location)
  | .ref, c :: _ => do
    let target ← childText c.1 "reference" location
    return .reference label (← readId target location)
  | .scalar kind, [] => return .scalar label kind
  | .scalar kind, _ :: _ => do
    Reading.warn ("shape '" ++ shape.text ++ "' does not take children, ignored") location
    return .scalar label kind
  | shape, _ => childless label shape location

/-- Reads a node with the given fields. -/
def readObject (fields : List (String × Json)) (inherited : String) (nested : Bool)
    (location : String) (readPart : Part fields → String → String → Reading TypeTree) :
    Reading TypeTree := do
  let node : Fields := ⟨fields, location⟩
  let declared ← node.text "type"
  let bag ← readProperties node
  match Shape.ofTag? (normalizeTag declared) with
  | none =>
    Reading.warn ("unknown shape '" ++ declared ++ "', left unset") location
    return .unset ⟨inherited, bag⟩
  | some shape =>
    let children ← childrenOf node
    readShape shape ⟨nodeName shape nested inherited, bag⟩ location children readPart

/-- Reads the node at `location`; `inherited` is the name handed down to it. -/
def readNode (node : Json) (inherited : String) (nested : Bool) (location : String) :
    Reading TypeTree :=
  match node with
  | .object fields =>
    readObject fields inherited nested location fun part name place =>
      readNode part.1 name true place
  | _ => .refused (.invalidField "value" location "an object")
termination_by sizeOf node
decreasing_by
  have := part.2
  simp only [Json.object.sizeOf_spec]
  omega

end EventForge.Document
