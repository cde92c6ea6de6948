import EventForge.Dict
import EventForge.Text.Blank
import EventForge.Text.Split
import EventForge.Uuid

/-!
# Type trees

The type of a schema is a tree whose nodes have one of 24 shapes, or none when the document did not
give a usable one. Every node carries a name, which titles the class or enum made from it, and an
optional bag of properties.
-/

namespace EventForge

/-- Shapes without children. -/
inductive Scalar where
  | string
  | int
  | double
  | boolean
  | symbol
  | qualifiedSymbol
  | keyword
  | qualifiedKeyword
  | uuid
  | nil
  | any
  deriving DecidableEq, Repr

/-- Shapes with exactly one child. -/
inductive Wrapper where
  | vector
  | sequential
  | set
  | not
  | maybe
  deriving DecidableEq, Repr

/-- Shapes that combine any number of members. -/
inductive Combinator where
  | tuple
  | or
  | and
  deriving DecidableEq, Repr

inductive Shape where
  | scalar (kind : Scalar)
  | wrapper (kind : Wrapper)
  | mapOf
  | combinator (kind : Combinator)
  | map
  | enum
  | re
  | ref
  | unknown
  deriving DecidableEq, Repr

namespace Shape

def text : Shape → String
  | scalar .string => "string"
  | scalar .int => "int"
  | scalar .double => "double"
  | scalar .boolean => "boolean"
  | scalar .symbol => "symbol"
  | scalar .qualifiedSymbol => "qualified-symbol"
  | scalar .keyword => "keyword"
  | scalar .qualifiedKeyword => "qualified-keyword"
  | scalar .uuid => "uuid"
  | scalar .nil => "nil"
  | scalar .any => "any"
  | wrapper .vector => "vector"
  | wrapper .sequential => "sequential"
  | wrapper .set => "set"
  | wrapper .not => "not"
  | wrapper .maybe => "maybe"
  | mapOf => "map-of"
  | combinator .tuple => "tuple"
  | combinator .or => "or"
  | combinator .and => "and"
  | map => "map"
  | enum => "enum"
  | re => "re"
  | ref => "ref"
  | unknown => "unknown"

/-- The shapes a document can declare. -/
def declarable : List Shape :=
  [scalar .string, scalar .int, scalar .double, scalar .boolean, scalar .symbol,
   scalar .qualifiedSymbol, scalar .keyword, scalar .qualifiedKeyword, scalar .uuid, scalar .nil,
   scalar .any, wrapper .vector, wrapper .sequential, wrapper .set, mapOf, combinator .tuple,
   combinator .or, combinator .and, map, enum, re, ref, wrapper .not, wrapper .maybe]

/-- The tag of a shape: its text with `_` for `-`. -/
def tag (s : Shape) : String := Text.replaceChar '-' '_' s.text

/-- The declarable shape with a given tag. -/
def ofTag? (t : String) : Option Shape := declarable.find? fun s => s.tag = t

end Shape

/-- What every node carries. -/
structure Label where
  name : String
  properties : Option (Dict String String)
  deriving DecidableEq, Repr

inductive TypeTree where
  | scalar (label : Label) (kind : Scalar)
  | wrapper (label : Label) (kind : Wrapper) (child : TypeTree)
  | mapOf (label : Label) (key value : TypeTree)
  | combined (label : Label) (kind : Combinator) (members : List TypeTree)
  | object (label : Label) (entries : List (String × TypeTree))
  | enumeration (label : Label) (symbols : List String)
  | pattern (label : Label) (expression : String)
  | reference (label : Label) (target : Uuid)
  | unset (label : Label)
  deriving Repr

namespace TypeTree

def label : TypeTree → Label
  | scalar l _ => l
  | wrapper l _ _ => l
  | mapOf l _ _ => l
  | combined l _ _ => l
  | object l _ => l
  | enumeration l _ => l
  | pattern l _ => l
  | reference l _ => l
  | unset l => l

def name (t : TypeTree) : String := t.label.name

def shape : TypeTree → Shape
  | scalar _ kind => .scalar kind
  | wrapper _ kind _ => .wrapper kind
  | mapOf _ _ _ => .mapOf
  | combined _ kind _ => .combinator kind
  | object _ _ => .map
  | enumeration _ _ => .enum
  | pattern _ _ => .re
  | reference _ _ => .ref
  | unset _ => .unknown

/-- The name without blanks. -/
def compactName (t : TypeTree) : String := Text.compact t.name

/-- The declared properties, none when the bag is empty. -/
def properties? (t : TypeTree) : Option (List (String × String)) :=
  match t.label.properties with
  | some bag => if bag.entries = [] then none else some bag.entries
  | none => none

/-- The declared properties, in order. -/
def properties (t : TypeTree) : List (String × String) := t.properties?.getD []

/-- Asking a node for a payload that its shape does not have. -/
structure ShapeMismatch where
  name : String
  expected : String
  actual : Shape
  deriving DecidableEq, Repr

def ShapeMismatch.message (e : ShapeMismatch) : String :=
  "'" ++ e.name ++ "' is a " ++ e.actual.text ++ ", not a " ++ e.expected

def mismatch (t : TypeTree) (expected : String) : ShapeMismatch := ⟨t.name, expected, t.shape⟩

def entries (t : TypeTree) : Except ShapeMismatch (List (String × TypeTree)) :=
  match t with
  | object _ entries => .ok entries
  | _ => .error (t.mismatch "map")

def symbols (t : TypeTree) : Except ShapeMismatch (List String) :=
  match t with
  | enumeration _ symbols => .ok symbols
  | _ => .error (t.mismatch "enum")

def target (t : TypeTree) : Except ShapeMismatch Uuid :=
  match t with
  | reference _ target => .ok target
  | _ => .error (t.mismatch "ref")

def expression (t : TypeTree) : Except ShapeMismatch String :=
  match t with
  | pattern _ expression => .ok expression
  | _ => .error (t.mismatch "re")

def child (t : TypeTree) : Except ShapeMismatch TypeTree :=
  match t with
  | wrapper _ _ child => .ok child
  | _ => .error (t.mismatch "single-child shape")

def keyValue (t : TypeTree) : Except ShapeMismatch (TypeTree × TypeTree) :=
  match t with
  | mapOf _ key value => .ok (key, value)
  | _ => .error (t.mismatch "map-of")

def members (t : TypeTree) : Except ShapeMismatch (List TypeTree) :=
  match t with
  | combined _ _ members => .ok members
  | _ => .error (t.mismatch "combinator")

mutual

/-- The targets of all references in a tree, depth first. -/
def references : TypeTree → List Uuid
  | reference _ target => [target]
  | wrapper _ _ child => references child
  | mapOf _ key value => references key ++ references value
  | combined _ _ members => referencesOfMembers members
  | object _ entries => referencesOfEntries entries
  | _ => []

def referencesOfMembers : List TypeTree → List Uuid
  | [] => []
  | t :: ts => references t ++ referencesOfMembers ts

def referencesOfEntries : List (String × TypeTree) → List Uuid
  | [] => []
  | (_, t) :: es => references t ++ referencesOfEntries es

end

/-- The position of a child under its parent, as far as the child's name depends on it. -/
inductive NameRole where
  | object
  | enum
  | key
  | value
  | inherit
  deriving DecidableEq, Repr

def NameRole.suffix : NameRole → String
  | object => "Object"
  | enum => "Enum"
  | key => "Key"
  | value => "Value"
  | inherit => ""

/-- The name of a nested node: its parent's, with a suffix for its role. -/
def nameFor (parent : String) (role : NameRole) : String := parent ++ role.suffix

end TypeTree

end EventForge
