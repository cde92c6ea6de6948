/-!
# Types of generated fields

A type is a primitive, a generated class or enum, a container or an optional value. It is written in
Java with boxed primitives inside containers; an optional value is written as the boxed type alone.
-/

namespace EventForge.Java

inductive Primitive where
  | string
  | int
  | double
  | bool
  | uuid
  | any
  | nil
  deriving DecidableEq, Repr

inductive Collection where
  | vector
  | sequence
  | set
  deriving DecidableEq, Repr

inductive TypeRef where
  | primitive (p : Primitive)
  | named (name : String)
  | collection (kind : Collection) (element : TypeRef)
  | map (key value : TypeRef)
  | optional (inner : TypeRef)
  deriving DecidableEq, Repr

def Primitive.text (boxed : Bool) : Primitive → String
  | string => "String"
  | int => if boxed then "Integer" else "int"
  | double => if boxed then "Double" else "double"
  | bool => if boxed then "Boolean" else "boolean"
  | uuid => "UUID"
  | any => "Object"
  | nil => "Void"

def Collection.text : Collection → String
  | vector => "Vector"
  | sequence => "List"
  | set => "Set"

namespace TypeRef

/-- The type as an argument of a container. -/
def boxedText : TypeRef → String
  | primitive p => p.text true
  | named name => name
  | collection kind element => kind.text ++ "<" ++ element.boxedText ++ ">"
  | map key value => "Map<" ++ key.boxedText ++ ", " ++ value.boxedText ++ ">"
  | optional inner => inner.boxedText

/-- The type of a field. -/
def text : TypeRef → String
  | primitive p => p.text false
  | t => t.boxedText

/-- Type arguments in the order in which they are written. -/
def args : TypeRef → List TypeRef
  | collection _ element => [element]
  | map key value => [key, value]
  | optional inner => [inner]
  | _ => []

/-- How deep containers and optional values nest. -/
def depth : TypeRef → Nat
  | collection _ element => element.depth + 1
  | map key value => max key.depth value.depth + 1
  | optional inner => inner.depth + 1
  | _ => 0

/-- The library types that occur in a type, with repetitions. -/
def libraryTypes : TypeRef → List String
  | primitive .uuid => ["UUID"]
  | primitive _ => []
  | named _ => []
  | collection kind element => kind.text :: element.libraryTypes
  | map key value => "Map" :: (key.libraryTypes ++ value.libraryTypes)
  | optional inner => inner.libraryTypes

end TypeRef

end EventForge.Java
