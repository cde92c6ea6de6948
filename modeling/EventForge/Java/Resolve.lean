import EventForge.Java.Imports
import EventForge.Java.Naming
import EventForge.Java.TypeRef
import EventForge.Model

/-!
# Resolving type trees

A type tree resolves to the type of a field, together with what the field needs around it: the
generated classes and enums it names, the patterns its text has to match and the enums declared with
it. Only vectors, sequences, sets, optional values and maps are looked into; a class that an object
stands for is generated elsewhere.
-/

namespace EventForge.Java

/-- Why a type tree has no type. -/
inductive ResolveFault where
  | unknownSchema (id : Uuid)
  | unsupported (name : String) (shape : Shape)
  deriving DecidableEq, Repr

namespace ResolveFault

def message : ResolveFault → String
  | unknownSchema id => "reference to unknown schema " ++ id.toText
  | unsupported name shape => "'" ++ name ++ "' has unsupported shape '" ++ shape.text ++ "'"

/-- Only the field is lost, not its class. -/
def isFieldLocal : ResolveFault → Bool
  | unsupported _ _ => true
  | unknownSchema _ => false

end ResolveFault

namespace Resolve

open TypeTree

/-- The name of the class or enum made from the root of a schema. -/
def targetName (m : Model) (id : Uuid) : Except ResolveFault String :=
  match m.schema? id with
  | some schema => .ok (typeName schema.type.name)
  | none => .error (.unknownSchema id)

def scalarType : Scalar → Primitive
  | .string => .string
  | .symbol => .string
  | .qualifiedSymbol => .string
  | .keyword => .string
  | .qualifiedKeyword => .string
  | .int => .int
  | .double => .double
  | .boolean => .bool
  | .uuid => .uuid
  | .any => .any
  | .nil => .nil

/-- The type of a field that holds values of a tree. -/
def typeRef (m : Model) : TypeTree → Except ResolveFault TypeRef
  | scalar _ kind => .ok (.primitive (scalarType kind))
  | pattern _ _ => .ok (.primitive .string)
  | wrapper _ .vector c => (typeRef m c).map (.collection .vector)
  | wrapper _ .sequential c => (typeRef m c).map (.collection .sequence)
  | wrapper _ .set c => (typeRef m c).map (.collection .set)
  | wrapper _ .maybe c => (typeRef m c).map .optional
  | mapOf _ k v => (typeRef m k).bind fun key => (typeRef m v).map fun value => .map key value
  | object l _ => .ok (.named (typeName l.name))
  | enumeration l _ => .ok (.named (typeName l.name))
  | reference _ id => (targetName m id).map .named
  | wrapper l .not _ => .error (.unsupported l.name (.wrapper .not))
  | combined l kind _ => .error (.unsupported l.name (.combinator kind))
  | unset l => .error (.unsupported l.name .unknown)

/-- The nodes that are looked into from a tree, itself first. -/
def reached : TypeTree → List TypeTree
  | wrapper l .not c => [wrapper l .not c]
  | wrapper l kind c => wrapper l kind c :: reached c
  | mapOf l k v => mapOf l k v :: (reached k ++ reached v)
  | t => [t]

/-- The generated classes and enums of the schemas package that a node names. -/
def entityOf (m : Model) : TypeTree → Except ResolveFault (Option String)
  | object l _ => .ok (some (typeName l.name))
  | reference _ id => (targetName m id).map some
  | _ => .ok none

/-- The generated classes and enums that a tree names, in the order in which they are met. -/
def entities (m : Model) (t : TypeTree) : Except ResolveFault (List String) :=
  ((reached t).mapM (entityOf m)).map List.reduceOption

/-- The generated classes and enums that a tree names, sorted and each once. -/
def importedNames (m : Model) (t : TypeTree) : Except ResolveFault (List String) :=
  (entities m t).map sortedNames

/-- The patterns met in a tree, by the name of their node. -/
def patterns (t : TypeTree) : Dict String String :=
  (reached t).foldl
    (fun ps node =>
      match node with
      | pattern l expression => ps.insert l.name expression
      | _ => ps)
    ∅

/-- The enums met in a tree: the name of the type and its symbols without blanks. -/
def enums (t : TypeTree) : Dict String (List String) :=
  (reached t).foldl
    (fun es node =>
      match node with
      | enumeration l symbols => es.insert (typeName l.name) (symbols.map Text.compact)
      | _ => es)
    ∅

end Resolve

end EventForge.Java
