import EventForge.Code.Fragment
import EventForge.Java.Literal
import EventForge.Text.Split

/-!
# Nodes of Java source

The pieces of a Java source file as data, each with the fragments it is written as. A class lists
its members in groups, which are separated by blank lines; empty groups vanish.
-/

namespace EventForge.Java

open Code (Fragment)

/-- Lines of a documentation comment: a description and then properties, with an empty line between
them when there are both. -/
def docLines (description : Option String) (properties : List (String × String)) : List String :=
  let before := description.toList
  let gap := if properties = [] ∨ before = [] then [] else [""]
  before ++ gap ++ properties.map fun (k, v) => "Property: " ++ k ++ " - " ++ v

/-- A documentation comment; no lines make no comment. -/
def docFragments (lines : List String) : List Fragment :=
  if lines = [] then [] else [.doc lines]

/-- The import of one type. -/
structure Import where
  package : String
  name : String
  deriving DecidableEq, Repr

def Import.fragments (i : Import) : List Fragment :=
  [.line ("import " ++ i.package ++ "." ++ i.name ++ ";")]

structure FieldNode where
  name : String
  type : String
  isFinal : Bool
  comment : Option String
  deriving DecidableEq, Repr

/-- The declaration of a field, with its comment behind it. -/
def FieldNode.declaration (f : FieldNode) : String :=
  let modifiers := if f.isFinal then "private final" else "private"
  let line := modifiers ++ " " ++ f.type ++ " " ++ f.name ++ ";"
  match f.comment with
  | some comment => line ++ " // " ++ comment
  | none => line

def FieldNode.fragments (f : FieldNode) : List Fragment := [.line f.declaration]

/-- A constant string. -/
structure Constant where
  name : String
  value : String
  deriving DecidableEq, Repr

def Constant.fragments (c : Constant) : List Fragment :=
  [.line ("public static final String " ++ c.name ++ " = \"" ++ Literal.body c.value ++ "\";")]

structure Param where
  type : String
  name : String
  deriving DecidableEq, Repr

/-- A method, or a constructor when it returns nothing, not even `void`. -/
structure Method where
  name : String
  returns : Option String
  params : List Param
  annotations : List String
  body : List String
  deriving DecidableEq, Repr

namespace Method

def signature (m : Method) : String :=
  let params := Text.joinWith ", " (m.params.map fun p => p.type ++ " " ++ p.name)
  match m.returns with
  | some type => "public " ++ type ++ " " ++ m.name ++ "(" ++ params ++ ") \x7b"
  | none => "public " ++ m.name ++ "(" ++ params ++ ") \x7b"

def fragments (m : Method) : List Fragment :=
  m.annotations.map Fragment.line
    ++ [.block m.signature (m.body.map Fragment.line) (some "\x7d")]

end Method

structure EnumNode where
  name : String
  doc : List String
  variants : List String
  deriving DecidableEq, Repr

/-- An enum lists its variants on one line. -/
def EnumNode.fragments (e : EnumNode) : List Fragment :=
  let body := if e.variants = [] then [] else [Fragment.line (Text.joinWith ", " e.variants)]
  docFragments e.doc ++ [.block ("public enum " ++ e.name ++ " \x7b") body (some "\x7d")]

structure ClassNode where
  name : String
  isFinal : Bool
  doc : List String
  members : List (List Fragment)
  deriving Repr

def ClassNode.fragments (c : ClassNode) : List Fragment :=
  let modifiers := if c.isFinal then "public final class" else "public class"
  docFragments c.doc
    ++ [.block (modifiers ++ " " ++ c.name ++ " \x7b") (Fragment.spaced c.members) (some "\x7d")]

end EventForge.Java
