import EventForge.Java.Naming
import EventForge.Java.Node
import EventForge.Java.TypeRef

/-!
# Class and enum declarations

A declaration says what a generated class or enum has, not how it is written. A mutable class has a
constructor without arguments and setters; an immutable one is final, as are its fields. A class
with fields also has a constructor for all of them, getters and a textual form.
-/

namespace EventForge.Java

open Code (Fragment)

inductive Mutability where
  | mutable
  | immutable
  deriving DecidableEq, Repr

structure FieldDecl where
  name : String
  type : TypeRef
  comment : Option String
  deriving DecidableEq, Repr

structure EnumDecl where
  name : String
  doc : List String
  variants : List String
  deriving DecidableEq, Repr

structure ClassDecl where
  name : String
  mutability : Mutability
  doc : List String
  fields : List FieldDecl
  constants : List Constant
  enums : List EnumDecl
  deriving DecidableEq, Repr

def EnumDecl.fragments (e : EnumDecl) : List Fragment :=
  EnumNode.fragments ⟨e.name, e.doc, e.variants⟩

namespace ClassDecl

def isMutable (c : ClassDecl) : Bool := c.mutability = .mutable

/-- The fields as parameters. -/
def params (c : ClassDecl) : List Param := c.fields.map fun f => ⟨f.type.text, f.name⟩

def fieldNode (c : ClassDecl) (f : FieldDecl) : FieldNode :=
  ⟨f.name, f.type.text, !c.isMutable, f.comment⟩

def assignment (p : Param) : String := "this." ++ p.name ++ " = " ++ p.name ++ ";"

/-- The constructor without arguments. -/
def emptyConstructor (c : ClassDecl) : Method := ⟨c.name, none, [], [], []⟩

/-- The constructor for all fields. -/
def fullConstructor (c : ClassDecl) : Method :=
  ⟨c.name, none, c.params, [], c.params.map assignment⟩

def getter (p : Param) : Method :=
  ⟨accessor "get" p.name, some p.type, [], [], ["return " ++ p.name ++ ";"]⟩

def setter (p : Param) : Method :=
  ⟨accessor "set" p.name, some "void", [p], [], [assignment p]⟩

def accessors (c : ClassDecl) (p : Param) : List Method :=
  if c.isMutable then [getter p, setter p] else [getter p]

/-- The textual form: the name of the class and every field with its value. -/
def textMethod (c : ClassDecl) : Method :=
  let listed := Text.joinWith ", " (c.params.map fun p => p.name ++ "=\" + " ++ p.name ++ " + \"")
  ⟨"toString", some "String", [], ["@Override"],
    ["return \"" ++ c.name ++ " [" ++ listed ++ "]\";"]⟩

def methods (c : ClassDecl) : List Method :=
  let start := if c.isMutable then [c.emptyConstructor] else []
  if c.fields = [] then start
  else start ++ [c.fullConstructor] ++ c.params.flatMap c.accessors ++ [c.textMethod]

/-- The class with its members in order: constants, fields, enums, methods. -/
def node (c : ClassDecl) : ClassNode where
  name := c.name
  isFinal := !c.isMutable
  doc := c.doc
  members :=
    [c.constants.flatMap Constant.fragments, c.fields.flatMap fun f => (c.fieldNode f).fragments]
      ++ c.enums.map EnumDecl.fragments
      ++ c.methods.map Method.fragments

def fragments (c : ClassDecl) : List Fragment := c.node.fragments

end ClassDecl

end EventForge.Java
