import EventForge.Code.Buffer
import EventForge.Java.Declaration
import EventForge.Java.Imports
import EventForge.Path

/-!
# Java source files

A source file holds one class or enum in a package. Its imports stand in one group per package, each
followed by a blank line.
-/

namespace EventForge.Java

open Code (Buffer Fragment Indent)

/-- The imports of one package; a package without names leaves no trace. -/
def writeImports (b : Buffer) (group : String × List String) : Buffer :=
  if group.2 = [] then b
  else (group.2.foldl (fun b n => b.fragments (Import.fragments ⟨group.1, n⟩)) b).blank

/-- The text of a file: package, imports, body. -/
def fileText (package : String) (imports : Imports) (body : List Fragment) (indent : Indent) :
    String :=
  let start := ((Buffer.ofIndent indent).line ("package " ++ package ++ ";")).blank
  ((imports.entries.foldl writeImports start).fragments body).text

inductive Declaration where
  | class (decl : ClassDecl)
  | enum (decl : EnumDecl)
  deriving DecidableEq, Repr

namespace Declaration

def name : Declaration → String
  | .class c => c.name
  | .enum e => e.name

def fragments : Declaration → List Fragment
  | .class c => c.fragments
  | .enum e => e.fragments

/-- The declarations have the same members; documentation does not count. -/
def sameShape : Declaration → Declaration → Bool
  | .class a, .class b =>
    a.name = b.name ∧ a.fields = b.fields ∧ a.constants = b.constants
      ∧ a.mutability = b.mutability
      ∧ a.enums.map (fun e => (e.name, e.variants)) = b.enums.map fun e => (e.name, e.variants)
  | .enum a, .enum b => a.name = b.name ∧ a.variants = b.variants
  | _, _ => false

end Declaration

structure SourceFile where
  /-- The directory of the package, relative to the target directory. -/
  dir : Path
  package : String
  imports : Imports
  declaration : Declaration
  indent : Indent
  deriving DecidableEq, Repr

namespace SourceFile

/-- The place of the file when its target directory is `base`. -/
def pathBelow (f : SourceFile) (base : Path) : Path :=
  (base.join f.dir).join ⟨f.declaration.name ++ ".java"⟩

/-- The place of the file relative to its target directory. -/
def path (f : SourceFile) : Path := f.pathBelow ⟨""⟩

def text (f : SourceFile) : String :=
  fileText f.package f.imports f.declaration.fragments f.indent

end SourceFile

end EventForge.Java
