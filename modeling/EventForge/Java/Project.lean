import EventForge.Java.ClassDraft
import EventForge.Java.SourceFile
import EventForge.Layout

/-!
# Projects

A project turns type trees into the source files of classes and enums, each in its package below the
source root.
-/

namespace EventForge.Java

open Code (Indent)

/-- The model that a project is made from, where its files go and how they are indented. -/
structure Project where
  model : Model
  layout : Layout
  indent : Indent

namespace Project

/-- The package that holds library types. -/
def libraryPackage : String := "java.util"

/-- The imports of a class. Classes of the schemas package see each other without imports. -/
def imports (p : Project) (kind : PackageKind) (d : ClassDraft) : Imports :=
  let library := Imports.addAll ∅ libraryPackage d.libraryTypes
  if kind = .schemas then library
  else library.addAll (p.layout.package .schemas) (sortedNames d.entities)

/-- The file of a class with the diagnostics raised for it, or why there is none. -/
def classFile (p : Project) (kind : PackageKind) (source : ClassSource) (mutability : Mutability) :
    List Diagnostic × Except ResolveFault SourceFile :=
  let start : ClassDraft := ⟨typeName source.name, [], ∅, []⟩
  match start.addFields p.model source.entries with
  | (d, some fault) => (d.diagnostics, .error fault)
  | (d, none) =>
    (d.diagnostics,
      .ok
        { dir := p.layout.packageDir kind
          package := p.layout.package kind
          imports := p.imports kind d
          declaration := .class (d.declaration source mutability)
          indent := p.indent })

/-- The variants of the enum made from a tree. -/
def variants : TypeTree → List String
  | .enumeration _ symbols => symbols.map Text.compact
  | _ => []

/-- The file of an enum that is the root of a schema. -/
def enumFile (p : Project) (root : TypeTree) (description : Option String) : SourceFile where
  dir := p.layout.packageDir .schemas
  package := p.layout.package .schemas
  imports := ∅
  declaration :=
    .enum ⟨typeName root.name, docLines description root.properties, variants root⟩
  indent := p.indent

end Project

end EventForge.Java
