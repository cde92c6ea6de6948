import EventForge.Diagnostic
import EventForge.Java.Declaration
import EventForge.Java.Resolve

/-!
# Drafting classes

A class takes its fields from the entries of a map, or has the whole tree as its only field. Fields
of an unsupported shape are left out with a warning; a reference to an unknown schema costs the
whole class. Enums inside a field are declared in the class, once per name.
-/

namespace EventForge.Java

/-- What a class is made from. -/
structure ClassSource where
  name : String
  description : Option String
  root : Option TypeTree

namespace ClassSource

/-- The fields of the class, by the names that the model gives them. -/
def entries (s : ClassSource) : List (String × TypeTree) :=
  match s.root with
  | some (.object _ entries) => entries
  | some t => [(t.name, t)]
  | none => []

/-- The documentation of the class: its description and the properties of a map. -/
def doc (s : ClassSource) : List String :=
  match s.root with
  | some (.object l entries) => docLines s.description (TypeTree.object l entries).properties
  | _ => docLines s.description []

end ClassSource

/-- The comment behind a field: the properties of its type. -/
def propertyComment (t : TypeTree) : Option String :=
  t.properties?.map fun ps => Text.joinWith " | " (ps.map fun (k, v) => k ++ " - " ++ v)

/-- A field that is kept, with what it needs around it. -/
structure KeptField where
  decl : FieldDecl
  entities : List String
  patterns : List (String × String)
  deriving DecidableEq, Repr

/-- The pattern constants of a field. -/
def KeptField.constants (f : KeptField) : List Constant :=
  let qualified := 1 < f.patterns.length
  f.patterns.map fun (node, expression) =>
    ⟨patternConstant f.decl.name (if qualified then some node else none), expression⟩

/-- An enum declared in a class, with the field that it was first met in. -/
structure NestedEnum where
  field : String
  symbols : List String
  deriving DecidableEq, Repr

/-- The part of a class that has been worked out. -/
structure ClassDraft where
  name : String
  fields : List KeptField
  enums : Dict String NestedEnum
  diagnostics : List Diagnostic
  deriving Repr

namespace ClassDraft

def warning (d : ClassDraft) (field message : String) : Diagnostic :=
  ⟨.warning, "emit", message, some (d.name ++ "." ++ field)⟩

/-- Declares an enum met in a field; the first enum of a name is kept. -/
def addEnum (field : String) (d : ClassDraft) (e : String × List String) : ClassDraft :=
  match d.enums.get? e.1 with
  | none => { d with enums := d.enums.insert e.1 ⟨field, e.2⟩ }
  | some first =>
    if first.symbols = e.2 then d
    else
      { d with
        diagnostics := d.diagnostics ++
          [d.warning field
            ("nested enum '" ++ e.1 ++ "' of field '" ++ field
              ++ "' differs from the one of field '" ++ first.field ++ "', keeping the first")] }

/-- Leaves a field out. -/
def leaveOut (d : ClassDraft) (field : String) (fault : ResolveFault) : ClassDraft :=
  { d with
    diagnostics := d.diagnostics ++
      [d.warning field ("field '" ++ field ++ "' omitted: " ++ fault.message)] }

/-- Keeps a field of a known type. -/
def keep (d : ClassDraft) (field : String) (t : TypeTree) (type : TypeRef)
    (entities : List String) : ClassDraft :=
  let d := (Resolve.enums t).entries.foldl (addEnum field) d
  { d with
    fields := d.fields ++
      [⟨⟨field, type, propertyComment t⟩, entities, (Resolve.patterns t).entries⟩] }

/-- Works out one field; an unknown schema ends the class. -/
def addField (m : Model) (d : ClassDraft) (entry : String × TypeTree) :
    ClassDraft × Option ResolveFault :=
  let field := fieldName entry.1
  match Resolve.typeRef m entry.2 with
  | .error fault => if fault.isFieldLocal then (d.leaveOut field fault, none) else (d, some fault)
  | .ok type =>
    match Resolve.entities m entry.2 with
    | .error fault => (d, some fault)
    | .ok entities => (d.keep field entry.2 type entities, none)

/-- Works out fields in order until one ends the class. -/
def addFields (m : Model) (d : ClassDraft) :
    List (String × TypeTree) → ClassDraft × Option ResolveFault
  | [] => (d, none)
  | entry :: rest =>
    match d.addField m entry with
    | (d, none) => d.addFields m rest
    | (d, some fault) => (d, some fault)

/-- The declaration of the class. -/
def declaration (d : ClassDraft) (source : ClassSource) (mutability : Mutability) : ClassDecl where
  name := d.name
  mutability := mutability
  doc := source.doc
  fields := d.fields.map KeptField.decl
  constants := d.fields.flatMap KeptField.constants
  enums := d.enums.entries.map fun (name, e) => ⟨name, [], e.symbols⟩

/-- The library types that the fields use. -/
def libraryTypes (d : ClassDraft) : List String :=
  d.fields.flatMap fun f => f.decl.type.libraryTypes

/-- The generated classes and enums that the fields use. -/
def entities (d : ClassDraft) : List String := d.fields.flatMap KeptField.entities

end ClassDraft

end EventForge.Java
