import EventForge.Java.Demand
import EventForge.Java.Project

/-!
# The files of a context

A context gets a class for every note and the schema classes and enums that its notes use. The first
declaration at a path is kept; every failure to resolve one is recorded and the rest goes on.
-/

namespace EventForge.Java

/-- A file that could not be made, and why. -/
structure FailedFile where
  target : String
  error : String
  deriving DecidableEq, Repr

/-- The files of a context by path, with what failed and what was noticed. -/
structure ContextFiles where
  files : List SourceFile
  failed : List FailedFile
  diagnostics : List Diagnostic
  deriving DecidableEq, Repr

namespace ContextFiles

def empty : ContextFiles := ⟨[], [], []⟩

def duplicate (path : Path) : Diagnostic :=
  ⟨.warning, "generate",
    "'" ++ path.text ++ "' is declared twice with different members, keeping the first", none⟩

/-- Adds a file unless its path is taken; a taken path is noticed when the members differ. -/
def add (fs : ContextFiles) (file : SourceFile) : ContextFiles :=
  match fs.files.find? fun kept => kept.path.same file.path with
  | none => { fs with files := fs.files ++ [file] }
  | some kept =>
    if kept.declaration.sameShape file.declaration then fs
    else { fs with diagnostics := fs.diagnostics ++ [duplicate file.path] }

/-- Adds the class made for a name, or records why there is none. -/
def addClass (fs : ContextFiles) (name : String)
    (result : List Diagnostic × Except ResolveFault SourceFile) : ContextFiles :=
  let fs := { fs with diagnostics := fs.diagnostics ++ result.1 }
  match result.2 with
  | .ok file => fs.add file
  | .error fault => { fs with failed := fs.failed ++ [⟨name, fault.message⟩] }

/-- Adds what a note asked for. -/
def serve (p : Project) (fs : ContextFiles) : Demand → ContextFiles
  | .entity type description =>
    fs.addClass type.name (p.classFile .schemas ⟨type.name, description, some type⟩ .mutable)
  | .enum type description => fs.add (p.enumFile type description)

/-- The package and mutability of the class made for a note. -/
def flavour : NoteKind → PackageKind × Mutability
  | .event => (.events, .immutable)
  | .command => (.commands, .immutable)
  | _ => (.readModels, .mutable)

/-- Adds a note: first what its schema asks for, then its own class. -/
def addNote (p : Project) (fs : ContextFiles) (entry : NoteKind × Note) : ContextFiles :=
  let note := entry.2
  let schema := note.schemaId.bind p.model.schema?
  let fs := match schema with
    | some s => (demands p.model note s).foldl (serve p) fs
    | none => fs
  let (kind, mutability) := flavour entry.1
  fs.addClass note.name
    (p.classFile kind ⟨note.name, note.description, schema.map Schema.type⟩ mutability)

/-- The kinds of notes in the order in which they are generated. -/
def noteKinds : List NoteKind := [.event, .command, .readModel]

/-- The notes of a kind with a placement in the context, in document order. -/
def notesOfKind (m : Model) (c : Context) (kind : NoteKind) : List Note :=
  (m.notes kind).filter fun note =>
    (m.placementsOf kind).any fun p => p.noteId = note.id && c.contains p.id

/-- The notes of a context: events, commands and read models. -/
def notesIn (m : Model) (c : Context) : List (NoteKind × Note) :=
  noteKinds.flatMap fun kind => (notesOfKind m c kind).map fun note => (kind, note)

/-- Everything that a context produces. -/
def ofContext (p : Project) (c : Context) : ContextFiles :=
  (notesIn p.model c).foldl (addNote p) empty

end ContextFiles

end EventForge.Java
