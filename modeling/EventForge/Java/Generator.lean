import EventForge.Compilation
import EventForge.Java.ContextFiles
import EventForge.Namespace

/-!
# Generating projects

Each context that is not empty becomes one project. Its files are shown or written below a target
directory; a project that cannot be prepared and a file that cannot be written are recorded, and the
rest goes on.
-/

namespace EventForge.Java

open Code (Indent)

/-- How projects are generated. -/
structure ProjectOptions where
  ns : NamespaceChoice
  mode : ProjectMode
  indent : Indent

/-- What is to be generated: a model, its contexts and the options. -/
structure Generator where
  model : Model
  contexts : List Context
  options : ProjectOptions

namespace Generator

def ofModel (m : Model) (options : ProjectOptions) : Generator := ⟨m, Context.partition m, options⟩

def ofCompilation (c : Compilation) (options : ProjectOptions) : Generator :=
  ⟨c.model, c.contextList, options⟩

def language : String := "java"

def fileExtension : String := "java"

/-- The base namespace of all packages. -/
def ns (g : Generator) : String := g.options.ns.resolve g.model

/-- The contexts that are generated, with their layouts. -/
def projects (g : Generator) : List (Context × Layout) :=
  (g.contexts.filter fun c => !c.isEmpty).map fun c =>
    (c, Layout.ofContext c g.ns g.options.mode)

/-- What a context produces under its layout. -/
def filesOf (g : Generator) (project : Context × Layout) : ContextFiles :=
  .ofContext ⟨g.model, project.2, g.options.indent⟩ project.1

/-- The files that would be written: path and text. -/
def preview (g : Generator) : List (Path × String) :=
  g.projects.flatMap fun p => (g.filesOf p).files.map fun f => (f.path, f.text)

/-- Every place below the target that a run may look at or write to. -/
def places (g : Generator) (target : Path) : List Path :=
  g.projects.flatMap fun p =>
    target.join p.2.sourceRoot
      :: PackageKind.all.map (fun kind => target.join (p.2.packageDir kind))
      ++ (g.filesOf p).files.map fun f => f.pathBelow target

/-- The outcome of a run. -/
structure Result where
  written : List Path
  failed : List FailedFile
  skipped : List String
  diagnostics : List Diagnostic
  deriving DecidableEq, Repr

namespace Result

/-- No file failed and no context was given up. -/
def isSuccess (r : Result) : Bool := r.failed.isEmpty && !r.diagnostics.any Diagnostic.isError

def warningCount (r : Result) : Nat := (r.diagnostics.filter Diagnostic.isWarning).length

end Result

/-- Writes one file below the target and records the outcome. -/
def writeFile (target : Path) (state : FileTree × Result) (file : SourceFile) :
    FileTree × Result :=
  match state.1.save (file.pathBelow target) file.text with
  | (t, none) => (t, { state.2 with written := state.2.written ++ [file.path] })
  | (t, some fault) =>
    (t, { state.2 with failed := state.2.failed ++ [⟨file.path.text, fault.message⟩] })

/-- Generates one project: prepares its directories, then emits and writes its files. -/
def writeProject (g : Generator) (target : Path) (state : FileTree × Result)
    (project : Context × Layout) : FileTree × Result :=
  let (t, r) := state
  match project.2.prepare t target with
  | (t, some fault) =>
    let d : Diagnostic :=
      ⟨.error, "generate", fault.message, some ("streams." ++ project.1.name)⟩
    (t, { r with diagnostics := r.diagnostics ++ [d] })
  | (t, none) =>
    let fs := g.filesOf project
    let r := { r with
      diagnostics := r.diagnostics ++ fs.diagnostics
      failed := r.failed ++ fs.failed }
    fs.files.foldl (writeFile target) (t, r)

/-- Generates every project below the target. -/
def generate (g : Generator) (t : FileTree) (target : Path) : FileTree × Result :=
  let skipped := (g.contexts.filter Context.isEmpty).map Context.name
  g.projects.foldl (g.writeProject target) (t, ⟨[], [], skipped, []⟩)

end Generator

end EventForge.Java
