import EventForge.Context
import EventForge.FileTree

/-!
# Project layouts

A layout says where the project of a context lives and how its packages are called. A new project
has a directory of its own, which must not exist yet; otherwise packages go straight into the
target directory.
-/

namespace EventForge

inductive ProjectMode where
  | createNew
  | useExisting
  deriving DecidableEq, Repr

/-- The sub-packages of a project. -/
inductive PackageKind where
  | commands
  | events
  | readModels
  | schemas
  deriving DecidableEq, Repr

namespace PackageKind

def text : PackageKind → String
  | commands => "commands"
  | events => "events"
  | readModels => "readModels"
  | schemas => "schemas"

def all : List PackageKind := [commands, events, readModels, schemas]

end PackageKind

structure Layout where
  name : String
  ns : String
  /-- Relative to the target directory. -/
  sourceRoot : Path
  mode : ProjectMode
  deriving DecidableEq, Repr

namespace Layout

def ofContext (c : Context) (base : String) (mode : ProjectMode) : Layout :=
  let name := c.projectName
  { name
    ns := base ++ "." ++ Text.lowerFirst name
    sourceRoot := match mode with
      | .createNew => Path.join ⟨name⟩ ⟨"src"⟩
      | .useExisting => ⟨""⟩
    mode }

/-- The qualified name of a package. -/
def package (l : Layout) (kind : PackageKind) : String := l.ns ++ "." ++ kind.text

/-- The directory of a package, relative to the target directory. -/
def packageDir (l : Layout) (kind : PackageKind) : Path :=
  (l.sourceRoot.extend (Text.pieces '.' l.ns)).join ⟨kind.text⟩

inductive Fault where
  | occupied (root : Path)
  | directory (dir : Path) (cause : FileFault)
  deriving DecidableEq, Repr

def Fault.message : Fault → String
  | occupied root => "project directory " ++ root.text ++ " already exists"
  | directory dir cause => "failed to create directory " ++ dir.text ++ ": " ++ cause.message

/-- Creates directories in order until one fails. -/
def makeAll (t : FileTree) : List Path → FileTree × Option Fault
  | [] => (t, none)
  | dir :: rest =>
    match t.makeDirectories dir with
    | (t, none) => makeAll t rest
    | (t, some cause) => (t, some (.directory dir cause))

/-- Creates the package directories below the target. A new project must not exist yet. -/
def prepare (l : Layout) (t : FileTree) (target : Path) : FileTree × Option Fault :=
  let root := target.join l.sourceRoot
  if l.mode = .createNew ∧ t.contains root then (t, some (.occupied root))
  else makeAll t (PackageKind.all.map fun kind => target.join (l.packageDir kind))

end Layout

end EventForge
