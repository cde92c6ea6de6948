import EventForge.Dict
import EventForge.Path

/-!
# File trees

A file tree holds the directories and files below the working directory. Creating directories and
writing files fail only when a step of the path is missing, is a file, is a directory where a file
is wanted, or has a name that is too long, and when the path as a whole is no path; what was created
before a failure stays.
-/

namespace EventForge

/-- A place in a file tree: the names that lead to it from the working directory. Places outside it
start with `/` or `..`. -/
abbrev Location := List String

namespace Location

/-- Leading places that exist in every tree: the working directory, the root, and what is above. -/
def isGround (l : Location) : Bool := l = ["/"] ∨ l.all (· = "..")

def up (l : Location) : Location :=
  if l = ["/"] then l
  else if l.all (· = "..") then l ++ [".."]
  else l.dropLast

/-- The names with slashes between them. -/
def text (l : Location) : String := Text.joinWith "/" l

end Location

inductive FileFault where
  | notFound
  | exists
  | notDirectory
  | isDirectory
  | nameTooLong
  | nullCharacter
  deriving DecidableEq, Repr

/-- The operating system's words for a failure. -/
def FileFault.message : FileFault → String
  | notFound => "No such file or directory (os error 2)"
  | «exists» => "File exists (os error 17)"
  | notDirectory => "Not a directory (os error 20)"
  | isDirectory => "Is a directory (os error 21)"
  | nameTooLong => "File name too long (os error 36)"
  | nullCharacter => "file name contained an unexpected NUL byte"

inductive FileEntry where
  | directory
  | file (text : String)
  deriving DecidableEq, Repr

/-- Directories and files by place. -/
structure FileTree where
  entries : Dict Location FileEntry
  deriving DecidableEq, Repr

namespace FileTree

instance : EmptyCollection FileTree := ⟨⟨∅⟩⟩

/-- What stands at a place, if anything. -/
def entry? (t : FileTree) (l : Location) : Option FileEntry :=
  if l.isGround then some .directory else t.entries.get? l

def set (t : FileTree) (l : Location) (e : FileEntry) : FileTree :=
  ⟨t.entries.insert l e⟩

/-- The greatest number of bytes in a name. -/
def nameLimit : Nat := 255

/-- The greatest number of bytes in a path. -/
def pathLimit : Nat := 4095

/-- What keeps a path from being looked at, whatever the tree holds. -/
def pathFault? (p : Path) : Option FileFault :=
  if p.text.toList.contains '\x00' then some .nullCharacter
  else if pathLimit < p.text.utf8ByteSize then some .nameTooLong
  else none

/-- The place one step away, whether or not something stands there. -/
def step (l : Location) : Component → Except FileFault Location
  | .root => .ok ["/"]
  | .here => .ok l
  | .up => .ok l.up
  | .name n => if n.utf8ByteSize ≤ nameLimit then .ok (l ++ [n]) else .error .nameTooLong

/-- The place that steps lead to; every place before the last has to be a directory. -/
def locateFrom (t : FileTree) (l : Location) : List Component → Except FileFault Location
  | [] => .ok l
  | c :: rest =>
    match t.entry? l with
    | none => .error .notFound
    | some (.file _) => .error .notDirectory
    | some .directory => (step l c).bind fun next => t.locateFrom next rest

def locate (t : FileTree) (p : Path) : Except FileFault Location :=
  match pathFault? p with
  | some fault => .error fault
  | none => t.locateFrom [] p.components

/-- What a path leads to, if anything. -/
def lookup? (t : FileTree) (p : Path) : Option FileEntry :=
  match t.locate p with
  | .error _ => none
  | .ok l => t.entry? l

def contains (t : FileTree) (p : Path) : Bool := p.text ≠ "" ∧ (t.lookup? p).isSome

/-- The text of the file that a path leads to. -/
def read? (t : FileTree) (p : Path) : Option String :=
  match t.lookup? p with
  | some (.file text) => if p.asksDirectory then none else some text
  | _ => none

/-- The place of an existing file or directory. -/
def canonical? (t : FileTree) (p : Path) : Option Location :=
  match t.locate p with
  | .error _ => none
  | .ok l => if p.text ≠ "" ∧ (t.entry? l).isSome then some l else none

/-- Creates the directories that are missing along the steps. -/
def makeAlong (t : FileTree) (l : Location) : List Component → FileTree × Option FileFault
  | [] => (t, none)
  | c :: rest =>
    match step l c with
    | .error fault => (t, some fault)
    | .ok next =>
      match t.entry? next with
      | some .directory => t.makeAlong next rest
      | some (.file _) => (t, some (if rest = [] then .exists else .notDirectory))
      | none => (t.set next .directory).makeAlong next rest

/-- Creates a directory and what is missing above it. -/
def makeDirectories (t : FileTree) (p : Path) : FileTree × Option FileFault :=
  match pathFault? p with
  | some fault => (t, some fault)
  | none => t.makeAlong [] p.components

/-- Writes a file into an existing directory, replacing what it held. -/
def write (t : FileTree) (p : Path) (text : String) : FileTree × Option FileFault :=
  match t.locate p with
  | .error fault => (t, some fault)
  | .ok l =>
    match t.entry? l with
    | some .directory => (t, some (if p.text = "" then .notFound else .isDirectory))
    | some (.file _) =>
      if p.asksDirectory then (t, some .notDirectory) else (t.set l (.file text), none)
    | none => if p.asksDirectory then (t, some .isDirectory) else (t.set l (.file text), none)

/-- A failure to save a file: its directory could not be created or it could not be written. -/
inductive SaveFault where
  | directory (dir : Path) (cause : FileFault)
  | file (path : Path) (cause : FileFault)
  deriving DecidableEq, Repr

/-- What failed, without the cause. -/
def SaveFault.summary : SaveFault → String
  | directory dir _ => "failed to create directory " ++ dir.text
  | file path _ => "failed to write " ++ path.text

/-- What failed and why. -/
def SaveFault.message : SaveFault → String
  | directory dir cause => "failed to create directory " ++ dir.text ++ ": " ++ cause.message
  | file path cause => "failed to write " ++ path.text ++ ": " ++ cause.message

/-- Writes a file after creating its directory. -/
def save (t : FileTree) (p : Path) (text : String) : FileTree × Option SaveFault :=
  match p.parent? with
  | none =>
    let (t, fault) := t.write p text
    (t, fault.map (.file p))
  | some dir =>
    match t.makeDirectories dir with
    | (t, some cause) => (t, some (.directory dir cause))
    | (t, none) =>
      let (t, fault) := t.write p text
      (t, fault.map (.file p))

/-- Everything below the working directory, sorted by the text of its place. -/
def listing (t : FileTree) : List (String × FileEntry) :=
  let inside := t.entries.entries.filter fun e => e.1.head? ≠ some "/" ∧ e.1.head? ≠ some ".."
  (inside.map fun e => (Location.text e.1, e.2)).mergeSort fun a b => a.1 ≤ b.1

end FileTree

end EventForge
