import EventForge.Layout
import EventForge.Namespace
import EventForge.Toml.Reader

/-!
# Settings

A settings file gives defaults for generation in its table `generate`. Unknown keys are refused, so
that a misspelled setting is noticed.
-/

namespace EventForge

/-- Defaults for generation; what is not set is left to the command line. -/
structure Config where
  target : Option Path
  mode : Option ProjectMode
  namespaceMode : Option NamespaceChoice.Mode
  ns : Option String
  indent : Option String
  deriving DecidableEq, Repr

namespace Config

/-- The file that is read when no other is asked for. -/
def defaultPath : Path := ⟨"eventmill.toml"⟩

instance : EmptyCollection Config := ⟨⟨none, none, none, none, none⟩⟩

/-- The project modes by the words a user writes. -/
def projectModes : List (String × ProjectMode) :=
  [("new", .createNew), ("existing", .useExisting)]

/-- The ways to choose a namespace by the words a user writes. -/
def namespaceModes : List (String × NamespaceChoice.Mode) :=
  [("explicit", .explicit), ("majority", .majority), ("default", .fallback)]

def textOf? : Toml → Option String
  | .string s => some s
  | _ => none

/-- One of several words. A word may also be written as the only key of a table whose value is
empty. -/
def choiceOf? {α : Type} (choices : List (String × α)) : Toml → Option α
  | .string word => choices.lookup word
  | .table _ [(word, .table _ [])] => choices.lookup word
  | .table _ [(word, .array [])] => choices.lookup word
  | _ => none

/-- The settings by key, in their order. -/
def keys : List String := ["target", "project-mode", "namespace-mode", "namespace", "indent"]

/-- Sets the setting with a given key. -/
def set? (c : Config) (entry : String × Toml) : Option Config :=
  match entry.1 with
  | "target" => (textOf? entry.2).map fun s => { c with target := some ⟨s⟩ }
  | "project-mode" => (choiceOf? projectModes entry.2).map fun m => { c with mode := some m }
  | "namespace-mode" =>
    (choiceOf? namespaceModes entry.2).map fun m => { c with namespaceMode := some m }
  | "namespace" => (textOf? entry.2).map fun s => { c with ns := some s }
  | "indent" => (textOf? entry.2).map fun s => { c with indent := some s }
  | _ => none

/-- The settings in the value of `generate`: a table, or an array with a value for every setting in
order and perhaps more behind them. -/
def ofGenerate? : Toml → Option Config
  | .table _ entries => entries.foldlM set? ∅
  | .array items =>
    if items.length < keys.length then none else (keys.zip items).foldlM set? ∅
  | .string _ => none
  | .unquoted _ => none

/-- The settings in a text. -/
def ofText? (text : String) : Option Config :=
  match Toml.ofText? text with
  | some [] => some ∅
  | some [("generate", value)] => ofGenerate? value
  | _ => none

inductive Fault where
  | unreadable (path : Path)
  | invalid (path : Path)
  deriving DecidableEq, Repr

def Fault.message : Fault → String
  | unreadable path => "Failed to read " ++ path.text
  | invalid path => "Invalid config file " ++ path.text

/-- The settings in the file at a path. -/
def ofFile (t : FileTree) (path : Path) : Except Fault Config :=
  match t.read? path with
  | none => .error (.unreadable path)
  | some text =>
    match ofText? text with
    | some c => .ok c
    | none => .error (.invalid path)

/-- The settings that count: those of the given file, else of the default file when there is one. -/
def load (t : FileTree) (path : Option Path) : Except Fault Config :=
  match path with
  | some path => ofFile t path
  | none => if (t.read? defaultPath).isSome then ofFile t defaultPath else .ok ∅

end Config

end EventForge
