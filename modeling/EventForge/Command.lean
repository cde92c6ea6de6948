import EventForge.Command.Invocation
import EventForge.Document.Reader
import EventForge.Report.Check
import EventForge.Report.Generate
import EventForge.Report.Info

/-!
# Running commands

A run takes the arguments and the files and gives back the files, what is shown and the exit code:
0 on success, 2 when the arguments are wrong, 1 for every other failure. A report is shown even
when it tells of a failure.
-/

namespace EventForge.Command

open Code (Indent)
open Report (Item Screen)

/-- How a run ends. -/
structure Outcome where
  exit : Nat
  screen : Screen
  deriving DecidableEq, Repr

namespace Outcome

/-- The end of a run that shows a report. -/
def ofItems (isSuccess : Bool) (items : List Item) : Outcome :=
  ⟨if isSuccess then 0 else 1, .ofItems items⟩

/-- The end of a run without a report. -/
def failed (message : String) : Outcome := ⟨1, Screen.empty.notify ("Error: " ++ message)⟩

def wrongArguments (cause : Misuse) : Outcome :=
  ⟨2, Screen.empty.notify ("error: " ++ cause.message)⟩

def printed (lines : List String) : Outcome := ⟨0, lines.foldl Screen.print .empty⟩

end Outcome

def versionLine : String := "eventmill 0.1.0"

def usage : List String :=
  ["Usage: eventmill [OPTIONS] <COMMAND>", "", "Commands:",
   "  generate     Generate Java projects from an event model",
   "  check        Validate an event model without generating code",
   "  info         Show model statistics",
   "  completions  Generate shell completions"]

/-- The words that complete the name of the program. -/
def completionWords : List String := ["generate", "check", "info", "completions", "help"]

/-- The path of a place, spelled from the root; `cwd` is the working directory. -/
def absolutePath (cwd : Path) : Location → Path
  | "/" :: names => Path.extend ⟨"/"⟩ names
  | ".." :: l => absolutePath (cwd.parent?.getD cwd) l
  | names => cwd.extend names

/-- Where a document was read from, as it is shown. -/
def sourceText (cwd : Path) (t : FileTree) (source : Path) : String :=
  match t.canonical? source with
  | some l => (absolutePath cwd l).text
  | none => source.text

/-- What is missing or unusable when a generation is about to start. -/
inductive Refusal where
  | settings (fault : Config.Fault)
  | document (fault : Document.Fault)
  | choice (fault : NamespaceChoice.Fault)
  | indent (fault : Indent.Fault)
  deriving DecidableEq, Repr

def Refusal.message : Refusal → String
  | settings fault => fault.message
  | document fault => fault.message
  | choice fault => fault.message
  | indent fault => fault.message

namespace GenerateArgs

/-- The way to choose the namespace. A namespace among the arguments beats a mode among the
settings. -/
def namespaceChoice (a : GenerateArgs) (c : Config) :
    Except NamespaceChoice.Fault NamespaceChoice :=
  let mode := match a.namespaceMode, a.ns with
    | some mode, _ => some mode
    | none, some _ => some .explicit
    | none, none => c.namespaceMode
  NamespaceChoice.select mode (a.ns <|> c.ns)

/-- The indentation: that of the arguments, else of the settings, else tabs. -/
def indentation (a : GenerateArgs) (c : Config) : Except Indent.Fault Indent :=
  match a.indent, c.indent with
  | some indent, _ => .ok indent
  | none, some text => Indent.ofText text
  | none, none => .ok .tab

/-- The directory to generate into: the working directory unless something else is said. -/
def directory (a : GenerateArgs) (c : Config) : Path := (a.target <|> c.target).getD ⟨"."⟩

/-- The options of the generation, once arguments and settings are put together. -/
def options (a : GenerateArgs) (c : Config) : Except Refusal Java.ProjectOptions := do
  let ns ← (a.namespaceChoice c).mapError .choice
  let indent ← (a.indentation c).mapError .indent
  return ⟨ns, (a.mode <|> c.mode).getD .createNew, indent⟩

/-- Everything that a generation starts from. -/
def prepare (a : GenerateArgs) (t : FileTree) :
    Except Refusal (Model × List Diagnostic × Java.ProjectOptions × Path) := do
  let c ← (Config.load t a.config).mapError .settings
  let (m, ds) ← (Document.ofFile t a.source).toExcept.mapError .document
  let options ← a.options c
  return (m, ds, options, a.directory c)

end GenerateArgs

def runGenerate (a : GenerateArgs) (t : FileTree) : FileTree × Outcome :=
  match a.prepare t with
  | .error refusal => (t, .failed refusal.message)
  | .ok (m, ds, options, target) =>
    match Report.generate m ds options target a.dryRun t with
    | (t, .error fault) => (t, .failed fault.message)
    | (t, .ok report) => (t, .ofItems report.isSuccess report.items)

def runCheck (source : Path) (t : FileTree) : Outcome :=
  match Document.ofFile t source with
  | .refused fault => .failed fault.message
  | .read m ds =>
    match Report.check m ds source with
    | .error failure => .failed (Report.checkFailure failure)
    | .ok report => .ofItems report.isValid report.items

def runInfo (cwd : Path) (source : Path) (t : FileTree) : Outcome :=
  match Document.ofFile t source with
  | .refused fault => .failed fault.message
  | .read m _ => .ofItems true (Report.InfoReport.ofModel m (sourceText cwd t source)).items

/-- The files that an invocation reads. -/
def Invocation.inputs : Invocation → List Path
  | generate a => [a.source, a.config.getD Config.defaultPath]
  | check source => [source]
  | info source => [source]
  | completions _ => []

/-- The places that an invocation may write to, once its inputs are known. -/
def Invocation.outputs (t : FileTree) : Invocation → List Path
  | generate a =>
    match a.dryRun, a.prepare t with
    | false, .ok (m, _, options, target) => (Java.Generator.ofModel m options).places target
    | _, _ => []
  | _ => []

/-- Runs an invocation in the working directory `cwd`. -/
def Invocation.run (cwd : Path) (t : FileTree) : Invocation → FileTree × Outcome
  | generate args => runGenerate args t
  | check source => (t, runCheck source t)
  | info source => (t, runInfo cwd source t)
  | completions _ => (t, .printed completionWords)

/-- Runs the program. -/
def run (args : List String) (cwd : Path) (t : FileTree) : FileTree × Outcome :=
  match Invocation.ofArgs args with
  | .ok invocation => invocation.run cwd t
  | .error (.misuse cause) => (t, .wrongArguments cause)
  | .error (.asked option) =>
    (t, .printed (if option = "version" then [versionLine] else usage))

end EventForge.Command
