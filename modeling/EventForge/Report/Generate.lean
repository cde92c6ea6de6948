import EventForge.Java.Generator
import EventForge.Report.Item
import EventForge.Report.Messages

/-!
# Generating from a model

Generation validates the namespace and the model, and then writes the projects or, in a dry run,
only shows them. Failures of single files end up in the report; only an unusable namespace and
errors in the model stop it.
-/

namespace EventForge.Report

open Java (FailedFile Generator ProjectOptions)

/-- What came of a generation: files written below a target, or files that would be. -/
inductive Outcome where
  | written (target : Path) (files : List Path) (failed : List FailedFile) (skipped : List String)
  | preview (files : List (String × String))
  deriving DecidableEq, Repr

structure GenerateReport where
  modelName : String
  ns : String
  errors : List String
  warnings : List String
  outcome : Outcome
  deriving DecidableEq, Repr

def failedText (f : FailedFile) : String := f.target ++ ": " ++ f.error

def Outcome.failed : Outcome → List FailedFile
  | written _ _ failed _ => failed
  | preview _ => []

def Outcome.items (ns modelName : String) (anyMessage : Bool) : Outcome → List Item
  | written target files failed skipped =>
    (if anyMessage then [Item.newline] else [])
      ++ [.preformatted modelName, .keyValue "Namespace" ns, .newline]
      ++ (if files = [] then []
          else Item.section ("Written (" ++ Text.decimal files.length ++ ")")
            :: files.map fun f => .addedItem f.text)
      ++ (if failed = [] then []
          else [Item.newline, .section ("Failed (" ++ Text.decimal failed.length ++ ")")]
            ++ failed.map fun f => .removedItem (failedText f))
      ++ (if skipped = [] then []
          else [Item.newline, .section "Skipped contexts (no placements)"]
            ++ skipped.map Item.listItem)
      ++ [.newline, .keyValue "Generated" target.text]
  | preview files =>
    files.flatMap (fun (path, text) => [Item.divider path, .preformatted text])
      ++ [.divider "Summary", .keyValue "Namespace" ns,
          .preformatted (Text.decimal files.length ++ " files would be generated")]

namespace GenerateReport

/-- No file failed and nothing was reported as an error. -/
def isSuccess (r : GenerateReport) : Bool := r.errors.isEmpty && r.outcome.failed.isEmpty

/-- Everything that went wrong, one line each. -/
def diagnosticText (r : GenerateReport) : String :=
  Text.joinWith "\n" <|
    r.errors.map (fun e => "error: " ++ e)
      ++ r.outcome.failed.map fun f => "failed: " ++ failedText f

def items (r : GenerateReport) : List Item :=
  r.warnings.map Item.warning ++ r.errors.map Item.error
    ++ r.outcome.items r.ns r.modelName (!(r.warnings.isEmpty && r.errors.isEmpty))

end GenerateReport

/-- Why nothing was generated. -/
inductive GenerateFault where
  | ns (fault : NamespaceChoice.Fault)
  | compilation (failure : Compilation.Failure)
  deriving DecidableEq, Repr

def GenerateFault.message : GenerateFault → String
  | ns fault => fault.message
  | compilation failure => "Pipeline failed: " ++ failure.message

/-- What is wrong with a choice of namespace. -/
def choiceFault? : NamespaceChoice → Option NamespaceChoice.Fault
  | .explicit ns => NamespaceChoice.fault? ns
  | _ => none

/-- Writes or previews the projects of a compiled model. -/
def produce (c : Compilation) (options : ProjectOptions) (target : Path) (dryRun : Bool)
    (t : FileTree) : FileTree × GenerateReport :=
  let g := Generator.ofCompilation c options
  if dryRun then
    let messages := Messages.ofDiagnostics c.diagnostics
    let files := g.preview.map fun (path, text) => (path.text, text)
    (t, ⟨c.model.name, g.ns, messages.errors, messages.warnings, .preview files⟩)
  else
    let (t, result) := g.generate t target
    let messages := Messages.ofDiagnostics (c.diagnostics ++ result.diagnostics)
    (t, ⟨c.model.name, g.ns, messages.errors, messages.warnings,
      .written target result.written result.failed result.skipped⟩)

/-- Generates from a model that was read with the given diagnostics. -/
def generate (m : Model) (diagnostics : List Diagnostic) (options : ProjectOptions)
    (target : Path) (dryRun : Bool) (t : FileTree) :
    FileTree × Except GenerateFault GenerateReport :=
  match choiceFault? options.ns with
  | some fault => (t, .error (.ns fault))
  | none =>
    match Compilation.run m diagnostics with
    | .error failure => (t, .error (.compilation failure))
    | .ok c =>
      let (t, report) := produce c options target dryRun t
      (t, .ok report)

end EventForge.Report
