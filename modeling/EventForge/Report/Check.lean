import EventForge.Compilation
import EventForge.Path
import EventForge.Report.Item
import EventForge.Report.Messages

/-!
# Checking a model

A check runs validation and partitioning and lists the contexts with the number of notes in each.
-/

namespace EventForge.Report

/-- A context as a check lists it. -/
structure ContextSummary where
  name : String
  project : String
  events : Nat
  commands : Nat
  readModels : Nat
  deriving DecidableEq, Repr

namespace ContextSummary

def ofContext (m : Model) (c : Context) : ContextSummary :=
  ⟨c.name, c.projectName, c.count m .event, c.count m .command, c.count m .readModel⟩

def isEmpty (s : ContextSummary) : Bool := s.events + s.commands + s.readModels = 0

def text (s : ContextSummary) : String :=
  if s.isEmpty then s.name ++ " (empty, skipped)"
  else
    s.name ++ " -> " ++ s.project ++ ": " ++ EventForge.Text.decimal s.events ++ " events, "
      ++ EventForge.Text.decimal s.commands ++ " commands, "
      ++ EventForge.Text.decimal s.readModels ++ " read models"

end ContextSummary

structure CheckReport where
  source : Path
  messages : Messages
  contexts : List ContextSummary
  deriving DecidableEq, Repr

namespace CheckReport

def isValid (r : CheckReport) : Bool := r.messages.errors.isEmpty

def items (r : CheckReport) : List Item :=
  let found :=
    r.messages.errors.map Item.error ++ r.messages.warnings.map Item.warning
      ++ r.messages.infos.map fun i => Item.preformatted ("info: " ++ i)
  let gap := if r.messages.warnings.isEmpty && r.messages.errors.isEmpty then [] else [Item.newline]
  let verdict :=
    if r.isValid then
      [Item.preformatted ("✓ " ++ r.source.text ++ " is valid"), Item.newline,
       Item.section ("Bounded contexts (" ++ Text.decimal r.contexts.length ++ ")")]
        ++ r.contexts.zipIdx.map fun (c, i) => Item.numberedItem (i + 1) c.text
    else []
  found ++ gap ++ verdict

end CheckReport

/-- Checks a model that was read with the given diagnostics. -/
def check (m : Model) (diagnostics : List Diagnostic) (source : Path) :
    Except Compilation.Failure CheckReport :=
  (Compilation.run m diagnostics).map fun c =>
    ⟨source, .ofDiagnostics c.diagnostics, c.contextList.map (ContextSummary.ofContext c.model)⟩

/-- The message when a check cannot be finished. -/
def checkFailure (f : Compilation.Failure) : String := "Validation failed: " ++ f.message

end EventForge.Report
