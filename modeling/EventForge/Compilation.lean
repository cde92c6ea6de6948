import EventForge.Lint
import EventForge.Text.Numeral

/-!
# Compilations

A compilation carries a model through validation and partitioning and gathers diagnostics, starting
with those of the reader. Nothing is ever removed from it.
-/

namespace EventForge

structure Compilation where
  model : Model
  contexts : Option (List Context)
  diagnostics : List Diagnostic
  deriving Repr

namespace Compilation

def ofModel (m : Model) (diagnostics : List Diagnostic) : Compilation := ⟨m, none, diagnostics⟩

def errors (c : Compilation) : List Diagnostic := c.diagnostics.filter Diagnostic.isError

def warnings (c : Compilation) : List Diagnostic := c.diagnostics.filter Diagnostic.isWarning

def hasErrors (c : Compilation) : Bool := c.diagnostics.any Diagnostic.isError

def hasWarnings (c : Compilation) : Bool := c.diagnostics.any Diagnostic.isWarning

def add (c : Compilation) (d : Diagnostic) : Compilation :=
  { c with diagnostics := c.diagnostics ++ [d] }

/-- The contexts, none before partitioning. -/
def contextList (c : Compilation) : List Context := c.contexts.getD []

/-- Validation found errors. -/
structure Failure where
  errorCount : Nat
  deriving DecidableEq, Repr

def Failure.message (f : Failure) : String :=
  "Validation failed with " ++ Text.decimal f.errorCount ++ " error(s)"

/-- Runs every lint; fails when any error is known afterwards. -/
def validate (c : Compilation) : Compilation × Option Failure :=
  let c := { c with diagnostics := c.diagnostics ++ Lint.all.flatMap fun l => l.check c.model }
  (c, if c.hasErrors then some ⟨c.errors.length⟩ else none)

def emptyStream (c : Context) : Diagnostic :=
  ⟨.info, "partition", "stream '" ++ c.name ++ "' has no placements, nothing to generate",
    some ("streams." ++ c.name)⟩

/-- Splits the model into contexts and remarks on empty streams. -/
def partition (c : Compilation) : Compilation :=
  let contexts := Context.partition c.model
  let empty := contexts.filter fun x => x.isEmpty && !x.isDefault
  { c with contexts := some contexts, diagnostics := c.diagnostics ++ empty.map emptyStream }

/-- The names of the stages, in order. -/
def phases : List String := ["validate", "partition"]

/-- Validates and, when that succeeds, partitions. -/
def run (m : Model) (diagnostics : List Diagnostic) : Except Failure Compilation :=
  match (ofModel m diagnostics).validate with
  | (_, some failure) => .error failure
  | (c, none) => .ok c.partition

end Compilation

end EventForge
