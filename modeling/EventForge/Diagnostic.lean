/-!
# Diagnostics

What a stage reports without stopping: a severity, the stage, a message and, often, the place in
the model that it is about.
-/

namespace EventForge

inductive Severity where
  | error
  | warning
  | info
  deriving DecidableEq, Repr

namespace Severity

def text : Severity → String
  | error => "error"
  | warning => "warning"
  | info => "info"

/-- Position in the order of reports: errors first, remarks last. -/
def rank : Severity → Nat
  | error => 0
  | warning => 1
  | info => 2

end Severity

structure Diagnostic where
  severity : Severity
  phase : String
  message : String
  location : Option String
  deriving DecidableEq, Repr

namespace Diagnostic

def isError (d : Diagnostic) : Bool := d.severity = .error

def isWarning (d : Diagnostic) : Bool := d.severity = .warning

theorem not_isError_of_isWarning {d : Diagnostic} (h : d.isWarning) : ¬ d.isError := by
  simp only [isWarning, isError, decide_eq_true_eq] at h ⊢
  rw [h]
  decide

/-- One line: severity, phase, message and, when known, the place. -/
def text (d : Diagnostic) : String :=
  let line := d.severity.text ++ "[" ++ d.phase ++ "]: " ++ d.message
  match d.location with
  | some place => line ++ " (at " ++ place ++ ")"
  | none => line

/-- The message, with the place on a line of its own when it is known. -/
def paragraph (d : Diagnostic) : String :=
  match d.location with
  | some place => d.message ++ "\n  --> " ++ place
  | none => d.message

/-- Diagnostics by severity, in their own order where severities are equal. -/
def bySeverity (ds : List Diagnostic) : List Diagnostic :=
  ds.mergeSort fun a b => a.severity.rank ≤ b.severity.rank

end Diagnostic

end EventForge
