import EventForge.Diagnostic

/-!
# Messages by severity

Diagnostics as they are reported: the texts of errors, warnings and remarks, each in their order.
-/

namespace EventForge.Report

structure Messages where
  errors : List String
  warnings : List String
  infos : List String
  deriving DecidableEq, Repr

def Messages.ofDiagnostics (ds : List Diagnostic) : Messages :=
  let texts (severity : Severity) :=
    (ds.filter fun d => d.severity = severity).map Diagnostic.paragraph
  ⟨texts .error, texts .warning, texts .info⟩

end EventForge.Report
