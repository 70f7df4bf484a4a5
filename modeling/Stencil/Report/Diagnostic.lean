import Stencil.Report.Reporter

/-!
# Findings about a model
-/

namespace Stencil.Report

/-- How grave a finding is. -/
inductive Severity where
  | error
  | warning
  deriving DecidableEq, Repr

/-- The word for a severity. -/
def Severity.text : Severity → String
  | .error => "error"
  | .warning => "warning"

/-- A finding of a lint about a model, with the name of the node it is about. -/
structure Diagnostic where
  severity : Severity
  lint : String
  message : String
  location : Option String
  deriving DecidableEq, Repr

namespace Diagnostic

/-- The text of a finding. -/
def text (d : Diagnostic) : String :=
  d.severity.text ++ ": " ++ d.message
    ++ (match d.location with | some l => " (at " ++ l ++ ")" | none => "")

/-- Whether the finding is an error. -/
def isError (d : Diagnostic) : Bool := d.severity = .error

/-- The message after the name of the node it is about. -/
def placed (d : Diagnostic) : String :=
  match d.location with
  | some l => l ++ ": " ++ d.message
  | none => d.message

end Diagnostic

end Stencil.Report
