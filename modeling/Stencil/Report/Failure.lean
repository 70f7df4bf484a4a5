import Stencil.Document.Source
import Stencil.Files.Tree
import Stencil.Report.Reporter
import Stencil.Text.Quoted

/-!
# Failures of a run

Everything that ends a run, with its text.  A stage that fails may say in which
context it did.
-/

namespace Stencil.Report

/-- Why a run ends without a result. -/
inductive Failure where
  | document (e : Document.Error)
  | unsupportedType (source kind type : String)
  | unresolvedImport (name module : String)
  | template (e : TemplateError)
  | invalidRules (path reason : String)
  /-- The rules are no readable YAML text. -/
  | malformedRules (path : String)
  | unknownFilterSet (name : String)
  | missingAnnotations (path : String)
  | unknownTemplate (template : String) (found : List String)
  | write (path : String) (fault : Files.Fault)
  | invalidModel (errors : Nat)
  | noSources
  | file (fault : Files.Fault)
  | unexpectedOutput (module interface : String)
  deriving DecidableEq

/-- The text of a failure. -/
def Failure.message : Failure → String
  | .document e => e.message
  | .unsupportedType source kind type =>
      source ++ ": " ++ kind ++ " of type '" ++ type ++ "' are not supported"
  | .unresolvedImport name module =>
      "Couldn't resolve import '" ++ name ++ "' of module '" ++ module ++ "'"
  | .template e => e.text
  | .invalidRules path reason => "invalid rules '" ++ path ++ "': " ++ reason
  | .malformedRules path => "invalid rules '" ++ path ++ "': not a YAML document"
  | .unknownFilterSet name => "unknown filter set '" ++ name ++ "'"
  | .missingAnnotations path => "no such annotation file: " ++ path
  | .unknownTemplate name found =>
      "Invalid template '" ++ name
        ++ "'. It needs to be one of the templates found in the template search path or an "
        ++ "existing template folder. Found templates: [" ++ String.intercalate ", " found ++ "]"
  | .write path _ => "failed to write '" ++ path ++ "'"
  | .invalidModel errors => "validation failed with " ++ toString errors ++ " error(s)"
  | .noSources => "no source documents given"
  | .file fault => fault.message
  | .unexpectedOutput module interface =>
      "unexpected selfcheck output: " ++ Text.quoted module ++ " / " ++ Text.quoted interface

/-- Whether a failure breaks the run off instead of ending it in order. -/
def Failure.isFatal : Failure → Bool
  | .template e => e.fatal
  | _ => false

/-- A failure with the contexts it happened in, outermost first. -/
structure Abort where
  failure : Failure
  context : List String := []
  deriving DecidableEq

/-- Puts a failure into a context. -/
def Abort.within (context : String) (a : Abort) : Abort :=
  { a with context := context :: a.context }

/-- Puts the failures of a step into a context. -/
def within {α : Type} (context : String) (r : Except Abort α) : Except Abort α :=
  r.mapError (Abort.within context)

end Stencil.Report
