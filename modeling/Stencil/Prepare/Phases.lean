import Stencil.Document.Load
import Stencil.Prepare.Annotate
import Stencil.Prepare.Settings
import Stencil.Prepare.Validate

/-!
# Phases that prepare a model

A prepared model has its annotations merged, its settings drawn from the tags,
and has been checked.  A phase that fails keeps what it did so far.
-/

namespace Stencil.Prepare

open Model (System)
open Report

/-- A model under preparation, with what was found and reported about it. -/
structure Draft where
  system : System
  source : String
  reporter : Reporter
  diagnostics : List Diagnostic := []

/-- The number of errors found. -/
def Draft.errorCount (d : Draft) : Nat := d.diagnostics.countP (·.isError)

/-- A phase of the preparation. -/
inductive Phase where
  | annotate (files : List String)
  | tag (run : RunSettings)
  | validate (lints : List Lint)

/-- The name of a phase. -/
def Phase.name : Phase → String
  | .annotate _ => "annotate"
  | .tag _ => "tag"
  | .validate _ => "validate"

/-- The failure of a phase, if any, and what became of the model. -/
abbrev Outcome := Option Failure × Draft

/-- The absolute path of a file. -/
def absolutePath (t : Files.Tree) (path : String) : String :=
  Files.Path.join ("/" ++ String.intercalate "/" t.working) path

/-- Merges annotation files in turn. -/
def annotateFiles (t : Files.Tree) : List String → Draft → Outcome
  | [], d => (none, d)
  | file :: rest, d =>
      let path := absolutePath t file
      if !t.exists_ path then (some (.missingAnnotations path), d)
      else
        match Document.loadAnnotations t path with
        | .error e => (some (.document e), d)
        | .ok annotations =>
            let a := annotate annotations path d.system d.reporter
            annotateFiles t rest { d with system := a.system, reporter := a.reporter }

/-- Reports a finding: an error is logged, a warning is counted too. -/
def report (source : String) (r : Reporter) (d : Diagnostic) : Reporter :=
  if d.isError then r.logError source d.placed else r.warnIn (some source) d.placed

/-- Checks the types, then runs the lints. -/
def checkModel (lints : List Lint) (d : Draft) : Outcome :=
  match checkSupportedTypes d.source d.system with
  | .error f => (some f, d)
  | .ok () =>
      let found := lints.flatMap (·.check d.system)
      let d :=
        { d with
          diagnostics := d.diagnostics ++ found
          reporter := found.foldl (report d.source) d.reporter }
      if d.errorCount = 0 then (none, d) else (some (.invalidModel d.errorCount), d)

/-- Runs one phase. -/
def Phase.run (t : Files.Tree) (d : Draft) : Phase → Outcome
  | .annotate files => annotateFiles t files d
  | .tag settings => (none, { d with system := configure settings d.system })
  | .validate lints => checkModel lints d

/-- Runs phases in order until one fails. -/
def runPhases (t : Files.Tree) : List Phase → Draft → Option Abort × Draft
  | [], d => (none, d)
  | p :: rest, d =>
      match p.run t d with
      | (none, d) => runPhases t rest d
      | (some f, d) => (some ⟨f, [p.name ++ " phase failed"]⟩, d)

end Stencil.Prepare
