import Stencil.Command.Invocation
import Stencil.Generate.SelfCheck
import Stencil.Generate.Summary
import Stencil.Template.SpellingFilter

/-!
# Running the program

What the program prints for an invocation, how it exits, and which files there
are afterwards.
-/

namespace Stencil.Command

open Files Generate Report

/-- What a run of the program leaves behind. -/
structure Exit where
  code : Nat
  /-- The lines for the reader of the results. -/
  output : List String := []
  /-- The lines about the run itself. -/
  messages : List String := []
  files : Tree

/-- The exit code of a run that succeeds. -/
def successCode : Nat := 0

/-- The exit code of a run that fails. -/
def failureCode : Nat := 1

/-- The exit code of a run that breaks off. -/
def brokenCode : Nat := 101

/-- The exit code for arguments that are not understood. -/
def usageCode : Nat := 2

/-- The text that explains the arguments. -/
def helpText : List String :=
  ["Generate code from interface definitions with rule-driven templates",
    "",
    "Usage: stencil [-v] generate -t TEMPLATE [OPTIONS] SRC... DST",
    "       stencil [-v] selfcheck",
    "       stencil [-v] templates -T DIR...",
    "",
    "Options of generate:",
    "  -t, --template TEMPLATE          name of a template, or its directory",
    "  -T, --template-search-path DIR   directory searched for templates (repeatable)",
    "      --module MODULE              module that is being built",
    "      --force                      overwrite every file, preserved ones too",
    "  -A, --annotation FILE            annotations, later ones win (repeatable)",
    "  -I, --import PATH                documents to resolve imports (repeatable)"]

/-- The text that names the version. -/
def versionText : String := "stencil 0.3.0"

/-- The exit for arguments that were not read to their end. -/
def interrupted (files : Tree) : Interruption → Exit
  | .help => { code := successCode, output := helpText, files }
  | .version => { code := successCode, output := [versionText], files }
  | .usage e => { code := usageCode, messages := ["error: " ++ e.message], files }

/-- The line about a failure, with the contexts it happened in. -/
def failureLine (a : Abort) : String :=
  "error: " ++ String.intercalate ": " (a.context ++ [a.failure.message])

/-- The line about a notice. -/
def noticeLine (n : Notice) : String := (if n.isWarning then "WARN " else "ERROR ") ++ n.text

/-- The exit of a run that did not start, for a reason. -/
def refused (files : Tree) (reason : String) : Exit :=
  { code := failureCode, messages := ["error: " ++ reason], files }

/-- The exit of a run that failed, after what it reported. -/
def failed (files : Tree) (log : List Notice) (a : Abort) : Exit where
  code := if a.failure.isFatal then brokenCode else failureCode
  messages := log.map noticeLine ++ [failureLine a]
  files := files

/-- The exit of a run that succeeded, with its summary.  Warnings go to the messages. -/
def succeeded (files : Tree) (log : List Notice) (lines : List Line) : Exit where
  code := successCode
  output := (lines.filter (!·.isWarning)).map Line.text
  messages := log.map noticeLine ++ (lines.filter (·.isWarning)).map Line.text
  files := files

/-- Runs a step with the session that a builtin configuration describes. -/
def withSession (config : String) (files : Tree) (act : Session → Exit) : Exit :=
  match Builtin.load files config with
  | .error e => refused files ("failed to load the builtin configuration: " ++ e.message)
  | .ok builtin => act ⟨builtin, { defaults := [Template.spellingFilters ""] }⟩

/-- The directory in which the self check works, where nothing else is. -/
def scratch : Tree := .ofWorking ["scratch"]

/-- Runs an invocation, given the path of the builtin configuration. -/
def run (config : String) (files : Tree) : Invocation → Exit
  | .generate r =>
      withSession config files fun s =>
        let result := s.generate files r
        match result.record with
        | .error a => failed result.files result.log a
        | .ok record => succeeded result.files result.log (record.summary r.destination)
  | .selfCheck =>
      withSession config files fun s =>
        let result := SelfCheck.run s scratch "."
        match result.record with
        | .error a => failed files result.log (a.within "self check failed")
        | .ok record =>
            succeeded files result.log
              [.plain ("self check finished successfully (" ++ toString record.written.length
                ++ " files generated)")]
  | .templates searchPath => succeeded files [] (catalogueSummary (catalogue files searchPath))

/-- Runs the program with some arguments. -/
def runArguments (config : String) (files : Tree) (arguments : List String) : Exit :=
  match Invocation.read arguments with
  | .error i => interrupted files i
  | .ok invocation => run config files invocation

end Stencil.Command
