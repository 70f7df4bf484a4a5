import Stencil.Generate.Perform

/-!
# Summaries

What is told about a run and about a catalogue, line by line.
-/

namespace Stencil.Generate

/-- A line of a summary. -/
inductive Line where
  | heading (name : String)
  | entry (key value : String)
  | item (text : String)
  | added (text : String)
  | kept (text : String)
  | warning (message : String)
  | plain (text : String)
  deriving DecidableEq, Repr

namespace Line

/-- The text of a line. -/
def text : Line → String
  | heading name => name ++ ":"
  | entry key value => key ++ ": " ++ value
  | item text => "  - " ++ text
  | added text => "  + " ++ text
  | kept text => "  = " ++ text
  | warning message => "warning: " ++ message
  | plain text => text

/-- Whether a line is a warning. -/
def isWarning : Line → Bool
  | warning _ => true
  | _ => false

end Line

/-- A path as seen from the destination, if it lies there. -/
def seenFrom (destination path : String) : String :=
  (Files.Path.below? destination path).getD path

/-- The lines about some files under a heading, none if there are no files. -/
def section_ (heading : String) (line : String → Line) (paths : List String) : List Line :=
  if paths.isEmpty then [] else .heading heading :: paths.map line

/-- The number of warnings in words. -/
def warningWords (n : Nat) : String :=
  toString n ++ " warning" ++ (if n = 1 then "" else "s") ++ " while rendering templates"

/-- The numbers of files in words. -/
def countWords (r : Record) : String :=
  "(" ++ toString r.written.length ++ " written, " ++ toString r.unchanged.length
    ++ " unchanged, " ++ toString r.preserved.length ++ " preserved)"

/-- The summary of a run. -/
def Record.summary (r : Record) (destination : String) : List Line :=
  (if r.warnings = 0 then [] else [.warning (warningWords r.warnings)])
    ++ section_ "Written" (.added ∘ seenFrom destination) r.written
    ++ section_ "Preserved (use --force to overwrite)" (.kept ∘ seenFrom destination) r.preserved
    ++ [.entry "Generated" (destination ++ " " ++ countWords r)]

/-- The summary of a catalogue. -/
def catalogueSummary (templates : List (String × String)) : List Line :=
  if templates.isEmpty then [.plain "No templates found"]
  else .heading "Templates" :: templates.map fun (name, path) => .item (name ++ " (" ++ path ++ ")")

end Stencil.Generate
