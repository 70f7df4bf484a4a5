import Stencil.Text.Split

/-!
# Reports of a run

Warnings are counted and logged.  An error names the templates that were active,
innermost first, and then the source file.
-/

namespace Stencil.Report

/-- A template that is being rendered, with a line inside it when that is known. -/
structure Frame where
  template : String
  line : Option Nat := none
  deriving DecidableEq, Repr

/-- The text of a frame. -/
def Frame.text (f : Frame) : String :=
  match f.line with
  | some n => f.template ++ ":" ++ toString n
  | none => f.template

/-- A message in the log of a run. -/
inductive Notice where
  | warning (place : Option String) (message : String)
  | error (place message : String)
  deriving DecidableEq, Repr

/-- The text of a message; a warning without a place comes from an unknown file. -/
def Notice.text : Notice → String
  | .warning place message => place.getD "<unknown-file>" ++ ": warning: " ++ message
  | .error place message => place ++ ": error: " ++ message

/-- Whether the message is a warning. -/
def Notice.isWarning : Notice → Bool
  | .warning .. => true
  | .error .. => false

/-- An error raised by a template, with the places that led to it.  A fatal one breaks the whole
run off. -/
structure TemplateError where
  location : String
  message : String
  trail : List String
  fatal : Bool := false
  deriving DecidableEq, Repr

/-- The error and its trail, one place to a line. -/
def TemplateError.text (e : TemplateError) : String :=
  e.location ++ ": " ++ e.message ++ String.join (e.trail.map ("\n" ++ ·))

/-- The active templates, innermost first, and what has been reported so far. -/
structure Reporter where
  frames : List Frame := []
  warnings : Nat := 0
  source : String := ""
  log : List Notice := []
  deriving DecidableEq, Repr, Inhabited

namespace Reporter

/-- Enters a template. -/
def enter (template : String) (r : Reporter) : Reporter :=
  { r with frames := ⟨template, none⟩ :: r.frames }

/-- Leaves the innermost template. -/
def leave (r : Reporter) : Reporter := { r with frames := r.frames.tail }

/-- Logs a warning at a place. -/
def warnAt (place : Option String) (message : String) (r : Reporter) : Reporter :=
  { r with warnings := r.warnings + 1, log := r.log ++ [.warning place message] }

/-- Logs a warning in the innermost template. -/
def warn (message : String) (r : Reporter) : Reporter :=
  r.warnAt (r.frames.head?.map Frame.text) message

/-- Logs a warning in a template, the innermost one if none is given. -/
def warnIn (template : Option String) (message : String) (r : Reporter) : Reporter :=
  match template with
  | some t => r.warnAt (some t) message
  | none => r.warn message

/-- Logs an error without stopping. -/
def logError (place message : String) (r : Reporter) : Reporter :=
  { r with log := r.log ++ [.error place message] }

/-- The frames of an error that the template engine located itself: the outermost of its places
stands for the active template of the same name. -/
def chain (origin active : List Frame) : List Frame :=
  match origin.getLast?, active with
  | some outermost, top :: rest =>
      if top.template = outermost.template then origin ++ rest else origin ++ active
  | _, _ => origin ++ active

/-- The line of a trail for a place. -/
def trailLine (place : String) : String := place ++ ": instantiated from here"

/-- The error of a message raised at some places, innermost first, inside the active templates. -/
def errorAt (origin : List Frame) (message : String) (r : Reporter) : TemplateError :=
  match chain origin r.frames with
  | [] => { location := "unknown", message, trail := [] }
  | innermost :: enclosing =>
      { location := innermost.text, message,
        trail := enclosing.map (fun f => trailLine f.text) ++ [trailLine r.source] }

/-- The error of a message raised in the innermost template. -/
def error (message : String) (r : Reporter) : TemplateError := r.errorAt [] message

end Reporter

end Stencil.Report
