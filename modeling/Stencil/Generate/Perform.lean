import Stencil.Generate.Plan

/-!
# Performing a plan

The steps of a plan are performed in order on a desk, until one fails.  What was
written before stays written, and every written file is on record.
-/

namespace Stencil.Generate

open Report Template

/-- What became of the files of a run, in order, and how many warnings there were. -/
structure Record where
  written : List String := []
  unchanged : List String := []
  preserved : List String := []
  warnings : Nat := 0
  deriving DecidableEq, Repr, Inhabited

namespace Record

/-- Records a file. -/
def add (r : Record) (path : String) : WriteResult → Record
  | .written => { r with written := r.written ++ [path] }
  | .unchanged => { r with unchanged := r.unchanged ++ [path] }
  | .preserved => { r with preserved := r.preserved ++ [path] }

/-- The number of files. -/
def total (r : Record) : Nat := r.written.length + r.unchanged.length + r.preserved.length

end Record

/-- The state of a run: its desk, the filter sets that it has asked for, and its record. -/
structure Bench where
  desk : Desk
  loaded : List String := []
  record : Record := {}

/-- What the steps of one run have in common. -/
structure Setting where
  system : Model.System
  registry : Registry
  destination : String

/-- The failure of a step, if any, and the state after it. -/
abbrev Outcome := Option Failure × Bench

namespace Bench

/-- Installs a filter set, unless the run has asked for it before. -/
def load (registry : Registry) (name : String) (b : Bench) : Outcome :=
  if b.loaded.contains name then (none, b)
  else
    let b := { b with loaded := name :: b.loaded }
    match b.desk.engine.installNamed registry name with
    | .ok engine => (none, { b with desk := { b.desk with engine } })
    | .error f => (some f, b)

/-- The directory of a file below the destination. -/
def directory (setting : Setting) (w : Write) (b : Bench) : Except TemplateError String × Bench :=
  if w.directory.isEmpty then (.ok setting.destination, b)
  else
    let (r, desk) := b.desk.renderText setting.system w.directory w.bindings
    (r.map (Files.Path.join setting.destination), { b with desk })

/-- Renders and writes a file, and records it. -/
def write (setting : Setting) (w : Write) (b : Bench) : Outcome :=
  match b.directory setting w with
  | (.error e, b) => (some (.template e), b)
  | (.ok directory, b) =>
      let file : OutputFile := ⟨directory, w.name, w.template, .ofFlags w.preserve w.force⟩
      match b.desk.write setting.system file w.bindings with
      | (.error f, desk) => (some f, { b with desk })
      | (.ok (path, result), desk) =>
          (none, { b with desk, record := b.record.add path result })

/-- Performs a step. -/
def step (setting : Setting) (b : Bench) : Step → Outcome
  | .load filters => b.load setting.registry filters
  | .warn message =>
      (none, { b with desk := { b.desk with reporter := b.desk.reporter.warn message } })
  | .write w => b.write setting w
  | .stop f => (some f, b)

/-- Performs steps in order until one fails. -/
def perform (setting : Setting) : Plan → Bench → Outcome
  | [], b => (none, b)
  | s :: rest, b =>
      match b.step setting s with
      | (none, b) => perform setting rest b
      | (some f, b) => (some f, b)

end Bench

end Stencil.Generate
