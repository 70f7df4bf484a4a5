import Stencil.Output
import Stencil.Report.Failure
import Stencil.Template.Render

/-!
# The template engine

An engine knows a search path, filters and global values, and keeps the
templates that it has read.  It works on a desk with the files and the reporter
of a run; what is reported stays there when a rendering fails, and the reporter
always gets back the frames that it had.
-/

namespace Stencil.Template

open Report

/-- Variables of a rendering, in order. -/
abbrev Variables := List (String × Value)

namespace Variables

/-- Sets a variable, in place or at the end. -/
def set (name : String) (v : Value) (vs : Variables) : Variables := Run.setNamed name v vs

/-- Sets the variables that are members of a mapping. -/
def setAll (ms : Members) (vs : Variables) : Variables :=
  ms.foldl (fun vs (name, v) => vs.set name (.ofJson v)) vs

end Variables

/-- A template engine. -/
structure Engine where
  searchPath : List String := []
  /-- The filters that have been installed, the latest first. -/
  filters : List (String × Filter) := []
  globals : Variables := []
  cache : List (String × Source) := []

/-- The functions that every template knows, by name. -/
def builtins : Variables :=
  [("range", .builtin .range), ("dict", .builtin .makeMap),
    ("namespace", .builtin .makeNamespace), ("error", .builtin .fail),
    ("warning", .builtin .warn), ("deprecated_filter", .builtin .deprecate),
    ("debug", .builtin .debug)]

/-- The name of a template that is given as a text. -/
def inlineName : String := "<string>"

/-- The name of a template for a rule: a slash at the start makes it independent of the source
directory. -/
def templateName (source : Option String) (name : String) : String :=
  match Text.dropPrefix "/" name with
  | some absolute => absolute
  | none =>
      match source with
      | none | some "" => name
      | some dir =>
          String.ofList (dir.toList.reverse.dropWhile (· = '/')).reverse ++ "/" ++ name

namespace Engine

/-- An engine for a search path, with the default filter sets of a registry. -/
def new (searchPath : List String) (registry : Registry) : Engine :=
  { searchPath
    filters := registry.defaults.foldl (fun fs set => set.filters.reverse ++ fs) []
    globals := builtins }

/-- Adds the filters of a set, in place of those of the same names. -/
def install (set : FilterSet) (e : Engine) : Engine :=
  { e with filters := set.filters.reverse ++ e.filters }

/-- Installs a set by its name. -/
def installNamed (registry : Registry) (name : String) (e : Engine) : Except Failure Engine :=
  match registry.plugin? name with
  | some set => .ok (e.install set)
  | none => .error (.unknownFilterSet name)

/-- Sets a global value. -/
def setGlobal (name : String) (v : Value) (e : Engine) : Engine :=
  { e with globals := Variables.set name v e.globals }

/-- A file in the search path. -/
def locate? (files : Files.Tree) (name : String) (e : Engine) : Option String :=
  Run.locate? files e.searchPath name

end Engine

/-- An output file: where it goes, the template of its name, the template of its content, and how
an existing file is treated. -/
structure OutputFile where
  directory : String
  fileName : String
  template : String
  overwrite : Overwrite

/-- The files, the reporter and the engine of a run. -/
structure Desk where
  files : Files.Tree
  reporter : Reporter := {}
  engine : Engine := {}

namespace Desk

/-- Runs a step of a template on a desk. -/
def perform {α : Type} (system : Model.System) (act : Run α) (d : Desk) :
    Except TemplateError α × Desk :=
  let env : Env := ⟨system, d.files, d.engine.searchPath, d.engine.filters, d.engine.globals⟩
  let (r, m) := act env { reporter := d.reporter, cache := d.engine.cache }
  let after := { d with reporter := m.reporter, engine := { d.engine with cache := m.cache } }
  match r with
  | .ok a => (.ok a, after)
  | .error f =>
      let e := m.reporter.errorAt f.places f.problem.message
      (.error { e with fatal := f.problem.isFatal }, after)

/-- Renders a template that is given as a text. -/
def renderText (system : Model.System) (text : String) (bindings : Variables) (d : Desk) :
    Except TemplateError String × Desk :=
  d.perform system <|
    match Source.ofText? inlineName text with
    | .error (f, line) => throw ⟨.unreadable f, [⟨inlineName, some line⟩]⟩
    | .ok source => renderSource source bindings

/-- Renders a template from the search path.  The reporter names it while it runs. -/
def render (system : Model.System) (name : String) (bindings : Variables) (d : Desk) :
    Except TemplateError String × Desk :=
  let entered := { d with reporter := d.reporter.enter name }
  let (r, after) := entered.perform system do
    match ← Run.template? name with
    | none => throw ⟨.missingTemplate name, []⟩
    | some source => renderSource source bindings
  (r, { after with reporter := { after.reporter with frames := d.reporter.frames } })

/-- Renders a template into a file.  The name of the file is a template as well. -/
def write (system : Model.System) (o : OutputFile) (bindings : Variables) (d : Desk) :
    Except Failure (String × WriteResult) × Desk :=
  match d.renderText system o.fileName bindings with
  | (.error e, d) => (.error (.template e), d)
  | (.ok name, d) =>
      let path := Files.Path.join o.directory name
      match d.render system o.template bindings with
      | (.error e, d) => (.error (.template e), d)
      | (.ok content, d) =>
          match d.files.output o.overwrite path content with
          | .error fault =>
              (.error (.write path fault), { d with files := d.files.afterFailedWrite path })
          | .ok (result, files) => (.ok (path, result), { d with files })

end Desk

end Stencil.Template
