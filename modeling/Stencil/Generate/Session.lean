import Stencil.Builtin
import Stencil.Generate.Catalogue
import Stencil.Generate.Perform
import Stencil.Prepare.Phases

/-!
# Generation

A request names documents, a template and a destination.  The names of the
modules to generate come from its source documents alone; the model comes from
these together with the imported documents, so that imported modules produce no
files.
-/

namespace Stencil.Generate

open Files Report Template

/-- What every request of a session shares. -/
structure Session where
  builtin : Builtin
  registry : Registry := {}

/-- A request to generate files. -/
structure Request where
  /-- Documents, or directories of documents. -/
  sources : List String
  destination : String
  /-- The name of a template in the search path, or its directory. -/
  template : String
  searchPath : List String := []
  /-- The module that all nodes are told to belong to. -/
  module : Option String := none
  force : Bool := false
  annotations : List String := []
  /-- Documents that are only there for their declarations. -/
  imports : List String := []
  deriving Repr, Inhabited

/-- The variables that every template sees, for the first source document. -/
def Session.bindings (s : Session) (source : String) : Variables :=
  [("qtASVersion", .ofText s.builtin.version),
    ("ifcodegenVersion", .ofText s.builtin.version),
    ("srcFile", .ofText ((Path.fileName? source).getD "")),
    ("srcBase", .ofText ((Path.stem? source).getD ""))]

/-- What a request comes down to, as far as its documents tell. -/
structure Input where
  /-- The first source document. -/
  source : String
  /-- The directory of the template. -/
  template : String
  /-- The modules to generate. -/
  modules : List String
  system : Model.System

namespace Request

/-- The documents that paths stand for. -/
def expand (t : Tree) (paths : List String) : List String := paths.flatMap (Document.collect t)

/-- Reads the documents of a request. -/
def input (r : Request) (t : Tree) : Except Abort Input := do
  let alone {α : Type} (x : Except Failure α) : Except Abort α := x.mapError (⟨·, []⟩)
  let source ← alone (r.sources.head?.elim (.error .noSources) .ok)
  let template ← alone (templateDirectory t r.template r.searchPath)
  let modules ← within "failed to read the source documents" <|
    alone ((Document.loadModuleNames t (expand t r.sources)).mapError .document)
  let system ← within "failed to resolve the model" <|
    alone ((Document.load t (expand t (r.imports ++ r.sources))).mapError .document)
  return ⟨source, template, modules, system⟩

/-- The phases that prepare the model of a request. -/
def phases (r : Request) : List Prepare.Phase :=
  [.annotate r.annotations, .tag ⟨r.module, r.force⟩, .validate [Prepare.deprecationLint []]]

end Request

/-- Where the templates of a run are looked for: in the directory of the template, in the one that
it lies in, and in the search path. -/
def templatePath (template : String) (search : List String) : List String :=
  template :: (Path.parent? template).toList ++ search

/-- What a run leaves behind: its record or why it ended, the files, and what was reported. -/
structure Result where
  record : Except Abort Record
  files : Tree
  log : List Notice := []

namespace Session

/-- The plan of a request.  A filter set of the template's name is loaded first. -/
def plan (s : Session) (r : Request) (i : Input) (system : Model.System) (rules : Rules.RuleSet) :
    Plan :=
  let name := (Path.fileName? i.template).getD ""
  let scope : Scope :=
    { system, modules := i.modules, features := s.builtin.features, force := r.force,
      destination := r.destination, bindings := s.bindings i.source }
  (if s.registry.contains name then [.load name] else []) ++ Generate.plan scope rules

/-- Generates the files of a request for a model that has been prepared. -/
def run (s : Session) (t : Tree) (r : Request) (i : Input) (draft : Prepare.Draft) : Result :=
  match Rules.RuleSet.load t (Rules.rulesPath i.template) with
  | .error f => ⟨.error ⟨f, []⟩, t, draft.reporter.log⟩
  | .ok rules =>
      let engine := Engine.new (templatePath i.template r.searchPath) s.registry
      let setting : Setting := ⟨draft.system, s.registry, r.destination⟩
      let start : Bench := { desk := ⟨t, draft.reporter, engine⟩ }
      let (f?, b) := start.perform setting (s.plan r i draft.system rules)
      let record : Except Abort Record :=
        match f? with
        | some f => .error ⟨f, []⟩
        | none => .ok { b.record with warnings := b.desk.reporter.warnings }
      ⟨record, b.desk.files, b.desk.reporter.log⟩

/-- Generates the files of a request. -/
def generate (s : Session) (t : Tree) (r : Request) : Result :=
  match r.input t with
  | .error a => ⟨.error a, t, []⟩
  | .ok i =>
      let source := (Path.fileName? i.source).getD ""
      let draft : Prepare.Draft :=
        { system := i.system, source, reporter := { source } }
      match Prepare.runPhases t r.phases draft with
      | (some a, draft) => ⟨.error a, t, draft.reporter.log⟩
      | (none, draft) => s.run t r i draft

end Session

end Stencil.Generate
