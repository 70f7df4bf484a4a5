import Stencil.Rules.RuleSet
import Stencil.Template.Engine

/-!
# Plans

What a run will do, as data.  The rules are applied to the nodes of the model in
declaration order: first to the system, then to every chosen module and after it
to its interfaces, structs and enums.  Each rule that applies sets variables and
asks for files.  A plan lists the resulting steps; nothing is rendered yet.
-/

namespace Stencil.Generate

open Model Report Rules Template

/-- A file to write. -/
structure Write where
  bindings : Variables
  /-- The pattern of the directory below the destination; an empty one stands for the destination
  itself. -/
  directory : String := ""
  /-- The pattern of the file's name. -/
  name : String
  template : String
  preserve : Bool
  force : Bool

/-- A step of a run. -/
inductive Step where
  | load (filters : String)
  | warn (message : String)
  | write (w : Write)
  | stop (f : Failure)

/-- The steps of a run, in order. -/
abbrev Plan := List Step

/-- What rules are applied to, and under which settings. -/
structure Scope where
  system : System
  /-- The names of the modules to generate. -/
  modules : List String
  features : List String
  /-- Whether every file is written, whatever is there. -/
  force : Bool
  destination : String
  /-- The variables that every template sees. -/
  bindings : Variables

/-- Visits items in order, carrying a value from each to the next, and joins what they give. -/
def sweep {σ α β : Type} (visit : σ → α → σ × List β) : σ → List α → σ × List β
  | s, [] => (s, [])
  | s, a :: rest =>
      let (next, here) := visit s a
      let (last, after) := sweep visit next rest
      (last, here ++ after)

namespace Scope

/-- The modules to generate, in declaration order, each with its position. -/
def chosen (scope : Scope) : List (Module × Nat) :=
  scope.system.modules.zipIdx.filter fun (m, _) => scope.modules.contains m.name

/-- The failure of a module that imports what is not there. -/
def importFailure? (scope : Scope) (m : Module) : Option Failure :=
  (scope.system.unresolvedImports m).head?.map fun name => .unresolvedImport name m.name

end Scope

/-! ## Rules -/

/-- The levels at which rules apply. -/
inductive Level where
  | system
  | module
  | interface
  | struct
  | enum
  deriving DecidableEq, Repr

/-- The variable that holds the node of a level. -/
def Level.variable : Level → String
  | .system => "system"
  | .module => "module"
  | .interface => "interface"
  | .struct => "struct"
  | .enum => "enum"

/-- The rule of a document for a level. -/
def ruleAt (d : RuleDocument) : Level → Option Rule
  | .system => d.system
  | .module => d.module
  | .interface => d.interface
  | .struct => d.struct
  | .enum => d.enum

/-- A node that rules apply to. -/
structure Visit where
  level : Level
  node : Handle
  deriving DecidableEq

/-- The system. -/
def systemVisit : Visit := ⟨.system, .system⟩

/-- A module and its interfaces, structs and enums. -/
def moduleVisits (m : Module) (i : Nat) : List Visit :=
  ⟨.module, .node (.module i)⟩
    :: (List.range m.interfaces.length).map (fun k => ⟨.interface, .node (.interface i k)⟩)
    ++ (List.range m.structs.length).map (fun k => ⟨.struct, .node (.struct i k)⟩)
    ++ (List.range m.enums.length).map (fun k => ⟨.enum, .node (.enum i k)⟩)

/-- What stays in effect from one rule to the next. -/
structure Carry where
  bindings : Variables
  directory : String := ""
  source : Option String := none

namespace Carry

/-- A setting that is there and not empty. -/
def given? (setting : Option String) : Option String := setting.filter (!·.isEmpty)

/-- What is in effect once a rule applies to a node. -/
def enter (c : Carry) (v : Visit) (r : Rule) : Carry where
  bindings := (c.bindings.set v.level.variable (.handle v.node)).setAll r.context
  directory := (given? r.path).getD c.directory
  source := given? r.source <|> c.source

/-- The files of a rule.  Those without a name or a template do not count. -/
def writes (scope : Scope) (c : Carry) (preserve : Bool) (targets : Targets) : Plan :=
  (targets.filter fun (name, template) => !name.isEmpty && !template.isEmpty).map
    fun (name, template) =>
      .write {
        bindings := c.bindings, directory := c.directory, name,
        template := templateName c.source template, preserve, force := scope.force }

/-- Applies the rule of a document for a node, if there is one and its condition holds. -/
def visit (scope : Scope) (d : RuleDocument) (c : Carry) (v : Visit) : Carry × Plan :=
  match ruleAt d v.level with
  | none => (c, [])
  | some r =>
      if r.condition.holds scope.features then
        let c := c.enter v r
        (c, c.writes scope false r.documents ++ c.writes scope true r.preserve)
      else (c, [])

/-- Applies the rules of a document to a module, which may import only what is there. -/
def visitModule (scope : Scope) (d : RuleDocument) (c : Carry) (m : Module × Nat) :
    Carry × Plan :=
  match scope.importFailure? m.1 with
  | some f => (c, [.stop f])
  | none => sweep (visit scope d) c (moduleVisits m.1 m.2)

/-- Applies a document, if its condition holds.  Its directory and source take the place of what
was in effect; the variables stay. -/
def visitDocument (scope : Scope) (c : Carry) (d : RuleDocument) : Carry × Plan :=
  if d.condition.holds scope.features then
    let start : Carry := ⟨c.bindings.setAll d.context, d.path.getD "", d.source⟩
    let (c, system) := start.visit scope d systemVisit
    let (c, modules) := sweep (visitModule scope d) c scope.chosen
    (c, d.extraFilters.map .load ++ system ++ modules)
  else (c, [])

end Carry

/-- The plan of rule documents. -/
def documentsPlan (scope : Scope) (documents : List RuleDocument) : Plan :=
  let start : Carry := ⟨scope.bindings.set Level.system.variable (.handle .system), "", none⟩
  (sweep (Carry.visitDocument scope) start documents).2

/-! ## Legacy rules -/

/-- The notice about legacy rules. -/
def legacyNotice : String :=
  "Using the legacy Generation YAML Parser. Please consider porting to the new Rule based "
    ++ "Generation"

/-- The files of legacy rules, which are always written. -/
def legacyWrites (bindings : Variables) (rules : List LegacyRule) : Plan :=
  rules.map fun r =>
    .write {
      bindings, name := r.destFile, template := r.templateFile, preserve := r.preserve,
      force := true }

/-- Sets the variable of a visited node. -/
def withNode (bindings : Variables) (v : Visit) : Variables :=
  bindings.set v.level.variable (.handle v.node)

/-- Applies legacy rules to a module and its interfaces, whose variables stay, and to its structs,
which see none of those. -/
def legacyModule (scope : Scope) (rules : LegacyRules) (bindings : Variables)
    (m : Module × Nat) : Variables × Plan :=
  match scope.importFailure? m.1 with
  | some f => (bindings, [.stop f])
  | none =>
      let at_ : Visit := ⟨.module, .node (.module m.2)⟩
      let bindings := withNode bindings at_
      let (last, interfaces) := sweep (fun bindings k =>
        let bindings := withNode bindings ⟨.interface, .node (.interface m.2 k)⟩
        (bindings, legacyWrites bindings rules.interfaceRules))
        bindings (List.range m.1.interfaces.length)
      let structs := (List.range m.1.structs.length).flatMap fun k =>
        legacyWrites
          (withNode (withNode scope.bindings at_) ⟨.struct, .node (.struct m.2 k)⟩)
          (rules.structRules.getD [])
      (last, legacyWrites bindings rules.moduleRules ++ interfaces ++ structs)

/-- The plan of legacy rules. -/
def legacyPlan (scope : Scope) (rules : LegacyRules) : Plan :=
  let start := (scope.bindings.set Level.system.variable (.handle .system)).set "dst"
    (.ofText scope.destination)
  .warn legacyNotice :: (sweep (legacyModule scope rules) start scope.chosen).2

/-- The plan of a rules file. -/
def plan (scope : Scope) : RuleSet → Plan
  | .modern documents => documentsPlan scope documents
  | .legacy rules => legacyPlan scope rules

end Stencil.Generate
