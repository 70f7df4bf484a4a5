import Stencil.Rules.Condition

/-!
# Rule documents

A document has one rule for each level of the traversal.  A rule names the files
that are generated there, each with the template that it is rendered from.
-/

namespace Stencil.Rules

/-- The name patterns of files with their templates, in order. -/
abbrev Targets := List (String × String)

/-- The template of one file. -/
def target (key : String) : String × Json → Except Flaw (String × String)
  | (name, .string template) => .ok (name, template)
  | (name, v) => .error (.template name key v)

/-- The files of one mapping. -/
def targetsOf (key : String) : Json → Except Flaw Targets
  | .object ms => ms.mapM (target key)
  | v => .error (.listEntry key v)

/-- Reads the files of a rule: one mapping, or a list of mappings. -/
def targets (key : String) : Option Json → Except Flaw Targets
  | none | some .null => .ok []
  | some (.object ms) => ms.mapM (target key)
  | some (.array items) => (items.mapM (targetsOf key)).map List.flatten
  | some v => .error (.list key v)

/-- Reads an optional text. -/
def optionalText (key : String) (ms : Members) : Except Flaw (Option String) :=
  match Members.get? key ms with
  | none | some .null => .ok none
  | some (.string s) => .ok (some s)
  | some v => .error (.text key v)

/-- Reads the variables that a rule or document sets. -/
def context (ms : Members) : Except Flaw Members :=
  match Members.get? "context" ms with
  | none | some .null => .ok []
  | some (.object context) => .ok context
  | some v => .error (.context v)

/-- The rule of one level. -/
structure Rule where
  condition : Condition := {}
  context : Members := []
  /-- The pattern of the directory below the destination, from here on. -/
  path : Option String := none
  /-- The directory of the templates, from here on. -/
  source : Option String := none
  documents : Targets := []
  /-- Files that are only created when missing. -/
  preserve : Targets := []
  deriving DecidableEq, Inhabited

/-- Reads a rule. -/
def Rule.ofJson (level : String) : Json → Except Flaw Rule
  | .null => .ok {}
  | .object ms => do
      let condition ← Condition.ofJson (Members.get? "when" ms)
      let context ← Rules.context ms
      let path ← optionalText "path" ms
      let source ← optionalText "source" ms
      let documents ← targets "documents" (Members.get? "documents" ms)
      let preserve ← targets "preserve" (Members.get? "preserve" ms)
      return { condition, context, path, source, documents, preserve }
  | v => .error (.rule level v)

/-- A document of rules; one that is not in a mapping of documents has no name. -/
structure RuleDocument where
  name : Option String := none
  condition : Condition := {}
  context : Members := []
  path : Option String := none
  source : Option String := none
  extraFilters : List String := []
  system : Option Rule := none
  module : Option Rule := none
  interface : Option Rule := none
  struct : Option Rule := none
  enum : Option Rule := none
  deriving DecidableEq, Inhabited

namespace RuleDocument

/-- The keys that make a mapping a document. -/
def keys : List String :=
  ["system", "module", "interface", "struct", "enum", "context", "path", "source",
    "extra_filters", "when"]

/-- Reads the names of filter sets. -/
def filters : Option Json → Except Flaw (List String)
  | none | some .null => .ok []
  | some (.string s) => .ok [s]
  | some (.array items) => items.mapM (entryText .filterEntry)
  | some v => .error (.filters v)

/-- Reads the rule of a level, if there is one. -/
def rule (level : String) (ms : Members) : Except Flaw (Option Rule) :=
  match Members.get? level ms with
  | none => .ok none
  | some v => (Rule.ofJson level v).map some

/-- Reads a document. -/
def ofMembers (name : Option String) (ms : Members) : Except Flaw RuleDocument := do
  let extraFilters ← filters (Members.get? "extra_filters" ms)
  let condition ← Condition.ofJson (Members.get? "when" ms)
  let context ← Rules.context ms
  let path ← optionalText "path" ms
  let source ← optionalText "source" ms
  let system ← rule "system" ms
  let module ← rule "module" ms
  let interface ← rule "interface" ms
  let struct ← rule "struct" ms
  let enum ← rule "enum" ms
  return {
    name, condition, context, path, source, extraFilters, system, module, interface, struct,
    enum }

/-- Reads a document under its name. -/
def ofEntry : String × Json → Except Flaw RuleDocument
  | (name, .object ms) => ofMembers (some name) ms
  | (name, .null) => ofMembers (some name) []
  | (name, v) => .error (.document name v)

end RuleDocument

end Stencil.Rules
