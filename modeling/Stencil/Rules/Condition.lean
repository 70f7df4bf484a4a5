import Stencil.Json.Value
import Stencil.Json.Printer

/-!
# Conditions and errors of rules
-/

namespace Stencil.Rules

/-- The word for what a value is. -/
def kindWord : Json → String
  | .null => "nothing"
  | .bool _ => "a boolean"
  | .int _ | .double _ => "a number"
  | .string _ => "a string"
  | .array _ => "a list"
  | .object _ => "a mapping"

/-- Why a value is no rule.  A legacy entry that does not fit is described by its own words. -/
inductive Flaw where
  | notMapping (found : Json)
  | document (name : String) (found : Json)
  | conditionEntry (found : Json)
  | condition (found : Json)
  | template (target key : String) (found : Json)
  | listEntry (key : String) (found : Json)
  | list (key : String) (found : Json)
  | text (key : String) (found : Json)
  | context (found : Json)
  | rule (level : String) (found : Json)
  | filterEntry (found : Json)
  | filters (found : Json)
  | legacyEntry (key reason : String)
  deriving DecidableEq

/-- The text of a flaw. -/
def Flaw.message : Flaw → String
  | .notMapping v => "expected a mapping, found " ++ kindWord v
  | .document name v => "document '" ++ name ++ "' must be a mapping, found " ++ kindWord v
  | .conditionEntry v => "'when' entries must be strings, found " ++ kindWord v
  | .condition v => "'when' must be a string or a list, found " ++ kindWord v
  | .template target key v =>
      "template of '" ++ target ++ "' in '" ++ key ++ "' must be a string, found " ++ kindWord v
  | .listEntry key v => "entries of '" ++ key ++ "' must be mappings, found " ++ kindWord v
  | .list key v => "'" ++ key ++ "' must be a mapping or a list, found " ++ kindWord v
  | .text key v => "'" ++ key ++ "' must be a string, found " ++ kindWord v
  | .context v => "'context' must be a mapping, found " ++ kindWord v
  | .rule level v => "rule '" ++ level ++ "' must be a mapping, found " ++ kindWord v
  | .filterEntry v => "'extra_filters' entries must be strings, found " ++ kindWord v
  | .filters v => "'extra_filters' must be a list, found " ++ kindWord v
  | .legacyEntry key reason => "invalid entry in '" ++ key ++ "': " ++ reason

/-- A condition: some features of which one has to be enabled; none at all always hold. -/
structure Condition where
  features : List String := []
  deriving DecidableEq, Repr, Inhabited

/-- Whether a condition holds with these features enabled. -/
def Condition.holds (enabled : List String) (c : Condition) : Bool :=
  c.features.isEmpty || c.features.any enabled.contains

/-- The text of an entry of a list. -/
def entryText (flaw : Json → Flaw) : Json → Except Flaw String
  | .string s => .ok s
  | v => .error (flaw v)

/-- Reads a condition. -/
def Condition.ofJson : Option Json → Except Flaw Condition
  | none | some .null => .ok {}
  | some (.string s) => .ok ⟨[s]⟩
  | some (.array items) => (items.mapM (entryText .conditionEntry)).map (⟨·⟩)
  | some v => .error (.condition v)

end Stencil.Rules
