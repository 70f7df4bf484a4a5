import Stencil.Report.Failure
import Stencil.Rules.Document
import Stencil.Rules.Legacy
import Stencil.Yaml.Node

/-!
# Rule files

A rules file holds documents of rules, or rules of the older form.  The marker
of the older form decides, whatever else the file holds.
-/

namespace Stencil.Rules

open Report (Failure)

/-- The rules of a template. -/
inductive RuleSet where
  | legacy (rules : LegacyRules)
  | modern (documents : List RuleDocument)
  deriving DecidableEq

namespace RuleSet

/-- Reads the rules in a value. -/
def ofJson : Json → Except Flaw RuleSet
  | .null => .ok (.modern [])
  | .object root =>
      match Members.get? LegacyRules.key root with
      | some v => (LegacyRules.ofJson v).map .legacy
      | none =>
          if root.any fun p => RuleDocument.keys.contains p.1 then
            (RuleDocument.ofMembers none root).map fun d => .modern [d]
          else (root.mapM RuleDocument.ofEntry).map .modern
  | v => .error (.notMapping v)

/-- Reads a rules file. -/
def parse (text path : String) : Except Failure RuleSet :=
  match Yaml.Node.ofText text with
  | .error _ => .error (.malformedRules path)
  | .ok n =>
      match n.json? false with
      | none => .error (.malformedRules path)
      | some v => (ofJson v).mapError fun flaw => .invalidRules path flaw.message

/-- Loads the rules file at a path. -/
def load (t : Files.Tree) (path : String) : Except Failure RuleSet :=
  match t.readText path with
  | .ok text => parse text path
  | .error fault => .error (.invalidRules path fault.message)

end RuleSet

/-- The rules file of a template directory: the file of its name beside it. -/
def rulesPath (template : String) : String :=
  Files.Path.join ((Files.Path.parent? template).getD "")
    ((Files.Path.fileName? template).getD "" ++ ".yaml")

end Stencil.Rules
