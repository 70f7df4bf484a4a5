import Stencil.Json.Mismatch
import Stencil.Rules.Condition

/-!
# Legacy rules

The older form of rules: flat lists of files for modules, interfaces and structs.
-/

namespace Stencil.Rules

/-- A file of the older form. -/
structure LegacyRule where
  destFile : String
  templateFile : String
  preserve : Bool := false
  deriving DecidableEq, Repr, Inhabited

/-- What an entry as a whole should be. -/
def entryWords : String := "struct LegacyRule"

/-- Reads a text. -/
def legacyText : Json → Except String String
  | .string s => .ok s
  | v => .error (v.mismatch "a string")

/-- Reads a truth value. -/
def legacyFlag : Json → Except String Bool
  | .bool b => .ok b
  | v => .error (v.mismatch "a boolean")

/-- The fields of an entry that have been read. -/
structure LegacyFields where
  destFile : Option String := none
  templateFile : Option String := none
  preserve : Option Bool := none

/-- Reads one member of an entry; members of other names do not matter. -/
def LegacyFields.add (fields : LegacyFields) (p : String × Json) : Except String LegacyFields :=
  match p with
  | ("dest_file", v) => (legacyText v).map fun s => { fields with destFile := some s }
  | ("template_file", v) => (legacyText v).map fun s => { fields with templateFile := some s }
  | ("preserve", v) => (legacyFlag v).map fun b => { fields with preserve := some b }
  | _ => .ok fields

/-- Reads an entry: a mapping, or a list of its fields in order. -/
def LegacyRule.ofJson : Json → Except String LegacyRule
  | .object ms => do
      let fields ← ms.foldlM LegacyFields.add {}
      match fields.destFile, fields.templateFile with
      | none, _ => throw (missingMember "dest_file")
      | _, none => throw (missingMember "template_file")
      | some dest, some template => return ⟨dest, template, fields.preserve.getD false⟩
  | .array items =>
      match items with
      | [] => .error (lengthMismatch 0 (entryWords ++ " with 3 elements"))
      | dest :: rest => do
          let dest ← legacyText dest
          match rest with
          | [] => throw (lengthMismatch 1 (entryWords ++ " with 3 elements"))
          | template :: rest => do
              let template ← legacyText template
              match rest with
              | [] => return ⟨dest, template, false⟩
              | preserve :: rest => do
                  let preserve ← legacyFlag preserve
                  if rest.isEmpty then return ⟨dest, template, preserve⟩
                  else throw (lengthMismatch items.length "fewer elements in array")
  | v => .error (v.mismatch entryWords)

/-- The rules of the older form; those of structs may be missing. -/
structure LegacyRules where
  moduleRules : List LegacyRule := []
  interfaceRules : List LegacyRule := []
  structRules : Option (List LegacyRule) := none
  deriving DecidableEq, Repr, Inhabited

namespace LegacyRules

/-- The key that marks the older form. -/
def key : String := "generate_rules"

/-- Reads a list of rules; anything but a list counts as missing. -/
def list (key : String) (v : Json) : Except Flaw (Option (List LegacyRule)) :=
  match v.members?.bind (Members.get? key) with
  | some (.array items) =>
      (items.mapM fun item =>
        (LegacyRule.ofJson item).mapError (Flaw.legacyEntry key)).map some
  | _ => .ok none

/-- Reads the rules of the older form. -/
def ofJson (v : Json) : Except Flaw LegacyRules := do
  let moduleRules ← list "module_rules" v
  let interfaceRules ← list "interface_rules" v
  let structRules ← list "struct_rules" v
  return ⟨moduleRules.getD [], interfaceRules.getD [], structRules⟩

end LegacyRules

end Stencil.Rules
