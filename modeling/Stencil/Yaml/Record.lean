import Stencil.Decimal.Layout
import Stencil.Yaml.Node

/-!
# Records

A mapping read as a record: its keys are the names of known fields, each at most
once.  Fields are then read one by one, with a value for those that are missing.
-/

namespace Stencil.Yaml

/-- The fields of a mapping under their names. -/
abbrev Record := List (String × Node)

namespace Record

/-- Adds a field, unless there is one of that name. -/
def insert? (name : String) (value : Node) (r : Record) : Option Record :=
  if (r.lookup name).isSome then none else some (r ++ [(name, value)])

/-- The record of the entries of a mapping.  A key with an unknown name is refused, or skipped
when `open_` is set. -/
def ofEntries? (open_ : Bool) (known : List String) : List (Node × Node) → Record → Option Record
  | [], r => some r
  | (k, v) :: rest, r =>
      match k.text? with
      | none => none
      | some name =>
          if known.contains name then
            (r.insert? name v).bind fun r => ofEntries? open_ known rest r
          else if open_ then ofEntries? open_ known rest r
          else none

/-- The record of a mapping that has known fields only. -/
def closed? (known : List String) (n : Node) : Option Record :=
  n.entries?.bind fun entries => ofEntries? false known entries []

/-- The record of a mapping that may have other fields too. -/
def open? (known : List String) (n : Node) : Option Record :=
  n.entries?.bind fun entries => ofEntries? true known entries []

/-- A field that has to be there. -/
def required? {α : Type} (r : Record) (name : String) (read : Node → Option α) : Option α :=
  (r.lookup name).bind read

/-- A field with a value for when it is missing. -/
def optional? {α : Type} (r : Record) (name : String) (missing : α) (read : Node → Option α) :
    Option α :=
  match r.lookup name with
  | some n => read n
  | none => some missing

end Record

namespace Node

/-- Reads what a node holds, unless it spells nothing. -/
def orNothing? {α : Type} (read : Node → Option α) (n : Node) : Option (Option α) :=
  match n.present? with
  | none => none
  | some none => some none
  | some (some n) => (read n).map some

/-- Reads a list. -/
def list? {α : Type} (read : Node → Option α) (n : Node) : Option (List α) :=
  n.items?.bind fun items => items.mapM read

/-- The text that a version entry spells: text as it is, a number with its shortest digits;
anything else spells none. -/
def Value.versionText? : Value → Option String
  | .scalar (.text s) => some s
  | .scalar (.int n) => some (toString n)
  | .scalar (.float d) => some (Layout.yaml.write d)
  | _ => none

/-- The text of a version entry. -/
def versionText? (n : Node) : Option (Option String) :=
  (n.orNothing? value?).map fun v => v.bind Value.versionText?

end Node

end Stencil.Yaml
