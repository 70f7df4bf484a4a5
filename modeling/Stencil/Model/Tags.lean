import Stencil.Json.Value
import Stencil.Text.Split

/-!
# Tags

Annotations of a model node: a mapping from namespaces to mappings.  A namespace
may hold any value; only one that holds a mapping has keys.
-/

namespace Stencil.Model

/-- The annotations of a node. -/
structure Tags where
  members : Members
  deriving DecidableEq, Inhabited

namespace Tags

/-- No annotations. -/
def empty : Tags := ⟨[]⟩

/-- The members of a mapping; any other value gives no tags. -/
def ofJson : Json → Tags
  | .object ms => ⟨ms⟩
  | _ => empty

/-- The tags as a value. -/
def toJson (t : Tags) : Json := .object t.members

/-- Whether something is stored under a namespace. -/
def contains (t : Tags) (space : String) : Bool := t.members.contains space

/-- The mapping stored under a namespace. -/
def space? (t : Tags) (space : String) : Option Members :=
  (t.members.get? space).bind Json.members?

/-- The value under a key of a namespace. -/
def get? (t : Tags) (space key : String) : Option Json :=
  (t.space? space).bind (Members.get? key)

/-- The text under a key of a namespace. -/
def text? (t : Tags) (space key : String) : Option String :=
  (t.get? space key).bind Json.text?

/-- The value at the end of a path of keys through nested mappings. -/
def follow : Members → List String → Option Json
  | _, [] => none
  | ms, [key] => ms.get? key
  | ms, key :: rest =>
      match ms.get? key with
      | some (.object inner) => follow inner rest
      | _ => none

/-- The value at the end of a dotted path. -/
def lookup? (t : Tags) (path : String) : Option Json :=
  follow t.members (Text.split '.' path)

/-- The mapping of a namespace, empty if it holds none. -/
def spaceOrEmpty (t : Tags) (space : String) : Members := (t.space? space).getD []

/-- Makes sure that a namespace holds a mapping. -/
def ensure (space : String) (t : Tags) : Tags :=
  ⟨t.members.set space (.object (t.spaceOrEmpty space))⟩

/-- Sets one value. -/
def set (space key : String) (value : Json) (t : Tags) : Tags :=
  ⟨t.members.set space (.object ((t.spaceOrEmpty space).set key value))⟩

mutual
/-- A value with another merged into it: mappings key by key, anything else is replaced. -/
def mergeValue (old : Option Json) (new : Json) : Json :=
  match new with
  | .object b =>
      match old with
      | some (.object a) => .object (mergeMembers a b)
      | _ => .object b
  | v => v
termination_by structural new

/-- The members of a mapping with others merged into them. -/
def mergeMembers (a b : Members) : Members :=
  match b with
  | [] => a
  | p :: rest => mergeMembers (mergeMember a p) rest
termination_by structural b

/-- The members of a mapping with one merged into them. -/
def mergeMember (a : Members) (p : String × Json) : Members :=
  match p with
  | (key, value) => a.set key (mergeValue (a.get? key) value)
termination_by structural p
end

/-- Merges a mapping into the tags; its values win. -/
def merge (other : Members) (t : Tags) : Tags := ⟨mergeMembers t.members other⟩

end Tags

end Stencil.Model
