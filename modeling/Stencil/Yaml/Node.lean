import Stencil.Yaml.Tree
import Stencil.Yaml.Meaning
import Stencil.Json.Value

/-!
# Nodes and what they hold

A node is a tree with its aliases replaced by what they stand for.  Readers turn
nodes into text, truth values, lists, mappings and JSON values; each says by
`none` that the node does not hold what is asked for.
-/

namespace Stencil.Yaml

/-- A node without aliases. -/
inductive Node where
  | scalar (tag : Option String) (style : Style) (text : String)
  | sequence (tag : Option String) (items : List Node)
  | mapping (tag : Option String) (entries : List (Node × Node))
  /-- A node nested too deeply, or reached through too many aliases, to be read. -/
  | unreadable
  deriving Inhabited

namespace Tree

mutual
/-- The number of scalars, aliases and brackets of a tree. -/
def eventCount : Tree → Nat
  | .alias _ => 1
  | .scalar .. => 1
  | .sequence _ _ items => 2 + eventCounts items
  | .mapping _ _ entries => 2 + entryCounts entries

/-- The number of scalars, aliases and brackets of a list. -/
def eventCounts : List Tree → Nat
  | [] => 0
  | t :: rest => eventCount t + eventCounts rest

/-- The number of scalars, aliases and brackets of the entries of a mapping. -/
def entryCounts : List (Tree × Tree) → Nat
  | [] => 0
  | e :: rest => entryCount e + entryCounts rest

/-- The number of scalars, aliases and brackets of an entry. -/
def entryCount : Tree × Tree → Nat
  | (k, v) => eventCount k + eventCount v
end

mutual
/-- The anchored nodes of a tree in the order in which they begin. -/
def anchored (t : Tree) : List (Nat × Tree) :=
  match t with
  | .alias _ => []
  | .scalar (some a) .. => [(a, t)]
  | .scalar none .. => []
  | .sequence (some a) _ items => (a, t) :: anchoredItems items
  | .sequence none _ items => anchoredItems items
  | .mapping (some a) _ entries => (a, t) :: anchoredEntries entries
  | .mapping none _ entries => anchoredEntries entries

/-- The anchored nodes of a list. -/
def anchoredItems : List Tree → List (Nat × Tree)
  | [] => []
  | t :: rest => anchored t ++ anchoredItems rest

/-- The anchored nodes of the entries of a mapping. -/
def anchoredEntries : List (Tree × Tree) → List (Nat × Tree)
  | [] => []
  | e :: rest => anchoredEntry e ++ anchoredEntries rest

/-- The anchored nodes of an entry. -/
def anchoredEntry : Tree × Tree → List (Nat × Tree)
  | (k, v) => anchored k ++ anchored v
end

/-- The tree that an alias stands for, as long as aliases may still be followed. -/
def target? (bound : List (Nat × Tree)) (t : Tree) : StateM Nat (Option Tree) := do
  match t with
  | .alias a =>
      let left ← get
      set (left - 1)
      return if left = 0 then none else bound.lookup a
  | _ => return some t

/-- The node of a tree, with brackets nested at most `depth` times. -/
def expand (bound : List (Nat × Tree)) (depth : Nat) (t : Tree) : StateM Nat Node := do
  match ← target? bound t, depth with
  | some (.scalar _ tag style text), _ => return .scalar tag style text
  | some (.sequence _ tag items), depth + 1 =>
      return .sequence tag (← items.mapM (expand bound depth))
  | some (.mapping _ tag entries), depth + 1 =>
      return .mapping tag (← entries.mapM fun (k, v) => do
        let k ← expand bound depth k
        let v ← expand bound depth v
        return (k, v))
  | _, _ => return .unreadable

end Tree

namespace Node

/-- The node of a text without a document, or with nothing in it. -/
def empty : Node := .scalar none .plain ""

/-- The node of the only document of a text. -/
def ofText (text : String) : Except Problem Node :=
  match Tree.ofText text with
  | .error p => .error p
  | .ok none => .ok empty
  | .ok (some t) =>
      .ok ((Tree.expand t.anchored.reverse 128 t).run (100 * t.eventCount)).1

/-- The text of a scalar, whatever it means. -/
def text? : Node → Option String
  | .scalar _ _ text => some text
  | _ => none

/-- The truth value of a plain scalar, or of a literal one that is tagged so. -/
def bool? : Node → Option Bool
  | .scalar tag style text =>
      if style = .plain || (style = .literal && tag = some (Meaning.schemaTag "bool")) then
        Meaning.bool? text
      else none
  | _ => none

/-- Whether nothing is written at all. -/
def isEmpty : Node → Bool
  | .scalar _ style text => style = .plain && text.isEmpty
  | _ => false

/-- The items of a sequence; nothing stands for none. -/
def items? : Node → Option (List Node)
  | .sequence _ items => some items
  | n => if n.isEmpty then some [] else none

/-- The entries of a mapping; nothing stands for none. -/
def entries? : Node → Option (List (Node × Node))
  | .mapping _ entries => some entries
  | n => if n.isEmpty then some [] else none

/-- The node itself unless it spells nothing; `none` if its tag says so and it does not. -/
def present? (n : Node) : Option (Option Node) :=
  match n with
  | .scalar none .plain text =>
      some (if text.isEmpty || Meaning.isNull text then none else some n)
  | .scalar (some tag) .plain text =>
      if tag = Meaning.schemaTag "null" then if Meaning.isNull text then some none else none
      else some (some n)
  | .unreadable => none
  | _ => some (some n)

/-- Whether a tag is local to the document. -/
def isLocalTag (tag : Option String) : Bool :=
  tag.any fun t => t.toList.head? = some '!'

/-- The meaning of a scalar that has no local tag. -/
def meaning? (tag : Option String) (style : Style) (text : String) : Option Meaning :=
  match tag with
  | none => some (.ofScalar style text)
  | some t => if isLocalTag tag then none else Meaning.ofTagged? t text

/-- The JSON value of a meaning; infinities and the like have none but null. -/
def jsonOf? : Meaning → Option Json
  | .null => some .null
  | .bool b => some (.bool b)
  | .int n => some (.int n)
  | .wide _ => none
  | .float d => some (if d.isFinite then .double d else .null)
  | .text s => some (.string s)

mutual
/-- The JSON value of a node.  Keys are the texts of scalars; with `strictKeys` they have to mean
text too. -/
def json? (strictKeys : Bool) : Node → Option Json
  | .scalar tag style text => (meaning? tag style text).bind jsonOf?
  | .sequence tag items =>
      if isLocalTag tag then none else (jsonItems? strictKeys items).map .array
  | .mapping tag entries =>
      if isLocalTag tag then none else (jsonEntries? strictKeys entries).map fun ps =>
        .object (Members.ofPairs ps)
  | .unreadable => none

/-- The JSON values of a list of nodes. -/
def jsonItems? (strictKeys : Bool) : List Node → Option (List Json)
  | [] => some []
  | n :: rest =>
      match json? strictKeys n, jsonItems? strictKeys rest with
      | some v, some vs => some (v :: vs)
      | _, _ => none

/-- The keys and JSON values of the entries of a mapping. -/
def jsonEntries? (strictKeys : Bool) : List (Node × Node) → Option (List (String × Json))
  | [] => some []
  | e :: rest =>
      match jsonEntry? strictKeys e, jsonEntries? strictKeys rest with
      | some p, some ps => some (p :: ps)
      | _, _ => none

/-- The key and JSON value of an entry. -/
def jsonEntry? (strictKeys : Bool) : Node × Node → Option (String × Json)
  | (k, v) =>
      match key? strictKeys k, json? strictKeys v with
      | some key, some value => some (key, value)
      | _, _ => none

/-- The text of a key. -/
def key? (strict : Bool) : Node → Option String
  | .scalar tag style text =>
      if !strict then some text
      else
        match meaning? tag style text with
        | some (.text s) => some s
        | _ => none
  | _ => none
end

/-- A value of any shape, as compared when keys must differ. -/
inductive Value where
  | scalar (m : Meaning)
  | sequence (items : List Value)
  | mapping (entries : List (Value × Value))
  | tagged (tag : String) (value : Value)
  deriving BEq, Inhabited

/-- The name of a local tag. -/
def localName? (tag : Option String) : Option String :=
  if isLocalTag tag then
    tag.map fun t => if t.toList.length = 1 then t else String.ofList t.toList.tail
  else none

/-- The value under its local tag, if it has one. -/
def Value.under (tag : Option String) (v : Value) : Value :=
  match localName? tag with
  | some name => .tagged name v
  | none => v

/-- Whether no two keys are the same. -/
def Value.distinctKeys : List (Value × Value) → Bool
  | [] => true
  | (k, _) :: rest => !rest.any (·.1 == k) && distinctKeys rest

mutual
/-- The value of a node whose mappings have different keys. -/
def value? : Node → Option Value
  | .scalar tag style text =>
      let m : Option Meaning :=
        if isLocalTag tag then some (.ofScalar style text) else meaning? tag style text
      match m with
      | none | some (.wide _) => none
      | some m => some ((Value.scalar m).under tag)
  | .sequence tag items => (valueItems? items).map fun vs => (Value.sequence vs).under tag
  | .mapping tag entries =>
      match valueEntries? entries with
      | some es => if Value.distinctKeys es then some ((Value.mapping es).under tag) else none
      | none => none
  | .unreadable => none

/-- The values of a list of nodes. -/
def valueItems? : List Node → Option (List Value)
  | [] => some []
  | n :: rest =>
      match value? n, valueItems? rest with
      | some v, some vs => some (v :: vs)
      | _, _ => none

/-- The values of the entries of a mapping. -/
def valueEntries? : List (Node × Node) → Option (List (Value × Value))
  | [] => some []
  | e :: rest =>
      match valueEntry? e, valueEntries? rest with
      | some p, some ps => some (p :: ps)
      | _, _ => none

/-- The values of an entry. -/
def valueEntry? : Node × Node → Option (Value × Value)
  | (k, v) =>
      match value? k, value? v with
      | some a, some b => some (a, b)
      | _, _ => none
end

end Node

end Stencil.Yaml
