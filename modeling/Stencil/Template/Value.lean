import Stencil.Json.Value
import Stencil.Template.Handle
import Stencil.Template.Tree

/-!
# Values of templates

Scalars, texts, lists, maps with their entries in order, and handles on the
model.  Namespaces and loops change while a template runs; their values are
numbers of entries in a store.  Loops and routines can be looked into like maps.
-/

namespace Stencil.Template

/-- The functions that every template knows. -/
inductive Builtin where
  | range
  | makeMap
  | makeNamespace
  | debug
  | fail
  | warn
  | deprecate
  deriving DecidableEq, Repr

/-- The text of a function. -/
def Builtin.text : Builtin → String
  | .range => "minijinja::functions::builtins::range"
  | .makeMap => "minijinja::functions::builtins::dict"
  | .makeNamespace => "minijinja::functions::builtins::namespace"
  | .debug => "minijinja::functions::builtins::debug"
  | .fail | .warn | .deprecate =>
      "idlgen_codegen::templates::TemplateEngine::new::\x7b\x7bclosure\x7d\x7d"

/-- A routine that a template has defined, with the template's name. -/
structure Routine where
  name : String
  params : List String
  usesCaller : Bool
  body : List Stmt
  template : String

/-- A value. -/
inductive Value where
  | undefined
  | none
  | bool (b : Bool)
  | int (n : Int)
  | float (d : Double)
  /-- A text; a safe one is not escaped. -/
  | text (s : String) (safe : Bool)
  | list (items : List Value)
  /-- Items that are computed one after the other; their number may be unknown. -/
  | iterator (items : List Value) (sized : Bool)
  | map (entries : List (Value × Value))
  /-- A list of two: what some items have in common, and these items. -/
  | group (shared : Value) (members : List Value)
  | handle (h : Handle)
  /-- A routine with the number of the variables around it, if it needs any. -/
  | routine (r : Routine) (around : Option Nat)
  /-- What a template defined when it was imported, and what it printed. -/
  | module (entries : List (String × Value)) (text : String)
  | namespace_ (id : Nat)
  | loop (id : Nat)
  | builtin (f : Builtin)
  deriving Inhabited

/-- The kinds of values. -/
inductive Kind where
  | undefined
  | none
  | bool
  | number
  | text
  | list
  | map
  | iterator
  | object
  deriving DecidableEq, Repr

namespace Kind

/-- The word for a kind. -/
def word : Kind → String
  | .undefined => "undefined"
  | .none => "none"
  | .bool => "bool"
  | .number => "number"
  | .text => "string"
  | .list => "sequence"
  | .map => "map"
  | .iterator => "iterator"
  | .object => "plain object"

/-- The place of a kind in the order of values. -/
def rank : Kind → Nat
  | .undefined => 0
  | .none => 1
  | .bool => 2
  | .number => 3
  | .text => 4
  | .list => 5
  | .map => 6
  | .iterator => 7
  | .object => 8

end Kind

/-- The state of a loop. -/
structure LoopState where
  /-- The items, as far as they are known in advance. -/
  items : List Value
  sized : Bool
  index : Nat := 0
  depth : Nat
  lastChecked : Option (List Value) := none
  /-- The statement that a loop runs when it calls itself, if it may. -/
  again : Option Stmt := none

/-- What changes while a template runs and is shared by values. -/
structure Heap where
  /-- The variables that routines see. -/
  around : Array (List (String × Value)) := #[]
  namespaces : Array (List (String × Value)) := #[]
  loops : Array LoopState := #[]

/-- What values are about: the model and the shared state. -/
structure World where
  system : Model.System
  heap : Heap

namespace Value

/-- A plain text. -/
def ofText (s : String) : Value := .text s false

/-- A list of plain texts. -/
def ofTexts (ss : List String) : Value := .list (ss.map ofText)

/-- The kind of a value. -/
def kind : Value → Kind
  | .undefined => .undefined
  | .none => .none
  | .bool _ => .bool
  | .int _ | .float _ => .number
  | .text .. => .text
  | .list _ | .group .. => .list
  | .iterator .. => .iterator
  | .map _ | .module .. | .namespace_ _ | .routine .. | .loop _ => .map
  | .handle _ | .builtin _ => .object

/-- The text of a text. -/
def text? : Value → Option String
  | .text s _ => some s
  | _ => Option.none

/-- Whether there is no value. -/
def isMissing : Value → Bool
  | .undefined | .none => true
  | _ => false

mutual
/-- The value of JSON data. -/
def ofJson : Json → Value
  | .null => .none
  | .bool b => .bool b
  | .int n => .int n
  | .double d => .float d
  | .string s => .text s false
  | .array items => .list (ofJsonItems items)
  | .object members => .map (ofJsonMembers members)

/-- The values of JSON items. -/
def ofJsonItems : List Json → List Value
  | [] => []
  | v :: rest => ofJson v :: ofJsonItems rest

/-- The entries of JSON members. -/
def ofJsonMembers : List (String × Json) → List (Value × Value)
  | [] => []
  | p :: rest => ofJsonMember p :: ofJsonMembers rest

/-- The entry of a JSON member. -/
def ofJsonMember : String × Json → Value × Value
  | (k, v) => (.text k false, ofJson v)
end

/-- The value of an attribute of the model. -/
def ofAttribute : Attribute → Value
  | .text s => .text s false
  | .number n => .int n
  | .truth b => .bool b
  | .texts items => ofTexts items
  | .data v => ofJson v
  | .handle h => .handle h
  | .handles items => .list (items.map .handle)

/-- The value of a literal. -/
def ofConstant : Constant → Value
  | .none => .none
  | .bool b => .bool b
  | .int n => .int n
  | .float d => .float d
  | .text s => .text s false

/-- The entries of named values. -/
def entriesOf (named : List (String × Value)) : List (Value × Value) :=
  named.map fun (k, v) => (.text k false, v)

/-- Whether a value has parts or a behaviour of its own, unlike a scalar or a text. -/
def isObject (v : Value) : Bool :=
  match v.kind with
  | .list | .map | .iterator | .object => true
  | _ => false

/-- The items of a list or an iterator. -/
def sequence? : Value → Option (List Value)
  | .list items => some items
  | .iterator items _ => some items
  | .group shared members => some [shared, .iterator members true]
  | _ => Option.none

/-- Whether the number of items is known before they are gone through. -/
def isSized : Value → Bool
  | .iterator _ sized => sized
  | .text .. => false
  | _ => true

end Value

/-- What a loop can be asked for.  Without a known number of items there is no last one. -/
def LoopState.attributes (l : LoopState) : List (String × Value) :=
  let counted (f : Nat → Nat) : Value :=
    if l.sized then .int (f l.items.length) else .undefined
  [("index0", .int l.index), ("index", .int (l.index + 1)), ("length", counted id),
    ("revindex", counted (· - l.index)), ("revindex0", counted (· - l.index - 1)),
    ("first", .bool (l.index == 0)),
    ("last", .bool (l.sized && l.items.length ≤ l.index + 1)),
    ("depth", .int (l.depth + 1)), ("depth0", .int l.depth),
    ("previtem",
      if l.index = 0 then .undefined else (l.items[l.index - 1]?).getD .undefined),
    ("nextitem", (l.items[l.index + 1]?).getD .undefined)]

/-- What a routine can be asked for. -/
def Routine.attributes (r : Routine) : List (String × Value) :=
  [("name", .ofText r.name), ("arguments", .ofTexts r.params), ("caller", .bool r.usesCaller)]

namespace World

/-- The entries of a value that has named entries. -/
def entries? (w : World) : Value → Option (List (Value × Value))
  | .map es => some es
  | .module named _ => some (Value.entriesOf named)
  | .namespace_ id => some (Value.entriesOf ((w.heap.namespaces[id]?).getD []))
  | .loop id => (w.heap.loops[id]?).map fun l => Value.entriesOf l.attributes
  | .routine r _ => some (Value.entriesOf r.attributes)
  | _ => none

/-- The items of a list, or the keys of a map. -/
def parts? (w : World) (v : Value) : Option (List Value) :=
  match v.sequence? with
  | some items => some items
  | none => (w.entries? v).map fun es => es.map Prod.fst

/-- The items of a value, the keys of a map, or the characters of a text. -/
def items? (w : World) (v : Value) : Option (List Value) :=
  match v with
  | .undefined | .none => some []
  | .text s _ => some (s.toList.map fun c => .ofText (String.singleton c))
  | v => w.parts? v

/-- The number of items, if it is known. -/
def length? (w : World) (v : Value) : Option Nat :=
  match v with
  | .text s _ => some s.length
  | .iterator _ false | .undefined | .none => none
  | v => (w.parts? v).map List.length

/-- Whether a value counts as true. -/
def isTrue (w : World) (v : Value) : Bool :=
  match v with
  | .undefined | .none => false
  | .bool b => b
  | .int n => n != 0
  | .float d => d.magnitudeBits != 0
  | .text s _ => !s.isEmpty
  | v => w.length? v != some 0

end World

end Stencil.Template
