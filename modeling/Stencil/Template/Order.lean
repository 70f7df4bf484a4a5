import Stencil.Decimal.Layout
import Stencil.Template.Value
import Stencil.Text.Quoted
import Stencil.Text.Split

/-!
# Texts and comparisons of values

A value prints as its text.  Inside a list or a map texts stand in quotes and
numbers are written in their short form.  Numbers compare as numbers, truth
values count as numbers, and values of different kinds are ordered by kind.
-/

namespace Stencil.Template

-- powers of numbers are those of the core library
attribute [local instance (2000)] instPowNat

/-- How the texts of items are put between two marks. -/
abbrev Wrapping := String → String → List String → String

/-- Items between marks in one line, with commas between them. -/
def Wrapping.line : Wrapping := fun opening closing items =>
  opening ++ String.intercalate ", " items ++ closing

/-- Items between marks, each in lines of its own, a step further in and with a comma behind it. -/
def Wrapping.block : Wrapping := fun opening closing items =>
  if items.isEmpty then opening ++ closing
  else
    opening ++ "\n"
      ++ String.join (items.map fun s => "    " ++ Text.replace "\n" "\n    " s ++ ",\n")
      ++ closing

namespace World

mutual
/-- The text of a value inside another, with the texts of the shared values given. -/
def innerWith (w : World) (wrap : Wrapping) (shared : Nat → String) : Value → String
  | .undefined => "undefined"
  | .none => "none"
  | .bool b => if b then "true" else "false"
  | .int n => toString n
  | .float d => Layout.nested.write d
  | .text s _ => Text.quoted s
  | .list items => wrap "[" "]" (innerItems w wrap shared items)
  | .iterator items sized =>
      if sized then wrap "[" "]" (innerItems w wrap shared items) else "<iterator>"
  | .map entries => wrap "\x7b" "\x7d" (innerEntries w wrap shared entries)
  | .group common members =>
      wrap "[" "]"
        [innerWith w wrap shared common, wrap "[" "]" (innerItems w wrap shared members)]
  | .handle h => h.name w.system
  | .routine r _ => "<macro " ++ r.name ++ ">"
  | .module _ text => text
  | .namespace_ id => shared id
  | .loop id =>
      match w.heap.loops[id]? with
      | some l =>
          "<loop " ++ toString l.index ++ "/"
            ++ (if l.sized then toString l.items.length else "?") ++ ">"
      | none => "<loop>"
  | .builtin f => f.text

/-- The texts of the items of a list. -/
def innerItems (w : World) (wrap : Wrapping) (shared : Nat → String) :
    List Value → List String
  | [] => []
  | v :: rest => innerWith w wrap shared v :: innerItems w wrap shared rest

/-- The texts of the entries of a map. -/
def innerEntries (w : World) (wrap : Wrapping) (shared : Nat → String) :
    List (Value × Value) → List String
  | [] => []
  | e :: rest => innerEntry w wrap shared e :: innerEntries w wrap shared rest

/-- The text of an entry of a map. -/
def innerEntry (w : World) (wrap : Wrapping) (shared : Nat → String) : Value × Value → String
  | (k, v) => innerWith w wrap shared k ++ ": " ++ innerWith w wrap shared v
end

/-- The text of a namespace; a namespace inside it is not opened. -/
def sharedText (w : World) (wrap : Wrapping) (id : Nat) : String :=
  wrap "\x7b" "\x7d" <|
    ((w.heap.namespaces[id]?).getD []).map fun (k, v) =>
      Text.quoted k ++ ": " ++ w.innerWith wrap (fun _ => "\x7b...\x7d") v

/-- The text of a value inside another. -/
def inner (w : World) (v : Value) : String := w.innerWith .line (w.sharedText .line) v

/-- The text of a value inside another, in as many lines as it has parts. -/
def innerLines (w : World) (v : Value) : String := w.innerWith .block (w.sharedText .block) v

/-- The text of a value. -/
def text (w : World) (v : Value) : String :=
  match v with
  | .undefined => ""
  | .text s _ => s
  | .float d => Layout.plain.write d
  | v => w.inner v

end World

namespace Value

/-- A whole number with 64 bits and a sign, as close to a double as there is one. -/
def wholeNear (d : Double) : Int :=
  if d.isNaN then 0
  else if d.isFinite then max (-(2 ^ (63 : Nat))) (min (2 ^ (63 : Nat) - 1) d.truncate)
  else if d.isNegative then -(2 ^ (63 : Nat))
  else 2 ^ (63 : Nat) - 1

/-- A value as a whole number, if it is one; truth values are. -/
def whole? : Value → Option Int
  | .bool b => some (if b then 1 else 0)
  | .int n => if n < 2 ^ (127 : Nat) then some n else Option.none
  | .float d =>
      if Double.sameNumber (.ofInt (wholeNear d)) d then some (wholeNear d) else Option.none
  | _ => Option.none

/-- A value as a whole number of 64 bits with a sign. -/
def index? (v : Value) : Option Int :=
  v.whole?.bind fun n => if -(2 ^ (63 : Nat)) ≤ n ∧ n < 2 ^ (63 : Nat) then some n else Option.none

/-- A value as a double, if it is a number. -/
def double? : Value → Option Double
  | .bool b => some (.ofInt (if b then 1 else 0))
  | .int n => some (.ofInt n)
  | .float d => some d
  | _ => Option.none

/-- Whether a double is as large as a whole number; one that is above all whole numbers of its
width stands for the largest of them. -/
def standsFor (n : Int) (d : Double) : Bool :=
  let width : Nat := if n < 2 ^ (64 : Nat) then 64 else 128
  if n < 0 then d.truncate == n else min d.truncate (2 ^ width - 1) == n

/-- A value as a double that is exactly as large, if there is one. -/
def exactDouble? : Value → Option Double
  | .int n => if standsFor n (.ofInt n) then some (.ofInt n) else Option.none
  | v => v.double?

/-- Two operands brought to one form. -/
inductive Pair where
  | whole (a b : Int)
  | double (a b : Double)
  | text (a b : String)

/-- Two whole numbers as operands.  Those that are too large for 128 bits with a sign go only with
others that need more than 64 bits, and count as negative. -/
def wholePair? (a b : Int) : Option Pair :=
  let wrapped (n : Int) : Int := if n < 2 ^ (127 : Nat) then n else n - 2 ^ (128 : Nat)
  if (a < 2 ^ (127 : Nat) ∧ b < 2 ^ (127 : Nat)) ∨ (2 ^ (64 : Nat) ≤ a ∧ 2 ^ (64 : Nat) ≤ b) then
    some (.whole (wrapped a) (wrapped b))
  else Option.none

/-- Two operands brought to one form, if they have one.  A whole number next to a double becomes
the nearest double, which may be asked to be exactly as large. -/
def pair? (exact : Bool) (a b : Value) : Option Pair :=
  let double? (v : Value) : Option Double := if exact then v.exactDouble? else v.double?
  match a, b with
  | .text a _, .text b _ => some (.text a b)
  | .float a, b => (double? b).map (.double a)
  | a, .float b => (double? a).map (.double · b)
  | .int a, .int b => wholePair? a b
  | a, b =>
      match a.whole?, b.whole? with
      | some a, some b => some (.whole a b)
      | _, _ => Option.none

end Value

namespace World

/-- A value that has named entries as a map of them. -/
def opened (w : World) (v : Value) : Value :=
  match v with
  | .map _ => v
  | v =>
      match w.entries? v with
      | some es => .map es
      | none => v

/-- Whether two values are one entry of the store. -/
def isShared : Value → Value → Bool
  | .namespace_ i, .namespace_ j => i == j
  | .loop i, .loop j => i == j
  | _, _ => false

/-- Whether two scalars are equal. -/
def sameScalar (a b : Value) : Bool :=
  match a, b with
  | .none, .none | .undefined, .undefined => true
  | a, b =>
      match Value.pair? true a b with
      | some (.whole a b) => a == b
      | some (.double a b) => a.sameNumber b
      | some (.text a b) => a == b
      | none => false

mutual
/-- Whether a value is equal to another; the first one has been opened. -/
def sameOpened (w : World) : Value → Value → Bool
  | .list xs, b =>
      match b.sequence? with
      | some ys => sameItems w xs ys
      | none => false
  | .iterator xs _, b =>
      match b.sequence? with
      | some ys => sameItems w xs ys
      | none => false
  | .group common members, b =>
      match b.sequence? with
      | some [x, y] =>
          sameOpened w common x
            && (match y.sequence? with
              | some ys => sameItems w members ys
              | none => false)
      | _ => false
  | .map es, b =>
      match w.entries? b with
      | some fs => es.length == fs.length && sameEntries w es fs
      | none => false
  | .handle h, b => b.kind = .object && h.name w.system == w.inner b
  | .builtin f, b => b.kind = .object && f.text == w.inner b
  | a, b => isShared a b || sameScalar a b

/-- Whether the items of two lists are equal. -/
def sameItems (w : World) : List Value → List Value → Bool
  | [], [] => true
  | x :: xs, y :: ys => sameOpened w x y && sameItems w xs ys
  | _, _ => false

/-- Whether every entry of a map has an equal one in another. -/
def sameEntries (w : World) : List (Value × Value) → List (Value × Value) → Bool
  | [], _ => true
  | e :: es, fs => sameEntry w e fs && sameEntries w es fs

/-- Whether an entry of a map has an equal one in another. -/
def sameEntry (w : World) : Value × Value → List (Value × Value) → Bool
  | (k, v), fs =>
      match fs.find? fun f => sameOpened w k f.1 with
      | some f => sameOpened w v f.2
      | none => false
end

/-- Whether two values are equal. -/
def same (w : World) (a b : Value) : Bool := isShared a b || w.sameOpened (w.opened a) b

/-- The order of two scalars of one form. -/
def comparePair : Value.Pair → Ordering
  | .whole a b => compare a b
  | .double a b => compare a.totalRank b.totalRank
  | .text a b => compare a b

/-- An order of two values in which those that are equal so far are ordered by kind. -/
def byKind (a b : Value) (o : Ordering) : Ordering :=
  o.then (compare a.kind.rank b.kind.rank)

mutual
/-- The order of two values, of which the first one has been opened.  Values that are equal as far
as they can be compared are ordered by kind. -/
def orderOpened (w : World) : Value → Value → Ordering
  | .list xs, b =>
      byKind (.list xs) b <|
        match b.sequence? with
        | some ys => orderItems w xs ys
        | none => .eq
  | .iterator xs sized, b =>
      byKind (.iterator xs sized) b <|
        match b.sequence? with
        | some ys => orderItems w xs ys
        | none => .eq
  | .group common members, b =>
      byKind (.group common members) b <|
        match b.sequence? with
        | some [] => .gt
        | some [x] => (orderOpened w common x).then .gt
        | some (x :: y :: rest) =>
            let others :=
              match y.sequence? with
              | some ys => orderItems w members ys
              | none => .eq
            (orderOpened w common x).then <|
              (byKind (.iterator members true) y others).then (compare 0 rest.length)
        | none => .eq
  | .map es, b =>
      byKind (.map es) b <|
        match w.entries? b with
        | some fs => orderEntries w es fs
        | none => .eq
  | a, b =>
      byKind a b <|
        if isShared a b then .eq
        else
          match Value.pair? true a b with
          | some p => comparePair p
          | none =>
              if a.kind = .object ∧ b.kind = .object then compare (w.inner a) (w.inner b)
              else .eq

/-- The order of two lists of values. -/
def orderItems (w : World) : List Value → List Value → Ordering
  | [], [] => .eq
  | [], _ :: _ => .lt
  | _ :: _, [] => .gt
  | x :: xs, y :: ys => (orderOpened w x y).then (orderItems w xs ys)

/-- The order of two lists of entries. -/
def orderEntries (w : World) : List (Value × Value) → List (Value × Value) → Ordering
  | [], [] => .eq
  | [], _ :: _ => .lt
  | _ :: _, [] => .gt
  | e :: es, f :: fs => (orderEntry w e f).then (orderEntries w es fs)

/-- The order of two entries. -/
def orderEntry (w : World) : Value × Value → Value × Value → Ordering
  | (k, v), (l, u) => (orderOpened w k l).then (orderOpened w v u)
end

/-- The order of two values. -/
def order (w : World) (a b : Value) : Ordering :=
  if isShared a b then .eq else w.orderOpened (w.opened a) b

/-- Whether two values are one key; a truth value is no key of a number. -/
def sameKey (w : World) (a b : Value) : Bool :=
  (a.kind == .bool) == (b.kind == .bool) && w.same a b

/-- The value under a key of a map.  In a map of one entry the keys are only compared. -/
def find? (w : World) (key : Value) (entries : List (Value × Value)) : Option Value :=
  match entries with
  | [(k, v)] => if w.same k key then some v else none
  | entries => (entries.find? fun e => w.sameKey e.1 key).map Prod.snd

/-- The entries with one set, in place or at the end. -/
def put (w : World) (key value : Value) : List (Value × Value) → List (Value × Value)
  | [] => [(key, value)]
  | (k, v) :: rest =>
      if w.sameKey k key then (k, value) :: rest else (k, v) :: w.put key value rest

end World

end Stencil.Template
