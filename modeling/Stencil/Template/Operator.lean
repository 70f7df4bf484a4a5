import Stencil.Template.Order
import Stencil.Template.Problem

/-!
# Operators on values

Whole numbers keep to 128 bits.  A division by `/` gives a double; by `//` and
`%` it gives the quotient and the remainder that is not negative.
-/

namespace Stencil.Template

-- powers of numbers are those of the core library
attribute [local instance (2000)] instPowNat

/-- The outcome of an operation. -/
abbrev Outcome := Except Problem Value

namespace World

/-- A whole number that may be too large. -/
def wholeOr (problem : Problem) (n : Int) : Outcome :=
  if -(2 ^ (127 : Nat)) ≤ n ∧ n < 2 ^ (127 : Nat) then .ok (.int n) else .error problem

/-- The problem of operands that an operator is not meant for. -/
def impossible (operator : String) (a b : Value) : Problem :=
  .impossible operator a.kind b.kind

/-- The problem of operands for which an operator has no result. -/
def noResult (w : World) (operator : String) (a b : Value) : Problem :=
  .failedOperation operator (w.text a) (w.text b)

/-- The sum of numbers, or texts and lists put together. -/
def add (w : World) (a b : Value) : Outcome :=
  match a.sequence?, b.sequence? with
  | some xs, some ys => .ok (.iterator (xs ++ ys) (a.isSized && b.isSized))
  | _, _ =>
      match Value.pair? false a b with
      | some (.whole x y) => wholeOr (w.noResult "+" a b) (x + y)
      | some (.double x y) => .ok (.float (x.add y))
      | some (.text x y) => .ok (.ofText (x ++ y))
      | none => .error (impossible "+" a b)

/-- The difference of numbers. -/
def subtract (w : World) (a b : Value) : Outcome :=
  match Value.pair? false a b with
  | some (.whole x y) => wholeOr (w.noResult "-" a b) (x - y)
  | some (.double x y) => .ok (.float (x.sub y))
  | _ => .error (impossible "-" a b)

/-- How often something is repeated. -/
def count? (v : Value) : Option Nat := v.whole?.bind fun n => if n < 0 then none else some n.toNat

/-- A list repeated. -/
def repeatItems (n : Nat) (items : List Value) : List Value := (List.replicate n items).flatten

/-- A text as often as a value says. -/
def repeatText (s : String) (times : Value) : Outcome :=
  match count? times with
  | some n => .ok (.ofText (String.join (List.replicate n s)))
  | none => .error .textRepeat

/-- The items of a value as often as another one says. -/
def repeatSequence (v : Value) (items : List Value) (times : Value) : Outcome :=
  match count? times with
  | some n => if v.isSized then .ok (.iterator (repeatItems n items) true) else .error .unsizedRepeat
  | none => .error .listRepeat

/-- The product of numbers, or a text or list repeated. -/
def multiply (w : World) (a b : Value) : Outcome :=
  let (v, times) := if a.isObject then (a, b) else (b, a)
  match a, b, v.sequence? with
  | .text s _, b, _ => repeatText s b
  | a, .text s _, _ => repeatText s a
  | _, _, some items => repeatSequence v items times
  | a, b, none =>
      match Value.pair? false a b with
      | some (.whole x y) => wholeOr (w.noResult "*" a b) (x * y)
      | some (.double x y) => .ok (.float (x.mul y))
      | _ => .error (impossible "*" a b)

/-- The quotient as a double. -/
def divide (a b : Value) : Outcome :=
  match a.double?, b.double? with
  | some x, some y => .ok (.float (x.div y))
  | _, _ => .error (impossible "/" a b)

/-- The whole quotient. -/
def floorDivide (w : World) (a b : Value) : Outcome :=
  match Value.pair? false a b with
  | some (.whole x y) =>
      if y = 0 then .error (w.noResult "//" a b) else wholeOr (w.noResult "//" a b) (x / y)
  | some (.double x y) => .ok (.float (x.floorDiv y))
  | _ => .error (impossible "//" a b)

/-- The remainder. -/
def remainder (w : World) (a b : Value) : Outcome :=
  match Value.pair? false a b with
  | some (.whole x y) =>
      if y = 0 ∨ (x = -(2 ^ (127 : Nat)) ∧ y = -1) then .error (w.noResult "%" a b)
      else .ok (.int (x % y))
  | some (.double x y) => .ok (.float (x.rem y))
  | _ => .error (impossible "%" a b)

/-- The power of a whole number; an exponent that is negative or very large has no result. -/
def wholePower? (x y : Int) : Option Int :=
  if y < 0 ∨ 2 ^ (32 : Nat) ≤ y then none
  else if y = 0 then some 1
  else if x.natAbs ≤ 1 then some (if y % 2 = 0 then x * x else x)
  else if 128 < y then none
  else some (x ^ y.toNat)

/-- The power. -/
def power (w : World) (a b : Value) : Outcome :=
  match Value.pair? false a b with
  | some (.whole x y) =>
      match wholePower? x y with
      | some n => wholeOr (w.noResult "**" a b) n
      | none => .error (w.noResult "**" a b)
  | some (.double x y) => .ok (.float (x.pow y))
  | _ => .error (impossible "**" a b)

/-- The number with the other sign.  The first number that is too large for 128 bits with a sign
stays as it is. -/
def negate (v : Value) : Outcome :=
  match v with
  | .int n =>
      if n < 2 ^ (127 : Nat) then wholeOr .overflow (-n)
      else if n = 2 ^ (127 : Nat) then .ok v
      else .error .invalidOperation
  | .float d => .ok (.float d.neg)
  | _ => .error .invalidOperation

/-- Whether a value lies in another: a text in a text, an item in a list, a key in a map. -/
def contains (w : World) (container v : Value) : Except Problem Bool :=
  match container with
  | .undefined => .ok false
  | .text s _ => .ok (Text.contains (w.text v) s)
  | .handle _ | .builtin _ => .ok false
  | container =>
      match w.entries? container, container.sequence? with
      | some es, _ => .ok (w.find? v es).isSome
      | none, some items => .ok (items.any (w.same · v))
      | none, none => .error .noContainment

/-- The result of an operator other than `and` and `or`. -/
def binary (w : World) (op : BinaryOp) (a b : Value) : Outcome :=
  match op with
  | .equal => .ok (.bool (w.same a b))
  | .unequal => .ok (.bool !(w.same a b))
  | .less => .ok (.bool (w.order a b == .lt))
  | .lessEqual => .ok (.bool (w.order a b != .gt))
  | .greater => .ok (.bool (w.order a b == .gt))
  | .greaterEqual => .ok (.bool (w.order a b != .lt))
  | .and => .ok (if w.isTrue a then b else a)
  | .or => .ok (if w.isTrue a then a else b)
  | .add => w.add a b
  | .subtract => w.subtract a b
  | .multiply => w.multiply a b
  | .divide => divide a b
  | .floorDivide => w.floorDivide a b
  | .remainder => w.remainder a b
  | .power => w.power a b
  | .concat => .ok (.ofText (w.text a ++ w.text b))
  | .contained => (w.contains b a).map .bool
  | .excluded => (w.contains b a).map fun found => .bool !found

/-! ## Attributes and items -/

/-- The position that an index means in a list of a length; negative ones count from the end. -/
def position? (length : Nat) (index : Int) : Option Nat :=
  if 0 ≤ index then some index.toNat
  else if 0 ≤ index + length then some (index + length).toNat
  else none

/-- The item at an index.  Without a known number of items none is counted from the end. -/
def itemAt? (items : List Value) (sized : Bool) (index : Int) : Option Value :=
  if index < 0 ∧ !sized then none
  else (position? items.length index).bind (items[·]?)

/-- What a value has under a key, if it can be asked. -/
def get? (w : World) (v key : Value) : Option Value :=
  match v, key with
  | .handle h, key => key.text?.bind fun s => (h.attribute? w.system s).map .ofAttribute
  | .group shared _, .text "grouper" _ => some shared
  | .group _ members, .text "list" _ => some (.iterator members true)
  | .text s _, key =>
      key.index?.bind (itemAt? (s.toList.map fun c => .ofText (String.singleton c)) true)
  | v, key =>
      match w.entries? v, v.sequence? with
      | some es, _ => w.find? key es
      | none, some items => key.index?.bind (itemAt? items v.isSized)
      | none, none => none

/-- What a value has under a key.  What is not there is undefined, but nothing can be asked of an
undefined value. -/
def get (w : World) (v key : Value) : Outcome :=
  match w.get? v key with
  | some found => .ok found
  | none =>
      match v with
      | .undefined => .error .undefinedValue
      | _ => .ok .undefined

/-- What a path of dotted names leads to. -/
def getPath (w : World) (v : Value) (path : String) : Outcome :=
  (Text.split '.' path).foldlM (fun v part =>
    let key : Value :=
      match Decimal.readUnsigned? 10 part.toList with
      | some n => .int n
      | none => .ofText part
    w.get v key) v

/-! ## Slices -/

/-- A bound of a slice. -/
def bound? (v : Value) : Except Problem (Option Int) :=
  match v with
  | .none => .ok none
  | v =>
      match v.index? with
      | some n => .ok (some n)
      | none => .error (.filterArgument ("cannot convert " ++ v.kind.word ++ " to i64"))

/-- Every so many items, from the first. -/
def everyNth {α : Type} (n : Nat) (xs : List α) : List α :=
  (xs.zipIdx.filter fun (_, i) => i % n == 0).map Prod.fst

/-- The first place of a slice of so many items and the place behind its last one.  Negative bounds
count from the end, and a bound before the first item stands for that one. -/
def slicePlaces (length : Nat) (start stop : Option Int) : Nat × Nat :=
  let place (i : Int) : Nat := if i < 0 then (i + length).toNat else i.toNat
  ((start.map place).getD 0, (stop.map place).getD length)

/-- Every so many items from a first place up to a last one. -/
def sliceForward {α : Type} (places : Nat × Nat) (step : Nat) (xs : List α) : List α :=
  everyNth step ((xs.take places.2).drop places.1)

/-- The items from a start back to behind a stop. -/
def sliceBackward {α : Type} (start stop : Option Int) (step : Nat) (xs : List α) : List α :=
  let n := xs.length
  let first : Int :=
    match start with
    | some s => min (if s < 0 then s + n else s) (n - 1)
    | none => n - 1
  let last : Int :=
    match stop with
    | some s => if s < 0 then max (s + n) (-1) else s
    | none => -1
  if first < 0 ∨ first ≤ last then []
  else everyNth step ((xs.take (first.toNat + 1)).drop (last + 1).toNat).reverse

/-- A part of a text or of a list.  Items whose number is unknown are not counted for it, and the
number of those that are left is unknown as well, unless there are none. -/
def slice (v start stop step : Value) : Outcome := do
  let start ← bound? start
  let stop ← bound? stop
  let step := (← bound? step).getD 1
  if step = 0 then throw .zeroStep
  match v with
  | .undefined | .none => pure (.list [])
  | .text s _ =>
      let cs := s.toList
      pure <| .ofText <| String.ofList <|
        if 0 < step then sliceForward (slicePlaces cs.length start stop) step.toNat cs
        else sliceBackward start stop step.natAbs cs
  | v =>
      match v.sequence? with
      | some items =>
          if 0 < step then
            let places := slicePlaces (if v.isSized then items.length else 0) start stop
            let sized := v.isSized || places.2 ≤ places.1
            pure (.iterator (sliceForward places step.toNat items) sized)
          else pure (.iterator (sliceBackward start stop step.natAbs items) true)
      | none => throw (.notSliceable v.kind)

end World

end Stencil.Template
