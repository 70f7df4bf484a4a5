import Stencil.Template.Arguments
import Stencil.Text.Letter

/-!
# Tests

A test tells whether a value has a property.  Every template knows these.
-/

namespace Stencil.Template

-- powers of numbers are those of the core library
attribute [local instance (2000)] instPowNat

/-- Whether a number is a multiple of another.  Whole numbers have no multiples of zero to tell. -/
def isMultiple (a b : Value) : Except Problem Bool :=
  match Value.pair? true a b with
  | some (.whole x y) =>
      if y = 0 ∨ (x = -(2 ^ (127 : Nat)) ∧ y = -1) then .error .divisionByZero else .ok (x % y == 0)
  | some (.double x y) => .ok ((x.rem y).magnitudeBits == 0)
  | _ => .ok false

/-- Whether a value is a whole number and not a double. -/
def isInteger : Value → Bool
  | .int _ => true
  | _ => false

/-- Whether two values are the same in value and kind. -/
def isSameAs (w : World) (a b : Value) : Bool :=
  a.kind == b.kind && isInteger a == isInteger b && w.same a b

/-- Whether all characters of a text have a property. -/
def allChars (f : Char → Bool) (v : Value) : Except Problem Bool := do
  pure ((← textOf v).toList.all f)

/-- The tests by name. -/
def test? (w : World) (filterKnown testKnown : String → Bool) (name : String)
    (v : Value) (as : Arguments) : Option (Except Problem Bool) :=
  let check (r : Except Problem Bool) : Option (Except Problem Bool) := some do
    let holds ← r
    as.atMost 0
    pure holds
  let alone (b : Bool) : Option (Except Problem Bool) := check (.ok b)
  let with_ (f : Value → Except Problem Bool) : Option (Except Problem Bool) := some do
    let a ← as.required 0
    as.atMost 1
    f a
  let withText (f : String → String → Bool) : Option (Except Problem Bool) := some do
    let s ← as.text w 0
    as.atMost 1
    pure (f s (w.text v))
  match name with
  | "undefined" => alone (v.kind = .undefined)
  | "defined" => alone (v.kind ≠ .undefined)
  | "none" => alone (v.kind = .none)
  | "safe" | "escaped" => alone (match v with | .text _ safe => safe | _ => false)
  | "boolean" => alone (v.kind = .bool)
  | "odd" => alone (v.whole?.any (· % 2 != 0))
  | "even" => alone (v.whole?.any (· % 2 == 0))
  | "number" => alone (v.kind = .number)
  | "integer" | "int" => alone (isInteger v)
  | "float" => alone (match v with | .float _ => true | _ => false)
  | "string" => alone (v.kind = .text)
  | "sequence" => alone (v.kind = .list)
  | "mapping" => alone (v.kind = .map)
  | "iterable" => alone (w.items? v).isSome
  | "true" => alone (match v with | .bool b => b | _ => false)
  | "false" => alone (match v with | .bool b => !b | _ => false)
  | "lower" => check (allChars Text.isSmall v)
  | "upper" => check (allChars Text.isCapital v)
  | "startingwith" => withText fun s whole => (Text.dropPrefix s whole).isSome
  | "endingwith" => withText fun s whole => (Text.dropSuffix s whole).isSome
  | "divisibleby" => with_ (isMultiple v)
  | "sameas" => with_ fun a => .ok (isSameAs w v a)
  | "eq" | "equalto" | "==" => with_ fun a => .ok (w.same v a)
  | "ne" | "!=" => with_ fun a => .ok !(w.same v a)
  | "lt" | "lessthan" | "<" => with_ fun a => .ok (w.order v a == .lt)
  | "le" | "<=" => with_ fun a => .ok (w.order v a != .gt)
  | "gt" | "greaterthan" | ">" => with_ fun a => .ok (w.order v a == .gt)
  | "ge" | ">=" => with_ fun a => .ok (w.order v a != .lt)
  | "in" => with_ fun a => .ok ((w.contains a v).toOption.getD false)
  | "filter" => check do pure (filterKnown (← textOf v))
  | "test" => check do pure (testKnown (← textOf v))
  | _ => none

/-- The names of the tests. -/
def testNames : List String :=
  ["undefined", "defined", "none", "safe", "escaped", "boolean", "odd", "even", "number",
    "integer", "int", "float", "string", "sequence", "mapping", "iterable", "true", "false",
    "lower", "upper", "startingwith", "endingwith", "divisibleby", "sameas", "eq", "equalto",
    "==", "ne", "!=", "lt", "lessthan", "<", "le", "<=", "gt", "greaterthan", ">", "ge", ">=",
    "in", "filter", "test"]

end Stencil.Template
