import Stencil.Template.Operator

/-!
# Arguments of calls

Arguments come by position and by name.  Those by name count as one more
argument at the end, a map.  Each conversion says what an argument has to be, and
an argument that is undefined or none counts as missing where it is optional.
-/

namespace Stencil.Template

-- powers of numbers are those of the core library
attribute [local instance (2000)] instPowNat

/-- The arguments of a call: those by position, then those by name, if any are written. -/
structure Arguments where
  values : List Value
  named : Option (List (String × Value)) := none

/-- The problem of a value that is not of the kind that is asked for. -/
def cannotConvert (v : Value) (target : String) : Problem :=
  .filterArgument ("cannot convert " ++ v.kind.word ++ " to " ++ target)

/-- A value as a count. -/
def countOf (v : Value) : Except Problem Nat :=
  match World.count? v with
  | some n => .ok n
  | none => .error (cannotConvert v "usize")

/-- A value as a truth value. -/
def truthOf (v : Value) : Except Problem Bool :=
  match v with
  | .bool b => .ok b
  | v => .error (cannotConvert v "bool")

/-- A value as a text; no other value stands for one. -/
def textOf (v : Value) : Except Problem String :=
  match v.text? with
  | some s => .ok s
  | none => .error (.filterArgument "value is not a string")

/-- A value as a whole number that fits so many bits with a sign; such numbers go by a name. -/
def wholeOf (target : String) (bits : Nat) (v : Value) : Except Problem Int :=
  let limit : Int := 2 ^ (bits - 1)
  match v.whole? with
  | some n => if -limit ≤ n ∧ n < limit then .ok n else .error (cannotConvert v target)
  | none => .error (cannotConvert v target)

namespace Arguments

/-- The names with their values. -/
def names (as : Arguments) : List (String × Value) := as.named.getD []

/-- All arguments by position; those by name come last as a map. -/
def flat (as : Arguments) : List Value :=
  match as.named with
  | none => as.values
  | some named => as.values ++ [.map (Value.entriesOf named)]

/-- The arguments behind so many by position. -/
def drop (n : Nat) (as : Arguments) : Arguments := { as with values := as.values.drop n }

/-- Refuses more arguments than a number. -/
def atMost (n : Nat) (as : Arguments) : Except Problem Unit :=
  if as.flat.length ≤ n then .ok () else .error .tooManyArguments

/-- An argument that may be missing. -/
def optional? (i : Nat) (as : Arguments) : Option Value :=
  (as.flat[i]?).bind fun v => if v.isMissing then none else some v

/-- An argument that has to be there. -/
def required (i : Nat) (as : Arguments) : Outcome :=
  match as.flat[i]? with
  | some v => .ok v
  | none => .error .missingArgument

/-- Whether an argument is the map of those by name. -/
def isNames (i : Nat) (as : Arguments) : Bool := as.named.isSome && i == as.values.length

/-- The text of an argument. -/
def textAt (w : World) (i : Nat) (as : Arguments) (v : Value) : Except Problem String :=
  if as.isNames i then .error (.filterArgument "cannot convert kwargs to string")
  else .ok (w.text v)

/-- The text of an argument that has to be there. -/
def text (w : World) (i : Nat) (as : Arguments) : Except Problem String := do
  as.textAt w i (← as.required i)

/-- The text of an argument that may be missing. -/
def text? (w : World) (i : Nat) (as : Arguments) : Except Problem (Option String) :=
  (as.optional? i).mapM (as.textAt w i)

/-- The value of a name, if it is given and not missing. -/
def named? (key : String) (as : Arguments) : Option Value :=
  (as.names.lookup key).bind fun v => if v.isMissing then none else some v

/-- The truth value of a name, false without one. -/
def flag (key : String) (as : Arguments) : Except Problem Bool := do
  pure ((← (as.named? key).mapM truthOf).getD false)

/-- Refuses arguments whose names are not among the known ones. -/
def onlyNamed (known : List String) (as : Arguments) : Except Problem Unit :=
  match as.names.find? fun p => !known.contains p.1 with
  | some (name, _) =>
      .error (.filterArgument ("unknown keyword argument '" ++ name ++ "'"))
  | none => .ok ()

/-- Refuses more arguments by position than a number. -/
def atMostValues (n : Nat) (as : Arguments) : Except Problem Unit :=
  if as.values.length ≤ n then .ok () else .error .tooManyArguments

end Arguments

/-- The items of a value. -/
def itemsOf (w : World) (v : Value) : Except Problem (List Value) :=
  match w.items? v with
  | some items => .ok items
  | none => .error (.notIterable v.kind)

end Stencil.Template
