import Stencil.Decimal.Read
import Stencil.Template.Arrange
import Stencil.Template.Check
import Stencil.Template.Placeholder
import Stencil.Template.TextShape

/-!
# Filters

A filter turns a value and arguments into a value.  Every template knows these;
those that apply another filter or a test to each item of a list are only named
here.
-/

namespace Stencil.Template

-- powers of numbers are those of the core library
attribute [local instance (2000)] instPowNat

/-! ## Numbers -/

/-- A double rounded to a number of places, halves away from zero. -/
def roundedDouble (places : Int) (d : Double) : Double :=
  let scale := Double.powInt (.ofInt 10) places
  (Double.ofFloat (scale.mul d).toFloat.round).div scale

/-- The whole part of a double, as far as 128 bits with a sign reach; zero if it is no number. -/
def wholePart (d : Double) : Int :=
  if d.isNaN then 0
  else if d.isFinite then max (-(2 ^ (127 : Nat))) (min (2 ^ (127 : Nat) - 1) d.truncate)
  else if d.isNegative then -(2 ^ (127 : Nat))
  else 2 ^ (127 : Nat) - 1

/-- A text as a double. -/
def readDouble (s : String) : Except Problem Double :=
  match Decimal.readExtended? s.toList with
  | some d => .ok d
  | none =>
      .error <| .filterArgument <|
        if s.isEmpty then "cannot parse float from empty string" else "invalid float literal"

/-- A value as a whole number; the fraction of a double is dropped. -/
def toWhole (v : Value) : Outcome :=
  match v with
  | .undefined | .none => .ok (.int 0)
  | .bool b => .ok (.int (if b then 1 else 0))
  | .int n => .ok (.int n)
  | .float d => .ok (.int (wholePart d))
  | .text s _ => do
      match Decimal.readInt? 10 s.toList with
      | some n =>
          if -(2 ^ (127 : Nat)) ≤ n ∧ n < 2 ^ (127 : Nat) then pure (.int n)
          else pure (.int (wholePart (← readDouble s)))
      | none => pure (.int (wholePart (← readDouble s)))
  | v => .error (.filterArgument ("cannot convert " ++ v.kind.word ++ " to integer"))

/-- A value as a double. -/
def toDouble (v : Value) : Outcome :=
  match v with
  | .undefined | .none => .ok (.float (.ofInt 0))
  | .text s _ => (readDouble s).map .float
  | v =>
      match v.double? with
      | some d => .ok (.float d)
      | none => .error (.filterArgument ("cannot convert " ++ v.kind.word ++ " to float"))

/-- The magnitude of a number. -/
def magnitude (v : Value) : Outcome :=
  match v with
  | .int n =>
      if n = -(2 ^ (127 : Nat)) then .error (.filterArgument "overflow on abs")
      else .ok (.int n.natAbs)
  | .float d => .ok (.float d.abs)
  | _ => .error (.filterArgument "cannot get absolute value")

/-- The sum of numbers; an undefined one does not count. -/
def summed (w : World) (items : List Value) : Outcome :=
  items.foldlM (fun total v =>
    match v.kind with
    | .undefined => .ok total
    | .number => w.add total v
    | k => .error (.filterArgument ("can only sum numbers, got " ++ k.word))) (.int 0)

/-! ## Items -/

/-- A value from its end.  The keys of a map stay in their order. -/
def reversed (w : World) (v : Value) : Outcome :=
  match v with
  | .text s _ => .ok (.ofText (String.ofList s.toList.reverse))
  | .undefined | .none => .ok v
  | .map _ | .module .. => .ok (.iterator ((w.parts? v).getD []) true)
  | v =>
      match w.parts? v with
      | some items => .ok (.iterator items.reverse true)
      | none => .error (.notReversible v.kind)

/-- The first item. -/
def firstItem (w : World) (v : Value) : Outcome :=
  match v.isMissing, w.items? v with
  | false, some items => .ok (items.head?.getD .undefined)
  | _, _ => .error (.filterArgument "cannot get first item from value")

/-- The last item of a text or a list. -/
def lastItem (v : Value) : Outcome :=
  match v.text?, v.sequence? with
  | some s, _ => .ok ((s.toList.getLast?.map fun c => .ofText (String.singleton c)).getD .undefined)
  | none, some items => .ok (items.getLast?.getD .undefined)
  | none, none => .error (.filterArgument "cannot get last item from value")

/-- The entries of a map in order. -/
def sortedEntries (w : World) (v : Value) (as : Arguments) : Outcome := do
  as.atMostValues 0
  let pairs ← pairsOf w "pair list" v
  let byValue ←
    match ← (as.named? "by").mapM textOf with
    | none | some "key" => pure false
    | some "value" => pure true
    | some other =>
        throw (.filterArgument ("invalid value '" ++ other ++ "' for 'by' parameter"))
  let cased ← as.flag "case_sensitive"
  let part (p : Value × Value) : Value := if byValue then p.2 else p.1
  let sorted := sortedWith (fun a b => orderBy w cased (part a) (part b)) pairs
  let reverse ← as.flag "reverse"
  as.onlyNamed ["by", "reverse", "case_sensitive"]
  pure (.list ((if reverse then sorted.reverse else sorted).map fun (k, x) => .list [k, x]))

/-- The items in order. -/
def sortedItems (w : World) (v : Value) (as : Arguments) : Outcome := do
  as.atMostValues 0
  let items ← itemsOf w v
  let cased ← as.flag "case_sensitive"
  let order ←
    match ← (as.named? "attribute").mapM textOf with
    | some paths => pure (orderByPaths w cased paths)
    | none => pure (orderBy w cased)
  let sorted := sortedWith order items
  let reverse ← as.flag "reverse"
  as.onlyNamed ["attribute", "reverse", "case_sensitive"]
  pure (.list (if reverse then sorted.reverse else sorted))

/-- The first of equal items. -/
def distinctItems (w : World) (v : Value) (as : Arguments) : Outcome := do
  as.atMostValues 0
  let path ← (as.named? "attribute").mapM textOf
  let cased ← as.flag "case_sensitive"
  as.onlyNamed ["attribute", "case_sensitive"]
  let folded (x : Value) : Value :=
    match cased, x with
    | false, .text s b => .text (Text.lowercase s) b
    | _, x => x
  let key (x : Value) : Value :=
    match path with
    | some path => pathOr w path .undefined x
    | none => x
  pure (.list (uniqueItems w ((← itemsOf w v).map fun x => (folded (key x), x))))

/-- The items in groups with the same value under a path. -/
def groupedItems (w : World) (v : Value) (as : Arguments) : Outcome := do
  as.atMostValues 1
  let given ←
    match as.values with
    | v :: _ => if v.isMissing then pure none else some <$> textOf v
    | [] => pure none
  let other := (as.named? "default").getD .undefined
  let cased ← as.flag "case_sensitive"
  let path ←
    match given, as.names.lookup "attribute" with
    | some path, _ => pure path
    | none, some v => textOf v
    | none, none => throw (.filterArgument "missing keyword argument 'attribute'")
  let groups := grouped w cased (pathOr w path other) (← itemsOf w v)
  let known := ["default", "case_sensitive"] ++ (if given.isSome then [] else ["attribute"])
  as.onlyNamed known
  pure (.list (groups.map fun (k, members) => .group k members))

/-- The pieces of a text between a separator, or its words. -/
def splitText (v : Value) (as : Arguments) : Outcome := do
  let s ← textOf v
  let separator ← (as.optional? 0).mapM textOf
  let limit ← (as.optional? 1).mapM (wholeOf "i64" 64)
  as.atMost 2
  let limit := limit.bind fun n => if 0 ≤ n then some n.toNat else none
  let parts :=
    match separator, limit with
    | some separator, limit => piecesBy separator.toList (limit.map (· + 1)) s.toList
    | none, some n => wordsUpTo n s.toList
    | none, none => words s.toList
  pure (.iterator (parts.map fun cs => .ofText (String.ofList cs)) false)

/-- A number of rows or columns, which is not zero. -/
def partCount (as : Arguments) : Except Problem Nat := do
  let n ← countOf (← as.required 0)
  as.atMost 2
  if n = 0 then throw (.filterArgument "count cannot be 0")
  pure n

/-! ## The filters by name -/

/-- The filters on texts. -/
def textFilter? (w : World) (name : String) (v : Value) (as : Arguments) : Option Outcome :=
  let mapped (f : String → String) : Option Outcome := some do
    as.atMost 0
    pure (.ofText (f (w.text v)))
  match name with
  | "lower" => mapped Text.lowercase
  | "upper" => mapped Text.uppercase
  | "title" => mapped fun s => String.ofList (titleFrom true s.toList)
  | "capitalize" => mapped capitalized
  | "upperfirst" => mapped Text.upperFirst
  | "lowerfirst" => mapped Text.lowerFirst
  | "string" => some do
      as.atMost 0
      pure (if v.kind = .text then v else .ofText (w.text v))
  | "safe" => some do
      as.atMost 0
      pure (.text (w.text v) true)
  | "escape" | "e" => some do
      as.atMost 0
      pure (.text (escaped w v) true)
  | "pprint" => some do
      as.atMost 0
      pure (.ofText (w.innerLines v))
  | "trim" => some do
      let chars ← as.text? w 0
      as.atMost 1
      let drop : Char → Bool :=
        match chars with
        | some cs => cs.toList.contains
        | none => Text.isBlank
      pure (.ofText (String.ofList (Text.trimList drop (w.text v).toList)))
  | "replace" => some do
      let from_ ← as.text w 0
      let by_ ← as.text w 1
      as.atMost 2
      pure (.ofText (Text.replace from_ by_ (w.text v)))
  | "indent" => some do
      let width ← countOf (← as.required 0)
      let first ← (as.optional? 1).mapM truthOf
      let blank ← (as.optional? 2).mapM truthOf
      as.atMost 3
      pure (.ofText (indented width (first.getD false) (blank.getD false) (w.text v)))
  | "split" => some (splitText v as)
  | "lines" => some do
      let s ← textOf v
      as.atMost 0
      pure (.ofTexts (Text.lines s))
  | "format" => some do
      let s ← textOf v
      pure (.ofText (← formatted w s as))
  | _ => none

/-- The filters on numbers and on values of any kind. -/
def valueFilter? (w : World) (name : String) (v : Value) (as : Arguments) : Option Outcome :=
  let alone (r : Outcome) : Option Outcome := some do
    as.atMost 0
    r
  match name with
  | "default" | "d" => some do
      as.atMost 2
      let lax := (as.optional? 1).any w.isTrue
      let isOther := v.kind = .undefined || (lax && !w.isTrue v)
      pure (if isOther then (as.optional? 0).getD (.ofText "") else v)
  | "abs" => alone (magnitude v)
  | "round" => some do
      let places ← (as.optional? 0).mapM (wholeOf "i32" 32)
      as.atMost 1
      match v with
      | .int n => pure (.int n)
      | .float d => pure (.float (roundedDouble (places.getD 0) d))
      | v => throw (.filterArgument ("cannot round value (" ++ v.kind.word ++ ")"))
  | "int" => alone (toWhole v)
  | "float" => alone (toDouble v)
  | "bool" => alone (.ok (.bool (w.isTrue v)))
  | "length" | "count" => alone <|
      match w.length? v with
      | some n => .ok (.int n)
      | none => .error (.noLength v.kind)
  | "attr" => some do
      let key ← as.required 0
      as.atMost 1
      w.get v key
  | _ => none

/-- The filters on lists and maps. -/
def listFilter? (w : World) (name : String) (v : Value) (as : Arguments) : Option Outcome :=
  let alone (r : Outcome) : Option Outcome := some do
    as.atMost 0
    r
  match name with
  | "first" => alone (firstItem w v)
  | "last" => alone (lastItem v)
  | "min" => alone do pure ((least? w (← itemsOf w v)).getD .undefined)
  | "max" => alone do pure ((greatest? w (← itemsOf w v)).getD .undefined)
  | "list" => alone ((itemsOf w v).map .list)
  | "reverse" => alone (reversed w v)
  | "sum" => alone do summed w (← itemsOf w v)
  | "items" => alone do
      pure (.iterator ((← pairsOf w "pairs" v).map fun (k, x) => .list [k, x]) true)
  | "join" => some do
      let separator ← as.text? w 0
      as.atMost 1
      if v.isMissing then pure (.ofText "")
      else pure (.ofText (joined (separator.getD "") ((← itemsOf w v).map w.text)))
  | "dictsort" => some (sortedEntries w v as)
  | "sort" => some (sortedItems w v as)
  | "unique" => some (distinctItems w v as)
  | "groupby" => some (groupedItems w v as)
  | "batch" => some do
      let n ← partCount as
      let items ← itemsOf w v
      pure (.list ((rows n (as.optional? 1) (items.length + 1) items).map .list))
  | "slice" => some do
      let n ← partCount as
      pure (.list ((columns n (as.optional? 1) (← itemsOf w v)).map .list))
  | "chain" => some (.ok (chained w (v :: as.flat)))
  | "zip" => some (zipped w (v :: as.flat))
  | _ => none

/-- The filters that need nothing but their value and arguments, by name. -/
def plainFilter? (w : World) (name : String) (v : Value) (as : Arguments) : Option Outcome :=
  (textFilter? w name v as).orElse fun _ =>
    (valueFilter? w name v as).orElse fun _ => listFilter? w name v as

/-- The names of the filters that apply another filter or a test. -/
def mappingFilters : List String := ["map", "select", "reject", "selectattr", "rejectattr"]

/-- The names of the plain filters. -/
def plainFilterNames : List String :=
  ["lower", "upper", "title", "capitalize", "upperfirst", "lowerfirst", "string", "safe", "escape",
    "e", "trim", "replace", "indent", "split", "lines", "format", "length", "count", "default",
    "d", "abs", "round", "int", "float", "bool", "attr", "first", "last", "min", "max", "list",
    "reverse", "join", "items", "dictsort", "sort", "unique", "groupby", "sum", "batch", "slice",
    "chain", "zip", "pprint"]

end Stencil.Template
