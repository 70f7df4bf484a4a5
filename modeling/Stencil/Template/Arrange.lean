import Stencil.Template.Arguments
import Stencil.Text.Case

/-!
# Lists put in order

Sorting by the value itself or by what a path leads to, groups of items that have
something in common, the first of equal items, and items in rows and columns.
-/

namespace Stencil.Template

/-- A text with the capitals of the basic alphabet made small. -/
def foldedText (s : String) : String := s.map Char.toLower

/-- The order of two values; texts differ by case only if that is asked for. -/
def orderBy (w : World) (cased : Bool) (a b : Value) : Ordering :=
  match cased, a, b with
  | false, .text s _, .text t _ => compare (foldedText s) (foldedText t)
  | _, a, b => w.order a b

/-- A value put into a list in falling order, before those that are not greater. -/
def putFalling {α : Type} (order : α → α → Ordering) (x : α) : List α → List α
  | [] => [x]
  | y :: rest => if order x y == .lt then y :: putFalling order x rest else x :: y :: rest

/-- Values in rising order; those of the same place keep their order. -/
def sortedWith {α : Type} (order : α → α → Ordering) (items : List α) : List α :=
  (items.foldl (fun acc x => putFalling order x acc) []).reverse

/-- The values that some paths lead to, if all of them lead somewhere. -/
def valuesAt? (w : World) (paths : List String) (v : Value) : Option (List Value) :=
  (paths.mapM (w.getPath v)).toOption

/-- The order of two values by what paths in them lead to; the paths stand between commas.  With
several paths the case of letters counts.  A path that cannot be followed leaves them where they
are. -/
def orderByPaths (w : World) (cased : Bool) (paths : String) (a b : Value) : Ordering :=
  match ((Text.split ',' paths).map Text.trim).filter (!·.isEmpty) with
  | [path] =>
      match w.getPath a path, w.getPath b path with
      | .ok x, .ok y => orderBy w cased x y
      | _, _ => .eq
  | parts =>
      match valuesAt? w parts a, valuesAt? w parts b with
      | some xs, some ys => w.orderItems xs ys
      | _, _ => .eq

/-- What a path leads to, or another value if it leads nowhere. -/
def pathOr (w : World) (path : String) (other v : Value) : Value :=
  match w.getPath v path with
  | .ok .undefined | .error _ => other
  | .ok found => found

/-- Items in groups of one key, in the order of the keys.  A group goes by the key of its last
item. -/
def grouped (w : World) (cased : Bool) (key : Value → Value) (items : List Value) :
    List (Value × List Value) :=
  let sorted := sortedWith (fun a b => orderBy w cased (key a) (key b)) items
  (sorted.foldl (fun (acc : List (Value × List Value)) v =>
    match acc with
    | (k, members) :: rest =>
        if orderBy w cased k (key v) == .eq then (key v, v :: members) :: rest
        else (key v, [v]) :: acc
    | [] => [(key v, [v])]) []).reverse.map fun (k, members) => (k, members.reverse)

/-- The first of the items with equal keys. -/
def uniqueItems (w : World) (keyed : List (Value × Value)) : List Value :=
  (keyed.foldl (fun (acc : List (Value × Value)) p =>
    if acc.any fun q => w.order q.1 p.1 == .eq then acc else p :: acc) []).reverse.map Prod.snd

/-- Items in rows of a length, the last one filled up if there is a filler. -/
def rows (n : Nat) (filler : Option Value) : Nat → List Value → List (List Value)
  | 0, _ => []
  | fuel + 1, items =>
      if items.isEmpty then []
      else
        let row := items.take n
        let row :=
          match filler with
          | some v => row ++ List.replicate (n - row.length) v
          | none => row
        row :: rows n filler fuel (items.drop n)

/-- Items in a number of columns of nearly the same length. -/
def columns (n : Nat) (filler : Option Value) (items : List Value) : List (List Value) :=
  let per := items.length / n
  let extra := items.length % n
  (List.range n).map fun i =>
    let start := i * per + min i extra
    let column := (items.drop start).take (if i < extra then per + 1 else per)
    match filler with
    | some v => if extra ≤ i then column ++ [v] else column
    | none => column

/-- The least item, the earliest of equal ones. -/
def least? (w : World) : List Value → Option Value
  | [] => none
  | x :: xs => some (xs.foldl (fun m v => if w.order v m == .lt then v else m) x)

/-- The greatest item, the latest of equal ones. -/
def greatest? (w : World) : List Value → Option Value
  | [] => none
  | x :: xs => some (xs.foldl (fun m v => if w.order v m == .lt then m else v) x)

/-- The entries of a map; what is no map is told to be no such thing. -/
def pairsOf (w : World) (what : String) (v : Value) : Except Problem (List (Value × Value)) :=
  match w.entries? v with
  | some es => .ok es
  | none => .error (.filterArgument ("cannot convert value into " ++ what))

/-- The entries of maps put together, in the order of their keys; of several values of one key the
last one stays. -/
def mergedEntries (w : World) (maps : List (List (Value × Value))) : List (Value × Value) :=
  let all := maps.flatten.foldl (fun es (k, v) => w.put k v es) []
  sortedWith (fun a b => w.order a.1 b.1) all

/-- Values one after the other: maps make a map, lists make a list, and anything else is gone
through item by item, as far as it has items. -/
def chained (w : World) (values : List Value) : Value :=
  match values.mapM w.entries? with
  | some maps => .map (mergedEntries w maps)
  | none =>
      let items := (values.map fun v => (w.items? v).getD []).flatten
      if values.all (·.kind == .list) then .list items
      else .iterator items (values.all fun v => (w.items? v).isSome && v.isSized)

/-- Values side by side, as many as the shortest of them has items. -/
def zipped (w : World) (values : List Value) : Except Problem Value := do
  let lists ← values.mapM fun v =>
    match w.items? v with
    | some items => .ok items
    | none =>
        .error (.filterArgument ("zip filter argument must be iterable, got " ++ v.kind.word))
  let count := ((lists.map List.length).min?).getD 0
  let row (i : Nat) : Value := .list (lists.map fun items => (items[i]?).getD .undefined)
  pure (.iterator ((List.range count).map row) false)

end Stencil.Template
