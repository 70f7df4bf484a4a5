/-!
# Sorted lists without repetitions
-/

namespace Stencil

/-- Puts an element into its place, unless it is there already. -/
def insertSorted {α : Type} (lt : α → α → Bool) (x : α) : List α → List α
  | [] => [x]
  | y :: rest =>
      if lt x y then x :: y :: rest
      else if lt y x then y :: insertSorted lt x rest
      else y :: rest

/-- The elements in increasing order, each once. -/
def sortDistinct {α : Type} (lt : α → α → Bool) (xs : List α) : List α :=
  xs.foldr (insertSorted lt) []

/-- Texts in increasing order, each once. -/
def sortTexts (xs : List String) : List String :=
  sortDistinct (fun a b => decide (a < b)) xs

/-- The elements in order of their first appearance. -/
def distinct {α : Type} [DecidableEq α] (xs : List α) : List α :=
  xs.foldl (fun seen x => if x ∈ seen then seen else seen ++ [x]) []

end Stencil
