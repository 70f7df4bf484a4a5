import Mathlib.Data.List.Induction
import Stencil.Proofs.Fallible
import Stencil.Sorted

/-!
# Lists without their repetitions

`distinct` keeps the first occurrence of every element.  A function of lists that
does not change when an element is repeated at the end gives the same for a list
and for its distinct elements; all proofs go along the list from its end.
-/

namespace Stencil

variable {α β γ : Type} [DecidableEq α]

theorem distinct_concat (xs : List α) (x : α) :
    distinct (xs ++ [x]) = if x ∈ distinct xs then distinct xs else distinct xs ++ [x] := by
  unfold distinct
  rw [List.foldl_append]
  rfl

@[simp]
theorem mem_distinct {xs : List α} {x : α} : x ∈ distinct xs ↔ x ∈ xs := by
  induction xs using List.reverseRec with
  | nil => rfl
  | append_singleton xs y ih =>
      rw [distinct_concat]
      by_cases hy : y ∈ distinct xs
      · rw [if_pos hy, List.mem_append, List.mem_singleton, ih]
        constructor
        · exact Or.inl
        · rintro (hx | rfl)
          · exact hx
          · exact ih.mp hy
      · rw [if_neg hy, List.mem_append, List.mem_append, ih]

theorem nodup_distinct (xs : List α) : (distinct xs).Nodup := by
  induction xs using List.reverseRec with
  | nil => exact List.nodup_nil
  | append_singleton xs x ih =>
      rw [distinct_concat]
      by_cases hx : x ∈ distinct xs
      · rw [if_pos hx]
        exact ih
      · rw [if_neg hx, List.nodup_append]
        refine ⟨ih, List.nodup_cons.mpr ⟨List.not_mem_nil, List.nodup_nil⟩, ?_⟩
        intro y hy z hz heq
        rw [List.mem_singleton.mp hz] at heq
        exact hx (heq ▸ hy)

theorem distinct_sublist (xs : List α) : (distinct xs).Sublist xs := by
  induction xs using List.reverseRec with
  | nil => exact .refl []
  | append_singleton xs x ih =>
      rw [distinct_concat]
      by_cases hx : x ∈ distinct xs
      · rw [if_pos hx]
        exact ih.trans (List.sublist_append_left xs [x])
      · rw [if_neg hx]
        exact ih.append (.refl [x])

theorem distinct_repeated {xs : List α} {x : α} (h : x ∈ xs) :
    distinct (xs ++ [x]) = distinct xs := by
  rw [distinct_concat, if_pos (mem_distinct.mpr h)]

theorem distinct_fresh {xs : List α} {x : α} (h : x ∉ xs) :
    distinct (xs ++ [x]) = distinct xs ++ [x] := by
  rw [distinct_concat, if_neg (fun hx => h (mem_distinct.mp hx))]

theorem distinct_of_nodup {xs : List α} (h : xs.Nodup) : distinct xs = xs := by
  induction xs using List.reverseRec with
  | nil => rfl
  | append_singleton xs x ih =>
      obtain ⟨hxs, -, hdisjoint⟩ := List.nodup_append.mp h
      have hx : x ∉ xs := fun hmem => hdisjoint x hmem x List.mem_cons_self rfl
      rw [distinct_fresh hx, ih hxs]

/-- A function that respects appending and does not see a repetition at the end sees none. -/
theorem apply_distinct (F : List α → γ)
    (happend : ∀ xs ys x, F xs = F ys → F (xs ++ [x]) = F (ys ++ [x]))
    (hrepeated : ∀ xs x, x ∈ xs → F (xs ++ [x]) = F xs) (xs : List α) :
    F (distinct xs) = F xs := by
  induction xs using List.reverseRec with
  | nil => rfl
  | append_singleton xs x ih =>
      by_cases hx : x ∈ xs
      · rw [distinct_repeated hx, hrepeated xs x hx]
        exact ih
      · rw [distinct_fresh hx]
        exact happend (distinct xs) xs x ih

theorem filter_distinct (p : α → Bool) (xs : List α) :
    (distinct xs).filter p = distinct (xs.filter p) := by
  induction xs using List.reverseRec with
  | nil => rfl
  | append_singleton xs x ih =>
      rw [List.filter_append]
      by_cases hx : x ∈ xs
      · rw [distinct_repeated hx, ih]
        cases hp : p x with
        | false => simp [hp]
        | true =>
            rw [List.filter_cons_of_pos hp, List.filter_nil]
            exact (distinct_repeated (List.mem_filter.mpr ⟨hx, hp⟩)).symm
      · rw [distinct_fresh hx, List.filter_append, ih]
        cases hp : p x with
        | false => simp [hp]
        | true =>
            rw [List.filter_cons_of_pos hp, List.filter_nil]
            exact (distinct_fresh (fun h => hx (List.mem_filter.mp h).1)).symm

theorem distinct_append_congr {xs ys : List α} (h : distinct xs = distinct ys) (zs : List α) :
    distinct (xs ++ zs) = distinct (ys ++ zs) := by
  unfold distinct at h ⊢
  rw [List.foldl_append, List.foldl_append, h]

theorem distinct_append_of_subset {xs : List α} (ys : List α) (h : ys ⊆ xs) :
    distinct (xs ++ ys) = distinct xs := by
  induction ys using List.reverseRec with
  | nil => rw [List.append_nil]
  | append_singleton ys y ih =>
      have hys : ys ⊆ xs := fun z hz => h (List.mem_append_left [y] hz)
      have hy : y ∈ xs ++ ys :=
        List.mem_append_left ys (h (List.mem_append_right ys List.mem_cons_self))
      rw [← List.append_assoc, distinct_repeated hy]
      exact ih hys

/-- The distinct elements of the parts of a list do not depend on its repetitions. -/
theorem distinct_flatMap_distinct [DecidableEq β] (f : α → List β) (xs : List α) :
    distinct ((distinct xs).flatMap f) = distinct (xs.flatMap f) := by
  refine apply_distinct (fun zs => distinct (zs.flatMap f)) ?_ ?_ xs
  · intro xs ys x h
    simp only [List.flatMap_append]
    exact distinct_append_congr h ([x].flatMap f)
  · intro xs x hx
    simp only [List.flatMap_append]
    refine distinct_append_of_subset ([x].flatMap f) ?_
    intro y hy
    obtain ⟨z, hz, hyz⟩ := List.mem_flatMap.mp hy
    rw [List.mem_singleton.mp hz] at hyz
    exact List.mem_flatMap.mpr ⟨x, hx, hyz⟩

theorem distinct_map_distinct [DecidableEq β] (f : α → β) (xs : List α) :
    distinct ((distinct xs).map f) = distinct (xs.map f) := by
  rw [List.map_eq_flatMap, List.map_eq_flatMap]
  exact distinct_flatMap_distinct (fun x => [f x]) xs

theorem head?_distinct (xs : List α) : (distinct xs).head? = xs.head? := by
  refine apply_distinct _ ?_ ?_ xs
  · intro xs ys x h
    rw [List.head?_append, List.head?_append, h]
  · intro xs x hx
    cases xs with
    | nil => cases hx
    | cons y rest => rfl

theorem findSome?_distinct (f : α → Option β) (xs : List α) :
    (distinct xs).findSome? f = xs.findSome? f := by
  refine apply_distinct _ ?_ ?_ xs
  · intro xs ys x h
    rw [List.findSome?_append, List.findSome?_append, h]
  · intro xs x hx
    rw [List.findSome?_append]
    cases hf : xs.findSome? f with
    | some y => rfl
    | none =>
        have hnone := List.findSome?_eq_none_iff.mp hf x hx
        simp [hnone]

theorem find?_distinct (p : α → Bool) (xs : List α) : (distinct xs).find? p = xs.find? p := by
  rw [List.find?_eq_findSome?_guard, List.find?_eq_findSome?_guard]
  exact findSome?_distinct (Option.guard p) xs

/-! ## Parts that are put together -/

/-- Adding an element repeats it if it is there already, and nothing else. -/
theorem one_lt_count_concat {xs : List α} {x y : α} :
    1 < (xs ++ [y]).count x ↔ 1 < xs.count x ∨ x = y ∧ x ∈ xs := by
  rw [List.count_append, ← List.count_pos_iff]
  by_cases hxy : x = y
  · subst hxy
    rw [List.count_singleton_self]
    simp only [true_and]
    omega
  · rw [List.count_eq_zero_of_not_mem (fun h => hxy (List.mem_singleton.mp h))]
    simp [hxy]

/-- Repetitions that have no parts add none. -/
theorem flatMap_distinct {f : α → List β} {xs : List α}
    (h : ∀ x, 1 < xs.count x → f x = []) : (distinct xs).flatMap f = xs.flatMap f := by
  induction xs using List.reverseRec with
  | nil => rfl
  | append_singleton xs x ih =>
      have hxs : ∀ y, 1 < xs.count y → f y = [] :=
        fun y hy => h y (one_lt_count_concat.mpr (Or.inl hy))
      rw [List.flatMap_append, ← ih hxs]
      by_cases hx : x ∈ xs
      · have hfx : f x = [] := h x (one_lt_count_concat.mpr (Or.inr ⟨rfl, hx⟩))
        rw [distinct_repeated hx]
        simp [hfx]
      · rw [distinct_fresh hx, List.flatMap_append]

/-- The parts of the distinct elements are no more than those of all. -/
theorem length_flatMap_distinct_le (f : α → List β) (xs : List α) :
    ((distinct xs).flatMap f).length ≤ (xs.flatMap f).length := by
  induction xs using List.reverseRec with
  | nil => exact Nat.le_refl _
  | append_singleton xs x ih =>
      rw [List.flatMap_append, List.length_append]
      by_cases hx : x ∈ xs
      · rw [distinct_repeated hx]
        omega
      · rw [distinct_fresh hx, List.flatMap_append, List.length_append]
        omega

/-- If the parts of the distinct elements are as many as those of all, repetitions have none. -/
theorem part_eq_nil_of_length {f : α → List β} {xs : List α}
    (h : ((distinct xs).flatMap f).length = (xs.flatMap f).length) {x : α}
    (hx : 1 < xs.count x) : f x = [] := by
  induction xs using List.reverseRec with
  | nil => cases hx
  | append_singleton xs y ih =>
      have hle := length_flatMap_distinct_le f xs
      rw [List.flatMap_append, List.length_append] at h
      by_cases hy : y ∈ xs
      · rw [distinct_repeated hy] at h
        have hzero : ([y].flatMap f).length = 0 := by omega
        rcases one_lt_count_concat.mp hx with hxs | ⟨rfl, -⟩
        · exact ih (by omega) hxs
        · simpa using hzero
      · rw [distinct_fresh hy, List.flatMap_append, List.length_append] at h
        rcases one_lt_count_concat.mp hx with hxs | ⟨rfl, hmem⟩
        · exact ih (by omega) hxs
        · exact absurd hmem hy

/-! ## Steps over a list -/

/-- Steps that tell the elements apart give the distinct values of a list for its distinct elements,
and fail with the same error. -/
theorem mapM_distinct {ε : Type} [DecidableEq β] {f : α → Except ε β}
    (hinj : ∀ x y v, f x = .ok v → f y = .ok v → x = y) (xs : List α) :
    (distinct xs).mapM f = (xs.mapM f).map distinct := by
  induction xs using List.reverseRec with
  | nil => rfl
  | append_singleton xs x ih =>
      by_cases hx : x ∈ xs
      -- the value of a repeated element is among the values already
      · rw [distinct_repeated hx, ih, mapM_concat]
        cases hxs : xs.mapM f with
        | error e => rfl
        | ok vs =>
            obtain ⟨v, hv, hfx⟩ := exists_of_mem_steps hxs hx
            rw [hfx]
            exact congrArg Except.ok (distinct_repeated hv).symm
      · rw [distinct_fresh hx, mapM_concat, mapM_concat, ih]
        cases hxs : xs.mapM f with
        | error e => rfl
        | ok vs =>
            cases hfx : f x with
            | error e => rfl
            | ok v =>
                have hv : v ∉ vs := by
                  intro hmem
                  obtain ⟨y, hy, hfy⟩ := exists_of_mem_values hxs hmem
                  exact hx (hinj y x v hfy hfx ▸ hy)
                exact congrArg Except.ok (distinct_fresh hv).symm

/-- Steps fail alike for a list and for its distinct elements. -/
theorem failure?_mapM_distinct {ε : Type} (f : α → Except ε β) (xs : List α) :
    failure? ((distinct xs).mapM f) = failure? (xs.mapM f) := by
  rw [failure?_mapM, findSome?_distinct, ← failure?_mapM]

/-- Parts of the values do not show repetitions of elements whose values have none. -/
theorem flatMap_values_distinct {ε : Type} {f : α → Except ε β} {g : β → List γ} {xs : List α}
    {ys zs : List β} (hys : xs.mapM f = .ok ys) (hzs : (distinct xs).mapM f = .ok zs)
    (hnil : ∀ x y, 1 < xs.count x → f x = .ok y → g y = []) : zs.flatMap g = ys.flatMap g := by
  let parts : α → List γ := fun x =>
    match f x with
    | .ok y => g y
    | .error _ => []
  have hparts : ∀ x y, f x = .ok y → g y = parts x := by
    intro x y hxy
    simp only [parts, hxy]
  rw [flatMap_of_mapM hparts hys, flatMap_of_mapM hparts hzs]
  refine flatMap_distinct ?_
  intro x hx
  cases hfx : f x with
  | error e => simp only [parts, hfx]
  | ok y => simp only [parts, hfx, hnil x y hx hfx]

end Stencil
