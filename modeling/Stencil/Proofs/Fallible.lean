import Mathlib.Data.List.Perm.Basic

/-!
# Steps that may fail

A step gives a value or the reason of its failure.  Steps in sequence succeed
exactly if each of them does, and a list of steps gives the list of their values.
What a sequence fails with depends on the failures of its steps alone.
-/

namespace Stencil

variable {ε α β γ : Type}

theorem bind_eq_ok {x : Except ε α} {f : α → Except ε β} {b : β} :
    (x >>= f) = .ok b ↔ ∃ a, x = .ok a ∧ f a = .ok b := by
  cases x <;> simp [bind, Except.bind]

theorem map_eq_ok {x : Except ε α} {f : α → β} {b : β} :
    x.map f = .ok b ↔ ∃ a, x = .ok a ∧ f a = b := by
  cases x <;> simp [Except.map]

theorem exists_ok {x : Except ε α} (h : x.toOption.isSome = true) : ∃ a, x = .ok a := by
  cases x with
  | error e => cases h
  | ok a => exact ⟨a, rfl⟩

theorem toOption_map {x : Except ε α} {f : α → β} : (x.map f).toOption = x.toOption.map f := by
  cases x <;> rfl

theorem toOption_bind {x : Except ε α} {f : α → Except ε β} :
    (x >>= f).toOption = x.toOption.bind fun a => (f a).toOption := by
  cases x <;> rfl

theorem toOption_eq_some {x : Except ε α} {a : α} : x.toOption = some a ↔ x = .ok a := by
  cases x <;> simp [Except.toOption]

theorem mapError_eq_ok {δ : Type} {f : ε → δ} {x : Except ε α} {a : α} :
    x.mapError f = .ok a ↔ x = .ok a := by
  cases x <;> simp [Except.mapError]

/-- Every member of the second of two lists that correspond has a partner in the first. -/
theorem exists_left_of_forall₂ {R : α → β → Prop} {xs : List α} {ys : List β}
    (h : List.Forall₂ R xs ys) {y : β} (hy : y ∈ ys) : ∃ x ∈ xs, R x y := by
  induction h with
  | nil => cases hy
  | @cons x z xs zs hz _ ih =>
      rcases List.mem_cons.mp hy with rfl | hrest
      · exact ⟨x, List.mem_cons_self, hz⟩
      · obtain ⟨w, hw, hwy⟩ := ih hrest
        exact ⟨w, List.mem_cons_of_mem x hw, hwy⟩

/-- Steps over a list succeed with the values of the single ones. -/
theorem mapM_eq_ok_iff {f : α → Except ε β} {xs : List α} :
    ∀ {ys : List β}, xs.mapM f = .ok ys ↔ List.Forall₂ (fun x y => f x = .ok y) xs ys := by
  induction xs with
  | nil =>
      intro ys
      cases ys <;> simp [pure, Except.pure]
  | cons x rest ih =>
      intro ys
      rw [List.mapM_cons, List.forall₂_cons_left_iff]
      simp only [bind_eq_ok, ih, pure, Except.pure, Except.ok.injEq]
      constructor
      · rintro ⟨y, hy, zs, hzs, rfl⟩
        exact ⟨y, zs, hy, hzs, rfl⟩
      · rintro ⟨y, zs, hy, hzs, rfl⟩
        exact ⟨y, hy, zs, hzs, rfl⟩

/-- The values of steps stand at the places of the steps. -/
theorem mapM_eq_ok_iff_getElem? {f : α → Except ε β} {xs : List α} {ys : List β} :
    xs.mapM f = .ok ys ↔ ys.length = xs.length ∧
      ∀ (i : Nat) (x : α) (y : β), xs[i]? = some x → ys[i]? = some y → f x = .ok y := by
  rw [mapM_eq_ok_iff, List.forall₂_iff_get]
  constructor
  · rintro ⟨hlength, hall⟩
    refine ⟨hlength.symm, fun i x y hx hy => ?_⟩
    obtain ⟨hi, rfl⟩ := List.getElem?_eq_some_iff.mp hx
    obtain ⟨hj, rfl⟩ := List.getElem?_eq_some_iff.mp hy
    exact hall i hi hj
  · rintro ⟨hlength, hall⟩
    refine ⟨hlength.symm, fun i hi hj => ?_⟩
    exact hall i _ _ (List.getElem?_eq_getElem hi) (List.getElem?_eq_getElem hj)

theorem mapM_concat (f : α → Except ε β) (xs : List α) (x : α) :
    (xs ++ [x]).mapM f = xs.mapM f >>= fun ys => f x >>= fun y => .ok (ys ++ [y]) := by
  rw [List.mapM_append, List.mapM_cons, List.mapM_nil]
  cases xs.mapM f with
  | error e => rfl
  | ok ys => cases f x <;> rfl

theorem mapM_congr {f g : α → Except ε β} {xs : List α} (h : ∀ x ∈ xs, f x = g x) :
    xs.mapM f = xs.mapM g := by
  induction xs with
  | nil => rfl
  | cons x rest ih =>
      rw [List.mapM_cons, List.mapM_cons, h x List.mem_cons_self,
        ih fun y hy => h y (List.mem_cons_of_mem x hy)]

/-- Lists of the same length give the same values if the steps at each place do. -/
theorem mapM_congr_getElem? {f : α → Except ε β} {xs ys : List α} (hlength : xs.length = ys.length)
    (h : ∀ (i : Nat) (x y : α), xs[i]? = some x → ys[i]? = some y → f x = f y) :
    xs.mapM f = ys.mapM f := by
  induction xs generalizing ys with
  | nil => rw [List.eq_nil_of_length_eq_zero hlength.symm]
  | cons x xs ih =>
      cases ys with
      | nil => cases hlength
      | cons y ys =>
          have hrest := ih (Nat.succ.inj hlength) fun i a b ha hb => h (i + 1) a b ha hb
          rw [List.mapM_cons, List.mapM_cons, h 0 x y rfl rfl, hrest]

/-- Lists give the same values if the steps of their elements, pair by pair, do. -/
theorem mapM_congr_forall₂ {f : α → Except ε γ} {g : β → Except ε γ} {xs : List α} {ys : List β}
    (h : List.Forall₂ (fun x y => f x = g y) xs ys) : xs.mapM f = ys.mapM g := by
  induction h with
  | nil => rfl
  | cons hxy _ ih => rw [List.mapM_cons, List.mapM_cons, hxy, ih]

/-- The steps of lists that are joined are those of each list in turn. -/
theorem mapM_flatten (f : α → Except ε β) (xss : List (List α)) :
    xss.flatten.mapM f = (xss.mapM (List.mapM f)).map List.flatten := by
  induction xss with
  | nil => rfl
  | cons xs rest ih =>
      rw [List.flatten_cons, List.mapM_append, List.mapM_cons, ih]
      cases xs.mapM f with
      | error e => rfl
      | ok ys => cases rest.mapM (List.mapM f) <;> rfl

/-- Every value of a list of steps is that of one of them. -/
theorem exists_of_mem_values {f : α → Except ε β} {xs : List α} {ys : List β}
    (h : xs.mapM f = .ok ys) {y : β} (hy : y ∈ ys) : ∃ x ∈ xs, f x = .ok y :=
  exists_left_of_forall₂ (mapM_eq_ok_iff.mp h) hy

/-- Every step of a list that succeeds has a value among those of the list. -/
theorem exists_of_mem_steps {f : α → Except ε β} {xs : List α} {ys : List β}
    (h : xs.mapM f = .ok ys) {x : α} (hx : x ∈ xs) : ∃ y ∈ ys, f x = .ok y :=
  exists_left_of_forall₂ (mapM_eq_ok_iff.mp h).flip hx

/-- The value of a step stands at the place of the step. -/
theorem exists_value_of_getElem? {f : α → Except ε β} {xs : List α} {ys : List β}
    (h : xs.mapM f = .ok ys) {i : Nat} {x : α} (hx : xs[i]? = some x) :
    ∃ y, ys[i]? = some y ∧ f x = .ok y := by
  have hall := mapM_eq_ok_iff.mp h
  clear h
  induction hall generalizing i with
  | nil => cases hx
  | @cons a b xs ys hb _ ih =>
      cases i with
      | zero =>
          cases hx
          exact ⟨b, rfl, hb⟩
      | succ i => exact ih hx

/-- What is told alike of the elements and of the values of their steps holds of all or of none. -/
theorem forall_iff_of_mapM {f : α → Except ε β} {A : α → Prop} {B : β → Prop}
    (h : ∀ x y, f x = .ok y → (A x ↔ B y)) {xs : List α} {ys : List β}
    (hxs : xs.mapM f = .ok ys) : (∀ x ∈ xs, A x) ↔ ∀ y ∈ ys, B y := by
  constructor
  · intro hall y hy
    obtain ⟨x, hx, hfx⟩ := exists_of_mem_values hxs hy
    exact (h x y hfx).mp (hall x hx)
  · intro hall x hx
    obtain ⟨y, hy, hfx⟩ := exists_of_mem_steps hxs hx
    exact (h x y hfx).mpr (hall y hy)

/-- What is read off the values, if it can be read off the elements. -/
theorem map_of_mapM {f : α → Except ε β} {g : β → γ} {g' : α → γ}
    (hg : ∀ x y, f x = .ok y → g y = g' x) {xs : List α} {ys : List β}
    (h : xs.mapM f = .ok ys) : ys.map g = xs.map g' := by
  have hall := mapM_eq_ok_iff.mp h
  clear h
  induction hall with
  | nil => rfl
  | @cons x y xs ys hy _ ih => rw [List.map_cons, List.map_cons, hg x y hy, ih]

theorem flatMap_of_mapM {f : α → Except ε β} {g : β → List γ} {g' : α → List γ}
    (hg : ∀ x y, f x = .ok y → g y = g' x) {xs : List α} {ys : List β}
    (h : xs.mapM f = .ok ys) : ys.flatMap g = xs.flatMap g' := by
  rw [List.flatMap_def, List.flatMap_def, map_of_mapM hg h]

/-- Steps that are taken in another order give the same values, in that order. -/
theorem mapM_perm {f : α → Except ε β} {xs xs' : List α} (h : xs.Perm xs') {ys : List β}
    (hys : xs.mapM f = .ok ys) : ∃ ys', xs'.mapM f = .ok ys' ∧ ys.Perm ys' := by
  obtain ⟨ys', hys', hperm⟩ := List.perm_comp_forall₂ h.symm (mapM_eq_ok_iff.mp hys)
  exact ⟨ys', mapM_eq_ok_iff.mpr hys', hperm.symm⟩

/-- Leaving out steps leaves out their values. -/
theorem filter_of_mapM {f : α → Except ε β} {p : α → Bool} {q : β → Bool}
    (hpq : ∀ x y, f x = .ok y → q y = p x) {xs : List α} {ys : List β}
    (h : xs.mapM f = .ok ys) : (xs.filter p).mapM f = .ok (ys.filter q) := by
  have hall := mapM_eq_ok_iff.mp h
  clear h
  rw [mapM_eq_ok_iff]
  induction hall with
  | nil => exact List.Forall₂.nil
  | @cons x y xs ys hy _ ih =>
      rw [List.filter_cons, List.filter_cons, hpq x y hy]
      cases p x with
      | false => exact ih
      | true => exact List.Forall₂.cons hy ih

/-- A fold in which no step looks at what is collected: the steps are taken first, and then their
values collected. -/
theorem foldlM_map_eq (f : α → Except ε β) (collect : γ → β → γ) (xs : List α) :
    ∀ init : γ, xs.foldlM (fun acc x => (f x).map (collect acc)) init =
      (xs.mapM f).map fun ys => ys.foldl collect init := by
  induction xs with
  | nil => exact fun _ => rfl
  | cons x rest ih =>
      intro init
      rw [List.foldlM_cons, List.mapM_cons]
      cases f x with
      | error e => rfl
      | ok y =>
          have hrest := ih (collect init y)
          dsimp only [Except.map, bind, Except.bind] at hrest ⊢
          rw [hrest]
          cases rest.mapM f <;> rfl

/-- A recursion over two lists at once, which ends with the shorter one, converts them pair by
pair. -/
theorem mapM_zip_of_steps (convertAll : List α → List β → Except ε (List γ))
    (convert : α → β → Except ε γ) (hleft : ∀ bs, convertAll [] bs = .ok [])
    (hright : ∀ as, convertAll as [] = .ok [])
    (hstep : ∀ a as b bs, convertAll (a :: as) (b :: bs) =
      convert a b >>= fun c => (convertAll as bs).map (c :: ·)) (as : List α) (bs : List β) :
    convertAll as bs = (as.zip bs).mapM fun p => convert p.1 p.2 := by
  induction as generalizing bs with
  | nil => exact hleft bs
  | cons a as ih =>
      cases bs with
      | nil => exact hright (a :: as)
      | cons b bs =>
          rw [hstep, List.zip_cons_cons, List.mapM_cons, ih]
          rfl

/-! ## Failures -/

/-- The error that a step fails with, if it fails. -/
def failure? : Except ε α → Option ε
  | .error e => some e
  | .ok _ => none

theorem failure?_eq_some {x : Except ε α} {e : ε} : failure? x = some e ↔ x = .error e := by
  cases x <;> simp [failure?]

theorem failure?_eq_none {x : Except ε α} : failure? x = none ↔ ∃ a, x = .ok a := by
  cases x <;> simp [failure?]

theorem failure?_map (f : α → β) (x : Except ε α) : failure? (x.map f) = failure? x := by
  cases x <;> rfl

theorem failure?_mapError {δ : Type} (f : ε → δ) (x : Except ε α) :
    failure? (x.mapError f) = (failure? x).map f := by
  cases x <;> rfl

/-- A sequence fails with the failure of its first step, or else with that of the others. -/
theorem failure?_bind {x : Except ε α} {f : α → Except ε β} {rest : Option ε}
    (h : ∀ a, x = .ok a → failure? (f a) = rest) : failure? (x >>= f) = (failure? x).or rest := by
  cases x with
  | error e => rfl
  | ok a => exact h a rfl

theorem failure?_bind_pure (x : Except ε α) (f : α → β) :
    failure? (x >>= fun a => pure (f a)) = failure? x := by
  cases x <;> rfl

/-- A sequence fails like another if its first steps fail alike, and what follows their values. -/
theorem failure?_bind_congr {x : Except ε α} {y : Except ε β} {f : α → Except ε γ}
    {g : β → Except ε γ} (hxy : failure? x = failure? y)
    (hfg : ∀ a b, x = .ok a → y = .ok b → failure? (f a) = failure? (g b)) :
    failure? (x >>= f) = failure? (y >>= g) := by
  cases x with
  | error e =>
      have hy : y = .error e := failure?_eq_some.mp hxy.symm
      rw [hy]
      rfl
  | ok a =>
      cases y with
      | error e => cases hxy
      | ok b => exact hfg a b rfl rfl

/-- A list of steps fails with the first failure of one of them. -/
theorem failure?_mapM (f : α → Except ε β) (xs : List α) :
    failure? (xs.mapM f) = xs.findSome? fun x => failure? (f x) := by
  induction xs with
  | nil => rfl
  | cons x rest ih =>
      rw [List.mapM_cons, List.findSome?_cons, ← ih]
      cases f x with
      | error e => rfl
      | ok y => cases rest.mapM f <;> rfl

theorem failure?_mapM_eq_none {f : α → Except ε β} {xs : List α} :
    failure? (xs.mapM f) = none ↔ ∀ x ∈ xs, failure? (f x) = none := by
  rw [failure?_mapM, List.findSome?_eq_none_iff]

/-- Lists of steps fail alike if the steps do. -/
theorem failure?_mapM_congr {f g : α → Except ε β} {xs : List α}
    (h : ∀ x ∈ xs, failure? (f x) = failure? (g x)) :
    failure? (xs.mapM f) = failure? (xs.mapM g) := by
  rw [failure?_mapM, failure?_mapM]
  induction xs with
  | nil => rfl
  | cons x rest ih =>
      have hrest := ih fun y hy => h y (List.mem_cons_of_mem x hy)
      rw [List.findSome?_cons, List.findSome?_cons, h x List.mem_cons_self, hrest]

end Stencil
