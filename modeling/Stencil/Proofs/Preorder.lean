import Mathlib.Data.List.Flatten
import Mathlib.Data.List.Forall2
import Mathlib.Data.List.Nodup

/-!
# Preorders

What is below an element of a tree, each element before what is below it.  The tree
is given by the children of each element; that nothing is listed twice follows from
the way back, along which an element has one parent.
-/

namespace Stencil

variable {α β : Type}

/-- What is at most so many levels below an element, each before what is below it. -/
def preorder (children : α → List α) : Nat → α → List α
  | 0, x => [x]
  | depth + 1, x => x :: (children x).flatMap (preorder children depth)

/-- The children of the elements with `P` make a tree: each has one parent, one level above, and is
among its children once; there is a last level. -/
structure Branches (children : α → List α) (P : α → Prop) (level : α → Nat)
    (parent : α → Option α) (last : Nat) : Prop where
  closed : ∀ x, P x → ∀ y ∈ children x, P y
  below : ∀ x, P x → ∀ y ∈ children x, level y = level x + 1
  back : ∀ x, P x → ∀ y ∈ children x, parent y = some x
  distinct : ∀ x, P x → (children x).Nodup
  bounded : ∀ x, P x → level x ≤ last

/-- So many steps from an element towards the root. -/
def climb (parent : α → Option α) : Nat → α → Option α
  | 0, y => some y
  | steps + 1, y => (climb parent steps y).bind parent

section Preorder

variable {children : α → List α} {depth : Nat} {x y z : α}

theorem mem_preorder_self (children : α → List α) (depth : Nat) (x : α) :
    x ∈ preorder children depth x := by
  cases depth with
  | zero => exact List.mem_singleton_self x
  | succ depth => exact List.mem_cons_self

theorem mem_preorder_succ :
    y ∈ preorder children (depth + 1) x ↔
      y = x ∨ ∃ c ∈ children x, y ∈ preorder children depth c := by
  rw [preorder, List.mem_cons, List.mem_flatMap]

theorem preorder_of_nil (h : children x = []) (depth : Nat) : preorder children depth x = [x] := by
  cases depth with
  | zero => rfl
  | succ depth => rw [preorder, h, List.flatMap_nil]

theorem flatMap_preorder_of_nil {xs : List α} (h : ∀ x ∈ xs, children x = []) (depth : Nat) :
    xs.flatMap (preorder children depth) = xs := by
  rw [List.flatMap_def, List.map_congr_left fun x hx => preorder_of_nil (h x hx) depth,
    ← List.flatMap_def, List.flatMap_singleton']

/-- An element comes before its children. -/
theorem sublist_preorder_succ (hy : y ∈ preorder children depth x) (hz : z ∈ children y) :
    [y, z].Sublist (preorder children (depth + 1) x) := by
  induction depth generalizing x with
  | zero =>
      obtain rfl := List.mem_singleton.mp hy
      have hbelow : z ∈ (children y).flatMap (preorder children 0) :=
        List.mem_flatMap.mpr ⟨z, hz, mem_preorder_self children 0 z⟩
      exact (List.singleton_sublist.mpr hbelow).cons_cons y
  | succ depth ih =>
      rcases mem_preorder_succ.mp hy with rfl | ⟨c, hc, hyc⟩
      · have hbelow : z ∈ (children y).flatMap (preorder children (depth + 1)) :=
          List.mem_flatMap.mpr ⟨z, hz, mem_preorder_self children (depth + 1) z⟩
        exact (List.singleton_sublist.mpr hbelow).cons_cons y
      · have hchild := (List.singleton_sublist.mpr hc).flatMap (preorder children (depth + 1))
        rw [List.flatMap_singleton] at hchild
        exact ((ih hyc).trans hchild).cons x

/-- Trees that correspond level by level have corresponding preorders. -/
theorem forall₂_preorder {others : β → List β} {R : α → β → Prop}
    (h : ∀ x y, R x y → List.Forall₂ R (children x) (others y)) {y : β} (hxy : R x y)
    (depth : Nat) : List.Forall₂ R (preorder children depth x) (preorder others depth y) := by
  induction depth generalizing x y with
  | zero => exact .cons hxy .nil
  | succ depth ih => exact .cons hxy (List.rel_flatMap (h x y hxy) fun _ _ hcd => ih hcd)

end Preorder

namespace Branches

variable {children : α → List α} {P : α → Prop} {level : α → Nat} {parent : α → Option α}
  {last : Nat} (h : Branches children P level parent last)
include h

theorem mem_preorder {depth : Nat} {x y : α} (hx : P x) (hy : y ∈ preorder children depth x) :
    P y := by
  induction depth generalizing x with
  | zero => exact List.mem_singleton.mp hy ▸ hx
  | succ depth ih =>
      rcases mem_preorder_succ.mp hy with rfl | ⟨c, hc, hyc⟩
      · exact hx
      · exact ih (h.closed x hx c hc) hyc

/-- Nothing is missing as soon as there are enough levels. -/
theorem preorder_congr {depth deep : Nat} : ∀ {x : α}, P x → last ≤ level x + depth →
    last ≤ level x + deep → preorder children depth x = preorder children deep x := by
  have hnone : ∀ x, P x → last ≤ level x + 0 → children x = [] := by
    intro x hx hlast
    refine List.eq_nil_iff_forall_not_mem.mpr fun c hc => ?_
    have hlevel := h.below x hx c hc
    have hbound := h.bounded c (h.closed x hx c hc)
    omega
  induction depth generalizing deep with
  | zero =>
      intro x hx hdepth hdeep
      rw [preorder_of_nil (hnone x hx hdepth), preorder_of_nil (hnone x hx hdepth)]
  | succ depth ih =>
      intro x hx hdepth hdeep
      cases deep with
      | zero => rw [preorder_of_nil (hnone x hx hdeep), preorder_of_nil (hnone x hx hdeep)]
      | succ deep =>
          rw [preorder, preorder, List.flatMap_def, List.flatMap_def]
          congr 2
          refine List.map_congr_left fun c hc => ?_
          have hlevel := h.below x hx c hc
          exact ih (h.closed x hx c hc) (by omega) (by omega)

/-- What is below an element leads back to it, in as many steps as it has levels more. -/
theorem exists_climb {depth : Nat} {x y : α} (hx : P x) (hy : y ∈ preorder children depth x) :
    ∃ k, level y = level x + k ∧ climb parent k y = some x := by
  induction depth generalizing x with
  | zero =>
      obtain rfl := List.mem_singleton.mp hy
      exact ⟨0, rfl, rfl⟩
  | succ depth ih =>
      rcases mem_preorder_succ.mp hy with rfl | ⟨c, hc, hyc⟩
      · exact ⟨0, rfl, rfl⟩
      · obtain ⟨k, hlevel, hclimb⟩ := ih (h.closed x hx c hc) hyc
        refine ⟨k + 1, ?_, ?_⟩
        · rw [hlevel, h.below x hx c hc]
          omega
        · rw [climb, hclimb, Option.bind_some, h.back x hx c hc]

theorem nodup_preorder {depth : Nat} : ∀ {x : α}, P x → (preorder children depth x).Nodup := by
  induction depth with
  | zero => exact fun {x} _ => List.nodup_singleton x
  | succ depth ih =>
      intro x hx
      rw [preorder]
      refine List.nodup_cons.mpr ⟨fun hself => ?_, List.nodup_flatMap.mpr ⟨fun c hc => ?_, ?_⟩⟩
      · obtain ⟨c, hc, hxc⟩ := List.mem_flatMap.mp hself
        obtain ⟨k, hlevel, -⟩ := h.exists_climb (h.closed x hx c hc) hxc
        have hchild := h.below x hx c hc
        omega
      · exact ih (h.closed x hx c hc)
      · refine List.Pairwise.imp_of_mem (fun {c d} hc hd hne y hyc hyd => hne ?_) (h.distinct x hx)
        -- from an element below two children, as many steps lead back to the one as to the other
        obtain ⟨k, hk, hclimb⟩ := h.exists_climb (h.closed x hx c hc) hyc
        obtain ⟨l, hl, hother⟩ := h.exists_climb (h.closed x hx d hd) hyd
        have hc' := h.below x hx c hc
        have hd' := h.below x hx d hd
        obtain rfl : k = l := by omega
        exact Option.some.inj (hclimb.symm.trans hother)

end Branches

end Stencil
