import Mathlib.Data.List.Sort
import Mathlib.Data.String.Basic
import Stencil.Proofs.Distinct

/-!
# Sorted lists

Elements that are told apart by their keys are put in the order of the keys.  The sorted list has
just these elements, each once, and it is the only one in increasing order that has them.
-/

namespace Stencil

/-! ## Elements with keys -/

section Keys

variable {α κ : Type} [LinearOrder κ] {key : α → κ} {x y : α} {xs ys : List α}

/-- The order of elements by their keys. -/
def keyLt (key : α → κ) (a b : α) : Bool := decide (key a < key b)

theorem keyLt_iff {a b : α} : keyLt key a b = true ↔ key a < key b := decide_eq_true_iff

theorem insertSorted_cons :
    insertSorted (keyLt key) x (y :: xs) =
      if key x < key y then x :: y :: xs
      else if key y < key x then y :: insertSorted (keyLt key) x xs
      else y :: xs := by
  simp only [insertSorted, keyLt_iff]

theorem mem_of_mem_insertSorted (h : y ∈ insertSorted (keyLt key) x xs) : y = x ∨ y ∈ xs := by
  induction xs with
  | nil => exact .inl (List.mem_singleton.mp h)
  | cons z rest ih =>
      rw [insertSorted_cons] at h
      split_ifs at h
      · exact List.mem_cons.mp h
      · rcases List.mem_cons.mp h with rfl | hrest
        · exact .inr List.mem_cons_self
        · exact (ih hrest).imp_right (List.mem_cons_of_mem z)
      · exact .inr h

/-- Nothing is lost by an insertion if the element with the same key is the same. -/
theorem mem_insertSorted (hsame : ∀ z ∈ xs, key z = key x → z = x) :
    y ∈ insertSorted (keyLt key) x xs ↔ y = x ∨ y ∈ xs := by
  refine ⟨mem_of_mem_insertSorted, fun h => ?_⟩
  induction xs with
  | nil => simpa [insertSorted] using h
  | cons z rest ih =>
      rw [insertSorted_cons]
      split_ifs with hlt hgt
      · exact List.mem_cons.mpr h
      · have hrest := ih fun w hw => hsame w (List.mem_cons_of_mem z hw)
        rcases h with hx | hy
        · exact List.mem_cons_of_mem z (hrest (.inl hx))
        · rcases List.mem_cons.mp hy with rfl | hy
          · exact List.mem_cons_self
          · exact List.mem_cons_of_mem z (hrest (.inr hy))
      · have hz := hsame z List.mem_cons_self (le_antisymm (not_lt.mp hlt) (not_lt.mp hgt))
        rcases h with hx | hy
        · rw [hx, hz]
          exact List.mem_cons_self
        · exact hy

theorem pairwise_insertSorted (h : xs.Pairwise fun a b => key a < key b) :
    (insertSorted (keyLt key) x xs).Pairwise fun a b => key a < key b := by
  induction xs with
  | nil => simp [insertSorted]
  | cons z rest ih =>
      obtain ⟨hfirst, hrest⟩ := List.pairwise_cons.mp h
      rw [insertSorted_cons]
      split_ifs with hlt hgt
      · refine List.pairwise_cons.mpr ⟨fun y hy => ?_, h⟩
        rcases List.mem_cons.mp hy with rfl | hy
        · exact hlt
        · exact hlt.trans (hfirst y hy)
      · refine List.pairwise_cons.mpr ⟨fun y hy => ?_, ih hrest⟩
        rcases mem_of_mem_insertSorted hy with rfl | hy
        · exact hgt
        · exact hfirst y hy
      · exact h

theorem pairwise_sortDistinct (xs : List α) :
    (sortDistinct (keyLt key) xs).Pairwise fun a b => key a < key b := by
  induction xs with
  | nil => exact .nil
  | cons x rest ih => exact pairwise_insertSorted ih

theorem mem_of_mem_sortDistinct (h : x ∈ sortDistinct (keyLt key) xs) : x ∈ xs := by
  induction xs with
  | nil => exact h
  | cons y rest ih =>
      rcases mem_of_mem_insertSorted h with rfl | hrest
      · exact List.mem_cons_self
      · exact List.mem_cons_of_mem y (ih hrest)

/-- What is sorted has the elements that there were, if their keys tell them apart. -/
theorem mem_sortDistinct (hkeys : ∀ a ∈ xs, ∀ b ∈ xs, key a = key b → a = b) :
    x ∈ sortDistinct (keyLt key) xs ↔ x ∈ xs := by
  induction xs with
  | nil => exact Iff.rfl
  | cons y rest ih =>
      have hrest := ih fun a ha b hb =>
        hkeys a (List.mem_cons_of_mem y ha) b (List.mem_cons_of_mem y hb)
      have hsame : ∀ z ∈ sortDistinct (keyLt key) rest, key z = key y → z = y := fun z hz =>
        hkeys z (List.mem_cons_of_mem y (mem_of_mem_sortDistinct hz)) y List.mem_cons_self
      change x ∈ insertSorted (keyLt key) y (sortDistinct (keyLt key) rest) ↔ _
      rw [mem_insertSorted hsame, hrest, List.mem_cons]

/-- Elements in increasing order are told apart by their keys. -/
theorem eq_of_key_eq (h : xs.Pairwise fun a b => key a < key b) (hx : x ∈ xs) (hy : y ∈ xs)
    (hkey : key x = key y) : x = y := by
  have hnodup : (xs.map key).Nodup := List.pairwise_map.mpr (h.imp fun hlt => hlt.ne)
  exact List.inj_on_of_nodup_map hnodup hx hy hkey

theorem nodup_of_pairwise_key (h : xs.Pairwise fun a b => key a < key b) : xs.Nodup :=
  h.imp fun hlt heq => hlt.ne (congrArg key heq)

theorem not_keyLt_iff {a b : α} : (!keyLt key b a) = true ↔ key a ≤ key b := by
  rw [Bool.not_eq_true', Bool.eq_false_iff, Ne, keyLt_iff, not_lt]

theorem pairwise_mergeSort (xs : List α) :
    (xs.mergeSort fun a b => !keyLt key b a).Pairwise fun a b => key a ≤ key b := by
  refine (List.pairwise_mergeSort (fun a b c hab hbc => ?_) (fun a b => ?_) xs).imp
    not_keyLt_iff.mp
  · exact not_keyLt_iff.mpr ((not_keyLt_iff.mp hab).trans (not_keyLt_iff.mp hbc))
  · rw [Bool.or_eq_true, not_keyLt_iff, not_keyLt_iff]
    exact le_total _ _

/-- Elements in increasing order are what any list of them is sorted to. -/
theorem mergeSort_eq_of_perm (h : xs.Perm ys) (hys : ys.Pairwise fun a b => key a < key b) :
    xs.mergeSort (fun a b => !keyLt key b a) = ys := by
  have hperm := (List.mergeSort_perm xs fun a b => !keyLt key b a).trans h
  refine hperm.eq_of_pairwise (fun a b ha hb hab hba => ?_) (pairwise_mergeSort xs)
    (hys.imp fun hlt => hlt.le)
  exact eq_of_key_eq hys (hperm.mem_iff.mp ha) hb (le_antisymm hab hba)

end Keys

/-! ## Texts -/

theorem sortTexts_eq (xs : List String) : sortTexts xs = sortDistinct (keyLt id) xs := by
  unfold sortTexts keyLt
  congr

theorem mem_sortTexts {x : String} {xs : List String} : x ∈ sortTexts xs ↔ x ∈ xs := by
  rw [sortTexts_eq]
  exact mem_sortDistinct fun a _ b _ h => h

theorem pairwise_sortTexts (xs : List String) : (sortTexts xs).Pairwise (· < ·) := by
  rw [sortTexts_eq]
  exact pairwise_sortDistinct xs

/-- Sorting tells no more than what there is. -/
theorem sortTexts_congr {xs ys : List String} (h : ∀ s, s ∈ xs ↔ s ∈ ys) :
    sortTexts xs = sortTexts ys := by
  refine (pairwise_sortTexts xs).eq_of_mem_iff (pairwise_sortTexts ys) fun s => ?_
  rw [mem_sortTexts, mem_sortTexts, h]

/-- Texts that are sorted with their repetitions are in the order of the texts without them. -/
theorem distinct_mergeSort (xs : List String) :
    distinct (xs.mergeSort fun a b => !decide (b < a)) = sortTexts xs := by
  have hsorted : (distinct (xs.mergeSort fun a b => !decide (b < a))).Pairwise (· < ·) :=
    ((@pairwise_mergeSort String String _ id xs).sublist (distinct_sublist _)).imp₂
      (fun _ _ hle hne => lt_of_le_of_ne hle hne) (nodup_distinct _)
  refine hsorted.eq_of_mem_iff (pairwise_sortTexts xs) fun s => ?_
  rw [mem_distinct, List.mem_mergeSort, mem_sortTexts]

end Stencil
