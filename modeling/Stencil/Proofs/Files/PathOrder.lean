import Mathlib.Data.List.Lex
import Mathlib.Data.Prod.Lex
import Stencil.Files.Path
import Stencil.Proofs.Sorted

/-!
# The order of paths

Components are ordered by their kinds, and names by their texts.  Paths are ordered by their
components like words by their letters, so two paths that neither precedes the other have the
same components.
-/

namespace Stencil.Files.Path

/-- The kind of a component, and the text of a name. -/
def weight (c : Component) : ℕ ×ₗ String :=
  toLex (rank c, match c with | .name s => s | _ => "")

theorem weight_injective : Function.Injective weight := by
  intro a b h
  have hpair := toLex.injective h
  cases a <;> cases b <;> simp_all [rank]

theorem componentLt_eq (a b : Component) : componentLt a b = decide (weight a < weight b) := by
  cases a <;> cases b <;> simp [componentLt, weight, rank, Prod.Lex.toLex_lt_toLex]

/-- What a path is ordered by. -/
def orderKey (path : String) : List (ℕ ×ₗ String) := (components path).map weight

theorem components_eq_of_orderKey {p q : String} (h : orderKey p = orderKey q) :
    components p = components q := weight_injective.list_map h

theorem listLt_iff {as bs : List Component} :
    listLt as bs = true ↔ as.map weight < bs.map weight := by
  induction as generalizing bs with
  | nil => cases bs <;> simp [listLt]
  | cons a as ih =>
      cases bs with
      | nil => simp [listLt]
      | cons b bs =>
          simp only [listLt, componentLt_eq, List.map_cons, List.cons_lt_cons_iff, Bool.or_eq_true,
            Bool.and_eq_true, Bool.not_eq_true', decide_eq_true_eq, decide_eq_false_iff_not, ih]
          constructor
          · rintro (hlt | ⟨hle, hrest⟩)
            · exact .inl hlt
            · exact (not_lt.mp hle).lt_or_eq.imp id fun heq => ⟨heq, hrest⟩
          · rintro (hlt | ⟨heq, hrest⟩)
            · exact .inl hlt
            · exact .inr ⟨heq.not_gt, hrest⟩

theorem lt_iff {p q : String} : lt p q = true ↔ orderKey p < orderKey q := listLt_iff

theorem lt_eq : lt = keyLt orderKey := by
  funext p q
  rw [Bool.eq_iff_iff, lt_iff, keyLt_iff]

end Stencil.Files.Path
