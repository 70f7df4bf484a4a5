import Stencil.Proofs.Files.FileNames
import Stencil.Proofs.Files.Listing
import Stencil.Proofs.Files.Outputs

/-!
# Paths below a directory

A path that goes down from a directory by names has the components of that one and then the
names, so it tells the names.  In a tree all that lies below a directory is reached by names.
-/

namespace Stencil.Files

/-- The path that goes down from another one by names. -/
def Path.descend (base : String) (names : List String) : String := names.foldl Path.join base

namespace Path

variable {base : String} {names others : List String}

@[simp] theorem descend_nil : descend base [] = base := rfl

@[simp] theorem descend_cons {s : String} :
    descend base (s :: names) = descend (join base s) names := rfl

theorem descend_concat {s : String} :
    descend base (names ++ [s]) = join (descend base names) s := by
  simp [descend]

theorem components_descend (hbase : base ≠ "") (h : ∀ s ∈ names, IsName s) :
    components (descend base names) = components base ++ names.map .name := by
  induction names generalizing base with
  | nil => simp
  | cons s rest ih =>
      have hs := h s List.mem_cons_self
      rw [descend_cons, ih (join_ne_empty hs) fun r hr => h r (List.mem_cons_of_mem s hr),
        components_join_name hs hbase]
      simp

theorem names_eq_of_components (hbase : base ≠ "") (hnames : ∀ s ∈ names, IsName s)
    (hothers : ∀ s ∈ others, IsName s)
    (h : components (descend base names) = components (descend base others)) : names = others := by
  rw [components_descend hbase hnames, components_descend hbase hothers,
    List.append_cancel_left_eq] at h
  exact List.map_injective_iff.mpr (fun _ _ hname => Component.name.inj hname) h

end Path

namespace Tree

variable {t : Tree} {l : Location}

/-- What lies below a directory is reached by names. -/
theorem Proper.isName_below (ht : t.Proper) {names : List String}
    (h : (t.get? (l ++ names)).isSome) : ∀ s ∈ names, Path.IsName s := by
  induction names using List.reverseRecOn with
  | nil => exact fun s hs => nomatch hs
  | append_singleton front s ih =>
      rw [← List.append_assoc] at h
      intro r hr
      rcases List.mem_append.mp hr with hfront | hlast
      · exact ih (by simp [ht.above _ s h]) r hfront
      · rw [List.mem_singleton.mp hlast]
        exact ht.named _ s h

end Tree

end Stencil.Files
