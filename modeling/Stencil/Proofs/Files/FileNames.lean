import Stencil.Proofs.Files.Components

/-!
# Names at the end of paths

The name in a directory is the one at the end of its path, and what lies above is the directory
again, in the form without pieces that count for nothing.  A name with an extension is cut into
the stem, which is not empty, and the extension.
-/

namespace Stencil.Files.Path

open Text (split)

variable {base path s stem : String}

/-! ## The last component -/

theorem IsName.ne_empty (h : IsName s) : s ≠ "" := by
  rintro rfl
  exact absurd h.component (by decide)

/-- A text without separators that has more than dots is a name. -/
theorem isName_of_mem {c : Char} (hc : c ∈ s.toList) (hdot : c ≠ '.') (hslash : '/' ∉ s.toList) :
    IsName s := by
  refine ⟨?_, hslash⟩
  have hempty : s ≠ "" := by
    rintro rfl
    cases hc
  have hcurrent : s ≠ "." := by
    rintro rfl
    exact hdot (List.mem_singleton.mp hc)
  have hparent : s ≠ ".." := by
    rintro rfl
    exact hdot ((List.mem_cons.mp hc).elim id List.mem_singleton.mp)
  simp [component?, hempty, hcurrent, hparent]

theorem components_name (h : IsName s) : components s = [.name s] := by
  have hcomponent := h.component
  have hdot : s ≠ "." := by
    rintro rfl
    exact absurd hcomponent (by decide)
  rw [components_eq, h.split, componentsOf, if_neg (by simp), if_neg hdot, hcomponent]
  rfl

/-- A name that is read from a path is its last component, even if the path is empty. -/
theorem components_join_of_name (h : IsName s) :
    components (join base s) = components base ++ [.name s] := by
  by_cases hbase : base = ""
  · have hjoin : join base s = s := by simp [join, h.isAbsolute, hbase]
    rw [hjoin, components_name h, hbase]
    rfl
  · exact components_join_name h hbase

theorem join_ne_empty (h : IsName s) : join base s ≠ "" := by
  intro hempty
  have hcomponents : components (join base s) = components base ++ [.name s] :=
    components_join_of_name h
  rw [hempty, show components "" = [] by decide] at hcomponents
  simp at hcomponents

theorem endsInDirectory_join_of_name (h : IsName s) :
    Tree.endsInDirectory (join base s) = false := by
  by_cases hbase : base = ""
  · have hjoin : join base s = s := by simp [join, h.isAbsolute, hbase]
    rw [hjoin]
    exact h.endsInDirectory
  · rw [endsInDirectory_join h.isAbsolute hbase]
    exact h.endsInDirectory

theorem fileName?_join (h : IsName s) : fileName? (join base s) = some s := by
  rw [fileName?, components_join_of_name h, List.getLast?_concat]

theorem fileName?_name (h : IsName s) : fileName? s = some s := by
  rw [fileName?, components_name h]
  rfl

/-! ## What lies above a name -/

/-- Something lies above a path that ends in a name. -/
theorem exists_parent? (hne : path ≠ "") (hend : Tree.endsInDirectory path = false) :
    ∃ above, parent? path = some above := by
  obtain ⟨before, last, hsplit⟩ := exists_split_eq path
  rw [endsInDirectory_eq hsplit, Bool.or_eq_false_iff, Bool.or_eq_false_iff] at hend
  obtain ⟨⟨hempty, hdot⟩, -⟩ := hend
  unfold parent?
  rw [if_neg (by simpa [String.isEmpty_iff] using hne), hsplit, List.reverse_append,
    List.reverse_singleton, List.singleton_append]
  cases before.reverse with
  | nil => exact ⟨"", by simp [dropSilent, hempty]⟩
  | cons p rest =>
      have hkept : dropSilent (last :: p :: rest) = last :: p :: rest := by
        simp [dropSilent, hempty, hdot]
      rw [hkept]
      dsimp only
      split
      · exact ⟨"", rfl⟩
      · exact ⟨_, rfl⟩

/-- What lies above a name in a directory has the components of the directory. -/
theorem components_parent?_join (h : IsName s) :
    ∃ above, parent? (join base s) = some above ∧ components above = components base := by
  have hend : Tree.endsInDirectory (join base s) = false := endsInDirectory_join_of_name h
  have hcomponents : components (join base s) = components base ++ [.name s] :=
    components_join_of_name h
  obtain ⟨above, habove⟩ := exists_parent? (join_ne_empty h) hend
  obtain ⟨r, hr⟩ := components_of_parent? habove hend
  exact ⟨above, habove, (List.append_inj' (hr.symm.trans hcomponents) rfl).1⟩

/-! ## Extensions -/

/-- A name is cut at its last dot, unless that is its first character. -/
theorem cutName?_eq_some (h : IsName s) {extension : String} :
    cutName? s = some (stem, some extension) ↔
      stem ≠ "" ∧ s = stem ++ "." ++ extension ∧ '.' ∉ extension.toList := by
  have hcut : Text.cutLast '.' s = some (stem, extension) ↔
      s = stem ++ "." ++ extension ∧ '.' ∉ extension.toList := by
    rw [Text.cutLast_eq_some, ← String.toList_inj]
    simp [String.toList_append]
  rw [← and_congr_right_iff.mpr fun _ => hcut, cutName?, fileName?_name h, Option.map_some,
    Option.some_inj]
  cases Text.cutLast '.' s with
  | none => simp
  | some parts =>
      obtain ⟨a, b⟩ := parts
      dsimp only
      split_ifs with hempty
      · have ha : a = "" := String.isEmpty_iff.mp hempty
        simp only [Prod.mk.injEq, reduceCtorEq, and_false, Option.some.injEq, false_iff, not_and]
        rintro hne rfl
        exact absurd ha hne
      · have ha : a ≠ "" := fun heq => hempty (String.isEmpty_iff.mpr heq)
        simp only [Prod.mk.injEq, Option.some.injEq]
        constructor
        · rintro ⟨rfl, rfl⟩
          exact ⟨ha, rfl, rfl⟩
        · exact fun heq => heq.2

/-- A name has a stem and an extension when it is these with a dot between them. -/
theorem stem?_and_extension? (h : IsName s) {extension : String} :
    (stem? s = some stem ∧ extension? s = some extension) ↔
      stem ≠ "" ∧ s = stem ++ "." ++ extension ∧ '.' ∉ extension.toList := by
  rw [← cutName?_eq_some h, stem?, extension?]
  cases cutName? s with
  | none => simp
  | some parts =>
      obtain ⟨a, b⟩ := parts
      simp

end Stencil.Files.Path
