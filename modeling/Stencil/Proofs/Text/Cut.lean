import Mathlib.Data.List.Induction
import Mathlib.Data.List.TakeWhile
import Stencil.Text.Blank
import Stencil.Text.Split

/-!
# What cutting and trimming leave

A text that is cut at a separator is its two parts with the separator between them,
and one of the parts has none; of its pieces none has one.  A trimmed text is what
stands between the white space at the ends of another.  Where one character is
replaced, all others stay.
-/

namespace Stencil.Text

/-! ## Cutting -/

section Cutting

variable {sep : Char} {cs front back : List Char}

theorem cutFirstList_eq_none : cutFirstList sep cs = none ↔ sep ∉ cs := by
  induction cs with
  | nil => simp [cutFirstList]
  | cons c rest ih =>
      unfold cutFirstList
      by_cases hc : c = sep
      · simp [hc]
      · simp [hc, ih, Ne.symm hc]

theorem cutFirstList_append (h : sep ∉ front) :
    cutFirstList sep (front ++ sep :: back) = some (front, back) := by
  induction front with
  | nil => simp [cutFirstList]
  | cons c front ih =>
      obtain ⟨hc, hfront⟩ := not_or.mp (mt List.mem_cons.mpr h)
      rw [List.cons_append, cutFirstList, if_neg (Ne.symm hc), ih hfront]
      rfl

theorem cutFirstList_eq_some :
    cutFirstList sep cs = some (front, back) ↔ cs = front ++ sep :: back ∧ sep ∉ front := by
  constructor
  · intro h
    induction cs generalizing front with
    | nil => cases h
    | cons c rest ih =>
        unfold cutFirstList at h
        by_cases hc : c = sep
        · rw [if_pos hc] at h
          cases h
          exact ⟨by rw [hc]; rfl, List.not_mem_nil⟩
        · rw [if_neg hc] at h
          obtain ⟨⟨a, b⟩, hcut, heq⟩ := Option.map_eq_some_iff.mp h
          cases heq
          obtain ⟨rfl, hnone⟩ := ih hcut
          exact ⟨rfl, List.not_mem_cons_of_ne_of_not_mem (Ne.symm hc) hnone⟩
  · rintro ⟨rfl, h⟩
    exact cutFirstList_append h

end Cutting

section CuttingLast

variable {α : Type} [DecidableEq α] {sep : α} {cs front back : List α}

theorem cutLastList_eq_none : cutLastList sep cs = none ↔ sep ∉ cs := by
  induction cs with
  | nil => simp [cutLastList]
  | cons c rest ih =>
      unfold cutLastList
      cases hcut : cutLastList sep rest with
      | some p =>
          have hmem : sep ∈ rest := by
            refine Decidable.not_not.mp (mt ih.mpr ?_)
            rw [hcut]
            exact Option.some_ne_none p
          simp [hmem]
      | none =>
          have hrest := ih.mp hcut
          by_cases hc : c = sep
          · simp [hc]
          · simp [hc, Ne.symm hc, hrest]

theorem cutLastList_append (h : sep ∉ back) :
    cutLastList sep (front ++ sep :: back) = some (front, back) := by
  induction front with
  | nil => rw [List.nil_append, cutLastList, cutLastList_eq_none.mpr h]; simp
  | cons c front ih => rw [List.cons_append, cutLastList, ih]

theorem cutLastList_eq_some :
    cutLastList sep cs = some (front, back) ↔ cs = front ++ sep :: back ∧ sep ∉ back := by
  constructor
  · intro h
    induction cs generalizing front with
    | nil => cases h
    | cons c rest ih =>
        unfold cutLastList at h
        cases hcut : cutLastList sep rest with
        | some p =>
            rw [hcut] at h
            cases h
            obtain ⟨rfl, hnone⟩ := ih hcut
            exact ⟨rfl, hnone⟩
        | none =>
            rw [hcut] at h
            by_cases hc : c = sep
            · simp only [if_pos hc, Option.some.injEq, Prod.mk.injEq] at h
              obtain ⟨rfl, rfl⟩ := h
              exact ⟨by rw [hc]; rfl, cutLastList_eq_none.mp hcut⟩
            · simp [if_neg hc] at h
  · rintro ⟨rfl, h⟩
    exact cutLastList_append h

end CuttingLast

section Strings

variable {sep : Char} {s front back : String}

theorem cutFirst_eq_some :
    cutFirst sep s = some (front, back) ↔
      s.toList = front.toList ++ sep :: back.toList ∧ sep ∉ front.toList := by
  unfold cutFirst
  rw [Option.map_eq_some_iff]
  constructor
  · rintro ⟨⟨a, b⟩, hcut, heq⟩
    cases heq
    rw [String.toList_ofList, String.toList_ofList]
    exact cutFirstList_eq_some.mp hcut
  · intro h
    exact ⟨(front.toList, back.toList), cutFirstList_eq_some.mpr h,
      by simp only [String.ofList_toList]⟩

theorem cutFirst_eq_none : cutFirst sep s = none ↔ sep ∉ s.toList := by
  unfold cutFirst
  rw [Option.map_eq_none_iff, cutFirstList_eq_none]

theorem cutLast_eq_none : cutLast sep s = none ↔ sep ∉ s.toList := by
  unfold cutLast
  rw [Option.map_eq_none_iff, cutLastList_eq_none]

theorem cutLast_eq_some :
    cutLast sep s = some (front, back) ↔
      s.toList = front.toList ++ sep :: back.toList ∧ sep ∉ back.toList := by
  unfold cutLast
  rw [Option.map_eq_some_iff]
  constructor
  · rintro ⟨⟨a, b⟩, hcut, heq⟩
    cases heq
    rw [String.toList_ofList, String.toList_ofList]
    exact cutLastList_eq_some.mp hcut
  · intro h
    exact ⟨(front.toList, back.toList), cutLastList_eq_some.mpr h,
      by simp only [String.ofList_toList]⟩

end Strings

/-! ## Pieces -/

theorem pieces_eq_splitOn (sep : Char) (cs : List Char) : pieces sep cs = cs.splitOn sep := by
  induction cs with
  | nil => rfl
  | cons c rest ih =>
      rw [pieces, ih, List.splitOn_cons_eq_if_modifyHead]
      by_cases hc : c = sep
      · simp [hc]
      · rw [if_neg hc, if_neg (by simpa using hc)]
        cases hpieces : rest.splitOn sep with
        | nil => exact absurd hpieces (List.splitOn_ne_nil sep rest)
        | cons p ps => rfl

theorem split_ne_nil (sep : Char) (s : String) : split sep s ≠ [] := by
  simp [split, pieces_eq_splitOn]

theorem not_mem_of_mem_pieces {sep : Char} {cs : List Char} :
    ∀ p ∈ pieces sep cs, sep ∉ p := by
  induction cs with
  | nil => simp [pieces]
  | cons c rest ih =>
      intro p hp
      unfold pieces at hp
      split at hp
      · rcases List.mem_cons.mp hp with rfl | hp
        · exact List.not_mem_nil
        · exact ih p hp
      · rename_i hc
        cases hpieces : pieces sep rest with
        | nil =>
            rw [hpieces] at hp
            simp only [List.mem_singleton] at hp
            simpa [hp] using Ne.symm hc
        | cons q qs =>
            rw [hpieces] at hp ih
            rcases List.mem_cons.mp hp with rfl | hp
            · exact List.not_mem_cons_of_ne_of_not_mem (Ne.symm hc) (ih q List.mem_cons_self)
            · exact ih p (List.mem_cons_of_mem q hp)

theorem not_mem_of_mem_split {sep : Char} {s p : String} (h : p ∈ split sep s) :
    sep ∉ p.toList := by
  obtain ⟨cs, hcs, rfl⟩ := List.mem_map.mp h
  rw [String.toList_ofList]
  exact not_mem_of_mem_pieces cs hcs

/-- A text without the separator is one piece. -/
theorem split_of_not_mem {sep : Char} {s : String} (h : sep ∉ s.toList) : split sep s = [s] := by
  rw [split, pieces_eq_splitOn, List.splitOn_eq_singleton h, List.map_singleton,
    String.ofList_toList]

/-- The pieces of two texts with the separator between them are those of one after the other. -/
theorem split_append {sep : Char} {mark : String} (hmark : mark.toList = [sep]) (s t : String) :
    split sep (s ++ mark ++ t) = split sep s ++ split sep t := by
  have hlist : (s ++ mark ++ t).toList = s.toList ++ sep :: t.toList := by
    simp [String.toList_append, hmark]
  simp only [split, pieces_eq_splitOn, hlist, List.splitOn_append_cons_self, List.map_append]

/-- A text in two pieces is these with the separator between them. -/
theorem pieces_eq_pair {sep : Char} {cs a b : List Char} :
    pieces sep cs = [a, b] ↔ cs = a ++ sep :: b ∧ sep ∉ a ∧ sep ∉ b := by
  constructor
  · intro h
    have hnone : ∀ p ∈ pieces sep cs, sep ∉ p := not_mem_of_mem_pieces
    rw [h] at hnone
    have hjoined : [sep].intercalate (cs.splitOn sep) = cs := List.intercalate_splitOn sep
    rw [← pieces_eq_splitOn, h] at hjoined
    exact ⟨by simpa using hjoined.symm, hnone a (by simp), hnone b (by simp)⟩
  · rintro ⟨rfl, ha, hb⟩
    rw [pieces_eq_splitOn, List.splitOn_append_cons_self, List.splitOn_eq_singleton ha,
      List.splitOn_eq_singleton hb]
    rfl

/-! ## Trimming -/

section Trimming

/-- Neither the first nor the last character is one of the class. -/
structure Trimmed (p : Char → Bool) (cs : List Char) : Prop where
  first : ∀ c ∈ cs.head?, p c = false
  last : ∀ c ∈ cs.getLast?, p c = false

variable {p : Char → Bool} {cs core : List Char}

theorem trimmed_of_all (hfirst : cs.head?.all (!p ·) = true) (hlast : cs.getLast?.all (!p ·) = true) :
    Trimmed p cs where
  first := by
    intro c hc
    rw [Option.mem_def.mp hc] at hfirst
    simpa using hfirst
  last := by
    intro c hc
    rw [Option.mem_def.mp hc] at hlast
    simpa using hlast

/-- What stands around a character of another kind may be of any kind where they meet. -/
theorem trimmed_append_cons {front back : List Char} {sep : Char}
    (hfront : ∀ c ∈ front.head?, p c = false) (hsep : p sep = false)
    (hback : ∀ c ∈ back.getLast?, p c = false) : Trimmed p (front ++ sep :: back) where
  first := by
    intro c hc
    cases front with
    | nil =>
        cases hc
        exact hsep
    | cons d rest => exact hfront c hc
  last := by
    intro c hc
    cases back using List.reverseRecOn with
    | nil =>
        rw [List.getLast?_concat] at hc
        cases hc
        exact hsep
    | append_singleton rest d =>
        rw [← List.cons_append, ← List.append_assoc, List.getLast?_concat] at hc
        exact hback c (List.getLast?_concat.trans hc)

theorem dropWhile_of_head? (h : ∀ c ∈ cs.head?, p c = false) : cs.dropWhile p = cs := by
  cases cs with
  | nil => rfl
  | cons c rest => exact List.dropWhile_cons_of_neg (by simp [h c rfl])

theorem head?_dropWhile (cs : List Char) : ∀ c ∈ (cs.dropWhile p).head?, p c = false := by
  intro c hc
  have h := List.head?_dropWhile_not p cs
  rw [hc] at h
  exact h

/-- White space around a text that has none at its ends is taken away. -/
theorem trimList_append {before after : List Char} (hbefore : ∀ c ∈ before, p c = true)
    (hafter : ∀ c ∈ after, p c = true) (hcore : Trimmed p core) :
    trimList p (before ++ core ++ after) = core := by
  have hback : ∀ c ∈ after.reverse, p c = true := fun c hc => hafter c (List.mem_reverse.mp hc)
  unfold trimList
  rw [List.append_assoc, List.dropWhile_append_of_pos hbefore]
  cases core with
  | nil => simp [List.dropWhile_eq_nil_iff.mpr hafter]
  | cons c rest =>
      have hfirst : p c = false := hcore.first c rfl
      rw [List.cons_append, List.dropWhile_cons_of_neg (by simp [hfirst]), ← List.cons_append,
        List.reverse_append, List.dropWhile_append_of_pos hback, dropWhile_of_head?,
        List.reverse_reverse]
      rw [List.head?_reverse]
      exact hcore.last

theorem dropWhile_eq_trimList_append (p : Char → Bool) (cs : List Char) :
    cs.dropWhile p = trimList p cs ++ ((cs.dropWhile p).reverse.takeWhile p).reverse := by
  have h := List.takeWhile_append_dropWhile (p := p) (l := (cs.dropWhile p).reverse)
  rw [← List.reverse_inj, List.reverse_append, trimList, List.reverse_reverse, List.reverse_reverse]
  exact h.symm

theorem trimmed_trimList (p : Char → Bool) (cs : List Char) : Trimmed p (trimList p cs) where
  first := by
    intro c hc
    refine head?_dropWhile cs c ?_
    rw [dropWhile_eq_trimList_append, List.head?_append, hc]
    rfl
  last := by
    intro c hc
    rw [trimList, List.getLast?_reverse] at hc
    exact head?_dropWhile _ c hc

/-- Nothing but characters of the class is taken away, and only at the ends. -/
theorem exists_around_trimList (p : Char → Bool) (cs : List Char) :
    ∃ before after, cs = before ++ trimList p cs ++ after ∧
      (∀ c ∈ before, p c = true) ∧ ∀ c ∈ after, p c = true := by
  refine ⟨cs.takeWhile p, ((cs.dropWhile p).reverse.takeWhile p).reverse, ?_, ?_, ?_⟩
  · rw [List.append_assoc, ← dropWhile_eq_trimList_append, List.takeWhile_append_dropWhile]
  · intro c hc
    exact List.mem_takeWhile_imp hc
  · intro c hc
    exact List.mem_takeWhile_imp (List.mem_reverse.mp hc)

end Trimming

/-! ## Replacing a character -/

theorem replaceList_singleton (needle : Char) (by_ : List Char) {fuel : Nat} {cs : List Char}
    (h : cs.length ≤ fuel) :
    replaceList fuel [needle] by_ cs = cs.flatMap fun c => if c = needle then by_ else [c] := by
  induction cs generalizing fuel with
  | nil => cases fuel <;> rfl
  | cons c cs ih =>
      cases fuel with
      | zero => simp at h
      | succ fuel =>
          have hrest := ih (Nat.le_of_succ_le_succ h)
          by_cases hc : c = needle
          · simp [replaceList, dropPrefixList, hc, hrest]
          · simp [replaceList, dropPrefixList, hc, Ne.symm hc, hrest]

end Stencil.Text
