import Stencil.Proofs.Decimal.Digits
import Stencil.Yaml.Record

/-!
# Fractions in a YAML text

A plain scalar of digits with a point between them is no text: it means the double that is nearest
to the number.  In quotes it is the text that it looks like.
-/

namespace Stencil

open Decimal (Spells)

-- powers of numbers are those of the core library
attribute [local instance (2000)] instPowNat

namespace Yaml.Meaning

/-! ## Scalars with a point -/

section Point

variable {cs : List Char} {s : String}

/-- A point is no digit in any base that is read. -/
theorem readDigits_of_point {base : Nat} (hbase : base ≤ 16) (h : '.' ∈ cs) :
    ∀ acc, Decimal.readDigits base acc cs = none := by
  induction cs with
  | nil => cases h
  | cons c rest ih =>
      intro acc
      rw [Decimal.readDigits]
      rcases List.mem_cons.mp h with rfl | h
      · have hpoint : Decimal.digitValue? base '.' = if 99 < base then some 99 else none := rfl
        rw [hpoint, if_neg (by omega)]
      · cases Decimal.digitValue? base c with
        | none => rfl
        | some v => exact ih h _

theorem readNat?_of_point {base : Nat} (hbase : base ≤ 16) (h : '.' ∈ cs) :
    Decimal.readNat? base cs = none := by
  unfold Decimal.readNat?
  rw [readDigits_of_point hbase h]
  exact ite_self _

theorem not_all_digits_of_point (h : '.' ∈ '0' :: cs) : cs.all Char.isDigit = false := by
  rw [List.all_eq_false]
  exact ⟨'.', (List.mem_cons.mp h).resolve_left (by decide), by decide⟩

theorem isZeroPadded_of_point (h : '.' ∈ cs) : isZeroPadded cs = false := by
  unfold isZeroPadded
  dsimp only
  split
  · rename_i rest hbody
    have hrest : rest.all Char.isDigit = false := by
      split at hbody
      · rw [hbody] at h
        exact not_all_digits_of_point ((List.mem_cons.mp h).resolve_left (by decide))
      · rw [hbody] at h
        exact not_all_digits_of_point ((List.mem_cons.mp h).resolve_left (by decide))
      · rw [hbody] at h
        exact not_all_digits_of_point h
    rw [hrest, Bool.and_false]
  · rfl

theorem magnitude?_of_point (h : '.' ∈ cs) : magnitude? cs = none := by
  unfold magnitude?
  rw [List.findSome?_eq_none_iff.mpr, readNat?_of_point (by decide) h]
  · exact ite_self _
  · rintro ⟨mark, base⟩ hmem
    have hmark : ∀ p ∈ bases, '.' ∉ p.1 ∧ p.2 ≤ 16 := by decide
    obtain ⟨hpoint, hbase⟩ := hmark _ hmem
    show (Text.dropPrefixList mark cs).bind (Decimal.readNat? base) = none
    cases hrest : Text.dropPrefixList mark cs with
    | none => rfl
    | some rest =>
        rw [Text.dropPrefixList_eq_some_iff.mp hrest, List.mem_append] at h
        exact readNat?_of_point hbase (h.resolve_left hpoint)

/-- A scalar with a point is no whole number. -/
theorem int?_of_point (h : '.' ∈ s.toList) : int? s = none := by
  have hwhole : whole? s.toList = none := by
    unfold whole?
    split
    · rename_i rest hrest
      rw [hrest] at h
      rw [magnitude?_of_point ((List.mem_cons.mp h).resolve_left (by decide))]
      rfl
    · rename_i rest hrest
      rw [hrest] at h
      rw [magnitude?_of_point ((List.mem_cons.mp h).resolve_left (by decide))]
      rfl
    · rw [magnitude?_of_point h]
      rfl
  rw [int?, hwhole]
  rfl

theorem isNull_of_point (h : '.' ∈ s.toList) : isNull s = false := by
  have hwords : ∀ word ∈ ["null", "Null", "NULL", "~"], '.' ∉ word.toList := by decide
  unfold isNull
  rw [List.contains_eq_mem, decide_eq_false_iff_not]
  exact fun hmem => hwords s hmem h

theorem bool?_of_point (h : '.' ∈ s.toList) : bool? s = none := by
  have hwords : ∀ word ∈ ["true", "True", "TRUE"] ++ ["false", "False", "FALSE"],
      '.' ∉ word.toList := by decide
  unfold bool?
  rw [List.contains_eq_mem, List.contains_eq_mem, if_neg, if_neg]
  · rw [decide_eq_true_eq]
    exact fun hmem => hwords s (List.mem_append_right _ hmem) h
  · rw [decide_eq_true_eq]
    exact fun hmem => hwords s (List.mem_append_left _ hmem) h

end Point

/-! ## The number of a fraction -/

section Fraction

variable {a b : List Char} {m n : Nat} {s : String}

theorem spanDigits_of_digits {rest : List Char} (ha : ∀ c ∈ a, c.isDigit = true)
    (hrest : ∀ c ∈ rest.head?, c.isDigit = false) :
    Decimal.spanDigits (a ++ rest) = (a, rest) := by
  unfold Decimal.spanDigits
  rw [List.takeWhile_append_of_pos ha, List.dropWhile_append_of_pos ha]
  cases rest with
  | nil => simp
  | cons c rest =>
      have hc : c.isDigit = false := hrest c rfl
      simp [hc]

/-- The value of digits with a point between them, without the point. -/
theorem spells_append (ha : Spells a m) (hb : Spells b n) :
    Spells (a ++ b) (m * 10 ^ b.length + n) where
  nonempty h := ha.nonempty (List.append_eq_nil_iff.mp h).1
  digits c hc := (List.mem_append.mp hc).elim (ha.digits c) (hb.digits c)
  value := by
    rw [Nat.ofDigitChars_append, Nat.ofDigitChars_eq_ofDigitChars_zero, ha.value, hb.value,
      Nat.mul_comm]

theorem readMagnitude?_of_fraction (ha : Spells a m) (hb : Spells b n) :
    Decimal.readMagnitude? (a ++ '.' :: b) =
      some (m * 10 ^ b.length + n, -(b.length : Int)) := by
  have hwhole : Decimal.spanDigits (a ++ '.' :: b) = (a, '.' :: b) :=
    spanDigits_of_digits ha.digits (by simp)
  have hfraction : Decimal.spanDigits b = (b, []) := by
    have hspan : Decimal.spanDigits (b ++ []) = (b, []) :=
      spanDigits_of_digits hb.digits (by simp)
    rwa [List.append_nil] at hspan
  have hempty : a.isEmpty = false := by
    rw [List.isEmpty_eq_false_iff]
    exact ha.nonempty
  unfold Decimal.readMagnitude?
  simp only [hwhole, hfraction, hempty, Bool.false_and, Bool.false_eq_true, if_false,
    Decimal.readNat?_eq_some.mpr (spells_append ha hb), Decimal.readExponent?]
  simp

theorem ne_sign_of_isDigit {c : Char} (h : c.isDigit = true) : c ≠ '+' ∧ c ≠ '-' := by
  constructor
  · rintro rfl
    exact absurd h (by decide)
  · rintro rfl
    exact absurd h (by decide)

theorem readDouble?_of_fraction (ha : Spells a m) (hb : Spells b n) :
    Decimal.readDouble? (a ++ '.' :: b) =
      some (.ofDecimal false (m * 10 ^ b.length + n) (-(b.length : Int))) := by
  have hmagnitude := readMagnitude?_of_fraction ha hb
  obtain ⟨c, rest, rfl⟩ : ∃ c rest, a = c :: rest := List.exists_cons_of_ne_nil ha.nonempty
  obtain ⟨hplus, hminus⟩ := ne_sign_of_isDigit (ha.digits c List.mem_cons_self)
  have hsign : Decimal.readSign (c :: rest ++ '.' :: b) = (false, c :: rest ++ '.' :: b) := by
    unfold Decimal.readSign
    split
    · rename_i heq
      exact absurd (List.cons.inj heq).1 hminus
    · rename_i heq
      exact absurd (List.cons.inj heq).1 hplus
    · rfl
  unfold Decimal.readDouble?
  rw [hsign]
  dsimp only
  rw [hmagnitude, Option.map_some]

theorem float?_of_fraction {d : Double} (hs : s.toList = a ++ '.' :: b) (ha : Spells a m)
    (hb : Spells b n) (hd : Double.ofDecimal false (m * 10 ^ b.length + n) (-(b.length : Int)) = d)
    (hfinite : d.isFinite = true) : float? s = some d := by
  have hread : Decimal.readDouble? s.toList = some d := by
    rw [hs, readDouble?_of_fraction ha hb, hd]
  obtain ⟨c, rest, rfl⟩ : ∃ c rest, a = c :: rest := List.exists_cons_of_ne_nil ha.nonempty
  have hc := ha.digits c List.mem_cons_self
  -- the words for infinity and for what is no number do not begin with a digit
  have hwords : ∀ words : List String,
      (∀ word ∈ words, word.toList.head?.any Char.isDigit = false) → s ∉ words := by
    intro words hhead hmem
    have := hhead s hmem
    rw [hs] at this
    simp [hc] at this
  have hhead : s.toList.head? ≠ some '+' := by
    rw [hs]
    exact fun h => (ne_sign_of_isDigit hc).1 (Option.some.inj h)
  unfold float?
  dsimp only
  split
  · -- only a plus sign in front of another sign is refused
    rename_i hnone
    split at hnone
    · rename_i heq
      exact absurd (congrArg List.head? heq) hhead
    · rename_i heq
      exact absurd (congrArg List.head? heq) hhead
    · cases hnone
    · cases hnone
  · rename_i body hbody
    have hbody : body = s.toList := by
      split at hbody
      · cases hbody
      · cases hbody
      · rename_i heq
        exact absurd (congrArg List.head? heq) hhead
      · exact (Option.some.inj hbody).symm
    rw [hbody, String.ofList_toList, hread]
    simp only [List.contains_eq_mem, decide_eq_true_eq]
    rw [if_neg, if_neg, if_neg, Option.filter_some, if_pos hfinite]
    · exact hwords _ (by decide)
    · exact hwords _ (by decide)
    · exact hwords _ (by decide)

/-- A fraction without quotes is a number. -/
theorem ofPlain_of_fraction {d : Double} (hs : s.toList = a ++ '.' :: b) (ha : Spells a m)
    (hb : Spells b n) (hd : Double.ofDecimal false (m * 10 ^ b.length + n) (-(b.length : Int)) = d)
    (hfinite : d.isFinite = true) : ofPlain s = .float d := by
  have hpoint : '.' ∈ s.toList := by
    rw [hs]
    exact List.mem_append_right _ List.mem_cons_self
  have hempty : s.isEmpty = false := by
    rw [String.isEmpty_eq_false_iff]
    rintro rfl
    cases hpoint
  unfold ofPlain
  rw [hempty, isNull_of_point hpoint, bool?_of_point hpoint, int?_of_point hpoint,
    isZeroPadded_of_point hpoint, float?_of_fraction hs ha hb hd hfinite]
  rfl

end Fraction

end Yaml.Meaning

namespace Yaml.Node

/-! ## Entries with a text -/

variable {s : String} {style : Style}

/-- A text in quotes or on lines of its own is read as it is. -/
theorem versionText?_of_style (h : style ≠ .plain) :
    versionText? (.scalar none style s) = some (some s) := by
  have hvalue : value? (.scalar none style s) = some (.scalar (.text s)) := by
    have hmeaning : meaning? none style s = some (.text s) := congrArg some (if_neg h)
    rw [value?, hmeaning]
    rfl
  have hthere : present? (.scalar none style s) = some (some (.scalar none style s)) := by
    cases style with
    | plain => exact absurd rfl h
    | _ => rfl
  rw [versionText?, orNothing?, hthere]
  dsimp only
  rw [hvalue]
  rfl

/-- A plain number is read as the text that it is printed with. -/
theorem versionText?_of_float {d : Double} (h : Meaning.ofPlain s = .float d) :
    versionText? (.scalar none .plain s) = some (some (Layout.yaml.write d)) := by
  have hpresent : (s.isEmpty || Meaning.isNull s) = false := by
    by_contra hnull
    rw [Bool.not_eq_false] at hnull
    rw [Meaning.ofPlain, if_pos hnull] at h
    cases h
  have hmeaning : meaning? none .plain s = some (.float d) := congrArg some h
  have hvalue : value? (.scalar none .plain s) = some (.scalar (.float d)) := by
    rw [value?, hmeaning]
    rfl
  have hthere : present? (.scalar none .plain s) = some (some (.scalar none .plain s)) := by
    rw [present?, hpresent]
    rfl
  rw [versionText?, orNothing?, hthere]
  dsimp only
  rw [hvalue]
  rfl

end Yaml.Node

end Stencil
