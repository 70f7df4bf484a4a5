import Stencil.Proofs.Decimal.Digits
import Stencil.Proofs.Decimal.ShortestDigits

/-!
# Decimals with all digits

All digits of a decimal are those of its whole part, a point, and as many digits as it has places,
with zeros in front of them where the fraction is small.
-/

namespace Stencil

-- powers of numbers are those of the core library
attribute [local instance (2000)] instPowNat

namespace Decimal

/-! ## Digits with zeros in front -/

/-- The last digits of a number, as many as asked for. -/
def lastDigits : Nat → Nat → List Char
  | 0, _ => []
  | places + 1, n => lastDigits places (n / 10) ++ [Nat.digitChar (n % 10)]

variable {n m places e : Nat}

theorem length_lastDigits (places n : Nat) : (lastDigits places n).length = places := by
  induction places generalizing n with
  | zero => rfl
  | succ places ih => simp [lastDigits, ih]

theorem isDigit_of_mem_lastDigits {c : Char} (h : c ∈ lastDigits places n) : c.isDigit = true := by
  induction places generalizing n with
  | zero => cases h
  | succ places ih =>
      rcases List.mem_append.mp h with h | h
      · exact ih h
      · rw [← Nat.toDigits_of_lt_base (b := 10) (Nat.mod_lt _ (by decide))] at h
        exact (spells_toDigits _).digits c h

theorem ofDigitChars_lastDigits (places n : Nat) :
    Nat.ofDigitChars 10 (lastDigits places n) 0 = n % 10 ^ places := by
  induction places generalizing n with
  | zero => rw [Nat.pow_zero, Nat.mod_one]; rfl
  | succ places ih =>
      have hlast : n % 10 < 10 := Nat.mod_lt _ (by decide)
      rw [lastDigits, Nat.ofDigitChars_append, ih,
        Nat.ofDigitChars_cons_digitChar_of_lt_ten hlast, Nat.ofDigitChars_nil, Nat.pow_succ,
        Nat.mul_comm (10 ^ places) 10, Nat.mod_mul]
      omega

theorem spells_lastDigits (h : 0 < places) (n : Nat) :
    Spells (lastDigits places n) (n % 10 ^ places) where
  nonempty hnil := by
    have := length_lastDigits places n
    rw [hnil] at this
    exact absurd this (Nat.ne_of_lt h)
  digits _ hc := isDigit_of_mem_lastDigits hc
  value := ofDigitChars_lastDigits places n

/-- The last digits are all of the digits of a number with as many of them. -/
theorem lastDigits_length (m : Nat) (h : n % 10 ^ (Nat.toDigits 10 m).length = m) :
    lastDigits (Nat.toDigits 10 m).length n = Nat.toDigits 10 m := by
  induction m using Nat.strongRecOn generalizing n with
  | ind m ih =>
      rcases Nat.lt_or_ge m 10 with hlt | hge
      · rw [Nat.toDigits_of_lt_base hlt] at h ⊢
        have hlast : n % 10 = m := h
        simp [lastDigits, hlast]
      · rw [Nat.toDigits_of_base_le (by decide) hge] at h ⊢
        rw [List.length_append, List.length_singleton] at h ⊢
        rw [Nat.pow_succ, Nat.mul_comm, Nat.mod_mul] at h
        have hlast : n % 10 = m % 10 := by omega
        have hrest : n / 10 % 10 ^ (Nat.toDigits 10 (m / 10)).length = m / 10 := by omega
        rw [lastDigits, ih (m / 10) (by omega) hrest, hlast]

/-- Digits with zeros in front are those of the quotient by a power of ten, and the last ones. -/
theorem padded_toDigits (places n : Nat) :
    List.replicate (places + 1 - (Nat.toDigits 10 n).length) '0' ++ Nat.toDigits 10 n =
      Nat.toDigits 10 (n / 10 ^ places) ++ lastDigits places n := by
  induction places generalizing n with
  | zero =>
      have hpos : 0 < (Nat.toDigits 10 n).length := Nat.length_toDigits_pos
      have hnone : 0 + 1 - (Nat.toDigits 10 n).length = 0 := by omega
      rw [hnone, Nat.pow_zero, Nat.div_one, lastDigits, List.append_nil]
      rfl
  | succ places ih =>
      have hquotient : n / 10 ^ (places + 1) = n / 10 / 10 ^ places := by
        rw [Nat.pow_succ, Nat.mul_comm, Nat.div_div_eq_div_mul]
      rw [lastDigits, hquotient, ← List.append_assoc, ← ih]
      -- a single digit leaves a zero as the quotient, which takes the place of one in front
      rcases Nat.lt_or_ge n 10 with hlt | hge
      · have hzero : n / 10 = 0 := by omega
        rw [hzero, Nat.toDigits_zero, Nat.toDigits_of_lt_base hlt, Nat.mod_eq_of_lt hlt]
        simp [List.replicate_succ']
      · rw [Nat.toDigits_of_base_le (by decide) hge]
        rw [List.length_append, List.length_singleton, Nat.add_sub_add_right, List.append_assoc]

theorem toDigits_mul_pow (h : 0 < n) :
    Nat.toDigits 10 (n * 10 ^ e) = Nat.toDigits 10 n ++ List.replicate e '0' := by
  induction e with
  | zero => simp
  | succ e ih =>
      have hpos : 0 < n * 10 ^ e := Nat.mul_pos h (Nat.pow_pos (by decide))
      have hten : n * 10 ^ (e + 1) = 10 * (n * 10 ^ e) + 0 := by
        rw [Nat.pow_succ]
        ring
      rw [hten, ← Nat.toDigits_append_toDigits (by decide) hpos (by decide), ih,
        Nat.toDigits_zero, List.append_assoc, List.replicate_succ']

/-! ## The digits of a decimal -/

variable {d : Decimal}

theorem writePlain_whole (h : d.Normal) (he : 0 ≤ d.exponent) :
    (Layout.writePlain d).toList =
      Nat.toDigits 10 (d.digits * 10 ^ d.exponent.toNat) ++ ['.', '0'] := by
  unfold Layout.writePlain
  rw [if_pos he, String.toList_ofList]
  rcases h with hdigits | rfl
  · rw [toDigits_mul_pow (by omega)]
  · rfl

theorem writePlain_fraction (he : d.exponent < 0) :
    (Layout.writePlain d).toList =
      Nat.toDigits 10 (d.digits / 10 ^ (-d.exponent).toNat) ++
        '.' :: lastDigits (-d.exponent).toNat d.digits := by
  unfold Layout.writePlain
  rw [if_neg (by omega)]
  dsimp only
  generalize (-d.exponent).toNat = places
  rw [padded_toDigits, List.length_append, length_lastDigits, Nat.add_sub_cancel,
    String.toList_ofList, List.take_left, List.drop_left]

/-- What is written is a whole number with a zero behind the point, or a fraction that does not end
with a zero. -/
theorem writePlain_cases (h : d.Normal) :
    (∃ whole : Nat, d.value = whole ∧
        (Layout.writePlain d).toList = Nat.toDigits 10 whole ++ '.' :: Nat.toDigits 10 0) ∨
      ∃ places : Nat, 0 < places ∧ d.digits % 10 ≠ 0 ∧ d.value = d.digits / 10 ^ places ∧
        (Layout.writePlain d).toList =
          Nat.toDigits 10 (d.digits / 10 ^ places) ++ '.' :: lastDigits places d.digits := by
  rcases lt_or_ge d.exponent 0 with hneg | hpos
  · obtain ⟨places, hplaces⟩ : ∃ places : Nat, d.exponent = -(places : Int) :=
      ⟨(-d.exponent).toNat, by omega⟩
    have hwritten := writePlain_fraction hneg
    rw [hplaces, neg_neg, Int.toNat_natCast] at hwritten
    refine .inr ⟨places, by omega, ?_, ?_, hwritten⟩
    · rcases h with hdigits | rfl
      · exact hdigits
      · cases hneg
    · rw [value, hplaces, zpow_neg, zpow_natCast]
      rfl
  · refine .inl ⟨_, ?_, writePlain_whole h hpos⟩
    obtain ⟨n, hn⟩ := Int.eq_ofNat_of_zero_le hpos
    rw [value, hn, Int.toNat_natCast, zpow_natCast]
    push_cast
    rfl

end Decimal

end Stencil
