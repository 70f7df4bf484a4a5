import Mathlib.Data.Nat.Digits.Defs
import Stencil.Decimal.Read

/-!
# Decimal digits

What is read as a natural number is a run of decimal digits, and its value is that of the
digits.  The digits of a number are read back as the number.
-/

namespace Stencil.Decimal

/-- Decimal digits, at least one of them, that spell a number; zeros may stand in front. -/
structure Spells (cs : List Char) (n : Nat) : Prop where
  nonempty : cs ≠ []
  digits : ∀ c ∈ cs, c.isDigit = true
  value : Nat.ofDigitChars 10 cs 0 = n

/-- Decimal digits that spell a number, behind one plus sign or without it. -/
inductive SpellsUnsigned : List Char → Nat → Prop where
  | plain {cs : List Char} {n : Nat} (h : Spells cs n) : SpellsUnsigned cs n
  | plus {cs : List Char} {n : Nat} (h : Spells cs n) : SpellsUnsigned ('+' :: cs) n

section Reading

variable {c : Char} {cs : List Char} {n : Nat}

theorem isDigit_iff : c.isDigit = true ↔ '0' ≤ c ∧ c ≤ '9' := by
  simp [Char.isDigit, Char.le_def]

theorem digitValue?_ten (c : Char) :
    digitValue? 10 c = if c.isDigit then some (c.toNat - '0'.toNat) else none := by
  unfold digitValue?
  by_cases h : c.isDigit = true
  · have hrange := isDigit_iff.mp h
    have hsmall : c.toNat ≤ '9'.toNat := hrange.2
    have hlt : c.toNat - '0'.toNat < 10 := by
      have hnine : '9'.toNat = 57 := rfl
      have hzero : '0'.toNat = 48 := rfl
      omega
    simp only [hrange, and_self, if_true, h, hlt]
  · have hrange := mt isDigit_iff.mpr h
    rw [if_neg hrange, if_neg h, if_neg]
    split_ifs <;> omega

theorem readDigits_eq_some {acc : Nat} :
    readDigits 10 acc cs = some n ↔
      (∀ c ∈ cs, c.isDigit = true) ∧ Nat.ofDigitChars 10 cs acc = n := by
  induction cs generalizing acc with
  | nil => simp [readDigits]
  | cons c rest ih =>
      rw [readDigits, digitValue?_ten, Nat.ofDigitChars_cons, Nat.mul_comm]
      by_cases h : c.isDigit = true
      · simp [h, ih]
      · simp [h]

theorem readNat?_eq_some : readNat? 10 cs = some n ↔ Spells cs n := by
  unfold readNat?
  constructor
  · intro h
    split_ifs at h with hempty
    obtain ⟨hdigits, hvalue⟩ := readDigits_eq_some.mp h
    exact ⟨by simpa using hempty, hdigits, hvalue⟩
  · intro h
    rw [if_neg (by simpa using h.nonempty)]
    exact readDigits_eq_some.mpr ⟨h.digits, h.value⟩

theorem not_spells_plus : ¬ Spells ('+' :: cs) n := by
  intro h
  have hplus := h.digits '+' (List.mem_cons_self ..)
  exact absurd hplus (by decide)

theorem readUnsigned?_eq_some : readUnsigned? 10 cs = some n ↔ SpellsUnsigned cs n := by
  unfold readUnsigned?
  split
  · rw [readNat?_eq_some]
    constructor
    · exact .plus
    · rintro (h | h)
      · exact absurd h not_spells_plus
      · exact h
  · rename_i hplus
    rw [readNat?_eq_some]
    constructor
    · exact .plain
    · rintro (h | h)
      · exact h
      · exact absurd rfl (hplus _)

theorem Spells.unique {m : Nat} (h : Spells cs n) (h' : Spells cs m) : n = m :=
  h.value.symm.trans h'.value

theorem spells_toDigits (n : Nat) : Spells (Nat.toDigits 10 n) n where
  nonempty := Nat.toDigits_ne_nil
  digits _ hc := Nat.isDigit_of_mem_toDigits (by decide) (by decide) hc
  value := Nat.ofDigitChars_ten_toDigits

end Reading

end Stencil.Decimal
