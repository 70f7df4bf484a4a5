import Stencil.Model.Version
import Stencil.Proofs.Decimal.Digits
import Stencil.Proofs.Text.Cut

/-!
# Texts of versions

A text is a version exactly if it is two numbers with a dot between them, and perhaps white
space around them.  Each number is decimal digits, behind a plus sign or not, and has to be
below `2 ^ 32`.  A version is written as such a text, so it is read back.
-/

namespace Stencil.Model

open Decimal (Spells SpellsUnsigned)
open Text (isBlank)

-- powers of numbers are those of the core library
attribute [local instance (2000)] instPowNat

namespace Version

/-- Two numbers with one dot between them, and white space around both. -/
def Spelled (s : String) (major minor : Nat) : Prop :=
  ∃ before a b after, s.toList = before ++ (a ++ '.' :: b) ++ after ∧
    (∀ c ∈ before, isBlank c = true) ∧ (∀ c ∈ after, isBlank c = true) ∧
    SpellsUnsigned a major ∧ SpellsUnsigned b minor

/-! ## Numbers of a version -/

section Numbers

variable {a b cs : List Char} {n major minor : Nat} {c : Char}

theorem plain_of_isDigit (h : c.isDigit = true) : isBlank c = false ∧ c ≠ '.' := by
  obtain ⟨hlow, hhigh⟩ := Decimal.isDigit_iff.mp h
  have hlow : 48 ≤ c.toNat := hlow
  have hhigh : c.toNat ≤ 57 := hhigh
  constructor
  · simp only [isBlank, Bool.or_eq_false_iff, Bool.and_eq_false_iff, beq_eq_false_iff_ne,
      decide_eq_false_iff_not]
    omega
  · rintro rfl
    exact absurd hlow (by decide)

/-- A number has neither white space nor a dot in it. -/
theorem plain_of_spells (h : SpellsUnsigned cs n) :
    ∀ c ∈ cs, isBlank c = false ∧ c ≠ '.' := by
  cases h with
  | plain h => exact fun c hc => plain_of_isDigit (h.digits c hc)
  | plus h =>
      intro c hc
      rcases List.mem_cons.mp hc with rfl | hc
      · decide
      · exact plain_of_isDigit (h.digits c hc)

/-- Nothing is trimmed off two numbers with a dot between them. -/
theorem trimmed_of_spells (ha : SpellsUnsigned a major) (hb : SpellsUnsigned b minor) :
    Text.Trimmed isBlank (a ++ '.' :: b) :=
  Text.trimmed_append_cons
    (fun c hc => (plain_of_spells ha c (List.mem_of_mem_head? hc)).1) (by decide)
    (fun c hc => (plain_of_spells hb c (List.mem_of_mem_getLast? hc)).1)

theorem pieces_of_spells (ha : SpellsUnsigned a major) (hb : SpellsUnsigned b minor) :
    Text.pieces '.' (a ++ '.' :: b) = [a, b] :=
  Text.pieces_eq_pair.mpr
    ⟨rfl, fun h => (plain_of_spells ha _ h).2 rfl, fun h => (plain_of_spells hb _ h).2 rfl⟩

/-- A number that is too large is none; it does not wrap around. -/
theorem part?_of_spells (h : SpellsUnsigned cs n) :
    part? cs = if n < 2 ^ 32 then some (UInt32.ofNat n) else none := by
  rw [part?, Decimal.readUnsigned?_eq_some.mpr h]

theorem part?_eq_some {u : UInt32} : part? cs = some u ↔ SpellsUnsigned cs u.toNat := by
  constructor
  · intro h
    cases hread : Decimal.readUnsigned? 10 cs with
    | none => simp [part?, hread] at h
    | some n =>
        have hspells := Decimal.readUnsigned?_eq_some.mp hread
        rw [part?_of_spells hspells] at h
        split_ifs at h with hn
        cases h
        rwa [UInt32.toNat_ofNat_of_lt' hn]
  · intro h
    rw [part?_of_spells h, if_pos u.toNat_lt, UInt32.ofNat_toNat]

end Numbers

/-! ## Reading a version -/

section Reading

variable {s : String} {v : Version} {major minor : Nat}

theorem pieces_of_spelled (h : Spelled s major minor) :
    ∃ a b, Text.pieces '.' (Text.trimList isBlank s.toList) = [a, b] ∧
      SpellsUnsigned a major ∧ SpellsUnsigned b minor := by
  obtain ⟨before, a, b, after, hs, hbefore, hafter, ha, hb⟩ := h
  refine ⟨a, b, ?_, ha, hb⟩
  rw [hs, Text.trimList_append hbefore hafter (trimmed_of_spells ha hb)]
  exact pieces_of_spells ha hb

theorem spelled_of_pieces {a b : List Char}
    (h : Text.pieces '.' (Text.trimList isBlank s.toList) = [a, b])
    (ha : SpellsUnsigned a major) (hb : SpellsUnsigned b minor) : Spelled s major minor := by
  obtain ⟨before, after, hs, hbefore, hafter⟩ := Text.exists_around_trimList isBlank s.toList
  refine ⟨before, a, b, after, ?_, hbefore, hafter, ha, hb⟩
  rw [← (Text.pieces_eq_pair.mp h).1]
  exact hs

/-- What becomes of a text of two numbers: each of them has to fit. -/
theorem parse_of_spelled (h : Spelled s major minor) :
    parse s =
      if major < 2 ^ 32 then
        if minor < 2 ^ 32 then .ok ⟨.ofNat major, .ofNat minor⟩ else .error .minor
      else .error .major := by
  obtain ⟨a, b, hpieces, ha, hb⟩ := pieces_of_spelled h
  simp only [parse, hpieces, part?_of_spells ha, part?_of_spells hb]
  by_cases hmajor : major < 2 ^ 32
  · by_cases hminor : minor < 2 ^ 32
    · simp only [if_pos hmajor, if_pos hminor]
    · simp only [if_pos hmajor, if_neg hminor]
  · simp only [if_neg hmajor]

theorem parse_eq_ok : parse s = .ok v ↔ Spelled s v.major.toNat v.minor.toNat := by
  constructor
  · intro h
    -- what is read has two pieces, and each of them is a number that fits
    unfold parse at h
    split at h
    · rename_i a b hpieces
      split at h
      · rename_i major minor hmajor hminor
        cases h
        exact spelled_of_pieces hpieces (part?_eq_some.mp hmajor) (part?_eq_some.mp hminor)
      · cases h
      · cases h
    · cases h
  · intro h
    rw [parse_of_spelled h, if_pos v.major.toNat_lt, if_pos v.minor.toNat_lt,
      UInt32.ofNat_toNat, UInt32.ofNat_toNat]

theorem toList_text (v : Version) :
    v.text.toList = Nat.toDigits 10 v.major.toNat ++ '.' :: Nat.toDigits 10 v.minor.toNat := by
  simp [text, String.toList_append]

theorem spelled_text (v : Version) : Spelled v.text v.major.toNat v.minor.toNat :=
  ⟨[], _, _, [], by simp [toList_text], by simp, by simp,
    .plain (Decimal.spells_toDigits _), .plain (Decimal.spells_toDigits _)⟩

/-- A version is read back from its text, and what is read as a version is exactly what spells its
two numbers.  A text that spells a larger number is refused, and a text that is read is as good as
the text of what was read. -/
theorem parse_exact (s : String) (v : Version) :
    parse v.text = .ok v ∧
    (parse s = .ok v ↔ Spelled s v.major.toNat v.minor.toNat) ∧
    (∀ major minor, Spelled s major minor →
      ((∃ w, parse s = .ok w) ↔ major < 2 ^ 32 ∧ minor < 2 ^ 32)) ∧
    (parse s = .ok v → parse v.text = parse s) := by
  have hback : parse v.text = .ok v := parse_eq_ok.mpr (spelled_text v)
  refine ⟨hback, parse_eq_ok, ?_, fun h => hback.trans h.symm⟩
  intro major minor h
  rw [parse_of_spelled h]
  split_ifs with hmajor hminor
  · exact iff_of_true ⟨_, rfl⟩ ⟨hmajor, hminor⟩
  · exact iff_of_false (by simp) fun hboth => hminor hboth.2
  · exact iff_of_false (by simp) fun hboth => hmajor hboth.1

example : parse "\t+01.4294967295 " = .ok ⟨1, 4294967295⟩ := by decide

example : parse "4294967296.0" = .error .major := by decide

end Reading

end Version

end Stencil.Model
