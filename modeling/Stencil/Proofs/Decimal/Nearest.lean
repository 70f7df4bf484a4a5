import Mathlib.Algebra.Order.Field.Power
import Mathlib.Algebra.Order.Floor.Semifield
import Mathlib.Data.Rat.Floor
import Mathlib.Tactic.FieldSimp
import Mathlib.Tactic.Linarith
import Mathlib.Tactic.Positivity
import Mathlib.Tactic.Ring
import Stencil.Decimal.Shortest

/-!
# The nearest double

The numbers that are rounded to a finite double form its interval.  A positive number that is
neither too small for full precision nor too large lies in the interval of the double that it is
rounded to.
-/

namespace Stencil

-- powers of numbers are those of the core library
attribute [local instance (2000)] instPowNat

namespace Double

/-- What lies between the bounds of an interval; these belong to it if it is closed. -/
structure Interval.Contains (i : Interval) (y : ℚ) : Prop where
  low_le : (i.low : ℚ) ≤ y
  le_high : y ≤ i.high
  inner : i.closed = false → (i.low : ℚ) ≠ y ∧ y ≠ i.high

/-- A quarter of the last place of a finite double, the unit of its interval. -/
def quarter (d : Double) : ℚ := 2 ^ (d.exponent - 2)

/-- A finite double that is not negative and has full precision, and a number that is rounded to
it. -/
structure Nearest (d : Double) (x : ℚ) : Prop where
  finite : d.isFinite = true
  sign : d.isNegative = false
  normal : 2 ^ 52 ≤ d.mantissa
  contains : d.interval.Contains (x / d.quarter)

theorem Nearest.mantissa_pos {d : Double} {x : ℚ} (h : d.Nearest x) : 0 < d.mantissa :=
  Nat.lt_of_lt_of_le (by decide) h.normal

/-! ## Rounding a quotient -/

section Rounding

variable {num den : Nat}

/-- A rounded quotient is off by at most one half, and by less if it is odd. -/
theorem roundDiv_bounds (num : Nat) (hden : 0 < den) :
    2 * (roundDiv num den * den) ≤ 2 * num + den ∧ 2 * num ≤ 2 * (roundDiv num den * den) + den ∧
      (roundDiv num den % 2 = 1 → 2 * (roundDiv num den * den) < 2 * num + den ∧
        2 * num < 2 * (roundDiv num den * den) + den) := by
  have hsplit : num / den * den + num % den = num := by
    rw [Nat.mul_comm]
    exact Nat.div_add_mod num den
  have hrest : num % den < den := Nat.mod_lt _ hden
  have hnext : (num / den + 1) * den = num / den * den + den := Nat.succ_mul _ _
  unfold roundDiv
  dsimp only
  generalize hq : num / den = q at hsplit hnext ⊢
  generalize num % den = rest at hsplit hrest ⊢
  split_ifs with habove htie
  · rw [hnext]
    omega
  · -- half way between two numbers the even one is taken
    rcases Nat.mod_two_eq_zero_or_one q with heven | hodd
    · rw [heven, Nat.add_zero]
      omega
    · rw [hodd, hnext]
      omega
  · omega

theorem roundDiv_rat (num : Nat) (hden : 0 < den) :
    (roundDiv num den : ℚ) - 1 / 2 ≤ num / den ∧ (num / den : ℚ) ≤ roundDiv num den + 1 / 2 ∧
      (roundDiv num den % 2 = 1 → (roundDiv num den : ℚ) - 1 / 2 < num / den ∧
        (num / den : ℚ) < roundDiv num den + 1 / 2) := by
  have hpos : (0 : ℚ) < den := by exact_mod_cast hden
  obtain ⟨hlow, hhigh, hodd⟩ := roundDiv_bounds num hden
  generalize roundDiv num den = r at hlow hhigh hodd ⊢
  have hlow : 2 * ((r : ℚ) * den) ≤ 2 * num + den := by exact_mod_cast hlow
  have hhigh : 2 * (num : ℚ) ≤ 2 * (r * den) + den := by exact_mod_cast hhigh
  rw [le_div_iff₀ hpos, div_le_iff₀ hpos, lt_div_iff₀ hpos, div_lt_iff₀ hpos]
  refine ⟨by linarith, by linarith, fun h => ?_⟩
  obtain ⟨hlow, hhigh⟩ := hodd h
  have hlow : 2 * ((r : ℚ) * den) < 2 * num + den := by exact_mod_cast hlow
  have hhigh : 2 * (num : ℚ) < 2 * (r * den) + den := by exact_mod_cast hhigh
  exact ⟨by linarith, by linarith⟩

theorem roundDiv_le_of_le (hden : 0 < den) {a : Nat} (h : (num / den : ℚ) ≤ a) :
    roundDiv num den ≤ a := by
  have hlow := (roundDiv_rat num hden).1
  have hle : (roundDiv num den : ℚ) < a + 1 := by linarith
  have : roundDiv num den < a + 1 := by exact_mod_cast hle
  omega

theorem le_roundDiv_of_le (hden : 0 < den) {a : Nat} (h : (a : ℚ) ≤ num / den) :
    a ≤ roundDiv num den := by
  have hhigh := (roundDiv_rat num hden).2.1
  have hle : (a : ℚ) < roundDiv num den + 1 := by linarith
  have : a < roundDiv num den + 1 := by exact_mod_cast hle
  omega

end Rounding

/-! ## The last place -/

section LastPlace

variable {num den : Nat}

/-- The quotient in units of a power of two, as a numerator and a denominator. -/
def scaled (num den : Nat) (q : Int) : Nat × Nat :=
  if q < 0 then (num * 2 ^ (-q).toNat, den) else (num, den * 2 ^ q.toNat)

/-- The power of two that is worth one in the last place of the nearest double. -/
def lastPlace (num den : Nat) : Int :=
  let guess : Int := max ((Nat.log2 num : Int) - Nat.log2 den - 52) (-1074)
  if (scaled num den guess).1 / (scaled num den guess).2 < 2 ^ (52 : Nat) ∧ -1074 < guess then
    guess - 1
  else guess

theorem nearestBits_eq (h : num ≠ 0) (den : Nat) :
    nearestBits num den =
      min infinityBits ((lastPlace num den + 1074).toNat * 2 ^ (52 : Nat) +
        roundDiv (scaled num den (lastPlace num den)).1
          (scaled num den (lastPlace num den)).2) := by
  unfold nearestBits
  rw [if_neg h]
  rfl

theorem two_zpow_pos (q : Int) : (0 : ℚ) < 2 ^ q := zpow_pos (by norm_num) q

theorem scaled_pos (num : Nat) (hden : 0 < den) (q : Int) : 0 < (scaled num den q).2 := by
  unfold scaled
  split
  · exact hden
  · exact Nat.mul_pos hden (Nat.two_pow_pos _)

theorem scaled_rat (num den : Nat) (q : Int) :
    ((scaled num den q).1 : ℚ) / (scaled num den q).2 = num / den / 2 ^ q := by
  unfold scaled
  split_ifs with hq
  · obtain ⟨n, hn⟩ : ∃ n : Nat, q = -n := ⟨(-q).toNat, by omega⟩
    subst hn
    rw [neg_neg, Int.toNat_natCast, zpow_neg, zpow_natCast]
    push_cast
    field_simp
  · obtain ⟨n, rfl⟩ := Int.eq_ofNat_of_zero_le (not_lt.mp hq)
    rw [Int.toNat_natCast, zpow_natCast]
    push_cast
    rw [div_div]

/-- The logarithms of two numbers enclose their quotient. -/
theorem quotient_of_log2 (hnum : 0 < num) (hden : 0 < den) :
    (2 : ℚ) ^ ((Nat.log2 num : Int) - Nat.log2 den - 1) < num / den ∧
      (num / den : ℚ) < 2 ^ ((Nat.log2 num : Int) - Nat.log2 den + 1) := by
  have hpos : (0 : ℚ) < den := by exact_mod_cast hden
  have hnumlow : (2 : ℚ) ^ Nat.log2 num ≤ num := by
    exact_mod_cast Nat.log2_self_le (Nat.pos_iff_ne_zero.mp hnum)
  have hnumhigh : (num : ℚ) < 2 ^ (Nat.log2 num + 1) := by
    exact_mod_cast Nat.lt_log2_self
  have hdenlow : (2 : ℚ) ^ Nat.log2 den ≤ den := by
    exact_mod_cast Nat.log2_self_le (Nat.pos_iff_ne_zero.mp hden)
  have hdenhigh : (den : ℚ) < 2 ^ (Nat.log2 den + 1) := by
    exact_mod_cast Nat.lt_log2_self
  have htwo : (2 : ℚ) ≠ 0 := by norm_num
  constructor
  · rw [lt_div_iff₀ hpos]
    calc (2 : ℚ) ^ ((Nat.log2 num : Int) - Nat.log2 den - 1) * den
        < 2 ^ ((Nat.log2 num : Int) - Nat.log2 den - 1) * 2 ^ (Nat.log2 den + 1) := by
          exact mul_lt_mul_of_pos_left hdenhigh (two_zpow_pos _)
      _ = 2 ^ Nat.log2 num := by
          rw [← zpow_natCast, ← zpow_add₀ htwo, ← zpow_natCast]
          congr 1
          push_cast
          ring
      _ ≤ num := hnumlow
  · rw [div_lt_iff₀ hpos]
    calc (num : ℚ) < 2 ^ (Nat.log2 num + 1) := hnumhigh
      _ = 2 ^ ((Nat.log2 num : Int) - Nat.log2 den + 1) * 2 ^ Nat.log2 den := by
          rw [← zpow_natCast, ← zpow_natCast, ← zpow_add₀ htwo]
          congr 1
          push_cast
          ring
      _ ≤ 2 ^ ((Nat.log2 num : Int) - Nat.log2 den + 1) * den := by
          exact mul_le_mul_of_nonneg_left hdenlow (two_zpow_pos _).le

/-- In units of its last place a number of the normal range has 53 binary digits. -/
theorem lastPlace_bounds (hnum : 0 < num) (hden : 0 < den)
    (hlow : (2 : ℚ) ^ (-1022 : Int) ≤ num / den) :
    -1074 ≤ lastPlace num den ∧ (2 : ℚ) ^ (52 : Nat) ≤ num / den / 2 ^ lastPlace num den ∧
      (num / den / 2 ^ lastPlace num den : ℚ) < 2 ^ (53 : Nat) := by
  obtain ⟨hbelow, habove⟩ := quotient_of_log2 hnum hden
  have htwo : (2 : ℚ) ≠ 0 := by norm_num
  generalize ht : (Nat.log2 num : Int) - Nat.log2 den = t at hbelow habove
  -- the guess is not cut off: the number is not subnormal
  have hnormal : -1022 ≤ t := by
    have hlt : (2 : ℚ) ^ (-1022 : Int) < 2 ^ (t + 1) := lt_of_le_of_lt hlow habove
    have := (zpow_lt_zpow_iff_right₀ (by norm_num : (1 : ℚ) < 2)).mp hlt
    omega
  have hguess : max ((Nat.log2 num : Int) - Nat.log2 den - 52) (-1074) = t - 52 := by omega
  have hunit : (2 : ℚ) ^ t = 2 ^ (52 : Nat) * 2 ^ (t - 52) := by
    rw [← zpow_natCast, ← zpow_add₀ htwo]
    congr 1
    push_cast
    ring
  have hpos := two_zpow_pos (t - 52)
  have hless : (2 : ℚ) ^ (t - 52) = 2 * 2 ^ (t - 52 - 1) := by
    rw [← zpow_one_add₀ htwo]
    congr 1
    ring
  have hhalf : (2 : ℚ) ^ (t - 1) = 2 ^ t / 2 := zpow_sub_one₀ htwo t
  have hdouble : (2 : ℚ) ^ (t + 1) = 2 ^ t * 2 := zpow_add_one₀ htwo t
  -- whether the guess is too high is decided on the whole part alone
  have hwhole : ((scaled num den (t - 52)).1 / (scaled num den (t - 52)).2 < 2 ^ (52 : Nat)) ↔
      (num / den / 2 ^ (t - 52) : ℚ) < 2 ^ (52 : Nat) := by
    rw [← scaled_rat, Nat.div_lt_iff_lt_mul (scaled_pos num hden _),
      div_lt_iff₀ (by exact_mod_cast scaled_pos num hden _)]
    exact_mod_cast Iff.rfl
  unfold lastPlace
  dsimp only
  rw [hguess]
  generalize (num / den : ℚ) = x at hlow hbelow habove hwhole ⊢
  split_ifs with hsmall
  · obtain ⟨hsmall, hroom⟩ := hsmall
    have hsmall := (div_lt_iff₀ hpos).mp (hwhole.mp hsmall)
    have hpos := two_zpow_pos (t - 52 - 1)
    refine ⟨by omega, ?_, ?_⟩
    · rw [le_div_iff₀ hpos]
      linarith
    · rw [div_lt_iff₀ hpos]
      linarith
  · -- at the least exponent the quotient has all its digits anyway
    have hlarge : (2 : ℚ) ^ (52 : Nat) * 2 ^ (t - 52) ≤ x := by
      rw [← le_div_iff₀ hpos]
      by_contra hlt
      have hroom : ¬ -1074 < t - 52 := fun hroom => hsmall ⟨hwhole.mpr (not_le.mp hlt), hroom⟩
      have hleast : t = -1022 := by omega
      rw [not_le, div_lt_iff₀ hpos, ← hunit, hleast] at hlt
      linarith
    refine ⟨by omega, ?_, ?_⟩
    · rw [le_div_iff₀ hpos]
      exact hlarge
    · rw [div_lt_iff₀ hpos]
      linarith

end LastPlace

/-! ## The bits of the nearest double -/

section Bits

variable {bits place r : Nat}

theorem toNat_ofMagnitude (h : bits < 2 ^ (63 : Nat)) :
    (ofMagnitude false bits).bits.toNat = bits := by
  have hfits : bits < 2 ^ (64 : Nat) := by omega
  simp only [ofMagnitude, Bool.false_eq_true, if_false, Nat.zero_add]
  exact UInt64.toNat_ofNat_of_lt' hfits

theorem magnitudeBits_ofMagnitude (h : bits < 2 ^ (63 : Nat)) :
    (ofMagnitude false bits).magnitudeBits = bits := by
  rw [magnitudeBits, toNat_ofMagnitude h, Nat.mod_eq_of_lt h]

theorem isNegative_ofMagnitude (h : bits < 2 ^ (63 : Nat)) :
    (ofMagnitude false bits).isNegative = false := by
  rw [isNegative, toNat_ofMagnitude h]
  exact decide_eq_false (by omega)

variable {d : Double}

/-- The parts of a double whose digits were not carried over. -/
theorem parts_of_bits (h : d.magnitudeBits = place * 2 ^ (52 : Nat) + r)
    (hlow : 2 ^ (52 : Nat) ≤ r) (hhigh : r < 2 ^ (53 : Nat)) :
    d.mantissa = r ∧ d.exponent = (place : Int) - 1074 := by
  have hfield : d.magnitudeBits / 2 ^ (52 : Nat) = place + 1 := by omega
  have hfraction : d.magnitudeBits % 2 ^ (52 : Nat) = r - 2 ^ (52 : Nat) := by omega
  unfold mantissa exponent
  dsimp only
  rw [hfield, hfraction, if_neg (Nat.succ_ne_zero _), if_neg (Nat.succ_ne_zero _)]
  omega

/-- The parts of a double whose digits were carried over to the next power of two. -/
theorem parts_of_carry (h : d.magnitudeBits = place * 2 ^ (52 : Nat) + 2 ^ (53 : Nat)) :
    d.mantissa = 2 ^ (52 : Nat) ∧ d.exponent = (place : Int) - 1073 := by
  have hfield : d.magnitudeBits / 2 ^ (52 : Nat) = place + 2 := by omega
  have hfraction : d.magnitudeBits % 2 ^ (52 : Nat) = 0 := by omega
  unfold mantissa exponent
  dsimp only
  rw [hfield, hfraction, if_neg (Nat.succ_ne_zero _), if_neg (Nat.succ_ne_zero _)]
  omega

end Bits

/-! ## The interval of the nearest double -/

section Nearest

variable {d : Double} {x : ℚ} {num den : Nat}

/-- Four times a number in units of the last place is the number in quarters of it. -/
theorem div_quarter {q : Int} (h : d.exponent = q) : x / d.quarter = 4 * (x / 2 ^ q) := by
  have hquarter : d.quarter * 4 = 2 ^ q := by
    rw [quarter, h, zpow_sub₀ (by norm_num)]
    norm_num
  have hpos : (0 : ℚ) < d.quarter := two_zpow_pos _
  rw [← hquarter]
  field_simp

/-- A number lies in the interval of a double if its digits are those of the double, rounded. -/
theorem contains_of_rounded {q : Int} (hexponent : d.exponent = q)
    (hlow : (d.mantissa : ℚ) - 1 / 2 ≤ x / 2 ^ q) (hhigh : x / 2 ^ q ≤ (d.mantissa : ℚ) + 1 / 2)
    (hodd : d.mantissa % 2 = 1 →
      (d.mantissa : ℚ) - 1 / 2 < x / 2 ^ q ∧ x / 2 ^ q < (d.mantissa : ℚ) + 1 / 2)
    (hnormal : (2 : ℚ) ^ (52 : Nat) ≤ x / 2 ^ q) (hmantissa : 2 ^ (52 : Nat) ≤ d.mantissa) :
    d.interval.Contains (x / d.quarter) := by
  rw [div_quarter hexponent]
  generalize x / 2 ^ q = y at hlow hhigh hodd hnormal ⊢
  have hcast : ((4 * d.mantissa - 2 : Nat) : ℚ) = 4 * d.mantissa - 2 := by
    rw [Nat.cast_sub (by omega)]
    push_cast
    ring
  unfold interval
  dsimp only
  by_cases hedge : (decide (d.magnitudeBits / 2 ^ (52 : Nat) > 1) &&
      d.mantissa == 2 ^ (52 : Nat)) = true
  · -- below a power of two the doubles are closer, but the number is not below it
    have hpower : d.mantissa = 2 ^ (52 : Nat) := by simpa using (Bool.and_eq_true_iff.mp hedge).2
    have heven : d.mantissa % 2 = 0 := by omega
    have hcast : ((4 * d.mantissa - 1 : Nat) : ℚ) ≤ 4 * d.mantissa := by
      exact_mod_cast Nat.sub_le _ _
    have hmantissa : (d.mantissa : ℚ) = 2 ^ (52 : Nat) := by exact_mod_cast hpower
    rw [if_pos hedge]
    refine ⟨?_, ?_, ?_⟩
    · show ((4 * d.mantissa - 1 : Nat) : ℚ) ≤ 4 * y
      linarith
    · push_cast
      linarith
    · intro hclosed
      simp [heven] at hclosed
  · rw [if_neg hedge]
    refine ⟨?_, ?_, ?_⟩
    · show ((4 * d.mantissa - 2 : Nat) : ℚ) ≤ 4 * y
      linarith
    · push_cast
      linarith
    · intro hclosed
      have hclosed : ¬ d.mantissa % 2 = 0 := by simpa using hclosed
      obtain ⟨hlow, hhigh⟩ := hodd (by omega)
      constructor
      · show ((4 * d.mantissa - 2 : Nat) : ℚ) ≠ 4 * y
        exact ne_of_lt (by linarith)
      · push_cast
        exact ne_of_lt (by linarith)

/-- The interval of a power of two holds the numbers that are carried over to it. -/
theorem contains_of_carry {q : Int} (hexponent : d.exponent = q + 1)
    (hmantissa : d.mantissa = 2 ^ (52 : Nat)) (hfield : 1 < d.magnitudeBits / 2 ^ (52 : Nat))
    (hlow : (2 : ℚ) ^ (53 : Nat) - 1 / 2 ≤ x / 2 ^ q) (hhigh : x / 2 ^ q < (2 : ℚ) ^ (53 : Nat)) :
    d.interval.Contains (x / d.quarter) := by
  have hhalf : x / 2 ^ (q + 1) = x / 2 ^ q / 2 := by
    rw [zpow_add_one₀ (by norm_num), div_div]
  rw [div_quarter hexponent, hhalf]
  generalize x / 2 ^ q = y at hlow hhigh ⊢
  unfold interval
  rw [hmantissa]
  refine ⟨?_, ?_, ?_⟩
  · simp only [gt_iff_lt, hfield]
    norm_num at hlow ⊢
    linarith
  · norm_num at hhigh ⊢
    linarith
  · intro hclosed
    simp at hclosed

/-- A number of the normal range lies in the interval of the double that it is rounded to. -/
theorem nearest_of_range (hnum : 0 < num) (hden : 0 < den)
    (hlow : (2 : ℚ) ^ (-1022 : Int) ≤ num / den) (hhigh : (num / den : ℚ) < 2 ^ (1023 : Int)) :
    Nearest (ofMagnitude false (nearestBits num den)) (num / den) := by
  obtain ⟨hplace, hdigits, hdigits'⟩ := lastPlace_bounds hnum hden hlow
  have hbits := nearestBits_eq (Nat.pos_iff_ne_zero.mp hnum) den
  have hscaled := scaled_rat num den (lastPlace num den)
  have hpos := scaled_pos num hden (lastPlace num den)
  generalize hq : lastPlace num den = q at hplace hdigits hdigits' hbits hscaled hpos
  generalize (scaled num den q).1 = n at hbits hscaled
  generalize (scaled num den q).2 = m at hbits hscaled hpos
  obtain ⟨hrlow, hrhigh, hrodd⟩ := roundDiv_rat n hpos
  have hr52 : 2 ^ (52 : Nat) ≤ roundDiv n m :=
    le_roundDiv_of_le hpos (by rw [hscaled]; exact_mod_cast hdigits)
  have hr53 : roundDiv n m ≤ 2 ^ (53 : Nat) :=
    roundDiv_le_of_le hpos (by rw [hscaled]; exact_mod_cast hdigits'.le)
  rw [hscaled] at hrlow hrhigh hrodd
  generalize roundDiv n m = r at hbits hrlow hrhigh hrodd hr52 hr53
  generalize (num / den : ℚ) = x at hhigh hdigits hdigits' hrlow hrhigh hrodd ⊢
  -- the number is too small for the bits of infinity
  have hbound : q ≤ 970 := by
    have hle : (2 : ℚ) ^ (52 : Nat) * 2 ^ q < 2 ^ (1023 : Int) :=
      lt_of_le_of_lt ((le_div_iff₀ (two_zpow_pos q)).mp hdigits) hhigh
    rw [← zpow_natCast, ← zpow_add₀ (by norm_num)] at hle
    have := (zpow_lt_zpow_iff_right₀ (by norm_num : (1 : ℚ) < 2)).mp hle
    push_cast at this
    omega
  obtain ⟨place, hp⟩ : ∃ place : Nat, q = (place : Int) - 1074 := ⟨(q + 1074).toNat, by omega⟩
  have hplace' : (q + 1074).toNat = place := by omega
  have hinfinity : infinityBits = 2047 * 2 ^ (52 : Nat) := rfl
  have hvalue : nearestBits num den = place * 2 ^ (52 : Nat) + r := by
    rw [hbits, hplace']
    exact Nat.min_eq_right (by omega)
  rw [hvalue]
  have hfits : place * 2 ^ (52 : Nat) + r < 2 ^ (63 : Nat) := by omega
  have hmagnitude := magnitudeBits_ofMagnitude hfits
  have hfinite : (ofMagnitude false (place * 2 ^ (52 : Nat) + r)).isFinite = true := by
    rw [isFinite, hmagnitude]
    exact decide_eq_true (by omega)
  have hsign := isNegative_ofMagnitude hfits
  generalize ofMagnitude false (place * 2 ^ (52 : Nat) + r) = d at hmagnitude hfinite hsign
  -- a number just below a power of two is rounded up to it, and the exponent goes up by one
  rcases Nat.lt_or_ge r (2 ^ (53 : Nat)) with hless | hcarry
  · obtain ⟨hmantissa, hexponent⟩ := parts_of_bits hmagnitude hr52 hless
    rw [← hmantissa] at hrlow hrhigh hrodd hr52
    exact ⟨hfinite, hsign, hr52,
      contains_of_rounded (hexponent.trans hp.symm) hrlow hrhigh hrodd hdigits hr52⟩
  · have hr : r = 2 ^ (53 : Nat) := by omega
    rw [hr] at hmagnitude
    obtain ⟨hmantissa, hexponent⟩ := parts_of_carry hmagnitude
    have hlow : (2 : ℚ) ^ (53 : Nat) - 1 / 2 ≤ x / 2 ^ q := by
      have : (r : ℚ) = 2 ^ (53 : Nat) := by exact_mod_cast hr
      rw [← this]
      exact hrlow
    exact ⟨hfinite, hsign, hmantissa.ge,
      contains_of_carry (by omega) hmantissa (by omega) hlow hdigits'⟩

end Nearest

end Double

end Stencil
