import Stencil.Decimal.Layout
import Stencil.Proofs.Decimal.Grids

/-!
# Shortest digits

The digits that stand for a double are those of a number in its interval, they have no zero at
their end, and there are at most seventeen of them.  A decimal with at most fifteen digits is the
only one of its grid, and of coarser grids, in the interval of its nearest double, so it is found
again.
-/

namespace Stencil

-- powers of numbers are those of the core library
attribute [local instance (2000)] instPowNat

namespace Double

/-! ## The leading digit -/

section Leading

theorem lt_pow_digitCount (n : Nat) : n < 10 ^ digitCount n :=
  (Nat.length_toDigits_le_iff (by decide) Nat.length_toDigits_pos).mp (Nat.le_refl _)

theorem digitCount_pos (n : Nat) : 0 < digitCount n := Nat.length_toDigits_pos

theorem pow_le_of_lt_digitCount {n j : Nat} (h : 0 < n) (hj : j < digitCount n) : 10 ^ j ≤ n := by
  rcases Nat.eq_zero_or_pos j with rfl | hpos
  · exact h
  · by_contra hlt
    have := (Nat.length_toDigits_le_iff (b := 10) (by decide) hpos).mpr (not_le.mp hlt)
    unfold digitCount at hj
    omega

variable {num den : Nat}

/-- The number of digits before the point of a shifted quotient gives its size, unless there are
none. -/
theorem digitCount_shifted (num : Nat) (hden : 0 < den) (shift : Nat) :
    (num / den : ℚ) < 10 ^ ((digitCount (num * 10 ^ shift / den) : Int) - shift) ∧
      ((10 : ℚ) ^ (-(shift : Int)) ≤ num / den →
        (10 : ℚ) ^ ((digitCount (num * 10 ^ shift / den) : Int) - 1 - shift) ≤ num / den) := by
  have hpos : (0 : ℚ) < den := by exact_mod_cast hden
  have hten : (10 : ℚ) ≠ 0 := by norm_num
  have hscale : (0 : ℚ) < 10 ^ (shift : Int) := ten_zpow_pos _
  have hlow : num * 10 ^ shift / den * den ≤ num * 10 ^ shift := Nat.div_mul_le_self _ _
  have hhigh : num * 10 ^ shift < (num * 10 ^ shift / den + 1) * den :=
    (Nat.div_lt_iff_lt_mul hden).mp (Nat.lt_succ_self _)
  generalize num * 10 ^ shift / den = w at hlow hhigh ⊢
  have hlow : (w : ℚ) * den ≤ num * 10 ^ (shift : Int) := by
    rw [zpow_natCast]
    exact_mod_cast hlow
  have hhigh : (num : ℚ) * 10 ^ (shift : Int) < (w + 1 : Nat) * den := by
    rw [zpow_natCast]
    exact_mod_cast hhigh
  rw [zpow_sub₀ hten, zpow_sub₀ hten, lt_div_iff₀ hscale, div_le_iff₀ hscale, div_mul_eq_mul_div,
    div_lt_iff₀ hpos, zpow_neg, inv_le_iff_one_le_mul₀ hscale, div_mul_eq_mul_div,
    le_div_iff₀ hpos, le_div_iff₀ hpos, one_mul]
  constructor
  · have hw : ((w + 1 : Nat) : ℚ) ≤ 10 ^ (digitCount w : Int) := by
      rw [zpow_natCast]
      exact_mod_cast lt_pow_digitCount w
    exact hhigh.trans_le (mul_le_mul_of_nonneg_right hw hpos.le)
  · intro hsmall
    have hwpos : 0 < w := by
      by_contra hzero
      have hw : w = 0 := by omega
      rw [hw] at hhigh
      push_cast at hhigh
      linarith
    have hdigits := digitCount_pos w
    have hw : (10 : ℚ) ^ ((digitCount w : Int) - 1) ≤ w := by
      rw [show (digitCount w : Int) - 1 = (digitCount w - 1 : Nat) by omega, zpow_natCast]
      exact_mod_cast pow_le_of_lt_digitCount hwpos (by omega)
    exact (mul_le_mul_of_nonneg_right hw hpos.le).trans hlow

/-- The leading exponent is that of the first digit, for numbers that are not too small. -/
theorem leadingExponent_bounds (hden : 0 < den) :
    (num / den : ℚ) < 10 ^ (leadingExponent num den + 1) ∧
      ((10 : ℚ) ^ (-400 : Int) ≤ num / den → (10 : ℚ) ^ leadingExponent num den ≤ num / den) := by
  obtain ⟨hhigh, hlow⟩ := digitCount_shifted num hden 400
  unfold leadingExponent
  generalize num * 10 ^ (400 : Nat) / den = w at hlow hhigh ⊢
  constructor
  · rw [show (digitCount w : Int) - 401 + 1 = (digitCount w : Int) - (400 : Nat) by omega]
    exact hhigh
  · rw [show (digitCount w : Int) - 401 = (digitCount w : Int) - 1 - (400 : Nat) by omega]
    exact hlow

end Leading

/-! ## The decimal of a double -/

section Shortest

variable {d : Double} {tie : Tie} {x : ℚ} {n k c : Nat} {place : Int}

theorem quarter_pos (d : Double) : (0 : ℚ) < d.quarter := two_zpow_pos _

theorem interval_value (d : Double) : (d.interval.value : ℚ) = 4 * d.mantissa := by
  unfold interval
  push_cast
  ring

theorem interval_high (d : Double) : (d.interval.high : ℚ) = 4 * d.mantissa + 2 := by
  unfold interval
  push_cast
  ring

/-- The numbers of an interval are off from its double by half of the last place at most. -/
theorem bounds_of_contains (hpos : 0 < d.mantissa) (h : d.interval.Contains (x / d.quarter)) :
    (4 * d.mantissa - 2) * d.quarter ≤ x ∧ x ≤ (4 * d.mantissa + 2) * d.quarter := by
  have hlow : (4 * d.mantissa - 2 : ℚ) ≤ d.interval.low := by
    have hle : 4 * d.mantissa ≤ d.interval.low + 2 := by
      unfold interval
      dsimp only
      split_ifs <;> omega
    have hle : (4 * d.mantissa : ℚ) ≤ d.interval.low + 2 := by exact_mod_cast hle
    linarith
  rw [← le_div_iff₀ (quarter_pos d), ← div_le_iff₀ (quarter_pos d), ← interval_high]
  exact ⟨hlow.trans h.low_le, h.le_high⟩

/-- A double that is not zero lies in its own interval. -/
theorem contains_value (hpos : 0 < d.mantissa) : d.interval.Contains d.interval.value := by
  have hlow : d.interval.low < d.interval.value := by
    unfold interval
    dsimp only
    split_ifs <;> omega
  have hhigh : d.interval.value < d.interval.high := by
    unfold interval
    dsimp only
    omega
  have hlow : (d.interval.low : ℚ) < d.interval.value := by exact_mod_cast hlow
  have hhigh : (d.interval.value : ℚ) < d.interval.high := by exact_mod_cast hhigh
  exact ⟨hlow.le, hhigh.le, fun _ => ⟨hlow.ne, hhigh.ne⟩⟩

/-- The quarter of the last place as a quotient of whole numbers. -/
theorem quarter_eq (d : Double) :
    d.quarter = (power 2 (d.exponent - 2)).1 / (power 2 (d.exponent - 2)).2 := by
  rw [power_rat]
  rfl

/-- The place of the first digit of a double that is not zero. -/
def lead (d : Double) : Int :=
  leadingExponent (4 * d.mantissa * (power 2 (d.exponent - 2)).1) (power 2 (d.exponent - 2)).2

theorem lead_bounds (d : Double) :
    4 * d.mantissa * d.quarter < 10 ^ (d.lead + 1) ∧
      ((10 : ℚ) ^ (-400 : Int) ≤ 4 * d.mantissa * d.quarter →
        10 ^ d.lead ≤ 4 * d.mantissa * d.quarter) := by
  have hvalue : (4 * d.mantissa * d.quarter : ℚ) =
      (4 * d.mantissa * (power 2 (d.exponent - 2)).1 : Nat) / (power 2 (d.exponent - 2)).2 := by
    rw [quarter_eq]
    push_cast
    ring
  rw [hvalue]
  exact leadingExponent_bounds (power_pos (by decide) _).2

/-! ### Grids of a double -/

/-- The number of a grid that is taken for a double, if there is one. -/
def taken (d : Double) (tie : Tie) (place : Int) : Option Nat :=
  onGrid d.interval (power 2 (d.exponent - 2)).1 (power 2 (d.exponent - 2)).2 tie place

/-- The number of a grid that is next below a double. -/
def nextBelow (d : Double) (place : Int) : Nat :=
  below d.interval (power 2 (d.exponent - 2)).1 (power 2 (d.exponent - 2)).2 place

theorem nextBelow_bounds (d : Double) (place : Int) :
    (d.nextBelow place : ℚ) * 10 ^ place ≤ 4 * d.mantissa * d.quarter ∧
      4 * d.mantissa * d.quarter < (d.nextBelow place + 1 : Nat) * 10 ^ place := by
  obtain ⟨hnum, hden⟩ := power_pos (b := 2) (by decide) (d.exponent - 2)
  rw [← interval_value]
  exact below_bounds d.interval place (quarter_eq d) hnum hden

theorem contains_of_taken (h : d.taken tie place = some c) :
    d.interval.Contains (c * 10 ^ place / d.quarter) ∧ c ≤ d.nextBelow place + 1 := by
  obtain ⟨hnum, hden⟩ := power_pos (b := 2) (by decide) (d.exponent - 2)
  exact contains_of_onGrid (quarter_eq d) hnum hden h

theorem exists_taken (tie : Tie) (hpos : 0 < d.mantissa)
    (h : d.interval.Contains (c * 10 ^ place / d.quarter)) : ∃ c', d.taken tie place = some c' := by
  obtain ⟨hnum, hden⟩ := power_pos (b := 2) (by decide) (d.exponent - 2)
  exact exists_onGrid (quarter_eq d) hnum hden (contains_value hpos) h

/-- The decimal of a double is that of the first grid on which a number is taken. -/
theorem shortest_cases (tie : Tie) (h : 0 < d.mantissa) :
    d.shortest tie = ⟨0, 0⟩ ∧ (∀ j : Nat, j < 20 → d.taken tie (d.lead - j) = none) ∨
      ∃ j c : Nat, j < 20 ∧ d.taken tie (d.lead - j) = some c ∧
        (∀ i : Nat, i < j → d.taken tie (d.lead - i) = none) ∧
        d.shortest tie = dropZeros 20 ⟨c, d.lead - j⟩ := by
  have hsearch : d.shortest tie =
      searchGrids d.interval (power 2 (d.exponent - 2)).1 (power 2 (d.exponent - 2)).2 tie
        d.lead 20 0 := by
    unfold shortest
    rw [if_neg (Nat.pos_iff_ne_zero.mp h)]
    rfl
  rw [hsearch]
  rcases searchGrids_cases d.interval (power 2 (d.exponent - 2)).1
      (power 2 (d.exponent - 2)).2 tie d.lead 20 0 with
    ⟨hzero, hnone⟩ | ⟨j, c, hj, hsome, hfirst, hfound⟩
  · exact .inl ⟨hzero, fun j hj => hnone j (Nat.zero_le j) (by omega)⟩
  · exact .inr ⟨j, c, by omega, hsome, fun i hi => hfirst i (Nat.zero_le i) hi, hfound⟩

/-- The search ends at the last on a grid that has a number to take. -/
theorem shortest_of_taken {last : Nat} (hpos : 0 < d.mantissa)
    (h : ∃ c, d.taken tie (d.lead - last) = some c) (hlast : last < 20) :
    ∃ j c : Nat, j ≤ last ∧ d.taken tie (d.lead - j) = some c ∧
      d.shortest tie = dropZeros 20 ⟨c, d.lead - j⟩ := by
  obtain ⟨c', hc'⟩ := h
  rcases shortest_cases tie hpos with ⟨-, hnone⟩ | ⟨j, c, -, hsome, hfirst, hfound⟩
  · rw [hnone last hlast] at hc'
    cases hc'
  · refine ⟨j, c, ?_, hsome, hfound⟩
    by_contra hlt
    rw [hfirst last (not_le.mp hlt)] at hc'
    cases hc'

/-- A number that is taken has one digit more than grids were left out. -/
theorem digits_of_taken {j : Nat} (h : 0 < d.mantissa) (hsome : d.taken tie (d.lead - j) = some c) :
    0 < c ∧ c ≤ 10 ^ (j + 1) := by
  obtain ⟨hcontains, hc⟩ := contains_of_taken hsome
  obtain ⟨hbelow, -⟩ := nextBelow_bounds d (d.lead - j)
  constructor
  · have hpositive := (bounds_of_contains h hcontains).1
    have hone : (1 : ℚ) ≤ d.mantissa := by exact_mod_cast h
    have hleft : 0 < (4 * d.mantissa - 2 : ℚ) * d.quarter :=
      mul_pos (by linarith) (quarter_pos d)
    by_contra hzero
    have hc : c = 0 := by omega
    rw [hc] at hpositive
    push_cast at hpositive
    linarith
  · have hdigits : (10 : ℚ) ^ (d.lead + 1) = 10 ^ (j + 1) * 10 ^ (d.lead - j) := by
      rw [← zpow_natCast, ← zpow_add₀ (by norm_num)]
      congr 1
      push_cast
      ring
    have hlt := hbelow.trans_lt (lead_bounds d).1
    rw [hdigits, mul_lt_mul_iff_left₀ (ten_zpow_pos _)] at hlt
    have hlt : d.nextBelow (d.lead - j) < 10 ^ (j + 1) := by exact_mod_cast hlt
    omega

/-- The decimal of a double that is not zero lies in its interval and has no zero at the end, if
there is one at all. -/
theorem shortest_mem (tie : Tie) (h : 0 < d.mantissa) :
    d.shortest tie = ⟨0, 0⟩ ∨
      (d.shortest tie).digits % 10 ≠ 0 ∧
        d.interval.Contains ((d.shortest tie).value / d.quarter) := by
  rcases shortest_cases tie h with ⟨hzero, -⟩ | ⟨j, c, hj, hsome, -, hfound⟩
  · exact .inl hzero
  · right
    obtain ⟨hpos, hc⟩ := digits_of_taken h hsome
    have hpow : 10 ^ (j + 1) ≤ 10 ^ 20 := Nat.pow_le_pow_right (by decide) (by omega)
    rw [hfound, value_dropZeros]
    exact ⟨normal_dropZeros hpos (hc.trans hpow), (contains_of_taken hsome).1⟩

theorem mantissa_lt (d : Double) : d.mantissa < 2 ^ (53 : Nat) := by
  have hfraction : d.magnitudeBits % 2 ^ (52 : Nat) < 2 ^ (52 : Nat) :=
    Nat.mod_lt _ (Nat.two_pow_pos _)
  unfold mantissa
  dsimp only
  split_ifs <;> omega

/-- The interval is wider than a grid with seventeen digits. -/
theorem interval_wide {grid : ℚ} (h : 2 ^ (52 : Nat) ≤ d.mantissa)
    (hgrid : 10 ^ (16 : Nat) * grid ≤ 4 * d.mantissa * d.quarter) :
    d.interval.low * d.quarter + grid < d.interval.high * d.quarter := by
  have hquarter := quarter_pos d
  -- below a power of two the interval is smaller, but so are the numbers
  have hlow : d.interval.low + 2 ≤ 4 * d.mantissa ∨
      d.mantissa = 2 ^ (52 : Nat) ∧ d.interval.low + 1 ≤ 4 * d.mantissa := by
    unfold interval
    dsimp only
    split_ifs with hedge
    · have hpower : d.mantissa = 2 ^ (52 : Nat) := by
        simpa using (Bool.and_eq_true_iff.mp hedge).2
      exact .inr ⟨hpower, by omega⟩
    · exact .inl (by omega)
  rw [interval_high]
  rcases hlow with hlow | ⟨hpower, hlow⟩
  · have hlow : (d.interval.low : ℚ) + 2 ≤ 4 * d.mantissa := by exact_mod_cast hlow
    have hmantissa : (d.mantissa : ℚ) < 2 ^ (53 : Nat) := by exact_mod_cast mantissa_lt d
    have hlow := mul_le_mul_of_nonneg_right hlow hquarter.le
    have hmantissa := mul_lt_mul_of_pos_right hmantissa hquarter
    norm_num at hmantissa hgrid
    linarith
  · have hlow : (d.interval.low : ℚ) + 1 ≤ 4 * d.mantissa := by exact_mod_cast hlow
    have hmantissa : (d.mantissa : ℚ) = 2 ^ (52 : Nat) := by exact_mod_cast hpower
    have hlow := mul_le_mul_of_nonneg_right hlow hquarter.le
    rw [hmantissa] at hlow hgrid ⊢
    norm_num at hlow hgrid ⊢
    linarith

theorem contains_of_between (hlow : d.interval.low * d.quarter < x)
    (hhigh : x < d.interval.high * d.quarter) : d.interval.Contains (x / d.quarter) := by
  rw [← lt_div_iff₀ (quarter_pos d)] at hlow
  rw [← div_lt_iff₀ (quarter_pos d)] at hhigh
  exact ⟨hlow.le, hhigh.le, fun _ => ⟨hlow.ne, hhigh.ne⟩⟩

/-- On the grid with seventeen digits a neighbour of the double lies in its interval. -/
theorem exists_seventeen (tie : Tie) (h : 2 ^ (52 : Nat) ≤ d.mantissa)
    (hsize : (10 : ℚ) ^ (-400 : Int) ≤ 4 * d.mantissa * d.quarter) :
    ∃ c, d.taken tie (d.lead - (16 : Nat)) = some c := by
  have hpos : 0 < d.mantissa := Nat.lt_of_lt_of_le (by decide) h
  obtain ⟨hbelow, habove⟩ := nextBelow_bounds d (d.lead - (16 : Nat))
  have hlead := (lead_bounds d).2 hsize
  have hgrid : (10 : ℚ) ^ d.lead = 10 ^ (16 : Nat) * 10 ^ (d.lead - (16 : Nat)) := by
    rw [← zpow_natCast, ← zpow_add₀ (by norm_num)]
    congr 1
    push_cast
    ring
  rw [hgrid] at hlead
  have hwide := interval_wide h hlead
  have hquarter := quarter_pos d
  have hvalue := mul_le_mul_of_nonneg_right (contains_value hpos).low_le hquarter.le
  rw [interval_value] at hvalue
  have hhigh : 4 * d.mantissa * d.quarter < d.interval.high * d.quarter := by
    rw [interval_high]
    linarith
  generalize d.nextBelow (d.lead - (16 : Nat)) = b at hbelow habove
  -- an interval that is wider than the grid has a point of it on one side of the double
  have hnext : ((b + 1 : Nat) : ℚ) * 10 ^ (d.lead - (16 : Nat)) =
      b * 10 ^ (d.lead - (16 : Nat)) + 10 ^ (d.lead - (16 : Nat)) := by
    push_cast
    ring
  rcases lt_or_ge (d.interval.low * d.quarter : ℚ) (b * 10 ^ (d.lead - (16 : Nat))) with hlow | hlow
  · exact exists_taken (c := b) tie hpos (contains_of_between hlow (by linarith))
  · rw [hnext] at habove
    refine exists_taken (c := b + 1) tie hpos ?_
    rw [hnext]
    exact contains_of_between (by linarith) (by linarith)

/-- No double has more than seventeen digits. -/
theorem digits_shortest_le (h : 2 ^ (52 : Nat) ≤ d.mantissa)
    (hsize : (10 : ℚ) ^ (-400 : Int) ≤ 4 * d.mantissa * d.quarter) :
    (d.shortest tie).digits ≤ 10 ^ (17 : Nat) := by
  have hpos : 0 < d.mantissa := Nat.lt_of_lt_of_le (by decide) h
  obtain ⟨j, c, hj, hsome, hfound⟩ :=
    shortest_of_taken hpos (exists_seventeen tie h hsize) (by decide)
  rw [hfound]
  calc (dropZeros 20 ⟨c, d.lead - j⟩).digits ≤ c := digits_dropZeros _ _
    _ ≤ 10 ^ (j + 1) := (digits_of_taken hpos hsome).2
    _ ≤ 10 ^ 17 := Nat.pow_le_pow_right (by decide) (by omega)

theorem shortest_normal (tie : Tie) (d : Double) : (d.shortest tie).Normal := by
  rcases Nat.eq_zero_or_pos d.mantissa with hzero | hpos
  · exact .inr (if_pos hzero)
  · rcases shortest_mem tie hpos with hzero | ⟨hdigits, -⟩
    · exact .inr hzero
    · exact .inl hdigits

/-- The interval of a double holds one number at most of a grid that is wider. -/
theorem eq_of_contains {a b : Nat} (hpos : 0 < d.mantissa)
    (hwide : 4 * d.quarter * 10 ^ k < 1)
    (ha : d.interval.Contains ((a / 10 ^ k : ℚ) / d.quarter))
    (hb : d.interval.Contains ((b / 10 ^ k : ℚ) / d.quarter)) : a = b := by
  have hten : (0 : ℚ) < 10 ^ k := pow_pos (by norm_num) k
  obtain ⟨halow, hahigh⟩ := bounds_of_contains hpos ha
  obtain ⟨hblow, hbhigh⟩ := bounds_of_contains hpos hb
  rw [le_div_iff₀ hten] at halow hblow
  rw [div_le_iff₀ hten] at hahigh hbhigh
  have hab : (a : ℚ) < b + 1 := by linarith
  have hba : (b : ℚ) < a + 1 := by linarith
  have hab : a < b + 1 := by exact_mod_cast hab
  have hba : b < a + 1 := by exact_mod_cast hba
  omega

/-- A number of the interval with few digits is on a grid that is wider than the interval, and the
double has digits before its point on that grid, but not many. -/
theorem grid_of_nearest (h : Nearest d (n / 10 ^ k)) (hlow : 2 ≤ n) (hhigh : n < 2 ^ 52) :
    4 * d.quarter * 10 ^ k < 1 ∧ (10 : ℚ) ^ (-(k : Int)) ≤ 4 * d.mantissa * d.quarter ∧
      4 * d.mantissa * d.quarter < (10 : ℚ) ^ (16 - (k : Int)) := by
  have hpos := h.mantissa_pos
  have hten : (0 : ℚ) < 10 ^ k := pow_pos (by norm_num) k
  have hquarter := quarter_pos d
  obtain ⟨hxlow, hxhigh⟩ := bounds_of_contains hpos h.contains
  rw [le_div_iff₀ hten] at hxlow
  rw [div_le_iff₀ hten] at hxhigh
  have hmantissa : (2 ^ 52 : ℚ) ≤ d.mantissa := by exact_mod_cast h.normal
  have hn : (n : ℚ) + 1 ≤ 2 ^ 52 := by exact_mod_cast hhigh
  have htwo : (2 : ℚ) ≤ n := by exact_mod_cast hlow
  -- a quarter of the last place, in units of the grid
  have hunit : 0 < d.quarter * 10 ^ k := mul_pos hquarter hten
  have hdigits : (2 ^ 54 - 2) * (d.quarter * 10 ^ k) ≤ n := by
    have := mul_le_mul_of_nonneg_right hmantissa hunit.le
    linarith
  have hwide : 4 * (d.quarter * 10 ^ k) < 1 := by
    norm_num at hn hdigits
    linarith
  rw [zpow_neg, zpow_natCast, zpow_sub₀ (by norm_num), zpow_natCast, inv_le_iff_one_le_mul₀ hten,
    lt_div_iff₀ hten]
  refine ⟨by linarith, by linarith, ?_⟩
  norm_num at hn ⊢
  linarith

/-- A decimal with few digits is found again in the interval of its nearest double. -/
theorem value_shortest (h : Nearest d x) (hx : x = n / 10 ^ k) (hk : k ≤ 300) (hlow : 2 ≤ n)
    (hhigh : n < 2 ^ 52) : (d.shortest tie).value = x := by
  have hpos := h.mantissa_pos
  subst hx
  obtain ⟨hwide, hleast, hmost⟩ := grid_of_nearest h hlow hhigh
  obtain ⟨hsize, hsize'⟩ := lead_bounds d
  have hten : (1 : ℚ) < 10 := by norm_num
  have hleadlow : -(k : Int) < d.lead + 1 :=
    (zpow_lt_zpow_iff_right₀ hten).mp (hleast.trans_lt hsize)
  have hleadhigh : d.lead < 16 - k := by
    refine (zpow_lt_zpow_iff_right₀ hten).mp ((hsize' ?_).trans_lt hmost)
    exact (zpow_le_zpow_right₀ hten.le (by omega)).trans hleast
  obtain ⟨last, hlast⟩ : ∃ last : Nat, d.lead - last = -(k : Int) :=
    ⟨(d.lead + k).toNat, by omega⟩
  -- the search does not go on to grids that are finer than that of the number
  have hgrid : ∃ c, d.taken tie (d.lead - last) = some c := by
    refine exists_taken (c := n) tie hpos ?_
    rw [hlast, zpow_neg, zpow_natCast]
    exact h.contains
  obtain ⟨j, c, hj, hsome, hfound⟩ := shortest_of_taken hpos hgrid (by omega)
  rw [hfound, value_dropZeros]
  show (c : ℚ) * 10 ^ (d.lead - j) = n / 10 ^ k
  have hplace : (c : ℚ) * 10 ^ (d.lead - j) = (c * 10 ^ (last - j) : Nat) / 10 ^ k := by
    have hsum : d.lead - j = (last - j : Nat) - (k : Int) := by omega
    rw [hsum, zpow_sub₀ (by norm_num), zpow_natCast, zpow_natCast]
    push_cast
    ring
  have hcontains := (contains_of_taken hsome).1
  rw [hplace] at hcontains ⊢
  rw [eq_of_contains hpos hwide hcontains h.contains]

end Shortest

end Double

/-- The place of the first digit of a decimal gives its size. -/
theorem Layout.leading_bounds {d : Decimal} (h : 0 < d.digits) :
    (10 : ℚ) ^ leading d ≤ d.value ∧ d.value < 10 ^ (leading d + 1) := by
  have hten : (10 : ℚ) ≠ 0 := by norm_num
  have hscale := ten_zpow_pos d.exponent
  have hcount := Double.digitCount_pos d.digits
  unfold leading Decimal.value
  constructor
  · have hlow : (10 : ℚ) ^ (Double.digitCount d.digits - 1) ≤ d.digits := by
      exact_mod_cast Double.pow_le_of_lt_digitCount h (by omega)
    have hsum : d.exponent + Double.digitCount d.digits - 1 =
        (Double.digitCount d.digits - 1 : Nat) + d.exponent := by omega
    rw [hsum, zpow_add₀ hten, zpow_natCast]
    exact mul_le_mul_of_nonneg_right hlow hscale.le
  · have hhigh : (d.digits : ℚ) < 10 ^ Double.digitCount d.digits := by
      exact_mod_cast Double.lt_pow_digitCount d.digits
    have hsum : d.exponent + Double.digitCount d.digits - 1 + 1 =
        (Double.digitCount d.digits : Int) + d.exponent := by omega
    rw [hsum, zpow_add₀ hten, zpow_natCast]
    exact mul_lt_mul_of_pos_right hhigh hscale

end Stencil
