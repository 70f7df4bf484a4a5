import Stencil.Proofs.Decimal.Nearest

/-!
# Grids of decimals

The multiples of a power of ten are a grid.  If any of them lies in an interval, so does one of the
two neighbours of its value, and a neighbour in the interval is what is taken.  The search goes
from coarse grids to finer ones and ends with the first that has such a neighbour; zeros at the end
of its digits are dropped.
-/

namespace Stencil

-- powers of numbers are those of the core library
attribute [local instance (2000)] instPowNat

/-- The number that a decimal stands for. -/
def Decimal.value (d : Decimal) : ℚ := d.digits * 10 ^ d.exponent

/-- A decimal without a zero at the end of its digits; those of zero have no exponent. -/
def Decimal.Normal (d : Decimal) : Prop := d.digits % 10 ≠ 0 ∨ d = ⟨0, 0⟩

theorem ten_zpow_pos (e : Int) : (0 : ℚ) < 10 ^ e := zpow_pos (by norm_num) e

/-- Of two decimals that are worth the same, one without a zero at its end has the exponent that is
not smaller. -/
theorem Decimal.exponent_le {a b : Decimal} (ha : a.digits % 10 ≠ 0) (h : a.value = b.value) :
    b.exponent ≤ a.exponent := by
  by_contra hlt
  obtain ⟨more, hmore⟩ : ∃ more : Nat, b.exponent = (more + 1 : Nat) + a.exponent :=
    ⟨(b.exponent - a.exponent - 1).toNat, by omega⟩
  unfold value at h
  rw [hmore, zpow_add₀ (by norm_num), ← mul_assoc, mul_left_inj' (ten_zpow_pos _).ne',
    zpow_natCast] at h
  have h : a.digits = b.digits * 10 ^ (more + 1) := by exact_mod_cast h
  rw [h, Nat.pow_succ, ← Nat.mul_assoc, Nat.mul_mod_left] at ha
  exact ha rfl

theorem Decimal.eq_of_value_eq {a b : Decimal} (ha : a.digits % 10 ≠ 0) (hb : b.digits % 10 ≠ 0)
    (h : a.value = b.value) : a = b := by
  have hexponent := Int.le_antisymm (exponent_le hb h.symm) (exponent_le ha h)
  unfold value at h
  rw [hexponent, mul_left_inj' (ten_zpow_pos _).ne'] at h
  have hdigits : a.digits = b.digits := by exact_mod_cast h
  cases a
  cases b
  cases hexponent
  cases hdigits
  rfl

namespace Double

/-- A power as a numerator and a denominator. -/
def power (b : Nat) (e : Int) : Nat × Nat :=
  if e < 0 then (1, b ^ (-e).toNat) else (b ^ e.toNat, 1)

theorem power_pos {b : Nat} (hb : 0 < b) (e : Int) : 0 < (power b e).1 ∧ 0 < (power b e).2 := by
  unfold power
  split_ifs
  · exact ⟨Nat.one_pos, Nat.pow_pos hb⟩
  · exact ⟨Nat.pow_pos hb, Nat.one_pos⟩

theorem power_rat (b : Nat) (e : Int) : ((power b e).1 : ℚ) / (power b e).2 = (b : ℚ) ^ e := by
  unfold power
  split_ifs with he
  · obtain ⟨n, hn⟩ : ∃ n : Nat, e = -n := ⟨(-e).toNat, by omega⟩
    subst hn
    rw [neg_neg, Int.toNat_natCast, zpow_neg, zpow_natCast]
    push_cast
    rw [one_div]
  · obtain ⟨n, rfl⟩ := Int.eq_ofNat_of_zero_le (not_lt.mp he)
    rw [Int.toNat_natCast, zpow_natCast]
    push_cast
    rw [div_one]

/-! ## Neighbours on a grid -/

section Grid

variable {i : Interval} {num den c : Nat} {tie : Tie} {place : Int}

/-- What lies between two numbers of an interval lies in it. -/
theorem Interval.Contains.between {x y z : ℚ} (hx : i.Contains x) (hz : i.Contains z)
    (hxy : x ≤ y) (hyz : y ≤ z) : i.Contains y where
  low_le := hx.low_le.trans hxy
  le_high := hyz.trans hz.le_high
  inner h :=
    ⟨ne_of_lt ((lt_of_le_of_ne hx.low_le (hx.inner h).1).trans_le hxy),
      ne_of_lt (hyz.trans_lt (lt_of_le_of_ne hz.le_high (hz.inner h).2))⟩

/-- Whether a number of a grid lies in an interval, as it is decided in whole numbers. -/
def inside (i : Interval) (num den : Nat) (place : Int) (c : Nat) : Bool :=
  let x := c * (den * (power 10 place).1)
  if i.closed then
    i.low * num * (power 10 place).2 ≤ x && x ≤ i.high * num * (power 10 place).2
  else i.low * num * (power 10 place).2 < x && x < i.high * num * (power 10 place).2

/-- The number of a grid that is next below the value of an interval. -/
def below (i : Interval) (num den : Nat) (place : Int) : Nat :=
  i.value * num * (power 10 place).2 / (den * (power 10 place).1)

/-- The neighbour of a value that is taken: one that lies in the interval, and the nearer one if
both do. -/
def neighbour? (low high : Bool) (b rest step : Nat) (tie : Tie) : Option Nat :=
  match low, high with
  | false, false => none
  | true, false => some b
  | false, true => some (b + 1)
  | true, true =>
      if 2 * rest < step then some b
      else if step < 2 * rest then some (b + 1)
      else
        match tie with
        | .up => some (b + 1)
        | .even => some (b + b % 2)

theorem neighbour?_cases (low high : Bool) (b rest step : Nat) (tie : Tie) :
    (neighbour? low high b rest step tie = none ∧ low = false ∧ high = false) ∨
      (neighbour? low high b rest step tie = some b ∧ low = true) ∨
      (neighbour? low high b rest step tie = some (b + 1) ∧ high = true) := by
  unfold neighbour?
  cases low with
  | false =>
      cases high with
      | false => exact .inl ⟨rfl, rfl, rfl⟩
      | true => exact .inr (.inr ⟨rfl, rfl⟩)
  | true =>
      cases high with
      | false => exact .inr (.inl ⟨rfl, rfl⟩)
      | true =>
          dsimp only
          split_ifs
          · exact .inr (.inl ⟨rfl, rfl⟩)
          · exact .inr (.inr ⟨rfl, rfl⟩)
          · cases tie with
            | up => exact .inr (.inr ⟨rfl, rfl⟩)
            | even =>
                rcases Nat.mod_two_eq_zero_or_one b with heven | hodd
                · exact .inr (.inl ⟨congrArg some (by omega), rfl⟩)
                · exact .inr (.inr ⟨congrArg some (by omega), rfl⟩)

theorem onGrid_eq (i : Interval) (num den : Nat) (tie : Tie) (place : Int) :
    onGrid i num den tie place =
      neighbour? (inside i num den place (below i num den place))
        (inside i num den place (below i num den place + 1)) (below i num den place)
        (i.value * num * (power 10 place).2 -
          below i num den place * (den * (power 10 place).1))
        (den * (power 10 place).1) tie := rfl

/-- The decimal that is taken is a neighbour of the value that lies in the interval. -/
theorem onGrid_cases (i : Interval) (num den : Nat) (tie : Tie) (place : Int) :
    (onGrid i num den tie place = none ∧ inside i num den place (below i num den place) = false ∧
        inside i num den place (below i num den place + 1) = false) ∨
      ∃ c, onGrid i num den tie place = some c ∧ inside i num den place c = true ∧
        (c = below i num den place ∨ c = below i num den place + 1) := by
  rw [onGrid_eq]
  rcases neighbour?_cases (inside i num den place (below i num den place))
      (inside i num den place (below i num den place + 1)) (below i num den place) _ _ tie with
    hnone | ⟨hsome, hin⟩ | ⟨hsome, hin⟩
  · exact .inl hnone
  · exact .inr ⟨_, hsome, hin, .inl rfl⟩
  · exact .inr ⟨_, hsome, hin, .inr rfl⟩

variable {u : ℚ}

theorem inside_iff (hu : u = num / den) (hnum : 0 < num) (hden : 0 < den) :
    inside i num den place c = true ↔ i.Contains (c * 10 ^ place / u) := by
  have hnum : (0 : ℚ) < num := by exact_mod_cast hnum
  have hden : (0 : ℚ) < den := by exact_mod_cast hden
  obtain ⟨ha, hb⟩ := power_pos (b := 10) (by decide) place
  have ha : (0 : ℚ) < (power 10 place).1 := by exact_mod_cast ha
  have hb : (0 : ℚ) < (power 10 place).2 := by exact_mod_cast hb
  have hvalue : (c * 10 ^ place / u : ℚ) =
      (c * (den * (power 10 place).1)) / (num * (power 10 place).2) := by
    rw [hu, ← Nat.cast_ofNat (n := 10), ← power_rat]
    field_simp
  have hscale : (0 : ℚ) < num * (power 10 place).2 := mul_pos hnum hb
  have hle : ∀ n : Nat, n * num * (power 10 place).2 ≤ c * (den * (power 10 place).1) ↔
      (n : ℚ) ≤ c * 10 ^ place / u := by
    intro n
    rw [hvalue, le_div_iff₀ hscale, ← mul_assoc (n : ℚ)]
    exact_mod_cast Iff.rfl
  have hge : ∀ n : Nat, c * (den * (power 10 place).1) ≤ n * num * (power 10 place).2 ↔
      (c * 10 ^ place / u : ℚ) ≤ n := by
    intro n
    rw [hvalue, div_le_iff₀ hscale, ← mul_assoc (n : ℚ)]
    exact_mod_cast Iff.rfl
  unfold inside
  dsimp only
  split_ifs with hclosed
  · rw [Bool.and_eq_true, decide_eq_true_eq, decide_eq_true_eq, hle, hge]
    exact ⟨fun h => ⟨h.1, h.2, fun hopen => by simp [hclosed] at hopen⟩,
      fun h => ⟨h.low_le, h.le_high⟩⟩
  · rw [Bool.and_eq_true, decide_eq_true_eq, decide_eq_true_eq, ← not_le, ← not_le, hle, hge,
      not_le, not_le]
    exact ⟨fun h => ⟨h.1.le, h.2.le, fun _ => ⟨h.1.ne, h.2.ne⟩⟩,
      fun h => have hinner := h.inner (by simpa using hclosed)
        ⟨lt_of_le_of_ne h.low_le hinner.1, lt_of_le_of_ne h.le_high hinner.2⟩⟩

theorem below_bounds (i : Interval) (place : Int) (hu : u = num / den) (hnum : 0 < num)
    (hden : 0 < den) :
    (below i num den place : ℚ) * 10 ^ place ≤ i.value * u ∧
      i.value * u < (below i num den place + 1 : Nat) * 10 ^ place := by
  have hnum : (0 : ℚ) < num := by exact_mod_cast hnum
  have hden' : (0 : ℚ) < den := by exact_mod_cast hden
  obtain ⟨ha, hb⟩ := power_pos (b := 10) (by decide) place
  have hstep : 0 < den * (power 10 place).1 := Nat.mul_pos hden ha
  have ha : (0 : ℚ) < (power 10 place).1 := by exact_mod_cast ha
  have hb : (0 : ℚ) < (power 10 place).2 := by exact_mod_cast hb
  rw [hu, ← Nat.cast_ofNat (n := 10), ← power_rat, mul_div_assoc', mul_div_assoc', mul_div_assoc',
    div_le_div_iff₀ hb hden', div_lt_div_iff₀ hden' hb]
  have hlow : below i num den place * (den * (power 10 place).1) ≤
      i.value * num * (power 10 place).2 := Nat.div_mul_le_self _ _
  have hhigh : i.value * num * (power 10 place).2 <
      (below i num den place + 1) * (den * (power 10 place).1) :=
    (Nat.div_lt_iff_lt_mul hstep).mp (Nat.lt_succ_self _)
  generalize below i num den place = b at hlow hhigh ⊢
  have hlow : (b : ℚ) * (den * (power 10 place).1) ≤
      i.value * num * (power 10 place).2 := by exact_mod_cast hlow
  have hhigh : (i.value : ℚ) * num * (power 10 place).2 <
      (b + 1 : Nat) * (den * (power 10 place).1) := by exact_mod_cast hhigh
  constructor
  · linarith
  · linarith

theorem contains_of_onGrid (hu : u = num / den) (hnum : 0 < num) (hden : 0 < den)
    (h : onGrid i num den tie place = some c) :
    i.Contains (c * 10 ^ place / u) ∧ c ≤ below i num den place + 1 := by
  rcases onGrid_cases i num den tie place with ⟨hnone, -⟩ | ⟨c', hsome, hinside, hcases⟩
  · rw [hnone] at h
    cases h
  · rw [hsome] at h
    cases h
    exact ⟨(inside_iff hu hnum hden).mp hinside, by omega⟩

/-- If a number of the grid lies in the interval, so does a neighbour of the value. -/
theorem exists_onGrid (hu : u = num / den) (hnum : 0 < num) (hden : 0 < den)
    (hvalue : i.Contains i.value) (h : i.Contains (c * 10 ^ place / u)) :
    ∃ c', onGrid i num den tie place = some c' := by
  have hupos : 0 < u := by
    rw [hu]
    exact div_pos (by exact_mod_cast hnum) (by exact_mod_cast hden)
  have hten := ten_zpow_pos place
  obtain ⟨hbelow, habove⟩ := below_bounds i place hu hnum hden
  rcases onGrid_cases i num den tie place with ⟨-, hout, hout'⟩ | ⟨c', hsome, -⟩
  · exfalso
    generalize below i num den place = b at hbelow habove hout hout'
    -- the neighbour on the side of the number lies between it and the value
    rcases Nat.lt_or_ge b c with hlt | hge
    · have hc : ((b + 1 : Nat) : ℚ) * 10 ^ place ≤ c * 10 ^ place :=
        mul_le_mul_of_nonneg_right (by exact_mod_cast hlt) hten.le
      have hin : i.Contains ((b + 1 : Nat) * 10 ^ place / u) :=
        hvalue.between h ((le_div_iff₀ hupos).mpr habove.le)
          ((div_le_div_iff_of_pos_right hupos).mpr hc)
      rw [← inside_iff hu hnum hden, hout'] at hin
      cases hin
    · have hc : (c : ℚ) * 10 ^ place ≤ b * 10 ^ place :=
        mul_le_mul_of_nonneg_right (by exact_mod_cast hge) hten.le
      have hin : i.Contains (b * 10 ^ place / u) :=
        h.between hvalue ((div_le_div_iff_of_pos_right hupos).mpr hc)
          ((div_le_iff₀ hupos).mpr hbelow)
      rw [← inside_iff hu hnum hden, hout] at hin
      cases hin
  · exact ⟨c', hsome⟩

end Grid

/-! ## The search -/

section Search

/-- The search gives the decimal of the first grid that has one. -/
theorem searchGrids_cases (i : Interval) (num den : Nat) (tie : Tie) (lead : Int) :
    ∀ fuel count : Nat,
    searchGrids i num den tie lead fuel count = ⟨0, 0⟩ ∧
        (∀ j : Nat, count ≤ j → j < count + fuel → onGrid i num den tie (lead - j) = none) ∨
      ∃ j c : Nat, j < count + fuel ∧ onGrid i num den tie (lead - j) = some c ∧
        (∀ j' : Nat, count ≤ j' → j' < j → onGrid i num den tie (lead - j') = none) ∧
        searchGrids i num den tie lead fuel count = dropZeros 20 ⟨c, lead - j⟩ := by
  intro fuel
  -- the grids before `count` were tried already, and the fuel counts those that are left
  induction fuel with
  | zero => exact fun count => .inl ⟨rfl, fun j hlow hhigh => by omega⟩
  | succ fuel ih =>
      intro count
      rw [searchGrids]
      cases hgrid : onGrid i num den tie (lead - count) with
      | some c => exact .inr ⟨count, c, by omega, hgrid, fun j hlow hhigh => by omega, rfl⟩
      | none =>
          have hhere : ∀ j : Nat, count ≤ j → (count + 1 ≤ j →
              onGrid i num den tie (lead - j) = none) →
                onGrid i num den tie (lead - j) = none := by
            intro j hj hnext
            rcases Nat.eq_or_lt_of_le hj with rfl | hlt
            · exact hgrid
            · exact hnext hlt
          rcases ih (count + 1) with ⟨hzero, hnone⟩ | ⟨j, c, hj, hsome, hnone, hfound⟩
          · exact .inl ⟨hzero, fun j hlow hhigh =>
              hhere j hlow fun hnext => hnone j hnext (by omega)⟩
          · exact .inr ⟨j, c, by omega, hsome, fun j' hlow hhigh =>
              hhere j' hlow fun hnext => hnone j' hnext hhigh, hfound⟩

theorem value_dropZeros (fuel : Nat) (d : Decimal) : (dropZeros fuel d).value = d.value := by
  induction fuel generalizing d with
  | zero => rfl
  | succ fuel ih =>
      unfold dropZeros
      split_ifs with h
      · have hten : d.digits = 10 * (d.digits / 10) := by omega
        rw [ih]
        unfold Decimal.value
        conv_rhs => rw [hten]
        rw [zpow_add_one₀ (by norm_num)]
        push_cast
        ring
      · rfl

theorem digits_dropZeros (fuel : Nat) (d : Decimal) : (dropZeros fuel d).digits ≤ d.digits := by
  induction fuel generalizing d with
  | zero => exact Nat.le_refl _
  | succ fuel ih =>
      unfold dropZeros
      split_ifs
      · exact (ih _).trans (Nat.div_le_self _ _)
      · exact Nat.le_refl _

/-- No zeros are left when enough of them may be dropped. -/
theorem normal_dropZeros {fuel : Nat} {d : Decimal} (hpos : 0 < d.digits)
    (hsmall : d.digits ≤ 10 ^ fuel) : (dropZeros fuel d).digits % 10 ≠ 0 := by
  induction fuel generalizing d with
  | zero =>
      have hone : d.digits = 1 := by omega
      rw [dropZeros, hone]
      decide
  | succ fuel ih =>
      unfold dropZeros
      split_ifs with h
      · rw [Nat.pow_succ] at hsmall
        exact ih (show 0 < d.digits / 10 by omega) (show d.digits / 10 ≤ 10 ^ fuel by omega)
      · omega

end Search

end Double

end Stencil
