import Stencil.Proofs.Decimal.PlainDigits
import Stencil.Proofs.Decimal.ShortestDigits
import Stencil.Proofs.Model.VersionText
import Stencil.Yaml.Record

/-!
# Versions without quotes

A version without quotes looks like a number.  What is read for it are the digits of the double
that is nearest to that number, and these are the version again exactly if its minor number does
not end with a zero and the number is found again in the interval of the double.
-/

namespace Stencil.Model

open Decimal (Spells)

-- powers of numbers are those of the core library
attribute [local instance (2000)] instPowNat

namespace Version

/-- The number of digits behind the point. -/
def places (v : Version) : Nat := (Nat.toDigits 10 v.minor.toNat).length

/-- The digits without the point. -/
def digits (v : Version) : Nat := v.major.toNat * 10 ^ v.places + v.minor.toNat

/-- The number that a version looks like. -/
def number (v : Version) : ℚ := v.digits / 10 ^ v.places

/-- The double that a version without quotes means. -/
def double (v : Version) : Double := .ofDecimal false v.digits (-(v.places : Int))

/-- The text that is read for a version without quotes. -/
def unquoted (v : Version) : String := Layout.yaml.write v.double

/-- A version that is read without quotes as it is written: no zero is dropped at its end, and the
shortest digits of its double are its own. -/
structure Legible (v : Version) : Prop where
  ending : v.minor.toNat % 10 ≠ 0 ∨ v.minor.toNat = 0
  found : (v.double.shortest .even).value = v.number

/-! ## The size of a version -/

section Size

variable (v : Version)

theorem places_pos : 0 < v.places := Nat.length_toDigits_pos

theorem minor_lt : v.minor.toNat < 10 ^ v.places := Double.lt_pow_digitCount v.minor.toNat

theorem places_le : v.places ≤ 10 := by
  refine (Nat.length_toDigits_le_iff (by decide) (by decide)).mpr ?_
  exact Nat.lt_of_lt_of_le v.minor.toNat_lt (by decide)

theorem digits_div : v.digits / 10 ^ v.places = v.major.toNat := by
  have hpos : 0 < 10 ^ v.places := Nat.pow_pos (by decide)
  rw [digits, Nat.mul_comm, Nat.mul_add_div hpos, Nat.div_eq_of_lt v.minor_lt, Nat.add_zero]

theorem digits_mod : v.digits % 10 ^ v.places = v.minor.toNat := by
  rw [digits, Nat.mul_comm, Nat.mul_add_mod, Nat.mod_eq_of_lt v.minor_lt]

theorem digits_mod_ten : v.digits % 10 = v.minor.toNat % 10 := by
  obtain ⟨p, hp⟩ : ∃ p, v.places = p + 1 := ⟨v.places - 1, by have := v.places_pos; omega⟩
  rw [digits, hp, Nat.pow_succ, ← Nat.mul_assoc, Nat.mul_add_mod_self_right]

theorem digits_lt : v.digits < 10 ^ (20 : Nat) := by
  have hpow : 10 ^ v.places ≤ 10 ^ 10 := Nat.pow_le_pow_right (by decide) v.places_le
  have hmajor : v.major.toNat * 10 ^ v.places ≤ v.major.toNat * 10 ^ 10 :=
    Nat.mul_le_mul_left _ hpow
  have := v.major.toNat_lt
  have := v.minor.toNat_lt
  unfold digits
  omega

variable {v}

theorem number_eq : v.number = v.major.toNat + v.minor.toNat / 10 ^ v.places := by
  have hpos : (0 : ℚ) < 10 ^ v.places := pow_pos (by norm_num) _
  rw [number, digits]
  push_cast
  rw [add_div, mul_div_cancel_right₀ _ hpos.ne']

theorem number_lt : v.number < 2 ^ 33 := by
  have hpos : (0 : ℚ) < 10 ^ v.places := pow_pos (by norm_num) _
  have hmajor : (v.major.toNat : ℚ) < 2 ^ 32 := by exact_mod_cast v.major.toNat_lt
  have hminor : (v.minor.toNat / 10 ^ v.places : ℚ) < 1 := by
    rw [div_lt_one hpos]
    exact_mod_cast v.minor_lt
  rw [number_eq]
  linarith

theorem tenth_le_minor (h : 0 < v.minor.toNat) : (1 / 10 : ℚ) ≤ v.minor.toNat / 10 ^ v.places := by
  have hpos : (0 : ℚ) < 10 ^ v.places := pow_pos (by norm_num) _
  have hplaces := v.places_pos
  have hle : 10 ^ (v.places - 1) ≤ v.minor.toNat := Double.pow_le_of_lt_digitCount h
    (show v.places - 1 < v.places by omega)
  have hsplit : 10 ^ v.places = 10 ^ (v.places - 1) * 10 := by
    rw [← Nat.pow_succ]
    congr 1
    omega
  have hle : 10 ^ v.places ≤ v.minor.toNat * 10 := by
    rw [hsplit]
    exact Nat.mul_le_mul_right _ hle
  have hle : (10 ^ v.places : ℚ) ≤ v.minor.toNat * 10 := by exact_mod_cast hle
  rw [le_div_iff₀ hpos]
  linarith

/-- A version other than zero is a tenth at least. -/
theorem tenth_le_number (h : v.digits ≠ 0) : (1 / 10 : ℚ) ≤ v.number := by
  rw [number_eq]
  rcases Nat.eq_zero_or_pos v.minor.toNat with hzero | hpos
  · have hmajor : 1 ≤ v.major.toNat := by
      by_contra hnone
      have : v.major.toNat = 0 := by omega
      exact h (by rw [digits, this, hzero, Nat.zero_mul])
    have hmajor : (1 : ℚ) ≤ v.major.toNat := by exact_mod_cast hmajor
    rw [hzero]
    norm_num
    linarith
  · have hmajor : (0 : ℚ) ≤ v.major.toNat := Nat.cast_nonneg _
    have := tenth_le_minor hpos
    linarith

end Size

/-! ## The double of a version -/

section Double

variable {v : Version}

theorem double_eq (h : v.digits ≠ 0) :
    v.double = .ofMagnitude false (Double.nearestBits v.digits (10 ^ v.places)) := by
  have hcount : Double.digitCount v.digits ≤ 20 :=
    (Nat.length_toDigits_le_iff (by decide) (by decide)).mpr v.digits_lt
  have hplaces := v.places_le
  have hpos := v.places_pos
  unfold double Double.ofDecimal
  dsimp only
  rw [if_neg (by omega), if_neg (by omega), if_pos (by omega), neg_neg, Int.toNat_natCast]

theorem nearest_double (h : v.digits ≠ 0) : v.double.Nearest v.number := by
  have hpos : 0 < 10 ^ v.places := Nat.pow_pos (by decide)
  have hcast : v.number = v.digits / (10 ^ v.places : Nat) := by
    rw [number]
    push_cast
    rfl
  have hlow : (2 : ℚ) ^ (-1022 : Int) ≤ v.number :=
    calc (2 : ℚ) ^ (-1022 : Int) ≤ 2 ^ (-4 : Int) := zpow_le_zpow_right₀ (by norm_num) (by decide)
      _ ≤ 1 / 10 := by norm_num
      _ ≤ v.number := tenth_le_number h
  have hhigh : v.number < 2 ^ (1023 : Int) :=
    calc v.number < 2 ^ (33 : Nat) := number_lt
      _ = 2 ^ (33 : Int) := by norm_num
      _ ≤ 2 ^ (1023 : Int) := zpow_le_zpow_right₀ (by norm_num) (by decide)
  rw [double_eq h]
  rw [hcast] at hlow hhigh ⊢
  exact Double.nearest_of_range (Nat.pos_of_ne_zero h) hpos hlow hhigh

theorem double_zero (h : v.digits = 0) : v.double = .ofMagnitude false 0 := by
  unfold double Double.ofDecimal
  dsimp only
  rw [if_pos (.inl h)]

theorem double_finite (v : Version) : v.double.isFinite = true := by
  by_cases h : v.digits = 0
  · rw [double_zero h]
    rfl
  · exact (nearest_double h).finite

theorem double_positive (v : Version) : v.double.isNegative = false := by
  by_cases h : v.digits = 0
  · rw [double_zero h]
    rfl
  · exact (nearest_double h).sign

theorem shortest_zero (h : v.digits = 0) : v.double.shortest .even = ⟨0, 0⟩ := by
  rw [double_zero h]
  rfl

/-- The digits that are found stand for a number next to that of the version. -/
theorem shortest_near (v : Version) :
    v.double.shortest .even = ⟨0, 0⟩ ∨
      0 < (v.double.shortest .even).digits ∧ 1 / 10 ≤ v.number ∧
        v.number ≤ 2 * (v.double.shortest .even).value ∧
        (v.double.shortest .even).value ≤ 2 * v.number ∧
        v.number < (v.double.shortest .even).value + 9 / 100 := by
  by_cases h : v.digits = 0
  · exact .inl (shortest_zero h)
  · have hnearest := nearest_double h
    have hpos := hnearest.mantissa_pos
    rcases Double.shortest_mem .even hpos with hzero | ⟨hdigits, hcontains⟩
    · exact .inl hzero
    · obtain ⟨hlow, hhigh⟩ := Double.bounds_of_contains hpos hnearest.contains
      obtain ⟨hlow', hhigh'⟩ := Double.bounds_of_contains hpos hcontains
      have hmantissa : (2 ^ 52 : ℚ) ≤ v.double.mantissa := by exact_mod_cast hnearest.normal
      have hquarter := Double.quarter_pos v.double
      have hlarge := mul_le_mul_of_nonneg_right hmantissa hquarter.le
      have hsize : v.number < 2 ^ 33 := number_lt
      norm_num at hlarge hsize
      exact .inr ⟨by omega, tenth_le_number h, by linarith, by linarith, by linarith⟩

theorem shortest_digits_le (v : Version) :
    (v.double.shortest .even).digits ≤ 10 ^ (17 : Nat) := by
  by_cases h : v.digits = 0
  · rw [shortest_zero h]
    decide
  · have hnearest := nearest_double h
    have hpos := hnearest.mantissa_pos
    have hquarter := Double.quarter_pos v.double
    have hhigh := (Double.bounds_of_contains hpos hnearest.contains).2
    have htenth := tenth_le_number h
    have hmantissa : (2 ^ 52 : ℚ) ≤ v.double.mantissa := by exact_mod_cast hnearest.normal
    have hlarge := mul_le_mul_of_nonneg_right hmantissa hquarter.le
    refine Double.digits_shortest_le hnearest.normal ?_
    calc (10 : ℚ) ^ (-400 : Int) ≤ 10 ^ (-2 : Int) := zpow_le_zpow_right₀ (by norm_num) (by decide)
      _ ≤ 4 * v.double.mantissa * v.double.quarter := by
          norm_num at hlarge ⊢
          linarith

/-- A version has few enough digits before and behind the point to be read with all of them. -/
theorem unquoted_eq (v : Version) :
    v.unquoted = Layout.writePlain (v.double.shortest .even) := by
  have hnan : v.double.isNaN = false := by
    have hfinite := double_finite v
    simp only [Double.isFinite, decide_eq_true_eq] at hfinite
    exact decide_eq_false (by omega)
  have hplain : Layout.yaml.isPlain (v.double.shortest .even) = true := by
    rcases shortest_near v with hzero | ⟨hdigits, htenth, hlow, hhigh, -⟩
    · rw [hzero]
      rfl
    · obtain ⟨hleast, hmost⟩ := Layout.leading_bounds hdigits
      have hsize : v.number < 2 ^ 33 := number_lt
      have hten : (1 : ℚ) < 10 := by norm_num
      have hleading : -5 < Layout.leading (v.double.shortest .even) + 1 := by
        refine (zpow_lt_zpow_iff_right₀ hten).mp (lt_of_le_of_lt ?_ hmost)
        norm_num
        linarith
      have hleading' : Layout.leading (v.double.shortest .even) < 16 := by
        refine (zpow_lt_zpow_iff_right₀ hten).mp (lt_of_le_of_lt hleast ?_)
        norm_num at hsize ⊢
        linarith
      have hwithin : -5 ≤ Layout.leading (v.double.shortest .even) := by omega
      simp [Layout.isPlain, Layout.yaml, hwithin, hleading']
  unfold unquoted Layout.write
  rw [hnan, double_positive, double_finite]
  show "" ++ (if Layout.yaml.isPlain (v.double.shortest .even) then _ else _) = _
  rw [if_pos hplain, String.empty_append]
  rfl

end Double

/-! ## What is read -/

section Reading

variable {v : Version} {s : String} {a b : List Char} {m n : Nat}

/-- The text of a version is digits of its numbers, with a point between them. -/
theorem eq_text_iff (hs : s.toList = a ++ '.' :: b) (ha : Spells a m) (hb : Spells b n) :
    s = v.text ↔ a = Nat.toDigits 10 v.major.toNat ∧ b = Nat.toDigits 10 v.minor.toNat := by
  rw [← String.toList_inj, hs, toList_text]
  constructor
  · intro h
    have hmajor := Decimal.spells_toDigits v.major.toNat
    have hminor := Decimal.spells_toDigits v.minor.toNat
    have hpieces := congrArg (Text.pieces '.') h
    rw [pieces_of_spells (.plain ha) (.plain hb), pieces_of_spells (.plain hmajor) (.plain hminor)]
      at hpieces
    simpa using hpieces
  · rintro ⟨rfl, rfl⟩
    rfl

/-- The numbers of a version that is read are those that its text spells. -/
theorem numbers_of_parse (hs : s.toList = a ++ '.' :: b) (ha : Spells a m) (hb : Spells b n)
    (h : parse s = .ok v) : v.major.toNat = m ∧ v.minor.toNat = n := by
  have hspelled : Spelled s m n := ⟨[], a, b, [], by simpa using hs, by simp, by simp, .plain ha,
    .plain hb⟩
  rw [parse_of_spelled hspelled] at h
  split_ifs at h with hm hn
  cases h
  exact ⟨UInt32.toNat_ofNat_of_lt' hm, UInt32.toNat_ofNat_of_lt' hn⟩

theorem eq_of_toDigits (h : Spells (Nat.toDigits 10 m) n) : m = n :=
  (Decimal.spells_toDigits m).unique h

theorem legible_of_text (h : v.unquoted = v.text) : v.Legible := by
  rw [unquoted_eq] at h
  rcases Decimal.writePlain_cases (Double.shortest_normal .even v.double) with
    ⟨whole, hvalue, hwritten⟩ | ⟨places, hplaces, hdigits, hvalue, hwritten⟩
  · -- nothing but a zero is written behind the point of a whole number
    obtain ⟨hmajor, hminor⟩ := (eq_text_iff hwritten (Decimal.spells_toDigits _)
      (Decimal.spells_toDigits _)).mp h
    have hmajor : whole = v.major.toNat := eq_of_toDigits (hmajor ▸ Decimal.spells_toDigits _)
    have hminor : 0 = v.minor.toNat := eq_of_toDigits (hminor ▸ Decimal.spells_toDigits _)
    refine ⟨.inr hminor.symm, ?_⟩
    rw [hvalue, number_eq, hmajor, ← hminor]
    simp
  · -- the digits behind the point are as many as the minor number has, and these are the same
    generalize (v.double.shortest .even).digits = d at hdigits hvalue hwritten
    obtain ⟨hmajor, hminor⟩ := (eq_text_iff hwritten (Decimal.spells_toDigits _)
      (Decimal.spells_lastDigits hplaces _)).mp h
    have hlength : places = v.places := by
      rw [Version.places, ← hminor, Decimal.length_lastDigits]
    have hmajor : d / 10 ^ places = v.major.toNat :=
      eq_of_toDigits (hmajor ▸ Decimal.spells_toDigits _)
    have hminor : v.minor.toNat = d % 10 ^ places :=
      eq_of_toDigits (hminor ▸ Decimal.spells_lastDigits hplaces d)
    have hd : d = v.digits := by
      rw [Version.digits, ← hlength, ← hmajor, hminor, Nat.mul_comm, Nat.div_add_mod]
    refine ⟨.inl ?_, ?_⟩
    · rw [← digits_mod_ten, ← hd]
      exact hdigits
    · rw [hvalue, number, hd, hlength]

/-- The digits that are found are those of the version, if these do not end with a zero. -/
theorem shortest_of_legible (h : v.Legible) (hending : v.minor.toNat % 10 ≠ 0) :
    v.double.shortest .even = ⟨v.digits, -(v.places : Int)⟩ := by
  rw [← digits_mod_ten] at hending
  have hvalue : (⟨v.digits, -(v.places : Int)⟩ : Decimal).value = v.number := by
    rw [Decimal.value, zpow_neg, zpow_natCast]
    rfl
  refine Decimal.eq_of_value_eq ?_ hending (h.found.trans hvalue.symm)
  rcases Double.shortest_normal .even v.double with hdigits | hzero
  · exact hdigits
  · -- zero is the version `0.0`, which ends with a zero
    have hfound := h.found
    rw [hzero, number, Decimal.value, Nat.cast_zero, zero_mul, eq_comm, div_eq_zero_iff] at hfound
    rcases hfound with hnone | hpow
    · have hnone : v.digits = 0 := by exact_mod_cast hnone
      rw [hnone] at hending
      exact absurd rfl hending
    · exact absurd hpow (pow_ne_zero _ (by norm_num))

theorem text_of_legible (h : v.Legible) : v.unquoted = v.text := by
  have hfound := h.found
  rw [unquoted_eq]
  rcases h.ending with hending | hzero
  · have hplaces := v.places_pos
    have hneg : (⟨v.digits, -(v.places : Int)⟩ : Decimal).exponent < 0 := by
      show -(v.places : Int) < 0
      omega
    have hwritten := Decimal.writePlain_fraction hneg
    rw [shortest_of_legible h hending]
    dsimp only at hwritten
    rw [neg_neg, Int.toNat_natCast] at hwritten
    refine (eq_text_iff hwritten (Decimal.spells_toDigits _)
      (Decimal.spells_lastDigits hplaces _)).mpr ?_
    exact ⟨by rw [digits_div], Decimal.lastDigits_length _ (digits_mod v)⟩
  · rw [number_eq, hzero, Nat.cast_zero, zero_div, add_zero] at hfound
    rcases Decimal.writePlain_cases (Double.shortest_normal .even v.double) with
      ⟨whole, hvalue, hwritten⟩ | ⟨places, hplaces, hdigits, hvalue, -⟩
    · rw [hvalue] at hfound
      have hfound : whole = v.major.toNat := by exact_mod_cast hfound
      refine (eq_text_iff hwritten (Decimal.spells_toDigits _) (Decimal.spells_toDigits _)).mpr ?_
      rw [hfound, hzero]
      exact ⟨rfl, rfl⟩
    · -- a whole number has zeros behind its point only
      have hpos : (0 : ℚ) < 10 ^ places := pow_pos (by norm_num) _
      rw [hvalue, div_eq_iff hpos.ne'] at hfound
      have hfound : (v.double.shortest .even).digits = v.major.toNat * 10 ^ places := by
        exact_mod_cast hfound
      obtain ⟨p, rfl⟩ : ∃ p, places = p + 1 := ⟨places - 1, by omega⟩
      rw [hfound, Nat.pow_succ, ← Nat.mul_assoc, Nat.mul_mod_left] at hdigits
      exact absurd rfl hdigits

/-- With zeros in front of it the minor number is worth a tenth of what it was, at most. -/
theorem value_far {places d : Nat} (hlt : v.places < places)
    (hminor : 0 < v.minor.toNat) (hm : v.major.toNat = d / 10 ^ places)
    (hn : v.minor.toNat = d % 10 ^ places) : (d / 10 ^ places + 9 / 100 : ℚ) ≤ v.number := by
  obtain ⟨more, rfl⟩ : ∃ more, places = v.places + (more + 1) := ⟨places - v.places - 1, by omega⟩
  have hd : d = v.major.toNat * 10 ^ (v.places + (more + 1)) + v.minor.toNat := by
    rw [hm, hn, Nat.mul_comm, Nat.div_add_mod]
  have hpos : (0 : ℚ) < 10 ^ (v.places + (more + 1)) := pow_pos (by norm_num) _
  have hvalue : (d / 10 ^ (v.places + (more + 1)) : ℚ) =
      v.major.toNat + v.minor.toNat / 10 ^ (v.places + (more + 1)) := by
    rw [hd]
    push_cast
    rw [add_div, mul_div_cancel_right₀ _ hpos.ne']
  have htenth := tenth_le_minor hminor
  have hshift : (v.minor.toNat / 10 ^ (v.places + (more + 1)) : ℚ) ≤
      v.minor.toNat / 10 ^ v.places / 10 := by
    rw [div_div, pow_add]
    have hmore : (10 : ℚ) ≤ 10 ^ (more + 1) := le_self_pow₀ (by norm_num) (Nat.succ_ne_zero _)
    gcongr
  rw [hvalue, number_eq]
  linarith

/-- What is read for a version is its text if it is read as the version at all. -/
theorem text_of_parse (h : parse v.unquoted = .ok v) : v.unquoted = v.text := by
  rw [unquoted_eq] at h ⊢
  rcases Decimal.writePlain_cases (Double.shortest_normal .even v.double) with
    ⟨whole, -, hwritten⟩ | ⟨places, hplaces, hdigits, hvalue, hwritten⟩
  · have hwhole := Decimal.spells_toDigits whole
    have hzero := Decimal.spells_toDigits 0
    obtain ⟨hmajor, hminor⟩ := numbers_of_parse hwritten hwhole hzero h
    exact (eq_text_iff hwritten hwhole hzero).mpr ⟨by rw [hmajor], by rw [hminor]⟩
  · have hmajor := Decimal.spells_toDigits ((v.double.shortest .even).digits / 10 ^ places)
    have hminor := Decimal.spells_lastDigits hplaces (v.double.shortest .even).digits
    obtain ⟨hm, hn⟩ := numbers_of_parse hwritten hmajor hminor h
    -- the fraction has as many places as the version, else zeros would stand in front of it
    have hplaces' : places = v.places := by
      have hend : v.minor.toNat % 10 ≠ 0 := by
        rw [hn]
        obtain ⟨p, rfl⟩ : ∃ p, places = p + 1 := ⟨places - 1, by omega⟩
        rwa [Nat.pow_succ, Nat.mul_comm, Nat.mod_mul_right_mod]
      have hle : v.places ≤ places := by
        refine (Nat.length_toDigits_le_iff (by decide) hplaces).mpr ?_
        rw [hn]
        exact Nat.mod_lt _ (Nat.pow_pos (by decide))
      rcases Nat.lt_or_ge v.places places with hlt | hge
      · have hfar := value_far hlt (by omega) hm hn
        rw [← hvalue] at hfar
        rcases shortest_near v with hzero | ⟨-, -, -, -, hnear⟩
        · rw [hzero] at hdigits
          exact absurd rfl hdigits
        · linarith
      · omega
    refine (eq_text_iff hwritten hmajor hminor).mpr ⟨by rw [hm], ?_⟩
    rw [hplaces'] at hn ⊢
    exact Decimal.lastDigits_length _ hn.symm

theorem unquoted_eq_text_iff : v.unquoted = v.text ↔ v.Legible :=
  ⟨legible_of_text, text_of_legible⟩

example : unquoted ⟨1, 10⟩ = "1.1" := by decide +kernel

example : unquoted ⟨4294967295, 4294967295⟩ = "4294967295.429497" := by decide +kernel

theorem parse_unquoted_iff : parse v.unquoted = .ok v ↔ v.Legible := by
  constructor
  · exact fun h => legible_of_text (text_of_parse h)
  · intro h
    rw [text_of_legible h]
    exact parse_eq_ok.mpr (spelled_text v)

/-- The number of a version with at most fifteen digits is found again. -/
theorem found_of_digits (h : Double.digitCount v.major.toNat + v.places ≤ 15) :
    (v.double.shortest .even).value = v.number := by
  by_cases hzero : v.digits = 0
  · rw [shortest_zero hzero, number, hzero]
    simp [Decimal.value]
  · have hnearest := nearest_double hzero
    have hsmall : v.digits < 2 ^ (52 : Nat) :=
      calc v.digits < (v.major.toNat + 1) * 10 ^ v.places := by
            rw [digits, Nat.succ_mul]
            exact Nat.add_lt_add_left v.minor_lt _
        _ ≤ 10 ^ Double.digitCount v.major.toNat * 10 ^ v.places :=
            Nat.mul_le_mul_right _ (Double.lt_pow_digitCount _)
        _ = 10 ^ (Double.digitCount v.major.toNat + v.places) := (Nat.pow_add ..).symm
        _ ≤ 10 ^ (15 : Nat) := Nat.pow_le_pow_right (by decide) h
        _ < 2 ^ (52 : Nat) := by decide
    have hplaces := v.places_le
    rcases Nat.lt_or_ge v.digits 2 with hone | hmore
    · -- the smallest number with one place is found among those with two
      have hdigits : v.digits = 1 := by omega
      have hshift : v.number = (10 : Nat) / 10 ^ (v.places + 1) := by
        rw [number, hdigits, pow_succ]
        field_simp
        norm_num
      exact Double.value_shortest hnearest hshift (by omega) (by decide) (by decide)
    · exact Double.value_shortest hnearest rfl (by omega) hmore hsmall

/-- The digits of a version are those of its numbers, unless the first one is zero. -/
theorem le_digits (h : 0 < v.major.toNat) :
    10 ^ (Double.digitCount v.major.toNat - 1 + v.places) ≤ v.digits := by
  have hcount := Double.digitCount_pos v.major.toNat
  have hmajor : 10 ^ (Double.digitCount v.major.toNat - 1) ≤ v.major.toNat :=
    Double.pow_le_of_lt_digitCount h (by omega)
  calc 10 ^ (Double.digitCount v.major.toNat - 1 + v.places)
      = 10 ^ (Double.digitCount v.major.toNat - 1) * 10 ^ v.places := Nat.pow_add ..
    _ ≤ v.major.toNat * 10 ^ v.places := Nat.mul_le_mul_right _ hmajor
    _ ≤ v.digits := Nat.le_add_right _ _

/-- A version with more than seventeen digits is not legible. -/
theorem digitCount_of_legible (h : v.Legible) :
    Double.digitCount v.major.toNat + v.places ≤ 17 := by
  have hplaces := v.places_le
  have hmajor : Double.digitCount v.major.toNat ≤ 10 :=
    (Nat.length_toDigits_le_iff (by decide) (by decide)).mpr
      (Nat.lt_of_lt_of_le v.major.toNat_lt (by decide))
  rcases h.ending with hending | hzero
  · rcases Nat.eq_zero_or_pos v.major.toNat with hnone | hpos
    · rw [hnone]
      show 1 + v.places ≤ 17
      omega
    · have hleast := le_digits hpos
      have hmost : (v.double.shortest .even).digits ≤ 10 ^ (17 : Nat) := shortest_digits_le v
      rw [shortest_of_legible h hending] at hmost
      rw [← digits_mod_ten] at hending
      have hlt : v.digits < 10 ^ (17 : Nat) := by
        have hmost : v.digits ≤ 10 ^ (17 : Nat) := hmost
        omega
      have := (Nat.pow_lt_pow_iff_right (by decide)).mp (hleast.trans_lt hlt)
      omega
  · have hplaces : v.places = 1 := by
      rw [places, hzero]
      rfl
    omega

/-- Up to fifteen digits only a zero at the end is lost. -/
theorem legible_iff_of_digits (h : Double.digitCount v.major.toNat + v.places ≤ 15) :
    v.Legible ↔ v.minor.toNat % 10 ≠ 0 ∨ v.minor.toNat = 0 :=
  ⟨fun hlegible => hlegible.ending, fun hending => ⟨hending, found_of_digits h⟩⟩

end Reading

end Version

end Stencil.Model
