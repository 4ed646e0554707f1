import Mathlib.Tactic.LinearCombination
import UhdHost.Types.TimeSpec

/-!
# Ticks to a time and back

`from_ticks` splits a number of ticks into whole seconds and a rest, by an integer division with the
integer part of the rate, and `to_ticks` puts the two together again: a product with the integer part
of the rate, and what is left of the seconds rounded to an integer.  Fractions and rates are exact
here; the integers are still those of their types, and a conversion or a product that leaves its type
is not defined in the source.  `FromTicksFits` and `ToTicksFits` list what the two functions compute
in integer types.

The rest that `to_ticks` rounds is the integer `n - ⌊n / rate⌋ * ⌊rate⌋` (`error_add_frac`), and
`fast_llround` assumes that it is not negative.  It adds one to a negative one, so that the tick
count comes back exactly when the rest is not negative (`toTicks_fromTicks_eq_iff`): for every count
from zero on and every integer rate, but not for a negative count at a fractional rate.
-/

namespace UhdHost

/-- The values of a signed integer type that has one bit more than `w`. -/
def Fits (w : ℕ) (z : ℤ) : Prop := -2 ^ w ≤ z ∧ z < 2 ^ w

instance (w : ℕ) (z : ℤ) : Decidable (Fits w z) :=
  inferInstanceAs (Decidable (_ ∧ _))

theorem fits_truncInt_iff {w : ℕ} {q : ℚ} :
    Fits w (truncInt q) ↔ -2 ^ w - 1 < q ∧ q < 2 ^ w := by
  have hpos : (0 : ℤ) < 2 ^ w := by positivity
  have hposq : (0 : ℚ) < 2 ^ w := by positivity
  rw [Fits, truncInt]
  split_ifs with h
  · have hfloor : 0 ≤ ⌊q⌋ := Int.floor_nonneg.mpr h
    rw [Int.floor_lt]
    push_cast
    constructor
    · rintro ⟨-, hlt⟩
      exact ⟨by linarith, hlt⟩
    · rintro ⟨-, hlt⟩
      exact ⟨by linarith, hlt⟩
  · have hneg : q < 0 := not_le.mp h
    have hceil : ⌈q⌉ ≤ 0 := Int.ceil_le.mpr (by rw [Int.cast_zero]; exact hneg.le)
    rw [show (-2 ^ w : ℤ) ≤ ⌈q⌉ ↔ -2 ^ w - 1 < ⌈q⌉ from (Int.sub_one_lt_iff).symm, Int.lt_ceil]
    push_cast
    constructor
    · rintro ⟨hlt, -⟩
      exact ⟨hlt, by linarith⟩
    · rintro ⟨hlt, -⟩
      exact ⟨hlt, by linarith⟩

theorem truncInt_intCast_add_half (m : ℤ) :
    truncInt (m + 1 / 2) = if 0 ≤ m then m else m + 1 := by
  rw [truncInt]
  by_cases hm : 0 ≤ m
  · have hmq : (0 : ℚ) ≤ m := Int.cast_nonneg hm
    rw [if_pos (by linarith), if_pos hm, Int.floor_intCast_add,
      Int.floor_eq_zero_iff.mpr ⟨by norm_num, by norm_num⟩, add_zero]
  · have hmq : (m : ℚ) ≤ -1 := by exact_mod_cast (by omega : m ≤ -1)
    rw [if_neg (by linarith), if_neg hm, add_comm, Int.ceil_add_intCast,
      show ⌈(1 / 2 : ℚ)⌉ = 1 from by norm_num, add_comm]

theorem tdiv_between {n r : ℤ} (hr : 1 ≤ r) :
    (0 ≤ n → 0 ≤ n.tdiv r ∧ n.tdiv r ≤ n.tdiv r * r ∧ n.tdiv r * r ≤ n) ∧
      (n < 0 → n ≤ n.tdiv r * r ∧ n.tdiv r * r ≤ n.tdiv r ∧ n.tdiv r ≤ 0) := by
  have hzero : 0 ≤ r := by omega
  constructor
  · intro hn
    have hq : 0 ≤ n.tdiv r := Int.tdiv_nonneg hn hzero
    have hmod : 0 ≤ n.tmod r := Int.tmod_nonneg r hn
    have hsum := Int.tmod_add_tdiv_mul n r
    exact ⟨hq, le_mul_of_one_le_right hq hr, by omega⟩
  · intro hn
    have hq : 0 ≤ (-n).tdiv r := Int.tdiv_nonneg (by omega) hzero
    have hmod : 0 ≤ (-n).tmod r := Int.tmod_nonneg r (by omega)
    have hsum := Int.tmod_add_tdiv_mul (-n) r
    have hle := le_mul_of_one_le_right hq hr
    rw [Int.neg_tdiv] at hq hsum hle
    rw [neg_mul] at hsum hle
    omega

namespace TimeSpec

/-- The integers that `time_spec_init(full, frac)` computes. -/
def InitFits (full : ℤ) (frac : ℚ) : Prop :=
  Fits 31 (truncInt frac) ∧ Fits 63 (full + truncInt frac) ∧
    (frac - truncInt frac < 0 → Fits 63 (full + truncInt frac - 1))

/-- The integers that `from_ticks` computes. -/
def FromTicksFits (ticks : ℤ) (tickRate : ℚ) : Prop :=
  let rateI := truncInt tickRate
  let rateF := tickRate - rateI
  let secsFull := ticks.tdiv rateI
  let ticksError := ticks - secsFull * rateI
  let ticksFrac := ticksError - secsFull * rateF
  Fits 63 rateI ∧ Fits 63 secsFull ∧ Fits 63 (secsFull * rateI) ∧ Fits 63 ticksError ∧
    InitFits secsFull (ticksFrac / tickRate)

/-- The integers that `to_ticks` computes. -/
def ToTicksFits (t : TimeSpec) (tickRate : ℚ) : Prop :=
  let rateI := truncInt tickRate
  let rateF := tickRate - rateI
  let ticksFull := t.fullSecs * rateI
  let ticksError := t.fullSecs * rateF
  let ticksFrac := t.fracSecs * tickRate
  Fits 63 rateI ∧ Fits 63 ticksFull ∧ Fits 63 (fastLlround (ticksError + ticksFrac)) ∧
    Fits 63 (ticksFull + fastLlround (ticksError + ticksFrac))

theorem fullSecs_eq_floor (t : TimeSpec) : t.fullSecs = ⌊t.realSecs⌋ := by
  rw [realSecs, Int.floor_intCast_add,
    Int.floor_eq_zero_iff.mpr ⟨t.fracSecs_nonneg, t.fracSecs_lt_one⟩, add_zero]

theorem fullSecs_fromTicks (ticks : ℤ) (tickRate : ℚ) :
    (fromTicks ticks tickRate).fullSecs = ⌊ticks / tickRate⌋ := by
  rw [fullSecs_eq_floor, realSecs_fromTicks]

variable {n : ℤ} {rate : ℚ}

theorem error_add_frac (hrate : 1 ≤ rate) :
    (fromTicks n rate).fullSecs * (rate - ⌊rate⌋) + (fromTicks n rate).fracSecs * rate =
      ((n - ⌊n / rate⌋ * ⌊rate⌋ : ℤ) : ℚ) := by
  have hne : rate ≠ 0 := by linarith
  have hreal := realSecs_fromTicks n rate
  rw [realSecs, eq_div_iff hne] at hreal
  rw [← fullSecs_fromTicks]
  push_cast
  linear_combination hreal

theorem toTicks_fromTicks (hrate : 1 ≤ rate) :
    (fromTicks n rate).toTicks rate = ⌊n / rate⌋ * ⌊rate⌋ +
      if 0 ≤ n - ⌊n / rate⌋ * ⌊rate⌋ then n - ⌊n / rate⌋ * ⌊rate⌋
      else n - ⌊n / rate⌋ * ⌊rate⌋ + 1 := by
  have hrateI : truncInt rate = ⌊rate⌋ := if_pos (by linarith)
  rw [toTicks, hrateI, fastLlround, error_add_frac hrate, truncInt_intCast_add_half,
    fullSecs_fromTicks]

theorem toTicks_fromTicks_eq_iff (hrate : 1 ≤ rate) :
    (fromTicks n rate).toTicks rate = n ↔ ⌊n / rate⌋ * ⌊rate⌋ ≤ n := by
  rw [toTicks_fromTicks hrate]
  split_ifs <;> omega

/-! ## The integer types -/

theorem one_le_floor_rate (hrate : 1 ≤ rate) : 1 ≤ ⌊rate⌋ :=
  Int.le_floor.mpr (by rw [Int.cast_one]; exact hrate)

theorem div_rate_between (hrate : 1 ≤ rate) :
    (0 ≤ n → 0 ≤ (n : ℚ) / rate ∧ (n : ℚ) / rate ≤ n) ∧
      (n < 0 → (n : ℚ) ≤ n / rate ∧ (n : ℚ) / rate < 0) := by
  have hpos : 0 < rate := by linarith
  constructor
  · intro hn
    have hnq : (0 : ℚ) ≤ n := Int.cast_nonneg hn
    exact ⟨div_nonneg hnq hpos.le, div_le_self hnq hrate⟩
  · intro hn
    have hnq : (n : ℚ) < 0 := Int.cast_lt_zero.mpr hn
    refine ⟨?_, div_neg_of_neg_of_pos hnq hpos⟩
    rw [le_div_iff₀ hpos]
    nlinarith

theorem ticksFrac_div (hrate : 1 ≤ rate) :
    (((n - n.tdiv ⌊rate⌋ * ⌊rate⌋ : ℤ) : ℚ) - n.tdiv ⌊rate⌋ * (rate - ⌊rate⌋)) / rate =
      n / rate - n.tdiv ⌊rate⌋ := by
  have hne : rate ≠ 0 := by linarith
  push_cast
  field_simp
  ring

theorem fits_init_sum (hn : Fits 63 n) (hrate : 1 ≤ rate) {full : ℤ} {frac : ℚ}
    (hsum : full + frac = n / rate) :
    Fits 63 (full + truncInt frac) ∧
      (frac - truncInt frac < 0 → Fits 63 (full + truncInt frac - 1)) := by
  obtain ⟨hlow, hhigh⟩ := sub_truncInt_mem frac
  obtain ⟨hpos, hneg⟩ := div_rate_between (n := n) hrate
  -- The sum is less than one away from the seconds that the ticks take.
  have hbelow : ((full + truncInt frac - 1 : ℤ) : ℚ) < n / rate := by
    push_cast
    linarith
  have habove : (n : ℚ) / rate < ((full + truncInt frac + 1 : ℤ) : ℚ) := by
    push_cast
    linarith
  rw [Fits] at hn
  rcases lt_or_ge n 0 with hn' | hn'
  · obtain ⟨hle, hlt⟩ := hneg hn'
    have hupper : full + truncInt frac - 1 < 0 := by
      exact_mod_cast hbelow.trans hlt
    have hlower : n < full + truncInt frac + 1 := by
      exact_mod_cast hle.trans_lt habove
    refine ⟨⟨by omega, by omega⟩, fun hfrac => ?_⟩
    have hlower' : n < full + truncInt frac := by
      have h : (n : ℚ) < ((full + truncInt frac : ℤ) : ℚ) := by
        push_cast
        linarith
      exact_mod_cast h
    exact ⟨by omega, by omega⟩
  · obtain ⟨hge, hle⟩ := hpos hn'
    have hupper : full + truncInt frac - 1 < n := by
      exact_mod_cast hbelow.trans_le hle
    have hlower : 0 < full + truncInt frac + 1 := by
      exact_mod_cast hge.trans_lt habove
    exact ⟨⟨by omega, by omega⟩, fun _ => ⟨by omega, by omega⟩⟩

theorem fromTicksFits_iff (hn : Fits 63 n) (hrate : 1 ≤ rate) :
    FromTicksFits n rate ↔ rate < 2 ^ 63 ∧
      -2 ^ 31 - 1 < n / rate - n.tdiv ⌊rate⌋ ∧ n / rate - n.tdiv ⌊rate⌋ < 2 ^ 31 := by
  have hrateI : truncInt rate = ⌊rate⌋ := if_pos (by linarith)
  have hone := one_le_floor_rate hrate
  have hfitsRate : Fits 63 ⌊rate⌋ ↔ rate < 2 ^ 63 := by
    rw [← hrateI, fits_truncInt_iff]
    exact and_iff_right (by norm_num; linarith)
  obtain ⟨hpos, hneg⟩ := tdiv_between (n := n) hone
  have hsum : ((n.tdiv ⌊rate⌋ : ℤ) : ℚ) + (n / rate - n.tdiv ⌊rate⌋) = n / rate := by ring
  have hrest := fits_init_sum hn hrate hsum
  have hquotient : Fits 63 (n.tdiv ⌊rate⌋) ∧ Fits 63 (n.tdiv ⌊rate⌋ * ⌊rate⌋) ∧
      Fits 63 (n - n.tdiv ⌊rate⌋ * ⌊rate⌋) := by
    simp only [Fits] at hn ⊢
    rcases lt_or_ge n 0 with h | h
    · have := hneg h
      omega
    · have := hpos h
      omega
  rw [FromTicksFits, hrateI, hfitsRate, ticksFrac_div hrate, InitFits, fits_truncInt_iff]
  constructor
  · rintro ⟨h, -, -, -, hfrac, -⟩
    exact ⟨h, hfrac⟩
  · rintro ⟨h, hfrac⟩
    exact ⟨h, hquotient.1, hquotient.2.1, hquotient.2.2, hfrac, hrest⟩

theorem toTicksFits_iff (hn : Fits 63 n) (hrate : 1 ≤ rate) (hmax : rate < 2 ^ 63)
    (hrest : ⌊n / rate⌋ * ⌊rate⌋ ≤ n) :
    ToTicksFits (fromTicks n rate) rate ↔ -2 ^ 63 ≤ ⌊n / rate⌋ * ⌊rate⌋ := by
  have hrateI : truncInt rate = ⌊rate⌋ := if_pos (by linarith)
  have hone := one_le_floor_rate hrate
  have hfloor : (⌊rate⌋ : ℚ) ≤ rate := Int.floor_le rate
  have hmaxI : ⌊rate⌋ < 2 ^ 63 := Int.floor_lt.mpr (by push_cast; exact hmax)
  have hround : fastLlround ((fromTicks n rate).fullSecs * (rate - ⌊rate⌋) +
      (fromTicks n rate).fracSecs * rate) = n - ⌊n / rate⌋ * ⌊rate⌋ := by
    rw [fastLlround, error_add_frac hrate, truncInt_intCast_add_half, if_pos (by omega)]
  -- The rest is less than the rate, or than the tick count.
  have hless : n - ⌊n / rate⌋ * ⌊rate⌋ < 2 ^ 63 := by
    rw [Fits] at hn
    rcases lt_or_ge n 0 with h | h
    · have hlt := Int.lt_floor_add_one ((n : ℚ) / rate)
      have hneg : ⌊(n : ℚ) / rate⌋ < 0 := Int.floor_lt.mpr (by
        rw [Int.cast_zero]
        exact ((div_rate_between hrate).2 h).2)
      have hnegq : ((⌊(n : ℚ) / rate⌋ : ℤ) : ℚ) ≤ 0 := by exact_mod_cast hneg.le
      rw [div_lt_iff₀ (by linarith)] at hlt
      have hq : ((n - ⌊n / rate⌋ * ⌊rate⌋ : ℤ) : ℚ) < ((2 ^ 63 : ℤ) : ℚ) := by
        push_cast
        nlinarith
      exact_mod_cast hq
    · have hge : 0 ≤ ⌊(n : ℚ) / rate⌋ := Int.floor_nonneg.mpr ((div_rate_between hrate).1 h).1
      have := mul_nonneg hge (by omega : 0 ≤ ⌊rate⌋)
      omega
  rw [ToTicksFits, hrateI, hround, fullSecs_fromTicks]
  simp only [Fits] at hn ⊢
  constructor
  · rintro ⟨-, ⟨h, -⟩, -⟩
    exact h
  · intro h
    exact ⟨⟨by omega, hmaxI⟩, ⟨h, by omega⟩, ⟨by omega, hless⟩, ⟨by omega, by omega⟩⟩

/-! ## The round trip -/

/-- **Ticks make the round trip exactly when the whole seconds leave a rest that is not negative.**  For a
tick count of its type and a rate of one or more, `from_ticks` and `to_ticks` stay in their types, the
fraction is in `[0, 1)` and the tick count comes back, if and only if the rate and the correction of the
seconds can be converted and `⌊n / rate⌋ * ⌊rate⌋` is a tick count not above `n`. -/
theorem ticks_roundTrip_iff (n : ℤ) (rate : ℚ) (hn : Fits 63 n) (hrate : 1 ≤ rate) :
    (FromTicksFits n rate ∧ ToTicksFits (fromTicks n rate) rate ∧
        (fromTicks n rate).toTicks rate = n ∧
        0 ≤ (fromTicks n rate).fracSecs ∧ (fromTicks n rate).fracSecs < 1) ↔
      (rate < 2 ^ 63 ∧ -2 ^ 31 - 1 < n / rate - n.tdiv ⌊rate⌋ ∧
        n / rate - n.tdiv ⌊rate⌋ < 2 ^ 31) ∧
      -2 ^ 63 ≤ ⌊n / rate⌋ * ⌊rate⌋ ∧ ⌊n / rate⌋ * ⌊rate⌋ ≤ n := by
  constructor
  · rintro ⟨hfrom, hto, hticks, -, -⟩
    have hconv := (fromTicksFits_iff hn hrate).mp hfrom
    have hrest := (toTicks_fromTicks_eq_iff hrate).mp hticks
    exact ⟨hconv, (toTicksFits_iff hn hrate hconv.1 hrest).mp hto, hrest⟩
  · rintro ⟨hconv, hproduct, hrest⟩
    exact ⟨(fromTicksFits_iff hn hrate).mpr hconv,
      (toTicksFits_iff hn hrate hconv.1 hrest).mpr hproduct,
      (toTicks_fromTicks_eq_iff hrate).mpr hrest,
      (fromTicks n rate).fracSecs_nonneg, (fromTicks n rate).fracSecs_lt_one⟩

/-- A negative tick count at a fractional rate comes back as the one after it. -/
theorem fractional_rate_loses_tick :
    ¬ ((fromTicks (-15) (3 / 2)).toTicks (3 / 2) = -15) := by
  decide +kernel

/-- At an integer rate it comes back as it is. -/
theorem integer_rate_keeps_ticks :
    FromTicksFits (-15) 2 ∧ ToTicksFits (fromTicks (-15) 2) 2 ∧
      (fromTicks (-15) 2).toTicks 2 = -15 ∧
      0 ≤ (fromTicks (-15) 2).fracSecs ∧ (fromTicks (-15) 2).fracSecs < 1 :=
  (ticks_roundTrip_iff (-15) 2 (by decide) (by norm_num)).mpr (by decide +kernel)

end TimeSpec
end UhdHost
