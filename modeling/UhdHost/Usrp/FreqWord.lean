import UhdHost.Types.RangeClip
import UhdHost.Types.TimeSpec

/-!
# Frequency words

`get_freq_and_freq_word` of `dsp_core_utils.hpp`: a frequency is divided by the rate, wrapped by
`wrap_frequency` of `math.hpp`, scaled to the width of the word, rounded and cut off at the ends of
the signed integers of 32 bits.  Frequencies and rates are `double` in the source and exact here.

The remainder that is wrapped keeps the sign of the frequency, and is folded only from more than a
half on.  So a half stays where it is, on either side: a frequency of one and a half rates is
wrapped to the upper end, which does not belong to the range, and one of minus one and a half to the
lower end, which does.

* `wrapFrequency_one`: what the wrapping gives.
* `claimed_iff_not_upperHalf`: word and actual frequency are right exactly for those frequencies that
  are not wrapped to the upper end.
-/

namespace UhdHost
namespace Usrp
namespace FreqWord

/-! ## The computation -/

/-- `std::fmod`: the remainder has the sign of the first number. -/
def stdFmod (x y : ℚ) : ℚ := x - truncInt (x / y) * y

/-- `uhd::math::sign` -/
def sign (x : ℚ) : ℚ := (if 0 < x then 1 else 0) - (if x < 0 then 1 else 0)

/-- `wrap_frequency` -/
def wrapFrequency (requestedFreq rate : ℚ) : ℚ :=
  let freq := stdFmod requestedFreq rate
  if rate / 2 < |freq| then freq - sign freq * rate else freq

def maxFreqWord : ℤ := 2 ^ 31 - 1

def minFreqWord : ℤ := -2 ^ 31

/-- `get_freq_and_freq_word`, for a width of the word.  It gives the actual frequency and the word. -/
def getFreqAndFreqWord (wordWidth : ℕ) (requestedFreq tickRate : ℚ) : Except UhdError (ℚ × ℤ) :=
  let scaleFactor : ℚ := 2 ^ wordWidth
  let freqNormScaled := wrapFrequency (requestedFreq / tickRate) 1 * scaleFactor
  if |freqNormScaled| - 1 ≤ maxFreqWord then
    let freqWord :=
      if maxFreqWord ≤ freqNormScaled then maxFreqWord
      else if freqNormScaled ≤ minFreqWord then minFreqWord
      else stdRound freqNormScaled
    .ok (freqWord / scaleFactor * tickRate, freqWord)
  else
    .error (.assertionError "std::abs(freq_norm_scaled) - 1 <= MAX_FREQ_WORD")

/-! ## What is claimed -/

/-- A frequency in the first Nyquist zone that is the same but for multiples of the rate. -/
structure IsWrapped (freq rate w : ℚ) : Prop where
  lower : -(rate / 2) ≤ w
  upper : w < rate / 2
  multiple : ∃ k : ℤ, freq = w + k * rate

/-- The step of the frequencies that a word of 32 bits has. -/
def freqStep (rate : ℚ) : ℚ := rate / 2 ^ 32

/-- **What is claimed** of a frequency and a rate. -/
def Claimed (freq rate : ℚ) : Prop :=
  ∃ actual word w, getFreqAndFreqWord 32 freq rate = .ok (actual, word) ∧
    IsWrapped freq rate w ∧ minFreqWord ≤ word ∧ word ≤ maxFreqWord ∧
    actual = word * rate / 2 ^ 32 ∧
    (|actual - w| ≤ freqStep rate / 2 ∨
      word = maxFreqWord ∧ maxFreqWord * freqStep rate ≤ w ∧ |actual - w| ≤ freqStep rate)

/-- The frequency is a positive odd multiple of half the rate. -/
def UpperHalf (freq rate : ℚ) : Prop := ∃ k : ℕ, freq = (k + 1 / 2) * rate

/-! ## Wrapping -/

section Wrapping

variable {q freq rate w : ℚ}

theorem IsWrapped.unique {v : ℚ} (hrate : 0 < rate) (hw : IsWrapped freq rate w)
    (hv : IsWrapped freq rate v) : w = v := by
  obtain ⟨k, hk⟩ := hw.multiple
  obtain ⟨l, hl⟩ := hv.multiple
  have heq : w - v = ((l - k : ℤ) : ℚ) * rate := by
    push_cast
    linarith
  have hlower := hw.lower
  have hupper := hw.upper
  have hlower' := hv.lower
  have hupper' := hv.upper
  have hlt : ((l - k : ℤ) : ℚ) < 1 := by
    by_contra hge
    have hmul := mul_le_mul_of_nonneg_right (not_lt.mp hge) hrate.le
    linarith
  have hgt : -1 < ((l - k : ℤ) : ℚ) := by
    by_contra hle
    have hmul := mul_le_mul_of_nonneg_right (not_lt.mp hle) hrate.le
    linarith
  have hzero : l - k = 0 := by
    have h₁ : l - k < 1 := by exact_mod_cast hlt
    have h₂ : -1 < l - k := by exact_mod_cast hgt
    omega
  rw [hzero, Int.cast_zero, zero_mul] at heq
  linarith

theorem wrapFrequency_one (q : ℚ) :
    -(1 / 2) ≤ wrapFrequency q 1 ∧ (∃ k : ℤ, q = wrapFrequency q 1 + k) ∧
      (wrapFrequency q 1 < 1 / 2 ∨ wrapFrequency q 1 = 1 / 2 ∧ UpperHalf q 1) := by
  have hfmod : stdFmod q 1 = q - truncInt q := by
    rw [stdFmod, div_one, mul_one]
  rw [wrapFrequency, hfmod]
  rcases lt_or_ge q 0 with hq | hq
  · have htrunc : truncInt q = ⌈q⌉ := if_neg (not_le.mpr hq)
    have hlow := Int.ceil_lt_add_one q
    have hhigh := Int.le_ceil q
    rw [htrunc]
    split_ifs with hfold
    · rw [abs_of_nonpos (by linarith)] at hfold
      have hsign : sign (q - ⌈q⌉) = -1 := by
        rw [sign, if_neg (by linarith), if_pos (by linarith)]
        norm_num
      rw [hsign]
      refine ⟨by linarith, ⟨⌈q⌉ - 1, ?_⟩, Or.inl (by linarith)⟩
      push_cast
      ring
    · rw [abs_of_nonpos (by linarith)] at hfold
      refine ⟨by linarith, ⟨⌈q⌉, by ring⟩, Or.inl (by linarith)⟩
  · have htrunc : truncInt q = ⌊q⌋ := if_pos hq
    have hlow := Int.floor_le q
    have hhigh := Int.lt_floor_add_one q
    rw [htrunc]
    split_ifs with hfold
    · rw [abs_of_nonneg (by linarith)] at hfold
      have hsign : sign (q - ⌊q⌋) = 1 := by
        rw [sign, if_pos (by linarith), if_neg (by linarith)]
        norm_num
      rw [hsign]
      refine ⟨by linarith, ⟨⌊q⌋ + 1, ?_⟩, Or.inl (by linarith)⟩
      push_cast
      ring
    · rw [abs_of_nonneg (by linarith)] at hfold
      refine ⟨by linarith, ⟨⌊q⌋, by ring⟩, ?_⟩
      rcases lt_or_eq_of_le (not_lt.mp hfold) with hlt | heq
      · exact Or.inl hlt
      · refine Or.inr ⟨heq, ⌊q⌋.toNat, ?_⟩
        have hnonneg : 0 ≤ ⌊q⌋ := Int.floor_nonneg.mpr hq
        have hcast : ((⌊q⌋.toNat : ℕ) : ℚ) = (⌊q⌋ : ℚ) := by
          rw [← Int.cast_natCast, Int.toNat_of_nonneg hnonneg]
        rw [hcast]
        linarith

theorem wrapFrequency_upperHalf (h : UpperHalf q 1) : wrapFrequency q 1 = 1 / 2 := by
  obtain ⟨k, rfl⟩ := h
  have hk : (0 : ℚ) ≤ k := Nat.cast_nonneg k
  have htrunc : truncInt (((k : ℚ) + 1 / 2) * 1) = k := by
    rw [truncInt, if_pos (by linarith), Int.floor_eq_iff]
    push_cast
    constructor <;> linarith
  have hfmod : stdFmod (((k : ℚ) + 1 / 2) * 1) 1 = 1 / 2 := by
    rw [stdFmod, div_one, htrunc]
    push_cast
    ring
  rw [wrapFrequency, hfmod, if_neg]
  rw [abs_of_pos (by norm_num)]
  exact lt_irrefl _

end Wrapping

/-! ## The word -/

section Word

variable {freq rate q : ℚ}

theorem abs_stdRound_sub_le (q : ℚ) : |(stdRound q : ℚ) - q| ≤ 1 / 2 := by
  rw [abs_le, stdRound]
  split_ifs with hq
  · have hlow := Int.floor_le (q + 1 / 2)
    have hhigh := Int.lt_floor_add_one (q + 1 / 2)
    constructor <;> linarith
  · have hlow := Int.le_ceil (q - 1 / 2)
    have hhigh := Int.ceil_lt_add_one (q - 1 / 2)
    constructor <;> linarith

/-- The word of a scaled frequency. -/
def wordOf (scaled : ℚ) : ℤ :=
  if maxFreqWord ≤ scaled then maxFreqWord
  else if scaled ≤ minFreqWord then minFreqWord
  else stdRound scaled

theorem wordOf_spec (hlow : (minFreqWord : ℚ) ≤ q) :
    minFreqWord ≤ wordOf q ∧ wordOf q ≤ maxFreqWord ∧
      (|(wordOf q : ℚ) - q| ≤ 1 / 2 ∨ wordOf q = maxFreqWord ∧ (maxFreqWord : ℚ) ≤ q) := by
  rw [wordOf]
  split_ifs with hmax hmin
  · exact ⟨by decide, le_refl _, Or.inr ⟨rfl, hmax⟩⟩
  · have heq : q = minFreqWord := le_antisymm hmin hlow
    refine ⟨le_refl _, by decide, Or.inl ?_⟩
    rw [heq, sub_self, abs_zero]
    norm_num
  · have hround := abs_stdRound_sub_le q
    obtain ⟨hdown, hup⟩ := abs_le.mp hround
    refine ⟨?_, ?_, Or.inl hround⟩
    · have hlt : ((minFreqWord - 1 : ℤ) : ℚ) < stdRound q := by
        push_cast
        linarith
      have hint : minFreqWord - 1 < stdRound q := Int.cast_lt.mp hlt
      omega
    · have hlt : (stdRound q : ℚ) < ((maxFreqWord + 1 : ℤ) : ℚ) := by
        push_cast
        linarith
      exact Int.lt_add_one_iff.mp (Int.cast_lt.mp hlt)

theorem getFreqAndFreqWord_eq (freq rate : ℚ) :
    getFreqAndFreqWord 32 freq rate =
      .ok (wordOf (wrapFrequency (freq / rate) 1 * 2 ^ 32) / 2 ^ 32 * rate,
        wordOf (wrapFrequency (freq / rate) 1 * 2 ^ 32)) := by
  obtain ⟨hlow, -, hhigh⟩ := wrapFrequency_one (freq / rate)
  have hle : wrapFrequency (freq / rate) 1 ≤ 1 / 2 := by
    rcases hhigh with hlt | ⟨heq, -⟩
    · exact hlt.le
    · exact heq.le
  have hassert : |wrapFrequency (freq / rate) 1 * 2 ^ 32| - 1 ≤ (maxFreqWord : ℚ) := by
    have hbound : |wrapFrequency (freq / rate) 1 * 2 ^ 32| ≤ 2 ^ 31 := by
      rw [abs_le]
      constructor <;> linarith
    rw [maxFreqWord]
    push_cast
    linarith
  unfold getFreqAndFreqWord
  dsimp only
  rw [if_pos hassert]
  rfl

theorem isWrapped_of_lt (hrate : 0 < rate) (h : wrapFrequency (freq / rate) 1 < 1 / 2) :
    IsWrapped freq rate (wrapFrequency (freq / rate) 1 * rate) := by
  obtain ⟨hlow, ⟨k, hk⟩, -⟩ := wrapFrequency_one (freq / rate)
  refine ⟨?_, ?_, k, ?_⟩
  · have hmul := mul_le_mul_of_nonneg_right hlow hrate.le
    linarith
  · have hmul := mul_lt_mul_of_pos_right h hrate
    linarith
  · rw [← add_mul, ← hk, div_mul_cancel₀ freq hrate.ne']

theorem upperHalf_div_iff (hrate : 0 < rate) : UpperHalf (freq / rate) 1 ↔ UpperHalf freq rate := by
  refine exists_congr fun k => ?_
  rw [mul_one, div_eq_iff hrate.ne']

theorem claimed_of_lt (hrate : 0 < rate) (h : wrapFrequency (freq / rate) 1 < 1 / 2) :
    Claimed freq rate := by
  have hlow := (wrapFrequency_one (freq / rate)).1
  have hmin : (minFreqWord : ℚ) ≤ wrapFrequency (freq / rate) 1 * 2 ^ 32 := by
    rw [minFreqWord]
    push_cast
    linarith
  obtain ⟨hge, hle, hnear⟩ := wordOf_spec hmin
  have hstep : 0 < freqStep rate := div_pos hrate (by norm_num)
  have hoff : (wordOf (wrapFrequency (freq / rate) 1 * 2 ^ 32) : ℚ) / 2 ^ 32 * rate
      - wrapFrequency (freq / rate) 1 * rate
      = (wordOf (wrapFrequency (freq / rate) 1 * 2 ^ 32)
        - wrapFrequency (freq / rate) 1 * 2 ^ 32) * freqStep rate := by
    rw [freqStep]
    field_simp
  refine ⟨_, _, _, getFreqAndFreqWord_eq freq rate, isWrapped_of_lt hrate h, hge, hle,
    by ring, ?_⟩
  rw [hoff, abs_mul, abs_of_pos hstep]
  rcases hnear with hnear | ⟨hword, hmax⟩
  · left
    have hmul := mul_le_mul_of_nonneg_right hnear hstep.le
    linarith
  · right
    have hupper : wrapFrequency (freq / rate) 1 * 2 ^ 32 < maxFreqWord + 1 := by
      rw [maxFreqWord]
      push_cast
      linarith
    refine ⟨hword, ?_, ?_⟩
    · have hmul := mul_le_mul_of_nonneg_right hmax hstep.le
      have hscale : wrapFrequency (freq / rate) 1 * 2 ^ 32 * freqStep rate
          = wrapFrequency (freq / rate) 1 * rate := by
        rw [freqStep]
        field_simp
      linarith
    · have hone : |(wordOf (wrapFrequency (freq / rate) 1 * 2 ^ 32) : ℚ)
          - wrapFrequency (freq / rate) 1 * 2 ^ 32| ≤ 1 := by
        rw [hword, abs_le]
        constructor <;> linarith
      have hmul := mul_le_mul_of_nonneg_right hone hstep.le
      linarith

theorem not_claimed_of_upperHalf (hrate : 0 < rate) (h : UpperHalf freq rate) :
    ¬ Claimed freq rate := by
  have hwrap := wrapFrequency_upperHalf ((upperHalf_div_iff hrate).mpr h)
  have hstep : 0 < freqStep rate := div_pos hrate (by norm_num)
  have hword : wordOf (wrapFrequency (freq / rate) 1 * 2 ^ 32) = maxFreqWord := by
    rw [hwrap, wordOf, if_pos]
    rw [maxFreqWord]
    norm_num
  have hend : IsWrapped freq rate (-(rate / 2)) := by
    obtain ⟨k, rfl⟩ := h
    refine ⟨le_refl _, by linarith, k + 1, ?_⟩
    push_cast
    ring
  rintro ⟨actual, word, w, hget, hw, -, -, hactual, hnear⟩
  rw [getFreqAndFreqWord_eq, hword] at hget
  obtain ⟨-, rfl⟩ := Prod.mk.inj (Except.ok.inj hget)
  obtain rfl := hw.unique hrate hend
  have hfar : freqStep rate < actual - -(rate / 2) := by
    rw [hactual, maxFreqWord, freqStep]
    push_cast
    linarith
  have habs := le_abs_self (actual - -(rate / 2))
  rcases hnear with hnear | ⟨-, -, hnear⟩ <;> linarith

/-- **Word and actual frequency are right** exactly for those frequencies that are not wrapped to
the upper end. -/
theorem claimed_iff_not_upperHalf (freq rate : ℚ) (hrate : 0 < rate) :
    Claimed freq rate ↔ ¬ UpperHalf freq rate := by
  constructor
  · intro hclaimed hupper
    exact not_claimed_of_upperHalf hrate hupper hclaimed
  · intro hnot
    rcases (wrapFrequency_one (freq / rate)).2.2 with hlt | ⟨-, hupper⟩
    · exact claimed_of_lt hrate hlt
    · exact absurd ((upperHalf_div_iff hrate).mp hupper) hnot

/-- A quarter below the rate. -/
theorem claimed_minusQuarter : Claimed (-(1 / 4)) 1 := by
  rw [claimed_iff_not_upperHalf (-(1 / 4)) 1 (by norm_num)]
  rintro ⟨k, hk⟩
  have hnonneg : (0 : ℚ) ≤ k := Nat.cast_nonneg k
  linarith

/-- **One half of the rate** is the same frequency as minus one half. -/
theorem not_claimed_half : ¬ Claimed 100000000 200000000 :=
  not_claimed_of_upperHalf (by norm_num) ⟨0, by norm_num⟩

end Word

end FreqWord
end Usrp
end UhdHost
