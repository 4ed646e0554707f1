import Mathlib
import UhdHost.Cal.Interpolation
import UhdHost.Library.Exceptions
import UhdHost.Types.RangeClip
import UhdHost.Usrp.ZbxLoExpert

/-!
# The frequency experts

`zbx_freq_fe_expert` and `zbx_freq_be_expert` of `zbx_expert.cpp`.  The front-end worker plans two
LOs and an intermediate frequency for a desired frequency, by an entry of the tune map; the back-end
worker calculates from what they have become which frequency that is.

An LO has only frequencies of a grid.  The planned one is shifted by a step, down for one channel
and up for the other, and then rounded to the grid, or clipped to the end of it; and the intermediate
frequency that follows is calculated anew from what came out.  The back-end adds up again.  It comes
to the desired frequency if each mixer in use mixes from one side, and if the second intermediate
frequency is more than all the rounding.

* `abs_quantized_sub_le`: how far a frequency is from what it is rounded to.
* `quantized_ne`: the shifts of two channels are not rounded away.
* `add_abs_mul_value`: the back-end worker undoes the second mixer if the sign is right.
* `reports_of_ideal`: what is reported is the desired frequency.
* `reports_and_differs`: and the LOs of two channels differ, unless they are clipped to the same end
  of the grid.
-/

namespace UhdHost
namespace Usrp
namespace ZbxFreqExpert

open Cal ZbxLoExpert

/-! ## The tune map -/

/-- `lo_inj_side_t` -/
inductive LoInjSide where
  | high
  | low
  | none
  deriving DecidableEq

/-- The value of a side. -/
def LoInjSide.value : LoInjSide → ℚ
  | .high => -1
  | .low => 1
  | .none => 0

/-- `zbx_tune_map_item_t` -/
structure TuneMapItem where
  minBandFreq : ℚ
  maxBandFreq : ℚ
  rfFltr : UInt8
  if1Fltr : UInt8
  if2Fltr : UInt8
  lo1InjSide : LoInjSide
  lo2InjSide : LoInjSide
  if1FreqMin : ℚ
  if1FreqMax : ℚ
  if2FreqMin : ℚ
  if2FreqMax : ℚ
  deriving DecidableEq

/-- `direction_t`, as far as a frontend has one. -/
inductive Direction where
  | rx
  | tx
  deriving DecidableEq

/-- `_is_band_highband` -/
def isBandHighband (item : TuneMapItem) : Bool := item.rfFltr == 0

/-- `_get_tune_settings` -/
def getTuneSettings (freq : ℚ) (tuneMap : List TuneMapItem) : Except Halt TuneMapItem :=
  match tuneMap.find? fun item => freq ≤ item.maxBandFreq with
  | some item => .ok item
  | none => .error (.threw (.systemError "invalid code path"))

/-- `num_inversions` -/
def numInversions (if2Freq rfdcRate : ℚ) (item : TuneMapItem) : ℕ :=
  (decide (rfdcRate / 2 < if2Freq)).toNat + (item.lo2InjSide == .high).toNat +
    (!isBandHighband item && item.lo1InjSide == .high).toNat

/-- `_is_band_inverted` -/
def isBandInverted (trx : Direction) (if2Freq rfdcRate : ℚ) (item : TuneMapItem) : Bool :=
  if trx = .rx then !(numInversions if2Freq rfdcRate item % 2 != 0)
  else numInversions if2Freq rfdcRate item % 2 != 0

/-- `_calc_lo2_freq` -/
def calcLo2Freq (if1Freq if2Freq : ℚ) (side : LoInjSide) : ℚ := if1Freq - side.value * if2Freq

/-- `_calc_if2_freq` -/
def calcIf2Freq (if1Freq lo2Freq : ℚ) : ℚ := |if1Freq - lo2Freq|

/-- An intermediate frequency that is fixed in the band, or goes with the frequency. -/
def calcIfFreq (tuneFreq : ℚ) (item : TuneMapItem) (ifMin ifMax : ℚ) : Except Halt ℚ :=
  if ifMin = ifMax then .ok ifMin
  else linearInterp tuneFreq item.minBandFreq ifMin item.maxBandFreq ifMax

/-- `_calc_if1_freq` -/
def calcIf1Freq (tuneFreq : ℚ) (item : TuneMapItem) : Except Halt ℚ :=
  calcIfFreq tuneFreq item item.if1FreqMin item.if1FreqMax

/-- `_calc_ideal_if2_freq` -/
def calcIdealIf2Freq (tuneFreq : ℚ) (item : TuneMapItem) : Except Halt ℚ :=
  calcIfFreq tuneFreq item item.if2FreqMin item.if2FreqMax

/-! ## The front end -/

/-- `ZBX_FREQ_RANGE` -/
def zbxFreqRange : MetaRange := [⟨1000000, 8000000000, 0, by norm_num⟩]

/-- `_get_quantized_lo_range` -/
def getQuantizedLoRange (loStepSize : ℚ) : Except UhdError MetaRange :=
  let start := ⌈lmx2572MinFreq / loStepSize⌉ * loStepSize
  let stop := ⌊lmx2572MaxFreq / loStepSize⌋ * loStepSize
  if lmx2572MinFreq ≤ start then
    if stop ≤ lmx2572MaxFreq then
      (Range.make start stop loStepSize).map fun range => [range]
    else .error (.assertionError "stop <= LMX2572_MAX_FREQ")
  else .error (.assertionError "start >= LMX2572_MIN_FREQ")

/-- `zbx_freq_fe_expert`, without its nodes. -/
structure FreqFeExpert where
  trx : Direction
  chan : ℕ
  rfdcRate : ℚ
  loFreqRange : MetaRange

/-- The nodes that the front-end worker writes. -/
structure FeOutputs where
  desiredLo1Frequency : ℚ
  desiredLo2Frequency : ℚ
  lo1Enabled : Bool
  lo2Enabled : Bool
  desiredIf2Frequency : ℚ
  bandInverted : Bool
  isHighband : Bool
  lo1InjSide : LoInjSide
  lo2InjSide : LoInjSide
  rfFilter : ℕ
  if1Filter : ℕ
  if2Filter : ℕ
  deriving DecidableEq

/-- Nothing of what a range does is undefined. -/
def ofRange {α : Type} (x : Except UhdError α) : Except Halt α := x.mapError .threw

namespace FreqFeExpert

/-- `lo_offset_sign` -/
def loOffsetSign (fe : FreqFeExpert) : ℚ := if fe.chan = 0 then -1 else 1

/-- The frequency that LO1 is to have in the low band, and the first intermediate frequency that
follows. -/
def planLo1 (fe : FreqFeExpert) (item : TuneMapItem) (tuneFreq : ℚ) : Except Halt (ℚ × ℚ) := do
  let loStep ← ofRange fe.loFreqRange.step
  let if1Freq ← calcIf1Freq tuneFreq item
  let lo1 ← ofRange (fe.loFreqRange.clipBy
    (if1Freq - item.lo1InjSide.value * tuneFreq + fe.loOffsetSign * loStep) true)
  return (lo1, lo1 + item.lo1InjSide.value * tuneFreq)

/-- The frequency that LO2 is to have. -/
def planLo2 (fe : FreqFeExpert) (item : TuneMapItem) (tuneFreq if1Freq : ℚ) : Except Halt ℚ := do
  let loStep ← ofRange fe.loFreqRange.step
  let if2Freq ← calcIdealIf2Freq tuneFreq item
  let lo2 := calcLo2Freq if1Freq if2Freq item.lo2InjSide
  ofRange (fe.loFreqRange.clipBy
    (if isBandHighband item then lo2 + fe.loOffsetSign * loStep else lo2) true)

/-- `zbx_freq_fe_expert::resolve` -/
def resolve (fe : FreqFeExpert) (desiredFrequency : ℚ) (tuneTable : List TuneMapItem)
    (out : FeOutputs) : Except Halt FeOutputs := do
  let tuneFreq ← ofRange (zbxFreqRange.clip desiredFrequency)
  let item ← getTuneSettings tuneFreq tuneTable
  -- in the high band LO1 is not planned, and its node is left alone
  let (lo1, if1Freq) ← if isBandHighband item then .ok (out.desiredLo1Frequency, tuneFreq)
    else fe.planLo1 item tuneFreq
  let lo2 ← fe.planLo2 item tuneFreq if1Freq
  return {
    desiredLo1Frequency := lo1
    desiredLo2Frequency := lo2
    lo1Enabled := !isBandHighband item
    lo2Enabled := true
    desiredIf2Frequency := calcIf2Freq if1Freq lo2
    bandInverted := isBandInverted fe.trx (calcIf2Freq if1Freq lo2) fe.rfdcRate item
    isHighband := isBandHighband item
    lo1InjSide := item.lo1InjSide
    lo2InjSide := item.lo2InjSide
    rfFilter := item.rfFltr.toNat
    if1Filter := item.if1Fltr.toNat
    if2Filter := item.if2Fltr.toNat }

end FreqFeExpert

/-! ## The back end -/

/-- The nodes that the back-end worker reads. -/
structure BeInputs where
  coercedLo1Frequency : ℚ
  coercedLo2Frequency : ℚ
  coercedIf2Frequency : ℚ
  isHighband : Bool
  lo1InjSide : LoInjSide
  lo2InjSide : LoInjSide

/-- `zbx_freq_be_expert::resolve`: the coerced frequency.  Where it is out of range, a warning is
all that follows. -/
def BeInputs.resolve (b : BeInputs) : ℚ :=
  let coercedIf1Freq := b.coercedLo2Frequency + b.coercedIf2Frequency * b.lo2InjSide.value
  if b.isHighband then coercedIf1Freq else |coercedIf1Freq - b.coercedLo1Frequency|

/-- What the back-end worker reads where the hardware has just the frequencies that were chosen. -/
def FeOutputs.realised (out : FeOutputs) : BeInputs where
  coercedLo1Frequency := out.desiredLo1Frequency
  coercedLo2Frequency := out.desiredLo2Frequency
  coercedIf2Frequency := out.desiredIf2Frequency
  isHighband := out.isHighband
  lo1InjSide := out.lo1InjSide
  lo2InjSide := out.lo2InjSide

/-! ## Rounding to the grid -/

section Grid

variable {r : Range} {v x : ℚ}

/-- What `clip` with the steps makes of a value where there is one range. -/
def quantized (r : Range) (v : ℚ) : ℚ :=
  if v < r.start then r.start else if v ≤ r.stop then r.clipWithin true v else r.stop

/-- The range is so many steps long. -/
def WholeSteps (r : Range) : Prop := ∃ n : ℤ, r.stop = r.start + n * r.step

/-- The value lies in the range. -/
def Reaches (r : Range) (v : ℚ) : Prop := r.start ≤ v ∧ v ≤ r.stop

theorem clipBy_singleton (r : Range) (v : ℚ) :
    MetaRange.clipBy [r] v true = .ok (quantized r v) := by
  have hcheck : MetaRange.checkMonotonic [r] = .ok () :=
    MetaRange.checkMonotonic_eq_ok.mpr ⟨List.cons_ne_nil _ _, List.isChain_singleton r⟩
  rw [MetaRange.clipBy, hcheck, quantized]
  refine congrArg Except.ok ?_
  rw [MetaRange.clipStepFrom, MetaRange.clipStepFrom]
  split_ifs with hbelow hnear hin
  · rfl
  · -- the stop is as near as the start only if it is the start
    have hle : r.start ≤ r.stop := r.le
    replace hnear : ¬ |v - r.start| < |v - r.stop| := hnear
    rw [abs_of_neg (sub_neg.mpr hbelow), abs_of_neg (sub_neg.mpr (hbelow.trans_le hle))] at hnear
    exact le_antisymm (show r.stop ≤ r.start by linarith) hle
  · rfl
  · rfl

theorem step_singleton (hstep : 0 < r.step) : MetaRange.step [r] = .ok r.step := by
  have hcheck : MetaRange.checkMonotonic [r] = .ok () :=
    MetaRange.checkMonotonic_eq_ok.mpr ⟨List.cons_ne_nil _ _, List.isChain_singleton r⟩
  have hbetween : ¬ 0 < r.start - r.stop := not_lt.mpr (sub_nonpos.mpr r.le)
  have hsteps : MetaRange.nonZeroSteps (([r].map Range.stop).headD 0) [r] = [r.step] := by
    rw [MetaRange.nonZeroSteps, MetaRange.nonZeroSteps, if_pos hstep]
    exact congrArg (r.step :: ·) (if_neg hbetween ▸ rfl)
  rw [MetaRange.step, hcheck, hsteps]
  rfl

theorem quantized_of_lt (h : v < r.start) : quantized r v = r.start := if_pos h

theorem quantized_of_gt (h : r.stop < v) : quantized r v = r.stop := by
  rw [quantized, if_neg (not_lt.mpr (r.le.trans h.le)), if_neg (not_le.mpr h)]

theorem quantized_of_reaches (hstep : 0 < r.step) (h : Reaches r v) :
    quantized r v = stdRound ((v - r.start) / r.step) * r.step + r.start := by
  rw [quantized, if_neg (not_lt.mpr h.1), if_pos h.2, Range.clipWithin, if_neg]
  exact not_or.mpr ⟨not_not_intro rfl, hstep.ne'⟩

theorem abs_stdRound_sub_le {q : ℚ} (hq : 0 ≤ q) : |stdRound q - q| ≤ 1 / 2 := by
  have hle : (⌊q + 1 / 2⌋ : ℚ) ≤ q + 1 / 2 := Int.floor_le _
  have hlt : q + 1 / 2 < ⌊q + 1 / 2⌋ + 1 := Int.lt_floor_add_one _
  rw [stdRound, if_pos hq, abs_le]
  constructor <;> linarith

theorem stdRound_add_intCast {q : ℚ} {k : ℤ} (hq : 0 ≤ q) (hk : 0 ≤ q + k) :
    stdRound (q + k) = stdRound q + k := by
  have hcomm : q + k + 1 / 2 = q + 1 / 2 + k := by ring
  rw [stdRound, if_pos hk, stdRound, if_pos hq, hcomm, Int.floor_add_intCast]

theorem Reaches.nonneg (hstep : 0 < r.step) (h : Reaches r v) : 0 ≤ (v - r.start) / r.step :=
  div_nonneg (sub_nonneg.mpr h.1) hstep.le

theorem abs_quantized_sub_of_reaches (hstep : 0 < r.step) (h : Reaches r v) :
    |quantized r v - v| ≤ r.step / 2 := by
  have hround := abs_stdRound_sub_le (h.nonneg hstep)
  have hdiff : quantized r v - v =
      (stdRound ((v - r.start) / r.step) - (v - r.start) / r.step) * r.step := by
    rw [quantized_of_reaches hstep h, sub_mul, div_mul_cancel₀ _ hstep.ne']
    ring
  rw [hdiff, abs_mul, abs_of_pos hstep]
  calc |stdRound ((v - r.start) / r.step) - (v - r.start) / r.step| * r.step
      ≤ 1 / 2 * r.step := mul_le_mul_of_nonneg_right hround hstep.le
    _ = r.step / 2 := by ring

theorem lt_or_reaches_or_gt (r : Range) (v : ℚ) : v < r.start ∨ Reaches r v ∨ r.stop < v := by
  by_cases hlow : v < r.start
  · exact Or.inl hlow
  · by_cases hhigh : r.stop < v
    · exact Or.inr (Or.inr hhigh)
    · exact Or.inr (Or.inl ⟨not_lt.mp hlow, not_lt.mp hhigh⟩)

theorem abs_quantized_sub_le (hstep : 0 < r.step) (hx : Reaches r x) :
    |quantized r v - v| ≤ max (r.step / 2) |v - x| := by
  rcases lt_or_reaches_or_gt r v with h | h | h
  · rw [quantized_of_lt h]
    refine le_max_of_le_right ?_
    rw [abs_of_pos (sub_pos.mpr h), abs_of_neg (sub_neg.mpr (h.trans_le hx.1))]
    linarith [hx.1]
  · exact le_max_of_le_left (abs_quantized_sub_of_reaches hstep h)
  · rw [quantized_of_gt h]
    refine le_max_of_le_right ?_
    rw [abs_of_neg (sub_neg.mpr h), abs_of_pos (sub_pos.mpr (hx.2.trans_lt h))]
    linarith [hx.2]

theorem abs_quantized_sub_le_add (hstep : 0 < r.step) (hx : Reaches r x) :
    |quantized r v - x| ≤ |v - x| + r.step / 2 := by
  rcases lt_or_reaches_or_gt r v with h | h | h
  · rw [quantized_of_lt h, abs_of_nonpos (sub_nonpos.mpr hx.1),
      abs_of_neg (sub_neg.mpr (h.trans_le hx.1))]
    linarith
  · have hround := abs_quantized_sub_of_reaches hstep h
    have htriangle : |quantized r v - x| ≤ |quantized r v - v| + |v - x| := abs_sub_le _ _ _
    linarith
  · rw [quantized_of_gt h, abs_of_nonneg (sub_nonneg.mpr hx.2),
      abs_of_pos (sub_pos.mpr (hx.2.trans_lt h))]
    linarith

theorem exists_quantized (hstep : 0 < r.step) (hsteps : WholeSteps r) (v : ℚ) :
    ∃ k : ℤ, quantized r v = r.start + k * r.step := by
  rcases lt_or_reaches_or_gt r v with h | h | h
  · exact ⟨0, by rw [quantized_of_lt h]; simp⟩
  · exact ⟨_, (quantized_of_reaches hstep h).trans (add_comm _ _)⟩
  · obtain ⟨n, hn⟩ := hsteps
    exact ⟨n, (quantized_of_gt h).trans hn⟩

theorem quantized_sub_lt_quantized_add (hstep : 0 < r.step) (hlt : r.start < r.stop)
    (hx : Reaches r x) : quantized r (x - r.step) < quantized r (x + r.step) := by
  rcases lt_or_reaches_or_gt r (x + r.step) with h | h | h
  · exact absurd (h.trans_le hx.1) (not_lt.mpr (by linarith))
  · have hup := abs_le.mp (abs_quantized_sub_of_reaches hstep h)
    rcases lt_or_reaches_or_gt r (x - r.step) with h' | h' | h'
    · rw [quantized_of_lt h']
      linarith [hx.1, hup.1]
    · have hdown := abs_le.mp (abs_quantized_sub_of_reaches hstep h')
      linarith [hup.1, hdown.2]
    · linarith [h.2]
  · rw [quantized_of_gt h]
    rcases lt_or_reaches_or_gt r (x - r.step) with h' | h' | h'
    · rw [quantized_of_lt h']
      exact hlt
    · have hdown := abs_le.mp (abs_quantized_sub_of_reaches hstep h')
      linarith [hx.2, hdown.2]
    · exact absurd (hx.2.trans_lt h') (not_lt.mpr (by linarith))

theorem quantized_of_eq (hstep : 0 < r.step) (heq : r.start = r.stop) (v : ℚ) :
    quantized r v = r.start := by
  rcases lt_or_reaches_or_gt r v with h | h | h
  · exact quantized_of_lt h
  · have hv : v = r.start := le_antisymm (heq ▸ h.2) h.1
    rw [quantized_of_reaches hstep h, hv, sub_self, zero_div, stdRound, if_pos le_rfl]
    norm_num
  · rw [quantized_of_gt h, heq]

/-- Two frequencies are not the same, unless both are the same end of the range. -/
def Apart (r : Range) (a b : ℚ) : Prop :=
  a ≠ b ∨ (a = r.start ∧ b = r.start) ∨ (a = r.stop ∧ b = r.stop)

theorem apart_quantized (hstep : 0 < r.step) {w : ℚ} {k : ℤ} (hk : k ≠ 0)
    (hw : w = v + k * r.step) : Apart r (quantized r v) (quantized r w) := by
  by_cases heq : quantized r v = quantized r w
  · right
    rcases lt_or_reaches_or_gt r v with h | h | h
    · exact Or.inl ⟨quantized_of_lt h, heq ▸ quantized_of_lt h⟩
    · rcases lt_or_reaches_or_gt r w with h' | h' | h'
      · exact Or.inl ⟨heq.trans (quantized_of_lt h'), quantized_of_lt h'⟩
      · exfalso
        have hdiv : (w - r.start) / r.step = (v - r.start) / r.step + k := by
          rw [hw, add_sub_right_comm, add_div, mul_div_cancel_right₀ _ hstep.ne']
        have hround : stdRound ((w - r.start) / r.step) =
            stdRound ((v - r.start) / r.step) + k := by
          rw [hdiv]
          exact stdRound_add_intCast (h.nonneg hstep) (hdiv ▸ h'.nonneg hstep)
        rw [quantized_of_reaches hstep h, quantized_of_reaches hstep h', hround,
          add_left_inj, mul_left_inj' hstep.ne', Int.cast_inj] at heq
        exact hk (by omega)
      · exact Or.inr ⟨heq.trans (quantized_of_gt h'), quantized_of_gt h'⟩
    · exact Or.inr ⟨quantized_of_gt h, heq ▸ quantized_of_gt h⟩
  · exact Or.inl heq

end Grid

theorem getQuantizedLoRange_spec {loStepSize : ℚ} {range : MetaRange}
    (h : getQuantizedLoRange loStepSize = .ok range) :
    ∃ r, range = [r] ∧ r.step = loStepSize ∧ WholeSteps r := by
  rw [getQuantizedLoRange] at h
  split_ifs at h with hstart hstop
  rw [Range.make] at h
  split_ifs at h with hempty
  · cases h
  · refine ⟨⟨_, _, loStepSize, not_lt.mp hempty⟩, (Except.ok.inj h).symm, rfl,
      ⌊lmx2572MaxFreq / loStepSize⌋ - ⌈lmx2572MinFreq / loStepSize⌉, ?_⟩
    push_cast
    ring

/-! ## Plans -/

section Plans

variable {r : Range} {item : TuneMapItem} {desired tuneFreq if1Freq if2Freq : ℚ}
  {tuneTable : List TuneMapItem}

/-- The entry is right for a frequency: the ideal frequencies of the LOs in use can be reached, and
the second intermediate frequency is more than two steps. -/
structure Ideal (r : Range) (item : TuneMapItem) (tuneFreq if1Freq if2Freq : ℚ) : Prop where
  if1 : isBandHighband item = false → calcIf1Freq tuneFreq item = .ok if1Freq
  noIf1 : isBandHighband item = true → if1Freq = tuneFreq
  if2 : calcIdealIf2Freq tuneFreq item = .ok if2Freq
  lo1 : isBandHighband item = false → Reaches r (if1Freq - item.lo1InjSide.value * tuneFreq)
  lo2 : Reaches r (calcLo2Freq if1Freq if2Freq item.lo2InjSide)
  wide : 2 * r.step < if2Freq

/-- The mixers in use have a side. -/
def Mixes (item : TuneMapItem) : Prop :=
  item.lo2InjSide ≠ .none ∧ (isBandHighband item = false → item.lo1InjSide ≠ .none)

theorem add_abs_mul_value {side : LoInjSide} {lo2 : ℚ} (hside : side ≠ .none)
    (hclose : |if1Freq - side.value * if2Freq - lo2| < if2Freq) :
    lo2 + calcIf2Freq if1Freq lo2 * side.value = if1Freq := by
  obtain ⟨hlow, hhigh⟩ := abs_lt.mp hclose
  cases side with
  | high =>
    rw [LoInjSide.value] at hhigh hlow ⊢
    rw [calcIf2Freq, abs_of_neg (by linarith)]
    ring
  | low =>
    rw [LoInjSide.value] at hhigh hlow ⊢
    rw [calcIf2Freq, abs_of_pos (by linarith)]
    ring
  | none => exact absurd rfl hside

theorem abs_add_value_mul_sub {side : LoInjSide} {lo1 : ℚ} (hside : side ≠ .none)
    (hpos : 0 < tuneFreq) : |lo1 + side.value * tuneFreq - lo1| = tuneFreq := by
  rw [add_sub_cancel_left, abs_mul, abs_of_pos hpos]
  cases side with
  | high => rw [LoInjSide.value, abs_neg, abs_one, one_mul]
  | low => rw [LoInjSide.value, abs_one, one_mul]
  | none => exact absurd rfl hside

theorem pos_of_clip (htune : zbxFreqRange.clip desired = .ok tuneFreq) : 0 < tuneFreq := by
  rw [MetaRange.clip, zbxFreqRange] at htune
  have hclip := Except.ok.inj htune
  rw [← hclip, MetaRange.clipFrom, MetaRange.clipFrom]
  split_ifs with hbelow hnear hin
  · norm_num
  · norm_num
  · exact lt_of_lt_of_le (by norm_num) (not_lt.mp hbelow)
  · norm_num

variable (fe : FreqFeExpert) (out : FeOutputs)

theorem resolve_of_high (hrange : fe.loFreqRange = [r]) (hstep : 0 < r.step)
    (htune : zbxFreqRange.clip desired = .ok tuneFreq)
    (hitem : getTuneSettings tuneFreq tuneTable = .ok item) (hband : isBandHighband item = true)
    (hif2 : calcIdealIf2Freq tuneFreq item = .ok if2Freq) :
    ∃ plan, fe.resolve desired tuneTable out = .ok plan ∧ plan.isHighband = true ∧
      plan.lo2InjSide = item.lo2InjSide ∧
      plan.desiredIf2Frequency = calcIf2Freq tuneFreq plan.desiredLo2Frequency ∧
      plan.desiredLo2Frequency = quantized r
        (calcLo2Freq tuneFreq if2Freq item.lo2InjSide + fe.loOffsetSign * r.step) := by
  have hlo2 : fe.planLo2 item tuneFreq tuneFreq = .ok (quantized r
      (calcLo2Freq tuneFreq if2Freq item.lo2InjSide + fe.loOffsetSign * r.step)) := by
    rw [FreqFeExpert.planLo2, hrange, step_singleton hstep, hif2]
    simp only [ofRange, Except.mapError, Exceptions.ok_bind]
    rw [if_pos hband, clipBy_singleton]
  rw [FreqFeExpert.resolve, htune]
  simp only [ofRange, Except.mapError, Exceptions.ok_bind, hitem, hband, if_true, hlo2]
  exact ⟨_, rfl, rfl, rfl, rfl, rfl⟩

theorem resolve_of_low (hrange : fe.loFreqRange = [r]) (hstep : 0 < r.step)
    (htune : zbxFreqRange.clip desired = .ok tuneFreq)
    (hitem : getTuneSettings tuneFreq tuneTable = .ok item) (hband : isBandHighband item = false)
    (hif1 : calcIf1Freq tuneFreq item = .ok if1Freq)
    (hif2 : calcIdealIf2Freq tuneFreq item = .ok if2Freq) :
    ∃ plan, fe.resolve desired tuneTable out = .ok plan ∧ plan.isHighband = false ∧
      plan.lo2InjSide = item.lo2InjSide ∧
      plan.desiredIf2Frequency = calcIf2Freq
        (plan.desiredLo1Frequency + item.lo1InjSide.value * tuneFreq) plan.desiredLo2Frequency ∧
      plan.desiredLo1Frequency = quantized r
        (if1Freq - item.lo1InjSide.value * tuneFreq + fe.loOffsetSign * r.step) ∧
      plan.desiredLo2Frequency = quantized r
        (calcLo2Freq (plan.desiredLo1Frequency + item.lo1InjSide.value * tuneFreq) if2Freq
          item.lo2InjSide) := by
  have hlo1 : fe.planLo1 item tuneFreq = .ok
      (quantized r (if1Freq - item.lo1InjSide.value * tuneFreq + fe.loOffsetSign * r.step),
        quantized r (if1Freq - item.lo1InjSide.value * tuneFreq + fe.loOffsetSign * r.step) +
          item.lo1InjSide.value * tuneFreq) := by
    rw [FreqFeExpert.planLo1, hrange, step_singleton hstep, hif1]
    simp only [ofRange, Except.mapError, Exceptions.ok_bind]
    rw [clipBy_singleton]
    rfl
  have hlo2 : ∀ if1, fe.planLo2 item tuneFreq if1 =
      .ok (quantized r (calcLo2Freq if1 if2Freq item.lo2InjSide)) := by
    intro if1
    rw [FreqFeExpert.planLo2, hrange, step_singleton hstep, hif2]
    simp only [ofRange, Except.mapError, Exceptions.ok_bind]
    rw [if_neg (by rw [hband]; exact Bool.false_ne_true), clipBy_singleton]
  rw [FreqFeExpert.resolve, htune]
  simp only [ofRange, Except.mapError, Exceptions.ok_bind, hitem, hband, Bool.false_eq_true,
    if_false, hlo1, hlo2]
  exact ⟨_, rfl, rfl, rfl, rfl, rfl, rfl⟩

theorem abs_loOffsetSign_mul (hstep : 0 < r.step) : |fe.loOffsetSign * r.step| = r.step := by
  rw [abs_mul, abs_of_pos hstep, FreqFeExpert.loOffsetSign]
  split_ifs
  · rw [abs_neg, abs_one, one_mul]
  · rw [abs_one, one_mul]

theorem reports_of_ideal (hrange : fe.loFreqRange = [r]) (hstep : 0 < r.step)
    (htune : zbxFreqRange.clip desired = .ok tuneFreq)
    (hitem : getTuneSettings tuneFreq tuneTable = .ok item)
    (hideal : Ideal r item tuneFreq if1Freq if2Freq) (hmixes : Mixes item) :
    ∃ plan, fe.resolve desired tuneTable out = .ok plan ∧ plan.realised.resolve = tuneFreq := by
  have hsign : |fe.loOffsetSign * r.step| = r.step := abs_loOffsetSign_mul fe hstep
  rcases hband : isBandHighband item with _ | _
  · obtain ⟨plan, hplan, hlow, hside, hif2, hlo1, hlo2⟩ := resolve_of_low fe out hrange hstep htune
      hitem hband (hideal.if1 hband) hideal.if2
    -- LO1 is off by a step and a half at most, and so is what LO2 is rounded from
    have hshift : |plan.desiredLo1Frequency - (if1Freq - item.lo1InjSide.value * tuneFreq)| ≤
        r.step + r.step / 2 := by
      have hle := abs_quantized_sub_le_add hstep (hideal.lo1 hband)
        (v := if1Freq - item.lo1InjSide.value * tuneFreq + fe.loOffsetSign * r.step)
      rw [add_sub_cancel_left, hsign, ← hlo1] at hle
      exact hle
    have hround := abs_quantized_sub_le hstep hideal.lo2 (v := calcLo2Freq
      (plan.desiredLo1Frequency + item.lo1InjSide.value * tuneFreq) if2Freq item.lo2InjSide)
    have hdiff : calcLo2Freq (plan.desiredLo1Frequency + item.lo1InjSide.value * tuneFreq) if2Freq
          item.lo2InjSide - calcLo2Freq if1Freq if2Freq item.lo2InjSide =
        plan.desiredLo1Frequency - (if1Freq - item.lo1InjSide.value * tuneFreq) := by
      rw [calcLo2Freq, calcLo2Freq]
      ring
    rw [← hlo2, hdiff, abs_sub_comm] at hround
    have hclose : |plan.desiredLo1Frequency + item.lo1InjSide.value * tuneFreq -
        item.lo2InjSide.value * if2Freq - plan.desiredLo2Frequency| < if2Freq := by
      refine hround.trans_lt (max_lt ?_ ?_)
      · linarith [hideal.wide]
      · linarith [hideal.wide]
    refine ⟨plan, hplan, ?_⟩
    rw [BeInputs.resolve, FeOutputs.realised]
    dsimp only
    rw [hlow, if_neg Bool.false_ne_true, hside, hif2, add_abs_mul_value hmixes.1 hclose]
    exact abs_add_value_mul_sub (hmixes.2 hband) (pos_of_clip htune)
  · obtain ⟨plan, hplan, hhigh, hside, hif2, hlo2⟩ := resolve_of_high fe out hrange hstep htune
      hitem hband hideal.if2
    have hreaches := hideal.lo2
    rw [hideal.noIf1 hband] at hreaches
    have hround := abs_quantized_sub_le_add hstep hreaches
      (v := calcLo2Freq tuneFreq if2Freq item.lo2InjSide + fe.loOffsetSign * r.step)
    rw [add_sub_cancel_left, hsign, ← hlo2, abs_sub_comm] at hround
    have hclose : |tuneFreq - item.lo2InjSide.value * if2Freq - plan.desiredLo2Frequency| <
        if2Freq := by
      refine hround.trans_lt ?_
      linarith [hideal.wide]
    refine ⟨plan, hplan, ?_⟩
    rw [BeInputs.resolve, FeOutputs.realised]
    dsimp only
    rw [hhigh, if_pos rfl, hside, hif2, add_abs_mul_value hmixes.1 hclose]

/-- Two channels of one frontend direction. -/
def channel (trx : Direction) (rfdcRate : ℚ) (range : MetaRange) (chan : ℕ) : FreqFeExpert :=
  ⟨trx, chan, rfdcRate, range⟩

theorem apart_of_ideal (hstep : 0 < r.step) (hsteps : WholeSteps r)
    (htune : zbxFreqRange.clip desired = .ok tuneFreq)
    (hitem : getTuneSettings tuneFreq tuneTable = .ok item)
    (hideal : Ideal r item tuneFreq if1Freq if2Freq) (trx : Direction) (rfdcRate : ℚ)
    (out out' : FeOutputs) {plan plan' : FeOutputs}
    (hplan : (channel trx rfdcRate [r] 0).resolve desired tuneTable out = .ok plan)
    (hplan' : (channel trx rfdcRate [r] 1).resolve desired tuneTable out' = .ok plan') :
    (isBandHighband item = false → r.start < r.stop →
        plan.desiredLo1Frequency ≠ plan'.desiredLo1Frequency) ∧
      (isBandHighband item = true → r.start < r.stop →
        plan.desiredLo2Frequency ≠ plan'.desiredLo2Frequency) ∧
      Apart r plan.desiredLo2Frequency plan'.desiredLo2Frequency := by
  have hdown : (channel trx rfdcRate [r] 0).loOffsetSign * r.step = -r.step := neg_one_mul _
  have hup : (channel trx rfdcRate [r] 1).loOffsetSign * r.step = r.step := one_mul _
  rcases hband : isBandHighband item with _ | _
  · obtain ⟨p, hp, -, -, -, hlo1, hlo2⟩ := resolve_of_low (channel trx rfdcRate [r] 0) out rfl hstep
      htune hitem hband (hideal.if1 hband) hideal.if2
    obtain ⟨p', hp', -, -, -, hlo1', hlo2'⟩ := resolve_of_low (channel trx rfdcRate [r] 1) out' rfl
      hstep htune hitem hband (hideal.if1 hband) hideal.if2
    rw [hplan, Except.ok.injEq] at hp
    rw [hplan', Except.ok.injEq] at hp'
    subst hp hp'
    rw [hdown, ← sub_eq_add_neg] at hlo1
    rw [hup] at hlo1'
    have hless : r.start < r.stop → plan.desiredLo1Frequency < plan'.desiredLo1Frequency := by
      intro hlt
      rw [hlo1, hlo1']
      exact quantized_sub_lt_quantized_add hstep hlt (hideal.lo1 hband)
    refine ⟨fun _ hlt => (hless hlt).ne, (fun h => nomatch h), ?_⟩
    rcases r.le.eq_or_lt with heq | hlt
    · right; left
      rw [hlo2, hlo2']
      exact ⟨quantized_of_eq hstep heq _, quantized_of_eq hstep heq _⟩
    · obtain ⟨i, hi⟩ := exists_quantized hstep hsteps
        (if1Freq - item.lo1InjSide.value * tuneFreq - r.step)
      obtain ⟨j, hj⟩ := exists_quantized hstep hsteps
        (if1Freq - item.lo1InjSide.value * tuneFreq + r.step)
      rw [← hlo1] at hi
      rw [← hlo1'] at hj
      have hk : j - i ≠ 0 := by
        intro hzero
        have hij : j = i := sub_eq_zero.mp hzero
        have hne := (hless hlt).ne
        rw [hi, hj, hij] at hne
        exact hne rfl
      rw [hlo2, hlo2']
      refine apart_quantized hstep hk ?_
      rw [calcLo2Freq, calcLo2Freq, hi, hj]
      push_cast
      ring
  · obtain ⟨p, hp, -, -, -, hlo2⟩ := resolve_of_high (channel trx rfdcRate [r] 0) out rfl hstep
      htune hitem hband hideal.if2
    obtain ⟨p', hp', -, -, -, hlo2'⟩ := resolve_of_high (channel trx rfdcRate [r] 1) out' rfl hstep
      htune hitem hband hideal.if2
    rw [hplan, Except.ok.injEq] at hp
    rw [hplan', Except.ok.injEq] at hp'
    subst hp hp'
    rw [hdown, ← sub_eq_add_neg] at hlo2
    rw [hup] at hlo2'
    have hreaches := hideal.lo2
    rw [hideal.noIf1 hband] at hreaches
    have hless : r.start < r.stop → plan.desiredLo2Frequency < plan'.desiredLo2Frequency := by
      intro hlt
      rw [hlo2, hlo2']
      exact quantized_sub_lt_quantized_add hstep hlt hreaches
    refine ⟨(fun h => nomatch h), fun _ hlt => (hless hlt).ne, ?_⟩
    rcases r.le.eq_or_lt with heq | hlt
    · right; left
      rw [hlo2, hlo2']
      exact ⟨quantized_of_eq hstep heq _, quantized_of_eq hstep heq _⟩
    · exact Or.inl (hless hlt).ne

/-- **Two channels**, tuned to one frequency by an entry that is right for it: both report the
desired frequency, and their LOs differ, unless they are clipped to the same end of the grid. -/
theorem reports_and_differs {loStepSize : ℚ} (hpos : 0 < loStepSize)
    (hrange : getQuantizedLoRange loStepSize = .ok [r])
    (htune : zbxFreqRange.clip desired = .ok tuneFreq)
    (hitem : getTuneSettings tuneFreq tuneTable = .ok item)
    (hideal : Ideal r item tuneFreq if1Freq if2Freq) (hmixes : Mixes item) (trx : Direction)
    (rfdcRate : ℚ) (out out' : FeOutputs) :
    ∃ plan plan', (channel trx rfdcRate [r] 0).resolve desired tuneTable out = .ok plan ∧
      (channel trx rfdcRate [r] 1).resolve desired tuneTable out' = .ok plan' ∧
      plan.realised.resolve = tuneFreq ∧ plan'.realised.resolve = tuneFreq ∧
      (isBandHighband item = false → r.start < r.stop →
        plan.desiredLo1Frequency ≠ plan'.desiredLo1Frequency) ∧
      (isBandHighband item = true → r.start < r.stop →
        plan.desiredLo2Frequency ≠ plan'.desiredLo2Frequency) ∧
      Apart r plan.desiredLo2Frequency plan'.desiredLo2Frequency := by
  obtain ⟨r', hr', hsize, hsteps⟩ := getQuantizedLoRange_spec hrange
  obtain rfl : r = r' := List.singleton_inj.mp hr'
  have hstep : 0 < r.step := hsize ▸ hpos
  obtain ⟨plan, hplan, hreport⟩ := reports_of_ideal (channel trx rfdcRate [r] 0) out rfl hstep htune
    hitem hideal hmixes
  obtain ⟨plan', hplan', hreport'⟩ := reports_of_ideal (channel trx rfdcRate [r] 1) out' rfl hstep
    htune hitem hideal hmixes
  exact ⟨plan, plan', hplan, hplan', hreport, hreport',
    apart_of_ideal hstep hsteps htune hitem hideal trx rfdcRate out out' hplan hplan'⟩

end Plans

/-! ## Entries -/

/-- The grid of the LOs where a step is 10 MHz. -/
def tenMegahertz : Range := ⟨3200000000, 6400000000, 10000000, by norm_num⟩

/-- Nodes before the first resolve. -/
def blank : FeOutputs where
  desiredLo1Frequency := lmx2572DefaultFreq
  desiredLo2Frequency := lmx2572DefaultFreq
  lo1Enabled := false
  lo2Enabled := false
  desiredIf2Frequency := 0
  bandInverted := false
  isHighband := false
  lo1InjSide := .none
  lo2InjSide := .none
  rfFilter := 0
  if1Filter := 0
  if2Filter := 0

/-- A band in which LO2 mixes from no side. -/
def noSide : TuneMapItem where
  minBandFreq := 3000000000
  maxBandFreq := 8000000000
  rfFltr := 0
  if1Fltr := 1
  if2Fltr := 1
  lo1InjSide := .none
  lo2InjSide := .none
  if1FreqMin := 0
  if1FreqMax := 0
  if2FreqMin := 1000000000
  if2FreqMax := 1000000000

/-- A band whose ideal LO frequencies for 1 GHz are the two ends of the grid. -/
def endToEnd : TuneMapItem where
  minBandFreq := 1000000
  maxBandFreq := 3000000000
  rfFltr := 1
  if1Fltr := 1
  if2Fltr := 1
  lo1InjSide := .low
  lo2InjSide := .high
  if1FreqMin := 4200000000
  if1FreqMax := 4200000000
  if2FreqMin := 2200000000
  if2FreqMax := 2200000000

/-- **Two entries** whose ideal frequencies can be reached, on the grid of 10 MHz.  Where LO2 mixes
from no side, 3990 MHz is reported for 4003 MHz; and where the ideal frequencies are the ends of the
grid, the LO2 of both channels is at 6400 MHz. -/
theorem not_exact_or_not_apart :
    (Ideal tenMegahertz noSide 4003000000 4003000000 1000000000 ∧
      ∃ plan, (channel .rx 0 [tenMegahertz] 0).resolve 4003000000 [noSide] blank = .ok plan ∧
        plan.realised.resolve = 3990000000) ∧
    (Ideal tenMegahertz endToEnd 1000000000 4200000000 2200000000 ∧ Mixes endToEnd ∧
      ∃ plan plan',
        (channel .rx 0 [tenMegahertz] 0).resolve 1000000000 [endToEnd] blank = .ok plan ∧
        (channel .rx 0 [tenMegahertz] 1).resolve 1000000000 [endToEnd] blank = .ok plan' ∧
        plan.desiredLo2Frequency = 6400000000 ∧ plan'.desiredLo2Frequency = 6400000000) := by
  refine ⟨⟨⟨fun h => ?_, fun _ => rfl, rfl, fun h => ?_, ?_, ?_⟩, ?_⟩,
    ⟨⟨fun _ => rfl, fun h => ?_, rfl, fun _ => ?_, ?_, ?_⟩, ⟨by decide, by decide⟩, ?_⟩⟩
  · exact absurd h (by decide)
  · exact absurd h (by decide)
  · exact ⟨by decide +kernel, by decide +kernel⟩
  · decide +kernel
  · exact ⟨_, rfl, by decide +kernel⟩
  · exact absurd h (by decide)
  · exact ⟨by decide +kernel, by decide +kernel⟩
  · exact ⟨by decide +kernel, by decide +kernel⟩
  · decide +kernel
  · exact ⟨_, _, rfl, rfl, by decide +kernel, by decide +kernel⟩

/-- A band of the high frequencies. -/
def highBand : TuneMapItem := { noSide with lo2InjSide := .low }

/-- **The high band**, tuned to 5003 MHz on the grid of 10 MHz. -/
theorem reports_and_differs_highBand :
    ∃ plan plan',
      (channel .rx 0 [tenMegahertz] 0).resolve 5003000000 [highBand] blank = .ok plan ∧
      (channel .rx 0 [tenMegahertz] 1).resolve 5003000000 [highBand] blank = .ok plan' ∧
      plan.realised.resolve = 5003000000 ∧ plan'.realised.resolve = 5003000000 ∧
      (isBandHighband highBand = false → tenMegahertz.start < tenMegahertz.stop →
        plan.desiredLo1Frequency ≠ plan'.desiredLo1Frequency) ∧
      (isBandHighband highBand = true → tenMegahertz.start < tenMegahertz.stop →
        plan.desiredLo2Frequency ≠ plan'.desiredLo2Frequency) ∧
      Apart tenMegahertz plan.desiredLo2Frequency plan'.desiredLo2Frequency := by
  have hstep : (0 : ℚ) < 10000000 := by norm_num
  have hideal : Ideal tenMegahertz highBand 5003000000 5003000000 1000000000 :=
    ⟨fun h => absurd h (by decide), fun _ => rfl, rfl, fun h => absurd h (by decide),
      ⟨by decide +kernel, by decide +kernel⟩, by decide +kernel⟩
  exact reports_and_differs hstep (by decide +kernel) (by decide +kernel) (by decide +kernel) hideal
    ⟨by decide, by decide⟩ .rx 0 blank blank

end ZbxFreqExpert
end Usrp
end UhdHost
