import Mathlib.Algebra.Order.Floor.Ring
import Mathlib.Data.Rat.Floor
import Mathlib.Tactic.FieldSimp
import Mathlib.Tactic.Linarith
import Mathlib.Tactic.Ring

/-!
# Times

`time_spec_t` of `lib/types/time_spec.cpp`: whole seconds and a fraction of a second that is at
least zero and less than one.  Fractions and rates are `double` in the source and exact here.

Every constructor goes through `init`, so the fraction is in range by construction, and a time
is determined by the number of seconds it stands for (`ext_of_realSecs`).
-/

namespace UhdHost

/-- The conversion to an integer type: towards zero. -/
def truncInt (q : ℚ) : ℤ := if 0 ≤ q then ⌊q⌋ else ⌈q⌉

theorem sub_truncInt_mem (q : ℚ) : -1 < q - truncInt q ∧ q - truncInt q < 1 := by
  rw [truncInt]
  split_ifs with h
  · have h₁ := Int.floor_le q
    have h₂ := Int.lt_floor_add_one q
    constructor <;> linarith
  · have h₁ := Int.le_ceil q
    have h₂ := Int.ceil_lt_add_one q
    constructor <;> linarith

/-- `time_spec_t` -/
structure TimeSpec where
  fullSecs : ℤ
  fracSecs : ℚ
  fracSecs_nonneg : 0 ≤ fracSecs
  fracSecs_lt_one : fracSecs < 1
  deriving DecidableEq

namespace TimeSpec

/-- `time_spec_init(full, frac)` -/
def init (full : ℤ) (frac : ℚ) : TimeSpec :=
  let fracInt := truncInt frac
  if h : frac - fracInt < 0 then
    { fullSecs := full + fracInt - 1
      fracSecs := frac - fracInt + 1
      fracSecs_nonneg := by
        have := (sub_truncInt_mem frac).1
        linarith
      fracSecs_lt_one := by linarith }
  else
    { fullSecs := full + fracInt
      fracSecs := frac - fracInt
      fracSecs_nonneg := not_lt.mp h
      fracSecs_lt_one := (sub_truncInt_mem frac).2 }

/-- `time_spec_t(double secs)` -/
def ofSecs (secs : ℚ) : TimeSpec := init 0 secs

instance : Inhabited TimeSpec := ⟨ofSecs 0⟩

/-- `get_real_secs` -/
def realSecs (t : TimeSpec) : ℚ := t.fullSecs + t.fracSecs

/-- `from_ticks`.  The source divides by zero for a rate below one. -/
def fromTicks (ticks : ℤ) (tickRate : ℚ) : TimeSpec :=
  let rateI := truncInt tickRate
  let rateF := tickRate - rateI
  let secsFull := ticks.tdiv rateI
  let ticksError := ticks - secsFull * rateI
  let ticksFrac := ticksError - secsFull * rateF
  init secsFull (ticksFrac / tickRate)

/-- `fast_llround` -/
def fastLlround (x : ℚ) : ℤ := truncInt (x + 1 / 2)

/-- `to_ticks` -/
def toTicks (t : TimeSpec) (tickRate : ℚ) : ℤ :=
  let rateI := truncInt tickRate
  let rateF := tickRate - rateI
  let ticksFull := t.fullSecs * rateI
  let ticksError := t.fullSecs * rateF
  let ticksFrac := t.fracSecs * tickRate
  ticksFull + fastLlround (ticksError + ticksFrac)

/-- `operator+` -/
def add (t u : TimeSpec) : TimeSpec := init (t.fullSecs + u.fullSecs) (t.fracSecs + u.fracSecs)

instance : Add TimeSpec := ⟨add⟩

/-! ## What a time stands for -/

@[simp] theorem realSecs_init (full : ℤ) (frac : ℚ) : (init full frac).realSecs = full + frac := by
  rw [init, realSecs]
  split_ifs <;> push_cast <;> ring

@[simp] theorem realSecs_ofSecs (secs : ℚ) : (ofSecs secs).realSecs = secs := by
  rw [ofSecs, realSecs_init, Int.cast_zero, zero_add]

@[simp] theorem realSecs_add (t u : TimeSpec) : (t + u).realSecs = t.realSecs + u.realSecs := by
  show (init (t.fullSecs + u.fullSecs) (t.fracSecs + u.fracSecs)).realSecs = _
  rw [realSecs_init, realSecs, realSecs]
  push_cast
  ring

@[simp] theorem realSecs_fromTicks (ticks : ℤ) (tickRate : ℚ) :
    (fromTicks ticks tickRate).realSecs = ticks / tickRate := by
  rw [fromTicks, realSecs_init]
  by_cases h : tickRate = 0
  · have hzero : truncInt 0 = 0 := by rw [truncInt, if_pos le_rfl, Int.floor_zero]
    rw [h, hzero, Int.tdiv_zero, div_zero, div_zero, Int.cast_zero, add_zero]
  · push_cast
    field_simp
    ring

theorem ext_of_realSecs {t u : TimeSpec} (h : t.realSecs = u.realSecs) : t = u := by
  have hfloor : ∀ v : TimeSpec, ⌊v.realSecs⌋ = v.fullSecs := fun v => by
    rw [realSecs, Int.floor_intCast_add,
      Int.floor_eq_zero_iff.mpr ⟨v.fracSecs_nonneg, v.fracSecs_lt_one⟩, add_zero]
  have hfull : t.fullSecs = u.fullSecs := by rw [← hfloor t, ← hfloor u, h]
  have hfrac : t.fracSecs = u.fracSecs := by
    rw [realSecs, realSecs, hfull] at h
    exact add_left_cancel h
  cases t
  cases u
  congr

end TimeSpec
end UhdHost
