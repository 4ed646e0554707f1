import Mathlib.Data.List.Chain
import Mathlib.Data.List.Sort
import Mathlib.Data.Rat.Defs
import Mathlib.Algebra.Order.Ring.Rat
import UhdHost.Types.Exception

/-!
# Ranges of values

`range_t` and `meta_range_t` of `uhd/types/ranges.hpp`, over the rationals.  A range runs from a
start to a stop that is not less; the constructor refuses anything else.  A meta range is a list of
ranges, and *monotonic* if no range begins before the one before it ends.

Most of what can be asked of a meta range throws if it is empty or not monotonic.  `clip` is modelled
as it is called, without the steps.
-/

namespace UhdHost

/-- `range_t` -/
structure Range where
  start : ℚ
  stop : ℚ
  step : ℚ := 0
  le : start ≤ stop
  deriving DecidableEq

/-- The constructor of `range_t`. -/
def Range.make (start stop step : ℚ) : Except UhdError Range :=
  if h : stop < start then .error (.valueError "cannot make range where stop < start")
  else .ok ⟨start, stop, step, not_lt.mp h⟩

/-- `meta_range_t` -/
abbrev MetaRange := List Range

namespace MetaRange

/-- No range of the list begins before the one before it ends. -/
def Monotonic (mr : MetaRange) : Prop := mr.IsChain fun a b => a.stop ≤ b.start

instance (mr : MetaRange) : Decidable (Monotonic mr) :=
  inferInstanceAs (Decidable (mr.IsChain fun a b => a.stop ≤ b.start))

/-- `check_meta_range_monotonic` -/
def checkMonotonic (mr : MetaRange) : Except UhdError Unit :=
  if mr = [] then .error (.valueError "meta-range cannot be empty")
  else if Monotonic mr then .ok ()
  else .error (.valueError "meta-range is not monotonic")

/-- The loop of `as_monotonic` that merges what overlaps, from a range on. -/
def mergeOverlapping (range : Range) : MetaRange → MetaRange
  | [] => [range]
  | next :: rest =>
    if next.start < range.stop then
      mergeOverlapping ⟨range.start, max range.stop next.stop, 0,
        range.le.trans (le_max_left _ _)⟩ rest
    else range :: mergeOverlapping next rest

/-- `as_monotonic` -/
def asMonotonic (mr : MetaRange) : Except UhdError MetaRange :=
  match checkMonotonic mr with
  | .ok () => .ok mr
  | .error _ =>
    if mr.any fun range => range.step ≠ 0 then
      .error (.valueError
        "Cannot monotonize meta_range which contains non-continuous subranges")
    else
      match mr.mergeSort fun a b => a.start ≤ b.start with
      | [] => .ok []
      | first :: rest => .ok (mergeOverlapping first rest)

/-- `start` -/
def start (mr : MetaRange) : Except UhdError ℚ :=
  match checkMonotonic mr with
  | .error e => .error e
  | .ok () => .ok ((mr.map Range.start).foldl min ((mr.map Range.start).headD 0))

/-- `stop` -/
def stop (mr : MetaRange) : Except UhdError ℚ :=
  match checkMonotonic mr with
  | .error e => .error e
  | .ok () => .ok ((mr.map Range.stop).foldl max ((mr.map Range.stop).headD 0))

/-- The steps that `step` collects: those of the ranges, and those between them. -/
def nonZeroSteps (last : ℚ) : MetaRange → List ℚ
  | [] => []
  | r :: rest =>
    (if 0 < r.step then [r.step] else []) ++
      ((if 0 < r.start - last then [r.start - last] else []) ++ nonZeroSteps r.stop rest)

/-- `step` -/
def step (mr : MetaRange) : Except UhdError ℚ :=
  match checkMonotonic mr with
  | .error e => .error e
  | .ok () =>
    match nonZeroSteps ((mr.map Range.stop).headD 0) mr with
    | [] => .ok 0
    | first :: rest => .ok (rest.foldl min first)

/-- The loop of `clip`, with where the range before it ends. -/
def clipFrom (value lastStop : ℚ) : MetaRange → ℚ
  | [] => lastStop
  | r :: rest =>
    if value < r.start then
      if |value - r.start| < |value - lastStop| then r.start else lastStop
    else if value ≤ r.stop then value
    else clipFrom value r.stop rest

/-- `clip` -/
def clip (mr : MetaRange) (value : ℚ) : Except UhdError ℚ :=
  match checkMonotonic mr with
  | .error e => .error e
  | .ok () => .ok (clipFrom value ((mr.map Range.stop).headD 0) mr)

/-! ## What is checked -/

theorem checkMonotonic_eq_ok {mr : MetaRange} :
    checkMonotonic mr = .ok () ↔ mr ≠ [] ∧ Monotonic mr := by
  rw [checkMonotonic]
  split_ifs with hempty hmono
  · exact iff_of_false (by simp) fun h => h.1 hempty
  · exact iff_of_true rfl ⟨hempty, hmono⟩
  · exact iff_of_false (by simp) fun h => hmono h.2

theorem check_of_clip {mr : MetaRange} {value c : ℚ} (h : clip mr value = .ok c) :
    checkMonotonic mr = .ok () := by
  rw [clip] at h
  split at h
  · cases h
  · assumption

theorem asMonotonic_of_check {mr : MetaRange} (h : checkMonotonic mr = .ok ()) :
    asMonotonic mr = .ok mr := by
  rw [asMonotonic, h]

end MetaRange
end UhdHost
