import Mathlib
import UhdHost.Types.Dict
import UhdHost.Types.Exception
import UhdHost.Types.TimeSpec

/-!
# Groups of gains

`gain_group_impl` (`gain_group.cpp`): an overall gain is handed out to the stages in two passes, by
priority on the grid of the largest step, and then, the stages with large steps first, on the grid
of each stage.  What is left to distribute is updated after each rounding.

* `floorStep_le`, `lt_floorStep_add`: how far the rounding goes.  It is downwards for what is not
  negative only.
* `Filled`: what the second pass keeps, `Filled.addGain`: in one step.
* `right_of_roundsInside`: when the gains are as they should be.

The names of the stages, and the gain of a single one, are left out.
-/

namespace UhdHost
namespace GainGroup

/-! ## Rounding -/

/-- `floor_step`, with the inaccuracy that it has if none is given -/
def floorStep (num step : ℚ) : ℚ :=
  if num < 0 then step * truncInt (num / step - 1 / 1000)
  else step * truncInt (num / step + 1 / 1000)

/-- `uhd::clip` -/
def clip (val bound1 bound2 : ℚ) : ℚ :=
  if val < min bound1 bound2 then min bound1 bound2
  else if max bound1 bound2 < val then max bound1 bound2
  else val

/-- It is a multiple of the step. -/
def Multiple (x step : ℚ) : Prop := ∃ z : ℤ, x = z * step

namespace Multiple

variable {x y step : ℚ}

theorem add (hx : Multiple x step) (hy : Multiple y step) : Multiple (x + y) step := by
  obtain ⟨m, rfl⟩ := hx
  obtain ⟨n, rfl⟩ := hy
  exact ⟨m + n, by push_cast; ring⟩

theorem sub (hx : Multiple x step) (hy : Multiple y step) : Multiple (x - y) step := by
  obtain ⟨m, rfl⟩ := hx
  obtain ⟨n, rfl⟩ := hy
  exact ⟨m - n, by push_cast; ring⟩

theorem trans {large : ℚ} (hx : Multiple x large) (h : Multiple large step) : Multiple x step := by
  obtain ⟨m, rfl⟩ := hx
  obtain ⟨n, rfl⟩ := h
  exact ⟨m * n, by push_cast; ring⟩

end Multiple

section FloorStep

variable {num step : ℚ}

theorem floorStep_of_nonneg (hstep : 0 < step) (h : 0 ≤ num) :
    floorStep num step = step * ⌊num / step + 1 / 1000⌋ := by
  have hpos : 0 ≤ num / step + 1 / 1000 := by positivity
  rw [floorStep, if_neg (not_lt.mpr h), truncInt, if_pos hpos]

theorem floorStep_of_neg (hstep : 0 < step) (h : num < 0) :
    floorStep num step = step * ⌈num / step - 1 / 1000⌉ := by
  have hneg : num / step < 0 := div_neg_of_neg_of_pos h hstep
  rw [floorStep, if_pos h, truncInt, if_neg (by linarith)]

theorem multiple_floorStep (num step : ℚ) : Multiple (floorStep num step) step := by
  rw [floorStep]
  split_ifs
  · exact ⟨_, mul_comm _ _⟩
  · exact ⟨_, mul_comm _ _⟩

theorem floorStep_of_multiple (hstep : 0 < step) (h : Multiple num step) :
    floorStep num step = num := by
  obtain ⟨z, rfl⟩ := h
  have hdiv : (z : ℚ) * step / step = z := mul_div_cancel_right₀ _ hstep.ne'
  rcases le_or_gt 0 ((z : ℚ) * step) with hpos | hneg
  · have hfloor : ⌊(z : ℚ) + 1 / 1000⌋ = z := by
      rw [Int.floor_eq_iff]
      constructor <;> linarith
    rw [floorStep_of_nonneg hstep hpos, hdiv, hfloor, mul_comm]
  · have hceil : ⌈(z : ℚ) - 1 / 1000⌉ = z := by
      rw [Int.ceil_eq_iff]
      constructor <;> linarith
    rw [floorStep_of_neg hstep hneg, hdiv, hceil, mul_comm]

theorem floorStep_nonneg (hstep : 0 < step) (h : 0 ≤ num) : 0 ≤ floorStep num step := by
  rw [floorStep_of_nonneg hstep h]
  have hfloor : (0 : ℚ) ≤ ⌊num / step + 1 / 1000⌋ :=
    Int.cast_nonneg (Int.floor_nonneg.mpr (by positivity))
  exact mul_nonneg hstep.le hfloor

theorem floorStep_nonpos (hstep : 0 < step) (h : num < 0) : floorStep num step ≤ 0 := by
  have hneg : num / step < 0 := div_neg_of_neg_of_pos h hstep
  rw [floorStep_of_neg hstep h]
  have hceil : ((⌈num / step - 1 / 1000⌉ : ℤ) : ℚ) ≤ 0 := by
    rw [← Int.cast_zero, Int.cast_le, Int.ceil_le, Int.cast_zero]
    linarith
  exact mul_nonpos_of_nonneg_of_nonpos hstep.le hceil

theorem floorStep_le (hstep : 0 < step) (h : 0 ≤ num) : floorStep num step ≤ num + step / 1000 := by
  have hfloor := Int.floor_le (num / step + 1 / 1000)
  rw [floorStep_of_nonneg hstep h]
  calc step * (⌊num / step + 1 / 1000⌋ : ℚ) ≤ step * (num / step + 1 / 1000) :=
        mul_le_mul_of_nonneg_left hfloor hstep.le
    _ = num + step / 1000 := by field_simp

theorem lt_floorStep_add (hstep : 0 < step) : num < floorStep num step + step := by
  rcases le_or_gt 0 num with h | h
  · have hfloor := Int.lt_floor_add_one (num / step + 1 / 1000)
    have hlt : num + step / 1000 < floorStep num step + step := by
      rw [floorStep_of_nonneg hstep h]
      calc num + step / 1000 = step * (num / step + 1 / 1000) := by field_simp
        _ < step * (⌊num / step + 1 / 1000⌋ + 1) := mul_lt_mul_of_pos_left hfloor hstep
        _ = step * ⌊num / step + 1 / 1000⌋ + step := by ring
    linarith [div_pos hstep (by norm_num : (0 : ℚ) < 1000)]
  · have hceil := Int.le_ceil (num / step - 1 / 1000)
    have hle : num - step / 1000 ≤ floorStep num step := by
      rw [floorStep_of_neg hstep h]
      calc num - step / 1000 = step * (num / step - 1 / 1000) := by field_simp
        _ ≤ step * ⌈num / step - 1 / 1000⌉ := mul_le_mul_of_nonneg_left hceil hstep.le
    linarith

theorem floorStep_mono (hstep : 0 < step) {x y : ℚ} (h : x ≤ y) :
    floorStep x step ≤ floorStep y step := by
  have hdiv : x / step ≤ y / step := div_le_div_of_nonneg_right h hstep.le
  rcases le_or_gt 0 x with hx | hx
  · rw [floorStep_of_nonneg hstep hx, floorStep_of_nonneg hstep (hx.trans h)]
    exact mul_le_mul_of_nonneg_left (Int.cast_le.mpr (Int.floor_le_floor (by linarith))) hstep.le
  · rcases le_or_gt 0 y with hy | hy
    · exact (floorStep_nonpos hstep hx).trans (floorStep_nonneg hstep hy)
    · rw [floorStep_of_neg hstep hx, floorStep_of_neg hstep hy]
      exact mul_le_mul_of_nonneg_left (Int.cast_le.mpr (Int.ceil_le_ceil (by linarith))) hstep.le

theorem floorStep_eq_zero (hstep : 0 < step) (h : num < 0) (hle : -(step / 1000) ≤ num) :
    floorStep num step = 0 := by
  have hdiv : -(1 / 1000) ≤ num / step := by
    rw [le_div_iff₀ hstep]
    linarith
  have hneg : num / step < 0 := div_neg_of_neg_of_pos h hstep
  have hceil : ⌈num / step - 1 / 1000⌉ = 0 := by
    rw [Int.ceil_eq_iff, Int.cast_zero]
    constructor <;> linarith
  rw [floorStep_of_neg hstep h, hceil, Int.cast_zero, mul_zero]

end FloorStep

section Clip

variable {val start stop : ℚ}

theorem clip_of_lt (h : start ≤ stop) (hval : val < start) : clip val start stop = start := by
  rw [clip, min_eq_left h, if_pos hval]

theorem clip_of_gt (h : start ≤ stop) (hval : stop < val) : clip val start stop = stop := by
  rw [clip, min_eq_left h, max_eq_right h, if_neg (not_lt.mpr (h.trans hval.le)), if_pos hval]

theorem clip_of_mem (h : start ≤ stop) (hstart : start ≤ val) (hstop : val ≤ stop) :
    clip val start stop = val := by
  rw [clip, min_eq_left h, max_eq_right h, if_neg (not_lt.mpr hstart), if_neg (not_lt.mpr hstop)]

theorem clip_mem (h : start ≤ stop) (val : ℚ) :
    start ≤ clip val start stop ∧ clip val start stop ≤ stop := by
  rcases lt_or_ge val start with hlt | hge
  · rw [clip_of_lt h hlt]
    exact ⟨le_rfl, h⟩
  · rcases lt_or_ge stop val with hgt | hle
    · rw [clip_of_gt h hgt]
      exact ⟨h, le_rfl⟩
    · rw [clip_of_mem h hge hle]
      exact ⟨hge, hle⟩

end Clip

/-! ## The group -/

/-- The range that a `gain_fcns_t` has. -/
structure GainFcns where
  start : ℚ
  stop : ℚ
  step : ℚ
  /-- `range_t` throws otherwise. -/
  start_le_stop : start ≤ stop

/-- `gain_group_impl` -/
structure Group where
  /-- `_registry` -/
  registry : Dict ℕ (List GainFcns)

namespace Group

/-- `register_fcns` -/
def registerFcns (g : Group) (gainFcns : GainFcns) (priority : ℕ) : Group :=
  ⟨g.registry.set priority (g.registry.getD priority [] ++ [gainFcns])⟩

/-- `get_all_fcns`, highest priority first -/
def allFcns (g : Group) : List GainFcns :=
  (g.registry.keys.insertionSort (· ≤ ·)).foldl
    (fun all key => g.registry.getD key [] ++ all) []

end Group

/-- The start, the stop and the step of `get_range`. -/
def getRange (fcns : List GainFcns) : ℚ × ℚ × ℚ :=
  fcns.foldl (fun r f => (r.1 + f.start, r.2.1 + f.stop,
    if r.2.2 = 0 then f.step else if f.step ≠ 0 then min r.2.2 f.step else r.2.2)) (0, 0, 0)

/-- `max_step` -/
def maxStep (fcns : List GainFcns) : ℚ := fcns.foldl (fun m f => max m f.step) 0

/-- `gain_bucket` and `gain_left_to_distribute` -/
structure Bucket (n : ℕ) where
  gains : Fin n → ℚ
  left : ℚ

/-- The first pass, for one stage: `push_back` of its gain. -/
def pushBack (fcns : List GainFcns) (s : Bucket fcns.length) (i : Fin fcns.length) :
    Bucket fcns.length :=
  let gain := floorStep (clip s.left (fcns.get i).start (fcns.get i).stop) (maxStep fcns)
  ⟨Function.update s.gains i gain, s.left - gain⟩

/-- The second pass, for one stage. -/
def addGain (fcns : List GainFcns) (s : Bucket fcns.length) (i : Fin fcns.length) :
    Bucket fcns.length :=
  let additional := floorStep (clip (s.gains i + s.left) (fcns.get i).start (fcns.get i).stop)
    (fcns.get i).step - s.gains i
  ⟨Function.update s.gains i (s.gains i + additional), s.left - additional⟩

/-- The bucket after the first pass. -/
def firstPass (fcns : List GainFcns) (gain : ℚ) : Bucket fcns.length :=
  (List.finRange fcns.length).foldl (pushBack fcns) ⟨fun _ => 0, gain⟩

/-- `set_value` for the overall gain: what is written to each of the stages.  `order` is
`indexes_step_size_dec`. -/
def setValue (fcns : List GainFcns) (order : List (Fin fcns.length)) (gain : ℚ) :
    Except UhdError (Fin fcns.length → ℚ) :=
  match order.head?, order.getLast? with
  | some front, some back =>
    if (fcns.get front).step ≥ (fcns.get back).step then
      .ok (order.foldl (addGain fcns) (firstPass fcns gain)).gains
    else .error (.assertionError ("all_fcns.at(indexes_step_size_dec.front()).get_range().step() >= "
      ++ "all_fcns.at(indexes_step_size_dec.back()).get_range().step()"))
  -- there is nothing to set
  | _, _ => .ok fun _ => 0

/-- What `std::sort` makes of the indices: those of stages with the same step are in any order. -/
structure BySize (fcns : List GainFcns) (order : List (Fin fcns.length)) : Prop where
  perm : order.Perm (List.finRange fcns.length)
  sorted : order.Pairwise fun i j => (fcns.get j).step ≤ (fcns.get i).step

/-! ## What is claimed -/

/-- The steps are positive, and the ranges start and stop on their grid. -/
def Regular (fcns : List GainFcns) : Prop :=
  ∀ f ∈ fcns, 0 < f.step ∧ Multiple f.start f.step ∧ Multiple f.stop f.step

/-- The overall gain is in the overall range. -/
def InRange (fcns : List GainFcns) (gain : ℚ) : Prop :=
  (getRange fcns).1 ≤ gain ∧ gain ≤ (getRange fcns).2.1

/-- The values that are written are in their ranges and on their grids; their sum is not larger
than what was asked for; and none of them could be raised. -/
structure Right (fcns : List GainFcns) (gain : ℚ) (values : Fin fcns.length → ℚ) : Prop where
  onGrid : ∀ i, ((fcns.get i).start ≤ values i ∧ values i ≤ (fcns.get i).stop) ∧
    Multiple (values i) (fcns.get i).step
  sum_le : ∑ i, values i ≤ gain + maxStep fcns / 1000
  full : ∀ i, values i + (fcns.get i).step ≤ (fcns.get i).stop →
    gain < ∑ j, values j + (fcns.get i).step

/-- The ends of the ranges stay inside when they are rounded to the largest step. -/
def RoundsInside (fcns : List GainFcns) : Prop :=
  ∀ f ∈ fcns, f.start ≤ floorStep f.start (maxStep fcns) ∧ floorStep f.stop (maxStep fcns) ≤ f.stop

/-- Nothing negative is rounded: the gain is not negative, and all the ranges have zero in them. -/
def NonNegative (fcns : List GainFcns) (gain : ℚ) : Prop :=
  0 ≤ gain ∧ ∀ f ∈ fcns, f.start ≤ 0 ∧ 0 ≤ f.stop

/-- Where a range has negative gains, its step divides what is asked for, and all the larger
steps. -/
def OnGrid (fcns : List GainFcns) (gain : ℚ) : Prop :=
  ∀ f ∈ fcns, f.start < 0 →
    Multiple gain f.step ∧ ∀ g ∈ fcns, f.step ≤ g.step → Multiple g.step f.step

/-! ## The overall range and the largest step -/

section Folds

variable {fcns : List GainFcns}

theorem getRange_eq (fcns : List GainFcns) :
    (getRange fcns).1 = (fcns.map GainFcns.start).sum ∧
      (getRange fcns).2.1 = (fcns.map GainFcns.stop).sum := by
  have hfold : ∀ (fcns : List GainFcns) (r : ℚ × ℚ × ℚ),
      (fcns.foldl (fun r f => (r.1 + f.start, r.2.1 + f.stop,
        if r.2.2 = 0 then f.step else if f.step ≠ 0 then min r.2.2 f.step else r.2.2)) r).1 =
          r.1 + (fcns.map GainFcns.start).sum ∧
      (fcns.foldl (fun r f => (r.1 + f.start, r.2.1 + f.stop,
        if r.2.2 = 0 then f.step else if f.step ≠ 0 then min r.2.2 f.step else r.2.2)) r).2.1 =
          r.2.1 + (fcns.map GainFcns.stop).sum := by
    intro fcns
    induction fcns with
    | nil => exact fun r => ⟨(add_zero _).symm, (add_zero _).symm⟩
    | cons f fcns ih =>
      intro r
      obtain ⟨hstart, hstop⟩ := ih (r.1 + f.start, r.2.1 + f.stop,
        if r.2.2 = 0 then f.step else if f.step ≠ 0 then min r.2.2 f.step else r.2.2)
      rw [List.foldl_cons, hstart, hstop, List.map_cons, List.map_cons, List.sum_cons,
        List.sum_cons, add_assoc, add_assoc]
      exact ⟨rfl, rfl⟩
  obtain ⟨hstart, hstop⟩ := hfold fcns (0, 0, 0)
  rw [getRange, hstart, hstop]
  exact ⟨zero_add _, zero_add _⟩

theorem sum_get (fcns : List GainFcns) (value : GainFcns → ℚ) :
    ∑ i, value (fcns.get i) = (fcns.map value).sum := by
  have hmap : List.ofFn (value ∘ fcns.get) = fcns.map value := by
    rw [← List.map_ofFn, List.ofFn_get]
  rw [← List.sum_ofFn]
  exact congrArg List.sum hmap

theorem maxStep_spec (h : fcns ≠ []) (hpos : ∀ f ∈ fcns, 0 < f.step) :
    (∃ g ∈ fcns, maxStep fcns = g.step) ∧ ∀ f ∈ fcns, f.step ≤ maxStep fcns := by
  have hfold : ∀ (fcns : List GainFcns) (m : ℚ),
      (fcns.foldl (fun m f => max m f.step) m = m ∨
        ∃ g ∈ fcns, fcns.foldl (fun m f => max m f.step) m = g.step) ∧
      m ≤ fcns.foldl (fun m f => max m f.step) m ∧
      ∀ f ∈ fcns, f.step ≤ fcns.foldl (fun m f => max m f.step) m := by
    intro fcns
    induction fcns with
    | nil => exact fun m => ⟨Or.inl rfl, le_rfl, fun f hf => absurd hf List.not_mem_nil⟩
    | cons f fcns ih =>
      intro m
      obtain ⟨hmax, hle, hall⟩ := ih (max m f.step)
      rw [List.foldl_cons]
      refine ⟨?_, (le_max_left _ _).trans hle, fun g hg => ?_⟩
      · rcases hmax with hmax | ⟨g, hg, hmax⟩
        · rcases max_choice m f.step with hm | hf
          · exact Or.inl (hmax.trans hm)
          · exact Or.inr ⟨f, List.mem_cons_self, hmax.trans hf⟩
        · exact Or.inr ⟨g, List.mem_cons_of_mem f hg, hmax⟩
      · rcases List.mem_cons.mp hg with rfl | hg
        · exact (le_max_right _ _).trans hle
        · exact hall g hg
  obtain ⟨hmax, -, hall⟩ := hfold fcns 0
  refine ⟨hmax.resolve_left fun hzero => ?_, hall⟩
  obtain ⟨f, hf⟩ := List.exists_mem_of_ne_nil fcns h
  exact absurd (hall f hf) (not_le.mpr (hzero.trans_lt (hpos f hf)))

end Folds

/-! ## The first pass -/

section Passes

variable {fcns : List GainFcns} {gain : ℚ} {s : Bucket fcns.length} {rest : List (Fin fcns.length)}
  {i : Fin fcns.length}

theorem sum_update (gains : Fin fcns.length → ℚ) (i : Fin fcns.length) (value : ℚ) :
    ∑ j, Function.update gains i value j = ∑ j, gains j + (value - gains i) := by
  rw [Finset.sum_update_of_mem (Finset.mem_univ i),
    ← Finset.add_sum_erase Finset.univ gains (Finset.mem_univ i), Finset.sdiff_singleton_eq_erase]
  ring

/-- What the first pass keeps, with the stages that are still to come. -/
structure Pushed (fcns : List GainFcns) (gain : ℚ) (rest : List (Fin fcns.length))
    (s : Bucket fcns.length) : Prop where
  sum : ∑ i, s.gains i + s.left = gain
  zero : ∀ i ∈ rest, s.gains i = 0
  rounded : ∀ i ∉ rest, ∃ x,
    s.gains i = floorStep (clip x (fcns.get i).start (fcns.get i).stop) (maxStep fcns)

theorem Pushed.pushBack (h : Pushed fcns gain (i :: rest) s) (hi : i ∉ rest) :
    Pushed fcns gain rest (pushBack fcns s i) := by
  refine ⟨?_, fun j hj => ?_, fun j hj => ?_⟩
  · show ∑ j, Function.update s.gains i _ j + (s.left - _) = gain
    rw [sum_update, h.zero i List.mem_cons_self, ← h.sum]
    ring
  · have hne : j ≠ i := fun heq => hi (heq ▸ hj)
    exact (Function.update_of_ne hne _ s.gains).trans (h.zero j (List.mem_cons_of_mem i hj))
  · rcases eq_or_ne j i with rfl | hne
    · exact ⟨s.left, Function.update_self _ _ _⟩
    · obtain ⟨x, hx⟩ := h.rounded j fun hmem => (List.mem_cons.mp hmem).elim hne hj
      exact ⟨x, (Function.update_of_ne hne _ s.gains).trans hx⟩

theorem foldl_pass {I : List (Fin fcns.length) → Bucket fcns.length → Prop}
    {turn : Bucket fcns.length → Fin fcns.length → Bucket fcns.length}
    {R : Fin fcns.length → Fin fcns.length → Prop}
    (hturn : ∀ i rest s, (i :: rest).Nodup → (∀ j ∈ rest, R i j) → I (i :: rest) s →
      I rest (turn s i)) {rest : List (Fin fcns.length)} (hnodup : rest.Nodup)
    (hsorted : rest.Pairwise R) {s : Bucket fcns.length} (hs : I rest s) :
    I [] (rest.foldl turn s) := by
  induction rest generalizing s with
  | nil => exact hs
  | cons i rest ih =>
    obtain ⟨hfirst, hsorted⟩ := List.pairwise_cons.mp hsorted
    exact ih (List.nodup_cons.mp hnodup).2 hsorted (hturn i rest s hnodup hfirst hs)

theorem pushed_firstPass (fcns : List GainFcns) (gain : ℚ) :
    Pushed fcns gain [] (firstPass fcns gain) := by
  refine foldl_pass (R := fun _ _ => True) (fun i rest s hnodup _ h =>
    h.pushBack (List.nodup_cons.mp hnodup).1) (List.nodup_finRange _)
    (List.pairwise_of_forall fun _ _ => trivial) ⟨?_, fun _ _ => rfl, fun i hi => ?_⟩
  · rw [Finset.sum_const_zero, zero_add]
  · exact absurd (List.mem_finRange i) hi

theorem gains_firstPass (hpos : 0 < maxStep fcns) (hinside : RoundsInside fcns)
    (i : Fin fcns.length) :
    ((fcns.get i).start ≤ (firstPass fcns gain).gains i ∧
      (firstPass fcns gain).gains i ≤ (fcns.get i).stop) ∧
      Multiple ((firstPass fcns gain).gains i) (maxStep fcns) := by
  obtain ⟨x, hx⟩ := (pushed_firstPass fcns gain).rounded i List.not_mem_nil
  obtain ⟨hstart, hstop⟩ := hinside (fcns.get i) (List.get_mem fcns i)
  obtain ⟨hge, hle⟩ := clip_mem (fcns.get i).start_le_stop x
  rw [hx]
  exact ⟨⟨hstart.trans (floorStep_mono hpos hge), (floorStep_mono hpos hle).trans hstop⟩,
    multiple_floorStep _ _⟩

/-- Nothing more than the inaccuracy is taken away, where nothing is negative. -/
structure NotOverdrawn (fcns : List GainFcns) (stages : Fin fcns.length → Prop)
    (s : Bucket fcns.length) : Prop where
  left : -(maxStep fcns / 1000) ≤ s.left
  gains : ∀ i, stages i → 0 ≤ s.gains i

theorem floorStep_clip_left {f : GainFcns} {left : ℚ} (hpos : 0 < maxStep fcns)
    (hzero : f.start ≤ 0 ∧ 0 ≤ f.stop) (hleft : -(maxStep fcns / 1000) ≤ left) :
    0 ≤ floorStep (clip left f.start f.stop) (maxStep fcns) ∧
      -(maxStep fcns / 1000) ≤ left - floorStep (clip left f.start f.stop) (maxStep fcns) := by
  rcases lt_or_ge left 0 with hneg | hge
  · -- what is missing is less than the inaccuracy
    have hclip : clip left f.start f.stop < 0 ∧ -(maxStep fcns / 1000) ≤ clip left f.start f.stop ∨
        clip left f.start f.stop = 0 := by
      rcases lt_or_ge left f.start with hlt | hstart
      · rw [clip_of_lt f.start_le_stop hlt]
        rcases hzero.1.lt_or_eq with hlt' | heq
        · exact Or.inl ⟨hlt', hleft.trans hlt.le⟩
        · exact Or.inr heq
      · rw [clip_of_mem f.start_le_stop hstart (hneg.le.trans hzero.2)]
        exact Or.inl ⟨hneg, hleft⟩
    have hfloor : floorStep (clip left f.start f.stop) (maxStep fcns) = 0 := by
      rcases hclip with ⟨hlt, hle⟩ | heq
      · exact floorStep_eq_zero hpos hlt hle
      · rw [heq]
        exact floorStep_of_multiple hpos ⟨0, by rw [Int.cast_zero, zero_mul]⟩
    rw [hfloor, sub_zero]
    exact ⟨le_rfl, hleft⟩
  · have hclip : 0 ≤ clip left f.start f.stop ∧ clip left f.start f.stop ≤ left := by
      rcases lt_or_ge f.stop left with hgt | hle
      · rw [clip_of_gt f.start_le_stop hgt]
        exact ⟨hzero.2, hgt.le⟩
      · rw [clip_of_mem f.start_le_stop (hzero.1.trans hge) hle]
        exact ⟨hge, le_rfl⟩
    have hfloor := floorStep_le hpos hclip.1
    exact ⟨floorStep_nonneg hpos hclip.1, by linarith [hclip.2]⟩

theorem notOverdrawn_firstPass (hpos : 0 < maxStep fcns) (h : NonNegative fcns gain) :
    NotOverdrawn fcns (fun _ => True) (firstPass fcns gain) := by
  have hpass : NotOverdrawn fcns (· ∉ []) (firstPass fcns gain) := by
    refine foldl_pass (I := fun rest s => NotOverdrawn fcns (· ∉ rest) s) (R := fun _ _ => True)
      (fun i rest s _ _ hs => ?_) (List.nodup_finRange _)
      (List.pairwise_of_forall fun _ _ => trivial) ⟨?_, fun i hi => ?_⟩
    · obtain ⟨hnonneg, hleft⟩ := floorStep_clip_left hpos (h.2 _ (List.get_mem fcns i)) hs.left
      refine ⟨hleft, fun j hj => ?_⟩
      rcases eq_or_ne j i with rfl | hne
      · show 0 ≤ Function.update s.gains j _ j
        rw [Function.update_self]
        exact hnonneg
      · show 0 ≤ Function.update s.gains i _ j
        rw [Function.update_of_ne hne]
        exact hs.gains j fun hmem => (List.mem_cons.mp hmem).elim hne hj
    · exact (neg_nonpos.mpr (by positivity)).trans h.1
    · exact absurd (List.mem_finRange i) hi
  exact ⟨hpass.left, fun i _ => hpass.gains i List.not_mem_nil⟩

/-! ## The second pass -/

/-- What the second pass keeps, with the stages that are still to come. -/
structure Filled (fcns : List GainFcns) (gain : ℚ) (rest : List (Fin fcns.length))
    (s : Bucket fcns.length) : Prop where
  sum : ∑ i, s.gains i + s.left = gain
  inside : ∀ i, (fcns.get i).start ≤ s.gains i ∧ s.gains i ≤ (fcns.get i).stop
  onGrid : ∀ i ∉ rest, Multiple (s.gains i) (fcns.get i).step
  full : ∀ i ∉ rest, s.gains i + (fcns.get i).step ≤ (fcns.get i).stop →
    s.left < (fcns.get i).step

/-- What a stage has after its turn. -/
def newGain (fcns : List GainFcns) (s : Bucket fcns.length) (i : Fin fcns.length) : ℚ :=
  floorStep (clip (s.gains i + s.left) (fcns.get i).start (fcns.get i).stop) (fcns.get i).step

theorem addGain_eq (s : Bucket fcns.length) (i : Fin fcns.length) :
    addGain fcns s i = ⟨Function.update s.gains i (newGain fcns s i),
      s.gains i + s.left - newGain fcns s i⟩ := by
  rw [addGain, ← newGain, add_sub_cancel, sub_sub_eq_add_sub, add_comm s.left]

theorem newGain_cases (hregular : Regular fcns) (s : Bucket fcns.length) (i : Fin fcns.length) :
    (s.gains i + s.left < (fcns.get i).start ∧ newGain fcns s i = (fcns.get i).start) ∨
      ((fcns.get i).stop < s.gains i + s.left ∧ newGain fcns s i = (fcns.get i).stop) ∨
      (((fcns.get i).start ≤ s.gains i + s.left ∧ s.gains i + s.left ≤ (fcns.get i).stop) ∧
        newGain fcns s i = floorStep (s.gains i + s.left) (fcns.get i).step) := by
  obtain ⟨hstep, hstart, hstop⟩ := hregular _ (List.get_mem fcns i)
  rw [newGain]
  rcases lt_or_ge (s.gains i + s.left) (fcns.get i).start with hlt | hge
  · rw [clip_of_lt (fcns.get i).start_le_stop hlt]
    exact Or.inl ⟨hlt, floorStep_of_multiple hstep hstart⟩
  · rcases lt_or_ge (fcns.get i).stop (s.gains i + s.left) with hgt | hle
    · rw [clip_of_gt (fcns.get i).start_le_stop hgt]
      exact Or.inr (Or.inl ⟨hgt, floorStep_of_multiple hstep hstop⟩)
    · rw [clip_of_mem (fcns.get i).start_le_stop hge hle]
      exact Or.inr (Or.inr ⟨⟨hge, hle⟩, rfl⟩)

theorem newGain_mem (hregular : Regular fcns) (s : Bucket fcns.length) (i : Fin fcns.length) :
    ((fcns.get i).start ≤ newGain fcns s i ∧ newGain fcns s i ≤ (fcns.get i).stop) ∧
      Multiple (newGain fcns s i) (fcns.get i).step := by
  obtain ⟨hstep, hstart, hstop⟩ := hregular _ (List.get_mem fcns i)
  obtain ⟨hge, hle⟩ := clip_mem (fcns.get i).start_le_stop (s.gains i + s.left)
  refine ⟨⟨?_, ?_⟩, multiple_floorStep _ _⟩
  · exact (floorStep_of_multiple hstep hstart).symm.trans_le (floorStep_mono hstep hge)
  · exact (floorStep_mono hstep hle).trans_eq (floorStep_of_multiple hstep hstop)

theorem Filled.addGain (hregular : Regular fcns) (h : Filled fcns gain (i :: rest) s)
    (hsorted : ∀ j ∉ i :: rest, (fcns.get i).step ≤ (fcns.get j).step) :
    Filled fcns gain rest (addGain fcns s i) := by
  obtain ⟨hmem, hgrid⟩ := newGain_mem hregular s i
  have hstep := (hregular _ (List.get_mem fcns i)).1
  have hleft : newGain fcns s i + (fcns.get i).step ≤ (fcns.get i).stop →
      s.gains i + s.left - newGain fcns s i < (fcns.get i).step := by
    intro hroom
    rcases newGain_cases hregular s i with ⟨hlt, heq⟩ | ⟨hgt, heq⟩ | ⟨-, heq⟩
    · rw [heq]
      linarith
    · rw [heq] at hroom
      linarith
    · rw [heq, sub_lt_iff_lt_add']
      exact lt_floorStep_add hstep
  have hleft_or : s.gains i + s.left - newGain fcns s i < (fcns.get i).step ∨
      s.gains i + s.left - newGain fcns s i ≤ s.left := by
    rcases newGain_cases hregular s i with ⟨hlt, heq⟩ | ⟨hgt, heq⟩ | ⟨-, heq⟩
    · rw [heq]
      exact Or.inl (by linarith)
    · rw [heq]
      exact Or.inr (by linarith [(h.inside i).2])
    · rw [heq, sub_lt_iff_lt_add']
      exact Or.inl (lt_floorStep_add hstep)
  rw [addGain_eq]
  refine ⟨?_, fun j => ?_, fun j hj => ?_, fun j hj hroom => ?_⟩
  · rw [sum_update, ← h.sum]
    ring
  all_goals dsimp only at *
  · rcases eq_or_ne j i with rfl | hne
    · rw [Function.update_self]
      exact hmem
    · rw [Function.update_of_ne hne]
      exact h.inside j
  · rcases eq_or_ne j i with rfl | hne
    · rw [Function.update_self]
      exact hgrid
    · rw [Function.update_of_ne hne]
      exact h.onGrid j fun hmem => (List.mem_cons.mp hmem).elim hne hj
  · rcases eq_or_ne j i with rfl | hne
    · rw [Function.update_self] at hroom
      exact hleft hroom
    · rw [Function.update_of_ne hne] at hroom
      have hdone : j ∉ i :: rest := fun hmem => (List.mem_cons.mp hmem).elim hne hj
      rcases hleft_or with hlt | hle
      · exact hlt.trans_le (hsorted j hdone)
      · exact hle.trans_lt (h.full j hdone hroom)

theorem neg_le_left_addGain (hregular : Regular fcns) (hpos : 0 < maxStep fcns)
    (hleft : -(maxStep fcns / 1000) ≤ s.left) (hinside : (fcns.get i).start ≤ s.gains i)
    (hround : (fcns.get i).start ≤ s.gains i + s.left → floorStep (s.gains i + s.left)
      (fcns.get i).step ≤ s.gains i + s.left + maxStep fcns / 1000) :
    -(maxStep fcns / 1000) ≤ (addGain fcns s i).left := by
  have htol : -(maxStep fcns / 1000) ≤ 0 := neg_nonpos.mpr (by positivity)
  rw [addGain_eq]
  dsimp only
  rcases newGain_cases hregular s i with ⟨hlt, heq⟩ | ⟨hgt, heq⟩ | ⟨⟨hge, -⟩, heq⟩
  · rw [heq]
    linarith
  · rw [heq]
    linarith
  · rw [heq]
    linarith [hround hge]

/-- No more than the inaccuracy was taken away, or the stages are as low as they can be. -/
def Low (fcns : List GainFcns) (rest : List (Fin fcns.length)) (s : Bucket fcns.length) : Prop :=
  -(maxStep fcns / 1000) ≤ s.left ∨ ∀ i ∉ rest, s.gains i = (fcns.get i).start

theorem Low.addGain (hregular : Regular fcns) (hpos : 0 < maxStep fcns) (h : Low fcns (i :: rest) s)
    (hinside : (fcns.get i).start ≤ s.gains i)
    (hround : (fcns.get i).start ≤ s.gains i + s.left → floorStep (s.gains i + s.left)
      (fcns.get i).step ≤ s.gains i + s.left + maxStep fcns / 1000) :
    Low fcns rest (addGain fcns s i) := by
  rcases h with hleft | hlow
  · exact Or.inl (neg_le_left_addGain hregular hpos hleft hinside hround)
  · rw [addGain_eq, Low]
    dsimp only
    have htol : -(maxStep fcns / 1000) ≤ 0 := neg_nonpos.mpr (by positivity)
    rcases newGain_cases hregular s i with ⟨-, heq⟩ | ⟨hgt, heq⟩ | ⟨⟨hge, -⟩, heq⟩
    · refine Or.inr fun j hj => ?_
      rcases eq_or_ne j i with rfl | hne
      · rw [Function.update_self, heq]
      · rw [Function.update_of_ne hne]
        exact hlow j fun hmem => (List.mem_cons.mp hmem).elim hne hj
    · rw [heq]
      exact Or.inl (by linarith)
    · rw [heq]
      exact Or.inl (by linarith [hround hge])

theorem floorStep_le_add_maxStep (hregular : Regular fcns)
    (hmax : ∀ f ∈ fcns, f.step ≤ maxStep fcns) (i : Fin fcns.length) {x : ℚ} (hx : 0 ≤ x) :
    floorStep x (fcns.get i).step ≤ x + maxStep fcns / 1000 := by
  have hle := floorStep_le (hregular _ (List.get_mem fcns i)).1 hx
  linarith [hmax _ (List.get_mem fcns i)]

theorem NotOverdrawn.addGain (hregular : Regular fcns) (hpos : 0 < maxStep fcns)
    (hmax : ∀ f ∈ fcns, f.step ≤ maxStep fcns) (hi : i ∉ rest)
    (h : NotOverdrawn fcns (· ∈ i :: rest) s) (hinside : (fcns.get i).start ≤ s.gains i) :
    NotOverdrawn fcns (· ∈ rest) (addGain fcns s i) := by
  refine ⟨neg_le_left_addGain hregular hpos h.left hinside fun _ => ?_, fun j hj => ?_⟩
  · rcases le_or_gt 0 (s.gains i + s.left) with hnonneg | hneg
    · exact floorStep_le_add_maxStep hregular hmax i hnonneg
    · have hzero := floorStep_nonpos (hregular _ (List.get_mem fcns i)).1 hneg
      linarith [h.left, h.gains i List.mem_cons_self]
  · rw [addGain_eq]
    dsimp only
    have hne : j ≠ i := fun heq => hi (heq ▸ hj)
    rw [Function.update_of_ne hne]
    exact h.gains j (List.mem_cons_of_mem i hj)

/-- What is left is on the grids of the stages with negative gains. -/
structure Aligned (fcns : List GainFcns) (rest : List (Fin fcns.length))
    (s : Bucket fcns.length) : Prop where
  left : ∀ i ∈ rest, (fcns.get i).start < 0 → Multiple s.left (fcns.get i).step
  gains : ∀ i ∈ rest, Multiple (s.gains i) (maxStep fcns)

theorem OnGrid.maxStep (h : OnGrid fcns gain) (hregular : Regular fcns) (i : Fin fcns.length)
    (hneg : (fcns.get i).start < 0) : Multiple (maxStep fcns) (fcns.get i).step := by
  have hmem := List.get_mem fcns i
  obtain ⟨⟨g, hg, hmax⟩, hle⟩ :=
    maxStep_spec (List.ne_nil_of_mem hmem) fun f hf => (hregular f hf).1
  rw [hmax]
  exact (h _ hmem hneg).2 g hg ((hle _ hmem).trans_eq hmax)

theorem aligned_firstPass (hregular : Regular fcns) (hpos : 0 < maxStep fcns)
    (hinside : RoundsInside fcns) (hgrid : OnGrid fcns gain) :
    Aligned fcns rest (firstPass fcns gain) := by
  refine ⟨fun i _ hneg => ?_, fun i _ => (gains_firstPass hpos hinside i).2⟩
  have hleft : (firstPass fcns gain).left = gain - ∑ j, (firstPass fcns gain).gains j :=
    eq_sub_of_add_eq' (pushed_firstPass fcns gain).sum
  rw [hleft]
  refine (hgrid _ (List.get_mem fcns i) hneg).1.sub (Finset.sum_induction _
    (Multiple · (fcns.get i).step) (fun _ _ => Multiple.add) ⟨0, ?_⟩ fun j _ => ?_)
  · rw [Int.cast_zero, zero_mul]
  · exact (gains_firstPass hpos hinside j).2.trans (hgrid.maxStep hregular i hneg)

theorem Aligned.addGain (hregular : Regular fcns) (hgrid : OnGrid fcns gain) (hi : i ∉ rest)
    (h : Aligned fcns (i :: rest) s)
    (hsorted : ∀ j ∈ rest, (fcns.get j).step ≤ (fcns.get i).step) :
    Aligned fcns rest (addGain fcns s i) := by
  rw [addGain_eq]
  refine ⟨fun j hj hneg => ?_, fun j hj => ?_⟩
  · have hgains := (h.gains i List.mem_cons_self).trans (hgrid.maxStep hregular j hneg)
    have hstep := (hgrid _ (List.get_mem fcns j) hneg).2 _ (List.get_mem fcns i) (hsorted j hj)
    exact (hgains.add (h.left j (List.mem_cons_of_mem i hj) hneg)).sub
      ((newGain_mem hregular s i).2.trans hstep)
  · dsimp only
    have hne : j ≠ i := fun heq => hi (heq ▸ hj)
    rw [Function.update_of_ne hne]
    exact h.gains j (List.mem_cons_of_mem i hj)

theorem Aligned.round (hregular : Regular fcns) (hgrid : OnGrid fcns gain)
    (hmax : ∀ f ∈ fcns, f.step ≤ maxStep fcns) (hpos : 0 < maxStep fcns)
    (h : Aligned fcns (i :: rest) s) (hge : (fcns.get i).start ≤ s.gains i + s.left) :
    floorStep (s.gains i + s.left) (fcns.get i).step ≤
      s.gains i + s.left + maxStep fcns / 1000 := by
  rcases le_or_gt 0 (s.gains i + s.left) with hnonneg | hneg
  · exact floorStep_le_add_maxStep hregular hmax i hnonneg
  · have hstart := hge.trans_lt hneg
    have hgains := (h.gains i List.mem_cons_self).trans (hgrid.maxStep hregular i hstart)
    rw [floorStep_of_multiple (hregular _ (List.get_mem fcns i)).1
      (hgains.add (h.left i List.mem_cons_self hstart))]
    exact le_add_of_nonneg_right (by positivity)

/-! ## Both passes -/

/-- What has had its turn has no smaller step than what has not. -/
def Ordered (fcns : List GainFcns) (rest : List (Fin fcns.length)) : Prop :=
  ∀ j ∉ rest, ∀ k ∈ rest, (fcns.get k).step ≤ (fcns.get j).step

theorem Ordered.tail (h : Ordered fcns (i :: rest))
    (hsorted : ∀ j ∈ rest, (fcns.get j).step ≤ (fcns.get i).step) : Ordered fcns rest := by
  intro j hj k hk
  rcases eq_or_ne j i with rfl | hne
  · exact hsorted k hk
  · exact h j (fun hmem => (List.mem_cons.mp hmem).elim hne hj) k (List.mem_cons_of_mem i hk)

variable {order : List (Fin fcns.length)}

theorem BySize.nodup (h : BySize fcns order) : order.Nodup :=
  h.perm.nodup_iff.mpr (List.nodup_finRange _)

theorem BySize.mem (h : BySize fcns order) (i : Fin fcns.length) : i ∈ order :=
  h.perm.mem_iff.mpr (List.mem_finRange i)

theorem BySize.ordered (h : BySize fcns order) : Ordered fcns order :=
  fun j hj => absurd (h.mem j) hj

theorem filled_secondPass (hregular : Regular fcns) (hpos : 0 < maxStep fcns)
    (hinside : RoundsInside fcns) (horder : BySize fcns order)
    {J : List (Fin fcns.length) → Bucket fcns.length → Prop}
    (hJ : ∀ i rest s, i ∉ rest → (∀ j ∈ rest, (fcns.get j).step ≤ (fcns.get i).step) →
      Filled fcns gain (i :: rest) s → J (i :: rest) s → J rest (addGain fcns s i))
    (hfirst : J order (firstPass fcns gain)) :
    Filled fcns gain [] (order.foldl (addGain fcns) (firstPass fcns gain)) ∧
      J [] (order.foldl (addGain fcns) (firstPass fcns gain)) := by
  have hpass : Ordered fcns [] ∧
      Filled fcns gain [] (order.foldl (addGain fcns) (firstPass fcns gain)) ∧
      J [] (order.foldl (addGain fcns) (firstPass fcns gain)) := by
    refine foldl_pass (I := fun rest s => Ordered fcns rest ∧ Filled fcns gain rest s ∧ J rest s)
      (fun i rest s hnodup hsorted hs => ?_) horder.nodup horder.sorted
      ⟨horder.ordered, ⟨(pushed_firstPass fcns gain).sum, fun i =>
        (gains_firstPass hpos hinside i).1, fun i hi => absurd (horder.mem i) hi,
        fun i hi => absurd (horder.mem i) hi⟩, hfirst⟩
    obtain ⟨hordered, hfilled, hs⟩ := hs
    have hi := (List.nodup_cons.mp hnodup).1
    exact ⟨hordered.tail hsorted, hfilled.addGain hregular fun j hj =>
      hordered j hj i List.mem_cons_self, hJ i rest s hi hsorted hfilled hs⟩
  exact hpass.2

theorem Filled.right (h : Filled fcns gain [] s) (hpos : 0 < maxStep fcns) (hlow : Low fcns [] s)
    (hrange : InRange fcns gain) : Right fcns gain s.gains := by
  refine ⟨fun i => ⟨h.inside i, h.onGrid i List.not_mem_nil⟩, ?_, fun i hroom => ?_⟩
  · rcases hlow with hleft | hlow
    · linarith [h.sum]
    · have hsum : ∑ i, s.gains i = (getRange fcns).1 := by
        rw [(getRange_eq fcns).1, ← sum_get]
        exact Finset.sum_congr rfl fun i _ => hlow i List.not_mem_nil
      have htol : 0 ≤ maxStep fcns / 1000 := by positivity
      linarith [hrange.1]
  · linarith [h.full i List.not_mem_nil hroom, h.sum]

theorem setValue_eq (horder : BySize fcns order) (hne : order ≠ []) :
    setValue fcns order gain = .ok (order.foldl (addGain fcns) (firstPass fcns gain)).gains := by
  obtain ⟨front, others, rfl⟩ := List.exists_cons_of_ne_nil hne
  have hlast : (front :: others).getLast? = some ((front :: others).getLast hne) :=
    List.getLast?_eq_some_getLast hne
  have hstep : (fcns.get ((front :: others).getLast hne)).step ≤ (fcns.get front).step := by
    rcases List.mem_cons.mp (List.getLast_mem hne) with heq | hmem
    · rw [heq]
    · exact (List.pairwise_cons.mp horder.sorted).1 _ hmem
  rw [setValue, List.head?_cons, hlast]
  exact if_pos hstep

end Passes

/-- One stage with gains from -10 to 0. -/
def attenuator : Group :=
  Group.registerFcns ⟨Dict.empty⟩ ⟨-10, 0, 1, by decide⟩ 0

theorem allFcns_attenuator : attenuator.allFcns = [⟨-10, 0, 1, by decide⟩] := rfl

theorem regular_attenuator : Regular attenuator.allFcns := by
  intro f hf
  rw [allFcns_attenuator, List.mem_singleton] at hf
  rw [hf]
  exact ⟨one_pos, ⟨-10, by norm_num⟩, ⟨0, by norm_num⟩⟩

theorem bySize_attenuator : BySize attenuator.allFcns [⟨0, Nat.one_pos⟩] :=
  ⟨List.Perm.refl _, List.pairwise_singleton _ _⟩

end GainGroup
end UhdHost
