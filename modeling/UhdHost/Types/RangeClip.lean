import Mathlib
import UhdHost.Types.RangeMerge

/-!
# Clipping to the steps of a range

`clip` of `lib/types/ranges.cpp` with `clip_step`: a value that lies in a range with steps is rounded
to the step grid of the range, which begins where the range does.  What the rounding gives is not
compared with anything again.  It is a point of the range if the length is a multiple of the step, and
otherwise it may be past the stop; and the stop itself, to which a value behind the range is clipped,
need not be on the grid.  The point of a neighbouring range may be nearer than the one on the grid.

`StepsFit` says which values are spared.  It goes by the place of the value: behind a range
(`EndsOnGrid`), before one, or inside (`FitsInside`).  `clip_iff_stepsFit` is that `clip` does what it
is for exactly then; without `clip_step` it always does.
-/

namespace UhdHost

/-- `std::round`: away from zero from the middle between two integers. -/
def stdRound (q : ℚ) : ℤ := if 0 ≤ q then ⌊q + 1 / 2⌋ else ⌈q - 1 / 2⌉

theorem stdRound_neg (q : ℚ) : stdRound (-q) = -stdRound q := by
  rcases lt_trichotomy q 0 with h | rfl | h
  · rw [stdRound, if_pos (by linarith), stdRound, if_neg (by linarith), ← Int.floor_neg]
    congr 1
    ring
  · rw [neg_zero, stdRound, if_pos le_rfl]
    norm_num
  · rw [stdRound, if_neg (by linarith), stdRound, if_pos h.le, ← Int.ceil_neg]
    congr 1
    ring

theorem stdRound_of_nonneg {q : ℚ} (hq : 0 ≤ q) :
    stdRound q = if q - ⌊q⌋ < 1 / 2 then ⌊q⌋ else ⌊q⌋ + 1 := by
  have hle := Int.floor_le q
  have hlt := Int.lt_floor_add_one q
  rw [stdRound, if_pos hq]
  split_ifs with h
  · rw [Int.floor_eq_iff]
    constructor <;> linarith
  · rw [Int.floor_eq_iff]
    push_cast
    constructor <;> linarith

namespace Range

variable {clipStep : Bool} {r : Range} {x value : ℚ}

/-- The value is on the step grid of the range, if the steps count and there are any. -/
def OnGrid (clipStep : Bool) (r : Range) (x : ℚ) : Prop :=
  clipStep = true → r.step ≠ 0 → ∃ k : ℤ, x = r.start + k * r.step

/-- The points of a range that can be chosen. -/
def Represents (clipStep : Bool) (r : Range) (x : ℚ) : Prop :=
  r.start ≤ x ∧ x ≤ r.stop ∧ r.OnGrid clipStep x

/-- The last point of the step grid that is not above a value. -/
def gridBelow (r : Range) (x : ℚ) : ℚ := r.start + ⌊(x - r.start) / |r.step|⌋ * |r.step|

/-- What `clip` makes of a value that lies in a range. -/
def clipWithin (clipStep : Bool) (value : ℚ) (r : Range) : ℚ :=
  if ¬ clipStep = true ∨ r.step = 0 then value
  else stdRound ((value - r.start) / r.step) * r.step + r.start

theorem OnGrid.start (clipStep : Bool) (r : Range) : r.OnGrid clipStep r.start :=
  fun _ _ => ⟨0, by simp⟩

theorem OnGrid.of_le_of_le (hstart : r.start ≤ x) (hx : x ≤ r.start) : r.OnGrid clipStep x :=
  le_antisymm hstart hx ▸ OnGrid.start clipStep r

theorem onGrid_iff_abs (hclip : clipStep = true) (hstep : r.step ≠ 0) :
    r.OnGrid clipStep x ↔ ∃ k : ℤ, x = r.start + k * |r.step| := by
  rw [OnGrid, forall_prop_of_true hclip, forall_prop_of_true hstep]
  rcases abs_choice r.step with habs | habs
  · rw [habs]
  · rw [habs]
    constructor
    · rintro ⟨k, rfl⟩
      exact ⟨-k, by push_cast; ring⟩
    · rintro ⟨k, rfl⟩
      exact ⟨-k, by push_cast; ring⟩

theorem onGrid_gridBelow (clipStep : Bool) (r : Range) (x : ℚ) (hstep : r.step ≠ 0) :
    r.OnGrid clipStep (r.gridBelow x) :=
  fun hclip _ => (onGrid_iff_abs hclip hstep).mpr ⟨_, rfl⟩ hclip hstep

theorem onGrid_gridBelow_add (clipStep : Bool) (r : Range) (x : ℚ) (hstep : r.step ≠ 0) :
    r.OnGrid clipStep (r.gridBelow x + |r.step|) :=
  fun hclip _ => (onGrid_iff_abs hclip hstep).mpr
    ⟨⌊(x - r.start) / |r.step|⌋ + 1, by rw [gridBelow]; push_cast; ring⟩ hclip hstep

theorem gridBelow_le_lt (hstep : r.step ≠ 0) :
    r.gridBelow x ≤ x ∧ x < r.gridBelow x + |r.step| := by
  have hpos : 0 < |r.step| := abs_pos.mpr hstep
  have hle := Int.floor_le ((x - r.start) / |r.step|)
  have hlt := Int.lt_floor_add_one ((x - r.start) / |r.step|)
  rw [le_div_iff₀ hpos] at hle
  rw [div_lt_iff₀ hpos] at hlt
  rw [gridBelow]
  constructor <;> linarith

theorem start_le_gridBelow (hx : r.start ≤ x) : r.start ≤ r.gridBelow x := by
  have hfloor : 0 ≤ ⌊(x - r.start) / |r.step|⌋ :=
    Int.floor_nonneg.mpr (div_nonneg (sub_nonneg.mpr hx) (abs_nonneg _))
  have hnonneg : (0 : ℚ) ≤ ⌊(x - r.start) / |r.step|⌋ * |r.step| :=
    mul_nonneg (Int.cast_nonneg hfloor) (abs_nonneg _)
  rw [gridBelow]
  linarith

theorem OnGrid.le_or_ge {p : ℚ} (hclip : clipStep = true) (hstep : r.step ≠ 0)
    (hp : r.OnGrid clipStep p) : p ≤ r.gridBelow x ∨ r.gridBelow x + |r.step| ≤ p := by
  obtain ⟨k, rfl⟩ := (onGrid_iff_abs hclip hstep).mp hp
  have hnonneg : 0 ≤ |r.step| := abs_nonneg _
  rw [gridBelow]
  rcases le_or_gt k ⌊(x - r.start) / |r.step|⌋ with h | h
  · have hk : (k : ℚ) ≤ ⌊(x - r.start) / |r.step|⌋ := by exact_mod_cast h
    exact Or.inl (add_le_add le_rfl (mul_le_mul_of_nonneg_right hk hnonneg))
  · have hk : (⌊(x - r.start) / |r.step|⌋ : ℚ) + 1 ≤ k := by exact_mod_cast h
    have := mul_le_mul_of_nonneg_right hk hnonneg
    exact Or.inr (by linarith)

theorem clipWithin_of_step (hclip : clipStep = true) (hstep : r.step ≠ 0) (hx : r.start ≤ value) :
    r.clipWithin clipStep value =
      if 2 * (value - r.gridBelow value) < |r.step| then r.gridBelow value
      else r.gridBelow value + |r.step| := by
  have hpos : 0 < |r.step| := abs_pos.mpr hstep
  have hq : 0 ≤ (value - r.start) / |r.step| := div_nonneg (sub_nonneg.mpr hx) hpos.le
  have hround : stdRound ((value - r.start) / r.step) * r.step =
      stdRound ((value - r.start) / |r.step|) * |r.step| := by
    rcases abs_choice r.step with habs | habs
    · rw [habs]
    · rw [habs, div_neg, stdRound_neg]
      push_cast
      ring
  have hiff : (value - r.start) / |r.step| - ⌊(value - r.start) / |r.step|⌋ < 1 / 2 ↔
      2 * (value - r.gridBelow value) < |r.step| := by
    rw [gridBelow, sub_lt_iff_lt_add, div_lt_iff₀ hpos]
    constructor <;> intro h <;> linarith
  rw [clipWithin, if_neg (by simp [hclip, hstep]), hround, stdRound_of_nonneg hq]
  simp only [hiff]
  split_ifs
  · rw [gridBelow]
    ring
  · rw [gridBelow]
    push_cast
    ring

theorem clipWithin_eq_self_iff (hx : r.start ≤ value) :
    r.clipWithin clipStep value = value ↔ r.OnGrid clipStep value := by
  by_cases hskip : ¬ clipStep = true ∨ r.step = 0
  · rw [clipWithin, if_pos hskip]
    refine iff_of_true rfl fun hclip hstep => ?_
    rcases hskip with h | h
    · exact absurd hclip h
    · exact absurd h hstep
  · obtain ⟨hclip, hstep⟩ := not_or.mp hskip
    rw [not_not] at hclip
    obtain ⟨hle, hlt⟩ := gridBelow_le_lt (r := r) (x := value) hstep
    have hpos : 0 < |r.step| := abs_pos.mpr hstep
    rw [clipWithin_of_step hclip hstep hx]
    constructor
    · intro h
      split_ifs at h
      · rw [← h]
        exact onGrid_gridBelow clipStep r _ hstep
      · linarith
    · intro h
      rcases h.le_or_ge (x := value) hclip hstep with h | h
      · have heq : r.gridBelow value = value := le_antisymm hle h
        rw [heq, sub_self, mul_zero, if_pos hpos]
      · linarith

end Range

namespace MetaRange

open Range

/-- The loop of `clip`, with where the range before it ends. -/
def clipStepFrom (clipStep : Bool) (value lastStop : ℚ) : MetaRange → ℚ
  | [] => lastStop
  | r :: rest =>
    if value < r.start then
      if |value - r.start| < |value - lastStop| then r.start else lastStop
    else if value ≤ r.stop then r.clipWithin clipStep value
    else clipStepFrom clipStep value r.stop rest

/-- `clip`, with its second argument. -/
def clipBy (mr : MetaRange) (value : ℚ) (clipStep : Bool) : Except UhdError ℚ :=
  match checkMonotonic mr with
  | .error e => .error e
  | .ok () => .ok (clipStepFrom clipStep value ((mr.map Range.stop).headD 0) mr)

theorem clipBy_false (mr : MetaRange) (value : ℚ) : clipBy mr value false = clip mr value := by
  have hloop : ∀ lastStop, clipStepFrom false value lastStop mr = clipFrom value lastStop mr := by
    induction mr with
    | nil => exact fun lastStop => rfl
    | cons r rest ih =>
      intro lastStop
      rw [clipStepFrom, clipFrom, ih, clipWithin, if_pos (Or.inl Bool.false_ne_true)]
  unfold clipBy clip
  cases checkMonotonic mr with
  | error e => rfl
  | ok _ => exact congrArg Except.ok (hloop _)

/-! ## What clipping is for -/

/-- The points of a meta range that can be chosen. -/
def Selectable (clipStep : Bool) (mr : MetaRange) (x : ℚ) : Prop :=
  ∃ r ∈ mr, r.Represents clipStep x

/-- Clipping gives a point of the range, none is nearer, and it stays if it is clipped again. -/
def ClipsWell (clipStep : Bool) (mr : MetaRange) (value : ℚ) : Prop :=
  ∃ c, clipBy mr value clipStep = .ok c ∧ Selectable clipStep mr c ∧
    (∀ x, Selectable clipStep mr x → |value - c| ≤ |value - x|) ∧
    clipBy mr c clipStep = .ok c

/-- Those of the ranges that end last end on their grid. -/
def EndsOnGrid (clipStep : Bool) (before : MetaRange) : Prop :=
  ∀ p ∈ before, (∀ q ∈ before, q.stop ≤ p.stop) → p.OnGrid clipStep p.stop

/-- A value in a range with steps.  If it is nearer to the grid point below it, then no range that
follows may begin nearer, nor may a range before end there off its grid.  Otherwise the next grid point
has to be in the range, or to be where the next range begins. -/
def FitsInside (clipStep : Bool) (before : MetaRange) (r : Range) (after : MetaRange)
    (value : ℚ) : Prop :=
  if 2 * (value - r.gridBelow value) < |r.step| then
    (∀ n ∈ after, value - r.gridBelow value ≤ n.start - value) ∧
      ∀ p ∈ before, p.stop = r.gridBelow value → p.OnGrid clipStep (r.gridBelow value)
  else
    r.gridBelow value + |r.step| ≤ r.stop ∨
      ∃ n ∈ after.head?, n.start = r.gridBelow value + |r.step|

/-- The values that the steps do not spoil, by the ranges that end before the value and those that do
not. -/
def StepsFit (clipStep : Bool) (mr : MetaRange) (value : ℚ) : Prop :=
  match mr.dropWhile fun r => r.stop < value with
  | [] => EndsOnGrid clipStep mr
  | r :: after =>
    if value < r.start then
      ∀ p ∈ (mr.takeWhile fun r => r.stop < value).getLast?,
        value - p.stop ≤ r.start - value →
          EndsOnGrid clipStep (mr.takeWhile fun r => r.stop < value)
    else
      clipStep = true → r.step ≠ 0 →
        FitsInside clipStep (mr.takeWhile fun r => r.stop < value) r after value

theorem stepsFit_false (mr : MetaRange) (value : ℚ) : StepsFit false mr value := by
  have hends : ∀ before, EndsOnGrid false before := fun _ _ _ _ h => (by cases h)
  rw [StepsFit]
  split
  · exact hends _
  · split_ifs
    · exact fun _ _ _ => hends _
    · exact fun h => (by cases h)

/-! ## The loop -/

variable {clipStep : Bool} {value : ℚ} {before after mr : MetaRange} {r p : Range}

theorem clipStepFrom_append (rest : MetaRange) (lastStop : ℚ)
    (hbefore : ∀ p ∈ before, p.stop < value) :
    clipStepFrom clipStep value lastStop (before ++ rest) =
      clipStepFrom clipStep value ((before.map Range.stop).getLastD lastStop) rest := by
  induction before generalizing lastStop with
  | nil => rfl
  | cons p before ih =>
    have hp := hbefore p List.mem_cons_self
    rw [List.cons_append, clipStepFrom, if_neg (not_lt.mpr (p.le.trans hp.le)),
      if_neg (not_le.mpr hp), ih p.stop fun q hq => hbefore q (List.mem_cons_of_mem p hq),
      List.map_cons, List.getLastD_cons]

theorem clipStepFrom_eq_self_iff (hmono : mr.Pairwise fun a b => a.stop ≤ b.start) {c : ℚ}
    (hc : Selectable clipStep mr c) (lastStop : ℚ) :
    clipStepFrom clipStep c lastStop mr = c ↔ ∀ p ∈ mr, p.stop = c → p.OnGrid clipStep c := by
  induction mr generalizing lastStop with
  | nil =>
    obtain ⟨r, hr, -⟩ := hc
    cases hr
  | cons s rest ih =>
    obtain ⟨hs, hrest⟩ := List.pairwise_cons.mp hmono
    obtain ⟨r, hr, hstart, hstop, hgrid⟩ := hc
    have hlow : s.start ≤ c := by
      rcases List.mem_cons.mp hr with rfl | hr
      · exact hstart
      · exact s.le.trans ((hs r hr).trans hstart)
    rw [clipStepFrom, if_neg (not_lt.mpr hlow)]
    by_cases hin : c ≤ s.stop
    · rw [if_pos hin, clipWithin_eq_self_iff hlow]
      constructor
      · intro h p hp hpc
        rcases List.mem_cons.mp hp with rfl | hp
        · exact h
        · exact OnGrid.of_le_of_le (p.le.trans hpc.le) (hin.trans (hs p hp))
      · intro h
        rcases hin.eq_or_lt with heq | hlt
        · exact h s List.mem_cons_self heq.symm
        · rcases List.mem_cons.mp hr with rfl | hr
          · exact hgrid
          · exact absurd ((hs r hr).trans hstart) (not_le.mpr hlt)
    · have hr' : r ∈ rest := by
        rcases List.mem_cons.mp hr with rfl | hr
        · exact absurd hstop hin
        · exact hr
      rw [if_neg hin, ih hrest ⟨r, hr', hstart, hstop, hgrid⟩]
      constructor
      · intro h p hp hpc
        rcases List.mem_cons.mp hp with rfl | hp
        · exact absurd hpc.ge hin
        · exact h p hp hpc
      · exact fun h p hp => h p (List.mem_cons_of_mem s hp)

/-- A point of the range that is nearest, and where no range ends off its grid. -/
structure Settles (clipStep : Bool) (mr : MetaRange) (value c : ℚ) : Prop where
  selectable : Selectable clipStep mr c
  nearest : ∀ x, Selectable clipStep mr x → |value - c| ≤ |value - x|
  stays : ∀ p ∈ mr, p.stop = c → p.OnGrid clipStep c

theorem clipsWell_iff_settles (hcheck : checkMonotonic mr = .ok ()) {c : ℚ}
    (hc : clipStepFrom clipStep value ((mr.map Range.stop).headD 0) mr = c) :
    ClipsWell clipStep mr value ↔ Settles clipStep mr value c := by
  have hmono := (checkMonotonic_eq_ok.mp hcheck).2.pairwise
  have hclip : ∀ x, clipBy mr x clipStep =
      .ok (clipStepFrom clipStep x ((mr.map Range.stop).headD 0) mr) := fun x => by
    rw [clipBy, hcheck]
  constructor
  · rintro ⟨d, hd, hsel, hnear, hstay⟩
    rw [hclip, hc] at hd
    obtain rfl := Except.ok.inj hd
    rw [hclip] at hstay
    exact ⟨hsel, hnear, (clipStepFrom_eq_self_iff hmono hsel _).mp (Except.ok.inj hstay)⟩
  · rintro ⟨hsel, hnear, hstay⟩
    refine ⟨c, by rw [hclip, hc], hsel, hnear, ?_⟩
    rw [hclip, (clipStepFrom_eq_self_iff hmono hsel _).mpr hstay]

/-! ## The places of a value -/

theorem abs_sub_le_of_below {c x : ℚ} (hc : c ≤ value) (h : x ≤ c ∨ value - c ≤ x - value) :
    |value - c| ≤ |value - x| := by
  rw [abs_of_nonneg (sub_nonneg.mpr hc)]
  rcases h with h | h
  · exact le_trans (by linarith) (le_abs_self (value - x))
  · exact le_trans (by linarith) (neg_le_abs (value - x))

theorem abs_sub_le_of_above {c x : ℚ} (hc : value ≤ c) (h : c ≤ x ∨ c - value ≤ value - x) :
    |value - c| ≤ |value - x| := by
  rw [abs_of_nonpos (sub_nonpos.mpr hc)]
  rcases h with h | h
  · exact le_trans (by linarith) (neg_le_abs (value - x))
  · exact le_trans (by linarith) (le_abs_self (value - x))

theorem settles_stop_iff {rest : MetaRange} (hp : p ∈ before)
    (hlast : ∀ q ∈ before, q.stop ≤ p.stop) (hbefore : ∀ q ∈ before, q.stop < value)
    (hrest : ∀ n ∈ rest, value - p.stop ≤ n.start - value) :
    Settles clipStep (before ++ rest) value p.stop ↔ EndsOnGrid clipStep before := by
  have hpv := hbefore p hp
  constructor
  · intro h q hq hqlast
    have heq : q.stop = p.stop := le_antisymm (hlast q hq) (hqlast p hp)
    rw [heq]
    exact h.stays q (List.mem_append_left rest hq) heq
  · intro h
    refine ⟨⟨p, List.mem_append_left rest hp, p.le, le_rfl, h p hp hlast⟩, ?_, ?_⟩
    · rintro x ⟨q, hq, hstart, hstop, -⟩
      refine abs_sub_le_of_below hpv.le ?_
      rcases List.mem_append.mp hq with hq | hq
      · exact Or.inl (hstop.trans (hlast q hq))
      · have := hrest q hq
        exact Or.inr (by linarith)
    · intro q hq heq
      rcases List.mem_append.mp hq with hq | hq
      · rw [← heq]
        exact h q hq fun q' hq' => heq ▸ hlast q' hq'
      · have := hrest q hq
        have := q.le
        linarith

section Split

variable (hbefore : ∀ q ∈ before, q.stop < value) (hahead : ∀ q ∈ before, q.stop ≤ r.start)
  (hafter : ∀ n ∈ after, r.stop ≤ n.start)
include hbefore hahead hafter

theorem settles_start (hlt : value < r.start)
    (hnear : ∀ q ∈ before, r.start - value ≤ value - q.stop) :
    Settles clipStep (before ++ r :: after) value r.start := by
  refine ⟨⟨r, List.mem_append_right before List.mem_cons_self, le_rfl, r.le,
    OnGrid.start clipStep r⟩, ?_, ?_⟩
  · rintro x ⟨q, hq, hstart, hstop, -⟩
    refine abs_sub_le_of_above hlt.le ?_
    rcases List.mem_append.mp hq with hq | hq
    · have := hnear q hq
      exact Or.inr (by linarith)
    · rcases List.mem_cons.mp hq with rfl | hq
      · exact Or.inl hstart
      · exact Or.inl (r.le.trans ((hafter q hq).trans hstart))
  · intro q hq heq
    rcases List.mem_append.mp hq with hq | hq
    · have := hbefore q hq
      linarith
    · rcases List.mem_cons.mp hq with rfl | hq
      · exact OnGrid.start clipStep q
      · exact OnGrid.of_le_of_le (q.le.trans heq.le) (r.le.trans (hafter q hq))

theorem settles_value (hstart : r.start ≤ value) (hstop : value ≤ r.stop)
    (hgrid : r.OnGrid clipStep value) :
    Settles clipStep (before ++ r :: after) value value := by
  refine ⟨⟨r, List.mem_append_right before List.mem_cons_self, hstart, hstop, hgrid⟩, ?_, ?_⟩
  · intro x _
    rw [sub_self, abs_zero]
    exact abs_nonneg _
  · intro q hq heq
    rcases List.mem_append.mp hq with hq | hq
    · exact absurd heq (hbefore q hq).ne
    · rcases List.mem_cons.mp hq with rfl | hq
      · exact hgrid
      · exact OnGrid.of_le_of_le (q.le.trans heq.le) (hstop.trans (hafter q hq))

omit hbefore in
theorem settles_gridBelow_iff (hclip : clipStep = true) (hstep : r.step ≠ 0)
    (hstart : r.start ≤ value) (hstop : value ≤ r.stop)
    (hdown : 2 * (value - r.gridBelow value) < |r.step|) :
    Settles clipStep (before ++ r :: after) value (r.gridBelow value) ↔
      (∀ n ∈ after, value - r.gridBelow value ≤ n.start - value) ∧
        ∀ q ∈ before, q.stop = r.gridBelow value → q.OnGrid clipStep (r.gridBelow value) := by
  have hle := (gridBelow_le_lt (x := value) hstep).1
  have hge := start_le_gridBelow hstart
  have hgrid := onGrid_gridBelow clipStep r value hstep
  constructor
  · intro h
    refine ⟨fun n hn => ?_, fun q hq => h.stays q (List.mem_append_left _ hq)⟩
    have hnear := h.nearest n.start ⟨n, List.mem_append_right before (List.mem_cons_of_mem r hn),
      le_rfl, n.le, OnGrid.start clipStep n⟩
    rw [abs_of_nonneg (sub_nonneg.mpr hle),
      abs_of_nonpos (sub_nonpos.mpr (hstop.trans (hafter n hn)))] at hnear
    linarith
  · rintro ⟨hnext, hends⟩
    refine ⟨⟨r, List.mem_append_right before List.mem_cons_self, hge, hle.trans hstop, hgrid⟩,
      ?_, ?_⟩
    · rintro x ⟨q, hq, hqstart, hqstop, hqgrid⟩
      refine abs_sub_le_of_below hle ?_
      rcases List.mem_append.mp hq with hq | hq
      · exact Or.inl (hqstop.trans ((hahead q hq).trans hge))
      · rcases List.mem_cons.mp hq with rfl | hq
        · rcases hqgrid.le_or_ge (x := value) hclip hstep with h | h
          · exact Or.inl h
          · exact Or.inr (by linarith)
        · have := hnext q hq
          exact Or.inr (by linarith)
    · intro q hq heq
      rcases List.mem_append.mp hq with hq | hq
      · exact hends q hq heq
      · rcases List.mem_cons.mp hq with rfl | hq
        · exact hgrid
        · exact OnGrid.of_le_of_le (q.le.trans heq.le) (hle.trans (hstop.trans (hafter q hq)))

theorem settles_gridAbove_iff (hclip : clipStep = true) (hstep : r.step ≠ 0)
    (hstart : r.start ≤ value) (hstop : value ≤ r.stop)
    (hrest : after.Pairwise fun a b => a.stop ≤ b.start)
    (hup : ¬ 2 * (value - r.gridBelow value) < |r.step|) :
    Settles clipStep (before ++ r :: after) value (r.gridBelow value + |r.step|) ↔
      r.gridBelow value + |r.step| ≤ r.stop ∨
        ∃ n ∈ after.head?, n.start = r.gridBelow value + |r.step| := by
  obtain ⟨hle, hlt⟩ := gridBelow_le_lt (x := value) hstep
  have hge := start_le_gridBelow hstart
  have hgrid := onGrid_gridBelow_add clipStep r value hstep
  -- Nothing up to this range is nearer, and none of those ranges ends there.
  have hnear : ∀ q ∈ before ++ [r], ∀ x, q.Represents clipStep x →
      r.gridBelow value + |r.step| ≤ x ∨ r.gridBelow value + |r.step| - value ≤ value - x := by
    rintro q hq x ⟨-, hqstop, hqgrid⟩
    rcases List.mem_append.mp hq with hq | hq
    · have := hahead q hq
      exact Or.inr (by linarith)
    · obtain rfl := List.mem_singleton.mp hq
      rcases hqgrid.le_or_ge (x := value) hclip hstep with h | h
      · exact Or.inr (by linarith)
      · exact Or.inl h
  have hsettles : ∀ hsel : Selectable clipStep (before ++ r :: after)
      (r.gridBelow value + |r.step|), (∀ n ∈ after, r.gridBelow value + |r.step| ≤ n.start) →
      Settles clipStep (before ++ r :: after) value (r.gridBelow value + |r.step|) := by
    intro hsel hnext
    refine ⟨hsel, ?_, ?_⟩
    · rintro x ⟨q, hq, hx⟩
      refine abs_sub_le_of_above hlt.le ?_
      rw [List.append_cons] at hq
      rcases List.mem_append.mp hq with hq | hq
      · exact hnear q hq x hx
      · exact Or.inl ((hnext q hq).trans hx.1)
    · intro q hq heq
      rcases List.mem_append.mp hq with hq | hq
      · have := hbefore q hq
        linarith
      · rcases List.mem_cons.mp hq with rfl | hq
        · exact hgrid
        · exact OnGrid.of_le_of_le (q.le.trans heq.le) (hnext q hq)
  constructor
  · intro h
    obtain ⟨q, hq, hqstart, hqstop, -⟩ := h.selectable
    rcases List.mem_append.mp hq with hq | hq
    · have := hbefore q hq
      linarith
    · rcases List.mem_cons.mp hq with rfl | hq
      · exact Or.inl hqstop
      · right
        cases after with
        | nil => cases hq
        | cons n after =>
          have hnmem : n ∈ before ++ r :: n :: after :=
            List.mem_append_right before (List.mem_cons_of_mem r List.mem_cons_self)
          have hnq : n.start ≤ q.start := by
            rcases List.mem_cons.mp hq with rfl | hq
            · exact le_rfl
            · exact n.le.trans ((List.pairwise_cons.mp hrest).1 q hq)
          have hn := h.nearest n.start ⟨n, hnmem, le_rfl, n.le, OnGrid.start clipStep n⟩
          have hnv : value ≤ n.start := hstop.trans (hafter n List.mem_cons_self)
          rw [abs_of_nonpos (sub_nonpos.mpr hlt.le), abs_of_nonpos (sub_nonpos.mpr hnv)] at hn
          exact ⟨n, rfl, le_antisymm (hnq.trans hqstart) (by linarith)⟩
  · rintro (h | ⟨n, hn, heq⟩)
    · exact hsettles ⟨r, List.mem_append_right before List.mem_cons_self, by linarith, h, hgrid⟩
        fun n hn => h.trans (hafter n hn)
    · cases after with
      | nil => cases hn
      | cons m after =>
        obtain rfl := Option.some_inj.mp hn
        refine hsettles ⟨m, List.mem_append_right before (List.mem_cons_of_mem r
          List.mem_cons_self), heq.le, heq ▸ m.le, heq ▸ OnGrid.start clipStep m⟩ fun n' hn' => ?_
        rcases List.mem_cons.mp hn' with rfl | hn'
        · exact heq.ge
        · exact heq ▸ m.le.trans ((List.pairwise_cons.mp hrest).1 n' hn')

end Split

theorem settles_clipWithin_iff (hmono : (before ++ r :: after).Pairwise fun a b => a.stop ≤ b.start)
    (hbefore : ∀ q ∈ before, q.stop < value) (hstart : r.start ≤ value) (hstop : value ≤ r.stop) :
    Settles clipStep (before ++ r :: after) value (r.clipWithin clipStep value) ↔
      (clipStep = true → r.step ≠ 0 → FitsInside clipStep before r after value) := by
  obtain ⟨-, htail, hcross⟩ := List.pairwise_append.mp hmono
  obtain ⟨hafter, hrest⟩ := List.pairwise_cons.mp htail
  have hahead : ∀ q ∈ before, q.stop ≤ r.start := fun q hq => hcross q hq r List.mem_cons_self
  by_cases hcounts : clipStep = true ∧ r.step ≠ 0
  · obtain ⟨hclip, hstep⟩ := hcounts
    rw [forall_prop_of_true hclip, forall_prop_of_true hstep, FitsInside,
      clipWithin_of_step hclip hstep hstart]
    split_ifs with hdown
    · exact settles_gridBelow_iff hahead hafter hclip hstep hstart hstop hdown
    · exact settles_gridAbove_iff hbefore hahead hafter hclip hstep hstart hstop hrest hdown
  · have hgrid : r.OnGrid clipStep value := fun hclip hstep => absurd ⟨hclip, hstep⟩ hcounts
    rw [(clipWithin_eq_self_iff hstart).mpr hgrid]
    exact iff_of_true (settles_value hbefore hahead hafter hstart hstop hgrid)
      fun hclip hstep => absurd ⟨hclip, hstep⟩ hcounts

theorem settles_gap_iff (hmono : (before ++ r :: after).Pairwise fun a b => a.stop ≤ b.start)
    (hbefore : ∀ q ∈ before, q.stop < value) (hlt : value < r.start) {c : ℚ}
    (hc : clipStepFrom clipStep value (((before ++ r :: after).map Range.stop).headD 0)
      (before ++ r :: after) = c) :
    Settles clipStep (before ++ r :: after) value c ↔
      ∀ p ∈ before.getLast?, value - p.stop ≤ r.start - value → EndsOnGrid clipStep before := by
  obtain ⟨hfront, htail, hcross⟩ := List.pairwise_append.mp hmono
  have hafter := (List.pairwise_cons.mp htail).1
  have hahead : ∀ q ∈ before, q.stop ≤ r.start := fun q hq => hcross q hq r List.mem_cons_self
  have hdist : |value - r.start| = r.start - value := by
    rw [abs_of_neg (sub_neg.mpr hlt), neg_sub]
  rw [clipStepFrom_append _ _ hbefore, clipStepFrom, if_pos hlt, hdist] at hc
  rcases List.eq_nil_or_concat before with rfl | ⟨init, p, rfl⟩
  · -- Before the first range both ends are compared: the start is nearer, or they are the same.
    have hend : |value - r.stop| = r.stop - value := by
      rw [abs_of_neg (sub_neg.mpr (hlt.trans_le r.le)), neg_sub]
    have hcstart : c = r.start := by
      rw [← hc]
      simp only [List.nil_append, List.map_nil, List.getLastD_nil, List.map_cons, List.headD_cons,
        hend]
      split_ifs with h
      · rfl
      · have := r.le
        linarith
    rw [hcstart]
    exact iff_of_true (settles_start hbefore hahead hafter hlt fun q hq => absurd hq (by simp))
      fun p hp => absurd hp (by simp)
  · rw [List.concat_eq_append] at *
    have hlast : ∀ q ∈ init ++ [p], q.stop ≤ p.stop := by
      intro q hq
      rcases List.mem_append.mp hq with hq | hq
      · have := (List.pairwise_append.mp hfront).2.2 q hq p (List.mem_singleton_self p)
        exact this.trans p.le
      · rw [List.mem_singleton.mp hq]
    have hpmem : p ∈ init ++ [p] := List.mem_append_right init (List.mem_singleton_self p)
    have hpv := hbefore p hpmem
    simp only [List.map_append, List.map_cons, List.map_nil, List.getLastD_concat,
      abs_of_pos (sub_pos.mpr hpv)] at hc
    simp only [List.getLast?_concat, Option.mem_def, Option.some_inj, forall_eq']
    split_ifs at hc with h
    · rw [← hc]
      refine iff_of_true (settles_start hbefore hahead hafter hlt fun q hq => ?_) fun hle => ?_
      · have := hlast q hq
        linarith
      · linarith
    · rw [← hc, forall_prop_of_true (not_lt.mp h)]
      refine settles_stop_iff hpmem hlast hbefore fun n hn => ?_
      rcases List.mem_cons.mp hn with rfl | hn
      · exact not_lt.mp h
      · have := hafter n hn
        have := r.le
        linarith

theorem settles_behind_iff (hne : mr ≠ []) (hmono : mr.Pairwise fun a b => a.stop ≤ b.start)
    (hbehind : ∀ q ∈ mr, q.stop < value) {c : ℚ}
    (hc : clipStepFrom clipStep value ((mr.map Range.stop).headD 0) mr = c) :
    Settles clipStep mr value c ↔ EndsOnGrid clipStep mr := by
  obtain ⟨init, p, rfl⟩ := (List.eq_nil_or_concat mr).resolve_left hne
  rw [List.concat_eq_append] at *
  have hlast : ∀ q ∈ init ++ [p], q.stop ≤ p.stop := by
    intro q hq
    rcases List.mem_append.mp hq with hq | hq
    · have := (List.pairwise_append.mp hmono).2.2 q hq p (List.mem_singleton_self p)
      exact this.trans p.le
    · rw [List.mem_singleton.mp hq]
  have hloop := @clipStepFrom_append clipStep _ _ []
    (((init ++ [p]).map Range.stop).headD 0) hbehind
  rw [List.append_nil, hc, clipStepFrom] at hloop
  have hcp : c = p.stop := by
    rw [hloop]
    simp
  have hiff := @settles_stop_iff clipStep _ _ _ []
    (List.mem_append_right init (List.mem_singleton_self p)) hlast hbehind
    fun n hn => absurd hn List.not_mem_nil
  rw [List.append_nil] at hiff
  rw [hcp, hiff]

/-- **Clipping does what it is for exactly if the steps do not spoil it.**  For every monotonic meta
range and every value: what `clip` returns is a point of one of the ranges, on its grid with
`clip_step`, none is nearer, and it stays if it is clipped again, if and only if `clip_step` is off or
`StepsFit` holds of the value. -/
theorem clip_iff_stepsFit (mr : MetaRange) (value : ℚ) (clipStep : Bool)
    (hcheck : checkMonotonic mr = .ok ()) :
    ClipsWell clipStep mr value ↔ (clipStep = true → StepsFit true mr value) := by
  obtain ⟨hne, hchain⟩ := checkMonotonic_eq_ok.mp hcheck
  have hmono := hchain.pairwise
  have hfit : (clipStep = true → StepsFit true mr value) ↔ StepsFit clipStep mr value := by
    cases clipStep with
    | false => exact iff_of_true (fun h => (by cases h)) (stepsFit_false mr value)
    | true => exact forall_prop_of_true rfl
  have happend : mr = (mr.takeWhile fun r => r.stop < value) ++
      (mr.dropWhile fun r => r.stop < value) := List.takeWhile_append_dropWhile.symm
  have hbefore : ∀ q ∈ mr.takeWhile fun r => r.stop < value, q.stop < value := by
    intro q hq
    have := List.mem_takeWhile_imp hq
    exact of_decide_eq_true this
  rw [hfit, StepsFit, clipsWell_iff_settles hcheck rfl]
  cases hdrop : mr.dropWhile fun r => r.stop < value with
  | nil =>
    rw [hdrop, List.append_nil] at happend
    exact settles_behind_iff hne hmono (fun q hq => hbefore q (happend ▸ hq)) rfl
  | cons r after =>
    have hhead : ¬ r.stop < value := by
      have := List.head_dropWhile_not (fun r : Range => decide (r.stop < value)) (l := mr)
        (by rw [hdrop]; exact List.cons_ne_nil r after)
      simpa [hdrop] using this
    rw [hdrop] at happend
    generalize (mr.takeWhile fun r => r.stop < value) = before at happend hbefore
    subst happend
    simp only
    split_ifs with hlt
    · exact settles_gap_iff hmono hbefore hlt rfl
    · rw [clipStepFrom_append _ _ hbefore, clipStepFrom, if_neg hlt, if_pos (not_lt.mp hhead)]
      exact settles_clipWithin_iff hmono hbefore (not_lt.mp hlt) (not_lt.mp hhead)

/-- The last step of a range from 0 to 10 in steps of 4 is past its end: the value 10 becomes 12, and
that is clipped to 10 again. -/
theorem step_past_stop :
    ¬ ClipsWell true [⟨0, 10, 4, by norm_num⟩] 10 := by
  rintro ⟨c, hc, ⟨r, hr, -, hstop, -⟩, -⟩
  have hvalue : clipBy [⟨0, 10, 4, by norm_num⟩] 10 true = .ok 12 := by decide +kernel
  rw [hvalue] at hc
  obtain rfl := Except.ok.inj hc
  obtain rfl := List.mem_singleton.mp hr
  norm_num at hstop

/-- In steps of 5 the range ends on its grid. -/
theorem steps_to_stop : ClipsWell true [⟨0, 10, 5, by norm_num⟩] 8 := by
  refine (clip_iff_stepsFit [⟨0, 10, 5, by norm_num⟩] 8 true (by decide +kernel)).mpr fun _ => ?_
  simp [StepsFit, FitsInside, gridBelow]
  norm_num

end MetaRange
end UhdHost
