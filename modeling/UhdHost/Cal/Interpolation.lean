import Mathlib
import UhdHost.Library.SortedMap
import UhdHost.Types.Exception

/-!
# Interpolation

`interpolation.hpp`: values of a map at keys that it does not have.

* `exists_bounding`: the entries around a key, and what is read between them.
* `linearInterp_spec`: a value on the line through two points is between theirs.
* `bilinearInterp_spec`: a value on the surface through four points is between theirs.
-/

namespace UhdHost
namespace Cal

/-- How a function of the calibration code ends that does not return: it throws, or what it does is
not defined. -/
inductive Halt where
  | threw (e : UhdError)
  | undefined
  deriving DecidableEq

/-- `interp_mode` -/
inductive InterpMode where
  | nearestNeighbor
  | linear
  deriving DecidableEq

/-- `linear_interp` -/
def linearInterp (x x0 y0 x1 y1 : ℚ) : Except Halt ℚ :=
  if x0 = x1 then
    .error (.threw (.runtimeError "linear_interp(): x0 and x1 must differ!"))
  else
    .ok (y0 + (x - x0) * (y1 - y0) / (x1 - x0))

/-- `bilinear_interp` -/
def bilinearInterp (x y x0 y0 x1 y1 z00 z01 z10 z11 : ℚ) : Except Halt ℚ :=
  if x0 = x1 then
    .error (.threw (.runtimeError "bilinear_interp(): x0 and x1 must differ!"))
  else if y0 = y1 then
    .error (.threw (.runtimeError "bilinear_interp(): y0 and y1 must differ!"))
  else do
    let z0 ← linearInterp x x0 z00 x1 z10
    let z1 ← linearInterp x x0 z01 x1 z11
    linearInterp y y0 z0 y1 z1

section Maps

variable {K V : Type} [LinearOrder K]

/-- `get_bounding_iterators` -/
def getBoundingIterators (data : SortedMap K V) (key : K) : Except Halt ((K × V) × (K × V)) :=
  match data.next? key, data.entries.getLast? with
  | none, none => .error .undefined
  | none, some last => .ok (last, last)
  | some next, _ => .ok ((data.prev? key).getD next, next)

/-- `at_interpolate_1d` -/
def atInterpolate1d (data : SortedMap K V) (key : K)
    (interpFunc : K → K → V → K → V → Except Halt V) : Except Halt V :=
  match data.next? key, data.entries.getLast?, data.prev? key with
  | none, none, _ => .error .undefined
  | none, some last, _ => .ok last.2
  | some next, _, none => .ok next.2
  | some next, _, some prev => interpFunc key prev.1 prev.2 next.1 next.2

/-- `at_nearest` -/
def atNearest [Sub K] (data : SortedMap K V) (key : K) : Except Halt V :=
  atInterpolate1d data key fun x x0 y0 x1 y1 => .ok (if x1 - x < x - x0 then y1 else y0)

/-- `at_lin_interp` -/
def atLinInterp (data : SortedMap ℚ ℚ) (key : ℚ) : Except Halt ℚ :=
  atInterpolate1d data key linearInterp

/-! ## The entries around a key -/

variable {data : SortedMap K V} {key : K}

/-- The entry is the first and not before the key, or the last and before it. -/
def AtEnd (data : SortedMap K V) (key : K) (entry : K × V) : Prop :=
  entry ∈ data.entries ∧
    ((key ≤ entry.1 ∧ ∀ other ∈ data.entries, entry.1 ≤ other.1) ∨
      (entry.1 < key ∧ ∀ other ∈ data.entries, other.1 ≤ entry.1))

/-- The entries are neighbours, one before the key and one not before it. -/
structure Around (data : SortedMap K V) (key : K) (lo hi : K × V) : Prop where
  lo_mem : lo ∈ data.entries
  hi_mem : hi ∈ data.entries
  lo_lt : lo.1 < key
  le_hi : key ≤ hi.1
  neighbours : ∀ other ∈ data.entries, other.1 ≤ lo.1 ∨ hi.1 ≤ other.1

theorem exists_bounding (hne : data.entries ≠ []) (key : K) :
    (∃ entry, AtEnd data key entry ∧ getBoundingIterators data key = .ok (entry, entry) ∧
      ∀ f, atInterpolate1d data key f = .ok entry.2) ∨
    ∃ lo hi, Around data key lo hi ∧ getBoundingIterators data key = .ok (lo, hi) ∧
      ∀ f, atInterpolate1d data key f = f key lo.1 lo.2 hi.1 hi.2 := by
  cases hnext : data.next? key with
  | none =>
    left
    have hfrom : data.fromKey key = [] := List.head?_eq_none_iff.mp hnext
    have hbelow : data.below key = data.entries := by
      have happend := data.below_append_fromKey key
      rwa [hfrom, List.append_nil] at happend
    obtain ⟨last, hlast⟩ : ∃ last, data.entries.getLast? = some last :=
      Option.ne_none_iff_exists'.mp fun h => hne (List.getLast?_eq_none_iff.mp h)
    have hprev : data.prev? key = some last := by rw [SortedMap.prev?, hbelow, hlast]
    obtain ⟨hmem, hlt, hgreatest⟩ := SortedMap.prev?_spec hprev
    refine ⟨last, ⟨hmem, Or.inr ⟨hlt, fun other hother => ?_⟩⟩, ?_, fun f => ?_⟩
    · exact hgreatest other hother (SortedMap.lt_of_mem_below (hbelow ▸ hother))
    · rw [getBoundingIterators, hnext, hlast]
    · rw [atInterpolate1d, hnext, hlast]
  | some next =>
    obtain ⟨hmem, hle, hleast⟩ := SortedMap.next?_spec hnext
    cases hprev : data.prev? key with
    | none =>
      left
      have hbelow : data.below key = [] := List.getLast?_eq_none_iff.mp hprev
      refine ⟨next, ⟨hmem, Or.inl ⟨hle, fun other hother => ?_⟩⟩, ?_, fun f => ?_⟩
      · have hfrom : other ∈ data.fromKey key := by
          have happend := data.below_append_fromKey key
          rw [hbelow, List.nil_append] at happend
          rwa [happend]
        exact hleast other hother (SortedMap.le_of_mem_fromKey hfrom)
      · rw [getBoundingIterators, hnext, hprev]
        rfl
      · rw [atInterpolate1d, hnext, hprev]
    | some prev =>
      right
      obtain ⟨hmem', hlt, hgreatest⟩ := SortedMap.prev?_spec hprev
      refine ⟨prev, next, ⟨hmem', hmem, hlt, hle, fun other hother => ?_⟩, ?_, fun f => ?_⟩
      · exact (lt_or_ge other.1 key).imp (hgreatest other hother) (hleast other hother)
      · rw [getBoundingIterators, hnext, hprev]
        rfl
      · rw [atInterpolate1d, hnext, hprev]

theorem AtEnd.eq_of_key {lo : K × V} (h : AtEnd data key lo) {entry : K × V}
    (hentry : entry ∈ data.entries) (hkey : entry.1 = key) : entry = lo := by
  obtain ⟨hmem, ⟨hle, hfirst⟩ | ⟨hlt, hlast⟩⟩ := h
  · exact SortedMap.eq_of_mem_of_key hentry hmem (le_antisymm (hkey ▸ hle) (hfirst entry hentry))
  · exact absurd (hlast entry hentry) (hkey ▸ hlt).not_ge

theorem Around.bounding {lo hi : K × V} (h : Around data key lo hi) :
    getBoundingIterators data key = .ok (lo, hi) := by
  have hnext : data.next? key = some hi := SortedMap.next?_of_mem h.hi_mem h.le_hi
    fun other hother hle => (h.neighbours other hother).resolve_left (h.lo_lt.trans_le hle).not_ge
  have hprev : data.prev? key = some lo := SortedMap.prev?_of_mem h.lo_mem h.lo_lt
    fun other hother hlt => (h.neighbours other hother).resolve_right (hlt.trans_le h.le_hi).not_ge
  rw [getBoundingIterators, hnext, hprev]
  rfl

theorem Around.eq_of_key {lo hi : K × V} (h : Around data key lo hi) {entry : K × V}
    (hentry : entry ∈ data.entries) (hkey : entry.1 = key) : entry = hi := by
  refine SortedMap.eq_of_mem_of_key hentry h.hi_mem (le_antisymm (hkey ▸ h.le_hi) ?_)
  rcases h.neighbours entry hentry with hle | hge
  · exact absurd hle (hkey ▸ h.lo_lt).not_ge
  · exact hge

end Maps

/-! ## Values between -/

section Between

variable {x x0 y0 x1 y1 y : ℚ}

/-- A number is between two others, whichever is the greater. -/
def Between (y0 y1 y : ℚ) : Prop := min y0 y1 ≤ y ∧ y ≤ max y0 y1

theorem between_left (y0 y1 : ℚ) : Between y0 y1 y0 := ⟨min_le_left _ _, le_max_left _ _⟩

theorem between_right (y0 y1 : ℚ) : Between y0 y1 y1 := ⟨min_le_right _ _, le_max_right _ _⟩

theorem linearInterp_spec (y0 y1 : ℚ) (hlow : x0 ≤ x) (hhigh : x ≤ x1) (hne : x0 < x1) :
    ∃ y, linearInterp x x0 y0 x1 y1 = .ok y ∧ Between y0 y1 y ∧ (x = x1 → y = y1) := by
  have hpos : 0 < x1 - x0 := sub_pos.mpr hne
  refine ⟨y0 + (x - x0) * (y1 - y0) / (x1 - x0), if_neg hne.ne, ?_, ?_⟩
  · -- The value is the combination of the two with a weight between zero and one.
    have hratio : y0 + (x - x0) * (y1 - y0) / (x1 - x0) =
        y0 + (x - x0) / (x1 - x0) * (y1 - y0) := by ring
    have hge : 0 ≤ (x - x0) / (x1 - x0) := div_nonneg (by linarith) hpos.le
    have hle : (x - x0) / (x1 - x0) ≤ 1 := (div_le_one hpos).mpr (by linarith)
    rw [hratio, Between]
    rcases le_total y0 y1 with h | h
    · rw [min_eq_left h, max_eq_right h]
      constructor <;> nlinarith
    · rw [min_eq_right h, max_eq_left h]
      constructor <;> nlinarith
  · rintro rfl
    field_simp
    ring

/-- A value is within those of a list: it is not less than all of them and not greater. -/
def Within (values : List ℚ) (v : ℚ) : Prop := (∃ low ∈ values, low ≤ v) ∧ ∃ high ∈ values, v ≤ high

theorem within_of_mem {values : List ℚ} {v : ℚ} (h : v ∈ values) : Within values v :=
  ⟨⟨v, h, le_rfl⟩, v, h, le_rfl⟩

theorem Within.of_between {values : List ℚ} (h0 : Within values y0) (h1 : Within values y1)
    (h : Between y0 y1 y) : Within values y := by
  obtain ⟨⟨low0, hlow0, hle0⟩, high0, hhigh0, hge0⟩ := h0
  obtain ⟨⟨low1, hlow1, hle1⟩, high1, hhigh1, hge1⟩ := h1
  obtain ⟨hlow, hhigh⟩ := h
  constructor
  · rcases min_le_iff.mp hlow with hy | hy
    · exact ⟨low0, hlow0, hle0.trans hy⟩
    · exact ⟨low1, hlow1, hle1.trans hy⟩
  · rcases le_max_iff.mp hhigh with hy | hy
    · exact ⟨high0, hhigh0, hy.trans hge0⟩
    · exact ⟨high1, hhigh1, hy.trans hge1⟩

theorem exists_bilinearInterp (x y z00 z01 z10 z11 : ℚ) (hx : x0 ≠ x1) (hy : y0 ≠ y1) :
    ∃ z, bilinearInterp x y x0 y0 x1 y1 z00 z01 z10 z11 = .ok z := by
  rw [bilinearInterp, if_neg hx, if_neg hy, linearInterp, if_neg hx, linearInterp, if_neg hx]
  exact ⟨_, if_neg hy⟩

theorem bilinearInterp_spec {x y : ℚ} (z00 z01 z10 z11 : ℚ) (hx0 : x0 < x) (hx1 : x ≤ x1)
    (hy : y0 < y1) (hy0 : y0 ≤ y) (hy1 : y ≤ y1) :
    ∃ z, bilinearInterp x y x0 y0 x1 y1 z00 z01 z10 z11 = .ok z ∧
      (∀ values, Within values z00 → Within values z01 → Within values z10 → Within values z11 →
        Within values z) ∧ (x = x1 → y = y1 → z = z11) := by
  have hx : x0 < x1 := hx0.trans_le hx1
  obtain ⟨z0, hz0, hbetween0, -⟩ := linearInterp_spec z00 z10 hx0.le hx1 hx
  obtain ⟨z1, hz1, hbetween1, hexact1⟩ := linearInterp_spec z01 z11 hx0.le hx1 hx
  obtain ⟨z, hz, hbetween, hexact⟩ := linearInterp_spec z0 z1 hy0 hy1 hy
  refine ⟨z, ?_, fun values h00 h01 h10 h11 => ?_, fun hxeq hyeq => ?_⟩
  · rw [bilinearInterp, if_neg hx.ne, if_neg hy.ne, hz0, hz1, ← hz]
    rfl
  · exact (h00.of_between h10 hbetween0).of_between (h01.of_between h11 hbetween1) hbetween
  · rw [hexact hyeq, hexact1 hxeq]

end Between

end Cal
end UhdHost
