import Mathlib.Data.Nat.Bitwise
import Mathlib.Tactic.Common

/-!
# Fields of a word

A word of `n` bits holds several fields, each of them a number of bits from an offset on.  A
field is shifted to its place and joined to the word with the others; reading shifts the word
back and cuts off what lies above the field.

Reading is a map of the words with `|||`, so reading from a word that was joined of fields is
reading from each of them: what was put there comes back (`getField_field`), and a field that lies
elsewhere gives nothing (`getField_field_of_disjoint`).  Where the value fits into its field,
`and_lowMask_of_lt` takes the mask away.
-/

namespace UhdHost
namespace BitFields

variable {n : ℕ}

/-- Ones in the lowest `width` bits. -/
def lowMask (n width : ℕ) : BitVec n := (1#n <<< width) - 1#n

/-- The lowest `width` bits of a value, from an offset on. -/
def field (v : BitVec n) (offset width : ℕ) : BitVec n := (v &&& lowMask n width) <<< offset

/-- Read a field of a word. -/
def getField (x : BitVec n) (offset width : ℕ) : BitVec n := (x >>> offset) &&& lowMask n width

/-- Write a field of a word. -/
def setField (x v : BitVec n) (offset width : ℕ) : BitVec n :=
  (x &&& ~~~(lowMask n width <<< offset)) ||| field v offset width

theorem toNat_lowMask {width : ℕ} (h : width < n) : (lowMask n width).toNat = 2 ^ width - 1 := by
  have hlt : 2 ^ width < 2 ^ n := Nat.pow_lt_pow_right (by decide) h
  have hone : (1#n).toNat = 1 := by
    rw [BitVec.toNat_ofNat]
    exact Nat.mod_eq_of_lt (Nat.one_lt_two_pow (by omega))
  have hshift : (1#n <<< width).toNat = 2 ^ width := by
    rw [BitVec.toNat_shiftLeft, hone, Nat.one_shiftLeft, Nat.mod_eq_of_lt hlt]
  have hpos : 1 ≤ 2 ^ width := Nat.one_le_two_pow
  rw [lowMask, BitVec.toNat_sub_of_le, hshift, hone]
  rw [BitVec.le_def, hshift, hone]
  exact hpos

/-- The bits of a mask. -/
theorem getLsbD_lowMask {width : ℕ} (h : width < n) (i : ℕ) :
    (lowMask n width).getLsbD i = decide (i < width) := by
  rw [← BitVec.testBit_toNat, toNat_lowMask h, Nat.testBit_two_pow_sub_one]

theorem getLsbD_field (v : BitVec n) {offset width : ℕ} (h : width < n) (i : ℕ) :
    (field v offset width).getLsbD i =
      (decide (i < n) && decide (offset ≤ i) && decide (i < offset + width) &&
        v.getLsbD (i - offset)) := by
  rw [field, BitVec.getLsbD_shiftLeft, BitVec.getLsbD_and, getLsbD_lowMask h]
  by_cases hi : offset ≤ i
  · have hlt : (i - offset < width) ↔ (i < offset + width) := by omega
    have hge : ¬ i < offset := Nat.not_lt.mpr hi
    simp [hi, hge, hlt, Bool.and_comm, Bool.and_left_comm]
  · simp [hi]

theorem getLsbD_getField (x : BitVec n) (offset : ℕ) {width : ℕ} (h : width < n) (i : ℕ) :
    (getField x offset width).getLsbD i = (x.getLsbD (offset + i) && decide (i < width)) := by
  rw [getField, BitVec.getLsbD_and, BitVec.getLsbD_ushiftRight, getLsbD_lowMask h]

/-- Reading from a word that was joined. -/
theorem getField_or (x y : BitVec n) (offset width : ℕ) :
    getField (x ||| y) offset width = getField x offset width ||| getField y offset width := by
  refine BitVec.eq_of_getLsbD_eq fun i _ => ?_
  simp only [getField, BitVec.getLsbD_and, BitVec.getLsbD_or, BitVec.getLsbD_ushiftRight]
  cases (lowMask n width).getLsbD i <;> simp

/-- **What was put into a field is read from it.** -/
theorem getField_field (v : BitVec n) {offset width : ℕ} (hwidth : width < n)
    (hfits : offset + width ≤ n) :
    getField (field v offset width) offset width = v &&& lowMask n width := by
  refine BitVec.eq_of_getLsbD_eq fun i _ => ?_
  rw [getLsbD_getField _ _ hwidth, getLsbD_field _ hwidth, BitVec.getLsbD_and,
    getLsbD_lowMask hwidth]
  by_cases hi : i < width
  · have hn : offset + i < n := by omega
    simp [hi, hn]
  · simp [hi]

/-- Another field is not touched. -/
theorem getField_field_of_disjoint (v : BitVec n) {offset width offset' width' : ℕ}
    (hwidth : width < n) (hwidth' : width' < n)
    (hdisjoint : offset + width ≤ offset' ∨ offset' + width' ≤ offset) :
    getField (field v offset width) offset' width' = 0#n := by
  refine BitVec.eq_of_getLsbD_eq fun i _ => ?_
  rw [getLsbD_getField _ _ hwidth', getLsbD_field _ hwidth, BitVec.getLsbD_zero]
  by_cases hi : i < width'
  · have hout : ¬ (offset ≤ offset' + i ∧ offset' + i < offset + width) := by omega
    rcases not_and_or.mp hout with hout | hout
    · simp [hout]
    · simp [hout]
  · simp [hi]

/-- A value that fits into a field is not cut. -/
theorem and_lowMask_of_lt {v : BitVec n} {width : ℕ} (hwidth : width < n)
    (hv : v.toNat < 2 ^ width) : v &&& lowMask n width = v := by
  refine BitVec.eq_of_toNat_eq ?_
  rw [BitVec.toNat_and, toNat_lowMask hwidth, Nat.and_two_pow_sub_one_eq_mod, Nat.mod_eq_of_lt hv]

theorem toNat_and_lowMask (v : BitVec n) {width : ℕ} (hwidth : width < n) :
    (v &&& lowMask n width).toNat = v.toNat % 2 ^ width := by
  rw [BitVec.toNat_and, toNat_lowMask hwidth, Nat.and_two_pow_sub_one_eq_mod]

/-- What is read from a field fits into it. -/
theorem toNat_getField_lt (x : BitVec n) (offset : ℕ) {width : ℕ} (hwidth : width < n) :
    (getField x offset width).toNat < 2 ^ width := by
  rw [getField, toNat_and_lowMask _ hwidth]
  exact Nat.mod_lt _ (Nat.two_pow_pos width)

/-- A field of a field. -/
theorem getField_getField (x : BitVec n) {place offset width offset' width' : ℕ}
    (hplace : place = offset + offset') (hwidth : width < n) (hwidth' : width' < n)
    (hfits : offset' + width' ≤ width) :
    getField (getField x offset width) offset' width' = getField x place width' := by
  rw [hplace]
  refine BitVec.eq_of_getLsbD_eq fun i _ => ?_
  rw [getLsbD_getField _ _ hwidth', getLsbD_getField _ _ hwidth, getLsbD_getField _ _ hwidth',
    Nat.add_assoc]
  by_cases hi : i < width'
  · have hin : offset' + i < width := by omega
    simp [hi, hin]
  · simp [hi]

/-- A field that lies inside of what is read. -/
theorem getField_field_inside (v : BitVec n) {place offset width offset' width' : ℕ}
    (hplace : place = offset + offset') (hwidth : width < n) (hwidth' : width' < n)
    (hfits : offset' + width' ≤ width) (hend : offset + width ≤ n) :
    getField (field v place width') offset width = field v offset' width' := by
  rw [hplace]
  refine BitVec.eq_of_getLsbD_eq fun i hi => ?_
  rw [getLsbD_getField _ _ hwidth, getLsbD_field _ hwidth', getLsbD_field _ hwidth']
  by_cases hin : i < width
  · have hn : offset + i < n := by omega
    have hlow : offset + offset' ≤ offset + i ↔ offset' ≤ i := by omega
    have hhigh : offset + i < offset + offset' + width' ↔ i < offset' + width' := by omega
    have hback : offset + i - (offset + offset') = i - offset' := by omega
    simp [hi, hin, hn, hlow, hhigh, hback]
  · have hout : ¬ i < offset' + width' := by omega
    simp [hin, hout]

/-- A value that fits is shifted to its field as it is. -/
theorem field_of_lt {v : BitVec n} (offset : ℕ) {width : ℕ} (hwidth : width < n)
    (hv : v.toNat < 2 ^ width) : field v offset width = v <<< offset := by
  rw [field, and_lowMask_of_lt hwidth hv]

/-- A field that is joined to a word with nothing in its place adds its value there. -/
theorem toNat_or_shiftLeft {x v : BitVec n} {offset width : ℕ} (h : offset + width ≤ n)
    (hx : 2 ^ (offset + width) ∣ x.toNat) (hv : v.toNat < 2 ^ width) :
    (x ||| (v <<< offset)).toNat = x.toNat + v.toNat * 2 ^ offset := by
  have hlt : v.toNat * 2 ^ offset < 2 ^ (offset + width) := by
    rw [Nat.pow_add, Nat.mul_comm]
    exact Nat.mul_lt_mul_of_pos_left hv (Nat.two_pow_pos offset)
  have hword : v.toNat * 2 ^ offset < 2 ^ n :=
    Nat.lt_of_lt_of_le hlt (Nat.pow_le_pow_right (by decide) h)
  obtain ⟨c, hc⟩ := hx
  rw [BitVec.toNat_or, BitVec.toNat_shiftLeft, Nat.shiftLeft_eq, Nat.mod_eq_of_lt hword, hc,
    Nat.two_pow_add_eq_or_of_lt hlt]

/-- The two halves of a double word. -/
theorem shiftLeft_high_or_low {m : ℕ} (x : BitVec (m + m)) :
    (((x >>> m).setWidth m).setWidth (m + m) <<< m) ||| (x.setWidth m).setWidth (m + m) = x := by
  refine BitVec.eq_of_getLsbD_eq fun i hi => ?_
  simp only [BitVec.getLsbD_or, BitVec.getLsbD_shiftLeft, BitVec.getLsbD_setWidth,
    BitVec.getLsbD_ushiftRight]
  by_cases hlow : i < m
  · simp [hi, hlow]
  · have hback : m + (i - m) = i := by omega
    have hhigh : i - m < m := by omega
    have hhigh' : i - m < m + m := by omega
    simp [hi, hlow, hhigh, hhigh', hback]

/-! ## Writing a field -/

/-- The field that was written. -/
theorem getField_setField (x v : BitVec n) {offset width : ℕ} (hwidth : width < n)
    (hfits : offset + width ≤ n) :
    getField (setField x v offset width) offset width = v &&& lowMask n width := by
  rw [setField, getField_or, getField_field v hwidth hfits]
  have hclear : getField (x &&& ~~~(lowMask n width <<< offset)) offset width = 0#n := by
    refine BitVec.eq_of_getLsbD_eq fun i _ => ?_
    rw [getLsbD_getField _ _ hwidth, BitVec.getLsbD_and, BitVec.getLsbD_not,
      BitVec.getLsbD_shiftLeft, getLsbD_lowMask hwidth, BitVec.getLsbD_zero]
    by_cases hi : i < width
    · simp [hi]
    · simp [hi]
  rw [hclear, BitVec.zero_or]

/-- Any other field is as before. -/
theorem getField_setField_of_disjoint (x v : BitVec n) {offset width offset' width' : ℕ}
    (hwidth : width < n) (hwidth' : width' < n)
    (hdisjoint : offset + width ≤ offset' ∨ offset' + width' ≤ offset)
    (hfits : offset' + width' ≤ n) :
    getField (setField x v offset width) offset' width' = getField x offset' width' := by
  rw [setField, getField_or, getField_field_of_disjoint v hwidth hwidth' hdisjoint, BitVec.or_zero]
  refine BitVec.eq_of_getLsbD_eq fun i _ => ?_
  rw [getLsbD_getField _ _ hwidth', getLsbD_getField _ _ hwidth', BitVec.getLsbD_and,
    BitVec.getLsbD_not, BitVec.getLsbD_shiftLeft, getLsbD_lowMask hwidth]
  by_cases hi : i < width'
  · have hn : offset' + i < n := by omega
    have hout : ¬ (offset ≤ offset' + i ∧ offset' + i - offset < width) := by omega
    rcases not_and_or.mp hout with hout | hout
    · have hlt : offset' + i < offset := by omega
      simp [hn, hlt]
    · simp [hn, hout]
  · simp [hi]

/-! ## Words of other widths -/

/-- A value that fits comes back from a wider word. -/
theorem setWidth_setWidth_of_le {m : ℕ} (v : BitVec m) (h : m ≤ n) :
    (v.setWidth n).setWidth m = v := by
  refine BitVec.eq_of_toNat_eq ?_
  have hlt : v.toNat < 2 ^ n := Nat.lt_of_lt_of_le v.isLt (Nat.pow_le_pow_right (by decide) h)
  rw [BitVec.toNat_setWidth, BitVec.toNat_setWidth, Nat.mod_eq_of_lt hlt, Nat.mod_eq_of_lt v.isLt]

theorem toNat_setWidth_of_le {m : ℕ} (v : BitVec m) (h : m ≤ n) :
    (v.setWidth n).toNat = v.toNat := by
  have hlt : v.toNat < 2 ^ n := Nat.lt_of_lt_of_le v.isLt (Nat.pow_le_pow_right (by decide) h)
  rw [BitVec.toNat_setWidth, Nat.mod_eq_of_lt hlt]

end BitFields
end UhdHost
