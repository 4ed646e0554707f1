import UhdHost.Convert.ConvertUnpackSc12
import UhdHost.Library.BitStream
import UhdHost.Types.Endianness

/-!
# Packing 12-bit samples

`convert_star_1_to_sc12_item32_1` of `convert_pack_sc12.cpp`, for samples of two 16-bit components:
the counterpart of the converter that unpacks them.  Four samples share three lines of 32 bits, and
only whole lines are written, so that a call that starts or ends within a group has to write bits
that belong to other samples.

* `exists_packSc12`: what a call writes.  It is laid out by lines: the bits of its samples, and zeros
  in what is left of the first line and of the last one.
* `ownBitsOnly_iff`: when no other bits are changed.
* `packsCleanly_iff`: when the parts of a packet are packed as the packet is.

The bits of the lines are numbered as a line is read in the order of the link, from the highest bit
on: a sample whose bytes start at an address takes the 24 bits from eight times that address on.
-/

namespace UhdHost
namespace Convert

open BitStream

/-- `sc16_t` -/
abbrev Sc16 := BitVec 16 × BitVec 16

/-! ## The converter -/

/-- `CONVERT12_LINE0` -/
def convert12Line0 : ℕ := 0x01

/-- `CONVERT12_LINE1` -/
def convert12Line1 : ℕ := 0x02

/-- `CONVERT12_LINE2` -/
def convert12Line2 : ℕ := 0x04

/-- `CONVERT12_LINE_ALL` -/
def convert12LineAll : ℕ := 0x07

/-- `int32_t(x >> 4) & 0xfff` -/
def level (x : BitVec 16) : BitVec 32 := (x.signExtend 32).sshiftRight 4 &&& 0xfff

/-- `iq` -/
def iqs (in0 in1 in2 in3 : Sc16) : ℕ → BitVec 32
  | 0 => level in0.1
  | 1 => level in0.2
  | 2 => level in1.1
  | 3 => level in1.2
  | 4 => level in2.1
  | 5 => level in2.2
  | 6 => level in3.1
  | _ => level in3.2

/-- The lines of a group, in the order of the host. -/
def packedLine (iq : ℕ → BitVec 32) : ℕ → BitVec 32
  | 0 => iq 0 <<< 20 ||| iq 1 <<< 8 ||| (iq 2).sshiftRight 4
  | 1 => iq 2 <<< 28 ||| iq 3 <<< 16 ||| iq 4 <<< 4 ||| (iq 5).sshiftRight 8
  | _ => iq 5 <<< 24 ||| iq 6 <<< 12 ||| iq 7 <<< 0

/-- `pack`, for the group that starts with a line of the memory. -/
def pack (towire : BitVec 32 → BitVec 32) (mem : ℕ → BitVec 32) (line enable : ℕ)
    (iq : ℕ → BitVec 32) : ℕ → BitVec 32 :=
  let mem := if enable &&& convert12Line0 ≠ 0 then
    Function.update mem line (towire (packedLine iq 0)) else mem
  let mem := if enable &&& convert12Line1 ≠ 0 then
    Function.update mem (line + 1) (towire (packedLine iq 1)) else mem
  if enable &&& convert12Line2 ≠ 0 then
    Function.update mem (line + 2) (towire (packedLine iq 2)) else mem

/-- `convert_star_4_to_sc12_item32_3` -/
def convertStar4ToSc12Item32x3 (towire : BitVec 32 → BitVec 32) (mem : ℕ → BitVec 32)
    (in0 in1 in2 in3 : Sc16) (enable output : ℕ) : ℕ → BitVec 32 :=
  pack towire mem (output / 4) enable (iqs in0 in1 in2 in3)

variable (towire : BitVec 32 → BitVec 32) (input : ℕ → Sc16)

/-- The head case. -/
def packHead (mem : ℕ → BitVec 32) (head output : ℕ) : ℕ → BitVec 32 :=
  match head with
  | 1 => convertStar4ToSc12Item32x3 towire mem 0 0 0 (input 0) convert12Line2 output
  | 2 => convertStar4ToSc12Item32x3 towire mem 0 0 (input 0) (input 1)
      (convert12Line2 ||| convert12Line1) output
  | 3 => convertStar4ToSc12Item32x3 towire mem 0 (input 0) (input 1) (input 2)
      (convert12Line2 ||| convert12Line1 ||| convert12Line0) output
  | _ => mem

/-- The loop of the body: the memory, and what `i` and `o` are in the end. -/
def packBody (nsamps output : ℕ) :
    ℕ → (ℕ → BitVec 32) → ℕ → ℕ → Option ((ℕ → BitVec 32) × ℕ × ℕ)
  | fuel, mem, i, o =>
    if (i + 3) % 2 ^ 64 < nsamps then
      match fuel with
      | 0 => none
      | fuel + 1 =>
        packBody nsamps output fuel
          (convertStar4ToSc12Item32x3 towire mem (input i) (input (i + 1)) (input (i + 2))
            (input (i + 3)) convert12LineAll (output + 12 * o)) ((i + 4) % 2 ^ 64) (o + 1)
    else some (mem, i, o)

/-- The tail case. -/
def packTail (mem : ℕ → BitVec 32) (tail i output : ℕ) : ℕ → BitVec 32 :=
  match tail with
  | 1 => convertStar4ToSc12Item32x3 towire mem (input i) 0 0 0 convert12Line0 output
  | 2 => convertStar4ToSc12Item32x3 towire mem (input i) (input (i + 1)) 0 0
      (convert12Line0 ||| convert12Line1) output
  | 3 => convertStar4ToSc12Item32x3 towire mem (input i) (input (i + 1)) (input (i + 2)) 0
      (convert12Line0 ||| convert12Line1 ||| convert12Line2) output
  | _ => mem

/-- `operator()`: the memory after a call. -/
def packSc12 (mem : ℕ → BitVec 32) (ptr nsamps : ℕ) : Option (ℕ → BitVec 32) :=
  let head := headSamps ptr
  let output := ptr - rewind ptr
  (packBody towire input nsamps output nsamps (packHead towire input mem head output) head
    (if head = 0 then 0 else 1)).map fun body =>
      packTail towire input body.1 (sizeSub nsamps body.2.1) body.2.1 (output + 12 * body.2.2)

/-- `converter::conv` -/
def packConv (mem : ℕ → BitVec 32) (ptr num : ℕ) : Option (ℕ → BitVec 32) :=
  if num ≠ 0 then packSc12 towire input mem ptr num else some mem

/-- Samples in a row that are packed in parts: each call goes on where the one before it ended. -/
def packParts : (ℕ → Sc16) → (ℕ → BitVec 32) → ℕ → List ℕ → Option (ℕ → BitVec 32)
  | _, mem, _, [] => some mem
  | input, mem, ptr, n :: ns =>
    (packConv towire input mem ptr n).bind fun mem =>
      packParts (fun j => input (n + j)) mem (ptr + 3 * n) ns

/-! ## Levels -/

theorem getLsbD_twelve (i : ℕ) : (0xfff : BitVec 32).getLsbD i = decide (i < 12) := by
  have heq : (0xfff : BitVec 32) = BitVec.ofNat 32 (2 ^ 12 - 1) := rfl
  rw [heq, BitVec.getLsbD_ofNat, Nat.testBit_two_pow_sub_one]
  by_cases h : i < 12
  · rw [decide_eq_true h, decide_eq_true (by omega), Bool.and_true]
  · rw [decide_eq_false h, Bool.and_false]

theorem getLsbD_level (x : BitVec 16) (i : ℕ) :
    (level x).getLsbD i = (decide (i < 12) && x.getLsbD (i + 4)) := by
  rw [level, BitVec.getLsbD_and, getLsbD_twelve, BitVec.getLsbD_sshiftRight]
  by_cases h : i < 12
  · have h₁ : 4 + i < 32 := by omega
    have h₂ : 4 + i < 16 := by omega
    rw [BitVec.getLsbD_signExtend]
    simp only [h, h₁, h₂, decide_true, Bool.and_true, Bool.true_and, if_true, Nat.add_comm i 4]
    simp
    omega
  · rw [decide_eq_false h, Bool.and_false, Bool.false_and]

theorem getMsbD_level (x : BitVec 16) (q : ℕ) :
    (level x).getMsbD q = (decide (20 ≤ q ∧ q < 32) && x.getMsbD (q - 20)) := by
  rw [BitVec.getMsbD_eq_getLsbD, getLsbD_level, BitVec.getMsbD_eq_getLsbD]
  by_cases h : 20 ≤ q ∧ q < 32
  · have hbit : 32 - 1 - q + 4 = 16 - 1 - (q - 20) := by omega
    rw [hbit, decide_eq_true h, decide_eq_true h.2, decide_eq_true (by omega),
      decide_eq_true (by omega), Bool.true_and]
  · rw [decide_eq_false h, Bool.false_and]
    by_cases hq : q < 32
    · rw [decide_eq_false (p := 32 - 1 - q < 12) (by omega), Bool.false_and, Bool.and_false]
    · rw [decide_eq_false hq, Bool.false_and]

theorem msb_level (x : BitVec 16) : (level x).msb = false := by
  rw [BitVec.msb, getMsbD_level x]
  rfl

/-! ## The bits of samples in a row -/

/-- One of the components of samples in a row. -/
def component (f : ℕ → Sc16) (i : ℕ) : BitVec 16 :=
  if i % 2 = 0 then (f (i / 2)).1 else (f (i / 2)).2

/-- The bits of samples in a row: twelve for a component, from the highest one on. -/
def sampleBit (f : ℕ → Sc16) (p : ℕ) : Bool := (component f (p / 12)).getMsbD (p % 12)

theorem getMsbD_component (f : ℕ → Sc16) (i p : ℕ) :
    (decide (12 * i ≤ p ∧ p < 12 * i + 12) && (component f i).getMsbD (p - 12 * i))
      = (decide (p / 12 = i) && sampleBit f p) := by
  by_cases h : p / 12 = i
  · have hmod : p % 12 = p - 12 * i := by omega
    rw [sampleBit, h, hmod, decide_eq_true (by omega), decide_eq_true rfl]
  · rw [decide_eq_false h, decide_eq_false (by omega), Bool.false_and, Bool.false_and]

theorem getMsbD_shiftLeft (f : ℕ → Sc16) {k i l q : ℕ}
    (hplace : k + 12 * i = 20 + 32 * l) :
    (level (component f i) <<< k).getMsbD q
      = (decide ((32 * l + q) / 12 = i) && sampleBit f (32 * l + q)) := by
  rw [BitVec.getMsbD_shiftLeft, getMsbD_level, ← getMsbD_component]
  have hshift : q + k - 20 = 32 * l + q - 12 * i := by omega
  have hfield : (20 ≤ q + k ∧ q + k < 32) ↔ 12 * i ≤ 32 * l + q ∧ 32 * l + q < 12 * i + 12 := by
    omega
  rw [hshift, decide_eq_decide.mpr hfield]

theorem getMsbD_sshiftRight (f : ℕ → Sc16) {k i l q : ℕ} (hq : q < 32)
    (hplace : 12 * i = 20 + k + 32 * l) :
    ((level (component f i)).sshiftRight k).getMsbD q
      = (decide ((32 * l + q) / 12 = i) && sampleBit f (32 * l + q)) := by
  rw [BitVec.sshiftRight_eq_of_msb_false (msb_level _), BitVec.getMsbD_ushiftRight,
    decide_eq_true hq, Bool.true_and, getMsbD_level, ← getMsbD_component]
  by_cases h : k ≤ q
  · have hshift : q - k - 20 = 32 * l + q - 12 * i := by omega
    have hfield : (20 ≤ q - k ∧ q - k < 32) ↔ 12 * i ≤ 32 * l + q ∧ 32 * l + q < 12 * i + 12 := by
      omega
    rw [hshift, decide_eq_decide.mpr hfield, decide_eq_false (not_lt.mpr h), Bool.not_false,
      Bool.true_and]
  · rw [decide_eq_true (not_le.mp h), Bool.not_true, Bool.false_and, decide_eq_false (by omega),
      Bool.false_and]

theorem getMsbD_packedLine (g : ℕ → Sc16) {l q : ℕ} (hl : l < 3) (hq : q < 32) :
    (packedLine (iqs (g 0) (g 1) (g 2) (g 3)) l).getMsbD q = sampleBit g (32 * l + q) := by
  have hleft := fun k i l => getMsbD_shiftLeft g (k := k) (i := i) (l := l) (q := q)
  have hright := fun k i l => getMsbD_sshiftRight g (k := k) (i := i) (l := l) hq
  have hiqs : ∀ i, i < 8 → iqs (g 0) (g 1) (g 2) (g 3) i = level (component g i) := by
    intro i hi
    interval_cases i <;> rfl
  have hcases : l = 0 ∨ l = 1 ∨ l = 2 := by omega
  rcases hcases with rfl | rfl | rfl
  · rw [packedLine, hiqs 0 (by decide), hiqs 1 (by decide), hiqs 2 (by decide),
      BitVec.getMsbD_or, BitVec.getMsbD_or, hleft 20 0 0 rfl, hleft 8 1 0 rfl, hright 4 2 0 rfl]
    have hfield : (32 * 0 + q) / 12 = 0 ∨ (32 * 0 + q) / 12 = 1 ∨ (32 * 0 + q) / 12 = 2 := by omega
    rcases hfield with h | h | h
    all_goals
      rw [h]
      simp
  · rw [packedLine, hiqs 2 (by decide), hiqs 3 (by decide), hiqs 4 (by decide), hiqs 5 (by decide),
      BitVec.getMsbD_or, BitVec.getMsbD_or, BitVec.getMsbD_or, hleft 28 2 1 rfl, hleft 16 3 1 rfl,
      hleft 4 4 1 rfl, hright 8 5 1 rfl]
    have hfield : (32 * 1 + q) / 12 = 2 ∨ (32 * 1 + q) / 12 = 3 ∨ (32 * 1 + q) / 12 = 4 ∨
        (32 * 1 + q) / 12 = 5 := by omega
    rcases hfield with h | h | h | h
    all_goals
      rw [h]
      simp
  · show (iqs _ _ _ _ 5 <<< 24 ||| iqs _ _ _ _ 6 <<< 12 ||| iqs _ _ _ _ 7 <<< 0).getMsbD q = _
    rw [hiqs 5 (by decide), hiqs 6 (by decide), hiqs 7 (by decide),
      BitVec.getMsbD_or, BitVec.getMsbD_or, hleft 24 5 2 rfl, hleft 12 6 2 rfl, hleft 0 7 2 rfl]
    have hfield : (32 * 2 + q) / 12 = 5 ∨ (32 * 2 + q) / 12 = 6 ∨ (32 * 2 + q) / 12 = 7 := by omega
    rcases hfield with h | h | h
    all_goals
      rw [h]
      simp

theorem sampleBit_congr {f g : ℕ → Sc16} {p p' : ℕ} (hmod : p % 24 = p' % 24)
    (h : g (p / 24) = f (p' / 24)) : sampleBit g p = sampleBit f p' := by
  have htwelve : p % 12 = p' % 12 := by omega
  have hpart : p / 12 % 2 = p' / 12 % 2 := by omega
  have hhalf : p / 12 / 2 = p / 24 := by omega
  have hhalf' : p' / 12 / 2 = p' / 24 := by omega
  rw [sampleBit, sampleBit, component, component, htwelve, hpart, hhalf, hhalf', h]

theorem sampleBit_zero {g : ℕ → Sc16} {p : ℕ} (h : g (p / 24) = 0) : sampleBit g p = false := by
  have hhalf : p / 12 / 2 = p / 24 := by omega
  rw [sampleBit, component, hhalf, h]
  split_ifs
  · exact BitVec.getMsbD_zero
  · exact BitVec.getMsbD_zero

/-! ## What is written -/

/-- A bit of the memory, as it is in the order of the link. -/
def wireBit (mem : ℕ → BitVec 32) (p : ℕ) : Bool := bit (fun a => towire (mem a)) p

/-- Samples as a part of a group, with zeros for the others. -/
def partOfGroup (f : ℕ → Sc16) (a b j : ℕ) : Sc16 := if a ≤ j ∧ j < b then f (j - a) else 0

/-- **Samples that are laid out by lines.**  The lines from the first to the last one that hold any
bits of them are written: with their bits, and with zeros beside them. -/
structure Lays (mem mem' : ℕ → BitVec 32) (ptr n : ℕ) (f : ℕ → Sc16) : Prop where
  beside : ∀ a, ¬ (ptr / 4 ≤ a ∧ a < (ptr + 3 * n + 3) / 4) → mem' a = mem a
  within : ∀ p, ptr / 4 ≤ p / 32 → p / 32 < (ptr + 3 * n + 3) / 4 →
    wireBit towire mem' p
      = (decide (8 * ptr ≤ p ∧ p < 8 * ptr + 24 * n) && sampleBit f (p - 8 * ptr))

/-- What a call writes: its samples, and all that is left of the group it starts in. -/
def laidSamps (ptr n : ℕ) : ℕ := max n (headSamps ptr)

/-! ## What is claimed -/

/-- Only the bits of the samples that start at an address are changed. -/
def OwnBitsOnly (mem mem' : ℕ → BitVec 32) (ptr n : ℕ) : Prop :=
  ∀ p, ¬ (8 * ptr ≤ p ∧ p < 8 * ptr + 24 * n) → wireBit towire mem' p = wireBit towire mem p

/-- Every call of a packet that is packed in parts changes the bits of its samples only. -/
def EveryPartOwn : (ℕ → Sc16) → (ℕ → BitVec 32) → ℕ → List ℕ → Prop
  | _, _, _, [] => True
  | input, mem, ptr, n :: ns =>
    ∃ mem', packConv towire input mem ptr n = some mem' ∧ OwnBitsOnly towire mem mem' ptr n ∧
      EveryPartOwn (fun j => input (n + j)) mem' (ptr + 3 * n) ns

/-- `sc16` samples that are unpacked. -/
def sc16Loader : Loader Sc16 := ⟨towire, Prod.mk⟩

/-- A sample without the low four bits of its components. -/
def cleared (s : Sc16) : Sc16 := (s.1 &&& 0xfff0, s.2 &&& 0xfff0)

/-- **What is claimed** for samples that are packed at an address, at once and in parts: every call
changes the bits of its samples only, the parts give the same lines, and if the samples start with a
group, unpacking the lines gives the samples without their low four bits. -/
def PacksCleanly (mem : ℕ → BitVec 32) (ptr : ℕ) (ns : List ℕ) : Prop :=
  ∃ whole, packConv towire input mem ptr ns.sum = some whole ∧
    OwnBitsOnly towire mem whole ptr ns.sum ∧ EveryPartOwn towire input mem ptr ns ∧
    packParts towire input mem ptr ns = some whole ∧
    (headSamps ptr = 0 → conv (sc16Loader towire) whole ptr ns.sum
      = some ((List.range ns.sum).map fun j => (j, cleared (input j))))

/-- The bits that a call changes besides those of its samples have the values that it gives them. -/
structure NeighboursKept (held : ℕ → Bool) (ptr n : ℕ) (f : ℕ → Sc16) : Prop where
  /-- Zeros before the first sample, in its first line. -/
  before : ∀ p, p / 32 = ptr / 4 → p < 8 * ptr → held p = false
  /-- What comes next in the input, up to the end of the group that the call starts in. -/
  rest : ∀ p, 8 * ptr + 24 * n ≤ p → p < 8 * ptr + 24 * headSamps ptr →
    held p = sampleBit f (p - 8 * ptr)
  /-- Zeros behind the last sample, in its last line. -/
  behind : ∀ p, 8 * ptr + 24 * laidSamps ptr n ≤ p →
    p / 32 < (ptr + 3 * laidSamps ptr n + 3) / 4 → held p = false

/-- The bits of a memory that samples are put into, and nothing else. -/
def place (held : ℕ → Bool) (ptr n : ℕ) (f : ℕ → Sc16) (p : ℕ) : Bool :=
  if 8 * ptr ≤ p ∧ p < 8 * ptr + 24 * n then sampleBit f (p - 8 * ptr) else held p

/-- **The condition on the parts.**  None, or for each that is not empty its neighbours, with the
samples before it in their places. -/
def PartsKept : (ℕ → Bool) → ℕ → (ℕ → Sc16) → List ℕ → Prop
  | _, _, _, [] => True
  | held, ptr, f, n :: ns =>
    (n = 0 ∨ NeighboursKept held ptr n f) ∧
      PartsKept (place held ptr n f) (ptr + 3 * n) (fun j => f (n + j)) ns

section Lines

variable {towire : BitVec 32 → BitVec 32} {input : ℕ → Sc16} {mem mem' : ℕ → BitVec 32}

theorem ite_update_apply (c : Prop) [Decidable c] (line : ℕ) (x : BitVec 32) (a : ℕ) :
    (if c then Function.update mem line x else mem) a = if c ∧ a = line then x else mem a := by
  by_cases hc : c
  · rw [if_pos hc, Function.update_apply]
    exact if_congr (and_iff_right hc).symm rfl rfl
  · rw [if_neg hc, if_neg fun h => hc h.1]

theorem pack_apply (line enable : ℕ) (iq : ℕ → BitVec 32) (a : ℕ) :
    pack towire mem line enable iq a
      = if line ≤ a ∧ a < line + 3 ∧ enable &&& 2 ^ (a - line) ≠ 0 then
          towire (packedLine iq (a - line)) else mem a := by
  rw [pack]
  rw [ite_update_apply, ite_update_apply, ite_update_apply]
  by_cases ha : line ≤ a ∧ a < line + 3
  · obtain ⟨l, rfl⟩ := Nat.exists_eq_add_of_le ha.1
    have hcases : l = 0 ∨ l = 1 ∨ l = 2 := by omega
    rcases hcases with rfl | rfl | rfl
    all_goals
      simp [convert12Line0, convert12Line1, convert12Line2]
  · rw [if_neg (fun h => by omega), if_neg (fun h => by omega), if_neg (fun h => by omega),
      if_neg (fun h => ha ⟨h.1, h.2.1⟩)]

theorem lays_pack (hwire : ∀ x, towire (towire x) = x) {output a b enable : ℕ}
    (haddr : output % 4 = 0) (hab : a < b) (hb : b ≤ 4)
    (henable : ∀ l, l < 3 → (enable &&& 2 ^ l ≠ 0 ↔ 3 * a / 4 ≤ l ∧ l < (3 * b + 3) / 4)) :
    Lays towire mem
      (convertStar4ToSc12Item32x3 towire mem (partOfGroup input a b 0) (partOfGroup input a b 1)
        (partOfGroup input a b 2) (partOfGroup input a b 3) enable output)
      (output + 3 * a) (b - a) input where
  beside := by
    intro x hx
    rw [convertStar4ToSc12Item32x3, pack_apply, if_neg]
    rintro ⟨hlow, hhigh, hwritten⟩
    have hline := (henable (x - output / 4) (by omega)).mp hwritten
    omega
  within := by
    intro p hlow hhigh
    have hline := (henable (p / 32 - output / 4) (by omega)).mpr (by omega)
    have hplace : 32 * (p / 32 - output / 4) + p % 32 = p - 8 * output := by omega
    rw [wireBit, bit, convertStar4ToSc12Item32x3, pack_apply,
      if_pos ⟨by omega, by omega, hline⟩, hwire,
      getMsbD_packedLine (partOfGroup input a b) (by omega) (Nat.mod_lt _ (by decide)), hplace]
    by_cases hown : 8 * (output + 3 * a) ≤ p ∧ p < 8 * (output + 3 * a) + 24 * (b - a)
    · rw [decide_eq_true hown, Bool.true_and]
      refine sampleBit_congr (by omega) ?_
      rw [partOfGroup, if_pos (by omega)]
      congr 1
      omega
    · rw [decide_eq_false hown, Bool.false_and]
      exact sampleBit_zero (if_neg (by omega))

theorem Lays.refl {ptr : ℕ} (hptr : ptr % 4 = 0) (f : ℕ → Sc16) :
    Lays towire mem mem ptr 0 f where
  beside := fun _ _ => rfl
  within := fun p hlow hhigh => absurd hhigh (by omega)

theorem Lays.trans {mem'' : ℕ → BitVec 32} {ptr m n : ℕ} {f : ℕ → Sc16}
    (h : Lays towire mem mem' ptr m f) (hend : (ptr + 3 * m) % 4 = 0)
    (h' : Lays towire mem' mem'' (ptr + 3 * m) n fun j => f (m + j)) :
    Lays towire mem mem'' ptr (m + n) f where
  beside := by
    intro a ha
    rw [h'.beside a (by omega), h.beside a (by omega)]
  within := by
    intro p hlow hhigh
    by_cases hnew : (ptr + 3 * m) / 4 ≤ p / 32
    · rw [h'.within p hnew (by omega)]
      have hown : (8 * (ptr + 3 * m) ≤ p ∧ p < 8 * (ptr + 3 * m) + 24 * n)
          ↔ 8 * ptr ≤ p ∧ p < 8 * ptr + 24 * (m + n) := by omega
      rw [decide_eq_decide.mpr hown]
      congr 1
      refine sampleBit_congr (by omega) ?_
      congr 1
      omega
    · have hkept : wireBit towire mem'' p = wireBit towire mem' p :=
        bit_congr (congrArg towire (h'.beside _ (by omega)))
      have hown : (8 * ptr ≤ p ∧ p < 8 * ptr + 24 * m)
          ↔ 8 * ptr ≤ p ∧ p < 8 * ptr + 24 * (m + n) := by omega
      rw [hkept, h.within p hlow (by omega), decide_eq_decide.mpr hown]

/-! ## A call -/

theorem headSamps_cases (ptr : ℕ) :
    headSamps ptr = 0 ∨ headSamps ptr = 1 ∨ headSamps ptr = 2 ∨ headSamps ptr = 3 := by
  rw [headSamps]
  omega

theorem rewind_eq (ptr : ℕ) : rewind ptr = 3 * ((4 - headSamps ptr) % 4) := by
  rw [rewind]
  rcases headSamps_cases ptr with h | h | h | h
  all_goals
    rw [h]
    rfl

theorem rewind_le {base : ℕ} (hbase : base % 4 = 0) (k : ℕ) :
    rewind (base + 3 * k) ≤ base + 3 * k := by
  rw [rewind_eq, Nat.mul_comm 3 k, headSamps_eq hbase]
  omega

theorem lays_packHead (hwire : ∀ x, towire (towire x) = x) {ptr : ℕ} (hptr : rewind ptr ≤ ptr) :
    Lays towire mem (packHead towire input mem (headSamps ptr) (ptr - rewind ptr)) ptr
      (headSamps ptr) input := by
  have hmod : headSamps ptr = ptr % 4 := rfl
  have hgroup := fun a enable => @lays_pack towire input mem hwire (ptr - rewind ptr) a 4 enable
  have hback := rewind_eq ptr
  rcases headSamps_cases ptr with h | h | h | h
  · rw [h] at hmod ⊢
    exact Lays.refl hmod.symm input
  · rw [h] at hmod hback ⊢
    have hlays := hgroup 3 convert12Line2 (by omega) (by decide) (by decide) (by decide)
    rw [show ptr - rewind ptr + 3 * 3 = ptr by omega] at hlays
    exact hlays
  · rw [h] at hmod hback ⊢
    have hlays := hgroup 2 (convert12Line2 ||| convert12Line1) (by omega) (by decide) (by decide)
      (by decide)
    rw [show ptr - rewind ptr + 3 * 2 = ptr by omega] at hlays
    exact hlays
  · rw [h] at hmod hback ⊢
    have hlays := hgroup 1 (convert12Line2 ||| convert12Line1 ||| convert12Line0) (by omega)
      (by decide) (by decide) (by decide)
    rw [show ptr - rewind ptr + 3 * 1 = ptr by omega] at hlays
    exact hlays

theorem exists_packBody (hwire : ∀ x, towire (towire x) = x) {n output : ℕ}
    (hn : n + 4 ≤ 2 ^ 64) :
    ∀ (fuel : ℕ) (mem : ℕ → BitVec 32) (i o : ℕ), n - i ≤ fuel → i ≤ n →
      (output + 12 * o) % 4 = 0 →
      ∃ mem', packBody towire input n output fuel mem i o
          = some (mem', i + 4 * ((n - i) / 4), o + (n - i) / 4)
        ∧ Lays towire mem mem' (output + 12 * o) (4 * ((n - i) / 4)) fun j => input (i + j) := by
  intro fuel
  induction fuel with
  | zero =>
    intro mem i o hfuel hle hptr
    have hstop : ¬ (i + 3) % 2 ^ 64 < n := by omega
    have hnone : (n - i) / 4 = 0 := by omega
    rw [packBody, if_neg hstop, hnone]
    exact ⟨mem, rfl, Lays.refl hptr _⟩
  | succ fuel ih =>
    intro mem i o hfuel hle hptr
    by_cases hmore : i + 3 < n
    · have hturn : (i + 3) % 2 ^ 64 < n := by omega
      have hnext : (i + 4) % 2 ^ 64 = i + 4 := by omega
      have hquot : (n - i) / 4 = (n - (i + 4)) / 4 + 1 := by omega
      have hcount : 4 * ((n - i) / 4) = 4 + 4 * ((n - (i + 4)) / 4) := by omega
      have hplace : output + 12 * (o + 1) = output + 12 * o + 3 * 4 := by omega
      have hgroup := @lays_pack towire (fun j => input (i + j)) mem hwire
        (output + 12 * o) 0 4 convert12LineAll hptr
        (by decide) (by decide) (by decide)
      obtain ⟨mem', hrest, hlays⟩ := ih
        (convertStar4ToSc12Item32x3 towire mem (input i) (input (i + 1)) (input (i + 2))
          (input (i + 3)) convert12LineAll (output + 12 * o)) (i + 4) (o + 1) (by omega) (by omega)
        (by omega)
      refine ⟨mem', ?_, ?_⟩
      · rw [packBody, if_pos hturn]
        rw [hnext, hrest, hquot, Nat.mul_add, Nat.add_assoc i, Nat.add_comm 4, Nat.add_assoc o,
          Nat.add_comm 1]
      · rw [hplace] at hlays
        rw [hcount]
        refine hgroup.trans (by omega) ?_
        have hshift : (fun j => input (i + (4 + j))) = fun j => input (i + 4 + j) :=
          funext fun j => congrArg input (Nat.add_assoc i 4 j).symm
        rw [hshift]
        exact hlays
    · have hstop : ¬ (i + 3) % 2 ^ 64 < n := by omega
      have hnone : (n - i) / 4 = 0 := by omega
      rw [packBody, if_neg hstop, hnone]
      exact ⟨mem, rfl, Lays.refl hptr _⟩

theorem lays_packTail (hwire : ∀ x, towire (towire x) = x) {tail i output : ℕ} (htail : tail < 4)
    (haddr : output % 4 = 0) :
    Lays towire mem (packTail towire input mem tail i output) output tail
      fun j => input (i + j) := by
  have hcases : tail = 0 ∨ tail = 1 ∨ tail = 2 ∨ tail = 3 := by omega
  rcases hcases with rfl | rfl | rfl | rfl
  · exact Lays.refl haddr _
  · exact @lays_pack towire (fun j => input (i + j)) mem hwire output 0 1 _ haddr (by decide)
      (by decide) (by decide)
  · exact @lays_pack towire (fun j => input (i + j)) mem hwire output 0 2 _ haddr (by decide)
      (by decide) (by decide)
  · exact @lays_pack towire (fun j => input (i + j)) mem hwire output 0 3 _ haddr (by decide)
      (by decide) (by decide)

theorem exists_packSc12 (hwire : ∀ x, towire (towire x) = x) {ptr n : ℕ}
    (hptr : rewind ptr ≤ ptr) (hn : n + 4 ≤ 2 ^ 64) :
    ∃ mem', packSc12 towire input mem ptr n = some mem' ∧
      Lays towire mem mem' ptr (laidSamps ptr n) input := by
  have hhead := @lays_packHead towire input mem hwire ptr hptr
  have hmod : headSamps ptr = ptr % 4 := rfl
  have hback := rewind_eq ptr
  by_cases hle : headSamps ptr ≤ n
  · have hplace : ptr - rewind ptr + 12 * (if headSamps ptr = 0 then 0 else 1)
        = ptr + 3 * headSamps ptr := by
      split_ifs with hzero <;> omega
    obtain ⟨mem', hbody, hlays⟩ := @exists_packBody towire input hwire n (ptr - rewind ptr)
      hn n (packHead towire input mem (headSamps ptr) (ptr - rewind ptr)) (headSamps ptr)
      (if headSamps ptr = 0 then 0 else 1) (Nat.sub_le _ _) hle (by omega)
    have hsub : sizeSub n (headSamps ptr + 4 * ((n - headSamps ptr) / 4))
        = (n - headSamps ptr) % 4 := by
      rw [sizeSub_of_le (by omega) (by omega)]
      omega
    have htail := @lays_packTail towire input mem' hwire _
      (headSamps ptr + 4 * ((n - headSamps ptr) / 4))
      (ptr + 3 * (headSamps ptr + 4 * ((n - headSamps ptr) / 4)))
      (Nat.mod_lt (n - headSamps ptr) (by decide : 4 > 0)) (by omega)
    rw [hplace] at hlays
    have hend : ptr - rewind ptr
        + 12 * ((if headSamps ptr = 0 then 0 else 1) + (n - headSamps ptr) / 4)
          = ptr + 3 * (headSamps ptr + 4 * ((n - headSamps ptr) / 4)) := by omega
    refine ⟨packTail towire input mem' ((n - headSamps ptr) % 4)
      (headSamps ptr + 4 * ((n - headSamps ptr) / 4))
      (ptr + 3 * (headSamps ptr + 4 * ((n - headSamps ptr) / 4))), ?_, ?_⟩
    · rw [packSc12]
      rw [hbody, Option.map_some]
      dsimp only
      rw [hsub, hend]
    · have hall := (hhead.trans (by omega) hlays).trans (by omega) htail
      have hcount : headSamps ptr + 4 * ((n - headSamps ptr) / 4) + (n - headSamps ptr) % 4
          = laidSamps ptr n := by
        rw [laidSamps, max_eq_left hle]
        omega
      rw [hcount] at hall
      exact hall
  · have hstop : ¬ (headSamps ptr + 3) % 2 ^ 64 < n := by omega
    have hbody : packBody towire input n (ptr - rewind ptr) n
        (packHead towire input mem (headSamps ptr) (ptr - rewind ptr)) (headSamps ptr)
        (if headSamps ptr = 0 then 0 else 1)
          = some (packHead towire input mem (headSamps ptr) (ptr - rewind ptr), headSamps ptr,
              if headSamps ptr = 0 then 0 else 1) := by
      rw [packBody.eq_def]
      dsimp only
      rw [if_neg hstop]
    -- What remains to be packed wraps around, and is no case of the tail.
    have htail : ∀ mem i output, packTail towire input mem (sizeSub n (headSamps ptr)) i output
        = mem := by
      intro mem i output
      have hwrap : 4 ≤ sizeSub n (headSamps ptr) := by
        rw [sizeSub]
        omega
      obtain ⟨tail, htail⟩ := Nat.exists_eq_add_of_le hwrap
      rw [htail, Nat.add_comm]
      rfl
    refine ⟨packHead towire input mem (headSamps ptr) (ptr - rewind ptr), ?_, ?_⟩
    · rw [packSc12]
      rw [hbody, Option.map_some]
      dsimp only
      rw [htail]
    · rw [laidSamps, max_eq_right (not_le.mp hle).le]
      exact hhead

/-! ## The neighbours -/

theorem Lays.ownBitsOnly_iff {ptr n : ℕ} {f : ℕ → Sc16}
    (h : Lays towire mem mem' ptr (laidSamps ptr n) f) :
    OwnBitsOnly towire mem mem' ptr n ↔ NeighboursKept (wireBit towire mem) ptr n f := by
  have hlaid : laidSamps ptr n = max n (headSamps ptr) := rfl
  constructor
  · intro hown
    refine ⟨fun p hline hbefore => ?_, fun p hbehind hrest => ?_, fun p hbehind hline => ?_⟩
    · rw [← hown p (by omega), h.within p (by omega) (by omega), decide_eq_false (by omega),
        Bool.false_and]
    · rw [← hown p (by omega), h.within p (by omega) (by omega), decide_eq_true (by omega),
        Bool.true_and]
    · rw [← hown p (by omega), h.within p (by omega) hline, decide_eq_false (by omega),
        Bool.false_and]
  · rintro ⟨hbefore, hrest, hbehind⟩ p hother
    by_cases hline : ptr / 4 ≤ p / 32 ∧ p / 32 < (ptr + 3 * laidSamps ptr n + 3) / 4
    · rw [h.within p hline.1 hline.2]
      by_cases hp : p < 8 * ptr
      · rw [decide_eq_false (by omega), Bool.false_and, hbefore p (by omega) hp]
      · by_cases hlast : p < 8 * ptr + 24 * laidSamps ptr n
        · rw [decide_eq_true ⟨not_lt.mp hp, hlast⟩, Bool.true_and,
            hrest p (by omega) (by omega)]
        · rw [decide_eq_false (by omega), Bool.false_and, hbehind p (by omega) hline.2]
    · exact bit_congr (congrArg towire (h.beside _ hline))

theorem Lays.wireBit_eq {ptr n : ℕ} {f : ℕ → Sc16}
    (h : Lays towire mem mem' ptr (laidSamps ptr n) f) (hown : OwnBitsOnly towire mem mem' ptr n) :
    wireBit towire mem' = place (wireBit towire mem) ptr n f := by
  funext p
  have hlaid : laidSamps ptr n = max n (headSamps ptr) := rfl
  rw [place]
  by_cases hp : 8 * ptr ≤ p ∧ p < 8 * ptr + 24 * n
  · rw [if_pos hp, h.within p (by omega) (by omega), decide_eq_true (by omega), Bool.true_and]
  · rw [if_neg hp, hown p hp]

theorem ext_wireBit (hwire : ∀ x, towire (towire x) = x)
    (h : wireBit towire mem = wireBit towire mem') : mem = mem' := by
  have hlines : (fun a => towire (mem a)) = fun a => towire (mem' a) :=
    ext_bit fun p => congrFun h p
  funext a
  rw [← hwire (mem a), ← hwire (mem' a)]
  exact congrArg towire (congrFun hlines a)

/-! ## Unpacking -/

theorem masked_eq {x y : BitVec 16} (h : ∀ c, c < 12 → y.getMsbD c = x.getMsbD c) :
    y &&& 0xfff0 = x &&& 0xfff0 := by
  refine BitVec.eq_of_getMsbD_eq fun c hc => ?_
  rw [BitVec.getMsbD_and, BitVec.getMsbD_and]
  by_cases hkept : c < 12
  · rw [h c hkept]
  · have hlow : (0xfff0 : BitVec 16).getMsbD c = false := by
      have hcases : c = 12 ∨ c = 13 ∨ c = 14 ∨ c = 15 := by omega
      rcases hcases with rfl | rfl | rfl | rfl <;> rfl
    rw [hlow, Bool.and_false, Bool.and_false]

theorem getMsbD_shifted (line : BitVec 32) {k c : ℕ} (hk : k ≤ 16) (hc : c < 16) :
    ((line >>> k).setWidth 16).getMsbD c = line.getMsbD (16 - k + c) := by
  rw [BitVec.getMsbD_eq_getLsbD, BitVec.getMsbD_eq_getLsbD, BitVec.getLsbD_setWidth, BitVec.getLsbD_ushiftRight, decide_eq_true hc,
    decide_eq_true (by omega), decide_eq_true (by omega), Bool.true_and, Bool.true_and, Bool.true_and]
  congr 1
  omega

theorem getMsbD_straddling (line line' : BitVec 32) {k c : ℕ} (hk : 16 < k) (hk' : k ≤ 32)
    (hc : c < 16) :
    ((((line.setWidth 64 <<< 32) ||| line'.setWidth 64) >>> k).setWidth 16).getMsbD c
      = if 48 - k + c < 32 then line.getMsbD (48 - k + c) else line'.getMsbD (48 - k + c - 32) := by
  rw [BitVec.getMsbD_eq_getLsbD, BitVec.getLsbD_setWidth, BitVec.getLsbD_ushiftRight,
    BitVec.getLsbD_or, BitVec.getLsbD_shiftLeft, BitVec.getLsbD_setWidth, BitVec.getLsbD_setWidth,
    decide_eq_true hc, decide_eq_true (by omega : 16 - 1 - c < 16), Bool.true_and, Bool.true_and,
    decide_eq_true (by omega : k + (16 - 1 - c) < 64), Bool.true_and, Bool.true_and]
  split_ifs with hline
  · rw [decide_eq_false (by omega : ¬ k + (16 - 1 - c) < 32), Bool.not_false, Bool.true_and,
      decide_eq_true (by omega), Bool.true_and, BitVec.getLsbD_of_ge line' _ (by omega),
      Bool.or_false, BitVec.getMsbD_eq_getLsbD, decide_eq_true hline, Bool.true_and]
    congr 1
    omega
  · rw [decide_eq_true (by omega : k + (16 - 1 - c) < 32), Bool.not_true, Bool.false_and,
      Bool.false_or, BitVec.getMsbD_eq_getLsbD,
      decide_eq_true (by omega : 48 - k + c - 32 < 32), Bool.true_and]
    congr 1
    omega

theorem getMsbD_shiftedBack (line : BitVec 32) {c : ℕ} (hc : c < 12) :
    ((line <<< 4).setWidth 16).getMsbD c = line.getMsbD (20 + c) := by
  rw [BitVec.getMsbD_eq_getLsbD, BitVec.getMsbD_eq_getLsbD, BitVec.getLsbD_setWidth,
    BitVec.getLsbD_shiftLeft, decide_eq_true (by omega : c < 16),
    decide_eq_true (by omega : 16 - 1 - c < 16), decide_eq_true (by omega : 16 - 1 - c < 32),
    decide_eq_false (by omega : ¬ 16 - 1 - c < 4), decide_eq_true (by omega : 20 + c < 32)]
  rw [Bool.not_false, Bool.true_and, Bool.true_and, Bool.true_and, Bool.true_and, Bool.true_and]
  congr 1
  omega

theorem unpack_eq {lines : Item32Sc12x3} {held : ℕ → Bool} {g : ℕ → Sc16}
    (h₀ : ∀ q, q < 32 → (towire lines.line0).getMsbD q = held q)
    (h₁ : ∀ q, q < 32 → (towire lines.line1).getMsbD q = held (32 + q))
    (h₂ : ∀ q, q < 32 → (towire lines.line2).getMsbD q = held (64 + q)) {j : ℕ} (hj : j < 4)
    (hheld : ∀ p, p / 24 = j → held p = sampleBit g p) :
    nth (convertSc12Item32x3ToStar4 (sc16Loader towire) lines) j = cleared (g j) := by
  have hbit : ∀ i c p, c < 12 → p = 12 * i + c → i / 2 = j →
      held p = (component g i).getMsbD c := by
    rintro i c p hc rfl hi
    have hdiv : (12 * i + c) / 12 = i := by omega
    have hmod : (12 * i + c) % 12 = c := by omega
    rw [hheld _ (by omega), sampleBit, hdiv, hmod]
  have hcases : j = 0 ∨ j = 1 ∨ j = 2 ∨ j = 3 := by omega
  rcases hcases with rfl | rfl | rfl | rfl
  · refine Prod.ext (masked_eq fun c hc => ?_) (masked_eq fun c hc => ?_)
    · show ((towire lines.line0 >>> 16).setWidth 16).getMsbD c = _
      rw [getMsbD_shifted _ (by decide) (by omega), h₀ _ (by omega)]
      exact hbit 0 c _ hc (by omega) rfl
    · show ((towire lines.line0 >>> 4).setWidth 16).getMsbD c = _
      rw [getMsbD_shifted _ (by decide) (by omega), h₀ _ (by omega)]
      exact hbit 1 c _ hc (by omega) rfl
  · refine Prod.ext (masked_eq fun c hc => ?_) (masked_eq fun c hc => ?_)
    · show (((((towire lines.line0).setWidth 64 <<< 32) ||| (towire lines.line1).setWidth 64)
        >>> 24).setWidth 16).getMsbD c = _
      rw [getMsbD_straddling _ _ (by decide) (by decide) (by omega)]
      split_ifs with hline
      · rw [h₀ _ hline]
        exact hbit 2 c _ hc (by omega) rfl
      · rw [h₁ _ (by omega)]
        exact hbit 2 c _ hc (by omega) rfl
    · show ((towire lines.line1 >>> 12).setWidth 16).getMsbD c = _
      rw [getMsbD_shifted _ (by decide) (by omega), h₁ _ (by omega)]
      exact hbit 3 c _ hc (by omega) rfl
  · refine Prod.ext (masked_eq fun c hc => ?_) (masked_eq fun c hc => ?_)
    · show ((towire lines.line1 >>> 0).setWidth 16).getMsbD c = _
      rw [getMsbD_shifted _ (by decide) (by omega), h₁ _ (by omega)]
      exact hbit 4 c _ hc (by omega) rfl
    · show (((((towire lines.line1).setWidth 64 <<< 32) ||| (towire lines.line2).setWidth 64)
        >>> 20).setWidth 16).getMsbD c = _
      rw [getMsbD_straddling _ _ (by decide) (by decide) (by omega)]
      split_ifs with hline
      · rw [h₁ _ hline]
        exact hbit 5 c _ hc (by omega) rfl
      · rw [h₂ _ (by omega)]
        exact hbit 5 c _ hc (by omega) rfl
  · refine Prod.ext (masked_eq fun c hc => ?_) (masked_eq fun c hc => ?_)
    · show ((towire lines.line2 >>> 8).setWidth 16).getMsbD c = _
      rw [getMsbD_shifted _ (by decide) (by omega), h₂ _ (by omega)]
      exact hbit 6 c _ hc (by omega) rfl
    · show ((towire lines.line2 <<< 4).setWidth 16).getMsbD c = _
      rw [getMsbD_shiftedBack _ hc, h₂ _ (by omega)]
      exact hbit 7 c _ hc (by omega) rfl

theorem sampleAt_eq {base k : ℕ} (hbase : base % 4 = 0) {f : ℕ → Sc16}
    (hheld : ∀ p, p / 24 = k → wireBit towire mem (8 * base + p) = sampleBit f p) :
    sampleAt (sc16Loader towire) mem base k = cleared (f k) := by
  have hline : ∀ l q, q < 32 → (towire (mem ((base + 12 * (k / 4)) / 4 + l))).getMsbD q
      = wireBit towire mem (8 * base + (96 * (k / 4) + (32 * l + q))) := by
    intro l q hq
    have hplace : 8 * base + (96 * (k / 4) + (32 * l + q))
        = 32 * ((base + 12 * (k / 4)) / 4 + l) + q := by omega
    rw [wireBit, hplace, bit_mul_add _ _ hq]
  have hzero : ∀ q, q < 32 → (towire (mem ((base + 12 * (k / 4)) / 4))).getMsbD q
      = wireBit towire mem (8 * base + (96 * (k / 4) + q)) := by
    intro q hq
    have h := hline 0 q hq
    rw [Nat.mul_zero, Nat.zero_add] at h
    exact h
  have hsample := @unpack_eq towire (itemAt mem (base + 12 * (k / 4)))
    (fun p => wireBit towire mem (8 * base + (96 * (k / 4) + p)))
    (fun j => f (4 * (k / 4) + j)) hzero (hline 1) (hline 2) _
    (Nat.mod_lt k (by decide : 4 > 0)) fun p hp => by
      rw [hheld _ (by omega)]
      refine sampleBit_congr (by omega) ?_
      congr 1
      omega
  rw [sampleAt, hsample, Nat.div_add_mod]

theorem conv_of_lays {ptr n : ℕ} {f : ℕ → Sc16} (hn : n + 4 ≤ 2 ^ 64) (hptr : headSamps ptr = 0)
    (h : Lays towire mem mem' ptr (laidSamps ptr n) f) :
    conv (sc16Loader towire) mem' ptr n
      = some ((List.range n).map fun j => (j, cleared (f j))) := by
  have hbase : ptr % 4 = 0 := hptr
  have hcall := conv_eq (k := 0) (sc16Loader towire) mem' hbase hn (Or.inr (Nat.zero_le n))
  rw [Nat.zero_mul, Nat.add_zero] at hcall
  rw [hcall, row, ← List.range_eq_range']
  refine congrArg some (List.map_congr_left fun j hj => ?_)
  have hj' : j < n := List.mem_range.mp hj
  have hlaid : laidSamps ptr n = n := by
    rw [laidSamps, hptr, Nat.max_zero]
  rw [hlaid] at h
  rw [Nat.zero_add]
  refine congrArg (Prod.mk j) (sampleAt_eq hbase fun p hp => ?_)
  rw [h.within _ (by omega) (by omega), decide_eq_true (by omega), Bool.true_and,
    Nat.add_sub_cancel_left]

/-! ## The parts of a packet -/

theorem place_zero (held : ℕ → Bool) (ptr : ℕ) (f : ℕ → Sc16) : place held ptr 0 f = held := by
  funext p
  rw [place, if_neg (by omega)]

theorem place_place (held : ℕ → Bool) (ptr m n : ℕ) (f : ℕ → Sc16) :
    place (place held ptr m f) (ptr + 3 * m) n (fun j => f (m + j))
      = place held ptr (m + n) f := by
  funext p
  rw [place, place, place]
  by_cases hnew : 8 * (ptr + 3 * m) ≤ p ∧ p < 8 * (ptr + 3 * m) + 24 * n
  · rw [if_pos hnew, if_pos (by omega)]
    refine sampleBit_congr (by omega) ?_
    congr 1
    omega
  · rw [if_neg hnew]
    by_cases hold : 8 * ptr ≤ p ∧ p < 8 * ptr + 24 * m
    · rw [if_pos hold, if_pos (by omega)]
    · rw [if_neg hold, if_neg (by omega)]

theorem exists_packConv (hwire : ∀ x, towire (towire x) = x) {ptr n : ℕ}
    (hptr : rewind ptr ≤ ptr) (hn : n + 4 ≤ 2 ^ 64) (mem : ℕ → BitVec 32) (input : ℕ → Sc16) :
    ∃ mem', packConv towire input mem ptr n = some mem' ∧
      (OwnBitsOnly towire mem mem' ptr n ↔ n = 0 ∨ NeighboursKept (wireBit towire mem) ptr n input)
      ∧ (OwnBitsOnly towire mem mem' ptr n →
        wireBit towire mem' = place (wireBit towire mem) ptr n input)
      ∧ (headSamps ptr = 0 → conv (sc16Loader towire) mem' ptr n
        = some ((List.range n).map fun j => (j, cleared (input j)))) := by
  rw [packConv]
  by_cases hzero : n = 0
  · rw [if_neg (not_not_intro hzero), hzero]
    refine ⟨mem, rfl, iff_of_true (fun _ _ => rfl) (Or.inl rfl), fun _ => ?_, fun _ => rfl⟩
    rw [place_zero]
  · rw [if_pos hzero]
    obtain ⟨mem', hcall, hlays⟩ := @exists_packSc12 towire input mem hwire ptr n hptr hn
    refine ⟨mem', hcall, ?_, hlays.wireBit_eq, fun hhead => conv_of_lays hn hhead hlays⟩
    rw [hlays.ownBitsOnly_iff]
    exact (or_iff_right hzero).symm

theorem everyPartOwn_iff (hwire : ∀ x, towire (towire x) = x) {base : ℕ} (hbase : base % 4 = 0) :
    ∀ (ns : List ℕ) (k : ℕ) (mem : ℕ → BitVec 32) (input : ℕ → Sc16), ns.sum + 4 ≤ 2 ^ 64 →
      (EveryPartOwn towire input mem (base + 3 * k) ns
        ↔ PartsKept (wireBit towire mem) (base + 3 * k) input ns)
      ∧ (EveryPartOwn towire input mem (base + 3 * k) ns →
        ∃ mem', packParts towire input mem (base + 3 * k) ns = some mem' ∧
          wireBit towire mem' = place (wireBit towire mem) (base + 3 * k) ns.sum input) := by
  intro ns
  induction ns with
  | nil =>
    intro k mem input _
    refine ⟨Iff.rfl, fun _ => ⟨mem, rfl, ?_⟩⟩
    rw [List.sum_nil, place_zero]
  | cons n ns ih =>
    intro k mem input hsum
    rw [List.sum_cons] at hsum
    have hback := rewind_le hbase k
    obtain ⟨mem', hcall, hown, hplace, -⟩ :=
      exists_packConv hwire hback (by omega : n + 4 ≤ 2 ^ 64) mem input
    have hnext : base + 3 * k + 3 * n = base + 3 * (k + n) := by omega
    obtain ⟨hiff, hrest⟩ := ih (k + n) mem' (fun j => input (n + j)) (by omega)
    rw [EveryPartOwn, PartsKept, hnext, ← hown]
    constructor
    · constructor
      · rintro ⟨mem'', hcall', hown', hparts⟩
        obtain rfl : mem' = mem'' := Option.some_inj.mp (hcall.symm.trans hcall')
        rw [← hplace hown']
        exact ⟨hown', hiff.mp hparts⟩
      · rintro ⟨hown', hparts⟩
        rw [← hplace hown'] at hparts
        exact ⟨mem', hcall, hown', hiff.mpr hparts⟩
    · rintro ⟨mem'', hcall', hown', hparts⟩
      obtain rfl : mem' = mem'' := Option.some_inj.mp (hcall.symm.trans hcall')
      obtain ⟨mem'', hfinal, hbits⟩ := hrest hparts
      refine ⟨mem'', ?_, ?_⟩
      · rw [packParts, hcall, Option.bind_some, hnext]
        exact hfinal
      · rw [hbits, hplace hown', ← hnext, place_place, List.sum_cons]

end Lines

/-- **Packing in parts.**  For every order of the bytes of host and link, memory, packet that starts
with a group, place in it and split of samples from there on: every call changes the bits of its
samples only, the parts give what one call does, and what starts with a group can be unpacked,
exactly when the neighbours are kept, by the one call and by each of the parts. -/
theorem packsCleanly_iff (host link : Endianness) (mem : ℕ → BitVec 32) (b : PacketBuffer)
    (input : ℕ → Sc16) (k : ℕ) (ns : List ℕ) (hroom : k + ns.sum ≤ b.numSamps) :
    PacksCleanly (host.conv link) input mem (b.base + 3 * k) ns ↔
      (ns.sum = 0 ∨
        NeighboursKept (wireBit (host.conv link) mem) (b.base + 3 * k) ns.sum input) ∧
      PartsKept (wireBit (host.conv link) mem) (b.base + 3 * k) input ns := by
  have hfits := b.fits
  have hsum : ns.sum + 4 ≤ 2 ^ 64 := by omega
  have hwire : ∀ x : BitVec 32, host.conv link (host.conv link x) = x :=
    Endianness.conv_conv host link rfl
  have hback := rewind_le b.aligned k
  obtain ⟨whole, hcall, hown, hplace, hround⟩ := exists_packConv hwire hback hsum mem input
  obtain ⟨hiff, hparts⟩ := everyPartOwn_iff hwire b.aligned ns k mem input hsum
  rw [← hown, ← hiff]
  constructor
  · rintro ⟨whole', hcall', hown', hevery, -, -⟩
    obtain rfl : whole = whole' := Option.some_inj.mp (hcall.symm.trans hcall')
    exact ⟨hown', hevery⟩
  · rintro ⟨hown', hevery⟩
    obtain ⟨mem', hfinal, hbits⟩ := hparts hevery
    have hsame : mem' = whole := ext_wireBit hwire (hbits.trans (hplace hown').symm)
    rw [hsame] at hfinal
    exact ⟨whole, hcall, hown', hevery, hfinal, hround⟩

/-- A packet of seven samples that is packed in parts of four and of three. -/
theorem packsCleanly_four_three :
    PacksCleanly (Endianness.little.conv .big) (fun j => (BitVec.ofNat 16 j, 0x7ff0))
        (fun _ => 0) (smallPacket.base + 3 * 0) [4, 3] ↔
      ([4, 3].sum = 0 ∨
        NeighboursKept (wireBit (Endianness.little.conv .big) fun _ => 0)
          (smallPacket.base + 3 * 0) [4, 3].sum fun j => (BitVec.ofNat 16 j, 0x7ff0)) ∧
      PartsKept (wireBit (Endianness.little.conv .big) fun _ => 0) (smallPacket.base + 3 * 0)
        (fun j => (BitVec.ofNat 16 j, 0x7ff0)) [4, 3] :=
  packsCleanly_iff .little .big (fun _ => 0) smallPacket (fun j => (BitVec.ofNat 16 j, 0x7ff0)) 0
    [4, 3] (by decide)

/-- After one sample, the call for the next three clears the first one. -/
theorem sample_cleared : ¬ ∀ (host link : Endianness) (mem : ℕ → BitVec 32) (b : PacketBuffer)
    (input : ℕ → Sc16) (k : ℕ) (ns : List ℕ), k + ns.sum ≤ b.numSamps →
      PacksCleanly (host.conv link) input mem (b.base + 3 * k) ns := by
  intro hall
  obtain ⟨whole, -, -, hparts, -, -⟩ := hall .little .little (fun _ => 0) smallPacket
    (fun _ => (0xfff0, 0xfff0)) 0 [1, 3] (by decide)
  obtain ⟨mem', hfirst, -, mem'', hsecond, hown, -⟩ := hparts
  have hbit : ((packConv (Endianness.little.conv .little) (fun _ => (0xfff0, 0xfff0)) (fun _ => 0)
      16 1).map fun mem => wireBit (Endianness.little.conv .little) mem 128) = some true := by
    decide +kernel
  have hlost : (((packConv (Endianness.little.conv .little) (fun _ => (0xfff0, 0xfff0))
      (fun _ => 0) 16 1).bind fun mem =>
        packConv (Endianness.little.conv .little) (fun _ => (0xfff0, 0xfff0)) mem 19 3).map
          fun mem => wireBit (Endianness.little.conv .little) mem 128) = some false := by
    decide +kernel
  have hfirst' : packConv (Endianness.little.conv .little) (fun _ => (0xfff0, 0xfff0))
    (fun _ => 0) 16 1 = some mem' := hfirst
  have hsecond' : packConv (Endianness.little.conv .little) (fun _ => (0xfff0, 0xfff0)) mem' 19 3
    = some mem'' := hsecond
  rw [hfirst', Option.map_some, Option.some_inj] at hbit
  rw [hfirst', Option.bind_some, hsecond', Option.map_some, Option.some_inj] at hlost
  have hkept := hown 128 (by decide)
  rw [hbit, hlost] at hkept
  exact Bool.false_ne_true hkept

end Convert
end UhdHost
