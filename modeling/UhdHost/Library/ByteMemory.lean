import Mathlib.Data.Set.Function
import UhdHost.Library.WordBytes

/-!
# Words in a memory of bytes

A memory is a function from addresses to bytes.  A word of 64 bits lies in eight bytes from an
address that is a multiple of eight on, in one of the orders of bytes that are their own inverse.

What is written is read back (`wordAt_setWord`, `wordsAt_setWords`, `bytesAt_setBytes`), and the
bytes outside are as before.  Two memories that agree on a range of bytes agree on all that is
read from there.
-/

namespace UhdHost

/-- An order of the bytes of a word: where the byte of a given significance lies. -/
structure ByteOrder where
  lane : ℕ → ℕ
  lane_lt : ∀ {j}, j < 8 → lane j < 8
  lane_lane : ∀ {j}, j < 8 → lane (lane j) = j

/-- The lowest byte first. -/
def ByteOrder.lowestFirst : ByteOrder := ⟨id, id, fun _ => rfl⟩

/-- The highest byte first. -/
def ByteOrder.highestFirst : ByteOrder where
  lane j := 7 - j
  lane_lt := by omega
  lane_lane := by omega

namespace ByteMemory

open WordBytes

/-- A memory of bytes. -/
abbrev Memory := ℕ → BitVec 8

variable (o : ByteOrder) {mem mem' : Memory}

/-- The word of an index. -/
def wordAt (mem : Memory) (i : ℕ) : BitVec 64 := ofBytes 64 fun j => mem (8 * i + o.lane j)

/-- Write the word of an index. -/
def setWord (mem : Memory) (i : ℕ) (x : BitVec 64) : Memory :=
  fun a => if a / 8 = i then byte x (o.lane (a % 8)) else mem a

/-- The words from an index on. -/
def wordsAt (mem : Memory) : ℕ → ℕ → List (BitVec 64)
  | _, 0 => []
  | i, n + 1 => wordAt o mem i :: wordsAt mem (i + 1) n

/-- Write words from an index on. -/
def setWords (mem : Memory) : ℕ → List (BitVec 64) → Memory
  | _, [] => mem
  | i, x :: xs => setWords (setWord o mem i x) (i + 1) xs

/-- The bytes from an address on. -/
def bytesAt (mem : Memory) : ℕ → ℕ → List (BitVec 8)
  | _, 0 => []
  | a, n + 1 => mem a :: bytesAt mem (a + 1) n

/-- Write bytes from an address on. -/
def setBytes (mem : Memory) : ℕ → List (BitVec 8) → Memory
  | _, [] => mem
  | a, b :: bs => setBytes (Function.update mem a b) (a + 1) bs

/-! ## Words -/

/-- **A word that was written is read back.** -/
theorem wordAt_setWord (mem : Memory) (i : ℕ) (x : BitVec 64) :
    wordAt o (setWord o mem i x) i = x := by
  refine (ofBytes_congr fun j hj => ?_).trans (ofBytes_byte x)
  have hlane : o.lane j < 8 := o.lane_lt (by omega)
  have hindex : (8 * i + o.lane j) / 8 = i := by omega
  have hmod : (8 * i + o.lane j) % 8 = o.lane j := by omega
  rw [setWord, if_pos hindex, hmod, o.lane_lane (by omega)]

/-- The bytes of other words are as before. -/
theorem eqOn_setWord (mem : Memory) (i : ℕ) (x : BitVec 64) :
    Set.EqOn (setWord o mem i x) mem {a | a < 8 * i ∨ 8 * (i + 1) ≤ a} := by
  intro a ha
  have hindex : a / 8 ≠ i := by
    rcases ha with hlow | hhigh
    · omega
    · omega
  exact if_neg hindex

/-- A word is read from its eight bytes. -/
theorem wordAt_congr {i : ℕ} (h : Set.EqOn mem mem' (Set.Ico (8 * i) (8 * (i + 1)))) :
    wordAt o mem i = wordAt o mem' i := by
  refine ofBytes_congr fun j hj => h ?_
  have hlane : o.lane j < 8 := o.lane_lt (by omega)
  exact Set.mem_Ico.mpr (by omega)

theorem wordsAt_congr {i n : ℕ} (h : Set.EqOn mem mem' (Set.Ico (8 * i) (8 * (i + n)))) :
    wordsAt o mem i n = wordsAt o mem' i n := by
  induction n generalizing i with
  | zero => rfl
  | succ n ih =>
    have hfirst : wordAt o mem i = wordAt o mem' i :=
      wordAt_congr o (h.mono (Set.Ico_subset_Ico_right (by omega)))
    have hrest : wordsAt o mem (i + 1) n = wordsAt o mem' (i + 1) n :=
      ih (h.mono (Set.Ico_subset_Ico (by omega) (by omega)))
    rw [wordsAt, wordsAt, hfirst, hrest]

/-- The bytes before and after words that are written are as before. -/
theorem eqOn_setWords (mem : Memory) (i : ℕ) (xs : List (BitVec 64)) :
    Set.EqOn (setWords o mem i xs) mem {a | a < 8 * i ∨ 8 * (i + xs.length) ≤ a} := by
  induction xs generalizing mem i with
  | nil => exact fun _ _ => rfl
  | cons x xs ih =>
    intro a ha
    rw [List.length_cons] at ha
    have hrest : a < 8 * (i + 1) ∨ 8 * (i + 1 + xs.length) ≤ a := by
      rcases ha with hlow | hhigh
      · exact Or.inl (by omega)
      · exact Or.inr (by omega)
    have hfirst : a < 8 * i ∨ 8 * (i + 1) ≤ a := by
      rcases ha with hlow | hhigh
      · exact Or.inl hlow
      · exact Or.inr (by omega)
    exact (ih (setWord o mem i x) (i + 1) hrest).trans (eqOn_setWord o mem i x hfirst)

/-- **Words that were written are read back.** -/
theorem wordsAt_setWords (mem : Memory) (i : ℕ) (xs : List (BitVec 64)) :
    wordsAt o (setWords o mem i xs) i xs.length = xs := by
  induction xs generalizing mem i with
  | nil => rfl
  | cons x xs ih =>
    have hlater : Set.EqOn (setWords o (setWord o mem i x) (i + 1) xs) (setWord o mem i x)
        (Set.Ico (8 * i) (8 * (i + 1))) :=
      (eqOn_setWords o (setWord o mem i x) (i + 1) xs).mono fun a ha => Or.inl ha.2
    rw [setWords, List.length_cons, wordsAt, ih, wordAt_congr o hlater, wordAt_setWord]

/-! ## Bytes -/

/-- The bytes before and after bytes that are written are as before. -/
theorem eqOn_setBytes (mem : Memory) (a : ℕ) (bs : List (BitVec 8)) :
    Set.EqOn (setBytes mem a bs) mem {c | c < a ∨ a + bs.length ≤ c} := by
  induction bs generalizing mem a with
  | nil => exact fun _ _ => rfl
  | cons b bs ih =>
    intro c hc
    rw [List.length_cons] at hc
    have hrest : c < a + 1 ∨ a + 1 + bs.length ≤ c := by
      rcases hc with hlow | hhigh
      · exact Or.inl (by omega)
      · exact Or.inr (by omega)
    have hne : c ≠ a := by
      rcases hc with hlow | hhigh
      · omega
      · omega
    exact (ih (Function.update mem a b) (a + 1) hrest).trans (Function.update_of_ne hne b mem)

/-- **Bytes that were written are read back.** -/
theorem bytesAt_setBytes (mem : Memory) (a : ℕ) (bs : List (BitVec 8)) :
    bytesAt (setBytes mem a bs) a bs.length = bs := by
  induction bs generalizing mem a with
  | nil => rfl
  | cons b bs ih =>
    have hfirst : setBytes (Function.update mem a b) (a + 1) bs a = b :=
      (eqOn_setBytes (Function.update mem a b) (a + 1) bs (Or.inl (Nat.lt_succ_self a))).trans
        (Function.update_self a b mem)
    rw [setBytes, List.length_cons, bytesAt, ih, hfirst]

end ByteMemory
end UhdHost
