import Mathlib

/-!
# Words as bytes

The bytes of a word are numbered from the lowest one on.  A word is its bytes (`ofBytes_byte`),
and swapping the bytes of a word twice gives the word again (`byteswap_byteswap`).
-/

namespace UhdHost
namespace WordBytes

variable {n : ℕ}

/-- A byte of a word. -/
def byte (x : BitVec n) (i : ℕ) : BitVec 8 := x.extractLsb' (8 * i) 8

/-- The word with the given bytes. -/
def ofBytes (n : ℕ) (bytes : ℕ → BitVec 8) : BitVec n :=
  BitVec.ofFnLE fun i : Fin n => (bytes (i / 8)).getLsbD (i % 8)

/-- The bytes in reverse order. -/
def byteswap (x : BitVec n) : BitVec n := ofBytes n fun i => byte x (n / 8 - 1 - i)

theorem getLsbD_byte (x : BitVec n) (i j : ℕ) :
    (byte x i).getLsbD j = (decide (j < 8) && x.getLsbD (8 * i + j)) :=
  BitVec.getLsbD_extractLsb' (8 * i) 8 x j

theorem getLsbD_ofBytes (bytes : ℕ → BitVec 8) {i : ℕ} (hi : i < n) :
    (ofBytes n bytes).getLsbD i = (bytes (i / 8)).getLsbD (i % 8) := by
  rw [ofBytes, BitVec.getLsbD_ofFnLE, dif_pos hi]

/-- **A word is its bytes.** -/
theorem ofBytes_byte (x : BitVec n) : ofBytes n (byte x) = x := by
  refine BitVec.eq_of_getLsbD_eq fun i hi => ?_
  have hmod : i % 8 < 8 := Nat.mod_lt i (by decide)
  rw [getLsbD_ofBytes _ hi, getLsbD_byte, decide_eq_true hmod, Bool.true_and, Nat.div_add_mod]

theorem byte_ofBytes (bytes : ℕ → BitVec 8) {i : ℕ} (hi : 8 * i + 8 ≤ n) :
    byte (ofBytes n bytes) i = bytes i := by
  refine BitVec.eq_of_getLsbD_eq fun j hj => ?_
  have hdiv : (8 * i + j) / 8 = i := by omega
  have hmod : (8 * i + j) % 8 = j := by omega
  rw [getLsbD_byte, decide_eq_true hj, Bool.true_and, getLsbD_ofBytes _ (by omega), hdiv, hmod]

/-- Only the bytes of the word matter. -/
theorem ofBytes_congr {bytes bytes' : ℕ → BitVec 8} (h : ∀ i, 8 * i < n → bytes i = bytes' i) :
    ofBytes n bytes = ofBytes n bytes' := by
  refine BitVec.eq_of_getLsbD_eq fun i hi => ?_
  rw [getLsbD_ofBytes _ hi, getLsbD_ofBytes _ hi, h (i / 8) (by omega)]

/-- **Swapping the bytes twice.** -/
theorem byteswap_byteswap (x : BitVec n) (hn : n % 8 = 0) : byteswap (byteswap x) = x := by
  rw [← ofBytes_byte x]
  refine ofBytes_congr fun i hi => ?_
  have hback : n / 8 - 1 - (n / 8 - 1 - i) = i := by omega
  rw [ofBytes_byte, byteswap, byte_ofBytes _ (by omega), hback]

end WordBytes
end UhdHost
