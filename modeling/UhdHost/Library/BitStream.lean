import Mathlib.Data.Nat.Basic
import Mathlib.Logic.Function.Basic

/-!
# The bits of a memory of words

The bits of a memory of words are numbered from the highest bit of its first word on, so that what
is written word by word can be read as a stream of bits.  A memory is its bits (`ext_bit`).
-/

namespace UhdHost
namespace BitStream

variable {w : ℕ}

/-- A bit of the memory. -/
def bit (words : ℕ → BitVec w) (p : ℕ) : Bool := (words (p / w)).getMsbD (p % w)

theorem bit_mul_add (words : ℕ → BitVec w) (l : ℕ) {q : ℕ} (hq : q < w) :
    bit words (w * l + q) = (words l).getMsbD q := by
  have hdiv : (w * l + q) / w = l := by
    rw [Nat.mul_add_div (Nat.zero_lt_of_lt hq), Nat.div_eq_of_lt hq, Nat.add_zero]
  have hmod : (w * l + q) % w = q := by
    rw [Nat.mul_add_mod, Nat.mod_eq_of_lt hq]
  rw [bit, hdiv, hmod]

/-- **A word is its bits.** -/
theorem word_ext {words words' : ℕ → BitVec w} {l : ℕ}
    (h : ∀ p, p / w = l → bit words p = bit words' p) : words l = words' l := by
  refine BitVec.eq_of_getMsbD_eq fun q hq => ?_
  have hdiv : (w * l + q) / w = l := by
    rw [Nat.mul_add_div (Nat.zero_lt_of_lt hq), Nat.div_eq_of_lt hq, Nat.add_zero]
  have hbits := h (w * l + q) hdiv
  rw [bit_mul_add words l hq, bit_mul_add words' l hq] at hbits
  exact hbits

/-- **A memory is its bits.** -/
theorem ext_bit {words words' : ℕ → BitVec w} (h : ∀ p, bit words p = bit words' p) :
    words = words' :=
  funext fun _ => word_ext fun p _ => h p

/-- The bits of a word that is left as it was. -/
theorem bit_congr {words words' : ℕ → BitVec w} {p : ℕ} (h : words (p / w) = words' (p / w)) :
    bit words p = bit words' p := by
  rw [bit, bit, h]

end BitStream
end UhdHost
