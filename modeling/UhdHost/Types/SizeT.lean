import Mathlib

/-!
# Sizes

Differences of sizes (`size_t`) are numbers of 64 bits: what would be below zero wraps around.
-/

namespace UhdHost

/-- The difference of two sizes. -/
def sizeSub (a b : ℕ) : ℕ := (a + (2 ^ 64 - b)) % 2 ^ 64

theorem sizeSub_of_le {a b : ℕ} (hle : b ≤ a) (hlt : a < 2 ^ 64) : sizeSub a b = a - b := by
  rw [sizeSub]
  omega

end UhdHost
