import Mathlib.Data.UInt
import Mathlib.Algebra.Order.Group.Nat
import Mathlib.Tactic.Common

/-!
# Credit windows over wrapping counters

A sender keeps the amount it has sent and the amount it knows to be acknowledged, and sends
only while the difference stays within a capacity.  Both amounts grow without bound; the
machine keeps them in 64-bit counters that wrap.

## The window and its counters

`Window` is the pair of true amounts.  That no more is acknowledged than was sent is a field
of the structure, so a window in which something is outstanding twice cannot be built.
`Represents` connects it to the two counters: `Represents.toNat_outstanding` and
`Represents.toNat_space` say that the unsigned differences are the true ones, however often
the counters have wrapped, as long as the window is within the capacity.

## Rounding to whole units

`roundUp` rounds an amount up to a multiple of a unit.  A check made with the exact amount is
good enough for the rounded one where the room is a whole number of units
(`roundUp_le_of_dvd`).
-/

namespace UhdHost
namespace CreditWindow

/-! ## Rounding -/

/-- Round up to a multiple of a unit. -/
def roundUp (unit n : ℕ) : ℕ := (n + unit - 1) / unit * unit

theorem dvd_roundUp (unit n : ℕ) : unit ∣ roundUp unit n := Nat.dvd_mul_left ..

/-- Where the room is a whole number of units, what fits also fits when rounded up. -/
theorem roundUp_le_of_dvd {unit n room : ℕ} (hunit : 0 < unit) (hroom : unit ∣ room)
    (h : n ≤ room) : roundUp unit n ≤ room := by
  obtain ⟨k, rfl⟩ := hroom
  rw [roundUp, Nat.mul_comm unit k]
  refine Nat.mul_le_mul_right unit (Nat.lt_succ_iff.mp (Nat.div_lt_of_lt_mul ?_))
  rw [Nat.mul_succ]
  omega

/-! ## The window -/

/-- How much was sent and how much of it is known to be acknowledged. -/
structure Window where
  sent : ℕ
  acked : ℕ
  acked_le : acked ≤ sent

namespace Window

/-- What was sent and is not known to be acknowledged. -/
def outstanding (w : Window) : ℕ := w.sent - w.acked

/-- Nothing sent yet. -/
def empty : Window := ⟨0, 0, le_rfl⟩

/-- Send `n` more. -/
def send (w : Window) (n : ℕ) : Window := ⟨w.sent + n, w.acked, by have := w.acked_le; omega⟩

/-- Learn that `r` in all were acknowledged. -/
def ack (w : Window) (r : ℕ) (h : r ≤ w.sent) : Window := ⟨w.sent, r, h⟩

@[simp] theorem outstanding_empty : empty.outstanding = 0 := rfl

end Window

/-! ## The counters -/

/-- The counters hold the amounts of the window, modulo `2 ^ 64`. -/
structure Represents (sent acked : UInt64) (w : Window) : Prop where
  sent : sent = UInt64.ofNat w.sent
  acked : acked = UInt64.ofNat w.acked

theorem represents_empty : Represents 0 0 Window.empty := ⟨rfl, rfl⟩

theorem Represents.send {s a : UInt64} {w : Window} (h : Represents s a w) (n : ℕ) :
    Represents (s + UInt64.ofNat n) a (w.send n) :=
  ⟨by rw [h.sent, ← UInt64.ofNat_add]; rfl, h.acked⟩

theorem Represents.ack {s a : UInt64} {w : Window} (h : Represents s a w) (r : ℕ)
    (hr : r ≤ w.sent) : Represents s (UInt64.ofNat r) (w.ack r hr) := ⟨h.sent, rfl⟩

/-- The difference of the counters is what is outstanding. -/
theorem Represents.toNat_outstanding {s a : UInt64} {w : Window} (h : Represents s a w)
    (hlt : w.outstanding < 2 ^ 64) : (s - a).toNat = w.outstanding := by
  have hle := w.acked_le
  simp only [Window.outstanding] at hlt ⊢
  rw [UInt64.toNat_sub, h.sent, h.acked, UInt64.toNat_ofNat', UInt64.toNat_ofNat']
  omega

/-- **The room that is left.**  Within the capacity, the two unsigned differences compute the
true room. -/
theorem Represents.toNat_space {s a cap : UInt64} {w : Window} (h : Represents s a w)
    (hle : w.outstanding ≤ cap.toNat) :
    (cap - (s - a)).toNat = cap.toNat - w.outstanding := by
  have hlt : w.outstanding < 2 ^ 64 := Nat.lt_of_le_of_lt hle cap.toNat_lt
  have hsub := h.toNat_outstanding hlt
  rw [UInt64.toNat_sub_of_le, hsub]
  exact UInt64.le_iff_toNat_le.mpr (hsub ▸ hle)

end CreditWindow
end UhdHost
