import Mathlib.Data.List.Basic
import Mathlib.Data.List.Range
import Mathlib.Tactic.Common

/-!
# Reading a byte string item by item

Items of `size` units each lie one behind the other in a list, and each of them is read by a
function of its units.  A reader that has a position in the list keeps what is left of it, so
reading from a later position is reading the list with its first items dropped.
-/

namespace UhdHost
namespace Items

variable {δ β : Type*}

/-- The first `n` items. -/
def items (read : List δ → β) (size : ℕ) (units : List δ) (n : ℕ) : List β :=
  (List.range n).map fun i => read ((units.drop (i * size)).take size)

@[simp] theorem length_items (read : List δ → β) (size : ℕ) (units : List δ) (n : ℕ) :
    (items read size units n).length = n := by
  rw [items, List.length_map, List.length_range]

@[simp] theorem items_zero (read : List δ → β) (size : ℕ) (units : List δ) :
    items read size units 0 = [] := rfl

/-- **Items in two parts**: the second part is read from where the first one ends. -/
theorem items_add (read : List δ → β) (size : ℕ) (units : List δ) (m n : ℕ) :
    items read size units (m + n) =
      items read size units m ++ items read size (units.drop (m * size)) n := by
  rw [items, List.range_add, List.map_append, List.map_map]
  refine congrArg (items read size units m ++ ·) (List.map_congr_left fun i _ => ?_)
  rw [Function.comp_apply, List.drop_drop, Nat.add_mul]

end Items
end UhdHost
