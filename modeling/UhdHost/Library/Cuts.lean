import Mathlib

/-!
# Cutting a range into pieces

A range of positions is cut into consecutive pieces, given by their lengths, and something is
made out of each piece, which may depend on where the piece begins and how long it is.

* `cut mk off lens` is what is made of the pieces of lengths `lens` that begin at `off`.
* `chunkLengths size n` are the lengths of the pieces of a range of `n` positions that is cut
  every `size` positions.

`cut_append` is the rule for cutting a range piece by piece, and `getElem?_cut` says what stands
at an index: it depends on the lengths before it through their sum only.
-/

namespace UhdHost
namespace Cuts

variable {β : Type*}

/-- What is made of consecutive pieces of a range. -/
def cut (mk : ℕ → ℕ → β) : ℕ → List ℕ → List β
  | _, [] => []
  | off, len :: lens => mk off len :: cut mk (off + len) lens

theorem cut_cons (mk : ℕ → ℕ → β) (off len : ℕ) (lens : List ℕ) :
    cut mk off (len :: lens) = mk off len :: cut mk (off + len) lens := rfl

/-- The second part is cut where the first one ends. -/
theorem cut_append (mk : ℕ → ℕ → β) (off : ℕ) (as bs : List ℕ) :
    cut mk off (as ++ bs) = cut mk off as ++ cut mk (off + as.sum) bs := by
  induction as generalizing off with
  | nil => rfl
  | cons a as ih =>
    rw [List.cons_append, cut_cons, cut_cons, ih, List.sum_cons, Nat.add_assoc, List.cons_append]

theorem cut_concat (mk : ℕ → ℕ → β) (off : ℕ) (as : List ℕ) (len : ℕ) :
    cut mk off (as ++ [len]) = cut mk off as ++ [mk (off + as.sum) len] := by
  rw [cut_append]
  rfl

@[simp] theorem length_cut (mk : ℕ → ℕ → β) (off : ℕ) (lens : List ℕ) :
    (cut mk off lens).length = lens.length := by
  induction lens generalizing off with
  | nil => rfl
  | cons len lens ih => rw [cut_cons, List.length_cons, List.length_cons, ih]

/-- **What stands at an index**, with what lies before it given by the sum of the lengths. -/
theorem getElem?_cut (mk : ℕ → ℕ → β) (off : ℕ) (lens : List ℕ) (i : ℕ) :
    (cut mk off lens)[i]? = lens[i]?.map fun len => mk (off + (lens.take i).sum) len := by
  induction lens generalizing off i with
  | nil => rfl
  | cons len lens ih =>
    cases i with
    | zero => rfl
    | succ i =>
      rw [cut_cons, List.getElem?_cons_succ, List.getElem?_cons_succ, ih, List.take_succ_cons,
        List.sum_cons, Nat.add_assoc]

/-! ## Sums of lengths -/

/-- The part before a piece and the piece itself. -/
theorem sum_take_succ_of_getElem? {lens : List ℕ} {i len : ℕ} (h : lens[i]? = some len) :
    (lens.take (i + 1)).sum = (lens.take i).sum + len := by
  rw [List.take_add_one, h, Option.toList_some, List.sum_append, List.sum_singleton]

/-- With no empty piece, the end of a piece is the end of the range for the last one only. -/
theorem sum_take_eq_sum_iff {lens : List ℕ} (hpos : ∀ len ∈ lens, 0 < len) {i : ℕ}
    (hi : i ≤ lens.length) : (lens.take i).sum = lens.sum ↔ i = lens.length := by
  constructor
  · intro h
    by_contra hne
    have hlt : i < lens.length := Nat.lt_of_le_of_ne hi hne
    have hsum : (lens.take i).sum + (lens.drop i).sum = lens.sum := by
      rw [← List.sum_append, List.take_append_drop]
    rw [List.drop_eq_getElem_cons hlt, List.sum_cons] at hsum
    have := hpos _ (List.getElem_mem hlt)
    omega
  · rintro rfl
    rw [List.take_length]

/-- With no empty piece, only the first one begins where the range does. -/
theorem sum_take_eq_zero_iff {lens : List ℕ} (hpos : ∀ len ∈ lens, 0 < len) {i : ℕ}
    (hi : i ≤ lens.length) : (lens.take i).sum = 0 ↔ i = 0 := by
  cases i with
  | zero => exact iff_of_true (by rw [List.take_zero, List.sum_nil]) rfl
  | succ i =>
    refine iff_of_false ?_ (Nat.succ_ne_zero i)
    rw [sum_take_succ_of_getElem? (List.getElem?_eq_getElem hi)]
    have := hpos _ (List.getElem_mem hi)
    omega

/-! ## Equal pieces -/

/-- The lengths of the pieces of a range that is cut every `size` positions. -/
def chunkLengths (size n : ℕ) : List ℕ :=
  List.replicate ((n - 1) / size) size ++ [(n - 1) % size + 1]

end Cuts
end UhdHost
