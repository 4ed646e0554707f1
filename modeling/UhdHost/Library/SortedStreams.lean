import Mathlib.Data.List.Sort
import Mathlib.Tactic.Common

/-!
# Joining sorted streams

Several streams carry keys in strictly increasing order, and a reader looks for the keys that are
on all of them.  It drops the first key of a stream where another stream is past it already, and
where the first keys agree it takes them off the streams and returns the key.

* `NothingSkipped` says that a key that is on all streams and gone from one of them was returned.
  A key may be dropped where some other stream does not have it any more
  (`NothingSkipped.of_dropped`).
* `Joined` says that keys are returned in order, and only keys that are on all streams.
* Together they say what is returned: of any kind of keys of which all streams have the same
  ones, those that are returned and those that are left on a stream make up the whole stream
  (`filter_returned_append`).
-/

namespace UhdHost
namespace SortedStreams

variable {ι κ : Type*} {all pending pending' : ι → List κ}
  {returned returned' : List κ}

/-- A key that is on all streams is still there or was returned. -/
def NothingSkipped (all pending : ι → List κ) (returned : List κ) : Prop :=
  ∀ k, (∀ i, k ∈ all i) → ∀ i, k ∉ pending i → k ∈ returned

theorem nothingSkipped_start : NothingSkipped all all [] :=
  fun _ hall i hgone => absurd (hall i) hgone

/-- **Keys may be dropped** where another stream is past them. -/
theorem NothingSkipped.of_dropped (h : NothingSkipped all pending returned)
    (hreturned : returned ⊆ returned')
    (hdropped : ∀ i, ∀ k ∈ pending i, k ∉ pending' i → k ∈ returned' ∨ ∃ j, k ∉ pending j) :
    NothingSkipped all pending' returned' := by
  intro k hall i hgone
  by_cases hk : k ∈ pending i
  · rcases hdropped i k hk hgone with hk | ⟨j, hj⟩
    · exact hk
    · exact hreturned (h k hall j hj)
  · exact hreturned (h k hall i hk)

variable [LinearOrder κ]

/-- In a sorted stream, what is before the first key is not there. -/
theorem not_mem_of_lt_head {k k' : κ} {ks : List κ} (hsorted : (k' :: ks).Pairwise (· < ·))
    (hlt : k < k') : k ∉ k' :: ks := by
  intro hk
  rcases List.mem_cons.mp hk with rfl | hk
  · exact lt_irrefl _ hlt
  · exact lt_asymm hlt ((List.pairwise_cons.mp hsorted).1 k hk)

/-- What was returned is in order, comes before all that is left, and was on all streams. -/
structure Joined (all pending : ι → List κ) (returned : List κ) : Prop where
  sorted : returned.Pairwise (· < ·)
  before : ∀ k ∈ returned, ∀ i, ∀ u ∈ pending i, k < u
  mem : ∀ k ∈ returned, ∀ i, k ∈ all i

theorem joined_start : Joined all pending [] where
  sorted := List.Pairwise.nil
  before _ hk := absurd hk List.not_mem_nil
  mem _ hk := absurd hk List.not_mem_nil

/-- Dropping keys keeps what was returned in order. -/
theorem Joined.of_subset (h : Joined all pending returned)
    (hsub : ∀ i, pending' i ⊆ pending i) : Joined all pending' returned where
  sorted := h.sorted
  before k hk i u hu := h.before k hk i u (hsub i hu)
  mem := h.mem

/-- **Taking a key that is first on all streams.** -/
theorem Joined.take [Nonempty ι] (h : Joined all pending returned) {k : κ}
    (hfirst : ∀ i, pending i = k :: pending' i)
    (hsorted : ∀ i, (pending i).Pairwise (· < ·)) (hmem : ∀ i, pending i ⊆ all i) :
    Joined all pending' (returned ++ [k]) where
  sorted := by
    refine List.pairwise_append.mpr ⟨h.sorted, List.pairwise_singleton .., fun u hu v hv => ?_⟩
    rw [List.mem_singleton.mp hv]
    obtain ⟨i⟩ := ‹Nonempty ι›
    refine h.before u hu i k ?_
    rw [hfirst i]
    exact List.mem_cons_self
  before u hu i v hv := by
    rcases List.mem_append.mp hu with hu | hu
    · refine h.before u hu i v ?_
      rw [hfirst i]
      exact List.mem_cons_of_mem k hv
    · rw [List.mem_singleton.mp hu]
      have hpairwise := hsorted i
      rw [hfirst i] at hpairwise
      exact (List.pairwise_cons.mp hpairwise).1 v hv
  mem u hu i := by
    rcases List.mem_append.mp hu with hu | hu
    · exact h.mem u hu i
    · rw [List.mem_singleton.mp hu]
      refine hmem i ?_
      rw [hfirst i]
      exact List.mem_cons_self

/-- **What is returned and what is left.**  Of keys that are the same on all streams, nothing is
lost. -/
theorem filter_returned_append {p : κ → Bool} {same : List κ}
    (hskipped : NothingSkipped all pending returned) (hjoined : Joined all pending returned)
    (hsorted : ∀ i, (all i).Pairwise (· < ·)) (hsub : ∀ i, (pending i).Sublist (all i))
    (hsame : ∀ i, (all i).filter p = same) (i : ι) :
    returned.filter p ++ (pending i).filter p = same := by
  have hleft : (returned.filter p ++ (pending i).filter p).Pairwise (· < ·) := by
    refine List.pairwise_append.mpr ⟨hjoined.sorted.filter p, ?_, fun k hk u hu => ?_⟩
    · exact ((hsorted i).sublist (hsub i)).filter p
    · exact hjoined.before k (List.mem_of_mem_filter hk) i u (List.mem_of_mem_filter hu)
  have hright : same.Pairwise (· < ·) := by
    rw [← hsame i]
    exact (hsorted i).filter p
  refine hleft.eq_of_mem_iff hright fun k => ?_
  rw [List.mem_append, List.mem_filter, List.mem_filter]
  constructor
  · rintro (⟨hk, hp⟩ | ⟨hk, hp⟩)
    · rw [← hsame i, List.mem_filter]
      exact ⟨hjoined.mem k hk i, hp⟩
    · rw [← hsame i, List.mem_filter]
      exact ⟨(hsub i).subset hk, hp⟩
  · intro hk
    have hall : ∀ j, k ∈ all j ∧ p k = true := fun j => by
      rw [← hsame j, List.mem_filter] at hk
      exact hk
    by_cases hpending : k ∈ pending i
    · exact Or.inr ⟨hpending, (hall i).2⟩
    · exact Or.inl ⟨hskipped k (fun j => (hall j).1) i hpending, (hall i).2⟩

end SortedStreams
end UhdHost
