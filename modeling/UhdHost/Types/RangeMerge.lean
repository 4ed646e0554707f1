import Mathlib
import UhdHost.Types.Ranges

/-!
# Making a meta range monotonic

`as_monotonic` of `lib/types/ranges.cpp` sorts the ranges by where they start and merges those that
overlap.  `std::sort` leaves open how ranges with the same start are ordered, and the result depends
on it: `(0, 0)` before `(0, 3)` stays, and after it is merged.  What is proved here holds for every
order that sorting may give (`StartSort`); `asMonotonic` is the one of a stable sort.

The loop keeps the points that the ranges cover (`points_mergeOverlapping`), and what it leaves
behind is monotonic (`monotonic_mergeOverlapping`).
-/

namespace UhdHost
namespace MetaRange

/-- What `std::sort` may do with ranges that are compared by their start. -/
structure StartSort where
  sort : MetaRange → MetaRange
  perm : ∀ mr, (sort mr).Perm mr
  sorted : ∀ mr, (sort mr).Pairwise fun a b => a.start ≤ b.start

/-- `as_monotonic`, with the sort that the library has. -/
def asMonotonicWith (s : StartSort) (mr : MetaRange) : Except UhdError MetaRange :=
  match checkMonotonic mr with
  | .ok () => .ok mr
  | .error _ =>
    if mr.any fun range => range.step ≠ 0 then
      .error (.valueError
        "Cannot monotonize meta_range which contains non-continuous subranges")
    else
      match s.sort mr with
      | [] => .ok []
      | first :: rest => .ok (mergeOverlapping first rest)

/-- The stable sort. -/
def stableSort : StartSort where
  sort mr := mr.mergeSort fun a b => a.start ≤ b.start
  perm mr := List.mergeSort_perm mr _
  sorted mr := (List.pairwise_mergeSort
    (fun a b c hab hbc => decide_eq_true ((of_decide_eq_true hab).trans (of_decide_eq_true hbc)))
    (fun a b => by
      rcases le_total a.start b.start with h | h
      · simp [h]
      · simp [h]) mr).imp fun h => of_decide_eq_true h

/-! ## The points of a meta range -/

/-- The points that ranges without steps cover. -/
def points (mr : MetaRange) : Set ℚ := {x | ∃ r ∈ mr, r.start ≤ x ∧ x ≤ r.stop}

theorem points_cons (r : Range) (mr : MetaRange) :
    points (r :: mr) = Set.Icc r.start r.stop ∪ points mr := by
  ext x
  simp [points]

theorem points_perm {mr mr' : MetaRange} (h : mr.Perm mr') : points mr = points mr' := by
  ext x
  simp only [points, Set.mem_ofPred_eq, h.mem_iff]

/-! ## The loop -/

theorem mergeOverlapping_eq_cons (range : Range) (mr : MetaRange) :
    ∃ first rest, mergeOverlapping range mr = first :: rest ∧ first.start = range.start := by
  induction mr generalizing range with
  | nil => exact ⟨range, [], rfl, rfl⟩
  | cons next mr ih =>
    rw [mergeOverlapping]
    split_ifs with h
    · exact ih _
    · exact ⟨range, _, rfl, rfl⟩

theorem points_mergeOverlapping (range : Range) (mr : MetaRange)
    (hsorted : (range :: mr).Pairwise fun a b => a.start ≤ b.start) :
    points (mergeOverlapping range mr) = points (range :: mr) := by
  induction mr generalizing range with
  | nil => rfl
  | cons next mr ih =>
    obtain ⟨hfirst, hrest⟩ := List.pairwise_cons.mp hsorted
    have hnext : range.start ≤ next.start := hfirst next List.mem_cons_self
    rw [mergeOverlapping]
    split_ifs with h
    · -- Both ranges become one, and they overlap: there is no point in between.
      rw [ih]
      · rw [points_cons, points_cons, points_cons, ← Set.union_assoc,
          Set.Icc_union_Icc' h.le (hnext.trans next.le), min_eq_left hnext]
      · exact List.pairwise_cons.mpr ⟨fun b hb => hfirst b (List.mem_cons_of_mem next hb),
          (List.pairwise_cons.mp hrest).2⟩
    · rw [points_cons, ih next hrest, points_cons range]

theorem monotonic_mergeOverlapping (range : Range) (mr : MetaRange) :
    Monotonic (mergeOverlapping range mr) := by
  induction mr generalizing range with
  | nil => exact List.isChain_singleton range
  | cons next mr ih =>
    rw [mergeOverlapping]
    split_ifs with h
    · exact ih _
    · obtain ⟨first, rest, heq, hstart⟩ := mergeOverlapping_eq_cons next mr
      have htail := ih next
      rw [heq] at htail ⊢
      refine List.isChain_cons_cons.mpr ⟨?_, htail⟩
      rw [hstart]
      exact not_lt.mp h

theorem step_mergeOverlapping {range : Range} {mr : MetaRange}
    (hsteps : ∀ r ∈ range :: mr, r.step = 0) : ∀ r ∈ mergeOverlapping range mr, r.step = 0 := by
  induction mr generalizing range with
  | nil => exact hsteps
  | cons next mr ih =>
    rw [mergeOverlapping]
    split_ifs with h
    · refine ih fun r hr => ?_
      rcases List.mem_cons.mp hr with rfl | hr
      · rfl
      · exact hsteps r (List.mem_cons_of_mem range (List.mem_cons_of_mem next hr))
    · intro r hr
      rcases List.mem_cons.mp hr with rfl | hr
      · exact hsteps r List.mem_cons_self
      · exact ih (fun r hr => hsteps r (List.mem_cons_of_mem range hr)) r hr

/-! ## The result -/

theorem Monotonic.pairwise {mr : MetaRange} (h : Monotonic mr) :
    mr.Pairwise fun a b => a.stop ≤ b.start :=
  haveI : Trans (fun a b : Range => a.stop ≤ b.start) (fun a b : Range => a.stop ≤ b.start)
      (fun a b : Range => a.stop ≤ b.start) := ⟨fun {_ b _} hab hbc => hab.trans (b.le.trans hbc)⟩
  List.isChain_iff_pairwise.mp h

theorem asMonotonicWith_cases (s : StartSort) (mr : MetaRange) :
    (Monotonic mr ∧ asMonotonicWith s mr = .ok mr) ∨
      (¬ Monotonic mr ∧ (∃ r ∈ mr, r.step ≠ 0) ∧ ∃ e, asMonotonicWith s mr = .error e) ∨
      ((∀ r ∈ mr, r.step = 0) ∧ ∃ first rest, s.sort mr = first :: rest ∧
        asMonotonicWith s mr = .ok (mergeOverlapping first rest)) := by
  rw [asMonotonicWith]
  cases hcheck : checkMonotonic mr with
  | ok u => exact Or.inl ⟨(checkMonotonic_eq_ok.mp hcheck).2, rfl⟩
  | error e =>
    have hnot : ¬ (mr ≠ [] ∧ Monotonic mr) := by
      rw [← checkMonotonic_eq_ok, hcheck]
      exact fun h => by cases h
    by_cases hsteps : ∃ r ∈ mr, r.step ≠ 0
    · obtain ⟨r, hr, hstep⟩ := hsteps
      have hany : (mr.any fun range => range.step ≠ 0) = true :=
        List.any_eq_true.mpr ⟨r, hr, decide_eq_true hstep⟩
      refine Or.inr (Or.inl ⟨fun hmono => hnot ⟨List.ne_nil_of_mem hr, hmono⟩, ⟨r, hr, hstep⟩, ?_⟩)
      exact ⟨_, if_pos hany⟩
    · have hzero : ∀ r ∈ mr, r.step = 0 := by
        intro r hr
        by_contra hstep
        exact hsteps ⟨r, hr, hstep⟩
      have hany : ¬ (mr.any fun range => range.step ≠ 0) = true := by
        rw [List.any_eq_true]
        rintro ⟨r, hr, hstep⟩
        exact of_decide_eq_true hstep (hzero r hr)
      simp only [if_neg hany]
      cases hsort : s.sort mr with
      | nil =>
        have hnil : mr = [] := List.nil_perm.mp (hsort ▸ s.perm mr)
        subst hnil
        exact Or.inl ⟨List.isChain_nil, rfl⟩
      | cons first rest => exact Or.inr (Or.inr ⟨hzero, first, rest, rfl, rfl⟩)

/-- **`as_monotonic` covers the same points with ranges that are in order and do not overlap**, for
every list of ranges without steps; and it throws exactly if the list is not monotonic and has a range
with steps. -/
theorem asMonotonic_sorted_union (s : StartSort) (mr : MetaRange) :
    ((∀ r ∈ mr, r.step = 0) → ∃ out, asMonotonicWith s mr = .ok out ∧
      out.Pairwise (fun a b => a.start ≤ b.start ∧ a.stop ≤ b.start) ∧
      (∀ r ∈ out, r.step = 0) ∧ points out = points mr) ∧
    ((∃ e, asMonotonicWith s mr = .error e) ↔ ¬ Monotonic mr ∧ ∃ r ∈ mr, r.step ≠ 0) := by
  have hordered : ∀ {out : MetaRange}, Monotonic out →
      out.Pairwise fun a b => a.start ≤ b.start ∧ a.stop ≤ b.start := fun h =>
    h.pairwise.imp fun {a _} hab => ⟨a.le.trans hab, hab⟩
  rcases asMonotonicWith_cases s mr with
    ⟨hmono, hok⟩ | ⟨hmono, hstep, e, herror⟩ | ⟨hzero, first, rest, hsort, hok⟩
  · rw [hok]
    refine ⟨fun hzero => ⟨mr, rfl, hordered hmono, hzero, rfl⟩, iff_of_false ?_ ?_⟩
    · rintro ⟨e, he⟩
      cases he
    · exact fun h => h.1 hmono
  · rw [herror]
    obtain ⟨r, hr, hne⟩ := hstep
    exact ⟨fun hzero => absurd (hzero r hr) hne, iff_of_true ⟨e, rfl⟩ ⟨hmono, r, hr, hne⟩⟩
  · rw [hok]
    have hperm : (first :: rest).Perm mr := hsort ▸ s.perm mr
    have hsorted : (first :: rest).Pairwise fun a b => a.start ≤ b.start := hsort ▸ s.sorted mr
    refine ⟨fun _ => ⟨_, rfl, hordered (monotonic_mergeOverlapping first rest),
      step_mergeOverlapping fun r hr => hzero r (hperm.mem_iff.mp hr), ?_⟩, iff_of_false ?_ ?_⟩
    · rw [points_mergeOverlapping first rest hsorted, points_perm hperm]
    · rintro ⟨e, he⟩
      cases he
    · rintro ⟨-, r, hr, hne⟩
      exact hne (hzero r hr)

/-- Three ranges out of order, two of which overlap. -/
theorem merged_sorted_union : ∃ out, asMonotonicWith stableSort
      [⟨4, 6, 0, by norm_num⟩, ⟨1, 3, 0, by norm_num⟩, ⟨0, 2, 0, by norm_num⟩] = .ok out ∧
    out.Pairwise (fun a b => a.start ≤ b.start ∧ a.stop ≤ b.start) ∧
    (∀ r ∈ out, r.step = 0) ∧
    points out =
      points [⟨4, 6, 0, by norm_num⟩, ⟨1, 3, 0, by norm_num⟩, ⟨0, 2, 0, by norm_num⟩] :=
  (asMonotonic_sorted_union stableSort _).1 (by simp)

end MetaRange
end UhdHost
