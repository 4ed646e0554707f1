import Mathlib.Algebra.Order.Group.Nat
import Mathlib.Data.List.MinMax
import UhdHost.Library.ShortestPaths

/-!
# A search for shortest paths

The search keeps a list of labelled vertices, each with its distance from `s` and the vertex before
it on a shortest path.  It labels one vertex after the other: among the edges that lead from a
labelled vertex to one that is not, it takes one with the least sum of distance and weight.

Distances from a bound `inf` on count as infinite, so the search ends when only such edges are left.
`labelled_iff` says that then exactly the vertices within the bound have a label, and
`searchTree_isShortestPathTree` that the labels are a tree of shortest paths.  With no weights the
same search says what can be reached at all (`mem_reached_iff`).
-/

namespace UhdHost
namespace ShortestPaths

variable {V E M : Type*}

/-- A vertex, the one before it, and its distance. -/
structure Label (V M : Type*) where
  vertex : V
  pred : V
  dist : M
  deriving DecidableEq

namespace Network

variable [DecidableEq V]

/-! ## Labels -/

/-- The label of a vertex. -/
def labelOf (labels : List (Label V M)) (v : V) : Option (Label V M) :=
  labels.find? fun l => l.vertex = v

theorem labelOf_eq_some {labels : List (Label V M)} {v : V} {l : Label V M}
    (h : labelOf labels v = some l) : l ∈ labels ∧ l.vertex = v := by
  have hfound := List.find?_some h
  exact ⟨List.mem_of_find?_eq_some h, of_decide_eq_true hfound⟩

theorem labelOf_eq_none {labels : List (Label V M)} {v : V} :
    labelOf labels v = none ↔ ∀ l ∈ labels, l.vertex ≠ v := by
  rw [labelOf, List.find?_eq_none]
  exact forall₂_congr fun _ _ => by rw [decide_eq_true_iff]

/-- A labelled vertex has a label that is found. -/
theorem exists_labelOf {labels : List (Label V M)} {l : Label V M} (hl : l ∈ labels) :
    ∃ l', labelOf labels l.vertex = some l' := by
  cases hfound : labelOf labels l.vertex with
  | none => exact absurd rfl (labelOf_eq_none.mp hfound l hl)
  | some l' => exact ⟨l', rfl⟩

/-- The predecessors that the labels give. -/
def predOf (labels : List (Label V M)) (v : V) : V :=
  match labelOf labels v with
  | some l => l.pred
  | none => v

theorem predOf_of_labelOf {labels : List (Label V M)} {v : V} {l : Label V M}
    (h : labelOf labels v = some l) : predOf labels v = l.pred := by
  rw [predOf, h]

theorem labelOf_cons_of_ne {labels : List (Label V M)} {l : Label V M} {v : V}
    (hne : l.vertex ≠ v) : labelOf (l :: labels) v = labelOf labels v :=
  List.find?_cons_of_neg (by rw [decide_eq_true_iff]; exact hne)

theorem labelOf_cons_self {labels : List (Label V M)} (l : Label V M) :
    labelOf (l :: labels) l.vertex = some l :=
  List.find?_cons_of_pos (decide_eq_true rfl)

variable [AddCommMonoid M] [LinearOrder M]

/-- The labels that the edges from labelled vertices to others would give. -/
def frontier (N : Network V E M) (inf : M) (labels : List (Label V M)) : List (Label V M) :=
  (N.edges.filterMap fun e =>
    (labelOf labels (N.source e)).map fun l =>
      ⟨N.target e, N.source e, l.dist + N.weight e⟩).filter fun l =>
        (labelOf labels l.vertex).isNone && decide (l.dist < inf)

theorem mem_frontier {N : Network V E M} {inf : M} {labels : List (Label V M)} {l : Label V M} :
    l ∈ N.frontier inf labels ↔ labelOf labels l.vertex = none ∧ l.dist < inf ∧
      ∃ e ∈ N.edges, ∃ l', labelOf labels (N.source e) = some l' ∧
        l = ⟨N.target e, N.source e, l'.dist + N.weight e⟩ := by
  rw [frontier, List.mem_filter, List.mem_filterMap, Bool.and_eq_true, Option.isNone_iff_eq_none,
    decide_eq_true_iff]
  constructor
  · rintro ⟨⟨e, he, hl⟩, hnone, hlt⟩
    obtain ⟨l', hl', rfl⟩ := Option.map_eq_some_iff.mp hl
    exact ⟨hnone, hlt, e, he, l', hl', rfl⟩
  · rintro ⟨hnone, hlt, e, he, l', hl', rfl⟩
    exact ⟨⟨e, he, Option.map_eq_some_iff.mpr ⟨l', hl', rfl⟩⟩, hnone, hlt⟩

/-- Label vertices, one after the other. -/
def grow (N : Network V E M) (inf : M) : ℕ → List (Label V M) → List (Label V M)
  | 0, labels => labels
  | n + 1, labels =>
    match (N.frontier inf labels).argmin Label.dist with
    | some l => N.grow inf n (l :: labels)
    | none => labels

/-- The labels in the end.  No step labels the target of an edge twice, so there are not more steps
than edges. -/
def searchLabels (N : Network V E M) (inf : M) (s : V) : List (Label V M) :=
  if 0 < inf then N.grow inf N.edges.length [⟨s, s, 0⟩] else []

/-- The tree that the search finds. -/
def searchTree (N : Network V E M) (inf : M) (s : V) : V → V := predOf (N.searchLabels inf s)

/-! ## What the labels say -/

variable {N : Network V E M} {inf : M} {s : V}

/-- **The invariant of the search**: the labels belong to shortest paths that begin at `s` and stay
among the labelled vertices. -/
structure Labelled (N : Network V E M) (inf : M) (s : V) (labels : List (Label V M)) : Prop where
  root : ∃ l, labelOf labels s = some l ∧ l.pred = s
  isDist : ∀ l ∈ labels, N.IsDist s l.vertex l.dist ∧ l.dist < inf
  hop : ∀ v l, labelOf labels v = some l → v ≠ s → ∃ e ∈ N.edges,
    N.source e = l.pred ∧ N.target e = v ∧
      ∃ l', labelOf labels l.pred = some l' ∧ l'.dist + N.weight e = l.dist
  rooted : ∀ l ∈ labels, ∃ k, (predOf labels)^[k] l.vertex = s

variable [IsOrderedCancelAddMonoid M]

/-- **A path that leaves the labelled vertices does so by an edge of the frontier**, or by one that
is too heavy for it. -/
theorem exists_crossing (hN : N.NonnegFrom s) {labels : List (Label V M)}
    (hlabels : ∀ l ∈ labels, N.IsDist s l.vertex l.dist) {u v : V} {l : Label V M} {es : List E}
    (hu : labelOf labels u = some l) (hv : labelOf labels v = none) (h : N.IsPath u v es) :
    ∃ e ∈ N.edges, ∃ l', labelOf labels (N.source e) = some l' ∧
      labelOf labels (N.target e) = none ∧
        l'.dist + N.weight e ≤ l.dist + N.pathWeight es := by
  induction es generalizing u l with
  | nil =>
    obtain rfl : u = v := h
    rw [hv] at hu
    cases hu
  | cons e es ih =>
    obtain ⟨he, rfl, hes⟩ := h
    obtain ⟨hmem, hvertex⟩ := labelOf_eq_some hu
    have hdist : N.IsDist s (N.source e) l.dist := hvertex ▸ hlabels l hmem
    have hreach : N.Reachable s (N.target e) := hdist.reachable.edge he
    rw [pathWeight_cons, ← add_assoc]
    cases htarget : labelOf labels (N.target e) with
    | none =>
      exact ⟨e, he, l, hu, htarget, le_add_of_nonneg_right (pathWeight_nonneg hN hreach hes)⟩
    | some l₁ =>
      obtain ⟨hmem₁, hvertex₁⟩ := labelOf_eq_some htarget
      obtain ⟨e', he', l', hl', hnone, hle⟩ := ih htarget hes
      have hedge := hdist.le_edge (hvertex₁ ▸ hlabels l₁ hmem₁) he
      exact ⟨e', he', l', hl', hnone, le_trans hle (add_le_add_left hedge _)⟩

/-- **The least label of the frontier is the distance of its vertex.** -/
theorem isDist_of_argmin (hN : N.NonnegFrom s) {labels : List (Label V M)}
    (h : Labelled N inf s labels) {l : Label V M}
    (hl : (N.frontier inf labels).argmin Label.dist = some l) :
    N.IsDist s l.vertex l.dist := by
  obtain ⟨hnone, hlt, e, he, l', hl', rfl⟩ := mem_frontier.mp (List.argmin_mem hl)
  obtain ⟨hmem, hvertex⟩ := labelOf_eq_some hl'
  have hsource : N.IsDist s (N.source e) l'.dist := hvertex ▸ (h.isDist l' hmem).1
  constructor
  · obtain ⟨es, hes, hweight⟩ := hsource.exists_path
    refine ⟨es ++ [e], N.isPath_concat.mpr ⟨hes, he, rfl⟩, ?_⟩
    rw [pathWeight_append, hweight, pathWeight_cons, pathWeight_nil, add_zero]
  · intro es hes
    obtain ⟨l₀, hl₀, -⟩ := h.root
    obtain ⟨hmem₀, hvertex₀⟩ := labelOf_eq_some hl₀
    have hzero : l₀.dist = 0 :=
      (hvertex₀ ▸ (h.isDist l₀ hmem₀).1 : N.IsDist s s l₀.dist).unique (isDist_self hN)
    obtain ⟨e', he', l₁, hl₁, hnone₁, hle⟩ :=
      exists_crossing hN (fun l hl => (h.isDist l hl).1) hl₀ hnone hes
    rw [hzero, zero_add] at hle
    refine le_trans ?_ hle
    by_cases hbound : l₁.dist + N.weight e' < inf
    · exact List.le_of_mem_argmin (mem_frontier.mpr ⟨hnone₁, hbound, e', he', l₁, hl₁, rfl⟩) hl
    · exact le_of_lt (lt_of_lt_of_le hlt (not_lt.mp hbound))

/-- **One step of the search.** -/
theorem Labelled.cons (hN : N.NonnegFrom s) {labels : List (Label V M)}
    (h : Labelled N inf s labels) {l : Label V M}
    (hl : (N.frontier inf labels).argmin Label.dist = some l) :
    Labelled N inf s (l :: labels) := by
  obtain ⟨hnone, hlt, e, he, l', hl', hnew⟩ := mem_frontier.mp (List.argmin_mem hl)
  -- what has a label keeps it
  have hkeep : ∀ v l₁, labelOf labels v = some l₁ → labelOf (l :: labels) v = some l₁ := by
    intro v l₁ hl₁
    rw [labelOf_cons_of_ne, hl₁]
    rintro rfl
    rw [hnone] at hl₁
    cases hl₁
  have hpred : ∀ v l₁, labelOf labels v = some l₁ → predOf (l :: labels) v = predOf labels v := by
    intro v l₁ hl₁
    rw [predOf_of_labelOf (hkeep v l₁ hl₁), predOf_of_labelOf hl₁]
  have hpred_new : predOf (l :: labels) l.vertex = N.source e := by
    rw [predOf_of_labelOf (labelOf_cons_self l), hnew]
  have hrooted : ∀ v l₁, labelOf labels v = some l₁ → ∃ k, (predOf (l :: labels))^[k] v = s := by
    intro v l₁ hl₁
    obtain ⟨hmem, hvertex⟩ := labelOf_eq_some hl₁
    obtain ⟨k, hk⟩ := h.rooted l₁ hmem
    rw [hvertex] at hk
    clear hmem hvertex
    induction k generalizing v l₁ with
    | zero => exact ⟨0, hk⟩
    | succ k ih =>
      by_cases hv : v = s
      · exact ⟨0, hv⟩
      · obtain ⟨-, -, -, -, l₂, hl₂, -⟩ := h.hop v l₁ hl₁ hv
        have hstep : predOf labels v = l₁.pred := predOf_of_labelOf hl₁
        obtain ⟨j, hj⟩ := ih l₁.pred l₂ hl₂ (hstep ▸ hk)
        refine ⟨j + 1, ?_⟩
        rw [Function.iterate_succ_apply, hpred v l₁ hl₁, hstep, hj]
  constructor
  · obtain ⟨l₀, hl₀, hroot⟩ := h.root
    exact ⟨l₀, hkeep s l₀ hl₀, hroot⟩
  · intro l₁ hl₁
    rcases List.mem_cons.mp hl₁ with rfl | hl₁
    · exact ⟨isDist_of_argmin hN h hl, hlt⟩
    · exact h.isDist l₁ hl₁
  · intro v l₁ hl₁ hv
    by_cases hvertex : l.vertex = v
    · subst hvertex
      rw [labelOf_cons_self, Option.some_inj] at hl₁
      subst hl₁
      have hsource : N.source e = l.pred := by rw [hnew]
      have htarget : N.target e = l.vertex := by rw [hnew]
      have hsum : l'.dist + N.weight e = l.dist := by rw [hnew]
      exact ⟨e, he, hsource, htarget, l', hkeep _ _ (hsource ▸ hl'), hsum⟩
    · rw [labelOf_cons_of_ne hvertex] at hl₁
      obtain ⟨e', he', hsource, htarget, l₂, hl₂, hsum⟩ := h.hop v l₁ hl₁ hv
      exact ⟨e', he', hsource, htarget, l₂, hkeep _ _ hl₂, hsum⟩
  · intro l₁ hl₁
    rcases List.mem_cons.mp hl₁ with rfl | hl₁
    · obtain ⟨k, hk⟩ := hrooted (N.source e) l' hl'
      refine ⟨k + 1, ?_⟩
      rw [Function.iterate_succ_apply, hpred_new, hk]
    · obtain ⟨l₂, hl₂⟩ := exists_labelOf hl₁
      exact hrooted l₁.vertex l₂ hl₂

theorem labelled_start (hN : N.NonnegFrom s) (hinf : 0 < inf) :
    Labelled N inf s [⟨s, s, 0⟩] := by
  have hfound : labelOf [(⟨s, s, 0⟩ : Label V M)] s = some ⟨s, s, 0⟩ := labelOf_cons_self _
  constructor
  · exact ⟨_, hfound, rfl⟩
  · intro l hl
    obtain rfl := List.mem_singleton.mp hl
    exact ⟨isDist_self hN, hinf⟩
  · intro v l hl hv
    obtain ⟨hmem, hvertex⟩ := labelOf_eq_some hl
    obtain rfl := List.mem_singleton.mp hmem
    exact absurd hvertex.symm hv
  · intro l hl
    obtain rfl := List.mem_singleton.mp hl
    exact ⟨0, rfl⟩

/-! ## The end of the search -/

omit [IsOrderedCancelAddMonoid M] in
/-- A step labels the target of an edge that had no label. -/
theorem unlabelled_lt {labels : List (Label V M)} {l : Label V M}
    (hl : (N.frontier inf labels).argmin Label.dist = some l) :
    (N.edges.filter fun e => (labelOf (l :: labels) (N.target e)).isNone).length <
      (N.edges.filter fun e => (labelOf labels (N.target e)).isNone).length := by
  obtain ⟨hnone, -, e, he, l', -, rfl⟩ := mem_frontier.mp (List.argmin_mem hl)
  have hsub : (N.edges.filter fun e' =>
        (labelOf (⟨N.target e, N.source e, l'.dist + N.weight e⟩ :: labels)
          (N.target e')).isNone) =
      (N.edges.filter fun e' => (labelOf labels (N.target e')).isNone).filter fun e' =>
        decide (N.target e' ≠ N.target e) := by
    rw [List.filter_filter]
    refine List.filter_congr fun e' _ => ?_
    by_cases heq : N.target e' = N.target e
    · rw [decide_eq_false (not_not_intro heq), Bool.false_and, heq, labelOf_cons_self]
      rfl
    · rw [decide_eq_true heq, Bool.true_and, labelOf_cons_of_ne (Ne.symm heq)]
  rw [hsub]
  refine List.length_filter_lt_length_iff_exists.mpr ⟨e, List.mem_filter.mpr ⟨he, ?_⟩, ?_⟩
  · rw [Option.isNone_iff_eq_none]
    exact hnone
  · simp

/-- **The whole search keeps the invariant**, and it ends with nothing left in the frontier. -/
theorem labelled_grow (hN : N.NonnegFrom s) {labels : List (Label V M)} {n : ℕ}
    (h : Labelled N inf s labels)
    (hn : (N.edges.filter fun e => (labelOf labels (N.target e)).isNone).length ≤ n) :
    Labelled N inf s (N.grow inf n labels) ∧ N.frontier inf (N.grow inf n labels) = [] := by
  induction n generalizing labels with
  | zero =>
    refine ⟨h, ?_⟩
    rw [grow]
    cases hl : (N.frontier inf labels).argmin Label.dist with
    | none => exact List.argmin_eq_none.mp hl
    | some l => exact absurd (Nat.lt_of_lt_of_le (unlabelled_lt hl) hn) (Nat.not_lt_zero _)
  | succ n ih =>
    rw [grow]
    cases hl : (N.frontier inf labels).argmin Label.dist with
    | none => exact ⟨h, List.argmin_eq_none.mp hl⟩
    | some l =>
      exact ih (h.cons hN hl) (Nat.le_of_lt_succ (Nat.lt_of_lt_of_le (unlabelled_lt hl) hn))

theorem searchLabels_labelled (hN : N.NonnegFrom s) (hinf : 0 < inf) :
    Labelled N inf s (N.searchLabels inf s) ∧
      N.frontier inf (N.searchLabels inf s) = [] := by
  rw [searchLabels, if_pos hinf]
  exact labelled_grow hN (labelled_start hN hinf) (List.length_filter_le ..)

/-- **What has a label in the end is what lies within the bound.** -/
theorem labelled_iff (hN : N.NonnegFrom s) (hinf : 0 < inf) {v : V} {d : M} :
    (∃ l, labelOf (N.searchLabels inf s) v = some l ∧ l.dist = d) ↔
      N.IsDist s v d ∧ d < inf := by
  obtain ⟨h, hend⟩ := searchLabels_labelled hN hinf
  constructor
  · rintro ⟨l, hl, rfl⟩
    obtain ⟨hmem, rfl⟩ := labelOf_eq_some hl
    exact h.isDist l hmem
  · rintro ⟨hd, hlt⟩
    cases hv : labelOf (N.searchLabels inf s) v with
    | some l =>
      obtain ⟨hmem, rfl⟩ := labelOf_eq_some hv
      exact ⟨l, rfl, (h.isDist l hmem).1.unique hd⟩
    | none =>
      -- a path to `v` would leave the labelled vertices
      obtain ⟨l₀, hl₀, -⟩ := h.root
      obtain ⟨hmem₀, hvertex₀⟩ := labelOf_eq_some hl₀
      have hzero : l₀.dist = 0 :=
        (hvertex₀ ▸ (h.isDist l₀ hmem₀).1 : N.IsDist s s l₀.dist).unique (isDist_self hN)
      obtain ⟨es, hes, rfl⟩ := hd.exists_path
      obtain ⟨e, he, l', hl', hnone, hle⟩ :=
        exists_crossing hN (fun l hl => (h.isDist l hl).1) hl₀ hv hes
      rw [hzero, zero_add] at hle
      have hmem : (⟨N.target e, N.source e, l'.dist + N.weight e⟩ : Label V M) ∈
          N.frontier inf (N.searchLabels inf s) :=
        mem_frontier.mpr ⟨hnone, lt_of_le_of_lt hle hlt, e, he, l', hl', rfl⟩
      rw [hend] at hmem
      exact absurd hmem List.not_mem_nil

/-- **The search finds a tree of shortest paths.** -/
theorem searchTree_isShortestPathTree (hN : N.NonnegFrom s) (hinf : 0 < inf) :
    N.IsShortestPathTree inf s (N.searchTree inf s) := by
  obtain ⟨h, -⟩ := searchLabels_labelled hN hinf
  constructor
  · obtain ⟨l, hl, hpred⟩ := h.root
    exact (predOf_of_labelOf hl).trans hpred
  · intro v hv
    cases hl : labelOf (N.searchLabels inf s) v with
    | none => rw [searchTree, predOf, hl]
    | some l => exact absurd ⟨l.dist, (labelled_iff hN hinf).mp ⟨l, hl, rfl⟩⟩ hv
  · intro v d hv hd hlt
    obtain ⟨l, hl, rfl⟩ := (labelled_iff hN hinf).mpr ⟨hd, hlt⟩
    obtain ⟨e, he, hsource, htarget, l', hl', hsum⟩ := h.hop v l hl hv
    have hpred : N.searchTree inf s v = l.pred := predOf_of_labelOf hl
    rw [hpred]
    exact ⟨e, he, hsource, htarget, l'.dist, ((labelled_iff hN hinf).mp ⟨l', hl', rfl⟩).1, hsum⟩
  · rintro v ⟨d, hd, hlt⟩
    obtain ⟨l, hl, -⟩ := (labelled_iff hN hinf).mpr ⟨hd, hlt⟩
    obtain ⟨hmem, rfl⟩ := labelOf_eq_some hl
    exact h.rooted l hmem

end Network

/-! ## Reachable vertices -/

namespace Network

/-- A network with all weights zero. -/
def unweighted (N : Network V E M) : Network V E ℕ where
  edges := N.edges
  source := N.source
  target := N.target
  weight _ := 0

theorem pathWeight_unweighted (N : Network V E M) (es : List E) :
    N.unweighted.pathWeight es = 0 := by
  induction es with
  | nil => exact rfl
  | cons e es ih => rw [pathWeight_cons, ih]; exact rfl

theorem isDist_unweighted {N : Network V E M} {s v : V} :
    N.unweighted.IsDist s v 0 ↔ N.Reachable s v := by
  constructor
  · intro h
    obtain ⟨es, hes⟩ := h.reachable
    exact ⟨es, (N.isPath_congr N.unweighted rfl rfl rfl).mpr hes⟩
  · rintro ⟨es, hes⟩
    exact ⟨⟨es, (N.isPath_congr N.unweighted rfl rfl rfl).mp hes,
        N.pathWeight_unweighted es⟩,
      fun _ _ => Nat.zero_le _⟩

/-- The vertices that a search without weights labels, in the order in which it does. -/
def reached [DecidableEq V] (N : Network V E M) (s : V) : List V :=
  ((N.unweighted.searchLabels 1 s).map Label.vertex).reverse

/-- **The search finds exactly what can be reached.** -/
theorem mem_reached_iff [DecidableEq V] {N : Network V E M} {s v : V} :
    v ∈ N.reached s ↔ N.Reachable s v := by
  have hN : N.unweighted.NonnegFrom s := fun _ _ _ => Nat.le_refl 0
  rw [reached, List.mem_reverse, List.mem_map, ← isDist_unweighted]
  constructor
  · rintro ⟨l, hl, rfl⟩
    obtain ⟨hdist, hlt⟩ := (searchLabels_labelled hN Nat.one_pos).1.isDist l hl
    rw [Nat.lt_one_iff] at hlt
    exact hlt ▸ hdist
  · intro h
    obtain ⟨l, hl, -⟩ := (labelled_iff hN Nat.one_pos).mpr ⟨h, Nat.one_pos⟩
    exact ⟨l, labelOf_eq_some hl⟩

end Network
end ShortestPaths
end UhdHost
