import Mathlib.Algebra.BigOperators.Group.List.Basic
import Mathlib.Algebra.Order.Monoid.Defs
import Mathlib.Data.List.Nodup
import Mathlib.Data.Nat.Find
import Mathlib.Logic.Function.Iterate
import Mathlib.Order.Defs.LinearOrder

/-!
# Shortest paths in a directed multigraph

A network is a list of edges, each with the vertex that it leaves, the vertex that it leads to and
a weight.  Several edges may lead from one vertex to another, so a path is a list of edges and not
of vertices.

An algorithm that searches for the shortest paths from a vertex `s` answers with a predecessor for
each vertex.  `IsShortestPathTree` says what a correct answer is: the predecessors form a tree with
root `s`, and each step of it is the last step of some shortest path.  Only vertices whose distance
is below a bound `inf` are in the tree.

* `exists_treePath` follows the predecessors and finds a shortest path that visits no vertex twice.
* `reroute_isShortestPathTree` goes the other way: any shortest path that visits no vertex twice is
  a branch of some tree.  So where several shortest paths exist, an algorithm that is only known to
  find a tree may find any of them.
-/

namespace UhdHost
namespace ShortestPaths

variable {V E M : Type*}

/-- A directed multigraph with weights. -/
structure Network (V E M : Type*) where
  edges : List E
  source : E → V
  target : E → V
  weight : E → M

namespace Network

/-! ## Paths -/

/-- The edges lead, one behind the other, from `u` to `v`. -/
def IsPath (N : Network V E M) : V → V → List E → Prop
  | u, v, [] => u = v
  | u, v, e :: es => e ∈ N.edges ∧ N.source e = u ∧ N.IsPath (N.target e) v es

/-- There is a path from `u` to `v`. -/
def Reachable (N : Network V E M) (u v : V) : Prop := ∃ es, N.IsPath u v es

variable (N : Network V E M)

@[simp] theorem isPath_nil {u v : V} : N.IsPath u v [] ↔ u = v := Iff.rfl

theorem isPath_cons {u v : V} {e : E} {es : List E} :
    N.IsPath u v (e :: es) ↔ e ∈ N.edges ∧ N.source e = u ∧ N.IsPath (N.target e) v es := Iff.rfl

/-- A path in two parts. -/
theorem isPath_append {u v : V} {es es' : List E} :
    N.IsPath u v (es ++ es') ↔ ∃ w, N.IsPath u w es ∧ N.IsPath w v es' := by
  induction es generalizing u with
  | nil =>
    rw [List.nil_append]
    constructor
    · intro h
      exact ⟨u, rfl, h⟩
    · rintro ⟨w, rfl, h⟩
      exact h
  | cons e es ih =>
    rw [List.cons_append, isPath_cons, ih]
    constructor
    · rintro ⟨he, hsource, w, hes, hes'⟩
      exact ⟨w, ⟨he, hsource, hes⟩, hes'⟩
    · rintro ⟨w, ⟨he, hsource, hes⟩, hes'⟩
      exact ⟨he, hsource, w, hes, hes'⟩

/-- A path and one more edge. -/
theorem isPath_concat {u v : V} {es : List E} {e : E} :
    N.IsPath u v (es ++ [e]) ↔
      N.IsPath u (N.source e) es ∧ e ∈ N.edges ∧ N.target e = v := by
  rw [isPath_append]
  constructor
  · rintro ⟨w, hes, he, rfl, htarget⟩
    exact ⟨hes, he, htarget⟩
  · rintro ⟨hes, he, htarget⟩
    exact ⟨N.source e, hes, he, rfl, htarget⟩

theorem mem_edges_of_isPath {u v : V} {es : List E} (h : N.IsPath u v es) :
    ∀ e ∈ es, e ∈ N.edges := by
  induction es generalizing u with
  | nil => exact fun e he => absurd he List.not_mem_nil
  | cons e es ih =>
    intro e' he'
    rcases List.mem_cons.mp he' with rfl | he'
    · exact h.1
    · exact ih h.2.2 e' he'

@[simp] theorem reachable_refl (u : V) : N.Reachable u u := ⟨[], rfl⟩

theorem Reachable.edge {N : Network V E M} {s : V} {e : E} (h : N.Reachable s (N.source e))
    (he : e ∈ N.edges) : N.Reachable s (N.target e) := by
  obtain ⟨es, hes⟩ := h
  exact ⟨es ++ [e], N.isPath_concat.mpr ⟨hes, he, rfl⟩⟩

/-- Where a path comes through can be reached from where it begins. -/
theorem reachable_source {s u v : V} {es : List E} (hs : N.Reachable s u) (h : N.IsPath u v es) :
    ∀ e ∈ es, N.Reachable s (N.source e) := by
  induction es generalizing u with
  | nil => exact fun e he => absurd he List.not_mem_nil
  | cons e es ih =>
    obtain ⟨he, rfl, hes⟩ := h
    intro e' he'
    rcases List.mem_cons.mp he' with rfl | he'
    · exact hs
    · exact ih (hs.edge he) hes e' he'

/-- The vertices that a path visits. -/
def visited (s : V) (es : List E) : List V := s :: es.map N.target

/-- On a path that visits no vertex twice, no edge leads back to where it leaves or to where the
path begins. -/
theorem ne_of_nodup_visited {u v : V} {es : List E} (h : N.IsPath u v es)
    (hnodup : (N.visited u es).Nodup) :
    ∀ e ∈ es, N.source e ≠ N.target e ∧ N.target e ≠ u := by
  induction es generalizing u with
  | nil => exact fun e he => absurd he List.not_mem_nil
  | cons e es ih =>
    obtain ⟨-, rfl, hes⟩ := h
    obtain ⟨hfirst, hrest⟩ := List.nodup_cons.mp hnodup
    intro e' he'
    have hne : N.target e' ≠ N.source e := by
      intro heq
      exact hfirst (heq ▸ List.mem_map_of_mem he')
    rcases List.mem_cons.mp he' with rfl | he'
    · exact ⟨hne.symm, hne⟩
    · exact ⟨(ih hes hrest e' he').1, hne⟩

/-- Paths and their vertices do not depend on the weights. -/
theorem isPath_congr {M' : Type*} (N' : Network V E M') (hedges : N.edges = N'.edges)
    (hsource : N.source = N'.source) (htarget : N.target = N'.target) {u v : V} {es : List E} :
    N.IsPath u v es ↔ N'.IsPath u v es := by
  induction es generalizing u with
  | nil => exact Iff.rfl
  | cons e es ih => rw [isPath_cons, isPath_cons, hedges, hsource, htarget, ih]

/-- A path along which each vertex has the one before it as its predecessor leads to the root where
its beginning does. -/
theorem rooted_of_isPath {N : Network V E M} {p : V → V} {s u v : V} {es : List E} (h : N.IsPath u v es)
    (hu : ∃ j, p^[j] u = s) (hhops : ∀ e ∈ es, p (N.target e) = N.source e) :
    ∀ e ∈ es, ∃ j, p^[j] (N.target e) = s := by
  induction es generalizing u with
  | nil => exact fun e he => absurd he List.not_mem_nil
  | cons e es ih =>
    obtain ⟨-, rfl, hes⟩ := h
    have htarget : ∃ j, p^[j] (N.target e) = s := by
      obtain ⟨j, hj⟩ := hu
      refine ⟨j + 1, ?_⟩
      rw [Function.iterate_succ_apply, hhops e List.mem_cons_self, hj]
    intro e' he'
    rcases List.mem_cons.mp he' with rfl | he'
    · exact htarget
    · exact ih hes htarget (fun e hmem => hhops e (List.mem_cons_of_mem _ hmem)) e' he'

/-! ## Distances -/

section Distance

variable [AddCommMonoid M]

/-- The weight of a path. -/
def pathWeight (es : List E) : M := (es.map N.weight).sum

@[simp] theorem pathWeight_nil : N.pathWeight [] = 0 := rfl

@[simp] theorem pathWeight_cons (e : E) (es : List E) :
    N.pathWeight (e :: es) = N.weight e + N.pathWeight es := List.sum_cons

@[simp] theorem pathWeight_append (es es' : List E) :
    N.pathWeight (es ++ es') = N.pathWeight es + N.pathWeight es' := by
  rw [pathWeight, List.map_append, List.sum_append, pathWeight, pathWeight]

variable [LinearOrder M]

/-- `d` is the weight of a lightest path from `s` to `v`. -/
structure IsDist (s v : V) (d : M) : Prop where
  exists_path : ∃ es, N.IsPath s v es ∧ N.pathWeight es = d
  le : ∀ es, N.IsPath s v es → d ≤ N.pathWeight es

/-- No edge that can be reached from `s` has a negative weight. -/
def NonnegFrom (s : V) : Prop := ∀ e ∈ N.edges, N.Reachable s (N.source e) → 0 ≤ N.weight e

/-- The distance from `s` to `v` is below a bound. -/
def Within (inf : M) (s v : V) : Prop := ∃ d, N.IsDist s v d ∧ d < inf

/-- Only the weights of the edges matter. -/
theorem isDist_congr (N' : Network V E M) (hedges : N.edges = N'.edges)
    (hsource : N.source = N'.source) (htarget : N.target = N'.target)
    (hweight : ∀ e ∈ N.edges, N.weight e = N'.weight e) {s v : V} {d : M} :
    N.IsDist s v d ↔ N'.IsDist s v d := by
  have hpath : ∀ es, N.IsPath s v es ↔ N'.IsPath s v es := fun es =>
    N.isPath_congr N' hedges hsource htarget
  have hsum : ∀ es, N.IsPath s v es → N.pathWeight es = N'.pathWeight es := fun es hes =>
    congrArg List.sum (List.map_congr_left fun e he =>
      hweight e (N.mem_edges_of_isPath hes e he))
  constructor
  · rintro ⟨⟨es, hes, hd⟩, hle⟩
    refine ⟨⟨es, (hpath es).mp hes, hsum es hes ▸ hd⟩, fun es' hes' => ?_⟩
    have hes' := (hpath es').mpr hes'
    exact hsum es' hes' ▸ hle es' hes'
  · rintro ⟨⟨es, hes, hd⟩, hle⟩
    have hes := (hpath es).mpr hes
    exact ⟨⟨es, hes, (hsum es hes).trans hd⟩,
      fun es' hes' => (hsum es' hes').symm ▸ hle es' ((hpath es').mp hes')⟩

variable {N}

theorem IsDist.unique {s v : V} {d d' : M} (h : N.IsDist s v d) (h' : N.IsDist s v d') :
    d = d' := by
  obtain ⟨es, hes, rfl⟩ := h.exists_path
  obtain ⟨es', hes', rfl⟩ := h'.exists_path
  exact le_antisymm (h.le es' hes') (h'.le es hes)

theorem IsDist.reachable {s v : V} {d : M} (h : N.IsDist s v d) : N.Reachable s v := by
  obtain ⟨es, hes, -⟩ := h.exists_path
  exact ⟨es, hes⟩

/-- An edge behind a vertex is no shortcut. -/
theorem IsDist.le_edge {s : V} {e : E} {d d' : M} (h : N.IsDist s (N.source e) d)
    (h' : N.IsDist s (N.target e) d') (he : e ∈ N.edges) : d' ≤ d + N.weight e := by
  obtain ⟨es, hes, rfl⟩ := h.exists_path
  have hle := h'.le (es ++ [e]) (N.isPath_concat.mpr ⟨hes, he, rfl⟩)
  rw [pathWeight_append, pathWeight_cons, pathWeight_nil, add_zero] at hle
  exact hle

variable [IsOrderedCancelAddMonoid M]

/-- The weight of what can be reached from `s`. -/
theorem pathWeight_nonneg {s u v : V} {es : List E} (hN : N.NonnegFrom s) (hs : N.Reachable s u)
    (h : N.IsPath u v es) : 0 ≤ N.pathWeight es := by
  induction es generalizing u with
  | nil => exact le_refl 0
  | cons e es ih =>
    obtain ⟨he, rfl, hes⟩ := h
    rw [pathWeight_cons]
    exact add_nonneg (hN e he hs) (ih (hs.edge he) hes)

/-- No path from a vertex to itself is lighter than the empty one. -/
theorem isDist_self {s : V} (hN : N.NonnegFrom s) : N.IsDist s s 0 where
  exists_path := ⟨[], rfl, rfl⟩
  le _ hes := pathWeight_nonneg hN (N.reachable_refl s) hes

/-- **The first part of a lightest path is a lightest path.** -/
theorem IsDist.of_append {s v w : V} {es es' : List E} {d : M} (h : N.IsDist s v d)
    (hd : N.pathWeight (es ++ es') = d) (hes : N.IsPath s w es) (hes' : N.IsPath w v es') :
    N.IsDist s w (N.pathWeight es) where
  exists_path := ⟨es, hes, rfl⟩
  le es'' hes'' := by
    have hle := h.le (es'' ++ es') (N.isPath_append.mpr ⟨w, hes'', hes'⟩)
    rw [← hd, pathWeight_append, pathWeight_append] at hle
    exact le_of_add_le_add_right hle

end Distance

/-! ## Shortest path trees -/

section Tree

variable [AddCommMonoid M] [LinearOrder M]

/-- **A tree of shortest paths** from `s`, given by the predecessor of each vertex.  The root and
what is not in the tree are their own predecessors. -/
structure IsShortestPathTree (inf : M) (s : V) (pred : V → V) : Prop where
  root : pred s = s
  lost : ∀ v, ¬ N.Within inf s v → pred v = v
  hop : ∀ v d, v ≠ s → N.IsDist s v d → d < inf → ∃ e ∈ N.edges,
    N.source e = pred v ∧ N.target e = v ∧ ∃ d', N.IsDist s (pred v) d' ∧ d' + N.weight e = d
  rooted : ∀ v, N.Within inf s v → ∃ k, pred^[k] v = s

variable {N} {inf : M} {s : V} {pred : V → V}

variable [IsOrderedCancelAddMonoid M]

/-- **Following the predecessors finds a shortest path.**  If the root is reached from `v` after `k`
steps and not before, then these steps, backwards, are a lightest path that visits no vertex
twice. -/
theorem IsShortestPathTree.exists_path_of_depth (h : N.IsShortestPathTree inf s pred)
    (hN : N.NonnegFrom s) {k : ℕ} {v : V} {d : M} (hk : pred^[k] v = s)
    (hmin : ∀ j < k, pred^[j] v ≠ s) (hd : N.IsDist s v d) (hlt : d < inf) :
    ∃ es, N.IsPath s v es ∧ N.pathWeight es = d ∧ (N.visited s es).Nodup ∧
      (∀ e ∈ es, pred (N.target e) = N.source e) ∧
      ∀ x ∈ N.visited s es, ∃ j ≤ k, pred^[j] x = s ∧ ∀ i < j, pred^[i] x ≠ s := by
  induction k generalizing v d with
  | zero =>
    obtain rfl : v = s := hk
    refine ⟨[], rfl, hd.unique (isDist_self hN) ▸ rfl, List.nodup_singleton v,
      fun e he => absurd he List.not_mem_nil, ?_⟩
    intro x hx
    obtain rfl := List.mem_singleton.mp hx
    exact ⟨0, Nat.le_refl 0, rfl, fun i hi => absurd hi (Nat.not_lt_zero i)⟩
  | succ k ih =>
    have hv : v ≠ s := hmin 0 k.succ_pos
    obtain ⟨e, he, hsource, htarget, d', hd', hsum⟩ := h.hop v d hv hd hlt
    have hnonneg : 0 ≤ N.weight e := hN e he (hsource ▸ hd'.reachable)
    have hlt' : d' < inf := lt_of_le_of_lt (le_add_of_nonneg_right hnonneg) (hsum ▸ hlt)
    obtain ⟨es, hes, hweight, hnodup, hhops, hdepth⟩ := ih hk
      (fun j hj => hmin (j + 1) (Nat.succ_lt_succ hj)) hd' hlt'
    have hvisited : N.visited s (es ++ [e]) = N.visited s es ++ [v] := by
      rw [visited, List.map_append, List.map_singleton, htarget, ← List.cons_append, visited]
    refine ⟨es ++ [e], N.isPath_concat.mpr ⟨hsource ▸ hes, he, htarget⟩, ?_, ?_, ?_, ?_⟩
    · rw [pathWeight_append, hweight, pathWeight_cons, pathWeight_nil, add_zero, hsum]
    · -- a vertex on the path to the predecessor is not as deep as `v`
      rw [hvisited]
      refine List.nodup_append.mpr ⟨hnodup, List.nodup_singleton v, fun x hx y hy => ?_⟩
      obtain rfl := List.mem_singleton.mp hy
      rintro rfl
      obtain ⟨j, hj, hroot, -⟩ := hdepth x hx
      exact hmin j (Nat.lt_succ_of_le hj) hroot
    · intro e' he'
      rcases List.mem_append.mp he' with he' | he'
      · exact hhops e' he'
      · obtain rfl := List.mem_singleton.mp he'
        rw [htarget, hsource]
    · intro x hx
      rw [hvisited] at hx
      rcases List.mem_append.mp hx with hx | hx
      · obtain ⟨j, hj, hroot, hfirst⟩ := hdepth x hx
        exact ⟨j, Nat.le_succ_of_le hj, hroot, hfirst⟩
      · obtain rfl := List.mem_singleton.mp hx
        exact ⟨k + 1, Nat.le_refl _, hk, hmin⟩

/-- **The tree has a shortest path** to each of its vertices. -/
theorem IsShortestPathTree.exists_treePath (h : N.IsShortestPathTree inf s pred)
    (hN : N.NonnegFrom s) {v : V} {d : M} (hd : N.IsDist s v d) (hlt : d < inf) :
    ∃ es, N.IsPath s v es ∧ N.pathWeight es = d ∧ (N.visited s es).Nodup ∧
      ∀ e ∈ es, pred (N.target e) = N.source e := by
  classical
  have hex := h.rooted v ⟨d, hd, hlt⟩
  obtain ⟨es, hes, hweight, hnodup, hhops, -⟩ := h.exists_path_of_depth hN (Nat.find_spec hex)
    (fun j hj => Nat.find_min hex hj) hd hlt
  exact ⟨es, hes, hweight, hnodup, hhops⟩

end Tree

/-! ## Other trees -/

section Reroute

variable [DecidableEq V]

/-- Let the predecessors follow a path, and be as before elsewhere. -/
def reroute (N : Network V E M) : List E → (V → V) → V → V
  | [], pred => pred
  | e :: es, pred => Function.update (N.reroute es pred) (N.target e) (N.source e)

variable {N} {pred : V → V}

theorem reroute_of_notMem {es : List E} {x : V} (hx : x ∉ es.map N.target) :
    N.reroute es pred x = pred x := by
  induction es with
  | nil => rfl
  | cons e es ih =>
    rw [List.map_cons, List.mem_cons, not_or] at hx
    rw [reroute, Function.update_of_ne hx.1, ih hx.2]

/-- Along the path, the predecessors are those of the path. -/
theorem reroute_target {es : List E} (hnodup : (es.map N.target).Nodup) :
    ∀ e ∈ es, N.reroute es pred (N.target e) = N.source e := by
  induction es with
  | nil => exact fun e he => absurd he List.not_mem_nil
  | cons e es ih =>
    rw [List.map_cons, List.nodup_cons] at hnodup
    intro e' he'
    rcases List.mem_cons.mp he' with rfl | he'
    · rw [reroute, Function.update_self]
    · have hne : N.target e' ≠ N.target e := by
        intro heq
        exact hnodup.1 (heq ▸ List.mem_map_of_mem he')
      rw [reroute, Function.update_of_ne hne, ih hnodup.2 e' he']

variable [AddCommMonoid M] [LinearOrder M] [IsOrderedCancelAddMonoid M] {inf : M} {s : V}

/-- **Any shortest path is a branch of some tree**, if it visits no vertex twice. -/
theorem reroute_isShortestPathTree (h : N.IsShortestPathTree inf s pred) (hN : N.NonnegFrom s)
    {v : V} {es : List E} {d : M} (hes : N.IsPath s v es) (hweight : N.pathWeight es = d)
    (hd : N.IsDist s v d) (hlt : d < inf) (hnodup : (N.visited s es).Nodup) :
    N.IsShortestPathTree inf s (N.reroute es pred) := by
  obtain ⟨hs, hnodup⟩ := List.nodup_cons.mp hnodup
  -- every step of the path is the last step of a shortest path
  have hstep : ∀ e ∈ es, ∃ d', N.IsDist s (N.source e) d' ∧
      N.IsDist s (N.target e) (d' + N.weight e) ∧ d' + N.weight e < inf := by
    intro e he
    obtain ⟨es₁, es₂, rfl⟩ := List.append_of_mem he
    obtain ⟨w, hes₁, hedge, rfl, hes₂⟩ := N.isPath_append.mp hes
    have hpath : N.IsPath s (N.target e) (es₁ ++ [e]) :=
      N.isPath_concat.mpr ⟨hes₁, hedge, rfl⟩
    have hlast : N.IsDist s (N.target e) (N.pathWeight (es₁ ++ [e])) := by
      refine hd.of_append ?_ hpath hes₂
      rw [← hweight, List.append_assoc, List.singleton_append]
    have hsplit : N.pathWeight (es₁ ++ [e]) = N.pathWeight es₁ + N.weight e := by
      rw [pathWeight_append, pathWeight_cons, pathWeight_nil, add_zero]
    refine ⟨N.pathWeight es₁, hd.of_append hweight hes₁ ⟨hedge, rfl, hes₂⟩, hsplit ▸ hlast, ?_⟩
    have hrest := pathWeight_nonneg hN hlast.reachable hes₂
    refine lt_of_le_of_lt ?_ hlt
    rw [← hweight, pathWeight_append, pathWeight_cons, ← add_assoc]
    exact le_add_of_nonneg_right hrest
  have hroot : N.reroute es pred s = s := by rw [reroute_of_notMem hs, h.root]
  refine ⟨hroot, fun x hx => ?_, fun x d' hx hdist hbound => ?_, fun x hx => ?_⟩
  · -- the path is in the tree, so what is not keeps its predecessor
    have hnot : x ∉ es.map N.target := by
      intro hmem
      obtain ⟨e, he, rfl⟩ := List.mem_map.mp hmem
      obtain ⟨d', -, hdist, hbound⟩ := hstep e he
      exact hx ⟨_, hdist, hbound⟩
    rw [reroute_of_notMem hnot, h.lost x hx]
  · by_cases hmem : x ∈ es.map N.target
    · obtain ⟨e, he, rfl⟩ := List.mem_map.mp hmem
      obtain ⟨d₀, hsource, htarget, -⟩ := hstep e he
      rw [reroute_target hnodup e he]
      exact ⟨e, N.mem_edges_of_isPath hes e he, rfl, rfl, d₀, hsource, htarget.unique hdist⟩
    · rw [reroute_of_notMem hmem]
      exact h.hop x d' hx hdist hbound
  · -- the old predecessors lead to the root or to the path
    have hhops : ∀ e ∈ es, N.reroute es pred (N.target e) = N.source e := reroute_target hnodup
    have hpath := rooted_of_isPath hes ⟨0, rfl⟩ hhops
    obtain ⟨k, hk⟩ := h.rooted x hx
    clear hx
    induction k generalizing x with
    | zero => exact ⟨0, hk⟩
    | succ k ih =>
      by_cases hmem : x ∈ es.map N.target
      · obtain ⟨e, he, rfl⟩ := List.mem_map.mp hmem
        exact hpath e he
      · obtain ⟨j, hj⟩ := ih (pred x) hk
        refine ⟨j + 1, ?_⟩
        rw [Function.iterate_succ_apply, reroute_of_notMem hmem, hj]

end Reroute

end Network
end ShortestPaths
end UhdHost
