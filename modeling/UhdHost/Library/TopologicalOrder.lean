import Mathlib

/-!
# Topological orders

An order of the vertices of a directed graph is *topological* if every edge leads from an earlier
vertex to a later one.  A relation along which some rank grows has no cycle
(`not_transGen_self_of_rank`), so a graph that has a topological order has none.

`findTopologicalOrder` looks for a topological order among all orders of the vertices, which is a
slow way to sort a graph, but one that finds an order whenever there is one.  There is one whenever
the graph has no cycle (`exists_isTopologicalOrder`).
-/

namespace UhdHost
namespace TopologicalOrder

variable {α : Type*}

/-- **A relation along which a rank grows has no cycle.** -/
theorem not_transGen_self_of_rank {R : α → α → Prop} (rank : α → ℕ)
    (hrank : ∀ a b, R a b → rank a < rank b) (a : α) : ¬ Relation.TransGen R a a := by
  intro hcycle
  have hlt : Relation.TransGen (fun m n : ℕ => m < n) (rank a) (rank a) :=
    Relation.TransGen.lift rank hrank _ _ hcycle
  rw [Relation.transGen_eq_self] at hlt
  exact lt_irrefl _ hlt

/-- A relation with fewer pairs has no new cycle. -/
theorem not_transGen_self_mono {R S : α → α → Prop} (hsub : ∀ a b, S a b → R a b) {a : α}
    (hacyclic : ¬ Relation.TransGen R a a) : ¬ Relation.TransGen S a a :=
  fun hcycle => hacyclic (Relation.TransGen.mono hsub _ _ hcycle)

/-- A path along edges of which one was added goes along the old ones, or over the new one. -/
theorem transGen_of_added {R S : α → α → Prop} {a b x y : α}
    (hS : ∀ x y, S x y → R x y ∨ x = a ∧ y = b) (hpath : Relation.TransGen S x y) :
    Relation.TransGen R x y ∨ Relation.ReflTransGen R x a ∧ Relation.ReflTransGen R b y := by
  induction hpath with
  | single hedge =>
    rcases hS _ _ hedge with hold | ⟨rfl, rfl⟩
    · exact Or.inl (Relation.TransGen.single hold)
    · exact Or.inr ⟨Relation.ReflTransGen.refl, Relation.ReflTransGen.refl⟩
  | tail _ hedge ih =>
    rcases hS _ _ hedge with hold | ⟨rfl, rfl⟩
    · exact ih.imp (fun hpath => hpath.tail hold) fun hpath => ⟨hpath.1, hpath.2.tail hold⟩
    · refine Or.inr ⟨?_, Relation.ReflTransGen.refl⟩
      rcases ih with hpath | hpath
      · exact hpath.to_reflTransGen
      · exact hpath.1

/-- **An edge that is added closes a cycle** exactly if a path leads from its end back to its
beginning. -/
theorem exists_cycle_of_added_iff {R S : α → α → Prop} {a b : α}
    (hS : ∀ x y, S x y ↔ R x y ∨ x = a ∧ y = b) (hacyclic : ∀ x, ¬ Relation.TransGen R x x) :
    (∃ x, Relation.TransGen S x x) ↔ Relation.ReflTransGen R b a := by
  constructor
  · rintro ⟨x, hcycle⟩
    rcases transGen_of_added (fun x y => (hS x y).mp) hcycle with hold | ⟨hxa, hbx⟩
    · exact absurd hold (hacyclic x)
    · exact hbx.trans hxa
  · intro hpath
    refine ⟨b, Relation.TransGen.tail' ?_ ((hS a b).mpr (Or.inr ⟨rfl, rfl⟩))⟩
    exact Relation.ReflTransGen.mono (fun x y hold => (hS x y).mpr (Or.inl hold)) _ _ hpath

variable [DecidableEq α]

/-- The order has the vertices, and every edge leads from an earlier one to a later one. -/
structure IsTopologicalOrder (vertices : List α) (edges : List (α × α)) (order : List α) :
    Prop where
  perm : order.Perm vertices
  lt : ∀ e ∈ edges, order.idxOf e.1 < order.idxOf e.2

/-- Try all orders of the vertices. -/
def findTopologicalOrder (vertices : List α) (edges : List (α × α)) : Option (List α) :=
  vertices.permutations'.find? fun order =>
    edges.all fun e => order.idxOf e.1 < order.idxOf e.2

theorem isTopologicalOrder_of_find {vertices : List α} {edges : List (α × α)} {order : List α}
    (h : findTopologicalOrder vertices edges = some order) :
    IsTopologicalOrder vertices edges order := by
  unfold findTopologicalOrder at h
  refine ⟨List.mem_permutations'.mp (List.mem_of_find?_eq_some h), fun e he => ?_⟩
  have hfound := List.find?_some h
  have hall := List.all_eq_true.mp hfound e he
  exact of_decide_eq_true hall

/-! ## Graphs without cycles -/

/-- There is an edge from one vertex to the other. -/
def HasEdge (edges : List (α × α)) (a b : α) : Prop := (a, b) ∈ edges

/-- No path leads back to where it begins. -/
def Acyclic (edges : List (α × α)) : Prop := ∀ a, ¬ Relation.TransGen (HasEdge edges) a a

/-- Some vertex has no edge from another. -/
theorem exists_source {edges : List (α × α)} (hacyclic : Acyclic edges) {vertices : List α}
    (hne : vertices ≠ []) : ∃ a ∈ vertices, ∀ b ∈ vertices, (b, a) ∉ edges := by
  have hirrefl : Std.Irrefl (fun a b : {a // a ∈ vertices} =>
      Relation.TransGen (HasEdge edges) a.1 b.1) := ⟨fun a => hacyclic a.1⟩
  have htrans : IsTrans {a // a ∈ vertices} (fun a b =>
      Relation.TransGen (HasEdge edges) a.1 b.1) := ⟨fun _ _ _ hab hbc => hab.trans hbc⟩
  have hwf := Finite.wellFounded_of_trans_of_irrefl (fun a b : {a // a ∈ vertices} =>
    Relation.TransGen (HasEdge edges) a.1 b.1)
  obtain ⟨a, ha⟩ := List.exists_mem_of_ne_nil vertices hne
  obtain ⟨m, -, hm⟩ := hwf.has_min Set.univ ⟨⟨a, ha⟩, trivial⟩
  exact ⟨m.1, m.2, fun b hb hedge => hm ⟨b, hb⟩ trivial (Relation.TransGen.single hedge)⟩

/-- **A graph without cycles has a topological order.** -/
theorem exists_isTopologicalOrder {edges : List (α × α)} (hacyclic : Acyclic edges)
    (vertices : List α) (hnodup : vertices.Nodup) :
    ∃ order : List α, order.Perm vertices ∧
      ∀ e ∈ edges, e.1 ∈ vertices → e.2 ∈ vertices → order.idxOf e.1 < order.idxOf e.2 := by
  induction hlength : vertices.length generalizing vertices with
  | zero =>
    rw [List.length_eq_zero_iff] at hlength
    subst hlength
    exact ⟨[], List.Perm.refl [], fun e _ he => absurd he List.not_mem_nil⟩
  | succ n ih =>
    have hne : vertices ≠ [] := by
      rintro rfl
      cases hlength
    obtain ⟨a, ha, hsource⟩ := exists_source hacyclic hne
    have hcard : (vertices.erase a).length = n := by
      rw [List.length_erase_of_mem ha, hlength, Nat.add_sub_cancel]
    obtain ⟨order, hperm, hlt⟩ := ih (vertices.erase a) (hnodup.erase a) hcard
    refine ⟨a :: order, (hperm.cons a).trans (List.perm_cons_erase ha).symm, ?_⟩
    intro e he hfirst hsecond
    have hsecondNe : e.2 ≠ a := by
      rintro rfl
      exact hsource e.1 hfirst he
    rw [List.idxOf_cons_ne order (Ne.symm hsecondNe)]
    by_cases hfirstEq : e.1 = a
    · rw [hfirstEq, List.idxOf_cons_self]
      exact Nat.succ_pos _
    · rw [List.idxOf_cons_ne order (Ne.symm hfirstEq)]
      exact Nat.succ_lt_succ (hlt e he ((List.mem_erase_of_ne hfirstEq).mpr hfirst)
        ((List.mem_erase_of_ne hsecondNe).mpr hsecond))

/-- What is relied on of a topological sort: it yields topological orders only, and yields one if
the graph has no cycle. -/
structure IsTopologicalSort (sort : List α → List (α × α) → Option (List α)) : Prop where
  sound : ∀ vertices edges order, sort vertices edges = some order →
    IsTopologicalOrder vertices edges order
  complete : ∀ vertices edges, vertices.Nodup →
    (∀ e ∈ edges, e.1 ∈ vertices ∧ e.2 ∈ vertices) → Acyclic edges →
      ∃ order, sort vertices edges = some order

/-- To try all orders is to sort. -/
theorem findTopologicalOrder_isTopologicalSort :
    IsTopologicalSort (findTopologicalOrder (α := α)) := by
  refine ⟨fun _ _ _ h => isTopologicalOrder_of_find h, ?_⟩
  intro vertices edges hnodup hends hacyclic
  obtain ⟨order, hperm, hlt⟩ := exists_isTopologicalOrder hacyclic vertices hnodup
  refine Option.isSome_iff_exists.mp (List.find?_isSome.mpr ⟨order, ?_, ?_⟩)
  · exact List.mem_permutations'.mpr hperm
  · exact List.all_eq_true.mpr fun e he =>
      decide_eq_true (hlt e he (hends e he).1 (hends e he).2)

end TopologicalOrder
end UhdHost
