import UhdHost.Rfnoc.GraphCalls

/-!
# Cycles that a graph refuses

`connect` adds the edge first, asks for a topological order of the forward edges, and takes the
edge out again if there is none.  If the sort of the library finds an order whenever there is one,
then after any calls

* the vertices can be sorted, so that resolving the graph never fails for a cycle
  (`getTopoSortedNodes_of_run`);
* an edge is refused as unresolvable exactly if both of its ports are free and it is a forward edge
  that closes a cycle (`connect_unresolvable_iff_of_run`).

The vertices are sorted by their descriptors and the cycles are cycles of nodes; `transGen_forward`
leads from the ones to the others.
-/

namespace UhdHost
namespace Rfnoc
namespace RfnocGraph

open TopologicalOrder

variable {ν : Type} {g : RfnocGraph ν} {topoSort : TopologicalSort ℕ}

/-! ## Sorting -/

/-- The pairs of descriptors that are handed to the sort. -/
def forwardPairs (g : RfnocGraph ν) : List (ℕ × ℕ) :=
  (g.edges.filter (·.info.isForwardEdge)).map fun e => (e.source, e.target)

theorem mem_forwardPairs {p : ℕ × ℕ} : p ∈ g.forwardPairs ↔
    ∃ e ∈ g.edges, e.info.isForwardEdge = true ∧ (e.source, e.target) = p := by
  rw [forwardPairs, List.mem_map]
  exact exists_congr fun e => by rw [List.mem_filter, and_assoc]

/-- The edges lie between the vertices of the nodes that they name. -/
structure EdgesPlaced (g : RfnocGraph ν) : Prop where
  source_eq : ∀ e ∈ g.edges, g.vertices[e.source]? = some e.info.srcBlockid
  target_eq : ∀ e ∈ g.edges, g.vertices[e.target]? = some e.info.dstBlockid

theorem WellFormed.edgesPlaced (hg : g.WellFormed) : g.EdgesPlaced := ⟨hg.source_eq, hg.target_eq⟩

theorem EdgesPlaced.addEdge (hg : g.EdgesPlaced) {i j : ℕ} {info : GraphEdge ν}
    (hi : g.vertices[i]? = some info.srcBlockid) (hj : g.vertices[j]? = some info.dstBlockid) :
    (g.addEdge i j info).1.EdgesPlaced where
  source_eq := by
    intro e he
    rcases List.mem_append.mp he with he | he
    · exact hg.source_eq e he
    · rw [List.mem_singleton.mp he]
      exact hi
  target_eq := by
    intro e he
    rcases List.mem_append.mp he with he | he
    · exact hg.target_eq e he
    · rw [List.mem_singleton.mp he]
      exact hj

theorem transGen_forward (hg : g.EdgesPlaced) {i j : ℕ}
    (hpath : Relation.TransGen (TopologicalOrder.HasEdge g.forwardPairs) i j) :
    ∃ n m, g.vertices[i]? = some n ∧ g.vertices[j]? = some m ∧ Relation.TransGen g.Forward n m := by
  induction hpath with
  | single hedge =>
    obtain ⟨e, he, hforward, hends⟩ := mem_forwardPairs.mp hedge
    obtain ⟨rfl, rfl⟩ := Prod.mk.inj hends
    exact ⟨_, _, hg.source_eq e he, hg.target_eq e he,
      Relation.TransGen.single ⟨e, he, hforward, rfl, rfl⟩⟩
  | tail _ hedge ih =>
    obtain ⟨e, he, hforward, hends⟩ := mem_forwardPairs.mp hedge
    obtain ⟨rfl, rfl⟩ := Prod.mk.inj hends
    obtain ⟨n, m, hn, hm, hpath⟩ := ih
    obtain rfl : m = e.info.srcBlockid := Option.some.inj (hm.symm.trans (hg.source_eq e he))
    exact ⟨n, _, hn, hg.target_eq e he, hpath.tail ⟨e, he, hforward, rfl, rfl⟩⟩

theorem exists_topoSorted (hsort : IsTopologicalSort topoSort) (hg : g.EdgesPlaced)
    (hacyclic : ∀ n, ¬ Relation.TransGen g.Forward n n) :
    ∃ order, g.getTopoSortedNodes topoSort = .ok order ∧
      IsTopologicalOrder (List.range g.vertices.length) g.forwardPairs order := by
  have hends : ∀ p ∈ g.forwardPairs,
      p.1 ∈ List.range g.vertices.length ∧ p.2 ∈ List.range g.vertices.length := by
    intro p hp
    obtain ⟨e, he, -, rfl⟩ := mem_forwardPairs.mp hp
    exact ⟨List.mem_range.mpr (List.getElem?_eq_some_iff.mp (hg.source_eq e he)).1,
      List.mem_range.mpr (List.getElem?_eq_some_iff.mp (hg.target_eq e he)).1⟩
  have hpairs : Acyclic g.forwardPairs := by
    intro i hcycle
    obtain ⟨n, m, hn, hm, hpath⟩ := transGen_forward hg hcycle
    obtain rfl : n = m := Option.some.inj (hn.symm.trans hm)
    exact hacyclic n hpath
  obtain ⟨order, horder⟩ := hsort.complete _ g.forwardPairs List.nodup_range hends hpairs
  refine ⟨order, ?_, hsort.sound _ _ _ horder⟩
  rw [forwardPairs] at horder
  rw [getTopoSortedNodes, horder]

variable [DecidableEq ν]

/-- **After any calls, the vertices can be sorted**, and every forward edge leads from an earlier
vertex to a later one. -/
theorem getTopoSortedNodes_of_run (hsort : IsTopologicalSort topoSort)
    {callbacks : ν → NodeCallbacks ν} {calls : List (GraphCall ν)}
    (h : Transition.run (GraphCall.step topoSort) { callbacks := callbacks } calls = some g) :
    ∃ order, g.getTopoSortedNodes topoSort = .ok order ∧
      order.Perm (List.range g.vertices.length) ∧
      ∀ e ∈ g.edges, e.info.isForwardEdge = true → order.idxOf e.source < order.idxOf e.target := by
  have hg : g.WellFormed := wellFormed_of_run hsort.sound h
  obtain ⟨order, hsorted, hperm, hlt⟩ := exists_topoSorted hsort hg.edgesPlaced hg.acyclic
  exact ⟨order, hsorted, hperm, fun e he hforward =>
    hlt (e.source, e.target) (mem_forwardPairs.mpr ⟨e, he, hforward, rfl⟩)⟩

theorem getTopoSortedNodes_of_run_ring : ∃ g order,
    Transition.run (GraphCall.step findTopologicalOrder) {} ringCalls = some g ∧
      g.getTopoSortedNodes findTopologicalOrder = .ok order ∧
      order.Perm (List.range g.vertices.length) :=
  have hrun : Transition.run (GraphCall.step findTopologicalOrder) {} ringCalls = some _ := rfl
  have ⟨order, hsorted, hperm, _⟩ :=
    getTopoSortedNodes_of_run findTopologicalOrder_isTopologicalSort hrun
  ⟨_, order, hrun, hsorted, hperm⟩

/-! ## What is refused -/

theorem ne_unresolvable_of_checkOutEdges {info : GraphEdge ν} {edges : List (Edge ν)} {e : UhdError}
    (h : checkOutEdges info edges = .error e) : e ≠ unresolvableGraph := by
  induction edges with
  | nil => cases h
  | cons existing rest ih =>
    unfold checkOutEdges at h
    split_ifs at h with hequal hports hends
    · cases h
      decide
    · cases h
      decide
    · exact ih h

theorem ne_unresolvable_of_checkInEdges {info : GraphEdge ν} {edges : List (Edge ν)} {e : UhdError}
    (h : checkInEdges info edges = .error e) : e ≠ unresolvableGraph := by
  induction edges with
  | nil => cases h
  | cons existing rest ih =>
    unfold checkInEdges at h
    split_ifs at h with hport
    · cases h
      decide
    · exact ih h

theorem checkOutEdges_eq_false_iff {info : GraphEdge ν} {edges : List (Edge ν)} :
    checkOutEdges info edges = .ok false ↔
      ∀ e ∈ edges, ¬ (e.info.srcPort = info.srcPort ∧ e.info.srcBlockid = info.srcBlockid) := by
  refine ⟨free_of_checkOutEdges, fun hfree => ?_⟩
  induction edges with
  | nil => rfl
  | cons existing rest ih =>
    have hports := hfree existing List.mem_cons_self
    rw [checkOutEdges, if_neg ?_, if_neg hports]
    · exact ih fun e he => hfree e (List.mem_cons_of_mem _ he)
    · intro hequal
      rw [isEqual_true_iff.mp hequal] at hports
      exact hports ⟨rfl, rfl⟩

theorem checkInEdges_eq_ok_iff {info : GraphEdge ν} {edges : List (Edge ν)} :
    checkInEdges info edges = .ok () ↔
      ∀ e ∈ edges, ¬ (info.dstBlockid = e.info.dstBlockid ∧ info.dstPort = e.info.dstPort) := by
  refine ⟨free_of_checkInEdges, fun hfree => ?_⟩
  induction edges with
  | nil => rfl
  | cons existing rest ih =>
    rw [checkInEdges, if_neg (hfree existing List.mem_cons_self)]
    exact ih fun e he => hfree e (List.mem_cons_of_mem _ he)

/-- **What is refused as unresolvable**: an edge that passes both checks and cannot be sorted. -/
theorem connect_eq_unresolvable_iff {srcNode dstNode : ν} {edgeInfo : GraphEdge ν} {i j : ℕ}
    (hi : (g.addNodes srcNode dstNode).nodeMap srcNode = some i)
    (hj : (g.addNodes srcNode dstNode).nodeMap dstNode = some j) :
    (∃ g', g.connect topoSort srcNode dstNode edgeInfo = .error unresolvableGraph g') ↔
      checkOutEdges (describedEdge srcNode dstNode edgeInfo)
          ((g.addNodes srcNode dstNode).outEdges i) = .ok false ∧
        checkInEdges (describedEdge srcNode dstNode edgeInfo)
          ((g.addNodes srcNode dstNode).inEdges j) = .ok () ∧
        ∀ sorted, getTopoSortedNodes topoSort ((g.addNodes srcNode dstNode).addEdge i j
          (describedEdge srcNode dstNode edgeInfo)).1 ≠ .ok sorted := by
  have hi' : ((g.addNode srcNode).addNode dstNode).nodeMap srcNode = some i := hi
  have hj' : ((g.addNode srcNode).addNode dstNode).nodeMap dstNode = some j := hj
  unfold connect
  simp only [hi', hj']
  cases hout : checkOutEdges (describedEdge srcNode dstNode edgeInfo)
      ((g.addNodes srcNode dstNode).outEdges i) with
  | error e =>
    have hne := ne_unresolvable_of_checkOutEdges hout
    rw [addNodes] at hout
    simp only [hout]
    simpa using hne
  | ok there =>
    rw [addNodes] at hout
    simp only [hout]
    cases there with
    | true => simp
    | false =>
      cases hin : checkInEdges (describedEdge srcNode dstNode edgeInfo)
          ((g.addNodes srcNode dstNode).inEdges j) with
      | error e =>
        have hne := ne_unresolvable_of_checkInEdges hin
        rw [addNodes] at hin
        simp only [hin]
        simpa using hne
      | ok u =>
        rw [addNodes] at hin
        simp only [hin]
        cases hsort : getTopoSortedNodes topoSort ((g.addNodes srcNode dstNode).addEdge i j
            (describedEdge srcNode dstNode edgeInfo)).1 with
        | error e =>
          rw [addNodes] at hsort
          simp [hsort]
        | ok sorted =>
          rw [addNodes] at hsort
          simp [hsort]

omit [DecidableEq ν] in
theorem unsortable_addEdge_iff (hsort : IsTopologicalSort topoSort) (hg : g.WellFormed) {i j : ℕ}
    (info : GraphEdge ν) (hi : g.nodeMap info.srcBlockid = some i)
    (hj : g.nodeMap info.dstBlockid = some j)
    (hsrcFree : ∀ e ∈ g.outEdges i,
      ¬ (e.info.srcPort = info.srcPort ∧ e.info.srcBlockid = info.srcBlockid))
    (hdstFree : ∀ e ∈ g.inEdges j,
      ¬ (info.dstBlockid = e.info.dstBlockid ∧ info.dstPort = e.info.dstPort)) :
    (∀ sorted, getTopoSortedNodes topoSort (g.addEdge i j info).1 ≠ .ok sorted) ↔
      info.isForwardEdge = true ∧
        Relation.ReflTransGen g.Forward info.dstBlockid info.srcBlockid := by
  have hplaced : (g.addEdge i j info).1.EdgesPlaced :=
    hg.edgesPlaced.addEdge ((hg.indexes _ _).mp hi) ((hg.indexes _ _).mp hj)
  have hcycle : (∀ sorted, getTopoSortedNodes topoSort (g.addEdge i j info).1 ≠ .ok sorted) ↔
      ∃ n, Relation.TransGen (g.addEdge i j info).1.Forward n n := by
    constructor
    · intro hunsorted
      by_contra hnone
      obtain ⟨order, horder, -⟩ := exists_topoSorted hsort hplaced (not_exists.mp hnone)
      exact hunsorted order horder
    · rintro ⟨n, hn⟩ sorted hsorted
      exact (hg.addEdge hsort.sound hi hj hsrcFree hdstFree hsorted).acyclic n hn
  have hadded : ∀ n m, (g.addEdge i j info).1.Forward n m ↔ g.Forward n m ∨
      info.isForwardEdge = true ∧ info.srcBlockid = n ∧ info.dstBlockid = m := by
    intro n m
    change (∃ e ∈ g.edges ++ [Edge.mk i j info], _) ↔ _
    simp only [List.mem_append, List.mem_singleton, or_and_right, exists_or, exists_eq_left]
    exact Iff.rfl
  rw [hcycle]
  by_cases hforward : info.isForwardEdge = true
  · rw [and_iff_right hforward]
    refine exists_cycle_of_added_iff (fun n m => ?_) hg.acyclic
    rw [hadded, and_iff_right hforward, eq_comm (a := n), eq_comm (a := m)]
  · have hsame : (g.addEdge i j info).1.Forward = g.Forward := by
      funext n m
      rw [hadded, propext (or_iff_left fun h => hforward h.1)]
    rw [hsame]
    exact ⟨fun ⟨n, hn⟩ => absurd hn (hg.acyclic n), fun h => absurd h.1 hforward⟩

omit [DecidableEq ν] in
/-- No edge from the vertex of a node has a port exactly if no edge of the graph has it. -/
theorem WellFormed.srcFree_iff (hg : g.WellFormed) {n : ν} {i : ℕ} (hi : g.nodeMap n = some i)
    (port : ℕ) :
    (∀ e ∈ g.outEdges i, ¬ (e.info.srcPort = port ∧ e.info.srcBlockid = n)) ↔
      ∀ info ∈ g.infos, ¬ (info.srcBlockid = n ∧ info.srcPort = port) := by
  rw [infos, List.forall_mem_map, outEdges]
  refine ⟨fun hfree e he hports => hfree e (List.mem_filter.mpr ⟨he, ?_⟩) hports.symm,
    fun hfree e he hports => hfree e (List.mem_filter.mp he).1 hports.symm⟩
  exact decide_eq_true ((hg.source_eq_iff he hi).mpr hports.1)

omit [DecidableEq ν] in
theorem WellFormed.dstFree_iff (hg : g.WellFormed) {n : ν} {j : ℕ} (hj : g.nodeMap n = some j)
    (port : ℕ) :
    (∀ e ∈ g.inEdges j, ¬ (n = e.info.dstBlockid ∧ port = e.info.dstPort)) ↔
      ∀ info ∈ g.infos, ¬ (info.dstBlockid = n ∧ info.dstPort = port) := by
  rw [infos, List.forall_mem_map, inEdges]
  refine ⟨fun hfree e he hports => hfree e (List.mem_filter.mpr ⟨he, ?_⟩)
      ⟨hports.1.symm, hports.2.symm⟩,
    fun hfree e he hports => hfree e (List.mem_filter.mp he).1 ⟨hports.1.symm, hports.2.symm⟩⟩
  exact decide_eq_true ((hg.target_eq_iff he hj).mpr hports.1)

/-- **After any calls, an edge is refused as unresolvable exactly if it would close a cycle**: both
of its ports are free, it is a forward edge, and a path of forward edges leads from its end to its
beginning. -/
theorem connect_unresolvable_iff_of_run (hsort : IsTopologicalSort topoSort)
    {callbacks : ν → NodeCallbacks ν} {calls : List (GraphCall ν)}
    (h : Transition.run (GraphCall.step topoSort) { callbacks := callbacks } calls = some g)
    (srcNode dstNode : ν) (edgeInfo : GraphEdge ν) :
    (∃ g', g.connect topoSort srcNode dstNode edgeInfo = .error unresolvableGraph g') ↔
      (∀ info ∈ g.infos, ¬ (info.srcBlockid = srcNode ∧ info.srcPort = edgeInfo.srcPort)) ∧
        (∀ info ∈ g.infos, ¬ (info.dstBlockid = dstNode ∧ info.dstPort = edgeInfo.dstPort)) ∧
        edgeInfo.isForwardEdge = true ∧ Relation.ReflTransGen g.Forward dstNode srcNode := by
  have hg : g.WellFormed := wellFormed_of_run hsort.sound h
  have hadd : (g.addNodes srcNode dstNode).WellFormed := hg.addNodes srcNode dstNode
  have hedges : (g.addNodes srcNode dstNode).edges = g.edges := edges_addNodes g srcNode dstNode
  have hinfos : (g.addNodes srcNode dstNode).infos = g.infos := by rw [infos, infos, hedges]
  obtain ⟨⟨i, hi⟩, j, hj⟩ := nodeMap_addNodes g srcNode dstNode
  have hout := hadd.srcFree_iff hi edgeInfo.srcPort
  have hin := hadd.dstFree_iff hj edgeInfo.dstPort
  rw [hinfos] at hout hin
  rw [connect_eq_unresolvable_iff hi hj, checkOutEdges_eq_false_iff, checkInEdges_eq_ok_iff]
  -- with the ports free, what is left is whether the edge can be sorted
  have hsorts : _ → _ → _ :=
    unsortable_addEdge_iff hsort hadd (describedEdge srcNode dstNode edgeInfo) hi hj
  have hpath : Relation.ReflTransGen (g.addNodes srcNode dstNode).Forward dstNode srcNode ↔
      Relation.ReflTransGen g.Forward dstNode srcNode := by
    have hforward : (g.addNodes srcNode dstNode).Forward = g.Forward := by
      unfold Forward
      rw [hedges]
    rw [hforward]
  constructor
  · rintro ⟨hsrc, hdst, hunsorted⟩
    obtain ⟨hforward, hcycle⟩ := (hsorts hsrc hdst).mp hunsorted
    exact ⟨hout.mp hsrc, hin.mp hdst, hforward, hpath.mp hcycle⟩
  · rintro ⟨hsrc, hdst, hforward, hcycle⟩
    exact ⟨hout.mpr hsrc, hin.mpr hdst,
      (hsorts (hout.mpr hsrc) (hin.mpr hdst)).mpr ⟨hforward, hpath.mpr hcycle⟩⟩

theorem connect_unresolvable_iff_of_run_ring : ∃ g,
    Transition.run (GraphCall.step findTopologicalOrder) {} ringCalls = some g ∧
      ((∃ g', g.connect findTopologicalOrder 1 0 ⟨1, 1, 0, 1, .dynamic, true⟩ =
          .error unresolvableGraph g') ↔
        (∀ info ∈ g.infos, ¬ (info.srcBlockid = 1 ∧ info.srcPort = 1)) ∧
          (∀ info ∈ g.infos, ¬ (info.dstBlockid = 0 ∧ info.dstPort = 1)) ∧
          true = true ∧ Relation.ReflTransGen g.Forward 0 1) :=
  have hrun : Transition.run (GraphCall.step findTopologicalOrder) {} ringCalls = some _ := rfl
  ⟨_, hrun, connect_unresolvable_iff_of_run findTopologicalOrder_isTopologicalSort hrun 1 0 _⟩

end RfnocGraph
end Rfnoc
end UhdHost
