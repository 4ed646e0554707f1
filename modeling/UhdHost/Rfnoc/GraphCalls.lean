import UhdHost.Rfnoc.GraphStructure

/-!
# Runs of a graph's calls

What is true of the structure of a graph after any calls, and what a `connect` that throws leaves
behind.

* `structure_of_run`: the map and the vertices belong together, ports have one edge at most, and
  the forward edges have no cycle, whatever the calls were and whether they threw.  A vertex without
  an edge comes from a `connect` that threw, or from a `remove` that took a neighbour away.
* `connect_error_unchanged_iff`: a `connect` that throws leaves the graph as it was only if both
  nodes had been in it.
* `callbacks_of_run`, `findNeighbour_iff_of_run`: the callbacks of the nodes, and their neighbours.
-/

namespace UhdHost
namespace Rfnoc

open Stateful TopologicalOrder

namespace RfnocGraph

variable {ν : Type} [DecidableEq ν] {g : RfnocGraph ν} {topoSort : TopologicalSort ℕ}

/-! ## One call keeps the structure -/

theorem WellFormed.addNodes (hg : g.WellFormed) (srcNode dstNode : ν) :
    (g.addNodes srcNode dstNode).WellFormed :=
  ((hg.addNode srcNode).addNode dstNode).congr rfl rfl rfl

theorem WellFormed.connect (hg : g.WellFormed) (hsort : topoSort.Sound) (srcNode dstNode : ν)
    (edgeInfo : GraphEdge ν) :
    (stateAfter (g.connect topoSort srcNode dstNode edgeInfo)).WellFormed := by
  have hadd : (g.addNodes srcNode dstNode).WellFormed := hg.addNodes srcNode dstNode
  rcases connect_cases topoSort srcNode dstNode edgeInfo g with
    ⟨e, h⟩ | ⟨h, -⟩ | ⟨i, j, sorted, hi, hj, hsrcFree, hdstFree, htopo, h⟩
  · rw [h]
    exact hadd
  · rw [h]
    exact hadd
  · rw [h]
    exact hadd.addEdge hsort hi hj hsrcFree hdstFree htopo

theorem WellFormed.cutEdge (hg : g.WellFormed) (srcNode dstNode : ν) (edgeInfo : GraphEdge ν)
    (i : ℕ) : (g.cutEdge srcNode dstNode edgeInfo i).WellFormed := hg.removeOutEdgeIf i _

theorem WellFormed.disconnect (hg : g.WellFormed) (srcNode dstNode : ν)
    (edgeInfo : GraphEdge ν) :
    (stateAfter (g.disconnect srcNode dstNode edgeInfo)).WellFormed := by
  rcases disconnect_cases srcNode dstNode edgeInfo g with
    ⟨-, -, h⟩ | ⟨-, h⟩ | ⟨i, -, -, ⟨-, h⟩ | ⟨j, -, h⟩⟩
  · rw [h]
    exact hg
  · rw [h]
    exact hg
  · rw [h]
    exact (hg.cutEdge srcNode dstNode edgeInfo i).removeIfUnconnected srcNode i
  · rw [h]
    exact ((hg.cutEdge srcNode dstNode edgeInfo i).removeIfUnconnected
      srcNode i).removeIfUnconnected dstNode j

omit [DecidableEq ν] in
theorem WellFormed.commit (hg : g.WellFormed)
    (checkAndResolve : RfnocGraph ν → Except UhdError Unit) :
    (stateAfter (g.commit checkAndResolve)).WellFormed := by
  unfold RfnocGraph.commit
  dsimp only
  split_ifs
  · split <;> exact hg.congr rfl rfl rfl
  · exact hg.congr rfl rfl rfl

theorem wellFormed_step (hsort : topoSort.Sound) (g : RfnocGraph ν) (call : GraphCall ν)
    (g' : RfnocGraph ν) (hg : g.WellFormed) (h : GraphCall.step topoSort g call = some g') :
    g'.WellFormed := by
  obtain rfl := Option.some.inj h
  cases call with
  | connect srcNode dstNode edgeInfo => exact hg.connect hsort srcNode dstNode edgeInfo
  | disconnect srcNode dstNode edgeInfo => exact hg.disconnect srcNode dstNode edgeInfo
  | remove node => exact hg.removeNode node
  | commit checkAndResolve => exact hg.commit checkAndResolve
  | release => exact hg.congr rfl rfl rfl

/-! ## Every vertex has an edge -/

/-- Every node of the graph has an edge. -/
def AllConnected (g : RfnocGraph ν) : Prop := ∀ n ∈ g.vertices, g.HasEdge n

/-- The call leaves no node without an edge: a `connect` does not throw, and what a `remove` takes
away is not the last edge of another node. -/
def KeepsConnected (topoSort : TopologicalSort ℕ) (g : RfnocGraph ν) : GraphCall ν → Prop
  | .connect srcNode dstNode edgeInfo =>
    isOk (g.connect topoSort srcNode dstNode edgeInfo) = true
  | .remove node =>
    ∀ n ∈ g.vertices, n ≠ node → ∃ e ∈ g.edges, Touches e n ∧ ¬ Touches e node
  | _ => True

theorem mem_addNode {n m : ν} (hm : m ∈ (g.addNode n).vertices) : m ∈ g.vertices ∨ m = n := by
  unfold addNode at hm
  cases hn : g.nodeMap n with
  | some i =>
    rw [hn] at hm
    exact Or.inl hm
  | none =>
    rw [hn] at hm
    rcases List.mem_append.mp hm with hm | hm
    · exact Or.inl hm
    · exact Or.inr (List.mem_singleton.mp hm)

theorem mem_vertices_addNodes {srcNode dstNode n : ν}
    (hn : n ∈ (g.addNodes srcNode dstNode).vertices) :
    n ∈ g.vertices ∨ n = srcNode ∨ n = dstNode := by
  rcases mem_addNode hn with hn | hn
  · rcases mem_addNode hn with hn | hn
    · exact Or.inl hn
    · exact Or.inr (Or.inl hn)
  · exact Or.inr (Or.inr hn)

theorem edges_addNode (g : RfnocGraph ν) (n : ν) : (g.addNode n).edges = g.edges := by
  unfold addNode
  split <;> rfl

theorem edges_addNodes (g : RfnocGraph ν) (srcNode dstNode : ν) :
    (g.addNodes srcNode dstNode).edges = g.edges :=
  (edges_addNode _ dstNode).trans (edges_addNode g srcNode)

theorem allConnected_of_mem_infos {g' : RfnocGraph ν} (hg : g.AllConnected) {srcNode dstNode : ν}
    {edgeInfo : GraphEdge ν} (hvertices : g'.vertices = (g.addNodes srcNode dstNode).vertices)
    (hedges : ∀ e ∈ g.edges, e ∈ g'.edges)
    (hedge : describedEdge srcNode dstNode edgeInfo ∈ g'.infos) : g'.AllConnected := by
  intro n hn
  rw [hvertices] at hn
  rcases mem_vertices_addNodes hn with hold | rfl | rfl
  · obtain ⟨e, he, hn⟩ := hg n hold
    exact ⟨e, hedges e he, hn⟩
  · exact hasEdge_iff_infos.mpr ⟨_, hedge, Or.inl rfl⟩
  · exact hasEdge_iff_infos.mpr ⟨_, hedge, Or.inr rfl⟩

theorem AllConnected.connect (hg : g.AllConnected) {srcNode dstNode : ν}
    {edgeInfo : GraphEdge ν}
    (hok : isOk (g.connect topoSort srcNode dstNode edgeInfo) = true) :
    (stateAfter (g.connect topoSort srcNode dstNode edgeInfo)).AllConnected := by
  rcases connect_cases topoSort srcNode dstNode edgeInfo g with
    ⟨e, h⟩ | ⟨h, hedge⟩ | ⟨i, j, sorted, -, -, -, -, -, h⟩
  · rw [h] at hok
    exact absurd hok Bool.false_ne_true
  · rw [h]
    exact allConnected_of_mem_infos hg rfl
      (fun e he => (edges_addNodes g srcNode dstNode).symm ▸ he) hedge
  · rw [h]
    have hedge : describedEdge srcNode dstNode edgeInfo ∈ ((g.addNodes srcNode dstNode).addEdge i j
        (describedEdge srcNode dstNode edgeInfo)).1.infos :=
      List.mem_map.mpr ⟨_, List.mem_append_right _ List.mem_cons_self, rfl⟩
    refine allConnected_of_mem_infos hg rfl (fun e he => List.mem_append_left _ ?_) hedge
    exact (edges_addNodes g srcNode dstNode).symm ▸ he

theorem hasEdge_removeIfUnconnected (hg : g.WellFormed) {n : ν} {i : ℕ}
    (hn : g.nodeMap n = some i) (m : ν) :
    (g.removeIfUnconnected n i).HasEdge m ↔ g.HasEdge m := by
  rw [hasEdge_iff_infos, hasEdge_iff_infos, removeIfUnconnected_infos hg hn]

theorem mem_removeIfUnconnected (hg : g.WellFormed) {n m : ν} {i : ℕ}
    (hn : g.nodeMap n = some i) :
    m ∈ (g.removeIfUnconnected n i).vertices ↔ m ∈ g.vertices ∧ (m ≠ n ∨ g.HasEdge n) := by
  rw [removeIfUnconnected_vertices hg hn, List.mem_filter, decide_eq_true_iff]

theorem hasEdge_cutEdge (hg : g.WellFormed) {srcNode dstNode n : ν} {edgeInfo : GraphEdge ν}
    {i : ℕ} (hi : g.nodeMap srcNode = some i) (hn : g.HasEdge n) (hsrc : n ≠ srcNode)
    (hdst : n ≠ dstNode) : (g.cutEdge srcNode dstNode edgeInfo i).HasEdge n := by
  obtain ⟨info, hinfo, hends⟩ := hasEdge_iff_infos.mp hn
  refine hasEdge_iff_infos.mpr ⟨info, ?_, hends⟩
  rw [cutEdge, removeOutEdgeIf_infos hg hi, List.mem_filter]
  refine ⟨hinfo, ?_⟩
  rw [Bool.not_eq_true']
  by_contra hequal
  have hdescribed := isEqual_false_iff.mp (Bool.not_eq_false _ ▸ hequal)
  rcases hends with rfl | rfl
  · exact hsrc hdescribed.1.symm
  · exact hdst hdescribed.2.2.1.symm

/-- What `disconnect` has done when it looks for the destination again. -/
def cutSource (g : RfnocGraph ν) (srcNode dstNode : ν) (edgeInfo : GraphEdge ν) (i : ℕ) :
    RfnocGraph ν :=
  (g.cutEdge srcNode dstNode edgeInfo i).removeIfUnconnected srcNode i

section CutSource

variable {srcNode dstNode : ν} {edgeInfo : GraphEdge ν} {i : ℕ}

theorem WellFormed.cutSource (hg : g.WellFormed) :
    (g.cutSource srcNode dstNode edgeInfo i).WellFormed :=
  (hg.cutEdge srcNode dstNode edgeInfo i).removeIfUnconnected srcNode i

theorem mem_cutSource (hg : g.WellFormed) (hi : g.nodeMap srcNode = some i) {n : ν} :
    n ∈ (g.cutSource srcNode dstNode edgeInfo i).vertices ↔
      n ∈ g.vertices ∧ (n ≠ srcNode ∨ (g.cutEdge srcNode dstNode edgeInfo i).HasEdge srcNode) :=
  mem_removeIfUnconnected (hg.cutEdge srcNode dstNode edgeInfo i) hi

theorem hasEdge_cutSource (hg : g.WellFormed) (hi : g.nodeMap srcNode = some i) (n : ν) :
    (g.cutSource srcNode dstNode edgeInfo i).HasEdge n ↔
      (g.cutEdge srcNode dstNode edgeInfo i).HasEdge n :=
  hasEdge_removeIfUnconnected (hg.cutEdge srcNode dstNode edgeInfo i) hi n

theorem AllConnected.cutSource (hconn : g.AllConnected) (hg : g.WellFormed)
    (hi : g.nodeMap srcNode = some i) {n : ν}
    (hn : n ∈ (g.cutSource srcNode dstNode edgeInfo i).vertices) (hdst : n ≠ dstNode) :
    (g.cutSource srcNode dstNode edgeInfo i).HasEdge n := by
  rw [hasEdge_cutSource hg hi]
  obtain ⟨hmem, hsrc⟩ := (mem_cutSource hg hi).mp hn
  by_cases hns : n = srcNode
  · rw [hns] at hsrc ⊢
    exact hsrc.resolve_left fun hne => hne rfl
  · exact hasEdge_cutEdge hg hi (hconn n hmem) hns hdst

end CutSource

theorem AllConnected.disconnect (hconn : g.AllConnected) (hg : g.WellFormed) (srcNode dstNode : ν)
    (edgeInfo : GraphEdge ν) :
    (stateAfter (g.disconnect srcNode dstNode edgeInfo)).AllConnected := by
  rcases disconnect_cases srcNode dstNode edgeInfo g with
    ⟨-, -, h⟩ | ⟨-, h⟩ | ⟨i, hi, -, ⟨hgone, h⟩ | ⟨j, hj, h⟩⟩
  · rw [h]
    exact hconn
  · rw [h]
    exact hconn
  · rw [h]
    intro n hn
    refine hconn.cutSource hg hi hn ?_
    rintro rfl
    exact hg.cutSource.indexes.eq_none_iff.mp hgone hn
  · rw [h]
    intro n hn
    have hcut : (g.cutSource srcNode dstNode edgeInfo i).WellFormed := hg.cutSource
    obtain ⟨hmem, hdst⟩ := (mem_removeIfUnconnected hcut hj).mp hn
    refine (hasEdge_removeIfUnconnected hcut hj n).mpr ?_
    by_cases hnd : n = dstNode
    · rw [hnd] at hdst ⊢
      exact hdst.resolve_left fun hne => hne rfl
    · exact hconn.cutSource hg hi hmem hnd

theorem AllConnected.remove (hconn : g.AllConnected) (hg : g.WellFormed) {node : ν}
    (hkeeps : ∀ n ∈ g.vertices, n ≠ node → ∃ e ∈ g.edges, Touches e n ∧ ¬ Touches e node) :
    (g.removeNode node).AllConnected := by
  cases hnode : g.nodeMap node with
  | none =>
    rw [removeNode_of_none hnode]
    exact hconn
  | some i =>
    intro n hn
    rw [removeNode_vertices hg hnode, List.mem_filter, decide_eq_true_iff] at hn
    obtain ⟨e, he, htouches, hnot⟩ := hkeeps n hn.1 hn.2
    refine hasEdge_iff_infos.mpr ⟨e.info, ?_, htouches⟩
    rw [removeNode_infos hg hnode, List.mem_filter]
    exact ⟨List.mem_map.mpr ⟨e, he, rfl⟩, decide_eq_true hnot⟩

omit [DecidableEq ν] in
theorem AllConnected.congr {g' : RfnocGraph ν} (hconn : g.AllConnected)
    (hvertices : g'.vertices = g.vertices) (hedges : g'.edges = g.edges) : g'.AllConnected := by
  intro n hn
  rw [hvertices] at hn
  obtain ⟨e, he, htouches⟩ := hconn n hn
  exact ⟨e, hedges.symm ▸ he, htouches⟩

omit [DecidableEq ν] in
theorem AllConnected.commit (hconn : g.AllConnected)
    (checkAndResolve : RfnocGraph ν → Except UhdError Unit) :
    (stateAfter (g.commit checkAndResolve)).AllConnected := by
  unfold RfnocGraph.commit
  dsimp only
  split_ifs
  · split <;> exact hconn.congr rfl rfl
  · exact hconn.congr rfl rfl

theorem allConnected_step (g : RfnocGraph ν) (call : GraphCall ν) (g' : RfnocGraph ν)
    (hg : g.WellFormed) (hconn : g.AllConnected) (hkeeps : KeepsConnected topoSort g call)
    (h : GraphCall.step topoSort g call = some g') : g'.AllConnected := by
  obtain rfl := Option.some.inj h
  cases call with
  | connect srcNode dstNode edgeInfo => exact hconn.connect hkeeps
  | disconnect srcNode dstNode edgeInfo => exact hconn.disconnect hg srcNode dstNode edgeInfo
  | remove node => exact hconn.remove hg hkeeps
  | commit checkAndResolve => exact hconn.commit checkAndResolve
  | release => exact hconn.congr rfl rfl

/-! ## The structure of a graph after any calls -/

omit [DecidableEq ν] in
theorem length_filter_le_one {β : Type} {edges : List (Edge ν)} {f : Edge ν → β}
    (hedges : (edges.map f).Nodup) {p : Edge ν → Bool}
    (hp : ∀ e ∈ edges, ∀ e' ∈ edges, p e = true → p e' = true → f e = f e') :
    (edges.filter p).length ≤ 1 := by
  have hnodup : ((edges.filter p).map f).Nodup := (List.filter_sublist.map f).nodup hedges
  have hmem : ∀ e ∈ edges.filter p, e ∈ edges ∧ p e = true := fun e he => List.mem_filter.mp he
  rcases hfilter : edges.filter p with _ | ⟨e, _ | ⟨e', rest⟩⟩
  · exact Nat.zero_le 1
  · exact le_rfl
  · rw [hfilter] at hnodup hmem
    obtain ⟨he, hpe⟩ := hmem e List.mem_cons_self
    obtain ⟨he', hpe'⟩ := hmem e' (List.mem_cons_of_mem _ List.mem_cons_self)
    have hne := (List.nodup_cons.mp hnodup).1
    exact absurd (List.mem_cons.mpr (Or.inl (hp e he e' he' hpe hpe'))) hne

instance (g : RfnocGraph ν) : (call : GraphCall ν) → Decidable (KeepsConnected topoSort g call)
  | .connect srcNode dstNode edgeInfo =>
    inferInstanceAs (Decidable (isOk (g.connect topoSort srcNode dstNode edgeInfo) = true))
  | .remove node => inferInstanceAs (Decidable
      (∀ n ∈ g.vertices, n ≠ node → ∃ e ∈ g.edges, Touches e n ∧ ¬ Touches e node))
  | .disconnect _ _ _ => isTrue trivial
  | .commit _ => isTrue trivial
  | .release => isTrue trivial

theorem wellFormed_of_run (hsort : topoSort.Sound) {callbacks : ν → NodeCallbacks ν}
    {calls : List (GraphCall ν)}
    (h : Transition.run (GraphCall.step topoSort) { callbacks := callbacks } calls = some g) :
    g.WellFormed :=
  Transition.run_invariant (fun g call g' hg => wellFormed_step hsort g call g' hg)
    (WellFormed.empty callbacks 1) h

theorem allConnected_of_run (hsort : topoSort.Sound) {callbacks : ν → NodeCallbacks ν}
    {calls : List (GraphCall ν)}
    (hkeeps : Transition.EveryStep (GraphCall.step topoSort) (KeepsConnected topoSort)
      { callbacks := callbacks } calls)
    (h : Transition.run (GraphCall.step topoSort) { callbacks := callbacks } calls = some g) :
    g.AllConnected := by
  have hboth : g.WellFormed ∧ g.AllConnected := by
    refine Transition.run_invariant_of_everyStep (I := fun g => g.WellFormed ∧ g.AllConnected)
      ?_ ⟨WellFormed.empty callbacks 1, ?_⟩ hkeeps h
    · rintro g call g' ⟨hg, hconn⟩ hgood hstep
      exact ⟨wellFormed_step hsort g call g' hg hstep,
        allConnected_step g call g' hg hconn hgood hstep⟩
    · exact fun n hn => absurd hn List.not_mem_nil
  exact hboth.2

/-- **The structure of a graph after any calls**, each of which may have thrown: the map goes to
and fro between nodes and vertices, the edges lie between the nodes that they name, no port has two
edges, and the forward edges have no cycle.  If no `connect` threw and no `remove` took a node's
last edge, every vertex has an edge. -/
theorem structure_of_run (hsort : topoSort.Sound) {callbacks : ν → NodeCallbacks ν}
    {calls : List (GraphCall ν)}
    (h : Transition.run (GraphCall.step topoSort) { callbacks := callbacks } calls = some g) :
    (∀ n i, g.nodeMap n = some i ↔ g.vertices[i]? = some n) ∧
      (∀ i < g.vertices.length, ∃! n, g.nodeMap n = some i) ∧
      (∀ e ∈ g.edges, g.nodeMap e.info.srcBlockid = some e.source ∧
        g.nodeMap e.info.dstBlockid = some e.target) ∧
      (∀ i port, ((g.outEdges i).filter (·.info.srcPort = port)).length ≤ 1) ∧
      (∀ i port, ((g.inEdges i).filter (·.info.dstPort = port)).length ≤ 1) ∧
      (∀ n, ¬ Relation.TransGen g.Forward n n) ∧
      (Transition.EveryStep (GraphCall.step topoSort) (KeepsConnected topoSort)
        { callbacks := callbacks } calls → ∀ n ∈ g.vertices, g.HasEdge n) := by
  have hg : g.WellFormed := wellFormed_of_run hsort h
  refine ⟨hg.indexes, ?_, fun e he => ⟨hg.nodeMap_source he, hg.nodeMap_target he⟩, ?_, ?_,
    hg.acyclic, fun hkeeps => allConnected_of_run hsort hkeeps h⟩
  · intro i hi
    refine ⟨g.vertices[i], (hg.indexes _ i).mpr (List.getElem?_eq_getElem hi), fun n hn => ?_⟩
    exact (List.getElem_eq_iff hi).mpr ((hg.indexes n i).mp hn) |>.symm
  · intro i port
    rw [outEdges, List.filter_filter]
    refine length_filter_le_one hg.srcPorts_nodup fun e he e' he' hpe hpe' => ?_
    simp only [Bool.and_eq_true, decide_eq_true_iff] at hpe hpe'
    have hnode := (hg.source_eq e he).symm.trans (hpe.2 ▸ hpe'.2 ▸ hg.source_eq e' he')
    exact Prod.ext (Option.some.inj hnode) (hpe.1.trans hpe'.1.symm)
  · intro i port
    rw [inEdges, List.filter_filter]
    refine length_filter_le_one hg.dstPorts_nodup fun e he e' he' hpe hpe' => ?_
    simp only [Bool.and_eq_true, decide_eq_true_iff] at hpe hpe'
    have hnode := (hg.target_eq e he).symm.trans (hpe.2 ▸ hpe'.2 ▸ hg.target_eq e' he')
    exact Prod.ext (Option.some.inj hnode) (hpe.1.trans hpe'.1.symm)

theorem findTopologicalOrder_sound : TopologicalSort.Sound (@findTopologicalOrder ℕ _) :=
  fun _ _ _ h => isTopologicalOrder_of_find h

/-- Two nodes are connected and connected the other way by a back edge, and one is removed. -/
def ringCalls : List (GraphCall ℕ) :=
  [.connect 0 1 { srcBlockid := 0, dstBlockid := 1 },
    .connect 1 0 { srcBlockid := 1, dstBlockid := 0, isForwardEdge := false }]

theorem structure_of_run_ring : ∃ g,
    Transition.run (GraphCall.step findTopologicalOrder) {} ringCalls = some g ∧
      g.vertices = [0, 1] ∧ g.edges.length = 2 ∧
      (∀ n, ¬ Relation.TransGen g.Forward n n) ∧ ∀ n ∈ g.vertices, g.HasEdge n := by
  obtain ⟨g, hrun, hg⟩ := Option.map_eq_some_iff.mp (by decide +kernel :
    (Transition.run (GraphCall.step findTopologicalOrder) {} ringCalls).map
      (fun g => (g.vertices, g.edges.length)) = some ([0, 1], 2))
  have hstructure := structure_of_run findTopologicalOrder_sound hrun
  exact ⟨g, hrun, congrArg Prod.fst hg, congrArg Prod.snd hg, hstructure.2.2.2.2.2.1,
    hstructure.2.2.2.2.2.2 (by decide +kernel)⟩

/-- Removing a node leaves its neighbour without an edge. -/
theorem vertex_without_edge_of_remove : ¬ ∀ (calls : List (GraphCall ℕ)) (g : RfnocGraph ℕ),
    Transition.run (GraphCall.step findTopologicalOrder) {} calls = some g →
      ∀ n ∈ g.vertices, g.HasEdge n := by
  intro h
  obtain ⟨g, hrun, hg⟩ := Option.map_eq_some_iff.mp (by decide +kernel :
    (Transition.run (GraphCall.step findTopologicalOrder) {}
      [.connect 0 1 { srcBlockid := 0, dstBlockid := 1 }, .remove 0]).map
        (fun g => decide (∀ n ∈ g.vertices, g.HasEdge n)) = some false)
  exact of_decide_eq_false hg (h _ g hrun)

/-! ## A connect that throws -/

/-- The vertices, the edges, the map and the callbacks of both nodes are as before. -/
def Unchanged (srcNode dstNode : ν) (g g' : RfnocGraph ν) : Prop :=
  g'.vertices = g.vertices ∧ g'.edges = g.edges ∧ g'.nodeMap = g.nodeMap ∧
    g'.callbacks srcNode = g.callbacks srcNode ∧ g'.callbacks dstNode = g.callbacks dstNode

/-- A node that is in the graph has the graph's callbacks. -/
def CallbacksSet (g : RfnocGraph ν) (n : ν) : Prop :=
  g.nodeMap n ≠ none ∧ g.callbacks n = NodeCallbacks.ofGraph n

theorem addNode_of_ne_none {n : ν} (hn : g.nodeMap n ≠ none) : g.addNode n = g := by
  obtain ⟨i, hi⟩ := Option.ne_none_iff_exists'.mp hn
  unfold addNode
  rw [hi]

theorem length_vertices_addNode (g : RfnocGraph ν) (n : ν) :
    (g.addNode n).vertices.length =
      g.vertices.length + if g.nodeMap n = none then 1 else 0 := by
  unfold addNode
  cases hn : g.nodeMap n with
  | some i => rfl
  | none => exact List.length_append

theorem nodeMap_addNode_ne_none {n m : ν} (hn : g.nodeMap n ≠ none) :
    (g.addNode m).nodeMap n ≠ none := by
  obtain ⟨i, hi⟩ := Option.ne_none_iff_exists'.mp hn
  rw [nodeMap_addNode_of_some hi]
  exact Option.some_ne_none i

theorem callbacks_addNode (g : RfnocGraph ν) (n : ν) : (g.addNode n).callbacks = g.callbacks := by
  unfold addNode
  split <;> rfl

theorem callbacks_addNodes (g : RfnocGraph ν) (srcNode dstNode : ν) :
    (g.addNodes srcNode dstNode).callbacks srcNode = NodeCallbacks.ofGraph srcNode ∧
      (g.addNodes srcNode dstNode).callbacks dstNode = NodeCallbacks.ofGraph dstNode := by
  refine ⟨?_, Function.update_self ..⟩
  by_cases hne : srcNode = dstNode
  · rw [hne]
    exact Function.update_self ..
  · exact (Function.update_of_ne hne ..).trans (Function.update_self ..)

/-- **Adding the nodes changes nothing if and only if they are in the graph already**, with their
callbacks set. -/
theorem unchanged_addNodes_iff (g : RfnocGraph ν) (srcNode dstNode : ν) :
    Unchanged srcNode dstNode g (g.addNodes srcNode dstNode) ↔
      g.CallbacksSet srcNode ∧ g.CallbacksSet dstNode := by
  obtain ⟨hsrcCallbacks, hdstCallbacks⟩ := callbacks_addNodes g srcNode dstNode
  constructor
  · rintro ⟨hvertices, -, -, hsrc, hdst⟩
    have hlength := congrArg List.length hvertices
    change ((g.addNode srcNode).addNode dstNode).vertices.length = _ at hlength
    rw [length_vertices_addNode, length_vertices_addNode] at hlength
    have hsrcKnown : g.nodeMap srcNode ≠ none := by
      intro hnone
      rw [if_pos hnone] at hlength
      omega
    rw [addNode_of_ne_none hsrcKnown, if_neg hsrcKnown] at hlength
    have hdstKnown : g.nodeMap dstNode ≠ none := by
      intro hnone
      rw [if_pos hnone] at hlength
      omega
    exact ⟨⟨hsrcKnown, hsrc.symm.trans hsrcCallbacks⟩,
      ⟨hdstKnown, hdst.symm.trans hdstCallbacks⟩⟩
  · rintro ⟨⟨hsrcKnown, hsrc⟩, hdstKnown, hdst⟩
    have hadd : (g.addNode srcNode).addNode dstNode = g := by
      rw [addNode_of_ne_none hsrcKnown, addNode_of_ne_none hdstKnown]
    have hsame : g.addNodes srcNode dstNode = (g.setCallbacks srcNode).setCallbacks dstNode := by
      rw [addNodes, hadd]
    refine ⟨?_, ?_, ?_, hsrcCallbacks.trans hsrc.symm, hdstCallbacks.trans hdst.symm⟩
    · rw [hsame]
      rfl
    · rw [hsame]
      rfl
    · rw [hsame]
      rfl

theorem connect_error {srcNode dstNode : ν} {edgeInfo : GraphEdge ν} {e : UhdError}
    {g' : RfnocGraph ν} (h : g.connect topoSort srcNode dstNode edgeInfo = .error e g') :
    g' = g.addNodes srcNode dstNode := by
  rcases connect_cases topoSort srcNode dstNode edgeInfo g with
    ⟨_, h'⟩ | ⟨h', -⟩ | ⟨_, _, _, -, -, -, -, -, h'⟩
  · rw [h'] at h
    injection h with _ hg
    exact hg.symm
  · rw [h'] at h
    exact absurd h (by simp)
  · rw [h'] at h
    exact absurd h (by simp)

/-- **A `connect` that throws leaves the graph as it was** if and only if both nodes had been in
it, with their callbacks set. -/
theorem connect_error_unchanged_iff {srcNode dstNode : ν} {edgeInfo : GraphEdge ν} {e : UhdError}
    {g' : RfnocGraph ν} (h : g.connect topoSort srcNode dstNode edgeInfo = .error e g') :
    Unchanged srcNode dstNode g g' ↔ g.CallbacksSet srcNode ∧ g.CallbacksSet dstNode := by
  rw [connect_error h]
  exact unchanged_addNodes_iff g srcNode dstNode

/-- A graph with one edge. -/
def pairGraph : RfnocGraph ℕ :=
  stateAfter (({} : RfnocGraph ℕ).connect findTopologicalOrder 0 1
    { srcBlockid := 0, dstBlockid := 1 })

theorem connect_error_unchanged_iff_pair : ∃ e g',
    pairGraph.connect findTopologicalOrder 0 1
        { srcBlockid := 0, dstBlockid := 1, isForwardEdge := false } = .error e g' ∧
      (Unchanged 0 1 pairGraph g' ↔
        pairGraph.CallbacksSet 0 ∧ pairGraph.CallbacksSet 1) ∧
      pairGraph.CallbacksSet 0 ∧ pairGraph.CallbacksSet 1 := by
  obtain ⟨e, he⟩ := exists_error_of_isOk_eq_false (by decide +kernel :
    isOk (pairGraph.connect findTopologicalOrder 0 1
      { srcBlockid := 0, dstBlockid := 1, isForwardEdge := false }) = false)
  refine ⟨e, _, he, connect_error_unchanged_iff he, ?_⟩
  unfold CallbacksSet
  decide +kernel

/-- A new node stays in the graph when its edge is refused. -/
theorem connect_error_changes_graph : ¬ ∀ (g g' : RfnocGraph ℕ) (srcNode dstNode : ℕ)
    (edgeInfo : GraphEdge ℕ) (e : UhdError),
    g.connect findTopologicalOrder srcNode dstNode edgeInfo = .error e g' →
      Unchanged srcNode dstNode g g' := by
  intro h
  obtain ⟨e, he⟩ := exists_error_of_isOk_eq_false (by decide +kernel :
    isOk (pairGraph.connect findTopologicalOrder 0 2 { srcBlockid := 0, dstBlockid := 2 }) = false)
  have hvertices := (h _ _ _ _ _ _ he).1
  exact absurd hvertices (by decide +kernel)

/-- The nodes of the graph have the graph's callbacks. -/
def NodesHaveCallbacks (g : RfnocGraph ν) : Prop :=
  ∀ n, g.nodeMap n ≠ none → g.callbacks n = NodeCallbacks.ofGraph n

theorem NodesHaveCallbacks.addNodes (hcallbacks : g.NodesHaveCallbacks) (hg : g.WellFormed)
    (srcNode dstNode : ν) : (g.addNodes srcNode dstNode).NodesHaveCallbacks := by
  intro n hn
  by_cases hdst : n = dstNode
  · rw [hdst]
    exact (callbacks_addNodes g srcNode dstNode).2
  by_cases hsrc : n = srcNode
  · rw [hsrc]
    exact (callbacks_addNodes g srcNode dstNode).1
  have hold : g.nodeMap n ≠ none := by
    rw [← hg.indexes.mem_iff]
    rw [← (hg.addNodes srcNode dstNode).indexes.mem_iff] at hn
    exact (mem_vertices_addNodes hn).resolve_right fun h => h.elim hsrc hdst
  have hsame : (g.addNodes srcNode dstNode).callbacks n =
      ((g.addNode srcNode).addNode dstNode).callbacks n :=
    (Function.update_of_ne hdst ..).trans (Function.update_of_ne hsrc ..)
  rw [hsame, callbacks_addNode, callbacks_addNode, hcallbacks n hold]

theorem callbacks_removeNode (g : RfnocGraph ν) (n : ν) :
    (g.removeNode n).callbacks = g.callbacks := by
  unfold removeNode
  split <;> rfl

theorem nodeMap_ne_none_of_removeNode (hg : g.WellFormed) {n m : ν}
    (hn : (g.removeNode m).nodeMap n ≠ none) : g.nodeMap n ≠ none ∧ n ≠ m := by
  cases hm : g.nodeMap m with
  | none =>
    rw [removeNode_of_none hm] at hn
    refine ⟨hn, ?_⟩
    rintro rfl
    exact hn hm
  | some i =>
    rw [← (hg.removeNode m).indexes.mem_iff, removeNode_vertices hg hm, List.mem_filter,
      decide_eq_true_iff] at hn
    exact ⟨hg.indexes.mem_iff.mp hn.1, hn.2⟩

theorem NodesHaveCallbacks.removeNode (hcallbacks : g.NodesHaveCallbacks) (hg : g.WellFormed)
    (m : ν) : (g.removeNode m).NodesHaveCallbacks := by
  intro n hn
  rw [callbacks_removeNode]
  exact hcallbacks n (nodeMap_ne_none_of_removeNode hg hn).1

theorem NodesHaveCallbacks.removeIfUnconnected (hcallbacks : g.NodesHaveCallbacks)
    (hg : g.WellFormed) (m : ν) (i : ℕ) : (g.removeIfUnconnected m i).NodesHaveCallbacks := by
  unfold RfnocGraph.removeIfUnconnected
  split_ifs
  · intro n hn
    have hne : n ≠ m := (nodeMap_ne_none_of_removeNode hg hn).2
    exact (Function.update_of_ne hne ..).trans (hcallbacks.removeNode hg m n hn)
  · exact hcallbacks

theorem nodesHaveCallbacks_step (g : RfnocGraph ν) (call : GraphCall ν)
    (g' : RfnocGraph ν) (hg : g.WellFormed) (hcallbacks : g.NodesHaveCallbacks)
    (h : GraphCall.step topoSort g call = some g') : g'.NodesHaveCallbacks := by
  obtain rfl := Option.some.inj h
  cases call with
  | connect srcNode dstNode edgeInfo =>
    have hadd := hcallbacks.addNodes hg srcNode dstNode
    change (stateAfter (g.connect topoSort srcNode dstNode edgeInfo)).NodesHaveCallbacks
    rcases connect_cases topoSort srcNode dstNode edgeInfo g with
      ⟨_, h⟩ | ⟨h, -⟩ | ⟨_, _, _, -, -, -, -, -, h⟩
    · rw [h]
      exact hadd
    · rw [h]
      exact hadd
    · rw [h]
      exact hadd
  | disconnect srcNode dstNode edgeInfo =>
    change (stateAfter (g.disconnect srcNode dstNode edgeInfo)).NodesHaveCallbacks
    have hcut : ∀ i, (g.cutSource srcNode dstNode edgeInfo i).NodesHaveCallbacks := by
      intro i
      have hedge : (g.cutEdge srcNode dstNode edgeInfo i).NodesHaveCallbacks := hcallbacks
      exact hedge.removeIfUnconnected (hg.cutEdge srcNode dstNode edgeInfo i) srcNode i
    rcases disconnect_cases srcNode dstNode edgeInfo g with
      ⟨-, -, h⟩ | ⟨-, h⟩ | ⟨i, -, -, ⟨-, h⟩ | ⟨j, -, h⟩⟩
    · rw [h]
      exact hcallbacks
    · rw [h]
      exact hcallbacks
    · rw [h]
      exact hcut i
    · rw [h]
      exact (hcut i).removeIfUnconnected hg.cutSource dstNode j
  | remove node => exact hcallbacks.removeNode hg node
  | commit checkAndResolve =>
    change (stateAfter (g.commit checkAndResolve)).NodesHaveCallbacks
    unfold RfnocGraph.commit
    dsimp only
    split_ifs
    · split <;> exact hcallbacks
    · exact hcallbacks
  | release => exact hcallbacks

theorem nodesHaveCallbacks_of_run (hsort : topoSort.Sound) {callbacks : ν → NodeCallbacks ν}
    {calls : List (GraphCall ν)}
    (h : Transition.run (GraphCall.step topoSort) { callbacks := callbacks } calls = some g) :
    g.NodesHaveCallbacks := by
  have hboth : g.WellFormed ∧ g.NodesHaveCallbacks := by
    refine Transition.run_invariant (I := fun g => g.WellFormed ∧ g.NodesHaveCallbacks)
      ?_ ⟨WellFormed.empty callbacks 1, ?_⟩ h
    · rintro g call g' ⟨hg, hcallbacks⟩ hstep
      exact ⟨wellFormed_step hsort g call g' hg hstep,
        nodesHaveCallbacks_step g call g' hg hcallbacks hstep⟩
    · exact fun n hn => absurd rfl hn
  exact hboth.2

/-- **After any calls, the nodes in the graph have the graph's callbacks**, so that a `connect`
that throws then leaves the graph as it was if and only if both nodes had been in it. -/
theorem callbacks_of_run (hsort : topoSort.Sound) {callbacks : ν → NodeCallbacks ν}
    {calls : List (GraphCall ν)}
    (h : Transition.run (GraphCall.step topoSort) { callbacks := callbacks } calls = some g) :
    (∀ n ∈ g.vertices, g.callbacks n = NodeCallbacks.ofGraph n) ∧
      ∀ srcNode dstNode edgeInfo e g',
        g.connect topoSort srcNode dstNode edgeInfo = .error e g' →
        (Unchanged srcNode dstNode g g' ↔ srcNode ∈ g.vertices ∧ dstNode ∈ g.vertices) := by
  have hg : g.WellFormed := wellFormed_of_run hsort h
  have hcallbacks : g.NodesHaveCallbacks := nodesHaveCallbacks_of_run hsort h
  refine ⟨fun n hn => hcallbacks n (hg.indexes.mem_iff.mp hn), ?_⟩
  intro srcNode dstNode edgeInfo e g' herror
  rw [connect_error herror, unchanged_addNodes_iff, hg.indexes.mem_iff, hg.indexes.mem_iff]
  exact and_congr (and_iff_left_of_imp (hcallbacks srcNode))
    (and_iff_left_of_imp (hcallbacks dstNode))

theorem callbacks_of_run_ring : ∃ g,
    Transition.run (GraphCall.step findTopologicalOrder) {} ringCalls = some g ∧
      ∀ n ∈ g.vertices, g.callbacks n = NodeCallbacks.ofGraph n :=
  have hrun : Transition.run (GraphCall.step findTopologicalOrder) {} ringCalls = some _ := rfl
  ⟨_, hrun, (callbacks_of_run findTopologicalOrder_sound hrun).1⟩

/-! ## Neighbours -/

/-- **After any calls, a neighbour is found exactly along the edges**: at a port that an edge has as
one of its ends it is the node at the other end, and at any other port there is none. -/
theorem findNeighbour_iff_of_run (hsort : topoSort.Sound) {callbacks : ν → NodeCallbacks ν}
    {calls : List (GraphCall ν)}
    (h : Transition.run (GraphCall.step topoSort) { callbacks := callbacks } calls = some g)
    {n m : ν} {i : ℕ} (hn : g.nodeMap n = some i) (portInfo : ResSourceInfo) (info : GraphEdge ν) :
    g.findNeighbour i portInfo = some (m, info) ↔
      info ∈ g.infos ∧ ∃ b, info.node b = n ∧ info.port b = portInfo ∧ info.node (!b) = m := by
  rw [findNeighbour_eq_toTopology (wellFormed_of_run hsort h) hn]
  constructor
  · intro hfound
    obtain ⟨hinfo, b, hnode, hport, hm⟩ := Topology.exists_end_of_findNeighbour hfound
    exact ⟨hinfo, b, hnode, hport, hm.symm⟩
  · rintro ⟨hinfo, b, rfl, rfl, rfl⟩
    exact Topology.findNeighbour_port _ hinfo b

theorem findNeighbour_iff_of_run_ring : ∃ g,
    Transition.run (GraphCall.step findTopologicalOrder) {} ringCalls = some g ∧
      g.findNeighbour 1 ⟨.outputEdge, 0⟩ = some (0, ⟨1, 0, 0, 0, .dynamic, false⟩) :=
  have hrun : Transition.run (GraphCall.step findTopologicalOrder) {} ringCalls = some _ := rfl
  ⟨_, hrun, (findNeighbour_iff_of_run findTopologicalOrder_sound hrun (n := 1) rfl _ _).mpr
    ⟨List.mem_of_getElem? (i := 1) rfl, true, rfl, rfl, rfl⟩⟩

end RfnocGraph
end Rfnoc
end UhdHost
