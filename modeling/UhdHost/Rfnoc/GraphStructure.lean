import UhdHost.Rfnoc.Graph

/-!
# The structure of a graph is kept

`RfnocGraph.WellFormed` is the invariant of the graph: the map from nodes to vertices agrees with
the vertices, every edge begins and ends at the vertices of the nodes that it names, a port has one
edge at most, and there is no cycle of forward edges.

Every change that the calls are made of keeps it (`WellFormed.addNode`, `WellFormed.addEdge`,
`WellFormed.filterEdges`, `WellFormed.removeNode`).  `connect_cases` and `disconnect_cases` say what
the two calls can do at all, and from there it is kept over whole runs.
-/

namespace UhdHost
namespace Rfnoc
namespace RfnocGraph

open IndexMap TopologicalOrder

variable {ν : Type} {g : RfnocGraph ν} {topoSort : TopologicalSort ℕ}

/-! ## The invariant -/

/-- A forward edge leads from one node to the other. -/
def Forward (g : RfnocGraph ν) (n m : ν) : Prop :=
  ∃ e ∈ g.edges, e.info.isForwardEdge = true ∧ e.info.srcBlockid = n ∧ e.info.dstBlockid = m

/-- The graph is as it has to be. -/
structure WellFormed (g : RfnocGraph ν) : Prop where
  indexes : Indexes g.nodeMap g.vertices
  source_eq : ∀ e ∈ g.edges, g.vertices[e.source]? = some e.info.srcBlockid
  target_eq : ∀ e ∈ g.edges, g.vertices[e.target]? = some e.info.dstBlockid
  srcPorts_nodup : (g.edges.map fun e => (e.info.srcBlockid, e.info.srcPort)).Nodup
  dstPorts_nodup : (g.edges.map fun e => (e.info.dstBlockid, e.info.dstPort)).Nodup
  acyclic : ∀ n, ¬ Relation.TransGen g.Forward n n

/-- An edge begins or ends at a node. -/
def Touches (e : Edge ν) (n : ν) : Prop := e.info.srcBlockid = n ∨ e.info.dstBlockid = n

instance [DecidableEq ν] (e : Edge ν) (n : ν) : Decidable (Touches e n) := by
  unfold Touches
  infer_instance

/-- A node has an edge. -/
def HasEdge (g : RfnocGraph ν) (n : ν) : Prop := ∃ e ∈ g.edges, Touches e n

instance [DecidableEq ν] (g : RfnocGraph ν) (n : ν) : Decidable (g.HasEdge n) := by
  unfold HasEdge
  infer_instance

namespace WellFormed

theorem empty (callbacks : ν → NodeCallbacks ν) (releaseCount : ℕ) :
    WellFormed ({ callbacks := callbacks, releaseCount := releaseCount } : RfnocGraph ν) where
  indexes := Indexes.nil
  source_eq := fun _ he => absurd he List.not_mem_nil
  target_eq := fun _ he => absurd he List.not_mem_nil
  srcPorts_nodup := List.nodup_nil
  dstPorts_nodup := List.nodup_nil
  acyclic := fun n => not_transGen_self_of_rank (fun _ => 0)
    (fun _ _ ⟨_, he, _⟩ => absurd he List.not_mem_nil) n

theorem congr {g' : RfnocGraph ν} (hg : g.WellFormed) (hvertices : g'.vertices = g.vertices)
    (hedges : g'.edges = g.edges) (hmap : g'.nodeMap = g.nodeMap) : g'.WellFormed := by
  obtain ⟨vertices, edges, nodeMap, callbacks, releaseCount⟩ := g
  obtain ⟨vertices', edges', nodeMap', callbacks', releaseCount'⟩ := g'
  subst hvertices hedges hmap
  exact ⟨hg.indexes, hg.source_eq, hg.target_eq, hg.srcPorts_nodup, hg.dstPorts_nodup, hg.acyclic⟩

theorem nodeMap_source (hg : g.WellFormed) {e : Edge ν} (he : e ∈ g.edges) :
    g.nodeMap e.info.srcBlockid = some e.source := (hg.indexes _ _).mpr (hg.source_eq e he)

theorem nodeMap_target (hg : g.WellFormed) {e : Edge ν} (he : e ∈ g.edges) :
    g.nodeMap e.info.dstBlockid = some e.target := (hg.indexes _ _).mpr (hg.target_eq e he)

theorem source_eq_iff (hg : g.WellFormed) {e : Edge ν} (he : e ∈ g.edges) {n : ν} {i : ℕ}
    (hn : g.nodeMap n = some i) : e.source = i ↔ e.info.srcBlockid = n := by
  constructor
  · rintro rfl
    exact Option.some.inj ((hg.source_eq e he).symm.trans ((hg.indexes n _).mp hn))
  · rintro rfl
    exact Option.some.inj ((hg.nodeMap_source he).symm.trans hn)

theorem target_eq_iff (hg : g.WellFormed) {e : Edge ν} (he : e ∈ g.edges) {n : ν} {i : ℕ}
    (hn : g.nodeMap n = some i) : e.target = i ↔ e.info.dstBlockid = n := by
  constructor
  · rintro rfl
    exact Option.some.inj ((hg.target_eq e he).symm.trans ((hg.indexes n _).mp hn))
  · rintro rfl
    exact Option.some.inj ((hg.nodeMap_target he).symm.trans hn)

theorem mem_of_touches (hg : g.WellFormed) {e : Edge ν} (he : e ∈ g.edges) {n : ν}
    (hn : Touches e n) : n ∈ g.vertices := by
  rcases hn with rfl | rfl
  · exact List.mem_of_getElem? (hg.source_eq e he)
  · exact List.mem_of_getElem? (hg.target_eq e he)

theorem degree_eq_zero_iff (hg : g.WellFormed) {n : ν} {i : ℕ} (hn : g.nodeMap n = some i) :
    g.degree i = 0 ↔ ¬ g.HasEdge n := by
  rw [degree, Nat.add_eq_zero_iff, List.length_eq_zero_iff, List.length_eq_zero_iff, inEdges,
    outEdges, List.filter_eq_nil_iff, List.filter_eq_nil_iff]
  constructor
  · rintro ⟨hin, hout⟩ ⟨e, he, hsrc | hdst⟩
    · exact hout e he (by simpa using (hg.source_eq_iff he hn).mpr hsrc)
    · exact hin e he (by simpa using (hg.target_eq_iff he hn).mpr hdst)
  · intro hnone
    constructor
    · intro e he hin
      exact hnone ⟨e, he, Or.inr ((hg.target_eq_iff he hn).mp (by simpa using hin))⟩
    · intro e he hout
      exact hnone ⟨e, he, Or.inl ((hg.source_eq_iff he hn).mp (by simpa using hout))⟩

/-! ## What keeps the invariant -/

theorem filterEdges (hg : g.WellFormed) {edges : List (Edge ν)} (hsub : edges.Sublist g.edges) :
    WellFormed { g with edges := edges } where
  indexes := hg.indexes
  source_eq := fun e he => hg.source_eq e (hsub.subset he)
  target_eq := fun e he => hg.target_eq e (hsub.subset he)
  srcPorts_nodup := (hsub.map _).nodup hg.srcPorts_nodup
  dstPorts_nodup := (hsub.map _).nodup hg.dstPorts_nodup
  acyclic := fun n => not_transGen_self_mono
    (fun _ _ ⟨e, he, hfwd⟩ => ⟨e, hsub.subset he, hfwd⟩) (hg.acyclic n)

theorem addEdge (hg : g.WellFormed) (hsort : topoSort.Sound) {i j : ℕ} {info : GraphEdge ν}
    {sorted : List ℕ} (hsrc : g.nodeMap info.srcBlockid = some i)
    (hdst : g.nodeMap info.dstBlockid = some j)
    (hsrcFree : ∀ e ∈ g.outEdges i,
      ¬ (e.info.srcPort = info.srcPort ∧ e.info.srcBlockid = info.srcBlockid))
    (hdstFree : ∀ e ∈ g.inEdges j,
      ¬ (info.dstBlockid = e.info.dstBlockid ∧ info.dstPort = e.info.dstPort))
    (hsorted : getTopoSortedNodes topoSort (g.addEdge i j info).1 = .ok sorted) :
    (g.addEdge i j info).1.WellFormed where
  indexes := hg.indexes
  source_eq := by
    intro e he
    rcases List.mem_append.mp he with he | he
    · exact hg.source_eq e he
    · rw [List.mem_singleton.mp he]
      exact (hg.indexes _ _).mp hsrc
  target_eq := by
    intro e he
    rcases List.mem_append.mp he with he | he
    · exact hg.target_eq e he
    · rw [List.mem_singleton.mp he]
      exact (hg.indexes _ _).mp hdst
  srcPorts_nodup := by
    change (List.map _ (g.edges ++ [_])).Nodup
    rw [List.map_append, List.map_singleton, List.nodup_append_comm, List.singleton_append,
      List.nodup_cons]
    refine ⟨fun hmem => ?_, hg.srcPorts_nodup⟩
    obtain ⟨e, he, heq⟩ := List.mem_map.mp hmem
    obtain ⟨hnode, hport⟩ := Prod.mk.inj heq
    refine hsrcFree e (List.mem_filter.mpr ⟨he, ?_⟩) ⟨hport, hnode⟩
    exact decide_eq_true ((hg.source_eq_iff he hsrc).mpr hnode)
  dstPorts_nodup := by
    change (List.map _ (g.edges ++ [_])).Nodup
    rw [List.map_append, List.map_singleton, List.nodup_append_comm, List.singleton_append,
      List.nodup_cons]
    refine ⟨fun hmem => ?_, hg.dstPorts_nodup⟩
    obtain ⟨e, he, heq⟩ := List.mem_map.mp hmem
    obtain ⟨hnode, hport⟩ := Prod.mk.inj heq
    refine hdstFree e (List.mem_filter.mpr ⟨he, ?_⟩) ⟨hnode.symm, hport.symm⟩
    exact decide_eq_true ((hg.target_eq_iff he hdst).mpr hnode)
  acyclic := by
    -- the rank of a node is the position of its vertex in the order that was found
    have hfound : topoSort (List.range g.vertices.length)
        (((g.addEdge i j info).1.edges.filter (·.info.isForwardEdge)).map
          fun e => (e.source, e.target)) = some sorted := by
      unfold getTopoSortedNodes at hsorted
      split at hsorted
      · rename_i order horder
        rw [Except.ok.injEq] at hsorted
        rw [← hsorted]
        exact horder
      · exact absurd hsorted (by simp)
    have horder := hsort _ _ _ hfound
    refine not_transGen_self_of_rank (fun n => sorted.idxOf ((g.nodeMap n).getD 0)) ?_
    rintro n m ⟨e, he, hfwd, rfl, rfl⟩
    have hlt := horder.lt (e.source, e.target)
      (List.mem_map.mpr ⟨e, List.mem_filter.mpr ⟨he, hfwd⟩, rfl⟩)
    have hends : g.nodeMap e.info.srcBlockid = some e.source ∧
        g.nodeMap e.info.dstBlockid = some e.target := by
      rcases List.mem_append.mp he with he | he
      · exact ⟨hg.nodeMap_source he, hg.nodeMap_target he⟩
      · rw [List.mem_singleton.mp he]
        exact ⟨hsrc, hdst⟩
    rw [hends.1, hends.2]
    exact hlt

variable [DecidableEq ν]

theorem addNode (hg : g.WellFormed) (n : ν) : (g.addNode n).WellFormed := by
  unfold RfnocGraph.addNode
  cases hn : g.nodeMap n with
  | some i => exact hg
  | none =>
    have hlookup : ∀ {i : ℕ} {m : ν}, g.vertices[i]? = some m → (g.vertices ++ [n])[i]? = some m := by
      intro i m hm
      rw [List.getElem?_append_left (List.getElem?_eq_some_iff.mp hm).1]
      exact hm
    exact ⟨hg.indexes.append hn, fun e he => hlookup (hg.source_eq e he),
      fun e he => hlookup (hg.target_eq e he), hg.srcPorts_nodup, hg.dstPorts_nodup, hg.acyclic⟩

theorem removeNode (hg : g.WellFormed) (n : ν) : (g.removeNode n).WellFormed := by
  unfold RfnocGraph.removeNode
  cases hn : g.nodeMap n with
  | none => exact hg
  | some i =>
    have hclear : (g.clearVertex i).WellFormed := hg.filterEdges List.filter_sublist
    have hne : ∀ e ∈ (g.clearVertex i).edges, e.source ≠ i ∧ e.target ≠ i := fun e he =>
      of_decide_eq_true (List.mem_filter.mp he).2
    refine ⟨hg.indexes.eraseIdx hn, ?_, ?_, ?_, ?_, ?_⟩
    · intro e he
      obtain ⟨e', he', rfl⟩ := List.mem_map.mp he
      exact (getElem?_eraseIdx_shift (hne e' he').1).trans (hclear.source_eq e' he')
    · intro e he
      obtain ⟨e', he', rfl⟩ := List.mem_map.mp he
      exact (getElem?_eraseIdx_shift (hne e' he').2).trans (hclear.target_eq e' he')
    · change (List.map _ (List.map _ _)).Nodup
      rw [List.map_map]
      exact hclear.srcPorts_nodup
    · change (List.map _ (List.map _ _)).Nodup
      rw [List.map_map]
      exact hclear.dstPorts_nodup
    · refine fun m => not_transGen_self_mono ?_ (hclear.acyclic m)
      rintro a b ⟨e, he, hfwd⟩
      obtain ⟨e', he', rfl⟩ := List.mem_map.mp he
      exact ⟨e', he', hfwd⟩

end WellFormed

/-! ## Removing a node -/

/-- The properties of the edges. -/
def infos (g : RfnocGraph ν) : List (GraphEdge ν) := g.edges.map (·.info)

theorem hasEdge_iff_infos {n : ν} :
    g.HasEdge n ↔ ∃ info ∈ g.infos, info.srcBlockid = n ∨ info.dstBlockid = n := by
  constructor
  · rintro ⟨e, he, hn⟩
    exact ⟨e.info, List.mem_map.mpr ⟨e, he, rfl⟩, hn⟩
  · rintro ⟨_, hmem, hn⟩
    obtain ⟨e, he, rfl⟩ := List.mem_map.mp hmem
    exact ⟨e, he, hn⟩

/-! ## The graph as property propagation sees it -/

/-- The nodes and the edges, without the vertices. -/
def WellFormed.toTopology (hg : g.WellFormed) : Topology ν where
  vertices := g.vertices
  edges := g.infos
  node_mem := by
    intro info hinfo b
    obtain ⟨e, he, rfl⟩ := List.mem_map.mp hinfo
    cases b with
    | true => exact hg.mem_of_touches he (Or.inl rfl)
    | false => exact hg.mem_of_touches he (Or.inr rfl)
  srcPorts_nodup := by
    rw [infos, List.map_map]
    exact hg.srcPorts_nodup
  dstPorts_nodup := by
    rw [infos, List.map_map]
    exact hg.dstPorts_nodup

variable [DecidableEq ν]

theorem findNeighbour_eq_toTopology (hg : g.WellFormed) {n : ν} {i : ℕ}
    (hn : g.nodeMap n = some i) (portInfo : ResSourceInfo) :
    g.findNeighbour i portInfo = hg.toTopology.findNeighbour n portInfo := by
  obtain ⟨type, inst⟩ := portInfo
  unfold findNeighbour Topology.findNeighbour WellFormed.toTopology infos
  cases type with
  | user => rfl
  | framework => rfl
  | inputEdge =>
    dsimp only
    rw [inEdges, List.find?_filter, List.find?_map, Option.map_map]
    have hfind : (g.edges.find? fun e => decide ((decide (e.target = i)) = true ∧
        decide (e.info.dstPort = inst) = true)) =
        g.edges.find? ((fun info => decide (info.dstBlockid = n ∧ info.dstPort = inst)) ∘
          Edge.info) := by
      refine List.find?_congr fun e he => ?_
      rw [Function.comp_apply, decide_eq_decide, decide_eq_true_iff, decide_eq_true_iff,
        hg.target_eq_iff he hn]
    rw [hfind]
    cases hfound : g.edges.find? ((fun info => decide (info.dstBlockid = n ∧ info.dstPort = inst)) ∘
        Edge.info) with
    | none => rfl
    | some e =>
      have hnode := hg.source_eq e (List.mem_of_find?_eq_some hfound)
      rw [Option.bind_some, hnode]
      rfl
  | outputEdge =>
    dsimp only
    rw [outEdges, List.find?_filter, List.find?_map, Option.map_map]
    have hfind : (g.edges.find? fun e => decide ((decide (e.source = i)) = true ∧
        decide (e.info.srcPort = inst) = true)) =
        g.edges.find? ((fun info => decide (info.srcBlockid = n ∧ info.srcPort = inst)) ∘
          Edge.info) := by
      refine List.find?_congr fun e he => ?_
      rw [Function.comp_apply, decide_eq_decide, decide_eq_true_iff, decide_eq_true_iff,
        hg.source_eq_iff he hn]
    rw [hfind]
    cases hfound : g.edges.find? ((fun info => decide (info.srcBlockid = n ∧ info.srcPort = inst)) ∘
        Edge.info) with
    | none => rfl
    | some e =>
      have hnode := hg.target_eq e (List.mem_of_find?_eq_some hfound)
      rw [Option.bind_some, hnode]
      rfl

theorem removeNode_of_none {n : ν} (hn : g.nodeMap n = none) : g.removeNode n = g := by
  unfold removeNode
  rw [hn]

theorem removeNode_infos (hg : g.WellFormed) {n : ν} {i : ℕ} (hn : g.nodeMap n = some i) :
    (g.removeNode n).infos =
      g.infos.filter fun info => ¬ (info.srcBlockid = n ∨ info.dstBlockid = n) := by
  unfold removeNode infos
  rw [hn]
  change List.map _ (List.map _ (List.filter _ g.edges)) = _
  rw [List.map_map, List.filter_map]
  refine congrArg _ (List.filter_congr fun e he => ?_)
  rw [Function.comp_apply, decide_eq_decide, not_or, ne_eq, ne_eq, hg.source_eq_iff he hn,
    hg.target_eq_iff he hn]

theorem removeNode_vertices (hg : g.WellFormed) {n : ν} {i : ℕ} (hn : g.nodeMap n = some i) :
    (g.removeNode n).vertices = g.vertices.filter (· ≠ n) := by
  unfold removeNode
  rw [hn]
  exact hg.indexes.eraseIdx_eq_filter hn

theorem removeNode_infos_of_not_hasEdge (hg : g.WellFormed) {n : ν} (hedge : ¬ g.HasEdge n) :
    (g.removeNode n).infos = g.infos := by
  cases hn : g.nodeMap n with
  | none => rw [removeNode_of_none hn]
  | some i =>
    rw [removeNode_infos hg hn, List.filter_eq_self]
    intro info hinfo
    exact decide_eq_true fun h => hedge (hasEdge_iff_infos.mpr ⟨info, hinfo, h⟩)

/-! ## What a call of connect can do -/

/-- What `connect` has done before it looks at the edges. -/
def addNodes (g : RfnocGraph ν) (srcNode dstNode : ν) : RfnocGraph ν :=
  (((g.addNode srcNode).addNode dstNode).setCallbacks srcNode).setCallbacks dstNode

theorem isEqual_true_iff {e e' : GraphEdge ν} : e.isEqual e' true = true ↔ e = e' := by
  obtain ⟨srcBlockid, srcPort, dstBlockid, dstPort, edge, isForwardEdge⟩ := e
  unfold GraphEdge.isEqual
  rw [if_pos rfl, Bool.and_eq_true, decide_eq_true_iff, decide_eq_true_iff]
  constructor
  · rintro ⟨⟨rfl, rfl, rfl, rfl⟩, rfl, rfl⟩
    rfl
  · rintro rfl
    exact ⟨⟨rfl, rfl, rfl, rfl⟩, rfl, rfl⟩

theorem isEqual_false_iff {e e' : GraphEdge ν} : e.isEqual e' false = true ↔
    e.srcBlockid = e'.srcBlockid ∧ e.srcPort = e'.srcPort ∧
      e.dstBlockid = e'.dstBlockid ∧ e.dstPort = e'.dstPort := by
  unfold GraphEdge.isEqual
  rw [if_neg Bool.false_ne_true, Bool.and_true, decide_eq_true_iff]

theorem exists_of_checkOutEdges {info : GraphEdge ν} {edges : List (Edge ν)}
    (h : checkOutEdges info edges = .ok true) : ∃ e ∈ edges, e.info = info := by
  induction edges with
  | nil => exact absurd h (by simp [checkOutEdges])
  | cons existing rest ih =>
    unfold checkOutEdges at h
    split_ifs at h with hequal hports hends
    · exact ⟨existing, List.mem_cons_self, isEqual_true_iff.mp hequal⟩
    · obtain ⟨e, he, heq⟩ := ih h
      exact ⟨e, List.mem_cons_of_mem _ he, heq⟩

theorem free_of_checkOutEdges {info : GraphEdge ν} {edges : List (Edge ν)}
    (h : checkOutEdges info edges = .ok false) :
    ∀ e ∈ edges, ¬ (e.info.srcPort = info.srcPort ∧ e.info.srcBlockid = info.srcBlockid) := by
  induction edges with
  | nil => exact fun e he => absurd he List.not_mem_nil
  | cons existing rest ih =>
    unfold checkOutEdges at h
    split_ifs at h with hequal hports hends
    · exact absurd h (by simp)
    · intro e he
      rcases List.mem_cons.mp he with rfl | he
      · exact hports
      · exact ih h e he

theorem free_of_checkInEdges {info : GraphEdge ν} {edges : List (Edge ν)} {u : Unit}
    (h : checkInEdges info edges = .ok u) :
    ∀ e ∈ edges, ¬ (info.dstBlockid = e.info.dstBlockid ∧ info.dstPort = e.info.dstPort) := by
  induction edges with
  | nil => exact fun e he => absurd he List.not_mem_nil
  | cons existing rest ih =>
    unfold checkInEdges at h
    split_ifs at h with hport
    intro e he
    rcases List.mem_cons.mp he with rfl | he
    · exact hport
    · exact ih h e he

theorem nodeMap_addNode_self (g : RfnocGraph ν) (n : ν) :
    ∃ i, (g.addNode n).nodeMap n = some i := by
  unfold addNode
  cases hn : g.nodeMap n with
  | some i => exact ⟨i, hn⟩
  | none => exact ⟨g.vertices.length, Function.update_self ..⟩

theorem nodeMap_addNode_of_some {n : ν} {i : ℕ} (hn : g.nodeMap n = some i) (m : ν) :
    (g.addNode m).nodeMap n = some i := by
  unfold addNode
  cases hm : g.nodeMap m with
  | some j => exact hn
  | none =>
    have hne : n ≠ m := by
      rintro rfl
      exact absurd (hm.symm.trans hn) (by simp)
    exact (Function.update_of_ne hne ..).trans hn

theorem nodeMap_addNodes (g : RfnocGraph ν) (srcNode dstNode : ν) :
    (∃ i, (g.addNodes srcNode dstNode).nodeMap srcNode = some i) ∧
      ∃ j, (g.addNodes srcNode dstNode).nodeMap dstNode = some j := by
  obtain ⟨i, hi⟩ := nodeMap_addNode_self g srcNode
  exact ⟨⟨i, nodeMap_addNode_of_some hi dstNode⟩, nodeMap_addNode_self _ dstNode⟩

omit [DecidableEq ν] in
theorem removeEdge_addEdge (g : RfnocGraph ν) (i j : ℕ) (info : GraphEdge ν) :
    (g.addEdge i j info).1.removeEdge (g.addEdge i j info).2 = g := by
  have hedges : (g.edges ++ [Edge.mk i j info]).eraseIdx g.edges.length = g.edges := by
    rw [List.eraseIdx_append_of_length_le le_rfl, Nat.sub_self, List.eraseIdx_cons_zero,
      List.append_nil]
  unfold addEdge removeEdge
  rw [hedges]

/-- **What `connect` can do.**  It adds the nodes and sets their callbacks in any case.  Then it
throws, or finds the edge there already, or adds it between free ports, and the forward edges can
still be sorted. -/
theorem connect_cases (topoSort : TopologicalSort ℕ) (srcNode dstNode : ν)
    (edgeInfo : GraphEdge ν) (g : RfnocGraph ν) :
    (∃ e, connect topoSort srcNode dstNode edgeInfo g = .error e (g.addNodes srcNode dstNode)) ∨
    (connect topoSort srcNode dstNode edgeInfo g = .ok () (g.addNodes srcNode dstNode) ∧
      describedEdge srcNode dstNode edgeInfo ∈ (g.addNodes srcNode dstNode).infos) ∨
    ∃ i j sorted, (g.addNodes srcNode dstNode).nodeMap srcNode = some i ∧
      (g.addNodes srcNode dstNode).nodeMap dstNode = some j ∧
      (∀ e ∈ (g.addNodes srcNode dstNode).outEdges i,
        ¬ (e.info.srcPort = edgeInfo.srcPort ∧ e.info.srcBlockid = srcNode)) ∧
      (∀ e ∈ (g.addNodes srcNode dstNode).inEdges j,
        ¬ (dstNode = e.info.dstBlockid ∧ edgeInfo.dstPort = e.info.dstPort)) ∧
      getTopoSortedNodes topoSort ((g.addNodes srcNode dstNode).addEdge i j
        (describedEdge srcNode dstNode edgeInfo)).1 = .ok sorted ∧
      connect topoSort srcNode dstNode edgeInfo g =
        .ok () ((g.addNodes srcNode dstNode).addEdge i j
          (describedEdge srcNode dstNode edgeInfo)).1 := by
  obtain ⟨⟨i, hi⟩, j, hj⟩ := nodeMap_addNodes g srcNode dstNode
  have hi' : ((g.addNode srcNode).addNode dstNode).nodeMap srcNode = some i := hi
  have hj' : ((g.addNode srcNode).addNode dstNode).nodeMap dstNode = some j := hj
  unfold connect
  simp only [hi', hj']
  cases hout : checkOutEdges (describedEdge srcNode dstNode edgeInfo)
      ((g.addNodes srcNode dstNode).outEdges i) with
  | error e =>
    refine Or.inl ⟨e, ?_⟩
    rw [addNodes] at hout
    rw [hout]
    rfl
  | ok there =>
    rw [addNodes] at hout
    simp only [hout]
    cases there with
    | true =>
      obtain ⟨e, he, heq⟩ := exists_of_checkOutEdges hout
      exact Or.inr (Or.inl ⟨rfl, List.mem_map.mpr ⟨e, (List.mem_filter.mp he).1, heq⟩⟩)
    | false =>
      cases hin : checkInEdges (describedEdge srcNode dstNode edgeInfo)
          ((g.addNodes srcNode dstNode).inEdges j) with
      | error e =>
        refine Or.inl ⟨e, ?_⟩
        rw [addNodes] at hin
        rw [hin]
        rfl
      | ok u =>
        rw [addNodes] at hin
        simp only [hin]
        cases htopo : getTopoSortedNodes topoSort ((g.addNodes srcNode dstNode).addEdge i j
            (describedEdge srcNode dstNode edgeInfo)).1 with
        | error e =>
          refine Or.inl ⟨unresolvableGraph, ?_⟩
          rw [addNodes] at htopo
          rw [htopo]
          exact congrArg _ (removeEdge_addEdge _ i j _)
        | ok sorted =>
          rw [addNodes] at htopo
          simp only [htopo]
          exact Or.inr (Or.inr ⟨i, j, sorted, hi, hj, free_of_checkOutEdges hout,
            free_of_checkInEdges hin, htopo, rfl⟩)

/-! ## What a call of disconnect can do -/

theorem removeIfUnconnected_of_hasEdge (hg : g.WellFormed) {n : ν} {i : ℕ}
    (hn : g.nodeMap n = some i) (hedge : g.HasEdge n) : g.removeIfUnconnected n i = g := by
  unfold removeIfUnconnected
  rw [if_neg fun hdegree => (hg.degree_eq_zero_iff hn).mp hdegree hedge]

theorem removeIfUnconnected_of_not_hasEdge (hg : g.WellFormed) {n : ν} {i : ℕ}
    (hn : g.nodeMap n = some i) (hedge : ¬ g.HasEdge n) :
    g.removeIfUnconnected n i = (g.removeNode n).clearCallbacks n := by
  unfold removeIfUnconnected
  rw [if_pos ((hg.degree_eq_zero_iff hn).mpr hedge)]

theorem removeIfUnconnected_infos (hg : g.WellFormed) {n : ν} {i : ℕ}
    (hn : g.nodeMap n = some i) : (g.removeIfUnconnected n i).infos = g.infos := by
  by_cases hedge : g.HasEdge n
  · rw [removeIfUnconnected_of_hasEdge hg hn hedge]
  · rw [removeIfUnconnected_of_not_hasEdge hg hn hedge]
    exact removeNode_infos_of_not_hasEdge hg hedge

theorem removeIfUnconnected_vertices (hg : g.WellFormed) {n : ν} {i : ℕ}
    (hn : g.nodeMap n = some i) :
    (g.removeIfUnconnected n i).vertices = g.vertices.filter fun m => m ≠ n ∨ g.HasEdge n := by
  by_cases hedge : g.HasEdge n
  · rw [removeIfUnconnected_of_hasEdge hg hn hedge]
    exact (List.filter_eq_self.mpr fun m _ => decide_eq_true (Or.inr hedge)).symm
  · rw [removeIfUnconnected_of_not_hasEdge hg hn hedge]
    refine (removeNode_vertices hg hn).trans (List.filter_congr fun m _ => ?_)
    rw [decide_eq_decide, or_iff_left hedge]

theorem WellFormed.removeIfUnconnected (hg : g.WellFormed) (n : ν) (i : ℕ) :
    (g.removeIfUnconnected n i).WellFormed := by
  unfold RfnocGraph.removeIfUnconnected
  split_ifs
  · exact (hg.removeNode n).congr rfl rfl rfl
  · exact hg

omit [DecidableEq ν] in
theorem WellFormed.removeOutEdgeIf (hg : g.WellFormed) (i : ℕ) (pred : GraphEdge ν → Bool) :
    (g.removeOutEdgeIf i pred).WellFormed := hg.filterEdges List.filter_sublist

theorem removeOutEdgeIf_infos (hg : g.WellFormed) {srcNode dstNode : ν} {edgeInfo : GraphEdge ν}
    {i : ℕ} (hn : g.nodeMap srcNode = some i) :
    (g.removeOutEdgeIf i fun e =>
        (describedEdge srcNode dstNode edgeInfo).isEqual e false).infos =
      g.infos.filter fun e => !(describedEdge srcNode dstNode edgeInfo).isEqual e false := by
  unfold removeOutEdgeIf infos
  change List.map _ (List.filter _ g.edges) = _
  rw [List.filter_map]
  refine congrArg _ (List.filter_congr fun e he => ?_)
  rw [Function.comp_apply]
  dsimp only
  cases hequal : (describedEdge srcNode dstNode edgeInfo).isEqual e.info false with
  | false => rw [Bool.and_false]
  | true =>
    have hsrc : e.source = i :=
      (hg.source_eq_iff he hn).mpr (isEqual_false_iff.mp hequal).1.symm
    rw [decide_eq_true hsrc, Bool.and_true]

/-- The graph after the described edge was taken away. -/
def cutEdge (g : RfnocGraph ν) (srcNode dstNode : ν) (edgeInfo : GraphEdge ν) (i : ℕ) :
    RfnocGraph ν :=
  g.removeOutEdgeIf i fun e => (describedEdge srcNode dstNode edgeInfo).isEqual e false

theorem disconnect_cases (srcNode dstNode : ν) (edgeInfo : GraphEdge ν) (g : RfnocGraph ν) :
    (g.nodeMap srcNode = none ∧ g.nodeMap dstNode = none ∧
      disconnect srcNode dstNode edgeInfo g = .ok () g) ∨
    ((g.nodeMap srcNode = none ↔ g.nodeMap dstNode ≠ none) ∧
      disconnect srcNode dstNode edgeInfo g = .error .outOfRange g) ∨
    ∃ i, g.nodeMap srcNode = some i ∧ g.nodeMap dstNode ≠ none ∧
      ((((g.cutEdge srcNode dstNode edgeInfo i).removeIfUnconnected srcNode i).nodeMap dstNode
          = none ∧
        disconnect srcNode dstNode edgeInfo g = .error .outOfRange
          ((g.cutEdge srcNode dstNode edgeInfo i).removeIfUnconnected srcNode i)) ∨
      ∃ j, ((g.cutEdge srcNode dstNode edgeInfo i).removeIfUnconnected srcNode i).nodeMap dstNode
          = some j ∧
        disconnect srcNode dstNode edgeInfo g = .ok ()
          (((g.cutEdge srcNode dstNode edgeInfo i).removeIfUnconnected srcNode i)
            |>.removeIfUnconnected dstNode j)) := by
  cases hsrc : g.nodeMap srcNode with
  | none =>
    cases hdst : g.nodeMap dstNode with
    | none =>
      refine Or.inl ⟨rfl, rfl, ?_⟩
      rw [disconnect, if_pos ⟨hsrc, hdst⟩]
    | some j =>
      refine Or.inr (Or.inl ⟨iff_of_true rfl (Option.some_ne_none j), ?_⟩)
      rw [disconnect, if_neg (by simp [hdst]), hsrc]
  | some i =>
    cases hdst : g.nodeMap dstNode with
    | none =>
      refine Or.inr (Or.inl ⟨iff_of_false (Option.some_ne_none i) (not_not.mpr rfl), ?_⟩)
      rw [disconnect, if_neg (by simp [hsrc]), hsrc, hdst]
    | some j =>
      refine Or.inr (Or.inr ⟨i, rfl, Option.some_ne_none j, ?_⟩)
      cases hleft : ((g.cutEdge srcNode dstNode edgeInfo i).removeIfUnconnected
          srcNode i).nodeMap dstNode with
      | none =>
        refine Or.inl ⟨rfl, ?_⟩
        rw [disconnect, if_neg (by simp [hsrc]), hsrc, hdst]
        simp only [cutEdge] at hleft ⊢
        simp only [hleft]
      | some j' =>
        refine Or.inr ⟨j', rfl, ?_⟩
        rw [disconnect, if_neg (by simp [hsrc]), hsrc, hdst]
        simp only [cutEdge] at hleft ⊢
        simp only [hleft]

end RfnocGraph
end Rfnoc
end UhdHost
