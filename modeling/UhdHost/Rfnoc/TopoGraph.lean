import Mathlib
import UhdHost.Library.IndexMap
import UhdHost.Library.Stateful
import UhdHost.Library.Transition
import UhdHost.Types.Exception

/-!
# The topology graph

`topo_graph_t` of `topo_graph.hpp` and the calls that change it: which nodes there are, how they
are connected, and how heavy the connections are.

The graph is a `boost::adjacency_list` that keeps its vertices and the edges of a vertex in vectors.
Nothing is ever removed, so a vertex descriptor is a position in `vertices`, and the edges of a
vertex are in the order in which they were added.  Each edge of the list has an index into
`_edge_info`, where the `topo_edge_t` is kept.  Its weight is kept twice: in `_edge_info`, and beside
the index, where the search for shortest paths reads it.

A call that throws keeps what it has done so far; `add_biedge` may have added one of its edges.
What `access_node` gives is a reference through which the endpoint ID of a node is set.

`WellFormed` is the invariant of the graph, and `wellFormed_of_run` says that every sequence of
calls keeps it.
-/

namespace UhdHost
namespace Rfnoc

/-! ## Nodes -/

/-- `topo_node_t::node_type` -/
inductive TopoNodeType where
  | invalid
  | xbar
  | strmEp
  | xport
  | virtual
  deriving DecidableEq, Repr

/-- The values of the enumeration. -/
def TopoNodeType.value : TopoNodeType → ℕ
  | .invalid => 0
  | .xbar => 1
  | .strmEp => 2
  | .xport => 3
  | .virtual => 100

/-- `NODE_STR` -/
def TopoNodeType.nodeStr : TopoNodeType → String
  | .invalid => "unknown"
  | .xbar => "xbar"
  | .strmEp => "sep"
  | .xport => "xport"
  | .virtual => "virtual"

/-- `NULL_DEVICE_ID` -/
def nullDeviceId : UInt16 := 0

/-- `topo_node_t` -/
structure TopoNode where
  deviceId : UInt16 := nullDeviceId
  type : TopoNodeType := .invalid
  inst : UInt16 := 0
  extendedInfo : UInt32 := 0
  epid : Option UInt16 := none
  isLocalSep : Bool := false
  deriving DecidableEq

namespace TopoNode

/-- `to_string` -/
def toString (n : TopoNode) : String :=
  "device" ++ (if n.isLocalSep then "[local]" else "") ++ ":" ++ ToString.toString n.deviceId ++
    "/" ++ n.type.nodeStr ++ ":" ++ ToString.toString n.inst

/-- `unique_id` -/
def uniqueId (n : TopoNode) : ℕ :=
  n.inst.toNat + (n.deviceId.toNat <<< 16) + (n.type.value <<< 32)

/-- `operator==`: a node without a device is not even equal to itself. -/
def equal (n rhs : TopoNode) : Bool :=
  decide (n.deviceId ≠ nullDeviceId) && decide (n.uniqueId = rhs.uniqueId)

theorem equal_iff {n rhs : TopoNode} :
    n.equal rhs = true ↔ n.deviceId ≠ nullDeviceId ∧ n.uniqueId = rhs.uniqueId := by
  rw [equal, Bool.and_eq_true, decide_eq_true_iff, decide_eq_true_iff]

theorem deviceId_eq_of_uniqueId {n m : TopoNode} (h : n.uniqueId = m.uniqueId) :
    n.deviceId = m.deviceId := by
  have hn := n.inst.toNat_lt
  have hm := m.inst.toNat_lt
  have hdn := n.deviceId.toNat_lt
  have hdm := m.deviceId.toNat_lt
  unfold uniqueId at h
  rw [Nat.shiftLeft_eq, Nat.shiftLeft_eq, Nat.shiftLeft_eq, Nat.shiftLeft_eq] at h
  exact UInt16.toNat_inj.mp (by omega)

end TopoNode

/-! ## Edges -/

/-- `topo_edge_t::edge_type` -/
inductive TopoEdgeType where
  | invalid
  | endOfRoute
  | host
  | onChip
  | offChip
  | ethernet
  deriving DecidableEq, Repr

/-- `ANY_PORT` -/
def anyPort : ℤ := -1

/-- `topo_edge_t` -/
structure TopoEdge where
  type : TopoEdgeType := .invalid
  srcPort : ℤ := anyPort
  dstPort : ℤ := anyPort
  weight : ℤ := 1
  deriving DecidableEq

/-- `get_weight` -/
def TopoEdge.getWeight (e : TopoEdge) : ℤ := if e.type = .endOfRoute then 0 else e.weight

/-- An edge of the adjacency list: where it begins and ends, and its `edge_property_t`. -/
structure AdjlistEdge where
  source : ℕ
  target : ℕ
  weight : ℤ
  edgeIndex : ℕ
  deriving DecidableEq

/-- `topo_graph_t` -/
structure TopoGraph where
  /-- The node of each vertex. -/
  vertices : List TopoNode := []
  edges : List AdjlistEdge := []
  nodeMap : ℕ → Option ℕ := fun _ => none
  edgeInfo : List TopoEdge := []

namespace TopoGraph

/-! ## Reading the graph -/

/-- The node of a vertex. -/
def nodeAt (g : TopoGraph) (v : ℕ) : TopoNode := g.vertices.getD v {}

/-- `_node_map.at` -/
def vertexOf (g : TopoGraph) (node : TopoNode) : Except UhdError ℕ :=
  match g.nodeMap node.uniqueId with
  | some v => .ok v
  | none => .error .outOfRange

/-- `_edge_info.at` -/
def infoAt (g : TopoGraph) (e : AdjlistEdge) : Except UhdError TopoEdge :=
  match g.edgeInfo[e.edgeIndex]? with
  | some info => .ok info
  | none => .error .outOfRange

/-- The information of an edge that has it. -/
def infoOf (g : TopoGraph) (e : AdjlistEdge) : TopoEdge := (g.edgeInfo[e.edgeIndex]?).getD {}

/-- `boost::out_edges`: the edges with their places in the list. -/
def outEdges (g : TopoGraph) (v : ℕ) : List (AdjlistEdge × ℕ) :=
  g.edges.zipIdx.filter fun e => e.1.source = v

/-- `boost::in_edges` -/
def inEdges (g : TopoGraph) (v : ℕ) : List (AdjlistEdge × ℕ) :=
  g.edges.zipIdx.filter fun e => e.1.target = v

/-- `boost::edge`: the first of the edges from one vertex to the other. -/
def edge (g : TopoGraph) (u v : ℕ) : Option AdjlistEdge :=
  g.edges.find? fun e => e.source = u ∧ e.target = v

/-! ## Changing the graph -/

/-- `add_node` -/
def addNode (node : TopoNode) (g : TopoGraph) : EStateM.Result UhdError TopoGraph Bool :=
  if (g.nodeMap node.uniqueId).isSome then .ok false g
  else
    .ok true
      { g with
        vertices := g.vertices ++ [node]
        nodeMap := Function.update g.nodeMap node.uniqueId (some g.vertices.length) }

/-- The loops of `add_edge`: whether a port that matters is connected already. -/
def checkPort (g : TopoGraph) (newPort : ℤ) (portOf : TopoEdge → ℤ) (reconnect : UhdError) :
    List (AdjlistEdge × ℕ) → Except UhdError Unit
  | [] => .ok ()
  | existing :: rest =>
    if newPort ≠ anyPort then
      match g.infoAt existing.1 with
      | .error e => .error e
      | .ok info =>
        if portOf info = newPort then .error reconnect
        else g.checkPort newPort portOf reconnect rest
    else g.checkPort newPort portOf reconnect rest

/-- The first loop of `add_edge`, over the edges that leave the source node. -/
def checkSrcPort (g : TopoGraph) (src : TopoNode) (srcVertexDesc : ℕ) (edge : TopoEdge) :
    Except UhdError Unit :=
  g.checkPort edge.srcPort TopoEdge.srcPort
    (.runtimeError ("Attempting to reconnect source port " ++ ToString.toString edge.srcPort ++
      " of node " ++ src.toString ++ "!"))
    (g.outEdges srcVertexDesc)

/-- The second loop of `add_edge`, over the edges that lead to the destination node. -/
def checkDstPort (g : TopoGraph) (dst : TopoNode) (dstVertexDesc : ℕ) (edge : TopoEdge) :
    Except UhdError Unit :=
  g.checkPort edge.dstPort TopoEdge.dstPort
    (.runtimeError ("Attempting to reconnect destination port " ++
      ToString.toString edge.dstPort ++ " of node " ++ dst.toString ++ "!"))
    (g.inEdges dstVertexDesc)

/-- The last part of `add_edge`, which adds the edge. -/
def pushEdge (g : TopoGraph) (srcVertexDesc dstVertexDesc : ℕ) (edge : TopoEdge) : TopoGraph :=
  { g with
    edgeInfo := g.edgeInfo ++ [edge]
    edges := g.edges ++ [⟨srcVertexDesc, dstVertexDesc, edge.getWeight, g.edgeInfo.length⟩] }

/-- `add_edge` -/
def addEdge (src dst : TopoNode) (edge : TopoEdge) (g : TopoGraph) :
    EStateM.Result UhdError TopoGraph Bool :=
  match g.nodeMap src.uniqueId with
  | none =>
    .error (.runtimeError ("Attempting to add a route from unknown source node: " ++
      src.toString)) g
  | some srcVertexDesc =>
    match g.checkSrcPort src srcVertexDesc edge with
    | .error e => .error e g
    | .ok () =>
      match (match g.nodeMap dst.uniqueId with
        | some dstVertexDesc => g.checkDstPort dst dstVertexDesc edge
        -- a node that is not registered is not connected
        | none => .ok ()) with
      | .error e => .error e g
      | .ok () =>
        match g.addNode dst with
        | .error e g => .error e g
        | .ok addNodeResult g =>
          match g.vertexOf dst with
          | .error e => .error e g
          -- a vector of edges takes parallel ones, so the edge is always added
          | .ok dstVertexDesc => .ok addNodeResult (g.pushEdge srcVertexDesc dstVertexDesc edge)

/-- `add_biedge` -/
def addBiedge (src dst : TopoNode) (edge : TopoEdge) (g : TopoGraph) :
    EStateM.Result UhdError TopoGraph Bool :=
  let revEdge := { edge with srcPort := edge.dstPort, dstPort := edge.srcPort }
  match g.addEdge src dst edge with
  | .error e g => .error e g
  | .ok result g =>
    match g.addEdge dst src revEdge with
    | .error e g => .error e g
    | .ok _ g => .ok result g

/-- Set the weight of an edge in both places. -/
def setWeight (g : TopoGraph) (existing : AdjlistEdge × ℕ) (info : TopoEdge) (newWeight : ℤ) :
    TopoGraph :=
  let info := { info with weight := newWeight }
  { g with
    edgeInfo := g.edgeInfo.set existing.1.edgeIndex info
    edges := g.edges.set existing.2 { existing.1 with weight := info.getWeight } }

/-- The loop of `update_weight`, over the edges that leave the node. -/
def updateWeightLoop (src : TopoNode) (srcPort newWeight : ℤ) (g : TopoGraph) :
    List (AdjlistEdge × ℕ) → EStateM.Result UhdError TopoGraph Unit
  | [] =>
    .error (.runtimeError ("Could not find edge for node " ++ src.toString ++ ", source port " ++
      ToString.toString srcPort)) g
  | existing :: rest =>
    match g.edgeInfo[existing.1.edgeIndex]? with
    | none => .error (.assertionError "_edge_info.size() > edge_idx") g
    | some info =>
      if info.srcPort = srcPort then .ok () (g.setWeight existing info newWeight)
      else updateWeightLoop src srcPort newWeight g rest

/-- `update_weight` -/
def updateWeight (src : TopoNode) (srcPort newWeight : ℤ) (g : TopoGraph) :
    EStateM.Result UhdError TopoGraph Unit :=
  match g.vertexOf src with
  | .error e => .error e g
  | .ok srcVertexDesc => updateWeightLoop src srcPort newWeight g (g.outEdges srcVertexDesc)

/-- `access_node(node_id).epid = epid` -/
def setEpid (nodeId : TopoNode) (epid : Option UInt16) (g : TopoGraph) :
    EStateM.Result UhdError TopoGraph Unit :=
  match g.vertexOf nodeId with
  | .error e => .error e g
  | .ok v => .ok () { g with vertices := g.vertices.set v { g.nodeAt v with epid := epid } }

end TopoGraph

/-! ## Calls -/

/-- A call that changes the graph. -/
inductive TopoCall where
  | addNode (node : TopoNode)
  | addEdge (src dst : TopoNode) (edge : TopoEdge)
  | addBiedge (src dst : TopoNode) (edge : TopoEdge)
  | updateWeight (src : TopoNode) (srcPort newWeight : ℤ)
  | setEpid (nodeId : TopoNode) (epid : Option UInt16)

/-- A call as a step, whether it throws or not. -/
def TopoCall.step (g : TopoGraph) : TopoCall → Option TopoGraph
  | .addNode node => some (Stateful.stateAfter (g.addNode node))
  | .addEdge src dst edge => some (Stateful.stateAfter (g.addEdge src dst edge))
  | .addBiedge src dst edge => some (Stateful.stateAfter (g.addBiedge src dst edge))
  | .updateWeight src srcPort newWeight =>
    some (Stateful.stateAfter (g.updateWeight src srcPort newWeight))
  | .setEpid nodeId epid => some (Stateful.stateAfter (g.setEpid nodeId epid))

namespace TopoGraph

/-- A crossbar of a device. -/
def crossbar (deviceId : UInt16) : TopoNode := { deviceId := deviceId, type := .xbar }

/-! ## The invariant -/

/-- What belongs to an edge of the list: its vertices exist, its index is its place, and both
weights agree. -/
structure EdgeFits (g : TopoGraph) (i : ℕ) (e : AdjlistEdge) : Prop where
  edgeIndex : e.edgeIndex = i
  source_lt : e.source < g.vertices.length
  target_lt : e.target < g.vertices.length
  exists_info : ∃ info, g.edgeInfo[i]? = some info ∧ e.weight = info.getWeight

/-- The graph is as it has to be. -/
structure WellFormed (g : TopoGraph) : Prop where
  indexes : IndexMap.Indexes g.nodeMap (g.vertices.map TopoNode.uniqueId)
  length_edgeInfo : g.edgeInfo.length = g.edges.length
  fits : ∀ i e, g.edges[i]? = some e → g.EdgeFits i e

variable {g : TopoGraph}

theorem vertexOf_eq_ok {node : TopoNode} {v : ℕ} :
    g.vertexOf node = .ok v ↔ g.nodeMap node.uniqueId = some v := by
  unfold vertexOf
  cases g.nodeMap node.uniqueId with
  | none => simp
  | some u => simp

theorem mem_outEdges {v i : ℕ} {e : AdjlistEdge} (h : (e, i) ∈ g.outEdges v) :
    g.edges[i]? = some e :=
  List.mem_zipIdx_iff_getElem?.mp (List.mem_filter.mp h).1

namespace WellFormed

theorem empty : WellFormed {} where
  indexes := IndexMap.Indexes.nil
  length_edgeInfo := rfl
  fits _ _ he := by cases he

theorem getElem?_of_nodeMap (hg : g.WellFormed) {id v : ℕ} (h : g.nodeMap id = some v) :
    v < g.vertices.length ∧ (g.nodeAt v).uniqueId = id := by
  have hmap := (hg.indexes id v).mp h
  rw [List.getElem?_map, Option.map_eq_some_iff] at hmap
  obtain ⟨node, hnode, rfl⟩ := hmap
  refine ⟨(List.getElem?_eq_some_iff.mp hnode).1, ?_⟩
  rw [nodeAt, List.getD_eq_getElem?_getD, hnode, Option.getD_some]

theorem nodeMap_nodeAt (hg : g.WellFormed) {v : ℕ} (hv : v < g.vertices.length) :
    g.nodeMap (g.nodeAt v).uniqueId = some v := by
  refine (hg.indexes _ v).mpr ?_
  rw [List.getElem?_map, nodeAt, List.getD_eq_getElem?_getD, List.getElem?_eq_getElem hv]
  rfl

theorem infoAt_eq (hg : g.WellFormed) {e : AdjlistEdge} (he : e ∈ g.edges) :
    ∃ info, g.infoAt e = .ok info ∧ e.weight = info.getWeight := by
  obtain ⟨i, hi⟩ := List.mem_iff_getElem?.mp he
  have hfits := hg.fits i e hi
  obtain ⟨info, hinfo, hweight⟩ := hfits.exists_info
  refine ⟨info, ?_, hweight⟩
  rw [infoAt, hfits.edgeIndex, hinfo]

theorem infoAt_eq_infoOf (hg : g.WellFormed) {e : AdjlistEdge} (he : e ∈ g.edges) :
    g.infoAt e = .ok (g.infoOf e) := by
  obtain ⟨info, hinfo, -⟩ := hg.infoAt_eq he
  unfold infoAt at hinfo ⊢
  unfold infoOf
  cases hget : g.edgeInfo[e.edgeIndex]? with
  | none =>
    rw [hget] at hinfo
    cases hinfo
  | some info' => exact rfl

theorem source_lt (hg : g.WellFormed) {e : AdjlistEdge} (he : e ∈ g.edges) :
    e.source < g.vertices.length := by
  obtain ⟨i, hi⟩ := List.mem_iff_getElem?.mp he
  exact (hg.fits i e hi).source_lt

theorem target_lt (hg : g.WellFormed) {e : AdjlistEdge} (he : e ∈ g.edges) :
    e.target < g.vertices.length := by
  obtain ⟨i, hi⟩ := List.mem_iff_getElem?.mp he
  exact (hg.fits i e hi).target_lt

theorem addNode (hg : g.WellFormed) (node : TopoNode) :
    ∃ b g', g.addNode node = .ok b g' ∧ g'.WellFormed ∧
      g'.nodeMap node.uniqueId ≠ none ∧
      ∀ id v, g.nodeMap id = some v → g'.nodeMap id = some v := by
  unfold TopoGraph.addNode
  cases hnode : g.nodeMap node.uniqueId with
  | some v =>
    refine ⟨false, g, rfl, hg, ?_, fun _ _ h => h⟩
    rw [hnode]
    exact Option.some_ne_none v
  | none =>
    refine ⟨true, _, rfl, ⟨?_, hg.length_edgeInfo, fun i e he => ?_⟩, ?_, fun id v hid => ?_⟩
    · rw [List.map_append, List.map_singleton]
      have happend := hg.indexes.append hnode
      rw [List.length_map] at happend
      exact happend
    · have hfits := hg.fits i e he
      have hle : g.vertices.length ≤ (g.vertices ++ [node]).length := by
        rw [List.length_append]
        exact Nat.le_add_right _ _
      exact ⟨hfits.edgeIndex, Nat.lt_of_lt_of_le hfits.source_lt hle,
        Nat.lt_of_lt_of_le hfits.target_lt hle, hfits.exists_info⟩
    · simp only [Function.update_self]
      exact Option.some_ne_none _
    · have hne : id ≠ node.uniqueId := by
        intro heq
        rw [heq, hnode] at hid
        cases hid
      simp only [Function.update_of_ne hne, hid]

theorem pushEdge (hg : g.WellFormed) {u v : ℕ} (hu : u < g.vertices.length)
    (hv : v < g.vertices.length) (edge : TopoEdge) : (g.pushEdge u v edge).WellFormed where
  indexes := hg.indexes
  length_edgeInfo := by
    rw [TopoGraph.pushEdge, List.length_append, List.length_append, hg.length_edgeInfo]
    rfl
  fits i e he := by
    rcases Transition.getElem?_concat_eq_some.mp he with he | ⟨rfl, rfl⟩
    · have hfits := hg.fits i e he
      obtain ⟨info, hinfo, hweight⟩ := hfits.exists_info
      exact ⟨hfits.edgeIndex, hfits.source_lt, hfits.target_lt, info,
        Transition.getElem?_concat_eq_some.mpr (Or.inl hinfo), hweight⟩
    · exact ⟨hg.length_edgeInfo, hu, hv, edge,
        Transition.getElem?_concat_eq_some.mpr (Or.inr ⟨hg.length_edgeInfo.symm, rfl⟩), rfl⟩

theorem addEdge (hg : g.WellFormed) (src dst : TopoNode) (edge : TopoEdge) :
    (Stateful.stateAfter (g.addEdge src dst edge)).WellFormed := by
  unfold TopoGraph.addEdge
  cases hsrc : g.nodeMap src.uniqueId with
  | none => exact hg
  | some u =>
    cases hout : g.checkSrcPort src u edge with
    | error e =>
      simp only [hout]
      exact hg
    | ok _ =>
      simp only [hout]
      split
      · exact hg
      · obtain ⟨b, g', hadd, hg', hdst, hkeep⟩ := hg.addNode dst
        obtain ⟨v, hv⟩ := Option.ne_none_iff_exists'.mp hdst
        rw [hadd]
        have hvertex : g'.vertexOf dst = .ok v := vertexOf_eq_ok.mpr hv
        simp only [hvertex]
        exact hg'.pushEdge (hg'.getElem?_of_nodeMap (hkeep _ u hsrc)).1
          (hg'.getElem?_of_nodeMap hv).1 edge

theorem addBiedge (hg : g.WellFormed) (src dst : TopoNode) (edge : TopoEdge) :
    (Stateful.stateAfter (g.addBiedge src dst edge)).WellFormed := by
  have hfirst := hg.addEdge src dst edge
  unfold TopoGraph.addBiedge
  cases hadd : g.addEdge src dst edge with
  | error e g' =>
    rw [hadd] at hfirst
    exact hfirst
  | ok b g' =>
    rw [hadd] at hfirst
    have hsecond := WellFormed.addEdge hfirst dst src
      { edge with srcPort := edge.dstPort, dstPort := edge.srcPort }
    simp only
    cases hadd' : TopoGraph.addEdge dst src
        { edge with srcPort := edge.dstPort, dstPort := edge.srcPort } g' with
    | error e g'' =>
      exact (congrArg Stateful.stateAfter hadd' ▸ hsecond :)
    | ok b' g'' =>
      exact (congrArg Stateful.stateAfter hadd' ▸ hsecond :)

theorem setWeight (hg : g.WellFormed) {e : AdjlistEdge} {i : ℕ} (he : g.edges[i]? = some e)
    {info : TopoEdge} (newWeight : ℤ) : (g.setWeight (e, i) info newWeight).WellFormed where
  indexes := hg.indexes
  length_edgeInfo := by
    rw [TopoGraph.setWeight, List.length_set, List.length_set, hg.length_edgeInfo]
  fits j e' he' := by
    have hlt : i < g.edges.length := (List.getElem?_eq_some_iff.mp he).1
    have hfits := hg.fits i e he
    have hindex : e.edgeIndex = i := hfits.edgeIndex
    unfold TopoGraph.setWeight at he'
    by_cases hij : i = j
    · subst hij
      rw [List.getElem?_set_self hlt, Option.some_inj] at he'
      subst he'
      refine ⟨hindex, hfits.source_lt, hfits.target_lt, { info with weight := newWeight }, ?_, rfl⟩
      unfold TopoGraph.setWeight
      rw [hindex]
      exact List.getElem?_set_self (hg.length_edgeInfo ▸ hlt)
    · rw [List.getElem?_set_ne hij] at he'
      have hfits' := hg.fits j e' he'
      obtain ⟨info', hinfo', hweight⟩ := hfits'.exists_info
      refine ⟨hfits'.edgeIndex, hfits'.source_lt, hfits'.target_lt, info', ?_, hweight⟩
      unfold TopoGraph.setWeight
      rw [hindex, List.getElem?_set_ne hij]
      exact hinfo'

theorem updateWeightLoop (hg : g.WellFormed) (src : TopoNode) (srcPort newWeight : ℤ)
    {es : List (AdjlistEdge × ℕ)} (hes : ∀ e ∈ es, g.edges[e.2]? = some e.1) :
    (Stateful.stateAfter (TopoGraph.updateWeightLoop src srcPort newWeight g es)).WellFormed := by
  induction es with
  | nil => exact hg
  | cons existing es ih =>
    rw [TopoGraph.updateWeightLoop]
    cases hinfo : g.edgeInfo[existing.1.edgeIndex]? with
    | none => exact hg
    | some info =>
      by_cases hport : info.srcPort = srcPort
      · simp only [hport, if_true]
        exact hg.setWeight (hes existing List.mem_cons_self) newWeight
      · simp only [hport, if_false]
        exact ih fun e he => hes e (List.mem_cons_of_mem _ he)

theorem updateWeight (hg : g.WellFormed) (src : TopoNode) (srcPort newWeight : ℤ) :
    (Stateful.stateAfter (g.updateWeight src srcPort newWeight)).WellFormed := by
  unfold TopoGraph.updateWeight
  cases g.vertexOf src with
  | error e => exact hg
  | ok v => exact hg.updateWeightLoop src srcPort newWeight fun e he => mem_outEdges he

theorem setEpid (hg : g.WellFormed) (nodeId : TopoNode) (epid : Option UInt16) :
    (Stateful.stateAfter (g.setEpid nodeId epid)).WellFormed := by
  unfold TopoGraph.setEpid
  cases hvertex : g.vertexOf nodeId with
  | error e => exact hg
  | ok v =>
    have hv := (hg.getElem?_of_nodeMap (vertexOf_eq_ok.mp hvertex)).1
    refine ⟨?_, hg.length_edgeInfo, fun i e he => ?_⟩
    · -- the ID of a node does not depend on its endpoint ID
      have hsame : (g.vertices.set v { g.nodeAt v with epid := epid }).map TopoNode.uniqueId =
          g.vertices.map TopoNode.uniqueId := by
        refine List.ext_getElem? fun i => ?_
        rw [List.getElem?_map, List.getElem?_map]
        by_cases hi : v = i
        · subst hi
          rw [List.getElem?_set_self hv, nodeAt, List.getD_eq_getElem?_getD,
            List.getElem?_eq_getElem hv]
          exact rfl
        · rw [List.getElem?_set_ne hi]
      exact hsame ▸ hg.indexes
    · have hfits := hg.fits i e he
      have hlength : (g.vertices.set v { g.nodeAt v with epid := epid }).length =
          g.vertices.length := List.length_set
      exact ⟨hfits.edgeIndex, hlength ▸ hfits.source_lt, hlength ▸ hfits.target_lt,
        hfits.exists_info⟩

theorem step (hg : g.WellFormed) (call : TopoCall) {g' : TopoGraph} (h : call.step g = some g') :
    g'.WellFormed := by
  cases call with
  | addNode node =>
    obtain ⟨b, g'', hadd, hg'', -⟩ := hg.addNode node
    rw [TopoCall.step, hadd] at h
    exact Option.some.inj h ▸ hg''
  | addEdge src dst edge => exact Option.some.inj h ▸ hg.addEdge src dst edge
  | addBiedge src dst edge => exact Option.some.inj h ▸ hg.addBiedge src dst edge
  | updateWeight src srcPort newWeight =>
    exact Option.some.inj h ▸ hg.updateWeight src srcPort newWeight
  | setEpid nodeId epid => exact Option.some.inj h ▸ hg.setEpid nodeId epid

end WellFormed

theorem wellFormed_of_run {calls : List TopoCall}
    (h : Transition.run TopoCall.step {} calls = some g) : g.WellFormed :=
  Transition.run_invariant (fun _ call _ hg hstep => WellFormed.step hg call hstep)
    WellFormed.empty h

end TopoGraph
end Rfnoc
end UhdHost
