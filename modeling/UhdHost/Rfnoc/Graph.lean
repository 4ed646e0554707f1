import Mathlib
import UhdHost.Library.IndexMap
import UhdHost.Library.Stateful
import UhdHost.Library.TopologicalOrder
import UhdHost.Library.Transition
import UhdHost.Rfnoc.PropertyPropagation
import UhdHost.Types.Exception

/-!
# The structure of a graph

`graph_t::impl` of `graph.cpp`: how nodes and edges come into a graph and out of it again.

The graph is a `boost::adjacency_list` that keeps its vertices in a vector, so a vertex descriptor
is a position in that vector and is no longer valid when a vertex before it was removed.  A map
from nodes to descriptors is kept beside it.  The edges are in the order in which they were added.
No two nodes have the same ID, so a node stands for its ID here.

A call that throws keeps what it has done to the graph so far; the result of a call has the state
in both cases.

## What is a parameter

The topological sort belongs to a library.  What is relied on is `TopologicalSort.Sound`: if it
yields an order, then the order is a topological one.
-/

namespace UhdHost
namespace Rfnoc

open TopologicalOrder

/-- If the library yields an order, then every edge leads from an earlier vertex to a later
one. -/
def TopologicalSort.Sound {ν : Type} [DecidableEq ν] (topoSort : TopologicalSort ν) : Prop :=
  ∀ vertices edges order, topoSort vertices edges = some order →
    IsTopologicalOrder vertices edges order

/-- The callbacks through which a node reaches the graph that it is in. -/
structure NodeCallbacks (ν : Type) where
  /-- `_resolve_all_cb`: the node for which the graph resolves all properties; otherwise the node
  resolves its own ones only. -/
  resolveAll : Option ν := none
  /-- `_graph_mutex_cb`: whether the graph's mutex is asked for. -/
  graphMutex : Bool := false
  /-- `_post_action_cb`: the node in whose name the graph enqueues actions; otherwise they are
  dropped. -/
  postAction : Option ν := none
  deriving DecidableEq

/-- The callbacks that `connect` sets. -/
def NodeCallbacks.ofGraph {ν : Type} (node : ν) : NodeCallbacks ν where
  resolveAll := some node
  graphMutex := true
  postAction := some node

/-- An edge of the adjacency list: where it begins and ends, and its property. -/
structure Edge (ν : Type) where
  source : ℕ
  target : ℕ
  info : GraphEdge ν
  deriving DecidableEq

/-- `graph_t::impl`, with the callbacks of the nodes. -/
structure RfnocGraph (ν : Type) where
  /-- The node of each vertex. -/
  vertices : List ν := []
  edges : List (Edge ν) := []
  nodeMap : ν → Option ℕ := fun _ => none
  callbacks : ν → NodeCallbacks ν := fun _ => {}
  releaseCount : ℕ := 1

namespace RfnocGraph

variable {ν : Type} [DecidableEq ν]

/-! ## Vertices and edges -/

/-- `boost::out_edges` -/
def outEdges (g : RfnocGraph ν) (v : ℕ) : List (Edge ν) := g.edges.filter (·.source = v)

/-- `boost::in_edges` -/
def inEdges (g : RfnocGraph ν) (v : ℕ) : List (Edge ν) := g.edges.filter (·.target = v)

/-- `boost::degree`: an edge from a vertex to itself counts twice. -/
def degree (g : RfnocGraph ν) (v : ℕ) : ℕ := (g.inEdges v).length + (g.outEdges v).length

/-- `boost::add_edge`; the descriptor of the new edge is its position. -/
def addEdge (g : RfnocGraph ν) (source target : ℕ) (info : GraphEdge ν) : RfnocGraph ν × ℕ :=
  ({ g with edges := g.edges ++ [⟨source, target, info⟩] }, g.edges.length)

/-- `boost::remove_edge` -/
def removeEdge (g : RfnocGraph ν) (descriptor : ℕ) : RfnocGraph ν :=
  { g with edges := g.edges.eraseIdx descriptor }

/-- `boost::remove_out_edge_if` -/
def removeOutEdgeIf (g : RfnocGraph ν) (v : ℕ) (pred : GraphEdge ν → Bool) : RfnocGraph ν :=
  { g with edges := g.edges.filter fun e => !(decide (e.source = v) && pred e.info) }

/-- `boost::clear_vertex` -/
def clearVertex (g : RfnocGraph ν) (v : ℕ) : RfnocGraph ν :=
  { g with edges := g.edges.filter fun e => e.source ≠ v ∧ e.target ≠ v }

/-- `boost::remove_vertex`: the vertices behind it move up. -/
def removeVertex (g : RfnocGraph ν) (v : ℕ) : RfnocGraph ν :=
  { g with
    vertices := g.vertices.eraseIdx v
    edges := g.edges.map fun e =>
      { e with source := IndexMap.shift v e.source, target := IndexMap.shift v e.target } }

/-! ## Nodes -/

/-- `_add_node` -/
def addNode (g : RfnocGraph ν) (newNode : ν) : RfnocGraph ν :=
  match g.nodeMap newNode with
  | some _ => g
  | none =>
    { g with
      vertices := g.vertices ++ [newNode]
      nodeMap := Function.update g.nodeMap newNode (some g.vertices.length) }

/-- `_remove_node` -/
def removeNode (g : RfnocGraph ν) (node : ν) : RfnocGraph ν :=
  match g.nodeMap node with
  | none => g
  | some vertexDesc =>
    let g := (g.clearVertex vertexDesc).removeVertex vertexDesc
    -- the descriptors have changed, so the map is written anew
    { g with
      nodeMap := IndexMap.reindex (Function.update g.nodeMap node none) g.vertices 0 }

/-- The calls of `connect` that set the callbacks of a node. -/
def setCallbacks (g : RfnocGraph ν) (node : ν) : RfnocGraph ν :=
  { g with callbacks := Function.update g.callbacks node (NodeCallbacks.ofGraph node) }

/-- The calls of `disconnect` that clear the callbacks of a node. -/
def clearCallbacks (g : RfnocGraph ν) (node : ν) : RfnocGraph ν :=
  { g with callbacks := Function.update g.callbacks node {} }

/-- `_get_topo_sorted_nodes` -/
def getTopoSortedNodes (topoSort : TopologicalSort ℕ) (g : RfnocGraph ν) :
    Except UhdError (List ℕ) :=
  match topoSort (List.range g.vertices.length)
      ((g.edges.filter (·.info.isForwardEdge)).map fun e => (e.source, e.target)) with
  | some sorted => .ok sorted
  | none => .error (.rfnocError "Cannot resolve graph because it has at least one cycle!")

/-- `_find_neighbour` -/
def findNeighbour (g : RfnocGraph ν) (origin : ℕ) (portInfo : ResSourceInfo) :
    Option (ν × GraphEdge ν) :=
  match portInfo.type with
  | .inputEdge =>
    ((g.inEdges origin).find? (·.info.dstPort = portInfo.inst)).bind
      fun e => (g.vertices[e.source]?).map (·, e.info)
  | .outputEdge =>
    ((g.outEdges origin).find? (·.info.srcPort = portInfo.inst)).bind
      fun e => (g.vertices[e.target]?).map (·, e.info)
  -- an invalid code path; nobody asks for these
  | .user | .framework => none

/-! ## Connecting -/

/-- The loop of `connect` over the edges that leave the source node.  Yields whether the edge is
there already. -/
def checkOutEdges (edgeInfo : GraphEdge ν) : List (Edge ν) → Except UhdError Bool
  | [] => .ok false
  | existing :: rest =>
    if existing.info.isEqual edgeInfo true then .ok true
    else if existing.info.srcPort = edgeInfo.srcPort ∧
        existing.info.srcBlockid = edgeInfo.srcBlockid then
      if existing.info.dstPort = edgeInfo.dstPort ∧
          existing.info.dstBlockid = edgeInfo.dstBlockid then
        .error (.rfnocError "Caught attempt to modify properties of edge!")
      else
        .error (.rfnocError "Attempting to reconnect output port!")
    else checkOutEdges edgeInfo rest

/-- The loop of `connect` over the edges that arrive at the destination node. -/
def checkInEdges (edgeInfo : GraphEdge ν) : List (Edge ν) → Except UhdError Unit
  | [] => .ok ()
  | existing :: rest =>
    if edgeInfo.dstBlockid = existing.info.dstBlockid ∧
        edgeInfo.dstPort = existing.info.dstPort then
      .error (.rfnocError "Attempting to reconnect input port!")
    else checkInEdges edgeInfo rest

/-- What `connect` throws if the edge would close a cycle. -/
def unresolvableGraph : UhdError :=
  .rfnocError "Adding edge without disabling is_forward_edge will lead to unresolvable graph!"

/-- The edge that a call is about. -/
def describedEdge (srcNode dstNode : ν) (edgeInfo : GraphEdge ν) : GraphEdge ν :=
  { edgeInfo with srcBlockid := srcNode, dstBlockid := dstNode }

/-- `connect` -/
def connect (topoSort : TopologicalSort ℕ) (srcNode dstNode : ν) (edgeInfo : GraphEdge ν)
    (g : RfnocGraph ν) : EStateM.Result UhdError (RfnocGraph ν) Unit :=
  let edgeInfo := describedEdge srcNode dstNode edgeInfo
  let g := (g.addNode srcNode).addNode dstNode
  match g.nodeMap srcNode, g.nodeMap dstNode with
  | some srcVertexDesc, some dstVertexDesc =>
    let g := (g.setCallbacks srcNode).setCallbacks dstNode
    match checkOutEdges edgeInfo (g.outEdges srcVertexDesc) with
    | .error e => .error e g
    -- a repeated call is ignored
    | .ok true => .ok () g
    | .ok false =>
      match checkInEdges edgeInfo (g.inEdges dstVertexDesc) with
      | .error e => .error e g
      | .ok () =>
        -- a vector of edges takes parallel ones, so the edge is always added
        let (g, edgeDescriptor) := g.addEdge srcVertexDesc dstVertexDesc edgeInfo
        match getTopoSortedNodes topoSort g with
        | .ok _ => .ok () g
        | .error _ => .error unresolvableGraph (g.removeEdge edgeDescriptor)
  | _, _ => .error .outOfRange g

/-! ## Disconnecting -/

/-- The end of `disconnect` for one of its nodes. -/
def removeIfUnconnected (g : RfnocGraph ν) (node : ν) (vertexDesc : ℕ) : RfnocGraph ν :=
  if g.degree vertexDesc = 0 then (g.removeNode node).clearCallbacks node else g

/-- `disconnect` -/
def disconnect (srcNode dstNode : ν) (edgeInfo : GraphEdge ν) (g : RfnocGraph ν) :
    EStateM.Result UhdError (RfnocGraph ν) Unit :=
  if g.nodeMap srcNode = none ∧ g.nodeMap dstNode = none then .ok () g
  else
    match g.nodeMap srcNode, g.nodeMap dstNode with
    | some srcVertexDesc, some _ =>
      let edgeInfo := describedEdge srcNode dstNode edgeInfo
      let g := g.removeOutEdgeIf srcVertexDesc fun e => edgeInfo.isEqual e false
      let g := g.removeIfUnconnected srcNode srcVertexDesc
      match g.nodeMap dstNode with
      | some dstVertexDesc => .ok () (g.removeIfUnconnected dstNode dstVertexDesc)
      | none => .error .outOfRange g
    | _, _ => .error .outOfRange g

/-- `remove` -/
def remove (node : ν) (g : RfnocGraph ν) : EStateM.Result UhdError (RfnocGraph ν) Unit :=
  .ok () (g.removeNode node)

/-! ## Committing -/

/-- `commit`.  What `_check_topology` and the resolution of the properties throw depends on the
nodes, and neither touches the graph. -/
def commit (checkAndResolve : RfnocGraph ν → Except UhdError Unit) (g : RfnocGraph ν) :
    EStateM.Result UhdError (RfnocGraph ν) Unit :=
  let g := { g with releaseCount := g.releaseCount - 1 }
  if g.releaseCount = 0 then
    match checkAndResolve g with
    | .ok () => .ok () g
    | .error e => .error e g
  else .ok () g

/-- `release` -/
def release (g : RfnocGraph ν) : EStateM.Result UhdError (RfnocGraph ν) Unit :=
  .ok () { g with releaseCount := g.releaseCount + 1 }

end RfnocGraph

/-! ## Calls -/

/-- A call of the graph. -/
inductive GraphCall (ν : Type) where
  | connect (srcNode dstNode : ν) (edgeInfo : GraphEdge ν)
  | disconnect (srcNode dstNode : ν) (edgeInfo : GraphEdge ν)
  | remove (node : ν)
  | commit (checkAndResolve : RfnocGraph ν → Except UhdError Unit)
  | release

namespace GraphCall

variable {ν : Type} [DecidableEq ν]

/-- What the call does. -/
def result (topoSort : TopologicalSort ℕ) (g : RfnocGraph ν) :
    GraphCall ν → EStateM.Result UhdError (RfnocGraph ν) Unit
  | .connect srcNode dstNode edgeInfo => g.connect topoSort srcNode dstNode edgeInfo
  | .disconnect srcNode dstNode edgeInfo => g.disconnect srcNode dstNode edgeInfo
  | .remove node => g.remove node
  | .commit checkAndResolve => g.commit checkAndResolve
  | .release => g.release

/-- A call as a step, whether it throws or not. -/
def step (topoSort : TopologicalSort ℕ) (g : RfnocGraph ν) (call : GraphCall ν) :
    Option (RfnocGraph ν) :=
  some (Stateful.stateAfter (call.result topoSort g))

/-- A call as a step, where it does not throw. -/
def stepOk (topoSort : TopologicalSort ℕ) (g : RfnocGraph ν) (call : GraphCall ν) :
    Option (RfnocGraph ν) :=
  match call.result topoSort g with
  | .ok _ g' => some g'
  | .error _ _ => none

omit [DecidableEq ν] in
/-- A call of `connect` or `disconnect`. -/
def IsEdgeCall : GraphCall ν → Prop
  | .connect _ _ _ => True
  | .disconnect _ _ _ => True
  | _ => False

end GraphCall

end Rfnoc
end UhdHost
