import UhdHost.Library.Transition
import UhdHost.Rfnoc.Node
import UhdHost.Rfnoc.Topology

/-!
# Property propagation

`graph_t::impl::resolve_all_properties` of `graph.cpp`: the properties of all nodes are resolved,
first along the forward edges of the graph and then along its back edges.

A pass walks the topologically sorted nodes to and fro, beginning at the initial node.  It
*visits* a node by resolving its properties, forwarding its edge properties along the edges of the
kind the pass is about, and marking all its properties as clean.  The pass ends after two full
circles, or after one if no node is dirty; if a node's own change triggered it, it ends as soon as
no node is dirty.

The visits are logged, as the source does for each.  `run_of_resolveAllProperties` says that what
a resolution does is what its visits do one after the other, which lets facts about one visit be
lifted to resolutions.

## What is a parameter

The topological sort belongs to a library.  It is given the vertices and the forward edges, and
yields no order where there is a cycle.
-/

namespace UhdHost
namespace Rfnoc

open Stateful

/-- `resolve_context` -/
inductive ResolveContext where
  | init
  | nodeProp
  deriving DecidableEq, Repr

/-- What is done to the nodes of a graph. -/
abbrev GraphM (ν T V σ : Type) := EStateM UhdError (ν → Node T V σ)

/-- How a library sorts vertices such that all edges lead from earlier to later ones. -/
abbrev TopologicalSort (ν : Type) := List ν → List (ν × ν) → Option (List ν)

/-- A visit: along which edges properties are forwarded, and the node. -/
structure Visit (ν : Type) where
  forward : Bool
  node : ν
  deriving DecidableEq

namespace Propagation

variable {ν T V σ : Type} [DecidableEq ν] [DecidableEq T] [DecidableEq V]

/-- Something is done on one node. -/
def onNode {α : Type} (n : ν) (x : NodeM T V σ α) : GraphM ν T V σ α :=
  zoom (fun nodes => nodes n) (fun node nodes => Function.update nodes n node) x

/-! ## Dirty nodes -/

/-- `get_dirty_props` -/
def getDirtyProps (node : Node T V σ) : List (Property T V) :=
  node.filterProps fun p => p.isDirty && decide (p.srcInfo.type ≠ .framework)

/-- `_find_dirty_nodes` -/
def findDirtyNodes (top : Topology ν) (nodes : ν → Node T V σ) : List ν :=
  top.vertices.filter fun n => !(getDirtyProps (nodes n)).isEmpty

/-! ## Visiting a node -/

/-- One edge property of `origin` is forwarded, if its edge is of the right kind. -/
def forwardEdgeProp (top : Topology ν) (origin : ν) (forward : Bool) (key : PropKey) :
    GraphM ν T V σ Unit := do
  let nodes ← get
  match top.findNeighbour origin key.srcInfo, (nodes origin).findProperty key with
  | some (neighbour, edge), some prop =>
    onlyIf (edge.isForwardEdge = forward) (onNode neighbour
      (Node.forwardEdgeProperty prop
        (if key.srcInfo.type = .inputEdge then edge.srcPort else edge.dstPort)))
  | _, _ => pure ()

/-- `_forward_edge_props` -/
def forwardEdgeProps (top : Topology ν) (origin : ν) (forward : Bool) : GraphM ν T V σ Unit := do
  let nodes ← get
  let edgeProps := (nodes origin).filterProps fun p => p.srcInfo.type.isEdge
  forM (edgeProps.map (·.key)) (forwardEdgeProp top origin forward)

/-- A visit, up to where the properties of the node are marked as clean. -/
def resolveAndForward (top : Topology ν) (v : Visit ν) : GraphM ν T V σ Unit := do
  onNode v.node Node.resolveProps
  forwardEdgeProps top v.node v.forward

def visit (top : Topology ν) (v : Visit ν) : GraphM ν T V σ Unit := do
  resolveAndForward top v
  onNode v.node Node.cleanProps

/-! ## Walking to and fro -/

/-- Where the walk over the sorted nodes is, and where it is heading. -/
structure Cursor where
  pos : ℕ
  forwardDir : Bool := true
  deriving DecidableEq, Repr

/-- The next node. -/
def Cursor.next (size : ℕ) (c : Cursor) : Cursor :=
  -- at the end, the direction is flipped and the sentinel left again
  let c := if c.forwardDir then
      (if c.pos + 1 = size then { c with forwardDir := false } else { c with pos := c.pos + 1 })
    else c
  if c.forwardDir then c
  else if 1 < size then { pos := c.pos - 1, forwardDir := decide (c.pos - 1 = 0) }
  else { c with forwardDir := true }

/-- `MAX_NUM_ITERATIONS` -/
def maxNumIterations : ℕ := 2

/-- The loop of `_resolve_all_properties`, up to a number of visits.  Yields the visits. -/
def passLoop (top : Topology ν) (context : ResolveContext) (sorted : List ν) (initialNode : ν)
    (forward : Bool) : ℕ → Cursor → ℕ → GraphM ν T V σ (List (Visit ν))
  | 0, _, _ => throw (.runtimeError "too many visits")
  | fuel + 1, cursor, numIterations => do
    match sorted[cursor.pos]? with
    | none => throw (.runtimeError "the walk left the sorted nodes")
    | some currentNode =>
      visit top ⟨forward, currentNode⟩
      let nodes ← get
      if context = .nodeProp ∧ findDirtyNodes top nodes = [] then
        pure [⟨forward, currentNode⟩]
      else
        let cursor := cursor.next sorted.length
        if cursor.forwardDir ∧ sorted[cursor.pos]? = some initialNode then
          if numIterations + 1 = maxNumIterations ∨ findDirtyNodes top nodes = [] then
            pure [⟨forward, currentNode⟩]
          else do
            let visits ← passLoop top context sorted initialNode forward fuel cursor
              (numIterations + 1)
            pure (⟨forward, currentNode⟩ :: visits)
        else do
          let visits ← passLoop top context sorted initialNode forward fuel cursor numIterations
          pure (⟨forward, currentNode⟩ :: visits)

/-- `_get_topo_sorted_nodes` -/
def getTopoSortedNodes (topoSort : TopologicalSort ν) (top : Topology ν) :
    Except UhdError (List ν) :=
  match topoSort top.vertices
      ((top.edges.filter (·.isForwardEdge)).map fun e => (e.srcBlockid, e.dstBlockid)) with
  | some sorted => .ok sorted
  | none => .error (.rfnocError "Cannot resolve graph because it has at least one cycle!")

/-- `_resolve_all_properties`: one pass.  A full circle has at most two visits for each node. -/
def resolveAlong (topoSort : TopologicalSort ν) (top : Topology ν) (context : ResolveContext)
    (initialNode : ν) (forward : Bool) : GraphM ν T V σ (List (Visit ν)) := do
  let sorted ← orThrow (getTopoSortedNodes topoSort top)
  if initialNode ∉ sorted then
    throw (.rfnocError "Cannot find node in graph!")
  else
    let visits ← passLoop top context sorted initialNode forward
      (maxNumIterations * (2 * sorted.length) + 1) { pos := sorted.idxOf initialNode } 0
    let nodes ← get
    if findDirtyNodes top nodes = [] then pure visits
    else throw (.resolveError "Could not resolve properties.")

/-- `resolve_all_properties` -/
def resolveAllProperties (topoSort : TopologicalSort ν) (top : Topology ν) (releaseCount : ℕ)
    (shutdown : Bool) (context : ResolveContext) (initialNode : ν) :
    GraphM ν T V σ (List (Visit ν)) := do
  if top.vertices = [] ∨ shutdown then pure []
  else if releaseCount ≠ 0 then
    -- the graph is not committed
    onNode initialNode do
      Node.resolveProps
      Node.cleanProps
    pure []
  else
    let forwardVisits ← resolveAlong topoSort top context initialNode true
    let backVisits ← resolveAlong topoSort top context initialNode false
    pure (forwardVisits ++ backVisits)

/-! ## A resolution is a run of visits -/

/-- A visit as a step; a visit that throws is none. -/
def step (top : Topology ν) (nodes : ν → Node T V σ) (v : Visit ν) : Option (ν → Node T V σ) :=
  match visit top v nodes with
  | .ok _ nodes' => some nodes'
  | .error _ _ => none

variable {top : Topology ν} {nodes nodes' : ν → Node T V σ}

theorem step_eq_some {v : Visit ν} :
    step top nodes v = some nodes' ↔ Returns (visit top v) nodes () nodes' := by
  unfold step Returns
  cases h : visit top v nodes with
  | ok u s => simp
  | error e s => simp

theorem run_of_passLoop {context : ResolveContext} {sorted : List ν} {initialNode : ν}
    {forward : Bool} {fuel : ℕ} {cursor : Cursor} {numIterations : ℕ} {visits : List (Visit ν)}
    (h : Returns (passLoop top context sorted initialNode forward fuel cursor numIterations)
      nodes visits nodes') :
    Transition.run (step top) nodes visits = some nodes' := by
  induction fuel generalizing cursor numIterations visits nodes with
  | zero => exact (not_returns_throw h).elim
  | succ fuel ih =>
    unfold passLoop at h
    split at h
    · exact (not_returns_throw h).elim
    · rename_i currentNode _
      obtain ⟨_, mid, hvisit, h⟩ := returns_bind.mp h
      have hstep : step top nodes ⟨forward, currentNode⟩ = some mid := step_eq_some.mpr hvisit
      obtain ⟨_, _, hget, h⟩ := returns_bind.mp h
      obtain ⟨rfl, rfl⟩ := returns_get.mp hget
      -- the loop ends here, or goes on
      have hend : Returns (pure [⟨forward, currentNode⟩] : GraphM ν T V σ _) mid visits nodes' →
          Transition.run (step top) nodes visits = some nodes' := by
        intro h
        obtain ⟨rfl, rfl⟩ := returns_pure.mp h
        rw [Transition.run_cons, hstep]
        rfl
      have hmore : ∀ cursor numIterations, Returns (do
            let visits ← passLoop top context sorted initialNode forward fuel cursor numIterations
            pure (⟨forward, currentNode⟩ :: visits)) mid visits nodes' →
          Transition.run (step top) nodes visits = some nodes' := by
        intro cursor numIterations h
        obtain ⟨rest, _, hrest, h⟩ := returns_bind.mp h
        obtain ⟨rfl, rfl⟩ := returns_pure.mp h
        rw [Transition.run_cons, hstep]
        exact ih hrest
      dsimp only at h
      split_ifs at h
      · exact hend h
      · exact hend h
      · exact hmore _ _ h
      · exact hmore _ _ h

theorem run_of_resolveAlong {topoSort : TopologicalSort ν} {context : ResolveContext}
    {initialNode : ν} {forward : Bool} {visits : List (Visit ν)}
    (h : Returns (resolveAlong topoSort top context initialNode forward) nodes visits nodes') :
    Transition.run (step top) nodes visits = some nodes' ∧ findDirtyNodes top nodes' = [] := by
  unfold resolveAlong at h
  obtain ⟨sorted, _, horThrow, h⟩ := returns_bind.mp h
  obtain ⟨-, rfl⟩ := returns_orThrow.mp horThrow
  split_ifs at h
  · obtain ⟨visits', mid, hloop, h⟩ := returns_bind.mp h
    obtain ⟨_, _, hget, h⟩ := returns_bind.mp h
    obtain ⟨rfl, rfl⟩ := returns_get.mp hget
    split_ifs at h with hdirty
    · obtain ⟨rfl, rfl⟩ := returns_pure.mp h
      exact ⟨run_of_passLoop hloop, hdirty⟩
    · exact (not_returns_throw h).elim
  · exact (not_returns_throw h).elim

theorem run_of_resolveAllProperties {topoSort : TopologicalSort ν} {context : ResolveContext}
    {initialNode : ν} {visits : List (Visit ν)}
    (h : Returns (resolveAllProperties topoSort top 0 false context initialNode)
      nodes visits nodes') :
    Transition.run (step top) nodes visits = some nodes' ∧
      (top.vertices ≠ [] → findDirtyNodes top nodes' = []) := by
  unfold resolveAllProperties at h
  by_cases hempty : top.vertices = []
  · rw [if_pos (Or.inl hempty)] at h
    obtain ⟨rfl, rfl⟩ := returns_pure.mp h
    exact ⟨rfl, fun hne => absurd hempty hne⟩
  · rw [if_neg (by simp [hempty]), if_neg (by simp)] at h
    obtain ⟨forwardVisits, mid, hforward, h⟩ := returns_bind.mp h
    obtain ⟨backVisits, last, hback, h⟩ := returns_bind.mp h
    obtain ⟨rfl, rfl⟩ := returns_pure.mp h
    obtain ⟨hrunForward, -⟩ := run_of_resolveAlong hforward
    obtain ⟨hrunBack, hclean⟩ := run_of_resolveAlong hback
    exact ⟨Transition.run_append_eq_some.mpr ⟨mid, hrunForward, hrunBack⟩, fun _ => hclean⟩

end Propagation

end Rfnoc
end UhdHost
