import Mathlib.Data.List.Nodup
import UhdHost.Rfnoc.Property

/-!
# Edges between nodes

`graph_edge_t` of `uhd/rfnoc/graph_edge.hpp`, and the nodes and edges of a graph as property
propagation sees them.

In a graph no two nodes have the same ID, so that a node stands for its ID here.  An edge has two
ends; `node` and `port` give the node and the port at the source (`true`) or at the destination
(`false`) of it, which lets what holds of both ends be said once.

A port has one edge at most.  `Topology` carries this, and with it an edge can be told from
either of its ends (`findNeighbour_port`, `end_unique`).
-/

namespace UhdHost
namespace Rfnoc

/-- `graph_edge_t::edge_t` -/
inductive EdgeType where
  | static
  | dynamic
  | rxStream
  | txStream
  deriving DecidableEq, Repr

/-- `graph_edge_t` -/
structure GraphEdge (ν : Type) where
  srcBlockid : ν
  srcPort : ℕ := 0
  dstBlockid : ν
  dstPort : ℕ := 0
  edge : EdgeType := .dynamic
  isForwardEdge : Bool := true
  deriving DecidableEq

namespace GraphEdge

variable {ν : Type}

/-- `is_equal` -/
def isEqual [DecidableEq ν] (lhs rhs : GraphEdge ν) (matchProperties : Bool) : Bool :=
  decide (lhs.srcBlockid = rhs.srcBlockid ∧ lhs.srcPort = rhs.srcPort ∧
      lhs.dstBlockid = rhs.dstBlockid ∧ lhs.dstPort = rhs.dstPort)
    && (if matchProperties then
          decide (lhs.edge = rhs.edge ∧ lhs.isForwardEdge = rhs.isForwardEdge)
        else true)

/-- The node at an end. -/
def node (e : GraphEdge ν) : Bool → ν
  | true => e.srcBlockid
  | false => e.dstBlockid

/-- The port at an end. -/
def port (e : GraphEdge ν) : Bool → ResSourceInfo
  | true => ⟨.outputEdge, e.srcPort⟩
  | false => ⟨.inputEdge, e.dstPort⟩

theorem isEdge_port (e : GraphEdge ν) (b : Bool) : (e.port b).type.isEdge = true := by
  cases b <;> rfl

theorem inverted_port (e : GraphEdge ν) (b : Bool) :
    (e.port b).type.inverted = (e.port !b).type := by
  cases b <;> rfl

theorem port_ne_port_not (e e' : GraphEdge ν) (b : Bool) : e.port b ≠ e'.port !b := by
  cases b <;> exact fun h => absurd (congrArg ResSourceInfo.type h) (by simp [port])

theorem eq_of_port_eq {e e' : GraphEdge ν} {b b' : Bool} (h : e.port b = e'.port b') : b = b' := by
  cases b <;> cases b'
  · rfl
  · exact absurd h (port_ne_port_not e e' false)
  · exact absurd h (port_ne_port_not e e' true)
  · rfl

end GraphEdge

/-- The nodes and the edges of a graph, where no port has two edges. -/
structure Topology (ν : Type) where
  vertices : List ν
  edges : List (GraphEdge ν)
  node_mem : ∀ e ∈ edges, ∀ b, e.node b ∈ vertices
  srcPorts_nodup : (edges.map fun e => (e.srcBlockid, e.srcPort)).Nodup
  dstPorts_nodup : (edges.map fun e => (e.dstBlockid, e.dstPort)).Nodup

namespace Topology

variable {ν : Type} [DecidableEq ν]

/-- `_find_neighbour` -/
def findNeighbour (top : Topology ν) (origin : ν) (portInfo : ResSourceInfo) :
    Option (ν × GraphEdge ν) :=
  match portInfo.type with
  | .inputEdge =>
    (top.edges.find? fun e => e.dstBlockid = origin ∧ e.dstPort = portInfo.inst).map
      fun e => (e.srcBlockid, e)
  | .outputEdge =>
    (top.edges.find? fun e => e.srcBlockid = origin ∧ e.srcPort = portInfo.inst).map
      fun e => (e.dstBlockid, e)
  -- an invalid code path; nobody asks for these
  | .user | .framework => none

omit [DecidableEq ν] in
theorem end_unique (top : Topology ν) {e e' : GraphEdge ν} (he : e ∈ top.edges)
    (he' : e' ∈ top.edges) {b b' : Bool} (hnode : e.node b = e'.node b')
    (hport : e.port b = e'.port b') : e = e' ∧ b = b' := by
  have hb := GraphEdge.eq_of_port_eq hport
  subst hb
  refine ⟨?_, rfl⟩
  have hinst : (e.port b).inst = (e'.port b).inst := congrArg ResSourceInfo.inst hport
  cases b with
  | true => exact List.inj_on_of_nodup_map top.srcPorts_nodup he he' (Prod.ext hnode hinst)
  | false => exact List.inj_on_of_nodup_map top.dstPorts_nodup he he' (Prod.ext hnode hinst)

theorem findNeighbour_port (top : Topology ν) {e : GraphEdge ν} (he : e ∈ top.edges) (b : Bool) :
    top.findNeighbour (e.node b) (e.port b) = some (e.node !b, e) := by
  cases b with
  | true =>
    have hfind : (top.edges.find? fun e' =>
        e'.srcBlockid = e.srcBlockid ∧ e'.srcPort = e.srcPort) = some e := by
      cases hf : top.edges.find? fun e' =>
          decide (e'.srcBlockid = e.srcBlockid ∧ e'.srcPort = e.srcPort) with
      | none => exact absurd (List.find?_eq_none.mp hf e he) (by simp)
      | some e' =>
        have hends := List.find?_some hf
        simp only [decide_eq_true_eq] at hends
        rw [List.inj_on_of_nodup_map top.srcPorts_nodup (List.mem_of_find?_eq_some hf) he
          (Prod.ext hends.1 hends.2)]
    unfold findNeighbour
    exact congrArg (Option.map fun e => (e.dstBlockid, e)) hfind
  | false =>
    have hfind : (top.edges.find? fun e' =>
        e'.dstBlockid = e.dstBlockid ∧ e'.dstPort = e.dstPort) = some e := by
      cases hf : top.edges.find? fun e' =>
          decide (e'.dstBlockid = e.dstBlockid ∧ e'.dstPort = e.dstPort) with
      | none => exact absurd (List.find?_eq_none.mp hf e he) (by simp)
      | some e' =>
        have hends := List.find?_some hf
        simp only [decide_eq_true_eq] at hends
        rw [List.inj_on_of_nodup_map top.dstPorts_nodup (List.mem_of_find?_eq_some hf) he
          (Prod.ext hends.1 hends.2)]
    unfold findNeighbour
    exact congrArg (Option.map fun e => (e.srcBlockid, e)) hfind

theorem exists_end_of_findNeighbour {top : Topology ν} {origin m : ν} {info : ResSourceInfo}
    {e : GraphEdge ν} (h : top.findNeighbour origin info = some (m, e)) :
    e ∈ top.edges ∧ ∃ b, e.node b = origin ∧ e.port b = info ∧ m = e.node !b := by
  obtain ⟨type, inst⟩ := info
  unfold findNeighbour at h
  cases type with
  | user => exact absurd h (by simp)
  | framework => exact absurd h (by simp)
  | inputEdge =>
    obtain ⟨e', hfind, he'⟩ := Option.map_eq_some_iff.mp h
    have hends := List.find?_some hfind
    simp only [decide_eq_true_eq] at hends
    obtain ⟨rfl, rfl⟩ := Prod.mk.inj he'
    exact ⟨List.mem_of_find?_eq_some hfind, false, hends.1,
      congrArg (ResSourceInfo.mk .inputEdge) hends.2, rfl⟩
  | outputEdge =>
    obtain ⟨e', hfind, he'⟩ := Option.map_eq_some_iff.mp h
    have hends := List.find?_some hfind
    simp only [decide_eq_true_eq] at hends
    obtain ⟨rfl, rfl⟩ := Prod.mk.inj he'
    exact ⟨List.mem_of_find?_eq_some hfind, true, hends.1,
      congrArg (ResSourceInfo.mk .outputEdge) hends.2, rfl⟩

end Topology

end Rfnoc
end UhdHost
