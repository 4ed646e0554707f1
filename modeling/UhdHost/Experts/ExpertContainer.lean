import UhdHost.Experts.ExpertNodes
import UhdHost.Library.Stateful
import UhdHost.Library.TopologicalOrder
import UhdHost.Types.Exception

/-!
# Expert containers

`expert_container_impl` of `lib/experts/expert_container.cpp`: a graph of data nodes and workers,
with an edge to each worker from what it reads and from each worker to what it sets.  Resolving goes
through the graph in a topological order, runs the workers that read something dirty, and marks what
they have read clean afterwards.

A property is a data node that the user may write (`commit`) and read (`retrieve`).  It may be
configured such that the container is resolved whenever it is written, or read.

## What is a parameter

The topological sort belongs to a library (`TopologicalOrder.IsTopologicalSort`).

## What is left out

Building and clearing the graph; what `add_data_node` and `add_worker` check are fields of
`ExpertContainer`.  The locks, the logging and the printing of the graph.
-/

namespace UhdHost
namespace Experts

open Dataflow TopologicalOrder

/-- A data node of the graph. -/
structure DataVertex where
  name : String
  /-- It has a callback mutex: it is a property. -/
  isProperty : Bool := false
  /-- It has a write callback, `resolve_from`. -/
  resolveOnWrite : Bool := false
  /-- It has a read callback, `resolve_to`. -/
  resolveOnRead : Bool := false
  deriving DecidableEq, Repr

/-- `expert_container_impl` -/
structure ExpertContainer (V : Type) where
  /-- `_datanode_map` -/
  dataNodes : List DataVertex
  /-- `_worker_map` -/
  workers : List (Worker V)
  dataNodes_nodup : (dataNodes.map DataVertex.name).Nodup
  workers_nodup : (workers.map Worker.name).Nodup
  inputs_mem : ∀ w ∈ workers, ∀ d ∈ w.inputs, d ∈ dataNodes.map DataVertex.name
  outputs_mem : ∀ w ∈ workers, ∀ d ∈ w.outputs, d ∈ dataNodes.map DataVertex.name

/-- A vertex of `_expert_dag`. -/
inductive Vertex where
  | data (name : String)
  | worker (name : String)
  deriving DecidableEq, Repr

/-- What is done to the data nodes, and may throw. -/
abbrev ExpertM (V : Type) := EStateM UhdError (DataNodes V)

namespace ExpertContainer

variable {V : Type}

/-- The vertices of `_expert_dag`. -/
def vertices (c : ExpertContainer V) : List Vertex :=
  c.dataNodes.map (fun d => .data d.name) ++ c.workers.map fun w => .worker w.name

/-- The edges of `_expert_dag`. -/
def edges (c : ExpertContainer V) : List (Vertex × Vertex) :=
  c.workers.flatMap fun w =>
    w.inputs.map (fun d => (.data d, .worker w.name)) ++
      w.outputs.map fun d => (.worker w.name, .data d)

/-- `_lookup_vertex` -/
def lookupVertex (c : ExpertContainer V) (name : String) : Except UhdError Vertex :=
  if name ∈ c.dataNodes.map DataVertex.name then .ok (.data name)
  else if name ∈ c.workers.map Worker.name then .ok (.worker name)
  else .error (.lookupError ("Could not find node with name " ++ name))

/-- The worker at a vertex. -/
def worker? (c : ExpertContainer V) : Vertex → Option (Worker V)
  | .data _ => none
  | .worker name => c.workers.find? fun w => w.name = name

/-- `is_dirty` of the node at a vertex. -/
def isDirty (c : ExpertContainer V) (s : DataNodes V) : Vertex → Bool
  | .data name => (s name).dirty
  | .worker name => (c.worker? (.worker name)).any fun w => w.isDirty s

variable [DecidableEq V]

/-- `resolve` of the node at a vertex. -/
def resolveVertex (c : ExpertContainer V) (s : DataNodes V) (v : Vertex) : DataNodes V :=
  match c.worker? v with
  | none => s
  | some w => w.resolve s

/-- The first pass of `_resolve_helper`, with the workers that it has resolved. -/
def firstPass (c : ExpertContainer V) (start stop : Vertex) (force : Bool) :
    List Vertex → Bool → DataNodes V → List (Worker V) → DataNodes V × List (Worker V)
  | [], _, s, resolved => (s, resolved)
  | v :: rest, encountered, s, resolved =>
    let encountered := encountered || v == start
    let (s, resolved) :=
      if encountered && (force || c.isDirty s v) then
        (c.resolveVertex s v, resolved ++ (c.worker? v).toList)
      else (s, resolved)
    if v == stop then (s, resolved) else firstPass c start stop force rest encountered s resolved

omit [DecidableEq V] in
/-- The second pass of `_resolve_helper`. -/
def secondPass (resolved : List (Worker V)) (s : DataNodes V) : DataNodes V :=
  resolved.foldl (fun s w => w.markClean s) s

/-- The topological sort of the library, from the vertices and the edges. -/
abbrev TopologicalSort := List Vertex → List (Vertex × Vertex) → Option (List Vertex)

/-- `_resolve_helper`, with the workers that it has resolved.  The text of the exception goes on with
the edges that the library finds. -/
def resolveHelper (topoSort : TopologicalSort) (c : ExpertContainer V) (start stop : String)
    (force : Bool) : ExpertM V (List (Worker V)) := do
  match topoSort c.vertices c.edges with
  | none =>
    throw (.runtimeError ("Cannot resolve expert because it has at least one cycle!\n" ++
      "The following back-edges were found:"))
  | some [] => pure []
  | some (first :: rest) =>
    let startVertex ← if start = "" then pure first else Stateful.orThrow (c.lookupVertex start)
    let stopVertex ←
      if stop = "" then pure ((first :: rest).getLast (List.cons_ne_nil first rest))
      else Stateful.orThrow (c.lookupVertex stop)
    let s ← get
    let (s, resolved) := c.firstPass startVertex stopVertex force (first :: rest) false s []
    set (secondPass resolved s)
    pure resolved

/-- `resolve_all` -/
def resolveAll (topoSort : TopologicalSort) (c : ExpertContainer V) (force : Bool) :
    ExpertM V (List (Worker V)) :=
  c.resolveHelper topoSort "" "" force

/-- `resolve_from`.  It resolves all. -/
def resolveFrom (topoSort : TopologicalSort) (c : ExpertContainer V) (_name : String) :
    ExpertM V (List (Worker V)) :=
  c.resolveHelper topoSort "" "" false

/-- `resolve_to`.  It resolves all. -/
def resolveTo (topoSort : TopologicalSort) (c : ExpertContainer V) (_name : String) :
    ExpertM V (List (Worker V)) :=
  c.resolveHelper topoSort "" "" false

omit [DecidableEq V] in
/-- The property of this name, with the checks of `retrieve` of the container and of
`_callback_mutex`. -/
def property (c : ExpertContainer V) (name : String) : Except UhdError DataVertex :=
  match c.dataNodes.find? fun d => d.name = name with
  | none => .error (.lookupError ("failed to find node " ++ name ++ " in expert graph"))
  | some d =>
    if d.isProperty then .ok d
    else .error (.assertionError ("node " ++ name ++ " is missing the callback mutex"))

/-- `commit` of the data node of this name. -/
def commit (topoSort : TopologicalSort) (c : ExpertContainer V) (name : String) (value : V) :
    ExpertM V PUnit := do
  let d ← Stateful.orThrow (c.property name)
  modify fun s => Function.update s name ((s name).setByUser value)
  let s ← get
  if (s name).dirty && d.resolveOnWrite then
    let _ ← c.resolveFrom topoSort name
    pure ⟨⟩
  else pure ⟨⟩

/-- `retrieve` of the data node of this name. -/
def retrieve (topoSort : TopologicalSort) (c : ExpertContainer V) (name : String) :
    ExpertM V V := do
  let d ← Stateful.orThrow (c.property name)
  if d.resolveOnRead then
    let _ ← c.resolveTo topoSort name
    let s ← get
    pure (s name).data
  else
    let s ← get
    pure (s name).data

end ExpertContainer

/-- A call from outside. -/
inductive ExpertCall (V : Type) where
  | commit (name : String) (value : V)
  | retrieve (name : String)
  | resolveAll (force : Bool)
  | resolveFrom (name : String)
  | resolveTo (name : String)

namespace ExpertCall

variable {V : Type} [DecidableEq V]

/-- The data nodes after a call, whether it returns or throws. -/
def perform (topoSort : ExpertContainer.TopologicalSort) (c : ExpertContainer V)
    (s : DataNodes V) : ExpertCall V → DataNodes V
  | commit name value => Stateful.stateAfter (c.commit topoSort name value s)
  | retrieve name => Stateful.stateAfter (c.retrieve topoSort name s)
  | resolveAll force => Stateful.stateAfter (c.resolveAll topoSort force s)
  | resolveFrom name => Stateful.stateAfter (c.resolveFrom topoSort name s)
  | resolveTo name => Stateful.stateAfter (c.resolveTo topoSort name s)

end ExpertCall
end Experts
end UhdHost
