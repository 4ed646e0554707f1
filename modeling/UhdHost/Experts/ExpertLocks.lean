import UhdHost.Experts.ExpertContainer
import UhdHost.Library.MutexGuard
import UhdHost.Library.Transition

/-!
# The mutex of an expert container

The operations of `expert_container_impl` that build, clear and resolve the graph, with `_mutex`, which
is a `std::mutex`: a thread that locks it twice waits forever.  Each operation takes it in a block of
its own (`lockGuard`), and what `resolve_all` and its companions do inside does not lock.

`add_worker` and `add_data_node` have a handler for what goes wrong in the middle of a registration.  It
calls `clear`, which locks, and the block of the operation is not left yet.  So the handler never ends
(`addWorker_of_missing`): the exception that it is to throw is not thrown, the container is not cleared,
and the mutex stays locked.  What is checked before is thrown without a handler.

The recursive `_resolve_mutex` never blocks its own thread, and `retrieve`, `lookup`, `to_dot` and
`debug_audit` lock nothing; they are left out.  What a worker computes when it is resolved is a function
of the data nodes that it reads: its accessors call nothing back.

* `callEnds_iff`: which calls end, on a free mutex.
* `everyCall_wellBehaved_iff`: the runs in which all do.
* `run_ofExpertCall`: what registers nothing does the same as without a mutex.
-/

namespace UhdHost
namespace Experts

open MutexGuard

variable {V : Type}

/-- The exceptions. -/
inductive ContainerError where
  | uhd (e : UhdError)
  /-- `std::bad_alloc` -/
  | badAlloc
  deriving DecidableEq

/-- What a container has. -/
structure Contents (V : Type) where
  container : ExpertContainer V
  nodes : DataNodes V

/-- A computation of the container. -/
abbrev LockedM (V α : Type) := GuardedM ContainerError (Contents V) α

namespace ExpertContainer

/-- A container without nodes. -/
def empty (V : Type) : ExpertContainer V where
  dataNodes := []
  workers := []
  dataNodes_nodup := List.nodup_nil
  workers_nodup := List.nodup_nil
  inputs_mem := fun _ h => absurd h List.not_mem_nil
  outputs_mem := fun _ h => absurd h List.not_mem_nil

/-- The names of `_datanode_map`. -/
def dataNames (c : ExpertContainer V) : List String := c.dataNodes.map DataVertex.name

/-- The names of `_worker_map`. -/
def workerNames (c : ExpertContainer V) : List String := c.workers.map Worker.name

theorem nodup_map_concat {α : Type} {f : α → String} {as : List α} {a : α}
    (h : (as.map f).Nodup) (ha : f a ∉ as.map f) : ((as ++ [a]).map f).Nodup := by
  rw [List.map_append, List.map_singleton]
  exact List.nodup_append.mpr ⟨h, List.nodup_singleton _, fun x hx y hy hxy => by
    rw [List.mem_singleton.mp hy] at hxy
    exact ha (hxy ▸ hx)⟩

/-- A data node is put into the graph. -/
def insertDataNode (c : ExpertContainer V) (d : DataVertex) (h : d.name ∉ c.dataNames) :
    ExpertContainer V where
  dataNodes := c.dataNodes ++ [d]
  workers := c.workers
  dataNodes_nodup := nodup_map_concat c.dataNodes_nodup h
  workers_nodup := c.workers_nodup
  inputs_mem := fun w hw x hx => by
    rw [List.map_append]
    exact List.mem_append_left _ (c.inputs_mem w hw x hx)
  outputs_mem := fun w hw x hx => by
    rw [List.map_append]
    exact List.mem_append_left _ (c.outputs_mem w hw x hx)

/-- A worker is put into the graph, with its edges. -/
def insertWorker (c : ExpertContainer V) (w : Worker V) (h : w.name ∉ c.workerNames)
    (hnodes : ∀ d ∈ w.inputs ++ w.outputs, d ∈ c.dataNames) : ExpertContainer V where
  dataNodes := c.dataNodes
  workers := c.workers ++ [w]
  dataNodes_nodup := c.dataNodes_nodup
  workers_nodup := nodup_map_concat c.workers_nodup h
  inputs_mem := fun w' hw' d hd => by
    rcases List.mem_append.mp hw' with hw' | hw'
    · exact c.inputs_mem w' hw' d hd
    · rw [List.mem_singleton.mp hw'] at hd
      exact hnodes d (List.mem_append_left _ hd)
  outputs_mem := fun w' hw' d hd => by
    rcases List.mem_append.mp hw' with hw' | hw'
    · exact c.outputs_mem w' hw' d hd
    · rw [List.mem_singleton.mp hw'] at hd
      exact hnodes d (List.mem_append_right _ hd)

/-- The first of the names that no data node has, if there is one. -/
def missingNode (c : ExpertContainer V) (names : List String) : String :=
  (names.find? fun d => d ∉ c.dataNames).getD ""

end ExpertContainer

/-- The pointer that is handed to `add_data_node`. -/
inductive NodePointer (V : Type) where
  | null
  | worker (name : String)
  /-- A data node, with its callbacks as the resolve mode has them, and what it holds. -/
  | data (vertex : DataVertex) (node : DataNode V)

namespace LockedM

/-- What is done to the data nodes. -/
def onNodes {α : Type} (x : ExpertM V α) : LockedM V α := fun s =>
  match x s.data.nodes with
  | .ok a nodes => .ok a { s with data := { s.data with nodes := nodes } }
  | .error e nodes => .error (.threw (.uhd e)) { s with data := { s.data with nodes := nodes } }

/-- An exception of the source. -/
def throwUhd {α : Type} (e : UhdError) : LockedM V α := throw (.threw (.uhd e))

/-- `clear` -/
def clear : LockedM V PUnit :=
  lockGuard (modify fun s => { s with data := { s.data with container := .empty V } })

/-- The `try` block of `add_data_node`. -/
def registerDataNode (c : ExpertContainer V) (d : DataVertex) (node : DataNode V)
    (h : d.name ∉ c.dataNames) (badAlloc : Bool) : LockedM V PUnit :=
  if badAlloc then throw (.threw .badAlloc)
  else modify fun s => { s with
    data := ⟨c.insertDataNode d h, Function.update s.data.nodes d.name node⟩ }

/-- `add_data_node`.  The library may run out of memory in the `try` block. -/
def addDataNode (pointer : NodePointer V) (badAlloc : Bool) : LockedM V PUnit :=
  lockGuard do
    match pointer with
    | .null =>
      throwUhd (.runtimeError
        "NULL data node passed into expert container for registration.")
    | .worker name =>
      throwUhd (.runtimeError ("Supplied node " ++ name ++ " is not a data/property node."))
    | .data d node =>
      let s ← get
      if h : d.name ∈ s.data.container.dataNames then
        throwUhd (.runtimeError ("Data node with name " ++ d.name ++ " already exists"))
      else
        catchAll (registerDataNode s.data.container d node h badAlloc) fun _ => do
          clear
          throwUhd (.assertionError
            "Unknown unrecoverable error adding data node. Cleared expert container.")

/-- The `try` block of `add_worker`. -/
def registerWorker (c : ExpertContainer V) (w : Worker V) (h : w.name ∉ c.workerNames)
    (badAlloc : Bool) : LockedM V PUnit :=
  if badAlloc then throw (.threw .badAlloc)
  else if hnodes : ∀ d ∈ w.inputs ++ w.outputs, d ∈ c.dataNames then
    modify fun s => { s with data := { s.data with container := c.insertWorker w h hnodes } }
  else throwUhd (.runtimeError
    ("Data node with name " ++ c.missingNode (w.inputs ++ w.outputs) ++ " was not found"))

/-- What the handlers of `add_worker` throw. -/
def promoted : ContainerError → UhdError
  | .uhd (.runtimeError what) => .assertionError
      (what ++ " (Cleared expert container because error is unrecoverable).")
  | _ => .assertionError "Unknown unrecoverable error adding worker. Cleared expert container."

/-- `add_worker`.  A pointer that is not null is one to a worker. -/
def addWorker (worker : Option (Worker V)) (badAlloc : Bool) : LockedM V PUnit :=
  lockGuard do
    match worker with
    | none =>
      throwUhd (.runtimeError "NULL worker passed into expert container for registration.")
    | some w =>
      let s ← get
      if h : w.name ∈ s.data.container.workerNames then
        throwUhd (.runtimeError ("Resolver with name " ++ w.name ++ " already exists."))
      else
        catchAll (registerWorker s.data.container w h badAlloc) fun e => do
          clear
          throwUhd (promoted e)

variable [DecidableEq V] (topoSort : ExpertContainer.TopologicalSort)

/-- `resolve_all`, `resolve_from` and `resolve_to` under the mutex. -/
def resolve (force : Bool) : LockedM V PUnit :=
  lockGuard do
    let s ← get
    let _ ← onNodes (s.data.container.resolveAll topoSort force)
    pure ⟨⟩

/-- `commit` of the data node of this name, whose write callback is `resolve_from`. -/
def commit (name : String) (value : V) : LockedM V PUnit := do
  let s ← get
  let d ← onNodes (Stateful.orThrow (s.data.container.property name))
  onNodes (modify fun nodes => Function.update nodes name ((nodes name).setByUser value))
  let s ← get
  if (s.data.nodes name).dirty && d.resolveOnWrite then resolve topoSort false else pure ⟨⟩

/-- `retrieve` of the data node of this name, whose read callback is `resolve_to`. -/
def retrieve (name : String) : LockedM V V := do
  let s ← get
  let d ← onNodes (Stateful.orThrow (s.data.container.property name))
  if d.resolveOnRead then
    resolve topoSort false
    let s ← get
    pure (s.data.nodes name).data
  else
    let s ← get
    pure (s.data.nodes name).data

end LockedM

/-- A call of an operation of the container, or of a property of it. -/
inductive ContainerCall (V : Type) where
  | addDataNode (pointer : NodePointer V) (badAlloc : Bool)
  | addWorker (worker : Option (Worker V)) (badAlloc : Bool)
  | clear
  | resolveAll (force : Bool)
  | resolveFrom (name : String)
  | resolveTo (name : String)
  | commit (name : String) (value : V)
  | retrieve (name : String)

namespace ContainerCall

open LockedM

variable [DecidableEq V] (topoSort : ExpertContainer.TopologicalSort)

/-- The computation of a call. -/
def perform : ContainerCall V → LockedM V PUnit
  | addDataNode pointer badAlloc => LockedM.addDataNode pointer badAlloc
  | addWorker worker badAlloc => LockedM.addWorker worker badAlloc
  | clear => LockedM.clear
  | resolveAll force => LockedM.resolve topoSort force
  | resolveFrom _ => LockedM.resolve topoSort false
  | resolveTo _ => LockedM.resolve topoSort false
  | commit name value => LockedM.commit topoSort name value
  | retrieve name => do
    let _ ← LockedM.retrieve topoSort name
    pure ⟨⟩

/-- The container after a call that ends, with a value or an exception. -/
def step (s : Guarded (Contents V)) (call : ContainerCall V) : Option (Guarded (Contents V)) :=
  match call.perform topoSort s with
  | .ok _ t => some t
  | .error (.threw _) t => some t
  | .error .blocked _ => none

/-- The call is for a worker that reads or sets what is no data node of the container. -/
def MissesNode (s : Guarded (Contents V)) (call : ContainerCall V) : Prop :=
  ∃ w badAlloc, call = .addWorker (some w) badAlloc ∧
    ∃ d ∈ w.inputs ++ w.outputs, d ∉ s.data.container.dataNames

/-- **What is claimed of a call**: it ends, and it does not leave the mutex locked.  If it is for such a
worker, it ends with an exception. -/
structure WellBehaved (s : Guarded (Contents V)) (call : ContainerCall V) : Prop where
  ends : Ended false (call.perform topoSort s)
  throws : MissesNode s call → ∃ e t, call.perform topoSort s = .error (.threw e) t

omit [DecidableEq V] in
/-- **Nothing goes wrong in the middle of a registration.** -/
def Smooth (s : Guarded (Contents V)) : ContainerCall V → Prop
  | addDataNode (.data d _) badAlloc =>
    d.name ∈ s.data.container.dataNames ∨ badAlloc = false
  | addWorker (some w) badAlloc =>
    w.name ∈ s.data.container.workerNames ∨
      (badAlloc = false ∧ ∀ d ∈ w.inputs ++ w.outputs, d ∈ s.data.container.dataNames)
  | _ => True

end ContainerCall

/-! ## What does not lock -/

namespace LockedM

theorem keeps_throwUhd {α : Type} (e : UhdError) : Keeps (throwUhd e : LockedM V α) :=
  keeps_throw (ContainerError.uhd e)

theorem keeps_onNodes {α : Type} (x : ExpertM V α) : Keeps (onNodes x) := by
  intro s
  rw [onNodes]
  cases x s.data.nodes with
  | ok a nodes => rfl
  | error e nodes => rfl

theorem keeps_modify {f : Guarded (Contents V) → Guarded (Contents V)}
    (hf : ∀ s, (f s).held = s.held) : Keeps (modify f : LockedM V PUnit) := fun s => hf s

theorem frees_clear : Frees (clear : LockedM V PUnit) :=
  frees_lockGuard (keeps_modify fun _ => rfl)

variable [DecidableEq V] (topoSort : ExpertContainer.TopologicalSort)

theorem frees_resolve (force : Bool) : Frees (resolve (V := V) topoSort force) :=
  frees_lockGuard (keeps_get.bind fun _ => (keeps_onNodes _).bind fun _ => keeps_pure _)

theorem resolve_of_free {s : Guarded (Contents V)} (hs : s.held = false) (force : Bool) :
    resolve topoSort force s =
      onNodes (do let _ ← s.data.container.resolveAll topoSort force; pure ⟨⟩) s := by
  obtain ⟨held, data⟩ := s
  obtain rfl : held = false := hs
  rw [resolve, lockGuard, if_neg Bool.false_ne_true]
  simp only
  rw [get_bind, onNodes]
  cases hr : data.container.resolveAll topoSort force data.nodes with
  | ok workers nodes =>
    rw [Stateful.bind_of_ok hr, Stateful.bind_of_ok (a := workers) (t := ⟨true, ⟨data.container, nodes⟩⟩)
      (by rw [onNodes, hr])]
    rfl
  | error e nodes =>
    rw [Stateful.bind_of_error hr, Stateful.bind_of_error (e := .threw (.uhd e))
      (t := ⟨true, ⟨data.container, nodes⟩⟩) (by rw [onNodes, hr])]

theorem commit_of_free {s : Guarded (Contents V)} (hs : s.held = false) (name : String) (value : V) :
    commit topoSort name value s = onNodes (s.data.container.commit topoSort name value) s := by
  obtain ⟨held, data⟩ := s
  obtain rfl : held = false := hs
  rw [commit, get_bind, ExpertContainer.commit]
  simp only
  cases hp : data.container.property name with
  | error e => rfl
  | ok d =>
    generalize hnodes : Function.update data.nodes name ((data.nodes name).setByUser value) = nodes
    -- Up to the callback both set the node.
    change (if ((Function.update data.nodes name ((data.nodes name).setByUser value) name).dirty &&
        d.resolveOnWrite) = true then resolve topoSort false else pure ⟨⟩)
        ⟨false, data.container, Function.update data.nodes name ((data.nodes name).setByUser value)⟩ =
      onNodes (fun _ => (if ((Function.update data.nodes name ((data.nodes name).setByUser value)
        name).dirty && d.resolveOnWrite) = true then
          (do let _ ← data.container.resolveFrom topoSort name; pure ⟨⟩) else pure ⟨⟩ :
          ExpertM V PUnit)
        (Function.update data.nodes name ((data.nodes name).setByUser value))) ⟨false, data⟩
    rw [hnodes]
    split_ifs with hfires
    · rw [resolve_of_free topoSort rfl]
      rfl
    · rfl

theorem retrieve_of_free {s : Guarded (Contents V)} (hs : s.held = false) (name : String) :
    retrieve topoSort name s = onNodes (s.data.container.retrieve topoSort name) s := by
  obtain ⟨held, data⟩ := s
  obtain rfl : held = false := hs
  rw [retrieve, get_bind, ExpertContainer.retrieve]
  simp only
  cases hp : data.container.property name with
  | error e => rfl
  | ok d =>
    change (if d.resolveOnRead = true then (do
          resolve topoSort false
          let s ← get
          pure (s.data.nodes name).data) else (do
          let s ← get
          pure (s.data.nodes name).data) : LockedM V V) ⟨false, data⟩ =
      onNodes (fun _ => (if d.resolveOnRead = true then (do
          let _ ← data.container.resolveTo topoSort name
          let s ← get
          pure (s name).data) else (do
          let s ← get
          pure (s name).data) : ExpertM V V) data.nodes) ⟨false, data⟩
    split_ifs with hreads
    · have hresolve := resolve_of_free topoSort (s := ⟨false, data⟩) rfl false
      cases hr : data.container.resolveAll topoSort false data.nodes with
      | ok workers nodes =>
        rw [onNodes, Stateful.bind_of_ok hr] at hresolve
        rw [Stateful.bind_of_ok hresolve,
          Stateful.bind_of_ok (x := data.container.resolveTo topoSort name) hr]
        rfl
      | error e nodes =>
        rw [onNodes, Stateful.bind_of_error hr] at hresolve
        rw [Stateful.bind_of_error hresolve,
          Stateful.bind_of_error (x := data.container.resolveTo topoSort name) hr]
        rfl
    · rfl

theorem frees_commit (name : String) (value : V) : Frees (commit topoSort name value) := by
  refine keeps_get.frees.bind fun _ => (keeps_onNodes _).frees.bind fun d =>
    (keeps_onNodes _).frees.bind fun _ => keeps_get.frees.bind fun s => ?_
  split_ifs
  · exact frees_resolve topoSort false
  · exact (keeps_pure _).frees

theorem frees_retrieve (name : String) : Frees (retrieve (V := V) topoSort name) := by
  refine keeps_get.frees.bind fun _ => (keeps_onNodes _).frees.bind fun d => ?_
  split_ifs
  · exact (frees_resolve topoSort false).bind fun _ => keeps_get.frees.bind fun _ =>
      (keeps_pure _).frees
  · exact keeps_get.frees.bind fun _ => (keeps_pure _).frees

end LockedM

/-! ## The registrations -/

namespace LockedM

variable {s : Guarded (Contents V)}

theorem catchAll_clear_blocked {x : LockedM V PUnit} {e : ContainerError}
    {t : Guarded (Contents V)} (hx : x s = .error (.threw e) t) (ht : t.held = true)
    (rest : ContainerError → LockedM V PUnit) :
    catchAll x (fun e => do clear; rest e) s = .error .blocked t := by
  rw [catchAll, hx]
  exact Stateful.bind_of_error (lockGuard_of_held _ ht) _

theorem registerWorker_ok {c : ExpertContainer V} {w : Worker V} (h : w.name ∉ c.workerNames)
    (hnodes : ∀ d ∈ w.inputs ++ w.outputs, d ∈ c.dataNames) :
    registerWorker c w h false s = .ok ⟨⟩ { s with data := { s.data with
      container := c.insertWorker w h hnodes } } := by
  rw [registerWorker, if_neg Bool.false_ne_true, dif_pos hnodes]
  rfl

theorem registerWorker_throws {c : ExpertContainer V} {w : Worker V} (h : w.name ∉ c.workerNames)
    {badAlloc : Bool}
    (hbad : ¬ (badAlloc = false ∧ ∀ d ∈ w.inputs ++ w.outputs, d ∈ c.dataNames)) :
    ∃ e, registerWorker c w h badAlloc s = .error (.threw e) s := by
  rw [registerWorker]
  split_ifs with hmem hnodes
  · exact ⟨_, rfl⟩
  · exact absurd ⟨Bool.eq_false_iff.mpr hmem, hnodes⟩ hbad
  · exact ⟨_, rfl⟩

theorem addWorker_of_registered (hs : s.held = false) {w : Worker V} (badAlloc : Bool)
    (h : w.name ∈ s.data.container.workerNames) :
    ∃ e, addWorker (some w) badAlloc s = .error (.threw e) s := by
  refine ⟨.uhd (.runtimeError ("Resolver with name " ++ w.name ++ " already exists.")), ?_⟩
  obtain ⟨held, data⟩ := s
  obtain rfl : held = false := hs
  rw [addWorker, lockGuard, if_neg Bool.false_ne_true]
  simp only
  rw [get_bind, dif_pos h]
  rfl

theorem addWorker_of_present (hs : s.held = false) {w : Worker V}
    (h : w.name ∉ s.data.container.workerNames)
    (hnodes : ∀ d ∈ w.inputs ++ w.outputs, d ∈ s.data.container.dataNames) :
    addWorker (some w) false s = .ok ⟨⟩ ⟨false, { s.data with
      container := s.data.container.insertWorker w h hnodes }⟩ := by
  obtain ⟨held, data⟩ := s
  obtain rfl : held = false := hs
  rw [addWorker, lockGuard, if_neg Bool.false_ne_true]
  simp only
  rw [get_bind, dif_neg h, catchAll, registerWorker_ok h hnodes]

theorem addWorker_of_missing (hs : s.held = false) {w : Worker V} {badAlloc : Bool}
    (h : w.name ∉ s.data.container.workerNames)
    (hbad : ¬ (badAlloc = false ∧ ∀ d ∈ w.inputs ++ w.outputs, d ∈ s.data.container.dataNames)) :
    ∃ t, addWorker (some w) badAlloc s = .error .blocked t := by
  obtain ⟨held, data⟩ := s
  obtain rfl : held = false := hs
  obtain ⟨e, he⟩ := registerWorker_throws (s := ⟨true, data⟩) h hbad
  refine ⟨⟨true, data⟩, ?_⟩
  rw [addWorker, lockGuard, if_neg Bool.false_ne_true]
  simp only
  rw [get_bind, dif_neg h, catchAll_clear_blocked he rfl]

theorem addDataNode_of_badAlloc (hs : s.held = false) {d : DataVertex} {node : DataNode V}
    (h : d.name ∉ s.data.container.dataNames) :
    ∃ t, addDataNode (.data d node) true s = .error .blocked t := by
  obtain ⟨held, data⟩ := s
  obtain rfl : held = false := hs
  have hthrows : registerDataNode data.container d node h true ⟨true, data⟩ =
      .error (.threw .badAlloc) ⟨true, data⟩ := rfl
  refine ⟨⟨true, data⟩, ?_⟩
  rw [addDataNode, lockGuard, if_neg Bool.false_ne_true]
  simp only
  rw [get_bind, dif_neg h, catchAll_clear_blocked hthrows rfl]

theorem addDataNode_ended (hs : s.held = false) {d : DataVertex} {node : DataNode V}
    {badAlloc : Bool} (h : d.name ∈ s.data.container.dataNames ∨ badAlloc = false) :
    Ended false (addDataNode (.data d node) badAlloc s) := by
  obtain ⟨held, data⟩ := s
  obtain rfl : held = false := hs
  rw [addDataNode, lockGuard, if_neg Bool.false_ne_true]
  simp only
  rw [get_bind]
  by_cases hmem : d.name ∈ data.container.dataNames
  · rw [dif_pos hmem]
    rfl
  · obtain rfl := h.resolve_left hmem
    rw [dif_neg hmem]
    rfl

end LockedM

/-! ## Which calls end -/

namespace ContainerCall

open LockedM

variable [DecidableEq V] (topoSort : ExpertContainer.TopologicalSort)
  {s t : Guarded (Contents V)} {call : ContainerCall V}

/-- **A call ends exactly if nothing goes wrong in the middle of a registration**, on a free mutex. -/
theorem callEnds_iff (hs : s.held = false) :
    Ended false (call.perform topoSort s) ↔ Smooth s call := by
  cases call with
  | addDataNode pointer badAlloc =>
    cases pointer with
    | null => exact iff_of_true (frees_lockGuard (keeps_throwUhd _) s hs) trivial
    | worker name => exact iff_of_true (frees_lockGuard (keeps_throwUhd _) s hs) trivial
    | data d node =>
      constructor
      · intro hended
        by_contra hnot
        obtain ⟨hname, hbad⟩ := not_or.mp hnot
        obtain ⟨t, ht⟩ := @addDataNode_of_badAlloc _ s hs d node hname
        rw [perform, Bool.eq_true_of_not_eq_false hbad, ht] at hended
        exact hended
      · exact addDataNode_ended hs
  | addWorker worker badAlloc =>
    cases worker with
    | none => exact iff_of_true (frees_lockGuard (keeps_throwUhd _) s hs) trivial
    | some w =>
      by_cases hname : w.name ∈ s.data.container.workerNames
      · obtain ⟨e, he⟩ := addWorker_of_registered hs badAlloc hname
        rw [perform, he]
        exact iff_of_true hs (Or.inl hname)
      · by_cases hnodes : badAlloc = false ∧
            ∀ d ∈ w.inputs ++ w.outputs, d ∈ s.data.container.dataNames
        · obtain ⟨rfl, hnodes⟩ := hnodes
          rw [perform, addWorker_of_present hs hname hnodes]
          exact iff_of_true rfl (Or.inr ⟨rfl, hnodes⟩)
        · obtain ⟨t, ht⟩ := addWorker_of_missing hs hname hnodes
          rw [perform, ht]
          exact iff_of_false id fun h => (h.resolve_left hname |> hnodes)
  | clear => exact iff_of_true (frees_clear s hs) trivial
  | resolveAll force => exact iff_of_true (frees_resolve topoSort force s hs) trivial
  | resolveFrom name => exact iff_of_true (frees_resolve topoSort false s hs) trivial
  | resolveTo name => exact iff_of_true (frees_resolve topoSort false s hs) trivial
  | commit name value => exact iff_of_true (frees_commit topoSort name value s hs) trivial
  | retrieve name =>
    exact iff_of_true (((frees_retrieve topoSort name).bind fun _ => (keeps_pure _).frees) s hs)
      trivial

theorem wellBehaved_iff_smooth (hs : s.held = false) :
    WellBehaved topoSort s call ↔ Smooth s call := by
  refine ⟨fun h => (callEnds_iff topoSort hs).mp h.ends, fun h =>
    ⟨(callEnds_iff topoSort hs).mpr h, ?_⟩⟩
  rintro ⟨w, badAlloc, rfl, d, hd, hmiss⟩
  rcases h with hname | ⟨-, hnodes⟩
  · obtain ⟨e, he⟩ := addWorker_of_registered hs badAlloc hname
    exact ⟨e, s, he⟩
  · exact absurd (hnodes d hd) hmiss

theorem held_of_step (hsmooth : Smooth s call) (hs : s.held = false)
    (h : step topoSort s call = some t) : t.held = false := by
  have hended := (callEnds_iff topoSort hs).mpr hsmooth
  rw [step] at h
  cases hr : call.perform topoSort s with
  | ok a u =>
    rw [hr] at h hended
    exact Option.some_inj.mp h ▸ hended
  | error stop u =>
    rw [hr] at h hended
    cases stop with
    | threw e => exact Option.some_inj.mp h ▸ hended
    | blocked => exact hended.elim

/-- The call of the same operation, on a container with its mutex. -/
def ofExpertCall : ExpertCall V → ContainerCall V
  | .commit name value => .commit name value
  | .retrieve name => .retrieve name
  | .resolveAll force => .resolveAll force
  | .resolveFrom name => .resolveFrom name
  | .resolveTo name => .resolveTo name

theorem step_of_onNodes (call : ContainerCall V) {x : ExpertM V PUnit}
    (h : call.perform topoSort s = onNodes x s) :
    step topoSort s call =
      some ⟨s.held, s.data.container, Stateful.stateAfter (x s.data.nodes)⟩ := by
  rw [step, h, onNodes]
  cases hx : x s.data.nodes <;> rfl

omit [DecidableEq V] in
theorem stateAfter_discard {α : Type} (x : ExpertM V α) (nodes : DataNodes V) :
    Stateful.stateAfter ((do let _ ← x; pure ⟨⟩ : ExpertM V PUnit) nodes) =
      Stateful.stateAfter (x nodes) := by
  cases hx : x nodes with
  | ok a nodes' =>
    rw [Stateful.bind_of_ok hx]
    rfl
  | error e nodes' =>
    rw [Stateful.bind_of_error hx]
    rfl

theorem step_resolveAll (hs : s.held = false) (force : Bool) :
    step topoSort s (.resolveAll force) = some ⟨false, s.data.container,
      Stateful.stateAfter (s.data.container.resolveAll topoSort force s.data.nodes)⟩ := by
  rw [step_of_onNodes topoSort (.resolveAll force) (resolve_of_free topoSort hs force), hs,
    stateAfter_discard]

theorem perform_retrieve_of_free (hs : s.held = false) (name : String) :
    (retrieve (V := V) name).perform topoSort s =
      onNodes (do let _ ← s.data.container.retrieve topoSort name; pure ⟨⟩) s := by
  have hretrieve := retrieve_of_free topoSort hs name
  rw [perform, onNodes]
  cases hr : s.data.container.retrieve topoSort name s.data.nodes with
  | ok value nodes =>
    rw [onNodes, hr] at hretrieve
    rw [Stateful.bind_of_ok hretrieve, Stateful.bind_of_ok hr]
    rfl
  | error e nodes =>
    rw [onNodes, hr] at hretrieve
    rw [Stateful.bind_of_error hretrieve, Stateful.bind_of_error hr]

theorem step_ofExpertCall (hs : s.held = false) (call : ExpertCall V) :
    step topoSort s (ofExpertCall call) =
      some ⟨false, s.data.container, call.perform topoSort s.data.container s.data.nodes⟩ := by
  cases call with
  | commit name value =>
    rw [ofExpertCall, step_of_onNodes topoSort (.commit name value)
      (commit_of_free topoSort hs name value), hs]
    rfl
  | retrieve name =>
    rw [ofExpertCall, step_of_onNodes topoSort (.retrieve name)
      (perform_retrieve_of_free topoSort hs name), hs, stateAfter_discard]
    rfl
  | resolveAll force => exact step_resolveAll topoSort hs force
  | resolveFrom name => exact step_resolveAll topoSort hs false
  | resolveTo name => exact step_resolveAll topoSort hs false

/-- **The mutex never blocks what registers nothing**, in whatever order: after any writes and
reads of properties and any resolutions, whether they return or throw, the mutex is free again, and
the container has the nodes that the same calls lead to without a mutex. -/
theorem run_ofExpertCall (hs : s.held = false) (calls : List (ExpertCall V)) :
    Transition.run (step topoSort) s (calls.map ofExpertCall) =
      some ⟨false, s.data.container,
        calls.foldl (ExpertCall.perform topoSort s.data.container) s.data.nodes⟩ := by
  induction calls generalizing s with
  | nil =>
    obtain ⟨held, container, nodes⟩ := s
    obtain rfl : held = false := hs
    rfl
  | cons call calls ih =>
    rw [List.map_cons, Transition.run_cons, step_ofExpertCall topoSort hs call, Option.bind_some,
      ih (s := ⟨false, s.data.container, _⟩) rfl, List.foldl_cons]

/-- A container with a property that is resolved whenever it is written, or read. -/
def gainContainer : ExpertContainer ℕ :=
  (ExpertContainer.empty ℕ).insertDataNode ⟨"gain", true, true, true⟩ List.not_mem_nil

theorem run_ofExpertCall_gain : ∃ s,
    Transition.run (step fun vertices _ => some vertices)
        ⟨false, gainContainer, fun _ => ⟨0, false, .none⟩⟩
        ([ExpertCall.commit "gain" 5, .retrieve "gain"].map ofExpertCall) = some s ∧
      s.held = false ∧ (s.data.nodes "gain").data = 5 :=
  ⟨_, run_ofExpertCall _ rfl [.commit "gain" 5, .retrieve "gain"], rfl, by rfl⟩

/-- The container as it is made. -/
def fresh (nodes : DataNodes V) : Guarded (Contents V) := ⟨false, ⟨.empty V, nodes⟩⟩

/-- **All calls of a run are well behaved exactly if nothing goes wrong in the middle of a
registration.**  In every run from a fresh container: every call ends, none locks the mutex a second
time, and a worker that misses a data node is refused with an exception, if and only if no call to
register a worker of a new name misses a data node of the worker, and none that registers a node runs
out of memory. -/
theorem everyCall_wellBehaved_iff (nodes : DataNodes V) (calls : List (ContainerCall V)) :
    Transition.EveryStep (step topoSort) (WellBehaved topoSort) (fresh nodes) calls ↔
      Transition.EveryStep (step topoSort) Smooth (fresh nodes) calls := by
  have hall : ∀ s : Guarded (Contents V), s.held = false →
      (Transition.EveryStep (step topoSort) (WellBehaved topoSort) s calls ↔
        Transition.EveryStep (step topoSort) Smooth s calls) := by
    induction calls with
    | nil => exact fun s _ => Iff.rfl
    | cons call calls ih =>
      intro s hs
      rw [Transition.everyStep_cons, Transition.everyStep_cons, wellBehaved_iff_smooth topoSort hs]
      refine and_congr_right fun hsmooth => forall_congr' fun t => forall_congr' fun ht => ?_
      exact ih t (held_of_step topoSort hsmooth hs ht)
  exact hall (fresh nodes) rfl

/-- A worker that reads a data node which another container has. -/
theorem missing_input_blocks : ¬ WellBehaved (V := ℕ) (fun _ _ => none)
    (fresh fun _ => ⟨0, true, .none⟩)
    (.addWorker (some ⟨⟨["freq"], [], fun _ => []⟩, "tune"⟩) false) := by
  rw [wellBehaved_iff_smooth _ rfl]
  simp [Smooth, fresh, ExpertContainer.empty, ExpertContainer.workerNames,
    ExpertContainer.dataNames]

end ContainerCall
end Experts
end UhdHost
