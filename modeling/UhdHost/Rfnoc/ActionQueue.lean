import UhdHost.Rfnoc.Graph

/-!
# The queue of actions

`enqueue_action`, `sync_actions`, `_action_handler`, `_process_action_queue` and `_process_action` of
`graph_t::impl`: how the actions that nodes and users post get to their recipients.

Everybody may enqueue actions at any time.  A thread of the graph, the action handler, waits for
actions and then takes them from the queue one after the other and delivers them, until the queue
is empty or 200 actions were taken.  While it delivers an action, the recipient may post further
actions, and it may throw.  An exception ends the handling; it is saved, and the action handler goes
back to waiting.  A synchronous call waits until the queue is empty and nothing is being handled,
and then throws the saved exception, if there is one.

The threads are interleaved: a step is what one of them does while it holds the lock of the queue,
or one of the changes that it makes to the other variables.  What the handlers of the nodes do is up to
them, so all of it is a step.  The graph does not change; it is committed or not.

The fields under *history* are no variables of the source.  They keep what happened: every action
has the number of the user's call from which it stems, which is what a *cascade* is.
-/

namespace UhdHost
namespace Rfnoc
namespace Actions

variable {ν α : Type}

/-! ## Actions and their recipients -/

/-- `action_tuple_t`, with the number of the call from which the action stems. -/
structure Entry (ν α : Type) where
  srcNode : ν
  srcEdge : ResSourceInfo
  action : α
  call : ℕ
  deriving DecidableEq

/-- What `_process_action` finds out: who receives the action, and on which port. -/
def recipient (g : RfnocGraph ν) (srcNode : ν) (srcEdge : ResSourceInfo) :
    Except UhdError (Option (ν × ResSourceInfo)) :=
  if srcEdge.type = .user then .ok (some (srcNode, srcEdge))
  else
    match g.nodeMap srcNode with
    | none => .error .outOfRange
    | some origin =>
      if srcEdge.type = .framework then .error (.systemError "invalid code path")
      else
        match g.findNeighbour origin srcEdge with
        | none => .ok none
        | some (recipientNode, edgeInfo) =>
          .ok (some (recipientNode,
            { type := srcEdge.type.inverted
              inst := if srcEdge.type = .inputEdge then edgeInfo.srcPort else edgeInfo.dstPort }))

/-- The action has a recipient. -/
def hasRecipient (g : RfnocGraph ν) (e : Entry ν α) : Bool :=
  match recipient g e.srcNode e.srcEdge with
  | .ok (some _) => true
  | _ => false

/-! ## The state -/

/-- Where the action handler is. -/
inductive HandlerPhase (ν α : Type) where
  /-- in `_action_handler`, about to wait for actions or for the graph's mutex -/
  | waiting
  /-- at the head of the loop of `_process_action_queue`, with `iteration_count` -/
  | looping (iterationCount : ℕ)
  /-- in the handler of a node -/
  | handling (iterationCount : ℕ) (e : Entry ν α)
  /-- back in `_action_handler`, where the flag is still to be reset -/
  | leaving
  | terminated
  deriving DecidableEq

/-- A synchronous call that waits in `sync_actions`. -/
structure SyncCall where
  call : ℕ
  /-- Whether no action was pending when the call was made. -/
  madeIdle : Bool
  deriving DecidableEq, Repr

/-- An action was delivered. -/
structure Delivery (ν α : Type) where
  entry : Entry ν α
  recipientNode : ν
  recipientPort : ResSourceInfo
  deriving DecidableEq

/-- An exception came up while an action was processed. -/
structure Thrown where
  call : ℕ
  /-- By the handler of a node, and not by the graph. -/
  byHandler : Bool
  error : UhdError
  deriving DecidableEq

/-- A synchronous call returned. -/
structure SyncResult where
  sync : SyncCall
  /-- The exception that was thrown out of the call. -/
  reported : Option UhdError
  /-- What had come up until then, in any cascade. -/
  thrownBefore : List Thrown
  /-- Whether the call returned because the graph was shut down. -/
  shutDown : Bool
  deriving DecidableEq

/-- The action-related variables of `graph_t::impl`. -/
structure State (ν α : Type) where
  queue : List (Entry ν α) := []
  processing : Bool := false
  eptr : Option UhdError := none
  shutdown : Bool := false
  phase : HandlerPhase ν α := .waiting
  waiting : List SyncCall := []
  -- history
  numCalls : ℕ := 0
  enqueued : List (Entry ν α) := []
  delivered : List (Delivery ν α) := []
  dropped : List (Entry ν α) := []
  thrown : List Thrown := []
  returned : List SyncResult := []
  deriving DecidableEq

/-- `MAX_ACTION_ITERATIONS` -/
def maxActionIterations : ℕ := 200

/-! ## Steps -/

/-- What a thread does. -/
inductive Step (ν α : Type) where
  /-- A user's thread calls `enqueue_action`. -/
  | enqueueAction (srcNode : ν) (srcEdge : ResSourceInfo) (action : α) (sync : Bool)
  /-- A user's thread leaves `sync_actions`. -/
  | syncReturns (sync : SyncCall)
  /-- The action handler has the graph's mutex, and begins to process the queue. -/
  | wake
  /-- The action handler goes once through the loop, up to where a node's handler is called. -/
  | iterate
  /-- The node's handler calls `enqueue_action`. -/
  | post (srcNode : ν) (srcEdge : ResSourceInfo) (action : α)
  | handlerReturns
  | handlerThrows (error : UhdError)
  /-- The action handler resets its flag. -/
  | leave
  | shutdown
  deriving DecidableEq

namespace State

/-- The body of the loop of `_process_action_queue`. -/
def iterate (g : RfnocGraph ν) (s : State ν α) (iterationCount : ℕ) : State ν α :=
  match s.queue with
  | [] => { s with phase := .leaving }
  | nextAction :: rest =>
    if s.shutdown then { s with phase := .leaving }
    else if iterationCount = maxActionIterations then
      { s with queue := [], phase := .leaving, dropped := s.dropped ++ s.queue }
    else if g.releaseCount ≠ 0 then
      -- action propagation is not enabled
      { s with queue := rest, phase := .looping (iterationCount + 1) }
    else
      match recipient g nextAction.srcNode nextAction.srcEdge with
      | .error e =>
        { s with
          queue := rest, phase := .leaving, eptr := some e
          thrown := s.thrown ++ [⟨nextAction.call, false, e⟩] }
      | .ok none => { s with queue := rest, phase := .looping (iterationCount + 1) }
      | .ok (some (recipientNode, recipientPort)) =>
        { s with
          queue := rest, phase := .handling (iterationCount + 1) nextAction
          delivered := s.delivered ++ [⟨nextAction, recipientNode, recipientPort⟩] }

/-- No action is pending. -/
def idle (s : State ν α) : Bool := s.queue.isEmpty && !s.processing

/-- `enqueue_action`, called by a user's thread, up to where it waits. -/
def enqueueAction (s : State ν α) (srcNode : ν) (srcEdge : ResSourceInfo) (action : α)
    (sync : Bool) : State ν α :=
  if s.shutdown then s
  else
    { s with
      queue := s.queue ++ [⟨srcNode, srcEdge, action, s.numCalls⟩]
      waiting := if sync then s.waiting ++ [⟨s.numCalls, s.idle⟩] else s.waiting
      numCalls := s.numCalls + 1
      enqueued := s.enqueued ++ [⟨srcNode, srcEdge, action, s.numCalls⟩] }

/-- The end of `sync_actions`, where its condition holds. -/
def syncReturns (s : State ν α) (sync : SyncCall) : Option (State ν α) :=
  if sync ∈ s.waiting ∧ (s.idle = true ∨ s.shutdown = true) then
    some { s with
      waiting := s.waiting.filter (· ≠ sync)
      returned := s.returned ++ [⟨sync, s.eptr, s.thrown, s.shutdown⟩] }
  else none

/-- `_action_handler` stops waiting. -/
def wake (s : State ν α) : Option (State ν α) :=
  match s.phase with
  | .waiting =>
    if s.shutdown then some { s with phase := .terminated }
    else if s.queue.isEmpty then none
    else some { s with phase := .looping 0, processing := true }
  | _ => none

/-- `enqueue_action`, called by the handler that runs; the action handler itself never waits. -/
def post (s : State ν α) (srcNode : ν) (srcEdge : ResSourceInfo) (action : α) :
    Option (State ν α) :=
  match s.phase with
  | .handling _ current =>
    if s.shutdown then some s
    else
      some { s with
        queue := s.queue ++ [⟨srcNode, srcEdge, action, current.call⟩]
        enqueued := s.enqueued ++ [⟨srcNode, srcEdge, action, current.call⟩] }
  | _ => none

def handlerReturns (s : State ν α) : Option (State ν α) :=
  match s.phase with
  | .handling iterationCount _ => some { s with phase := .looping iterationCount }
  | _ => none

/-- The exception is caught in `_action_handler`. -/
def handlerThrows (s : State ν α) (error : UhdError) : Option (State ν α) :=
  match s.phase with
  | .handling _ current =>
    some { s with
      phase := .leaving
      eptr := some error
      thrown := s.thrown ++ [⟨current.call, true, error⟩] }
  | _ => none

/-- The end of the loop of `_action_handler`. -/
def leave (s : State ν α) : Option (State ν α) :=
  match s.phase with
  | .leaving => some { s with phase := .waiting, processing := false }
  | _ => none

/-- What a step makes of the state, where the thread can take it. -/
def step (g : RfnocGraph ν) (s : State ν α) : Step ν α → Option (State ν α)
  | .enqueueAction srcNode srcEdge action sync =>
    some (s.enqueueAction srcNode srcEdge action sync)
  | .syncReturns sync => s.syncReturns sync
  | .wake => s.wake
  | .iterate =>
    match s.phase with
    | .looping iterationCount => some (s.iterate g iterationCount)
    | _ => none
  | .post srcNode srcEdge action => s.post srcNode srcEdge action
  | .handlerReturns => s.handlerReturns
  | .handlerThrows error => s.handlerThrows error
  | .leave => s.leave
  | .shutdown => some { s with shutdown := true }

end State

end Actions
end Rfnoc
end UhdHost
