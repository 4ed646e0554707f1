import UhdHost.Library.QueueFamily
import UhdHost.Library.Transition

/-!
# The receive multiplexer of the inline I/O service

`inline_recv_mux` of `lib/transport/inline_io_service.cpp`: several clients share one receive
link, and whoever calls takes frames from the link and offers each one to the registered
callbacks in turn.

## Callbacks

A callback answers with one of the three things its documentation allows: the frame is not
for this client and stays where it is, it is kept for the client, or the callback has
released it to the link.  The answers are part of the action, so a callback may have any
state.  What a callback answers when it is called without a frame is part of the action too.
A client that sends must release a frame that is for it; that is a guard of the step
(`Arrival.Conforms`), with `sends` telling the two kinds of clients apart.

## One thread

Calls do not overlap.  `recv` and `flowCtrl` enter `recv` and `recv_flow_ctrl`, `arrive` is
one pass of the loop inside for which the link has a frame, and `timeout` one for which it has
none.

## Frames

Frames are numbered in the order in which they are taken from the link.  `owners` records,
for each of them, the first registered callback that accepts it; `ended`, `held`,
`overwritten` and `nullCalls` record what happened.  The link has `numRecvFrames` frames and
cannot deliver one while all of them are queued or held.
-/

namespace UhdHost
namespace Transport

open QueueFamily Transition

/-- What a callback does with a frame. -/
inductive CallbackAnswer where
  /-- The callback returns false and leaves the frame alone. -/
  | notMine
  /-- The callback returns true and leaves the frame to be returned to its client. -/
  | keep
  /-- The callback returns true and has released the frame to the link. -/
  | consume
  deriving DecidableEq, Repr

/-- A frame that arrives on the link, as the callbacks see it. -/
structure Arrival (κ : Type) where
  answer : κ → CallbackAnswer
  /-- What each callback returns if it is called without a frame. -/
  nullAnswer : κ → Bool := fun _ => false

variable {κ : Type}

/-- The link and the kinds of the clients. -/
structure MuxConfig (κ : Type) where
  /-- `get_num_recv_frames` of the link -/
  numRecvFrames : ℕ
  /-- Whether a client is a send client. -/
  sends : κ → Bool

/-- The callbacks of send clients release the frames that are for them. -/
def Arrival.Conforms (a : Arrival κ) (cfg : MuxConfig κ) (callbacks : List κ) : Prop :=
  ∀ k ∈ callbacks, cfg.sends k = true → a.answer k ≠ .keep

instance (a : Arrival κ) (cfg : MuxConfig κ) (callbacks : List κ) :
    Decidable (a.Conforms cfg callbacks) :=
  inferInstanceAs (Decidable (∀ k ∈ callbacks, cfg.sends k = true → a.answer k ≠ .keep))

/-- The first callback that accepts a frame. -/
def Arrival.owner (a : Arrival κ) (callbacks : List κ) : Option κ :=
  callbacks.find? fun k => a.answer k ≠ .notMine

theorem Arrival.owner_cons_of_notMine (a : Arrival κ) {k : κ} (h : a.answer k = .notMine)
    (callbacks : List κ) : a.owner (k :: callbacks) = a.owner callbacks := by
  simp [Arrival.owner, h]

theorem Arrival.owner_cons_of_accepts (a : Arrival κ) {k : κ} (h : a.answer k ≠ .notMine)
    (callbacks : List κ) : a.owner (k :: callbacks) = some k := by
  simp [Arrival.owner, h]

/-- Where a frame goes. -/
inductive Place (κ : Type) where
  /-- To the client that asked. -/
  | returned (k : κ)
  /-- Into the queue of another client. -/
  | queued (k : κ)
  /-- To the link, by the callback it was for. -/
  | consumed (k : κ)
  /-- To the link, by `disconnect`. -/
  | flushed (k : κ)
  /-- To the link, because no callback accepted it. -/
  | released
  /-- Nowhere: a smart pointer that still owned it was dropped. -/
  | destroyed (k : κ)
  deriving DecidableEq, Repr

/-- The client a place belongs to. -/
def Place.owner : Place κ → Option κ
  | .returned k | .queued k | .consumed k | .flushed k | .destroyed k => some k
  | .released => none

/-- The result of offering one frame to the callbacks: where it went, which callbacks were
called without a frame, and whether the call returns. -/
structure Dispatched (κ : Type) where
  place : Place κ
  nullCalls : List κ := []
  returns : Bool := false
  deriving DecidableEq, Repr

variable [DecidableEq κ]

/-- The loop over the callbacks in `recv`, called by `cb`. -/
def recvDispatch (cb : κ) (a : Arrival κ) : List κ → Dispatched κ
  | [] => { place := .released }
  | rcvr :: rest =>
    match a.answer rcvr with
    | .notMine => recvDispatch cb a rest
    | .consume => { place := .consumed rcvr }
    | .keep =>
      if rcvr = cb then { place := .returned rcvr, returns := true }
      else { place := .queued rcvr }

/-- The loop over the callbacks in `recv_flow_ctrl` once the frame was moved into a queue: the
remaining callbacks are called without it, until one returns true. -/
def offerNull (cb : κ) (a : Arrival κ) : List κ → List κ × Bool
  | [] => ([], false)
  | rcvr :: rest =>
    if a.nullAnswer rcvr then ([rcvr], rcvr = cb)
    else (rcvr :: (offerNull cb a rest).1, (offerNull cb a rest).2)

/-- The loop over the callbacks in `recv_flow_ctrl`, called by `cb`.  Only a frame that was
consumed ends it; after a frame was queued it goes on. -/
def flowCtrlDispatch (cb : κ) (a : Arrival κ) : List κ → Dispatched κ
  | [] => { place := .released }
  | rcvr :: rest =>
    match a.answer rcvr with
    | .notMine => flowCtrlDispatch cb a rest
    | .consume => { place := .consumed rcvr, returns := rcvr = cb }
    | .keep =>
      if rcvr = cb then
        -- `assert(!buff)`: the caller's callback must have released the frame
        { place := .destroyed rcvr, returns := true }
      else
        { place := .queued rcvr
          nullCalls := (offerNull cb a rest).1
          returns := (offerNull cb a rest).2 }

/-- `push_back` of a circular buffer with a capacity: the queue and what it no longer holds. -/
def pushBack (capacity : ℕ) (q : List ℕ) (frame : ℕ) : List ℕ × List ℕ :=
  if q.length < capacity then (q ++ [frame], [])
  else match q with
    | [] => ([], [frame])
    | oldest :: rest => (rest ++ [frame], [oldest])

/-- The call that is in progress. -/
inductive MuxCall (κ : Type) where
  | recv (cb : κ)
  | flowCtrl (cb : κ)
  deriving DecidableEq, Repr

/-- `inline_recv_mux`, the call in progress and what happened so far. -/
structure InlineRecvMux (κ : Type) where
  /-- `_callbacks` -/
  callbacks : List κ := []
  /-- `_queues` -/
  queues : κ → List ℕ := fun _ => []
  call : Option (MuxCall κ) := none
  /-- For each frame taken from the link, the client it is for. -/
  owners : List (Option κ) := []
  /-- Frames the clients have not released yet. -/
  held : List ℕ := []
  /-- Where the frames went that are in no queue any more, in that order. -/
  ended : List (Place κ × ℕ) := []
  /-- Frames a full queue no longer holds. -/
  overwritten : List ℕ := []
  nullCalls : List κ := []

/-- What can happen next. -/
inductive MuxAction (κ : Type) where
  | connect (cb : κ)
  | disconnect (cb : κ)
  | recv (cb : κ)
  | flowCtrl (cb : κ)
  | arrive (a : Arrival κ)
  | timeout
  | release (frame : ℕ)

namespace InlineRecvMux

/-- Everything that waits in a queue. -/
def queued (m : InlineRecvMux κ) : List ℕ := pooled m.callbacks m.queues

/-- Put a frame where it goes. -/
def place (cfg : MuxConfig κ) (m : InlineRecvMux κ) (frame : ℕ) : Place κ → InlineRecvMux κ
  | .queued k =>
    let r := pushBack cfg.numRecvFrames (m.queues k) frame
    { m with
      queues := Function.update m.queues k r.1
      overwritten := m.overwritten ++ r.2 }
  | .returned k =>
    { m with ended := m.ended ++ [(.returned k, frame)], held := m.held ++ [frame] }
  | p => { m with ended := m.ended ++ [(p, frame)] }

/-- The dispatch loop of the call in progress. -/
def dispatch (call : MuxCall κ) (a : Arrival κ) (callbacks : List κ) : Dispatched κ :=
  match call with
  | .recv cb => recvDispatch cb a callbacks
  | .flowCtrl cb => flowCtrlDispatch cb a callbacks

/-- One pass of the loop of a call with a frame from the link. -/
def arrive (cfg : MuxConfig κ) (m : InlineRecvMux κ) (call : MuxCall κ) (a : Arrival κ) :
    InlineRecvMux κ :=
  let d := dispatch call a m.callbacks
  { m.place cfg m.owners.length d.place with
    owners := m.owners ++ [a.owner m.callbacks]
    nullCalls := m.nullCalls ++ d.nullCalls
    call := if d.returns then none else some call }

/-- One step. -/
def step (cfg : MuxConfig κ) (m : InlineRecvMux κ) : MuxAction κ → Option (InlineRecvMux κ)
  | .connect cb =>
    if m.call = none ∧ cb ∉ m.callbacks then
      some { m with
        callbacks := m.callbacks ++ [cb]
        queues := Function.update m.queues cb [] }
    else none
  | .disconnect cb =>
    if m.call = none ∧ cb ∈ m.callbacks then
      some { m with
        callbacks := m.callbacks.erase cb
        queues := Function.update m.queues cb []
        ended := m.ended ++ (m.queues cb).map fun frame => (.flushed cb, frame) }
    else none
  | .recv cb =>
    if m.call = none ∧ cb ∈ m.callbacks ∧ cfg.sends cb = false then
      match m.queues cb with
      | [] => some { m with call := some (.recv cb) }
      | frame :: rest =>
        some { m with
          queues := Function.update m.queues cb rest
          ended := m.ended ++ [(.returned cb, frame)]
          held := m.held ++ [frame] }
    else none
  | .flowCtrl cb =>
    if m.call = none ∧ cb ∈ m.callbacks ∧ cfg.sends cb = true then
      some { m with call := some (.flowCtrl cb) }
    else none
  | .arrive a =>
    match m.call with
    | some call =>
      if m.queued.length + m.held.length < cfg.numRecvFrames ∧ a.Conforms cfg m.callbacks then
        some (m.arrive cfg call a)
      else none
    | none => none
  | .timeout => if m.call.isSome then some { m with call := none } else none
  | .release frame =>
    if frame ∈ m.held then some { m with held := m.held.erase frame } else none

end InlineRecvMux
end Transport
end UhdHost
