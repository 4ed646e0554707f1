import UhdHost.Library.RingBuffer

/-!
# One client of the offload I/O service

`lib/transport/offload_io_service.cpp` and `uhdlib/transport/offload_io_service_client.hpp`,
for one client: its port with the two fixed-size queues, what the service thread keeps about
it, and what the client keeps itself.

## Where a frame can be

The service thread gets a frame from the inline I/O service, which stands for the link here,
pushes it into the queue to the client, and counts it.  The client pops it, uses it and pushes
it into the queue back.  The service thread takes it from there, releases it to the link, and
counts it off.  A receive client's frame is popped before it is released.  A send client's
frame stays at the head of the queue until the destination is ready and is popped after it was
released.  `Work` is where the service thread stands in between, so that the client may move
at any point.

Frames are numbered, per client, in the order in which they are taken from the link; `taken`
and `released` record what went out and came back.

## Disconnecting

The client's destructor asserts that the client holds no frame, pushes a disconnect request
behind the frames it released, and waits.  The service thread reaches the request after those
frames, gives back what is left in the other queue, and lets the client go.
-/

namespace UhdHost
namespace Transport

/-- `to_offload_thread_t` -/
structure ToOffload where
  buff : Option ℕ := none
  disconnect : Bool := false
  deriving DecidableEq, Repr

/-- A frame on its way back. -/
def frameItem (frame : ℕ) : ToOffload := { buff := some frame }

/-- The request to disconnect. -/
def disconnectItem : ToOffload := { disconnect := true }

/-- Where the service thread stands with a client. -/
inductive Work where
  | idle
  /-- Holding a frame from the link that is to be pushed. -/
  | got (frame : ℕ)
  /-- The frame was pushed and is to be counted. -/
  | pushed
  /-- About to release a frame.  A frame that was only peeked at is still in the queue. -/
  | toRelease (frame : ℕ) (peeked : Bool)
  /-- The frame was released and is to be counted off. -/
  | released (peeked : Bool)
  /-- The frame was counted off and its entry is to be popped. -/
  | popHead
  /-- Disconnecting, with so many frames given back. -/
  | flushing (count : ℕ)
  deriving DecidableEq, Repr

/-- Where the client stands. -/
inductive ClientPhase where
  | absent
  /-- The request to create the client is queued. -/
  | requested
  /-- The service thread has created the client. -/
  | connected
  | opened
  /-- Waiting for the disconnect to occur. -/
  | leaving
  | closed
  deriving DecidableEq, Repr

/-- A client, its port and what the service thread keeps about it. -/
structure OffloadClient where
  /-- A send client, or a receive client. -/
  sends : Bool := false
  /-- The number of frames reserved for it. -/
  numFrames : ℕ := 0
  /-- `_from_offload_thread` -/
  fromOffloadThread : RingBuffer ℕ := RingBuffer.empty 0 0
  /-- `_to_offload_thread`: one more for the disconnect request -/
  toOffloadThread : RingBuffer ToOffload := RingBuffer.empty 1 {}
  /-- `_connected` -/
  connected : Bool := false
  /-- Whether it is in the list of the service thread. -/
  listed : Bool := false
  /-- `num_frames_in_use` of the service thread -/
  numFramesInUse : ℕ := 0
  work : Work := .idle
  phase : ClientPhase := .absent
  /-- Frames in the hands of the client. -/
  held : List ℕ := []
  /-- `_num_frames_in_use` of the client -/
  clientFramesInUse : ℕ := 0
  taken : ℕ := 0
  released : List ℕ := []

/-- What can happen next with one client. -/
inductive OffloadAction where
  /-- `make_recv_client`, `make_send_client` up to the queued request. -/
  | create (sends : Bool) (numFrames : ℕ)
  /-- The service thread executes the request. -/
  | connect
  /-- `make_recv_client`, `make_send_client` return. -/
  | opened
  /-- `_get_recv_buff`, `_get_send_buff`, up to the frame the link may have. -/
  | getFrame (linkHasFrame : Bool)
  /-- The service thread looks at the queue from the client. -/
  | takeRequest (destReady : Bool)
  /-- The service thread goes on with what it was doing. -/
  | proceed
  /-- `get_recv_buff`, `get_send_buff` of the client. -/
  | getBuff
  /-- `release_recv_buff`, `release_send_buff` of the client. -/
  | releaseBuff (frame : ℕ)
  /-- The destructor of the client, up to the wait. -/
  | disconnect
  /-- The wait in the destructor ends. -/
  | disconnected
  deriving DecidableEq, Repr

/-- What the service thread does for a client. -/
def OffloadAction.ofServiceThread : OffloadAction → Bool
  | .getFrame _ | .takeRequest _ | .proceed => true
  | _ => false

/-- What happens through a request only. -/
def OffloadAction.ofRequest : OffloadAction → Bool
  | .create _ _ | .connect => true
  | _ => false

namespace OffloadClient

/-- `client_port_impl_t(num_frames)` -/
def create (sends : Bool) (numFrames : ℕ) : OffloadClient where
  sends := sends
  numFrames := numFrames
  fromOffloadThread := RingBuffer.empty numFrames 0
  toOffloadThread := RingBuffer.empty (numFrames + 1) {}
  phase := .requested

/-- Give a frame back to the link. -/
def release (p : OffloadClient) (frame : ℕ) : OffloadClient :=
  { p with released := p.released ++ [frame] }

/-- Look at the queue from a receive client: `offload_thread_pop`. -/
def takeRecvRequest (p : OffloadClient) : OffloadClient :=
  match p.toOffloadThread.pop with
  | none => p
  | some (item, rest) =>
    match item.buff with
    | some frame => { p with toOffloadThread := rest, work := .toRelease frame false }
    | none =>
      if item.disconnect then { p with toOffloadThread := rest, work := .flushing 0 }
      else { p with toOffloadThread := rest }

/-- Look at the queue from a send client: `offload_thread_peek`, and `offload_thread_pop` for
a request to disconnect. -/
def takeSendRequest (p : OffloadClient) (destReady : Bool) : OffloadClient :=
  match p.toOffloadThread.peek with
  | none => p
  | some item =>
    match item.buff with
    | some frame => if destReady then { p with work := .toRelease frame true } else p
    | none =>
      if item.disconnect then
        match p.toOffloadThread.pop with
        | some (_, rest) => { p with toOffloadThread := rest, work := .flushing 0 }
        | none => p
      else p

/-- The service thread goes on: the rest of `_get_recv_buff` and `_get_send_buff`,
`_release_recv_buff` and `_release_send_buff`, and of `_disconnect_recv_client` and
`_disconnect_send_client`. -/
def proceed (p : OffloadClient) : Work → Option OffloadClient
  | .idle => none
  | .got frame =>
    some { p with fromOffloadThread := p.fromOffloadThread.push frame, work := .pushed }
  | .pushed => some { p with numFramesInUse := p.numFramesInUse + 1, work := .idle }
  | .toRelease frame peeked => some { p.release frame with work := .released peeked }
  | .released peeked =>
    some { p with
      numFramesInUse := p.numFramesInUse - 1
      work := if peeked then .popHead else .idle }
  | .popHead =>
    match p.toOffloadThread.pop with
    | some (_, rest) => some { p with toOffloadThread := rest, work := .idle }
    | none => some { p with work := .idle }
  | .flushing count =>
    match p.fromOffloadThread.pop with
    | some (frame, rest) =>
      some { p.release frame with fromOffloadThread := rest, work := .flushing (count + 1) }
    | none =>
      some { p with
        numFramesInUse := p.numFramesInUse - count
        connected := false
        listed := false
        work := .idle }

/-- One step of the client or of the service thread with the client. -/
def step (p : OffloadClient) : OffloadAction → Option OffloadClient
  | .create sends numFrames =>
    -- a request for no frames throws in the service thread
    if p.phase = .absent ∧ 0 < numFrames then some (create sends numFrames) else none
  | .connect =>
    if p.phase = .requested then
      some { p with listed := true, connected := true, numFramesInUse := 0, phase := .connected }
    else none
  | .opened =>
    if p.phase = .connected ∧ p.connected = true ∧
        (p.sends = true → p.fromOffloadThread.count = p.numFrames) then
      some { p with phase := .opened }
    else none
  | .getFrame linkHasFrame =>
    if p.listed = true ∧ p.work = .idle then
      if p.numFramesInUse < p.numFrames ∧ linkHasFrame = true then
        some { p with taken := p.taken + 1, work := .got p.taken }
      else some p
    else none
  | .takeRequest destReady =>
    if p.listed = true ∧ p.work = .idle then
      some (if p.sends then p.takeSendRequest destReady else p.takeRecvRequest)
    else none
  | .proceed => p.proceed p.work
  | .getBuff =>
    if p.phase = .opened then
      match p.fromOffloadThread.pop with
      | some (frame, rest) =>
        some { p with
          fromOffloadThread := rest
          held := p.held ++ [frame]
          clientFramesInUse := p.clientFramesInUse + 1 }
      | none => some p
    else none
  | .releaseBuff frame =>
    if p.phase = .opened ∧ frame ∈ p.held then
      some { p with
        toOffloadThread := p.toOffloadThread.push (frameItem frame)
        held := p.held.erase frame
        clientFramesInUse := p.clientFramesInUse - 1 }
    else none
  | .disconnect =>
    -- `assert(_num_frames_in_use == 0)`
    if p.phase = .opened ∧ p.clientFramesInUse = 0 then
      some { p with
        toOffloadThread := p.toOffloadThread.push disconnectItem
        phase := .leaving }
    else none
  | .disconnected =>
    if p.phase = .leaving ∧ p.connected = false then some { p with phase := .closed } else none

end OffloadClient
end Transport
end UhdHost
