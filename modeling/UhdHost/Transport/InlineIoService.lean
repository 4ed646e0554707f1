import UhdHost.Library.Stateful
import UhdHost.Transport.FrameReservations
import UhdHost.Transport.InlineRecvMux

/-!
# The inline I/O service

`inline_io_service` of `lib/transport/inline_io_service.cpp`: links are attached and detached, and
clients that receive from a link, or that observe flow control on it, are made and destroyed.  The
service registers the callback of a client for its receive link, in one of two forms: alone, or in a
multiplexer (`InlineRecvMux`) once there has been a second one.

## Failed calls

A client is an object of its own before it is registered.  If registering it throws, the object is
destroyed on the way out, and its destructor asks the service to disconnect it.  An exception in a
destructor ends the process.

## Where the registered callbacks go wrong

`disconnect_receiver` takes a callback out of a multiplexer, but a callback that is registered alone
stays when its client is destroyed.  And it makes an entry for a link that has none, so that the
link cannot be attached any more.

## What is left out

The frames; the service keeps no reservations (`FrameReservations` is about the class that does).
-/

namespace UhdHost
namespace Transport

open Transition

/-- `inline_recv_io` or `inline_send_io`, by its address. -/
structure InlineClient (ρ κ : Type) where
  address : κ
  /-- Whether it is an `inline_send_io`. -/
  sends : Bool
  /-- The link that it is connected to as a receiver, with `_num_recv_frames`. -/
  recv : Option (ρ × ℕ)
  deriving DecidableEq

/-- An entry of `_recv_tbl`. -/
structure ReceiverEntry (κ : Type) where
  mux : Option (InlineRecvMux κ) := none
  rcvr : Option κ := none

/-- The callbacks that an entry holds. -/
def ReceiverEntry.callbacks {κ : Type} (entry : ReceiverEntry κ) : List κ :=
  (entry.mux.map InlineRecvMux.callbacks).getD [] ++ entry.rcvr.toList

/-- `inline_io_service`, with the clients that are alive. -/
structure InlineIoService (ρ τ κ : Type) where
  /-- `_recv_tbl` -/
  recvTbl : ρ → Option (ReceiverEntry κ) := fun _ => none
  /-- `_recv_links` -/
  recvLinks : List ρ := []
  /-- `_send_links` -/
  sendLinks : List τ := []
  clients : List (InlineClient ρ κ) := []
  /-- An exception has left a destructor. -/
  terminated : Bool := false

/-- The arguments of `make_recv_client`, and where the client is allocated. -/
structure RecvClientArgs (ρ τ κ : Type) where
  address : κ
  dataLink : Option ρ
  numRecvFrames : ℕ
  /-- Whether there is a callback. -/
  cb : Bool := true
  fcLink : Option τ := none
  numSendFrames : ℕ := 0
  fcCb : Bool := true
  deriving DecidableEq

/-- The arguments of `make_send_client`, and where the client is allocated. -/
structure SendClientArgs (ρ τ κ : Type) where
  address : κ
  sendLink : Option τ
  numSendFrames : ℕ
  sendCb : Bool := true
  recvLink : Option ρ := none
  numRecvFrames : ℕ := 0
  recvCb : Bool := true
  fcCb : Bool := true
  deriving DecidableEq

/-- `UHD_ASSERT_THROW` -/
def assertThrow (condition : Bool) (what : String) : Except UhdError Unit :=
  if condition then .ok ⟨⟩ else .error (.assertionError what)

namespace InlineIoService

variable {ρ τ κ : Type} [DecidableEq ρ] [DecidableEq τ] [DecidableEq κ]

/-- The outcome of a call. -/
abbrev Outcome (ρ τ κ : Type) := EStateM.Result UhdError (InlineIoService ρ τ κ) Unit

/-- An entry is written. -/
def setEntry (s : InlineIoService ρ τ κ) (link : ρ) (entry : ReceiverEntry κ) :
    InlineIoService ρ τ κ :=
  { s with recvTbl := Function.update s.recvTbl link (some entry) }

/-- The link of a multiplexer, and the kinds of the clients. -/
def muxConfig (links : IoLinks ρ τ) (s : InlineIoService ρ τ κ) (link : ρ) : MuxConfig κ where
  numRecvFrames := links.numRecvFrames link
  sends := fun k => s.clients.any fun c => c.address = k && c.sends

/-- `attach_recv_link` -/
def attachRecvLink (link : ρ) (s : InlineIoService ρ τ κ) : Outcome ρ τ κ :=
  match s.recvTbl link with
  | some _ => .error (.assertionError "_recv_tbl.count(link_ptr) == 0") s
  | none => .ok ⟨⟩ { s.setEntry link {} with recvLinks := s.recvLinks ++ [link] }

/-- `detach_recv_link` -/
def detachRecvLink (link : ρ) (s : InlineIoService ρ τ κ) : Outcome ρ τ κ :=
  match s.recvTbl link with
  | none => .error (.assertionError "_recv_tbl.count(link_ptr) != 0") s
  | some _ => .ok ⟨⟩ { s with
      recvTbl := Function.update s.recvTbl link none
      recvLinks := s.recvLinks.filter fun l => l ≠ link }

/-- `attach_send_link` -/
def attachSendLink (link : τ) (s : InlineIoService ρ τ κ) : Outcome ρ τ κ :=
  if link ∈ s.sendLinks then
    .error (.assertionError
      "std::find(_send_links.begin(), _send_links.end(), link) == _send_links.end()") s
  else .ok ⟨⟩ { s with sendLinks := s.sendLinks ++ [link] }

/-- `detach_send_link` -/
def detachSendLink (link : τ) (s : InlineIoService ρ τ κ) : Outcome ρ τ κ :=
  .ok ⟨⟩ { s with sendLinks := s.sendLinks.filter fun l => l ≠ link }

/-- `connect_sender` -/
def connectSender (links : IoLinks ρ τ) (link : τ) (numFrames : ℕ) : Except UhdError Unit :=
  assertThrow (links.numSendFrames link ≥ numFrames) "frame_capacity >= num_frames"

/-- `connect_receiver` -/
def connectReceiver (links : IoLinks ρ τ) (link : ρ) (cb : κ) (numFrames : ℕ)
    (s : InlineIoService ρ τ κ) : Outcome ρ τ κ :=
  if links.numRecvFrames link < numFrames then
    .error (.assertionError "num_frames <= capacity") s
  else
    match s.recvTbl link with
    | none => .error .outOfRange s
    | some entry =>
      match entry.mux, entry.rcvr with
      | some mux, rcvr =>
        match InlineRecvMux.step (s.muxConfig links link) mux (.connect cb) with
        | none => .error (.assertionError "_queues.count(cb) == 0") s
        | some mux => .ok ⟨⟩ (s.setEntry link { mux := some mux, rcvr := rcvr })
      | none, some rcvr =>
        match run (InlineRecvMux.step (s.muxConfig links link)) {} [.connect rcvr, .connect cb] with
        | none => .error (.assertionError "_queues.count(cb) == 0") s
        | some mux => .ok ⟨⟩ (s.setEntry link { mux := some mux, rcvr := none })
      | none, none => .ok ⟨⟩ (s.setEntry link { mux := none, rcvr := some cb })

/-- `disconnect_receiver`, from a destructor.  A multiplexer throws if it does not know the
callback. -/
def disconnectReceiver (links : IoLinks ρ τ) (link : ρ) (cb : κ) (s : InlineIoService ρ τ κ) :
    InlineIoService ρ τ κ :=
  match s.recvTbl link with
  | none => s.setEntry link {}
  | some entry =>
    match entry.mux with
    | none => s.setEntry link entry
    | some mux =>
      match InlineRecvMux.step (s.muxConfig links link) mux (.disconnect cb) with
      | none => { s with terminated := true }
      | some mux =>
        s.setEntry link { entry with mux := if mux.callbacks = [] then none else some mux }

/-- A client is made: what is checked after it is allocated, and its registration. -/
def finishClient (links : IoLinks ρ τ) (client : InlineClient ρ κ) (late : Except UhdError Unit)
    (s : InlineIoService ρ τ κ) : Outcome ρ τ κ :=
  match client.recv with
  | none => .ok ⟨⟩ { s with clients := s.clients ++ [client] }
  | some (link, numFrames) =>
    match late with
    | .error e => .error e (s.disconnectReceiver links link client.address)
    | .ok _ =>
      match s.connectReceiver links link client.address numFrames with
      | .ok _ t => .ok ⟨⟩ { t with clients := t.clients ++ [client] }
      | .error e t => .error e (t.disconnectReceiver links link client.address)

/-- What `make_recv_client` checks before it allocates the client. -/
def recvClientOf (links : IoLinks ρ τ) (args : RecvClientArgs ρ τ κ) :
    Except UhdError (InlineClient ρ κ) := do
  match args.dataLink with
  | none => .error (.assertionError "data_link")
  | some dataLink =>
    assertThrow (args.numRecvFrames > 0) "num_recv_frames > 0"
    assertThrow args.cb "cb"
    match args.fcLink with
    | none => pure ⟨⟩
    | some fcLink =>
      assertThrow args.fcCb "fc_cb"
      assertThrow (args.numSendFrames > 0) "num_send_frames > 0"
      connectSender links fcLink args.numSendFrames
    pure { address := args.address, sends := false, recv := some (dataLink, args.numRecvFrames) }

/-- `make_recv_client` -/
def makeRecvClient (links : IoLinks ρ τ) (args : RecvClientArgs ρ τ κ)
    (s : InlineIoService ρ τ κ) : Outcome ρ τ κ :=
  match recvClientOf links args with
  | .error e => .error e s
  | .ok client => s.finishClient links client (.ok ⟨⟩)

/-- What `make_send_client` checks before it allocates the client. -/
def sendClientOf (links : IoLinks ρ τ) (args : SendClientArgs ρ τ κ) :
    Except UhdError (InlineClient ρ κ) := do
  match args.sendLink with
  | none => .error (.assertionError "send_link")
  | some sendLink =>
    assertThrow (args.numSendFrames > 0) "num_send_frames > 0"
    assertThrow args.sendCb "send_cb"
    connectSender links sendLink args.numSendFrames
    pure { address := args.address, sends := true,
           recv := args.recvLink.map fun link => (link, args.numRecvFrames) }

/-- What `make_send_client` checks after it has allocated the client, if there is a receive link. -/
def sendClientLate (args : SendClientArgs ρ τ κ) : Except UhdError Unit := do
  assertThrow args.recvCb "recv_cb"
  assertThrow args.fcCb "fc_cb"
  assertThrow (args.numRecvFrames > 0) "num_recv_frames > 0"

/-- `make_send_client` -/
def makeSendClient (links : IoLinks ρ τ) (args : SendClientArgs ρ τ κ)
    (s : InlineIoService ρ τ κ) : Outcome ρ τ κ :=
  match sendClientOf links args with
  | .error e => .error e s
  | .ok client => s.finishClient links client (sendClientLate args)

/-- The destructors of the clients. -/
def destroyClient (links : IoLinks ρ τ) (client : InlineClient ρ κ) (s : InlineIoService ρ τ κ) :
    InlineIoService ρ τ κ :=
  let s := { s with clients := s.clients.erase client }
  match client.recv with
  | none => s
  | some (link, _) => s.disconnectReceiver links link client.address

end InlineIoService

/-- A call from outside. -/
inductive IoServiceCall (ρ τ κ : Type) where
  | attachRecvLink (link : ρ)
  | detachRecvLink (link : ρ)
  | attachSendLink (link : τ)
  | detachSendLink (link : τ)
  | makeRecvClient (args : RecvClientArgs ρ τ κ)
  | makeSendClient (args : SendClientArgs ρ τ κ)
  | destroyClient (client : InlineClient ρ κ)

namespace InlineIoService

variable {ρ τ κ : Type} [DecidableEq ρ] [DecidableEq τ] [DecidableEq κ]

/-- What a call does. -/
def perform (links : IoLinks ρ τ) (s : InlineIoService ρ τ κ) :
    IoServiceCall ρ τ κ → Outcome ρ τ κ
  | .attachRecvLink link => s.attachRecvLink link
  | .detachRecvLink link => s.detachRecvLink link
  | .attachSendLink link => s.attachSendLink link
  | .detachSendLink link => s.detachSendLink link
  | .makeRecvClient args => s.makeRecvClient links args
  | .makeSendClient args => s.makeSendClient links args
  | .destroyClient client => .ok ⟨⟩ (s.destroyClient links client)

/-- A client is allocated where no other one is, and a client that is destroyed is alive. -/
def Possible (s : InlineIoService ρ τ κ) : IoServiceCall ρ τ κ → Prop
  | .makeRecvClient args => args.address ∉ s.clients.map InlineClient.address
  | .makeSendClient args => args.address ∉ s.clients.map InlineClient.address
  | .destroyClient client => client ∈ s.clients
  | _ => True

instance (s : InlineIoService ρ τ κ) : (call : IoServiceCall ρ τ κ) → Decidable (s.Possible call)
  | .makeRecvClient args =>
    inferInstanceAs (Decidable (args.address ∉ s.clients.map InlineClient.address))
  | .makeSendClient args =>
    inferInstanceAs (Decidable (args.address ∉ s.clients.map InlineClient.address))
  | .destroyClient client => inferInstanceAs (Decidable (client ∈ s.clients))
  | .attachRecvLink _ => isTrue trivial
  | .detachRecvLink _ => isTrue trivial
  | .attachSendLink _ => isTrue trivial
  | .detachSendLink _ => isTrue trivial

/-- One call, whether it returns or throws. -/
def step (links : IoLinks ρ τ) (s : InlineIoService ρ τ κ) (call : IoServiceCall ρ τ κ) :
    Option (InlineIoService ρ τ κ) :=
  if s.terminated = false ∧ s.Possible call then
    some (Stateful.stateAfter (s.perform links call))
  else none

/-! ## What is asked of the service -/

/-- The callbacks that are registered for a link. -/
def registered (s : InlineIoService ρ τ κ) (link : ρ) : List κ :=
  ((s.recvTbl link).map ReceiverEntry.callbacks).getD []

/-- The clients alive that are connected to a link as receivers. -/
def receivers (s : InlineIoService ρ τ κ) (link : ρ) : List κ :=
  (s.clients.filter fun c => c.recv.any fun r => r.1 = link).map InlineClient.address

/-- A link can be attached, if it is attached after it is detached, and is like a fresh one
then. -/
def Reattaches (s : InlineIoService ρ τ κ) (link : ρ) : Prop :=
  if link ∈ s.recvLinks then
    ∃ t u, s.detachRecvLink link = .ok ⟨⟩ t ∧ t.attachRecvLink link = .ok ⟨⟩ u ∧
      u.recvTbl link = some {}
  else
    ∃ u, s.attachRecvLink link = .ok ⟨⟩ u ∧ u.recvTbl link = some {}

/-- **What is asked of every state.**  The registered callbacks are those of the clients alive, and
a link that no client receives from can be detached and attached. -/
structure KeepsPromise (s : InlineIoService ρ τ κ) : Prop where
  running : s.terminated = false
  callbacks : ∀ link, (s.registered link).Perm (s.receivers link)
  reattaches : ∀ link, s.receivers link = [] → s.Reattaches link

/-! ## The condition -/

/-- A client is registered: its link is attached, and if it has a multiplexer, nothing is left to
fail. -/
def CanRegister (links : IoLinks ρ τ) (s : InlineIoService ρ τ κ) (client : InlineClient ρ κ)
    (late : Except UhdError Unit) : Prop :=
  ∀ link numFrames, client.recv = some (link, numFrames) →
    ∃ entry, s.recvTbl link = some entry ∧
      (entry.mux.isSome = true → late = .ok ⟨⟩ ∧ numFrames ≤ links.numRecvFrames link)

/-- **The condition on a call.**  A link is only detached while no client receives from it.  A
client whose arguments pass the checks before it is allocated can be registered.  A client that is
destroyed is not registered alone: its link has a multiplexer. -/
def Orderly (links : IoLinks ρ τ) (s : InlineIoService ρ τ κ) : IoServiceCall ρ τ κ → Prop
  | .detachRecvLink link => link ∈ s.recvLinks → s.receivers link = []
  | .makeRecvClient args => ∀ client, recvClientOf links args = .ok client →
      s.CanRegister links client (.ok ⟨⟩)
  | .makeSendClient args => ∀ client, sendClientOf links args = .ok client →
      s.CanRegister links client (sendClientLate args)
  | .destroyClient client => ∀ link numFrames, client.recv = some (link, numFrames) →
      ∃ entry, s.recvTbl link = some entry ∧ entry.mux.isSome = true
  | _ => True

end InlineIoService

end Transport
end UhdHost
