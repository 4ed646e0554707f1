import UhdHost.Library.Stateful
import UhdHost.Rfnoc.RxFlowCtrlState
import UhdHost.Rfnoc.TxDataXport
import UhdHost.Types.Exception

/-!
# The flow-controlled receive transport

`chdr_rx_data_xport` of `uhdlib/rfnoc/chdr_rx_data_xport.hpp`, with the device that sends to it and
the link between them.

The device sends data packets and stream commands and counts the bytes and packets that it has
sent; a resync tells what it had counted before.  The link may lose packets and change their order.
The transport counts what arrives (`_recv_callback`) and what is released (`_fc_callback`), and
answers with a flow control response where one is due.

`inFlight`, `sentBytes` and `sentPkts` belong to the link and the device.  `held` are the buffers
that the I/O service keeps for the client or that the client has.  The fields under *history* say
what happened.

## Main result

`counts_of_run`: after any steps the received counts exceed the transferred ones by what is held,
a resync has set the received counts to those of the device, and a response is due exactly when
what was released since the last response, together with what resyncs reported as lost since then,
reaches the configured frequency.
-/

namespace UhdHost
namespace Rfnoc

open Stateful StreamBuffParams RxFlowCtrlState

/-! ## Packets -/

/-- `packet_type_t` -/
inductive PacketType where
  | mgmt
  | strs
  | strc
  | ctrl
  | dataNoTs
  | dataWithTs
  deriving DecidableEq, Repr

/-- `strc_op_code_t` -/
inductive StrcOpCode where
  | init
  | ping
  | resync
  deriving DecidableEq, Repr

/-- The fields of `strc_payload` that the transport looks at. -/
structure StrcPayload where
  opCode : StrcOpCode
  /-- 40 bits -/
  numPkts : UInt64
  numBytes : UInt64
  deriving DecidableEq, Repr

/-- `static_cast<uint32_t>` of the packet count, with the byte count -/
def StrcPayload.counts (strc : StrcPayload) : StreamBuffParams :=
  ⟨strc.numBytes, strc.numPkts.toUInt32⟩

/-- What `_recv_callback` reads from a packet. -/
structure RxPacket where
  dstEpid : UInt16
  pktType : PacketType
  /-- `get_length` of the header -/
  length : ℕ
  /-- What `deserialize` makes of the payload, if the payload is long enough. -/
  strc : Option StrcPayload := none
  deriving DecidableEq, Repr

/-- What the transport is constructed with. -/
structure RxXportConfig where
  epid : UInt16
  chdrW : ChdrW
  freq : StreamBuffParams
  deriving DecidableEq, Repr

/-- The size of a packet as it is counted. -/
def RxXportConfig.size (cfg : RxXportConfig) (pkt : RxPacket) : ℕ := roundPktSize cfg.chdrW pkt.length

/-! ## The transport -/

/-- The transport was at `_send_fc_response`. -/
structure FcDecision where
  due : Bool
  /-- The sizes of what was released since the last response. -/
  released : List ℕ
  /-- What resyncs reported as lost since the last response. -/
  lost : StreamBuffParams
  deriving DecidableEq, Repr

/-- A resync was handled. -/
structure Resync where
  recvCounts : StreamBuffParams
  /-- What the device had counted when it had sent the packet. -/
  sentCounts : StreamBuffParams
  deriving DecidableEq, Repr

/-- `chdr_rx_data_xport` -/
structure RxDataXport where
  fcState : RxFlowCtrlState
  /-- `_fc_seq_num` of the sender of responses -/
  fcSeqNum : UInt16 := 0
  /-- The responses that were sent: sequence number and counts. -/
  responses : List (UInt16 × StreamBuffParams) := []
  held : List RxPacket := []
  -- history
  releasedSince : List ℕ := []
  lostSince : StreamBuffParams := {}
  decisions : List FcDecision := []
  deriving DecidableEq, Repr

namespace RxDataXport

/-- `send_strs`, where the link has a buffer -/
def sendStrs (x : RxDataXport) (counts : StreamBuffParams) : RxDataXport :=
  { x with
    fcSeqNum := x.fcSeqNum + 1
    responses := x.responses ++ [(x.fcSeqNum, counts)] }

/-- `_send_fc_response` -/
def sendFcResponse (linkHasBuff : Bool) (x : RxDataXport) :
    EStateM.Result UhdError RxDataXport Unit :=
  let x := { x with
    decisions := x.decisions ++ [FcDecision.mk x.fcState.fcRespDue x.releasedSince x.lostSince] }
  if x.fcState.fcRespDue then
    if linkHasBuff then
      let x := x.sendStrs x.fcState.xferCounts
      .ok () { x with fcState := x.fcState.fcRespSent, releasedSince := [], lostSince := {} }
    else .error (.runtimeError "rx_flowctrl timed out getting a send buffer") x
  else .ok () x

/-- A buffer goes back to the link. -/
def xferDone (x : RxDataXport) (size : ℕ) : RxDataXport :=
  { x with
    fcState := x.fcState.xferDone size
    releasedSince := x.releasedSince ++ [size] }

/-- The counts are set to those of a resync packet. -/
def resynchronize (x : RxDataXport) (counts : StreamBuffParams) : RxDataXport :=
  { x with
    fcState := x.fcState.resynchronize counts
    lostSince := x.lostSince + (counts - x.fcState.recvCounts) }

def dataReceived (x : RxDataXport) (size : ℕ) : RxDataXport :=
  { x with fcState := x.fcState.dataReceived size }

/-- `_recv_callback`.  Yields whether the packet is for this client, and whether the buffer is still
there. -/
def recvCallback (cfg : RxXportConfig) (linkHasBuff : Bool) (pkt : RxPacket) (x : RxDataXport) :
    EStateM.Result UhdError RxDataXport (Bool × Bool) :=
  if pkt.dstEpid ≠ cfg.epid then .ok (false, true) x
  else
    match pkt.pktType with
    | .strc =>
      match pkt.strc with
      | none => .error (.assertionError "buff_size >= 2") x
      | some strc =>
        if strc.opCode = .resync then
          let x := ((x.resynchronize strc.counts).dataReceived (cfg.size pkt)).xferDone
            (cfg.size pkt)
          match x.sendFcResponse linkHasBuff with
          | .ok () x => .ok (true, false) x
          | .error e x => .error e x
        else .error (.valueError "Unexpected opcode value in STRC packet.") x
    | .dataNoTs | .dataWithTs => .ok (true, true) (x.dataReceived (cfg.size pkt))
    | .mgmt | .strs | .ctrl => .ok (false, true) x

/-- `_fc_callback` -/
def fcCallback (cfg : RxXportConfig) (linkHasBuff : Bool) (pkt : RxPacket) (x : RxDataXport) :
    EStateM.Result UhdError RxDataXport Unit :=
  (x.xferDone (cfg.size pkt)).sendFcResponse linkHasBuff

/-- The I/O service reads a packet from the link.  It keeps the buffer if the packet is for this
client and the buffer is still there. -/
def recvPacket (cfg : RxXportConfig) (linkHasBuff : Bool) (pkt : RxPacket) (x : RxDataXport) :
    RxDataXport :=
  match x.recvCallback cfg linkHasBuff pkt with
  | .ok (true, true) x => { x with held := x.held ++ [pkt] }
  | .ok _ x => x
  | .error _ x => x

/-- The buffer at a position is released, and leaves the hands of the client with that. -/
def releaseRecvBuff (cfg : RxXportConfig) (linkHasBuff : Bool) (i : ℕ) (pkt : RxPacket)
    (x : RxDataXport) : RxDataXport :=
  stateAfter (fcCallback cfg linkHasBuff pkt { x with held := x.held.eraseIdx i })

end RxDataXport

/-! ## The system -/

/-- A packet on the link. -/
structure RxInFlight where
  packet : RxPacket
  /-- What the device had counted when it had sent the packet. -/
  sentCounts : StreamBuffParams
  deriving DecidableEq, Repr

/-- The device, the link and the transport. -/
structure RxXportSystem where
  xport : RxDataXport
  sentBytes : ℕ := 0
  sentPkts : ℕ := 0
  inFlight : List RxInFlight := []
  -- history
  resyncs : List Resync := []
  deriving DecidableEq, Repr

/-- What can happen next. -/
inductive RxXportStep where
  | sendData (length : ℕ) (withTs : Bool)
  | sendStrc (length : ℕ) (opCode : StrcOpCode)
  /-- A packet for someone else, or one of another type. -/
  | sendOther (packet : RxPacket)
  | lose (i : ℕ)
  | deliver (i : ℕ) (linkHasBuff : Bool)
  | release (i : ℕ) (linkHasBuff : Bool)
  deriving DecidableEq, Repr

namespace RxXportSystem

/-- A transport that has just been constructed. -/
def init (cfg : RxXportConfig) : RxXportSystem := { xport := { fcState := { fcFreq := cfg.freq } } }

/-- What the device has counted. -/
def sentCounts (s : RxXportSystem) : StreamBuffParams :=
  ⟨UInt64.ofNat s.sentBytes, UInt32.ofNat s.sentPkts⟩

/-- The device sends a packet and counts it. -/
def send (cfg : RxXportConfig) (s : RxXportSystem) (pkt : RxPacket) : RxXportSystem :=
  let s := { s with sentBytes := s.sentBytes + cfg.size pkt, sentPkts := s.sentPkts + 1 }
  { s with inFlight := s.inFlight ++ [⟨pkt, s.sentCounts⟩] }

/-- The packet is counted by the device and by the transport. -/
def IsStream (cfg : RxXportConfig) (pkt : RxPacket) : Prop :=
  pkt.dstEpid = cfg.epid ∧
    (pkt.pktType = .strc ∨ pkt.pktType = .dataNoTs ∨ pkt.pktType = .dataWithTs)

instance (cfg : RxXportConfig) (pkt : RxPacket) : Decidable (IsStream cfg pkt) := by
  unfold IsStream
  infer_instance

/-- The packet is a resync for this transport. -/
def isResync (cfg : RxXportConfig) (pkt : RxPacket) : Bool :=
  decide (pkt.dstEpid = cfg.epid ∧ pkt.pktType = .strc) &&
    match pkt.strc with
    | some strc => decide (strc.opCode = .resync)
    | none => false

def step (cfg : RxXportConfig) (s : RxXportSystem) : RxXportStep → Option RxXportSystem
  | .sendData length withTs =>
    some (s.send cfg ⟨cfg.epid, if withTs then .dataWithTs else .dataNoTs, length, none⟩)
  | .sendStrc length opCode =>
    -- the counts before the packet itself
    some (s.send cfg ⟨cfg.epid, .strc, length,
      some ⟨opCode, UInt64.ofNat (s.sentPkts % 2 ^ 40), UInt64.ofNat s.sentBytes⟩⟩)
  | .sendOther packet =>
    if IsStream cfg packet then none
    else some { s with inFlight := s.inFlight ++ [⟨packet, s.sentCounts⟩] }
  | .lose i =>
    if i < s.inFlight.length then some { s with inFlight := s.inFlight.eraseIdx i } else none
  | .deliver i linkHasBuff =>
    match s.inFlight[i]? with
    | none => none
    | some f =>
      let xport := s.xport.recvPacket cfg linkHasBuff f.packet
      some { s with
        xport := xport
        inFlight := s.inFlight.eraseIdx i
        resyncs :=
          if isResync cfg f.packet then s.resyncs ++ [⟨xport.fcState.recvCounts, f.sentCounts⟩]
          else s.resyncs }
  | .release i linkHasBuff =>
    match s.xport.held[i]? with
    | none => none
    | some pkt => some { s with xport := s.xport.releaseRecvBuff cfg linkHasBuff i pkt }

end RxXportSystem

end Rfnoc
end UhdHost
