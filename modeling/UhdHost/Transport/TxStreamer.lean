import UhdHost.Types.Metadata
import UhdHost.Library.Cuts

/-!
# The transmit streamer

`tx_streamer_impl` of `uhdlib/transport/tx_streamer_impl.hpp` with what it uses of
`tx_streamer_zero_copy`: a call of `send` is split at the end-of-vector positions of its
metadata, and each segment into packets of at most `spp` samples.

## What a call meets

`get_send_buffs` may time out, and a sequence error may be flagged after a packet.  Both are
part of the call (`TxSendCall.buffsAvailable`, `TxSendCall.sequenceErrorAfter`), by the number
of packets the call has sent.  That a timeout on one channel leaves the buffers of the channels
before it for the next call is left out.

## What is sent

A packet has one payload for each channel, which is what the converter of the channel makes of
a block of samples.  `startOfBurst` is the flag of the metadata the packet was sent with; the
header has no such flag.
-/

namespace UhdHost
namespace Transport

/-- `packet_info_t` -/
structure TxPacketInfo where
  eob : Bool := false
  eov : Bool := false
  hasTsf : Bool := false
  tsf : ℕ := 0
  payloadBytes : ℕ := 0
  deriving DecidableEq, Repr

/-- What is sent on all channels at once. -/
structure TxPacket (κ β : Type) where
  info : TxPacketInfo
  startOfBurst : Bool
  nsamps : ℕ
  payload : κ → β

/-- How the streamer is configured. -/
structure TxStreamerConfig (κ α β : Type) where
  /-- `_spp` -/
  spp : ℕ
  /-- `_samp_rate` -/
  sampRate : ℚ := 1
  /-- `_tick_rate` -/
  tickRate : ℚ := 1
  /-- `_bytes_per_item` -/
  bytesPerItem : ℕ
  /-- `_all_chans_connected` -/
  allChansConnected : Bool := true
  /-- The converter of each channel. -/
  conv : κ → List α → β
  /-- The sample that `_zero_buffs` point to. -/
  zero : α

/-- A call of `send`. -/
structure TxSendCall (κ α : Type) where
  buffs : κ → ℕ → α
  nsampsPerBuff : ℕ
  metadata : TxMetadata
  /-- A sequence error is still pending after `_send_str_init`. -/
  sequenceError : Bool := false
  /-- `get_send_buffs` succeeds, after so many packets. -/
  buffsAvailable : ℕ → Bool := fun _ => true
  /-- A sequence error is flagged once so many packets are sent. -/
  sequenceErrorAfter : ℕ → Bool := fun _ => false

/-- The streamer. -/
structure TxStreamer (κ β : Type) where
  /-- `_metadata_cache`, while there is cached metadata -/
  metadataCache : Option TxMetadata := none
  sent : List (TxPacket κ β) := []

/-- The variables of the loop in `send`. -/
structure TxSendLoop (κ β : Type) where
  metadata : TxMetadata
  /-- `nsamps_to_send_remaining` -/
  remaining : ℕ
  /-- `total_nsamps_sent` -/
  total : ℕ := 0
  /-- The packets of this call. -/
  sent : List (TxPacket κ β) := []

namespace TxStreamer

variable {κ α β : Type}

/-- The part of `get_send_buffs` that writes the header. -/
def packetInfo (cfg : TxStreamerConfig κ α β) (nsamps : ℕ) (metadata : TxMetadata) (eov : Bool) :
    TxPacketInfo where
  eob := metadata.endOfBurst
  eov := eov
  hasTsf := metadata.hasTimeSpec
  tsf := if metadata.hasTimeSpec then
      (metadata.timeSpec.toTicks cfg.tickRate % 2 ^ 64).toNat
    else 0
  payloadBytes := nsamps * cfg.bytesPerItem

/-- Samples in a row from the buffer of a channel. -/
def samples (buffs : κ → ℕ → α) (k : κ) (offset nsamps : ℕ) : List α :=
  (List.range nsamps).map fun i => buffs k (offset + i)

/-- `_send_one_packet`; `none` where it returns zero. -/
def sendOnePacket (cfg : TxStreamerConfig κ α β) (buffs : κ → ℕ → α) (offset nsamps : ℕ)
    (metadata : TxMetadata) (eov buffsAvailable : Bool) : Option (TxPacket κ β) :=
  if buffsAvailable then
    some {
      info := packetInfo cfg nsamps metadata eov
      startOfBurst := metadata.startOfBurst
      nsamps := nsamps
      payload := fun k => cfg.conv k (samples buffs k offset nsamps) }
  else none

/-- The loop over the fragments of a segment.  False where the call ends with it. -/
def sendFragments (cfg : TxStreamerConfig κ α β) (call : TxSendCall κ α) :
    ℕ → TxSendLoop κ β → TxSendLoop κ β × Bool
  | 0, st => (st, true)
  | numFragments + 1, st =>
    match sendOnePacket cfg call.buffs st.total cfg.spp st.metadata false
        (call.buffsAvailable st.sent.length) with
    | none => (st, false)
    | some packet =>
      let st := { st with
        metadata := { st.metadata.advance cfg.spp cfg.sampRate with startOfBurst := false }
        remaining := st.remaining - cfg.spp
        total := st.total + cfg.spp
        sent := st.sent ++ [packet] }
      if call.sequenceErrorAfter st.sent.length then (st, false)
      else sendFragments cfg call numFragments st

/-- After the last packet of a segment. -/
def segmentSent (cfg : TxStreamerConfig κ α β) (st : TxSendLoop κ β) (numSampsSent : ℕ)
    (packet : TxPacket κ β) : TxSendLoop κ β :=
  { metadata :=
      if 0 < st.remaining - numSampsSent then st.metadata.advance numSampsSent cfg.sampRate
      else st.metadata
    remaining := st.remaining - numSampsSent
    total := st.total + numSampsSent
    sent := st.sent ++ [packet] }

/-- The body of the loop in `send`, for a segment of so many samples.  Where the call ends with
it, the number it returns is given. -/
def sendSegment (cfg : TxStreamerConfig κ α β) (call : TxSendCall κ α) (eobOnLastPacket : Bool)
    (nsampsToSend : ℕ) (eov : Bool) (st : TxSendLoop κ β) : TxSendLoop κ β × Option ℕ :=
  if nsampsToSend = 0 then
    -- a packet has at least one sample
    match sendOnePacket cfg (fun _ _ => cfg.zero) 0 1 st.metadata false
        (call.buffsAvailable st.sent.length) with
    | none => (st, some 0)
    | some packet => ({ st with sent := st.sent ++ [packet] }, some 0)
  else if nsampsToSend ≤ cfg.spp then
    let metadata :=
      { st.metadata with endOfBurst := eobOnLastPacket && nsampsToSend == st.remaining }
    match sendOnePacket cfg call.buffs st.total nsampsToSend metadata eov
        (call.buffsAvailable st.sent.length) with
    | none => (st, some st.total)
    | some packet =>
      (segmentSent cfg { st with metadata := { metadata with startOfBurst := false } }
        nsampsToSend packet, none)
  else
    let numFragments := (nsampsToSend - 1) / cfg.spp
    let finalLength := (nsampsToSend - 1) % cfg.spp + 1
    match sendFragments cfg call numFragments
        { st with metadata := { st.metadata with endOfBurst := false } } with
    | (st, false) => (st, some st.total)
    | (st, true) =>
      let metadata :=
        { st.metadata with endOfBurst := eobOnLastPacket && finalLength == st.remaining }
      match sendOnePacket cfg call.buffs st.total finalLength metadata eov
          (call.buffsAvailable st.sent.length) with
      | none => (st, some st.total)
      | some packet => (segmentSent cfg { st with metadata := metadata } finalLength packet, none)

/-- The loop in `send`: the end-of-vector positions that are left, and the last one. -/
def sendLoop (cfg : TxStreamerConfig κ α β) (call : TxSendCall κ α) (eobOnLastPacket : Bool) :
    List ℕ → ℕ → TxSendLoop κ β → TxSendLoop κ β × Except UhdError ℕ
  | [], _, st =>
    -- everything that remains is sent, which ends the loop
    match sendSegment cfg call eobOnLastPacket st.remaining false st with
    | (st, some n) => (st, .ok n)
    | (st, none) => (st, .ok st.total)
  | nextEovPosition :: eovPositions, lastEovPosition, st =>
    if nextEovPosition ≤ lastEovPosition then
      (st, .error (.valueError
        "Invalid EOV position specified (violates eov_pos[n] > eov_pos[n-1])"))
    else if call.nsampsPerBuff < nextEovPosition then
      (st, .error (.valueError
        "Invalid EOV position specified (violates eov_pos[n] <= nsamps_per_buff)"))
    else
      match sendSegment cfg call eobOnLastPacket (nextEovPosition - lastEovPosition) true st with
      | (st, some n) => (st, .ok n)
      | (st, none) =>
        if 0 < st.remaining then sendLoop cfg call eobOnLastPacket eovPositions st.total st
        else (st, .ok st.total)

/-- `send` -/
def send (cfg : TxStreamerConfig κ α β) (s : TxStreamer κ β) (call : TxSendCall κ α) :
    TxStreamer κ β × Except UhdError ℕ :=
  if call.sequenceError then (s, .ok 0)
  else if cfg.allChansConnected = false then
    (s, .error (.runtimeError
      "[tx_stream] Attempting to call send() before all channels are connected!"))
  else if call.nsampsPerBuff = 0 ∧ call.metadata.startOfBurst = true then
    ({ s with metadataCache := some call.metadata }, .ok 0)
  else
    let metadata := call.metadata.check s.metadataCache
    let (st, result) := sendLoop cfg call metadata.endOfBurst metadata.eovPositions 0
      { metadata := metadata, remaining := call.nsampsPerBuff }
    ({ metadataCache := none, sent := s.sent ++ st.sent }, result)

/-- One call after the other. -/
def sendAll (cfg : TxStreamerConfig κ α β) : TxStreamer κ β → List (TxSendCall κ α) →
    TxStreamer κ β × List (Except UhdError ℕ)
  | s, [] => (s, [])
  | s, call :: calls =>
    let (s, result) := send cfg s call
    let (s, results) := sendAll cfg s calls
    (s, result :: results)

end TxStreamer
end Transport
end UhdHost
