import Mathlib.Data.List.Basic
import Mathlib.Logic.Function.Basic
import Mathlib.Tactic.Common

/-!
# Aligning receive packets in time

`get_aligned_buffs` of `uhdlib/transport/get_aligned_buffs.hpp`: a packet is taken from every
channel, and packets whose timestamp is behind that of another channel are released until all
timestamps agree.

What a transport delivers is a list of events: a packet, a packet that cannot be parsed, or
nothing within the timeout.  When the list is empty, nothing comes any more.  Frames are
numbered, per channel, in the order in which they are received; `released` records which went
back to the transport.

The loop ends when all channels are aligned.  It is given a number of passes it may take, and
yields no result beyond that.
-/

namespace UhdHost
namespace Transport

/-- `packet_info_t`, with the payload it points to. -/
structure RxPacketInfo (δ : Type) where
  eob : Bool := false
  eov : Bool := false
  hasTsf : Bool := false
  tsf : ℕ := 0
  payload : List δ := []
  deriving DecidableEq, Repr

/-- What a transport answers to `get_recv_buff`. -/
inductive RxEvent (δ : Type) where
  | timeout
  /-- A `value_error` is thrown. -/
  | badPacket
  | packet (info : RxPacketInfo δ) (seqError : Bool)
  deriving DecidableEq, Repr

/-- A channel: its transport, `_frame_buffs[chan]`, `_infos[chan]` and `_prev_tsf[chan]`. -/
structure RxChannel (δ : Type) where
  events : List (RxEvent δ) := []
  /-- The frame that is held. -/
  frameBuff : Option ℕ := none
  info : RxPacketInfo δ := {}
  prevTsf : ℕ := 0
  received : ℕ := 0
  released : List ℕ := []
  deriving DecidableEq, Repr

/-- `alignment_result_t` -/
inductive AlignmentResult where
  | success
  | timeout
  | sequenceError
  | alignmentFailure
  | badPacket
  deriving DecidableEq, Repr

/-- The variables of the loop. -/
structure AlignVars where
  /-- `_channels_to_align` -/
  channelsToAlign : ℕ → Bool := fun _ => true
  timeValid : Bool := false
  tsf : ℕ := 0
  iterations : ℕ := 0

/-- `ALIGNMENT_FAILURE_THRESHOLD` -/
def alignmentFailureThreshold : ℕ := 1000

namespace RxChannel

variable {δ : Type}

/-- `get_recv_buff` of the transport, where the channel holds no frame: whether a packet was
out of sequence, or nothing where the packet was bad. -/
def getRecvBuff (ch : RxChannel δ) : RxChannel δ × Option Bool :=
  match ch.events with
  | [] => ({ ch with info := {} }, some false)
  | .timeout :: events => ({ ch with events := events, info := {} }, some false)
  | .badPacket :: events => ({ ch with events := events }, none)
  | .packet info seqError :: events =>
    ({ ch with
        events := events
        frameBuff := some ch.received
        info := info
        received := ch.received + 1 }, some seqError)

/-- `release_recv_buff`, where the channel holds a frame. -/
def releaseRecvBuff (ch : RxChannel δ) : RxChannel δ :=
  { ch with frameBuff := none, released := ch.released ++ ch.frameBuff.toList }

/-- A frame is received where none is held. -/
def receive (ch : RxChannel δ) : RxChannel δ × Option Bool :=
  if ch.frameBuff.isSome then (ch, some false) else ch.getRecvBuff

end RxChannel

namespace GetAlignedBuffs

variable {δ : Type}

/-- The packet of a channel is compared with those of the other channels; nothing where the
alignment fails. -/
def alignPacket (numChans : ℕ) (v : AlignVars) (chans : ℕ → RxChannel δ) (chan : ℕ) :
    Option (AlignVars × (ℕ → RxChannel δ)) :=
  let ch := chans chan
  if ch.info.hasTsf then
    let chans := Function.update chans chan { ch with prevTsf := ch.info.tsf }
    -- the device time was changed
    let timeValid := v.timeValid && !(ch.info.tsf < ch.prevTsf : Bool)
    if timeValid = false ∨ v.tsf < ch.info.tsf then
      if alignmentFailureThreshold < v.iterations then none
      else
        some ({ channelsToAlign := fun i => i != chan
                timeValid := true
                tsf := ch.info.tsf
                iterations := v.iterations + 1 },
          fun i =>
            if i < numChans ∧ v.channelsToAlign i = false ∧ (chans i).info.hasTsf = true then
              (chans i).releaseRecvBuff
            else chans i)
    else if ch.info.tsf = v.tsf then
      some ({ v with
        channelsToAlign := Function.update v.channelsToAlign chan false
        timeValid := timeValid }, chans)
    else
      some ({ v with timeValid := timeValid },
        Function.update chans chan (chans chan).releaseRecvBuff)
  else
    some ({ v with channelsToAlign := Function.update v.channelsToAlign chan false }, chans)

/-- The loop of `operator()`. -/
def loop (ignoreSeqErr : Bool) (numChans : ℕ) :
    ℕ → AlignVars → (ℕ → RxChannel δ) → Option ((ℕ → RxChannel δ) × AlignmentResult)
  | 0, _, _ => none
  | fuel + 1, v, chans =>
    match (List.range numChans).find? v.channelsToAlign with
    | none => some (chans, .success)
    | some chan =>
      match (chans chan).receive with
      | (ch, none) => some (Function.update chans chan ch, .badPacket)
      | (ch, some seqError) =>
        if ch.frameBuff.isNone then some (Function.update chans chan ch, .timeout)
        else
          match alignPacket numChans v (Function.update chans chan ch) chan with
          | none =>
            some (Function.update chans chan { ch with prevTsf := ch.info.tsf },
              .alignmentFailure)
          | some (v, chans) =>
            if seqError && !ignoreSeqErr then some (chans, .sequenceError)
            else loop ignoreSeqErr numChans fuel v chans

/-- `operator()` -/
def getAlignedBuffs (ignoreSeqErr : Bool) (numChans fuel : ℕ) (chans : ℕ → RxChannel δ) :
    Option ((ℕ → RxChannel δ) × AlignmentResult) :=
  loop ignoreSeqErr numChans fuel {} chans

end GetAlignedBuffs
end Transport
end UhdHost
