import Mathlib
import UhdHost.Library.Items
import UhdHost.Transport.GetAlignedBuffs
import UhdHost.Types.Metadata

/-!
# The receive streamer

`rx_streamer_zero_copy` and `rx_streamer_impl` of `uhdlib/transport`: a call of `recv` converts
samples from the packets of all channels into the buffers of the caller, one packet at a time,
and a packet that does not fit is kept for the next call.

## Buffers

The payload of a packet is a list of units, of which `bytesPerItem` make an item.
`_in_buffs` point into the payload; here they are what is left of it.  The converter of a
channel reads one item (`Items.items`).  The buffers of the caller are partial functions from
positions, in samples, so that what is not written can be told.

## Records

A call notes which packets it gets and what it converts of them (`RxFetch`, `RxConversion`).
The notes are for statements about calls; nothing that is computed depends on them.

## Fuel

The loop that aligns packets and the loop in `recv` are given a number of passes they may take,
and yield no result beyond that.
-/

namespace UhdHost
namespace Transport

open Items

/-- How the streamer is configured. -/
structure RxStreamerConfig (δ β : Type) where
  numChans : ℕ
  /-- `_bytes_per_item` -/
  bytesPerItem : ℕ
  /-- `_samp_rate` -/
  sampRate : ℚ := 1
  /-- `_tick_rate` -/
  tickRate : ℚ := 1
  ignoreSeqErr : Bool := false
  /-- `_all_chans_connected` -/
  allChansConnected : Bool := true
  /-- The converter of each channel, for one item. -/
  conv : ℕ → List δ → β

/-- `last_read_time_info_t` -/
structure LastReadTimeInfo where
  numSamps : ℕ := 0
  hasTimeSpec : Bool := false
  timeSpec : TimeSpec := TimeSpec.ofSecs 0

/-- The streamer. -/
structure RxStreamer (δ : Type) where
  chans : ℕ → RxChannel δ
  /-- `_stopped_due_to_overrun` -/
  stoppedDueToOverrun : Bool := false
  /-- `_stopped_due_to_late_cmd` -/
  stoppedDueToLateCmd : Bool := false
  /-- `_last_read_time_info` -/
  lastReadTimeInfo : LastReadTimeInfo := {}
  /-- `_in_buffs` -/
  inBuffs : ℕ → List δ := fun _ => []
  /-- `_buff_samps_remaining` -/
  buffSampsRemaining : ℕ := 0
  /-- `_fragment_offset_in_samps` -/
  fragmentOffsetInSamps : ℕ := 0
  /-- `_last_fragment_metadata` -/
  lastFragmentMetadata : RxMetadata := {}
  /-- `_error_metadata_cache`, while there is cached metadata -/
  errorMetadataCache : Option RxMetadata := none

/-- The buffers of the caller: what was written, by channel and position. -/
abbrev RxBuffs (β : Type) := ℕ → ℕ → Option β

/-- A call of `recv`. -/
structure RxRecvCall where
  nsampsPerBuff : ℕ
  onePacket : Bool := false
  /-- The size of the array for end-of-vector positions, where there is one. -/
  eovPositions : Option ℕ := none
  deriving DecidableEq, Repr

/-- A packet of every channel has come. -/
structure RxFetch where
  /-- The samples that the call has returned before. -/
  offset : ℕ
  /-- The samples that are taken to be in each packet. -/
  numSamps : ℕ
  frames : ℕ → Option ℕ

/-- Samples were converted from the packets of all channels. -/
structure RxConversion where
  /-- The position in the buffers of the caller. -/
  offset : ℕ
  numSamps : ℕ
  /-- What is taken to be left of the packets. -/
  remaining : ℕ
  frames : ℕ → Option ℕ

/-- What a call has noted. -/
structure RxNotes where
  fetches : List RxFetch := []
  conversions : List RxConversion := []

/-- What a call of `recv` returns and writes. -/
structure RxRecvResult (β : Type) where
  samps : ℕ
  metadata : RxMetadata := {}
  eovPositions : List ℕ := []
  buffs : RxBuffs β := fun _ _ => none
  notes : RxNotes := {}

/-- The variables a packet is received into. -/
structure RxVars (β : Type) where
  metadata : RxMetadata := {}
  eov : EovData := {}
  buffs : RxBuffs β := fun _ _ => none
  notes : RxNotes := {}

namespace LastReadTimeInfo

/-- `get_next_packet_time`, written into metadata. -/
def setNextPacketTime (info : LastReadTimeInfo) (sampRate : ℚ) (metadata : RxMetadata) :
    RxMetadata :=
  if info.hasTimeSpec then
    { metadata with
      hasTimeSpec := true
      timeSpec := info.timeSpec + TimeSpec.fromTicks info.numSamps sampRate }
  else { metadata with hasTimeSpec := false, timeSpec := TimeSpec.ofSecs 0 }

end LastReadTimeInfo

namespace RxStreamer

variable {δ β : Type}

/-! ## The zero-copy part -/

/-- Packets are received until there is none. -/
def flush (ch : RxChannel δ) : List (RxEvent δ) → RxChannel δ
  | [] => { ch with events := [] }
  | .packet _ _ :: events =>
    flush { ch with
      received := ch.received + 1
      released := ch.released ++ [ch.received] } events
  | .timeout :: events => { ch with events := events }
  -- the exception ends the call of `recv`
  | .badPacket :: events => { ch with events := events }

/-- `_handle_overrun`, up to the handler.  That a bad packet ends the flush of the later
channels too is left out. -/
def handleOverrun (cfg : RxStreamerConfig δ β) (s : RxStreamer δ) : RxStreamer δ :=
  { s with
    chans := fun chan =>
      if chan < cfg.numChans then
        flush (s.chans chan).releaseRecvBuff (s.chans chan).events
      else s.chans chan }

/-- `set_metadata_for_error` -/
def setMetadataForError (cfg : RxStreamerConfig δ β) (s : RxStreamer δ) :
    AlignmentResult → RxMetadata
  | .badPacket => { errorCode := .badPacket }
  | .timeout => { errorCode := .timeout }
  | .alignmentFailure => { errorCode := .alignment }
  | .sequenceError =>
    s.lastReadTimeInfo.setNextPacketTime cfg.sampRate
      { outOfSequence := true, errorCode := .overflow }
  | .success => {}

/-- The rest of `get_recv_buffs` after an alignment: what is returned is the number of samples
of each packet. -/
def alignedBuffs (cfg : RxStreamerConfig δ β) (s : RxStreamer δ) (eov : EovData) :
    RxStreamer δ × RxMetadata × EovData × ℕ :=
  let info₀ := (s.chans 0).info
  let numSamps := info₀.payload.length / cfg.bytesPerItem
  let isEob := (List.range cfg.numChans).any fun chan => (s.chans chan).info.eob
  let isEov := (List.range cfg.numChans).any fun chan => (s.chans chan).info.eov
  let metadata : RxMetadata :=
    { hasTimeSpec := info₀.hasTsf
      timeSpec := TimeSpec.fromTicks info₀.tsf cfg.tickRate
      endOfBurst := isEob }
  let eov := if eov.data && isEov then eov.pushBack (eov.runningSampleCount + numSamps) else eov
  ({ s with
      inBuffs := fun chan =>
        if chan < cfg.numChans then (s.chans chan).info.payload else s.inBuffs chan
      lastReadTimeInfo :=
        { numSamps := numSamps
          hasTimeSpec := metadata.hasTimeSpec
          timeSpec := metadata.timeSpec } },
    metadata, eov.updateRunningSampleCount numSamps, numSamps)

/-- `get_recv_buffs` -/
def getRecvBuffs (cfg : RxStreamerConfig δ β) (fuel : ℕ) (s : RxStreamer δ) (eov : EovData) :
    Option (RxStreamer δ × RxMetadata × EovData × ℕ) :=
  -- first without a timeout, then with the timeout of the caller
  let aligned := (GetAlignedBuffs.getAlignedBuffs cfg.ignoreSeqErr cfg.numChans fuel s.chans).bind
    fun (chans, result) =>
      if result = .timeout ∧ s.stoppedDueToOverrun = false then
        GetAlignedBuffs.getAlignedBuffs cfg.ignoreSeqErr cfg.numChans fuel chans
      else some (chans, result)
  aligned.map fun (chans, result) =>
    let s := { s with chans := chans }
    if result = .timeout ∧ s.stoppedDueToOverrun = true then
      ({ s.handleOverrun cfg with stoppedDueToOverrun := false },
        s.lastReadTimeInfo.setNextPacketTime cfg.sampRate { errorCode := .overflow }, eov, 0)
    else if result = .timeout ∧ s.stoppedDueToLateCmd = true then
      ({ s with stoppedDueToLateCmd := false }, { errorCode := .lateCommand }, eov, 0)
    else if result ≠ .success then (s, s.setMetadataForError cfg result, eov, 0)
    else s.alignedBuffs cfg eov

/-! ## Converting -/

/-- `_convert_to_out_buff` on all channels. -/
def convertToOutBuffs (cfg : RxStreamerConfig δ β) (s : RxStreamer δ) (buffs : RxBuffs β)
    (offset numSamps : ℕ) : RxStreamer δ × RxBuffs β :=
  ({ s with
      inBuffs := fun chan =>
        if chan < cfg.numChans then (s.inBuffs chan).drop (numSamps * cfg.bytesPerItem)
        else s.inBuffs chan
      chans := fun chan =>
        if chan < cfg.numChans ∧ s.buffSampsRemaining = numSamps then
          (s.chans chan).releaseRecvBuff
        else s.chans chan },
    fun chan i =>
      if chan < cfg.numChans ∧ offset ≤ i ∧ i < offset + numSamps then
        (items (cfg.conv chan) cfg.bytesPerItem (s.inBuffs chan) numSamps)[i - offset]?
      else buffs chan i)

/-- The frames that are held. -/
def frames (s : RxStreamer δ) (chan : ℕ) : Option ℕ := (s.chans chan).frameBuff

/-- Packets are noted, unless there was an error. -/
def noteFetch (s : RxStreamer δ) (notes : RxNotes) (metadata : RxMetadata)
    (offset numSamps : ℕ) : RxNotes :=
  if metadata.errorCode = .none then
    { notes with fetches := notes.fetches ++ [⟨offset, numSamps, s.frames⟩] }
  else notes

/-- Samples of the packets at hand are converted and counted. -/
def convertSamples (cfg : RxStreamerConfig δ β) (s : RxStreamer δ) (vars : RxVars β)
    (nsampsPerBuff offset : ℕ) : RxStreamer δ × RxVars β × ℕ :=
  let numSamps := min nsampsPerBuff s.buffSampsRemaining
  let converted := s.convertToOutBuffs cfg vars.buffs offset numSamps
  let remaining := s.buffSampsRemaining - numSamps
  let metadata := { vars.metadata with
    moreFragments := remaining != 0
    fragmentOffset := s.fragmentOffsetInSamps }
  ({ converted.1 with
      buffSampsRemaining := remaining
      fragmentOffsetInSamps :=
        if remaining ≠ 0 then s.fragmentOffsetInSamps + numSamps else s.fragmentOffsetInSamps
      lastFragmentMetadata := if remaining ≠ 0 then metadata else s.lastFragmentMetadata },
    { vars with
      metadata := metadata
      buffs := converted.2
      notes := { vars.notes with
        conversions := vars.notes.conversions ++ [⟨offset, numSamps, remaining, s.frames⟩] } },
    numSamps)

/-- `_recv_one_packet` -/
def recvOnePacket (cfg : RxStreamerConfig δ β) (fuel : ℕ) (s : RxStreamer δ) (vars : RxVars β)
    (nsampsPerBuff offset : ℕ) : Option (RxStreamer δ × RxVars β × ℕ) :=
  if nsampsPerBuff = 0 then
    (s.getRecvBuffs cfg fuel vars.eov).map fun (s, metadata, eov, numSamps) =>
      (s, { vars with
        metadata :=
          if metadata.errorCode = .timeout then { metadata with errorCode := .none } else metadata
        eov := eov
        notes := s.noteFetch vars.notes metadata offset numSamps }, 0)
  else if s.buffSampsRemaining = 0 then
    (s.getRecvBuffs cfg fuel vars.eov).map fun (s, metadata, eov, numSamps) =>
      let s := { s with buffSampsRemaining := numSamps, fragmentOffsetInSamps := 0 }
      let vars := { vars with
        metadata := metadata
        eov := eov
        notes := s.noteFetch vars.notes metadata offset numSamps }
      if numSamps = 0 then (s, vars, 0) else s.convertSamples cfg vars nsampsPerBuff offset
  else
    let metadata := { s.lastFragmentMetadata with
      timeSpec := s.lastFragmentMetadata.timeSpec + TimeSpec.fromTicks
        (s.fragmentOffsetInSamps - s.lastFragmentMetadata.fragmentOffset : ℕ) cfg.sampRate }
    some (s.convertSamples cfg { vars with metadata := metadata } nsampsPerBuff offset)

/-- `rx_metadata_cache::store` -/
def storeError (s : RxStreamer δ) (metadata : RxMetadata) : RxStreamer δ :=
  if metadata.errorCode ≠ .timeout then { s with errorMetadataCache := some metadata } else s

/-- The loop of `recv`.  The flag for the end of the burst is written to the metadata of the
first packet, which is returned. -/
def recvLoop (cfg : RxStreamerConfig δ β) (nsampsPerBuff fuelInside : ℕ) (first : RxMetadata) :
    ℕ → RxStreamer δ → RxVars β → ℕ → Option (RxStreamer δ × RxRecvResult β)
  | 0, _, _, _ => none
  | fuel + 1, s, vars, total =>
    if nsampsPerBuff ≤ total then
      some (s, ⟨total, first, vars.eov.positions, vars.buffs, vars.notes⟩)
    else
      match s.recvOnePacket cfg fuelInside vars (nsampsPerBuff - total) total with
      | none => none
      | some (s, vars, numSamps) =>
        if vars.metadata.errorCode ≠ .none then
          some (s.storeError vars.metadata,
            ⟨total, first, vars.eov.positions, vars.buffs, vars.notes⟩)
        else if vars.metadata.endOfBurst then
          some (s, ⟨total + numSamps, { first with endOfBurst := true }, vars.eov.positions,
            vars.buffs, vars.notes⟩)
        else if vars.eov.exhausted then
          some (s, ⟨total + numSamps, first, vars.eov.positions, vars.buffs, vars.notes⟩)
        else recvLoop cfg nsampsPerBuff fuelInside first fuel s vars (total + numSamps)

/-- `recv` -/
def recv (cfg : RxStreamerConfig δ β) (fuel : ℕ) (s : RxStreamer δ) (call : RxRecvCall) :
    Option (RxStreamer δ × Except UhdError (RxRecvResult β)) :=
  if cfg.allChansConnected = false then
    some (s, .error (.runtimeError
      "[rx_stream] Attempting to call recv() before all channels are connected!"))
  else
    match s.errorMetadataCache with
    | some metadata =>
      some ({ s with errorMetadataCache := none }, .ok { samps := 0, metadata := metadata })
    | none =>
      (s.recvOnePacket cfg fuel { eov := EovData.ofSize call.eovPositions }
          call.nsampsPerBuff 0).bind
        fun (s, vars, total) =>
          if call.onePacket || vars.metadata.endOfBurst || vars.eov.exhausted ||
              vars.metadata.errorCode != .none then
            some (s, .ok ⟨total, vars.metadata, vars.eov.positions, vars.buffs, vars.notes⟩)
          else
            (recvLoop cfg call.nsampsPerBuff fuel vars.metadata fuel s vars total).map
              fun (s, result) => (s, .ok result)

end RxStreamer
end Transport
end UhdHost
