import UhdHost.Library.Transition
import UhdHost.Transport.VrtIfPacket
import UhdHost.Types.TimeSpec

/-!
# The receive packet handler of the older devices

`sph::recv_packet_handler` of `super_recv_packet_handler.hpp`, for `n` channels: the processing of a
single packet, the alignment of packets with equal times, and the copying of samples out of a set of
aligned packets.

A transport is what it yields, one after the other: nothing in time, an exception, or a buffer.
What the unpacker does with a buffer is known beforehand: the buffer is too short for the header, or
its header is bad, or there is a packet in it.  A transport with nothing left yields nothing in
time.

The ring of four buffer sets is seen from the current one.  To increment the index is then to rotate
the four (`increment`).

The overflow handler is called without arguments, and all that it does to the handler is flushing
it, or throwing an exception (`OverflowAction`).

`trace` is not part of the handler.  It records what happens inside of the calls: each packet that
was fetched, together with the set it was fetched for; each error, together with what the overflow
handler did; what was copied; and each call that an exception ended.  `returned` of a `Session` is
what the calls have returned to the user.
-/

namespace UhdHost
namespace Transport
namespace RecvHandler

open Vrt

/-! ## Packets -/

/-- A packet with its header unpacked, and the first word of its payload. -/
structure RecvPacket where
  info : IfPacketInfo
  word : BitVec 32 := 0
  deriving DecidableEq

/-- `get_context_code` -/
def getContextCode (p : RecvPacket) : ℕ := ((p.word ||| WordBytes.byteswap p.word) &&& 0xff).toNat

/-- A buffer of a transport. -/
inductive RecvBuffer where
  | tooShort
  /-- The unpacker throws `uhd::value_error` after it has set this much. -/
  | badHeader (left : IfPacketInfo)
  | packet (p : RecvPacket)
  deriving DecidableEq

/-- What `get_buff` does. -/
inductive Fetch where
  | timeout
  | throws
  | buffer (b : RecvBuffer)
  deriving DecidableEq

/-- An exception. -/
inductive Thrown where
  | valueError
  /-- `std::runtime_error("recv buffer smaller than vrt packet offset")` -/
  | tooShort
  | transport
  | overflowHandler
  deriving DecidableEq

/-- `packet_type` -/
inductive PacketType where
  | ifData
  | timestampError
  | inlineMessage
  | timeoutError
  | sequenceError
  deriving DecidableEq

/-! ## Buffer sets -/

/-- `rx_metadata_t`.  The error code is a number, for an inline message carries any. -/
structure Metadata where
  hasTimeSpec : Bool := false
  timeSpec : TimeSpec := TimeSpec.ofSecs 0
  moreFragments : Bool := false
  fragmentOffset : ℕ := 0
  startOfBurst : Bool := false
  endOfBurst : Bool := false
  errorCode : ℕ := 0x0
  outOfSequence : Bool := false
  deriving DecidableEq

/-- `ERROR_CODE_NONE` -/
def errorCodeNone : ℕ := 0x0

/-- `ERROR_CODE_TIMEOUT` -/
def errorCodeTimeout : ℕ := 0x1

/-- `ERROR_CODE_OVERFLOW` -/
def errorCodeOverflow : ℕ := 0x8

/-- `ERROR_CODE_ALIGNMENT` -/
def errorCodeAlignment : ℕ := 0xc

/-- `ERROR_CODE_BAD_PACKET` -/
def errorCodeBadPacket : ℕ := 0xf

/-- `per_buffer_info_type`.  `copy_buff` is an offset into the payload; null is `none`.  `vrt_hdr`
is only read where the buffer is held, and then points into it. -/
structure PerBufferInfo where
  buff : Option RecvBuffer := none
  ifpi : IfPacketInfo := {}
  time : ℕ := 0
  copyBuff : Option ℕ := none
  deriving DecidableEq

/-- `per_buffer_info_type::reset`, which leaves `ifpi` alone -/
def PerBufferInfo.reset (info : PerBufferInfo) : PerBufferInfo :=
  { info with buff := none, time := 0, copyBuff := none }

/-- The info of a packet that was unpacked. -/
def PerBufferInfo.ofPacket (p : RecvPacket) : PerBufferInfo where
  buff := some (.packet p)
  ifpi := p.info
  time := p.info.tsf.toNat
  copyBuff := some 0

/-- `buffers_info_type` -/
structure BuffersInfo (n : ℕ) where
  info : Fin n → PerBufferInfo := fun _ => {}
  indexesTodo : Fin n → Bool := fun _ => true
  alignmentTime : ℕ := 0
  alignmentTimeValid : Bool := false
  dataBytesToCopy : ℕ := 0
  fragmentOffsetInSamps : ℕ := 0
  metadata : Metadata := {}

variable {n : ℕ}

namespace BuffersInfo

/-- `buffers_info_type::reset` -/
def reset (set : BuffersInfo n) : BuffersInfo n where
  info i := (set.info i).reset

/-- Replace the info of a channel. -/
def setInfo (set : BuffersInfo n) (index : Fin n) (info : PerBufferInfo) : BuffersInfo n :=
  { set with info := Function.update set.info index info }

@[simp] theorem setInfo_self (set : BuffersInfo n) (index : Fin n) (info : PerBufferInfo) :
    (set.setInfo index info).info index = info := by
  simp [setInfo]

theorem setInfo_of_ne (set : BuffersInfo n) {index i : Fin n} (hne : i ≠ index)
    (info : PerBufferInfo) : (set.setInfo index info).info i = set.info i := by
  simp [setInfo, hne]

/-- `indexes_todo.find_first` -/
def findFirst (set : BuffersInfo n) : Option (Fin n) :=
  (List.finRange n).find? set.indexesTodo

/-- `alignment_check` -/
def alignmentCheck (set : BuffersInfo n) (index : Fin n) : BuffersInfo n :=
  if !set.alignmentTimeValid || decide (set.alignmentTime < (set.info index).time) then
    { set with
      alignmentTimeValid := true
      alignmentTime := (set.info index).time
      indexesTodo := fun i => decide (i ≠ index)
      info := fun i => if i = index then set.info i else (set.info i).reset
      dataBytesToCopy := (set.info index).ifpi.numPayloadBytes
      metadata := { set.metadata with
        startOfBurst := (set.info index).ifpi.sob
        endOfBurst := (set.info index).ifpi.eob } }
  else if (set.info index).time = set.alignmentTime then
    { set with
      indexesTodo := fun i => set.indexesTodo i && decide (i ≠ index)
      metadata := { set.metadata with
        startOfBurst := set.metadata.startOfBurst && (set.info index).ifpi.sob
        endOfBurst := set.metadata.endOfBurst || (set.info index).ifpi.eob } }
  else set.setInfo index (set.info index).reset

theorem alignmentCheck_of_new {set : BuffersInfo n} {index : Fin n}
    (h : set.alignmentTimeValid = true → set.alignmentTime < (set.info index).time) :
    set.alignmentCheck index =
      { set with
        alignmentTimeValid := true
        alignmentTime := (set.info index).time
        indexesTodo := fun i => decide (i ≠ index)
        info := fun i => if i = index then set.info i else (set.info i).reset
        dataBytesToCopy := (set.info index).ifpi.numPayloadBytes
        metadata := { set.metadata with
          startOfBurst := (set.info index).ifpi.sob
          endOfBurst := (set.info index).ifpi.eob } } := by
  rw [alignmentCheck, if_pos]
  rcases hvalid : set.alignmentTimeValid with _ | _
  · rfl
  · exact decide_eq_true (h hvalid)

theorem alignmentCheck_of_same {set : BuffersInfo n} {index : Fin n}
    (hvalid : set.alignmentTimeValid = true) (h : (set.info index).time = set.alignmentTime) :
    set.alignmentCheck index =
      { set with
        indexesTodo := fun i => set.indexesTodo i && decide (i ≠ index)
        metadata := { set.metadata with
          startOfBurst := set.metadata.startOfBurst && (set.info index).ifpi.sob
          endOfBurst := set.metadata.endOfBurst || (set.info index).ifpi.eob } } := by
  rw [alignmentCheck, if_neg, if_pos h]
  rw [hvalid, h]
  simp

theorem alignmentCheck_of_old {set : BuffersInfo n} {index : Fin n}
    (hvalid : set.alignmentTimeValid = true) (h : (set.info index).time < set.alignmentTime) :
    set.alignmentCheck index = set.setInfo index (set.info index).reset := by
  rw [alignmentCheck, if_neg, if_neg h.ne]
  rw [hvalid]
  simpa using h.le

/-- What is done before the check when a packet comes before the previous one in time. -/
def restart (set : BuffersInfo n) (index : Fin n) : BuffersInfo n :=
  if set.alignmentTimeValid && decide (set.alignmentTime ≠ (set.info index).time) then
    { set with alignmentTimeValid := false }
  else set

theorem restart_alignmentCheck (set : BuffersInfo n) (index : Fin n) :
    (set.restart index).alignmentCheck index =
      if set.alignmentTimeValid = true ∧ (set.info index).time = set.alignmentTime then
        set.alignmentCheck index
      else { set with alignmentTimeValid := false }.alignmentCheck index := by
  rw [restart]
  by_cases hvalid : set.alignmentTimeValid = true
  · by_cases h : (set.info index).time = set.alignmentTime
    · rw [if_neg (by simp [h]), if_pos ⟨hvalid, h⟩]
    · rw [if_pos (by simpa [hvalid] using Ne.symm h), if_neg (fun hboth => h hboth.2)]
  · have hinvalid : { set with alignmentTimeValid := false } = set := by
      rw [← Bool.eq_false_iff.mpr hvalid]
    rw [if_neg (by simp [hvalid]), if_neg (fun hboth => hvalid hboth.1), hinvalid]

/-- Set the error code. -/
def withError (set : BuffersInfo n) (code : ℕ) : BuffersInfo n :=
  { set with metadata := { set.metadata with errorCode := code } }

end BuffersInfo

/-! ## A single packet -/

/-- `seq_mask` -/
def seqMask (linkType : LinkType) : ℕ := if linkType = .none then 0xf else 0xfff

/-- The return conditions of `get_and_process_single_packet`, in their order, and the packet count
that is expected next. -/
def classify (prev info : PerBufferInfo) (packetCount : ℕ) : PacketType × ℕ :=
  if info.ifpi.packetType ≠ 0 then (.inlineMessage, packetCount)
  else if packetCount ≠ info.ifpi.packetCount then
    (.sequenceError, (info.ifpi.packetCount + 1) &&& seqMask info.ifpi.linkType)
  else if info.ifpi.hasTsf = true ∧ info.time < prev.time then
    (.timestampError, (info.ifpi.packetCount + 1) &&& seqMask info.ifpi.linkType)
  else (.ifData, (info.ifpi.packetCount + 1) &&& seqMask info.ifpi.linkType)

/-- What processing a single packet comes to. -/
structure Processed where
  result : Except Thrown PacketType
  xport : List Fetch
  packetCount : ℕ
  info : PerBufferInfo

/-- `get_and_process_single_packet`.  A packet that acknowledges flow control is not returned. -/
def getAndProcessSinglePacket (prev : PerBufferInfo) :
    List Fetch → ℕ → PerBufferInfo → Processed
  | [], packetCount, info => ⟨.ok .timeoutError, [], packetCount, { info with buff := none }⟩
  | .timeout :: xport, packetCount, info =>
    ⟨.ok .timeoutError, xport, packetCount, { info with buff := none }⟩
  | .throws :: xport, packetCount, info => ⟨.error .transport, xport, packetCount, info⟩
  | .buffer .tooShort :: xport, packetCount, info =>
    ⟨.error .tooShort, xport, packetCount, { info with buff := some .tooShort }⟩
  | .buffer (.badHeader left) :: xport, packetCount, info =>
    ⟨.error .valueError, xport, packetCount,
      { info with buff := some (.badHeader left), ifpi := left }⟩
  | .buffer (.packet p) :: xport, packetCount, _ =>
    if p.info.fcAck then
      getAndProcessSinglePacket prev xport packetCount
        { PerBufferInfo.ofPacket p with buff := none, copyBuff := none }
    else
      ⟨.ok (classify prev (.ofPacket p) packetCount).1, xport,
        (classify prev (.ofPacket p) packetCount).2, .ofPacket p⟩

/-- The loop of `_flush_all` for a channel, with at most so many packets. -/
def flushXport : ℕ → PerBufferInfo → List Fetch → ℕ → List Fetch × ℕ
  | 0, _, xport, packetCount => (xport, packetCount)
  | fuel + 1, prev, xport, packetCount =>
    match (getAndProcessSinglePacket prev xport packetCount {}).result with
    | .ok .timeoutError =>
      ((getAndProcessSinglePacket prev xport packetCount {}).xport,
        (getAndProcessSinglePacket prev xport packetCount {}).packetCount)
    | _ =>
      flushXport fuel
        { (getAndProcessSinglePacket prev xport packetCount {}).info with buff := none }
        (getAndProcessSinglePacket prev xport packetCount {}).xport
        (getAndProcessSinglePacket prev xport packetCount {}).packetCount

/-! ## The handler -/

/-- What the overflow handler does when it is called. -/
inductive OverflowAction where
  | nothing
  | flush
  | throws
  deriving DecidableEq

/-- Where samples are copied from. -/
structure Source where
  buff : Option RecvBuffer
  ifpi : IfPacketInfo
  copyBuff : Option ℕ
  deriving DecidableEq

/-- What happens inside of a call. -/
inductive Event (n : ℕ) where
  /-- A packet was fetched for a channel of a set; `info` is the info of the channel then. -/
  | fetched (set : BuffersInfo n) (index : Fin n) (result : Except Thrown PacketType)
      (info : PerBufferInfo)
  /-- An error, and what the overflow handler did if it was called. -/
  | failed (code : ℕ) (action : OverflowAction)
  /-- So many bytes, which are so many samples of each output, were copied from each channel. -/
  | copied (nsamps bytes : ℕ) (sources : Fin n → Source)
  /-- An exception ended a call that had copied so many samples. -/
  | threw (copied : ℕ)

/-- What does not change. -/
structure Config where
  alignmentFailureThreshold : ℕ
  numOutputs : ℕ
  bytesPerOtwItem : ℕ
  tickRate : ℚ
  sampRate : ℚ
  numOutputs_pos : 0 < numOutputs
  bytesPerOtwItem_pos : 0 < bytesPerOtwItem

/-- `recv_packet_handler` -/
structure RecvPacketHandler (n : ℕ) where
  queueErrorForNextCall : Bool := false
  queueMetadata : Metadata := {}
  packetCount : Fin n → ℕ := fun _ => 0
  /-- What the transports are going to yield. -/
  xports : Fin n → List Fetch
  /-- What the overflow handler is going to do; after that it does nothing. -/
  overflowActions : List OverflowAction := []
  prevInfo : BuffersInfo n := {}
  currInfo : BuffersInfo n := {}
  nextInfo : BuffersInfo n := {}
  /-- The fourth set of the ring. -/
  otherInfo : BuffersInfo n := {}
  trace : List (Event n) := []

/-- An exception, or what is returned, and the handler after it. -/
abbrev Outcome (n : ℕ) (α : Type) := Except Thrown α × RecvPacketHandler n

namespace RecvPacketHandler

/-- Record what happens. -/
def record (h : RecvPacketHandler n) (event : Event n) : RecvPacketHandler n :=
  { h with trace := h.trace ++ [event] }

/-- `_flush_all` -/
def flushAll (h : RecvPacketHandler n) : RecvPacketHandler n :=
  { h with
    prevInfo := h.prevInfo.reset
    currInfo := h.currInfo.reset
    nextInfo := h.nextInfo.reset
    xports := fun i => (flushXport ((h.xports i).length + 1) {} (h.xports i) (h.packetCount i)).1
    packetCount := fun i =>
      (flushXport ((h.xports i).length + 1) {} (h.xports i) (h.packetCount i)).2 }

/-- What the overflow handler is going to do. -/
def overflowAction (h : RecvPacketHandler n) : OverflowAction :=
  h.overflowActions.headD .nothing

/-- `handle_overflow`, apart from the exception -/
def handleOverflow (h : RecvPacketHandler n) : RecvPacketHandler n :=
  if h.overflowAction = .flush then
    { h with overflowActions := h.overflowActions.tail }.flushAll
  else { h with overflowActions := h.overflowActions.tail }

/-- The reset of the previous set, and `increment_buffer_info` -/
def increment (h : RecvPacketHandler n) : RecvPacketHandler n :=
  { h with
    prevInfo := h.currInfo
    currInfo := h.nextInfo
    nextInfo := h.otherInfo
    otherInfo := h.prevInfo.reset }

/-- `std::swap(curr_info, next_info)`, and the error code that is set next -/
def swapWithError (h : RecvPacketHandler n) (code : ℕ) : RecvPacketHandler n :=
  { h with currInfo := h.nextInfo.withError code, nextInfo := h.currInfo }

/-- What `get_and_process_single_packet` is called with in the loop. -/
def process (h : RecvPacketHandler n) (index : Fin n) : Processed :=
  getAndProcessSinglePacket (h.prevInfo.info index) (h.xports index) (h.packetCount index)
    (h.currInfo.info index)

/-- A single packet was fetched for a channel of the current set. -/
def fetch (h : RecvPacketHandler n) (index : Fin n) : RecvPacketHandler n :=
  { h with
    xports := Function.update h.xports index (h.process index).xport
    packetCount := Function.update h.packetCount index (h.process index).packetCount
    currInfo := h.currInfo.setInfo index (h.process index).info
    trace := h.trace ++
      [.fetched h.currInfo index (h.process index).result (h.process index).info] }

/-- The error code of an inline message. -/
def contextCode (h : RecvPacketHandler n) (index : Fin n) : ℕ :=
  match (h.currInfo.info index).buff with
  | some (.packet p) => getContextCode p
  | _ => errorCodeNone

/-- The swap at an inline message, and the metadata that are set then. -/
def swapWithMessage (cfg : Config) (h : RecvPacketHandler n) (index : Fin n) :
    RecvPacketHandler n :=
  { h with
    currInfo := { h.nextInfo with
      metadata := { h.nextInfo.metadata with
        hasTimeSpec := (h.currInfo.info index).ifpi.hasTsf
        timeSpec := TimeSpec.fromTicks (h.currInfo.info index).time cfg.tickRate
        errorCode := h.contextCode index } }
    nextInfo := h.currInfo }

/-- The call of the overflow handler, with the error that it is called for. -/
def callOverflow (h : RecvPacketHandler n) (code : ℕ) : RecvPacketHandler n :=
  (h.record (.failed code h.overflowAction)).handleOverflow

/-- Release the buffer of an inline message. -/
def releaseMessage (h : RecvPacketHandler n) (index : Fin n) : RecvPacketHandler n :=
  { h with
    nextInfo := h.nextInfo.setInfo index
      { h.nextInfo.info index with buff := none, copyBuff := none } }

/-- Set the metadata of the current set. -/
def withMetadata (h : RecvPacketHandler n) (metadata : Metadata) : RecvPacketHandler n :=
  { h with currInfo := { h.currInfo with metadata := metadata } }

/-- `PACKET_INLINE_MESSAGE`.  The metadata are saved from the overflow handler. -/
def inlineMessage (cfg : Config) (h : RecvPacketHandler n) (index : Fin n) : Outcome n Unit :=
  if h.contextCode index = errorCodeOverflow then
    if h.overflowAction = .throws then
      (.error .overflowHandler, (h.swapWithMessage cfg index).callOverflow errorCodeOverflow)
    else
      (.ok (), (((h.swapWithMessage cfg index).callOverflow errorCodeOverflow).withMetadata
        (h.swapWithMessage cfg index).currInfo.metadata).releaseMessage index)
  else
    (.ok (), ((h.swapWithMessage cfg index).record
      (.failed (h.contextCode index) .nothing)).releaseMessage index)

/-- `PACKET_SEQUENCE_ERROR` -/
def sequenceError (cfg : Config) (h : RecvPacketHandler n) (index : Fin n) : RecvPacketHandler n :=
  { (h.record (.failed errorCodeOverflow .nothing)) with
    currInfo := { h.nextInfo with
      metadata := { h.nextInfo.metadata with
        hasTimeSpec := h.prevInfo.metadata.hasTimeSpec
        timeSpec := h.prevInfo.metadata.timeSpec +
          TimeSpec.fromTicks
            ((h.prevInfo.info index).ifpi.numPayloadWords32 * 4 / cfg.bytesPerOtwItem : ℕ)
            cfg.sampRate
        outOfSequence := true
        errorCode := errorCodeOverflow } }
    nextInfo := h.currInfo.alignmentCheck index }

/-- Too many iterations.  The metadata are not saved from the overflow handler. -/
def alignmentFailure (h : RecvPacketHandler n) : Outcome n Unit :=
  ( if h.overflowAction = .throws then .error .overflowHandler else .ok (),
    (h.swapWithError errorCodeAlignment).callOverflow errorCodeAlignment )

/-- The metadata of a set of aligned packets is that of its first channel. -/
def aligned [NeZero n] (cfg : Config) (h : RecvPacketHandler n) : RecvPacketHandler n :=
  { h with
    currInfo := { h.currInfo with
      metadata := { h.currInfo.metadata with
        hasTimeSpec := (h.currInfo.info 0).ifpi.hasTsf
        timeSpec := TimeSpec.fromTicks (h.currInfo.info 0).time cfg.tickRate
        moreFragments := false
        fragmentOffset := 0
        errorCode := errorCodeNone } } }

/-! ## What is recorded -/

theorem handleOverflow_trace (h : RecvPacketHandler n) : h.handleOverflow.trace = h.trace := by
  rw [handleOverflow]
  split_ifs <;> rfl

theorem subset_callOverflow (h : RecvPacketHandler n) (code : ℕ) :
    h.trace ⊆ (h.callOverflow code).trace := by
  rw [callOverflow, handleOverflow_trace]
  exact List.subset_append_left _ _

theorem subset_inlineMessage (cfg : Config) (h : RecvPacketHandler n) (index : Fin n) :
    h.trace ⊆ (h.inlineMessage cfg index).2.trace := by
  rw [inlineMessage]
  split_ifs with hcode hthrows
  · exact subset_callOverflow (h.swapWithMessage cfg index) _
  · exact subset_callOverflow (h.swapWithMessage cfg index) _
  · exact List.subset_append_left _ _

theorem subset_alignmentFailure (h : RecvPacketHandler n) :
    h.trace ⊆ h.alignmentFailure.2.trace :=
  subset_callOverflow (h.swapWithError errorCodeAlignment) _

/-- A property of the handler, provided that all that was recorded is of some kind. -/
def Provided (good : Event n → Prop) (P : RecvPacketHandler n → Prop) (h : RecvPacketHandler n) :
    Prop :=
  (∀ event ∈ h.trace, good event) → P h

theorem Provided.of_subset {good : Event n → Prop} {P Q : RecvPacketHandler n → Prop}
    {h h' : RecvPacketHandler n} (hh : Provided good P h) (hsubset : h.trace ⊆ h'.trace)
    (himp : P h → Q h') : Provided good Q h' :=
  fun hgood => himp (hh fun event hevent => hgood event (hsubset hevent))

/-! ## Aligned sets -/

/-- An iteration of the loop of `get_aligned_buffs`: it ends the loop, or it does not. -/
def alignPass [NeZero n] (cfg : Config) (h : RecvPacketHandler n) :
    Outcome n Unit ⊕ RecvPacketHandler n :=
  match h.currInfo.findFirst with
  | none => .inl (.ok (), h.aligned cfg)
  | some index =>
    match (h.process index).result with
    | .error .valueError =>
      .inl (.ok (), ((h.fetch index).record (.failed errorCodeBadPacket .nothing)).swapWithError
        errorCodeBadPacket)
    | .error thrown => .inl (.error thrown, h.fetch index)
    | .ok .inlineMessage => .inl ((h.fetch index).inlineMessage cfg index)
    | .ok .timeoutError => .inl (.ok (), (h.fetch index).swapWithError errorCodeTimeout)
    | .ok .sequenceError => .inl (.ok (), (h.fetch index).sequenceError cfg index)
    | .ok .ifData =>
      .inr { h.fetch index with currInfo := (h.fetch index).currInfo.alignmentCheck index }
    | .ok .timestampError =>
      .inr { h.fetch index with
        currInfo := ((h.fetch index).currInfo.restart index).alignmentCheck index }

/-- The loop of `get_aligned_buffs`, which may go on for so many iterations after this one. -/
def alignLoop [NeZero n] (cfg : Config) : ℕ → RecvPacketHandler n → Outcome n Unit
  | 0, h =>
    match alignPass cfg h with
    | .inl outcome => outcome
    | .inr h => h.alignmentFailure
  | remaining + 1, h =>
    match alignPass cfg h with
    | .inl outcome => outcome
    | .inr h => alignLoop cfg remaining h

/-- `get_aligned_buffs` -/
def getAlignedBuffs [NeZero n] (cfg : Config) (h : RecvPacketHandler n) : Outcome n Unit :=
  alignLoop cfg (cfg.alignmentFailureThreshold + 1)
    { h.increment with currInfo := h.increment.currInfo.withError errorCodeNone }

/-! ## The samples -/

/-- Where the samples of a channel are copied from. -/
def source (h : RecvPacketHandler n) (i : Fin n) : Source where
  buff := (h.currInfo.info i).buff
  ifpi := (h.currInfo.info i).ifpi
  copyBuff := (h.currInfo.info i).copyBuff

/-- `nsamps_to_copy` -/
def nsampsToCopy (cfg : Config) (nsampsPerBuff : ℕ) (h : RecvPacketHandler n) : ℕ :=
  min (nsampsPerBuff * cfg.numOutputs) (h.currInfo.dataBytesToCopy / cfg.bytesPerOtwItem)

/-- `convert_to_out_buff`, for all channels, and the update of the set -/
def convertToOutBuff (cfg : Config) (nsampsToCopy : ℕ) (h : RecvPacketHandler n) :
    RecvPacketHandler n :=
  let bytesToCopy := nsampsToCopy * cfg.bytesPerOtwItem
  { h with
    currInfo := { h.currInfo with
      info := fun i =>
        { h.currInfo.info i with
          copyBuff := (h.currInfo.info i).copyBuff.map (· + bytesToCopy)
          buff := if h.currInfo.dataBytesToCopy = bytesToCopy then none
            else (h.currInfo.info i).buff }
      dataBytesToCopy := h.currInfo.dataBytesToCopy - bytesToCopy
      fragmentOffsetInSamps := h.currInfo.fragmentOffsetInSamps + nsampsToCopy }
    trace := h.trace ++ [.copied (nsampsToCopy / cfg.numOutputs) bytesToCopy h.source] }

/-- The part of `recv_one_packet` that follows `get_aligned_buffs` -/
def copySamples (cfg : Config) (nsampsPerBuff : ℕ) (h : RecvPacketHandler n) :
    Outcome n (ℕ × Metadata) :=
  (.ok (nsampsToCopy cfg nsampsPerBuff h / cfg.numOutputs,
    { h.currInfo.metadata with
      timeSpec := h.currInfo.metadata.timeSpec +
        TimeSpec.fromTicks h.currInfo.fragmentOffsetInSamps cfg.sampRate
      moreFragments := decide
        ((h.convertToOutBuff cfg (nsampsToCopy cfg nsampsPerBuff h)).currInfo.dataBytesToCopy ≠ 0)
      fragmentOffset := h.currInfo.fragmentOffsetInSamps }),
    h.convertToOutBuff cfg (nsampsToCopy cfg nsampsPerBuff h))

/-- `recv_one_packet` -/
def recvOnePacket [NeZero n] (cfg : Config) (nsampsPerBuff : ℕ) (h : RecvPacketHandler n) :
    Outcome n (ℕ × Metadata) :=
  match if h.currInfo.dataBytesToCopy = 0 then getAlignedBuffs cfg h else (.ok (), h) with
  | (.error thrown, h) => (.error thrown, h)
  | (.ok _, h) => copySamples cfg nsampsPerBuff h

/-- The loop of `recv`, with at most so many more packets. -/
def recvLoop [NeZero n] (cfg : Config) (nsampsPerBuff : ℕ) :
    ℕ → ℕ → Metadata → RecvPacketHandler n → Option (Outcome n (ℕ × Metadata))
  | 0, _, _, _ => none
  | fuel + 1, accum, metadata, h =>
    if accum < nsampsPerBuff then
      match recvOnePacket cfg (nsampsPerBuff - accum) h with
      | (.error thrown, h) => some (.error thrown, h.record (.threw accum))
      | (.ok (nsamps, queued), h) =>
        let h := { h with queueMetadata := queued }
        let metadata := { metadata with endOfBurst := queued.endOfBurst }
        if queued.errorCode ≠ errorCodeNone then
          some (.ok (accum, metadata), { h with queueErrorForNextCall := true })
        else if queued.endOfBurst then some (.ok (accum + nsamps, metadata), h)
        else recvLoop cfg nsampsPerBuff fuel (accum + nsamps) metadata h
    else some (.ok (accum, metadata), h)

/-- `recv` without the metadata of an earlier call -/
def recvPackets [NeZero n] (cfg : Config) (fuel nsampsPerBuff : ℕ) (onePacket : Bool)
    (h : RecvPacketHandler n) : Option (Outcome n (ℕ × Metadata)) :=
  match recvOnePacket cfg nsampsPerBuff h with
  | (.error thrown, h) => some (.error thrown, h.record (.threw 0))
  | (.ok (nsamps, metadata), h) =>
    if onePacket || metadata.endOfBurst then some (.ok (nsamps, metadata), h)
    else if metadata.errorCode ≠ errorCodeNone then some (.ok (nsamps, metadata), h)
    else recvLoop cfg nsampsPerBuff fuel nsamps metadata h

/-- `recv`, with at most so many iterations of its loop -/
def recv [NeZero n] (cfg : Config) (fuel nsampsPerBuff : ℕ) (onePacket : Bool)
    (h : RecvPacketHandler n) : Option (Outcome n (ℕ × Metadata)) :=
  if h.queueErrorForNextCall then
    if h.queueMetadata.errorCode ≠ errorCodeTimeout then
      some (.ok (0, h.queueMetadata), { h with queueErrorForNextCall := false })
    else recvPackets cfg fuel nsampsPerBuff onePacket { h with queueErrorForNextCall := false }
  else recvPackets cfg fuel nsampsPerBuff onePacket h

end RecvPacketHandler

/-! ## Runs -/

/-- A call of the user. -/
inductive Call where
  | recv (fuel nsampsPerBuff : ℕ) (onePacket : Bool)
  | flushAll
  deriving DecidableEq

/-- The handler, and what its calls have returned. -/
structure Session (n : ℕ) where
  handler : RecvPacketHandler n
  returned : List (ℕ × Metadata) := []

/-- The session after a call of `recv`. -/
def Session.next (s : Session n) : Outcome n (ℕ × Metadata) → Session n
  | (.ok result, h) => { handler := h, returned := s.returned ++ [result] }
  | (.error _, h) => { s with handler := h }

open RecvPacketHandler in
/-- A call.  It has no result where the loop of `recv` goes on for longer. -/
def step [NeZero n] (cfg : Config) (s : Session n) : Call → Option (Session n)
  | .recv fuel nsampsPerBuff onePacket =>
    (recv cfg fuel nsampsPerBuff onePacket s.handler).map s.next
  | .flushAll => some { s with handler := s.handler.flushAll }

/-- A handler that has just been made. -/
def start (xports : Fin n → List Fetch) (overflowActions : List OverflowAction) : Session n where
  handler := { xports := xports, overflowActions := overflowActions }

end RecvHandler
end Transport
end UhdHost
