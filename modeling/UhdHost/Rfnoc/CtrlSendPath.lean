import UhdHost.Rfnoc.CtrlPayloadFormat
import UhdHost.Rfnoc.StreamPacketRoundTrip

/-!
# Sending control packets

All control port endpoints that were made by one `chdr_ctrl_endpoint_impl` share its send function:
it draws a sequence number from `_send_seqnum`, takes `_send_mutex`, asks the transport for a
frame, writes the packet into it and hands the frame back to be sent.

Any number of threads are in the send function at once.  A send is known by its number, in the
order in which the sends read the counter, and moves from one stage to the next when its thread
is scheduled.  What the transport does (whether it has a frame, what it throws) is part of the
action.

## Why the order is lost

The sequence number is drawn *before* the mutex is taken, by a read and a write that nothing
protects, and before it is known whether there is a frame.  So packets leave in the order in which
the sends got the mutex, with the numbers of the order in which they came; a send that throws has
used up a number; and a frame that is absent is written to like any other.
-/

namespace UhdHost
namespace Rfnoc

open Chdr Transition

/-- `populate_header` -/
def CtrlPayload.populateHeader (_ : CtrlPayload) (header : ChdrHeader) : ChdrHeader :=
  populate .ctrl header

namespace CtrlSend

/-- What the packets are written with, and `_send_frame_size`. -/
structure Config where
  host : Endianness
  link : Endianness
  chdrW : ChdrW
  sendFrameSize : ℕ

/-- The room that a frame has for a payload. -/
def payloadRoom (cfg : Config) (header : ChdrHeader) : ℕ :=
  let headerSize := cfg.chdrW.bytes * computeMdataOffset cfg.chdrW header
  if headerSize < cfg.sendFrameSize then cfg.sendFrameSize - headerSize else 0

/-- `chdr_ctrl_packet::refresh`, of a packet that is written: what `header` is set to, and the words
of the payload. -/
def refresh (cfg : Config) (header : ChdrHeader) (payload : CtrlPayload) :
    Except UhdError (ChdrHeader × List (BitVec 32)) :=
  let header := payload.populateHeader header
  match payload.serialize (payloadRoom cfg header) (Endianness.conv cfg.host cfg.link) with
  | .error e => .error e
  | .ok (words, bytesCopied) =>
    .ok (header.setLength (BitVec.ofNat 16
      ((computeMdataOffset cfg.chdrW header + header.getNumMdata.toNat) * cfg.chdrW.bytes +
        bytesCopied)), words)

/-- The header that the send function builds. -/
def sendHeader (seqnum : BitVec 64) (dstEpid : BitVec 16) : ChdrHeader :=
  (((ChdrHeader.setPktType {} .ctrl).setNumMdata 0).setSeqNum (seqnum.setWidth 16)).setDstEpid
    dstEpid

/-- How far a send is. -/
inductive SendStage where
  /-- `_send_seqnum` was read and is still to be written back. -/
  | counterRead (seqnum : BitVec 64)
  /-- The header is built; the next thing is to take `_send_mutex`. -/
  | waiting (header : ChdrHeader)
  /-- `_send_mutex` is taken. -/
  | locked (header : ChdrHeader)
  /-- `get_send_buff` has returned, with a frame or without. -/
  | buffered (header : ChdrHeader) (sendBuff : Bool)
  /-- The packet is in the frame. -/
  | refreshed (header : ChdrHeader) (words : List (BitVec 32))
  /-- A null pointer was used as a frame.  Nothing is known of what happens then. -/
  | absentFrameUsed
  | threw (e : UhdError)
  | returned
  deriving DecidableEq

/-- A call of the send function. -/
structure Send where
  dstEpid : BitVec 16
  payload : CtrlPayload
  stage : SendStage
  deriving DecidableEq

/-- A packet on the wire, and the send that transmitted it. -/
structure WirePacket where
  sender : ℕ
  header : ChdrHeader
  words : List (BitVec 32)
  deriving DecidableEq

/-- The endpoint, its sends in the order in which they read the counter, and what was transmitted. -/
structure SendPath where
  /-- `_send_seqnum` -/
  sendSeqnum : BitVec 64 := 0
  /-- `_send_mutex` is taken. -/
  sendMutex : Bool := false
  sends : List Send := []
  /-- The packets, in the order of their transmission. -/
  wire : List WirePacket := []
  /-- The sends that advanced the counter. -/
  advancedBy : List ℕ := []

/-- What happens next. -/
inductive SendAction where
  /-- The send function is called and reads `_send_seqnum`. -/
  | readSeqnum (dstEpid : BitVec 16) (payload : CtrlPayload)
  /-- `_send_seqnum` is written, and the header built. -/
  | writeSeqnum (i : ℕ)
  | lock (i : ℕ)
  /-- `get_send_buff` returns, with a frame or without, or throws. -/
  | getSendBuff (i : ℕ) (result : Except UhdError Bool)
  | refresh (i : ℕ)
  /-- `release_send_buff` returns or throws. -/
  | releaseSendBuff (i : ℕ) (result : Except UhdError Unit)

/-- Send `i` gets to another stage. -/
def SendPath.setStage (s : SendPath) (i : ℕ) (call : Send) (stage : SendStage) : SendPath :=
  { s with sends := s.sends.set i { call with stage := stage } }

/-- One step of one thread. -/
def step (cfg : Config) (s : SendPath) : SendAction → Option SendPath
  | .readSeqnum dstEpid payload =>
    some { s with sends := s.sends ++ [⟨dstEpid, payload, .counterRead s.sendSeqnum⟩] }
  | .writeSeqnum i => s.sends[i]?.bind fun call =>
    match call.stage with
    | .counterRead seqnum =>
      some { s.setStage i call (.waiting (sendHeader seqnum call.dstEpid)) with
        sendSeqnum := seqnum + 1
        advancedBy := s.advancedBy ++ [i] }
    | _ => none
  | .lock i => s.sends[i]?.bind fun call =>
    match call.stage with
    | .waiting header =>
      if s.sendMutex then none
      else some { s.setStage i call (.locked header) with sendMutex := true }
    | _ => none
  | .getSendBuff i result => s.sends[i]?.bind fun call =>
    match call.stage with
    | .locked header =>
      match result with
      | .ok sendBuff => some (s.setStage i call (.buffered header sendBuff))
      | .error e => some { s.setStage i call (.threw e) with sendMutex := false }
    | _ => none
  | .refresh i => s.sends[i]?.bind fun call =>
    match call.stage with
    | .buffered header true =>
      match CtrlSend.refresh cfg header call.payload with
      | .ok (header, words) => some (s.setStage i call (.refreshed header words))
      | .error e => some { s.setStage i call (.threw e) with sendMutex := false }
    | .buffered _ false => some (s.setStage i call .absentFrameUsed)
    | _ => none
  | .releaseSendBuff i result => s.sends[i]?.bind fun call =>
    match call.stage with
    | .refreshed header words =>
      match result with
      | .ok () => some { s.setStage i call .returned with
          sendMutex := false
          wire := s.wire ++ [⟨i, header, words⟩] }
      | .error e => some { s.setStage i call (.threw e) with sendMutex := false }
    | _ => none

/-! ## What the sends promise -/

/-- **The promise.**  Sequence numbers on the wire are consecutive, every send that returned has
transmitted one packet and no other send has; a send that threw has left the counter alone, and no
absent frame was used. -/
structure SendPath.KeepsPromise (s : SendPath) : Prop where
  consecutive : ∀ k p q, s.wire[k]? = some p → s.wire[k + 1]? = some q →
    q.header.getSeqNum = p.header.getSeqNum + 1
  transmits : ∀ i call, s.sends[i]? = some call →
    (s.wire.filter fun p => p.sender = i).length = if call.stage = .returned then 1 else 0
  threw : ∀ i call e, s.sends[i]? = some call → call.stage = .threw e → i ∉ s.advancedBy
  framePresent : ∀ call ∈ s.sends, call.stage ≠ .absentFrameUsed

/-- A payload that `serialize` accepts, in the frames of the transport. -/
def Fits (cfg : Config) (payload : CtrlPayload) : Prop :=
  (payload.numData = payload.dataVtr.length ∧ payload.numData ≤ CtrlPayload.maxDataWords) ∧
    payload.reqSize ≤ CtrlPayload.maxDataWords ∧
    payload.getLength ≤ cfg.sendFrameSize - cfg.chdrW.bytes

instance (cfg : Config) (payload : CtrlPayload) : Decidable (Fits cfg payload) :=
  inferInstanceAs (Decidable (_ ∧ _))

def SendStage.isCounterRead : SendStage → Bool
  | .counterRead _ => true
  | _ => false

def SendStage.isWaiting : SendStage → Bool
  | .waiting _ => true
  | _ => false

/-- **The condition on a step.**  Nobody reads the counter between another's read and write of it,
the mutex goes to the send that has waited longest, the transport has a frame and takes the packet,
and payloads fit into frames. -/
def Orderly (cfg : Config) (s : SendPath) : SendAction → Prop
  | .readSeqnum _ payload => (∀ call ∈ s.sends, ¬ call.stage.isCounterRead) ∧ Fits cfg payload
  | .writeSeqnum _ => True
  | .lock i => ∀ call ∈ s.sends.take i, ¬ call.stage.isWaiting
  | .getSendBuff _ result => result = .ok true
  | .refresh _ => True
  | .releaseSendBuff _ result => result = .ok ()

instance decidableOrderly (cfg : Config) (s : SendPath) :
    (a : SendAction) → Decidable (Orderly cfg s a)
  | .readSeqnum _ payload => inferInstanceAs
      (Decidable ((∀ call ∈ s.sends, ¬ call.stage.isCounterRead) ∧ Fits cfg payload))
  | .writeSeqnum _ => inferInstanceAs (Decidable True)
  | .lock i => inferInstanceAs (Decidable (∀ call ∈ s.sends.take i, ¬ call.stage.isWaiting))
  | .getSendBuff _ result => inferInstanceAs (Decidable (result = .ok true))
  | .refresh _ => inferInstanceAs (Decidable True)
  | .releaseSendBuff _ result => inferInstanceAs (Decidable (result = .ok ()))

/-! ## The packet that is written -/

theorem getSeqNum_sendHeader (seqnum : BitVec 64) (dstEpid : BitVec 16) :
    (sendHeader seqnum dstEpid).getSeqNum = seqnum.setWidth 16 := by
  have hfits : ((seqnum.setWidth 16).setWidth 64).toNat < 2 ^ HeaderField.seqNum.width := by
    rw [BitFields.toNat_setWidth_of_le _ (by decide)]
    exact (seqnum.setWidth 16).isLt
  rw [sendHeader, ChdrHeader.setDstEpid, ChdrHeader.getSeqNum,
    ChdrHeader.get_set_of_disjoint _ _ (by decide), ChdrHeader.setSeqNum,
    ChdrHeader.get_set_of_lt _ _ hfits, BitFields.setWidth_setWidth_of_le _ (by decide)]

theorem computeMdataOffset_populateHeader (chdrW : ChdrW) (payload : CtrlPayload)
    (header : ChdrHeader) : computeMdataOffset chdrW (payload.populateHeader header) = 1 := by
  have htype : (payload.populateHeader header).getPktType = PacketType.ctrl.code :=
    congrArg (·.2.2.2.1) (besideLength_populate .ctrl header)
  rw [computeMdataOffset, hasTimestamp, htype]
  cases chdrW with
  | w64 => rfl
  | w128 => rfl
  | w256 => rfl
  | w512 => rfl

theorem refresh_of_fits {cfg : Config} {payload : CtrlPayload} (hfits : Fits cfg payload)
    (header : ChdrHeader) :
    ∃ written words, refresh cfg header payload = .ok (written, words) ∧
      written.getSeqNum = header.getSeqNum := by
  obtain ⟨hcount, hreqSize, hlength⟩ := hfits
  have hroom : payloadRoom cfg (payload.populateHeader header) =
      cfg.sendFrameSize - cfg.chdrW.bytes := by
    rw [payloadRoom, computeMdataOffset_populateHeader, Nat.mul_one]
    split_ifs with hlt
    · rfl
    · rw [Nat.sub_eq_zero_of_le (Nat.le_of_not_lt hlt)]
  have hwords : (payload.words (Endianness.conv cfg.host cfg.link)).length * 4 =
      payload.getLength := by
    rw [CtrlPayload.length_words, CtrlPayload.getLength]
  have hserialize : payload.serialize (payloadRoom cfg (payload.populateHeader header))
      (Endianness.conv cfg.host cfg.link) =
        .ok (payload.words (Endianness.conv cfg.host cfg.link), payload.getLength) := by
    rw [CtrlPayload.serialize, if_neg (not_not.mpr hcount), if_neg (not_not.mpr hreqSize),
      if_neg (not_not.mpr (hroom ▸ hlength)), if_neg (not_not.mpr hwords), hwords]
  refine ⟨_, _, by rw [refresh, hserialize], ?_⟩
  have hother := congrArg (·.2.2.2.2.2.1) (besideLength_setLength (payload.populateHeader header)
    (BitVec.ofNat 16 ((computeMdataOffset cfg.chdrW (payload.populateHeader header) +
      (payload.populateHeader header).getNumMdata.toNat) * cfg.chdrW.bytes + payload.getLength)))
  exact hother.trans (congrArg (·.2.2.2.2.2.1) (besideLength_populate .ctrl header))

/-! ## Sends that are served in order

`InTurn` says how far send `i` can be while `n` packets are on the wire: the first `n` sends have
returned, send `n` is the only one that may have the mutex, and the header of each send carries the
number of the send. -/

/-- Where send `i` can be, after `n` packets, with a counter and a mutex, among `total` sends. -/
def InTurn (n total : ℕ) (counter : BitVec 64) (mutex : Bool) (i : ℕ) : SendStage → Prop
  | .counterRead seqnum =>
    seqnum = BitVec.ofNat 64 i ∧ i + 1 = total ∧ counter = BitVec.ofNat 64 i ∧ n ≤ i
  | .waiting header => header.getSeqNum = BitVec.ofNat 16 i ∧ n ≤ i
  | .locked header => header.getSeqNum = BitVec.ofNat 16 i ∧ i = n ∧ mutex = true
  | .buffered header sendBuff =>
    header.getSeqNum = BitVec.ofNat 16 i ∧ i = n ∧ mutex = true ∧ sendBuff = true
  | .refreshed header _ => header.getSeqNum = BitVec.ofNat 16 i ∧ i = n ∧ mutex = true
  | .absentFrameUsed => False
  | .threw _ => False
  | .returned => i < n

/-- Every send is served in its turn. -/
structure SendPath.Served (cfg : Config) (s : SendPath) : Prop where
  /-- The packets come in the order of the sends, each with the number of its send. -/
  wire : ∀ k p, s.wire[k]? = some p → p.sender = k ∧ p.header.getSeqNum = BitVec.ofNat 16 k
  sends : ∀ i call, s.sends[i]? = some call → Fits cfg call.payload ∧
    InTurn s.wire.length s.sends.length s.sendSeqnum s.sendMutex i call.stage
  /-- The counter is that of the sends, unless the last of them is still to write it. -/
  counter : (∀ call ∈ s.sends, call.stage.isCounterRead = false) →
    s.sendSeqnum = BitVec.ofNat 64 s.sends.length
  length_le : s.wire.length ≤ s.sends.length

theorem SendPath.Served.move {cfg : Config} {s s' : SendPath} {i : ℕ} {call : Send}
    {stage : SendStage} (h : s.Served cfg) (hi : s.sends[i]? = some call)
    (hsends : s'.sends = s.sends.set i { call with stage := stage })
    (hwire : ∀ k p, s'.wire[k]? = some p →
      p.sender = k ∧ p.header.getSeqNum = BitVec.ofNat 16 k)
    (hself : InTurn s'.wire.length s.sends.length s'.sendSeqnum s'.sendMutex i stage)
    (hothers : ∀ j other, j ≠ i →
      InTurn s.wire.length s.sends.length s.sendSeqnum s.sendMutex j other →
        InTurn s'.wire.length s.sends.length s'.sendSeqnum s'.sendMutex j other)
    (hcounter : s'.sendSeqnum = BitVec.ofNat 64 s.sends.length ∨
      s'.sendSeqnum = s.sendSeqnum ∧ call.stage.isCounterRead = false)
    (hlength : s'.wire.length ≤ s.sends.length) : s'.Served cfg := by
  have hlt : i < s.sends.length := (List.getElem?_eq_some_iff.mp hi).1
  have hsame : s'.sends.length = s.sends.length := by rw [hsends, List.length_set]
  refine ⟨hwire, fun j moved hj => ?_, fun hnone => ?_, hsame ▸ hlength⟩
  · rw [hsame]
    rw [hsends, List.getElem?_set] at hj
    split_ifs at hj with heq
    · rw [Option.some_inj] at hj
      subst heq hj
      exact ⟨(h.sends i call hi).1, hself⟩
    · obtain ⟨hfits, hturn⟩ := h.sends j moved hj
      exact ⟨hfits, hothers j moved.stage (Ne.symm heq) hturn⟩
  · rw [hsame]
    rcases hcounter with hcounter | ⟨hcounter, hread⟩
    · exact hcounter
    · refine hcounter.trans (h.counter fun other hother => ?_)
      obtain ⟨j, hj⟩ := List.getElem?_of_mem hother
      by_cases heq : i = j
      · subst heq
        rw [hi, Option.some_inj] at hj
        exact hj ▸ hread
      · refine hnone other (List.mem_of_getElem? (i := j) ?_)
        rw [hsends, List.getElem?_set_ne heq]
        exact hj

theorem InTurn.of_waiting {n total j : ℕ} {counter counter' : BitVec 64} {mutex mutex' : Bool}
    {other : SendStage} (hcounter : j + 1 = total → counter = counter')
    (hmutex : mutex = true → mutex' = true) (h : InTurn n total counter mutex j other) :
    InTurn n total counter' mutex' j other := by
  cases other with
  | counterRead seqnum =>
    obtain ⟨hseqnum, hlast, hread, hle⟩ := h
    exact ⟨hseqnum, hlast, (hcounter hlast) ▸ hread, hle⟩
  | waiting header => exact h
  | locked header => exact ⟨h.1, h.2.1, hmutex h.2.2⟩
  | buffered header sendBuff => exact ⟨h.1, h.2.1, hmutex h.2.2.1, h.2.2.2⟩
  | refreshed header words => exact ⟨h.1, h.2.1, hmutex h.2.2⟩
  | absentFrameUsed => exact h
  | threw e => exact h
  | returned => exact h

theorem InTurn.next {n total j : ℕ} {counter : BitVec 64} {mutex : Bool} {other : SendStage}
    (hj : j ≠ n) (h : InTurn n total counter mutex j other) :
    InTurn (n + 1) total counter false j other := by
  cases other with
  | counterRead seqnum =>
    obtain ⟨hseqnum, hlast, hread, hle⟩ := h
    exact ⟨hseqnum, hlast, hread, Nat.lt_of_le_of_ne hle (Ne.symm hj)⟩
  | waiting header => exact ⟨h.1, Nat.lt_of_le_of_ne h.2 (Ne.symm hj)⟩
  | locked header => exact absurd h.2.1 hj
  | buffered header sendBuff => exact absurd h.2.1 hj
  | refreshed header words => exact absurd h.2.1 hj
  | absentFrameUsed => exact h
  | threw e => exact h
  | returned => exact Nat.lt_succ_of_lt h

/-! ## One step -/

theorem served_readSeqnum {cfg : Config} {s : SendPath} (h : s.Served cfg) (dstEpid : BitVec 16)
    {payload : CtrlPayload} (hread : ∀ call ∈ s.sends, ¬ call.stage.isCounterRead)
    (hfits : Fits cfg payload) :
    ({ s with sends := s.sends ++ [⟨dstEpid, payload, .counterRead s.sendSeqnum⟩] } :
      SendPath).Served cfg := by
  have hnone : ∀ call ∈ s.sends, call.stage.isCounterRead = false :=
    fun call hcall => Bool.eq_false_iff.mpr (hread call hcall)
  have hcounter := h.counter hnone
  have hgrown : ∀ (stage : SendStage) j, stage.isCounterRead = false →
      InTurn s.wire.length s.sends.length s.sendSeqnum s.sendMutex j stage →
        InTurn s.wire.length (s.sends.length + 1) s.sendSeqnum s.sendMutex j stage := by
    intro stage j hstage hturn
    cases stage with
    | counterRead seqnum => exact absurd hstage (by rw [SendStage.isCounterRead]; exact Bool.noConfusion)
    | waiting header => exact hturn
    | locked header => exact hturn
    | buffered header sendBuff => exact hturn
    | refreshed header words => exact hturn
    | absentFrameUsed => exact hturn
    | threw e => exact hturn
    | returned => exact hturn
  refine ⟨h.wire, fun j call hj => ?_, fun hall => ?_, ?_⟩
  · rw [List.length_append, List.length_singleton]
    rcases getElem?_concat_eq_some.mp hj with hj | ⟨rfl, rfl⟩
    · obtain ⟨hcall, hturn⟩ := h.sends j call hj
      exact ⟨hcall, hgrown call.stage j (hnone call (List.mem_of_getElem? hj)) hturn⟩
    · exact ⟨hfits, hcounter, rfl, hcounter, h.length_le⟩
  · have hlast := hall ⟨dstEpid, payload, .counterRead s.sendSeqnum⟩
      (List.mem_append_right _ List.mem_cons_self)
    exact Bool.noConfusion hlast
  · rw [List.length_append, List.length_singleton]
    exact Nat.le_succ_of_le h.length_le

theorem SendPath.Served.eq_of_first {cfg : Config} {s : SendPath} {i : ℕ} (h : s.Served cfg)
    (hmutex : ¬ s.sendMutex = true) (hi : i < s.sends.length) (hle : s.wire.length ≤ i)
    (hfirst : ∀ call ∈ s.sends.take i, ¬ call.stage.isWaiting) : i = s.wire.length := by
  by_contra hne
  have hlt : s.wire.length < i := Nat.lt_of_le_of_ne hle (Ne.symm hne)
  have hget : s.sends[s.wire.length]? = some s.sends[s.wire.length] := List.getElem?_eq_getElem _
  have hturn := (h.sends _ _ hget).2
  have hearlier := hfirst s.sends[s.wire.length]
    (List.mem_of_getElem? ((List.getElem?_take_of_lt hlt).trans hget))
  generalize s.sends[s.wire.length].stage = stage at hturn hearlier
  cases stage with
  | counterRead seqnum =>
    have hlast := hturn.2.1
    omega
  | waiting header => exact hearlier rfl
  | locked header => exact hmutex hturn.2.2
  | buffered header sendBuff => exact hmutex hturn.2.2.1
  | refreshed header words => exact hmutex hturn.2.2
  | absentFrameUsed => exact hturn
  | threw e => exact hturn
  | returned => exact Nat.lt_irrefl _ hturn

theorem served_step {cfg : Config} {s t : SendPath} {a : SendAction} (h : s.Served cfg)
    (hgood : Orderly cfg s a) (hstep : step cfg s a = some t) : t.Served cfg := by
  cases a with
  | readSeqnum dstEpid payload =>
    rw [step, Option.some_inj] at hstep
    exact hstep ▸ served_readSeqnum h dstEpid hgood.1 hgood.2
  | writeSeqnum i =>
    obtain ⟨⟨dstEpid, payload, stage⟩, hi, hstep⟩ := Option.bind_eq_some_iff.mp hstep
    cases stage with
    | counterRead seqnum =>
      obtain ⟨hseqnum, hlast, hcounter, hle⟩ := (h.sends i _ hi).2
      have hnext : seqnum + 1 = BitVec.ofNat 64 s.sends.length := by
        rw [hseqnum, ← hlast, BitVec.ofNat_add]
        rfl
      have hheader : (sendHeader seqnum dstEpid).getSeqNum = BitVec.ofNat 16 i := by
        rw [getSeqNum_sendHeader, hseqnum, BitVec.setWidth_ofNat_of_le (by decide)]
      dsimp only at hstep
      rw [Option.some_inj] at hstep
      subst hstep
      refine h.move hi rfl h.wire ⟨hheader, hle⟩ (fun j other hj hturn => ?_) (Or.inl hnext)
        h.length_le
      exact hturn.of_waiting (fun hj' => absurd (Nat.succ_injective (hj'.trans hlast.symm)) hj) id
    | _ => cases hstep
  | lock i =>
    obtain ⟨⟨dstEpid, payload, stage⟩, hi, hstep⟩ := Option.bind_eq_some_iff.mp hstep
    cases stage with
    | waiting header =>
      obtain ⟨hseq, hle⟩ := (h.sends i _ hi).2
      dsimp only at hstep
      split_ifs at hstep with hmutex
      have hmine : i = s.wire.length :=
        h.eq_of_first hmutex (List.getElem?_eq_some_iff.mp hi).1 hle hgood
      rw [Option.some_inj] at hstep
      subst hstep
      refine h.move hi rfl h.wire ⟨hseq, hmine, rfl⟩ (fun j other hj hturn => ?_)
        (Or.inr ⟨rfl, rfl⟩) h.length_le
      exact hturn.of_waiting (fun _ => rfl) (fun _ => rfl)
    | _ => cases hstep
  | getSendBuff i result =>
    obtain ⟨⟨dstEpid, payload, stage⟩, hi, hstep⟩ := Option.bind_eq_some_iff.mp hstep
    cases stage with
    | locked header =>
      obtain ⟨hseq, hmine, hmutex⟩ := (h.sends i _ hi).2
      rw [Orderly] at hgood
      subst hgood
      dsimp only at hstep
      rw [Option.some_inj] at hstep
      subst hstep
      exact h.move hi rfl h.wire ⟨hseq, hmine, hmutex, rfl⟩ (fun j other hj hturn => hturn)
        (Or.inr ⟨rfl, rfl⟩) h.length_le
    | _ => cases hstep
  | refresh i =>
    obtain ⟨⟨dstEpid, payload, stage⟩, hi, hstep⟩ := Option.bind_eq_some_iff.mp hstep
    cases stage with
    | buffered header sendBuff =>
      obtain ⟨hfits, hseq, hmine, hmutex, hframe⟩ := h.sends i _ hi
      obtain ⟨written, words, hrefresh, hsame⟩ := refresh_of_fits hfits header
      dsimp only at hframe hrefresh
      subst hframe
      dsimp only at hstep
      rw [hrefresh] at hstep
      dsimp only at hstep
      rw [Option.some_inj] at hstep
      subst hstep
      exact h.move hi rfl h.wire ⟨hsame.trans hseq, hmine, hmutex⟩
        (fun j other hj hturn => hturn) (Or.inr ⟨rfl, rfl⟩) h.length_le
    | _ => cases hstep
  | releaseSendBuff i result =>
    obtain ⟨⟨dstEpid, payload, stage⟩, hi, hstep⟩ := Option.bind_eq_some_iff.mp hstep
    cases stage with
    | refreshed header words =>
      obtain ⟨hseq, hmine, hmutex⟩ := (h.sends i _ hi).2
      rw [Orderly] at hgood
      subst hgood
      dsimp only at hstep
      rw [Option.some_inj] at hstep
      subst hstep
      have hgrown : (s.wire ++ [(⟨i, header, words⟩ : WirePacket)]).length = s.wire.length + 1 := by
        rw [List.length_append, List.length_singleton]
      refine h.move hi rfl (fun k p hk => ?_) ?_ (fun j other hj hturn => ?_)
        (Or.inr ⟨rfl, rfl⟩) ?_
      · rcases getElem?_concat_eq_some.mp hk with hk | ⟨rfl, rfl⟩
        · exact h.wire k p hk
        · exact ⟨hmine, hmine ▸ hseq⟩
      · show i < (s.wire ++ [(⟨i, header, words⟩ : WirePacket)]).length
        rw [hgrown, hmine]
        exact Nat.lt_succ_self _
      · show InTurn (s.wire ++ [(⟨i, header, words⟩ : WirePacket)]).length _ _ _ _ _
        rw [hgrown]
        exact hturn.next (hmine ▸ hj)
      · show (s.wire ++ [(⟨i, header, words⟩ : WirePacket)]).length ≤ s.sends.length
        rw [hgrown, ← hmine]
        exact (List.getElem?_eq_some_iff.mp hi).1
    | _ => cases hstep

/-! ## Runs -/

theorem InTurn.returned_iff {n total i : ℕ} {counter : BitVec 64} {mutex : Bool}
    {stage : SendStage} (h : InTurn n total counter mutex i stage) :
    stage = .returned ↔ i < n := by
  cases stage with
  | counterRead seqnum => exact iff_of_false SendStage.noConfusion (Nat.not_lt.mpr h.2.2.2)
  | waiting header => exact iff_of_false SendStage.noConfusion (Nat.not_lt.mpr h.2)
  | locked header => exact iff_of_false SendStage.noConfusion (Nat.not_lt.mpr h.2.1.ge)
  | buffered header sendBuff => exact iff_of_false SendStage.noConfusion (Nat.not_lt.mpr h.2.1.ge)
  | refreshed header words => exact iff_of_false SendStage.noConfusion (Nat.not_lt.mpr h.2.1.ge)
  | absentFrameUsed => exact absurd h id
  | threw e => exact absurd h id
  | returned => exact iff_of_true rfl h

theorem SendPath.Served.count_sender {cfg : Config} {s : SendPath} (h : s.Served cfg) (i : ℕ) :
    (s.wire.filter fun p => p.sender = i).length = if i < s.wire.length then 1 else 0 := by
  have hsenders : s.wire.map WirePacket.sender = List.range s.wire.length := by
    refine List.ext_getElem? fun k => ?_
    rw [List.getElem?_map]
    by_cases hk : k < s.wire.length
    · rw [List.getElem?_eq_getElem hk, List.getElem?_range hk, Option.map_some,
        (h.wire k _ (List.getElem?_eq_getElem hk)).1]
    · rw [List.getElem?_eq_none (Nat.le_of_not_lt hk),
        List.getElem?_eq_none (by rw [List.length_range]; exact Nat.le_of_not_lt hk), Option.map_none]
  have hcount : (s.wire.filter fun p => p.sender = i).length = (List.range s.wire.length).count i := by
    rw [← hsenders, List.count, List.countP_map, List.countP_eq_length_filter]
    rfl
  rw [hcount]
  split_ifs with hi
  · exact List.count_eq_one_of_mem List.nodup_range (List.mem_range.mpr hi)
  · exact List.count_eq_zero_of_not_mem fun hmem => hi (List.mem_range.mp hmem)

theorem SendPath.Served.keepsPromise {cfg : Config} {s : SendPath} (h : s.Served cfg) :
    s.KeepsPromise := by
  refine ⟨fun k p q hp hq => ?_, fun i call hi => ?_, fun i call e hi hthrew => ?_,
    fun call hcall habsent => ?_⟩
  · rw [(h.wire k p hp).2, (h.wire (k + 1) q hq).2, BitVec.ofNat_add]
    rfl
  · rw [h.count_sender i]
    exact if_congr (h.sends i call hi).2.returned_iff.symm rfl rfl
  · have hturn := (h.sends i call hi).2
    rw [hthrew] at hturn
    exact absurd hturn id
  · obtain ⟨i, hi⟩ := List.getElem?_of_mem hcall
    have hturn := (h.sends i call hi).2
    rw [habsent] at hturn
    exact hturn

/-- **Sends that come in order.**  In a run whose steps are all orderly, every state that is reached
keeps the promise: consecutive sequence numbers, one packet for a send that returned. -/
theorem keepsPromise_of_orderly (cfg : Config) {as : List SendAction} {s : SendPath}
    (horderly : EveryStep (step cfg) (Orderly cfg) {} as) (hrun : run (step cfg) {} as = some s) :
    s.KeepsPromise := by
  have hempty : SendPath.Served cfg {} := by
    refine ⟨fun k p hp => ?_, fun i call hi => ?_, fun _ => rfl, Nat.le_refl 0⟩
    · rw [List.getElem?_nil] at hp
      cases hp
    · rw [List.getElem?_nil] at hi
      cases hi
  exact (run_invariant_of_everyStep (fun s a t hs hgood hstep => served_step hs hgood hstep) hempty
    horderly hrun).keepsPromise

/-- A device with frames of 1472 bytes. -/
def deviceConfig : Config := ⟨.little, .little, .w64, 1472⟩

/-- A read and a write, as `fire_request_packet` assembles them. -/
def peekRequest : CtrlPayload := { dataVtr := [], numData := 0, reqSize := 1, opCode := .read }
def pokeRequest : CtrlPayload := { dataVtr := [7], numData := 1, opCode := .write }

/-- The second send comes before the first has taken the mutex, and waits for it. -/
theorem keepsPromise_two_sends :
    ∃ s, run (step deviceConfig) {} [.readSeqnum 2 peekRequest, .writeSeqnum 0,
        .readSeqnum 3 pokeRequest, .writeSeqnum 1, .lock 0, .getSendBuff 0 (.ok true), .refresh 0,
        .releaseSendBuff 0 (.ok ()), .lock 1, .getSendBuff 1 (.ok true), .refresh 1,
        .releaseSendBuff 1 (.ok ())] = some s ∧ s.KeepsPromise := by
  obtain ⟨s, hs⟩ := Option.isSome_iff_exists.mp (by decide :
    (run (step deviceConfig) {} [.readSeqnum 2 peekRequest, .writeSeqnum 0,
      .readSeqnum 3 pokeRequest, .writeSeqnum 1, .lock 0, .getSendBuff 0 (.ok true), .refresh 0,
      .releaseSendBuff 0 (.ok ()), .lock 1, .getSendBuff 1 (.ok true), .refresh 1,
      .releaseSendBuff 1 (.ok ())]).isSome = true)
  exact ⟨s, hs, keepsPromise_of_orderly deviceConfig (by decide) hs⟩

/-- The mutex goes to the later of two sends: its packet overtakes.  And where the transport has no
frame, an absent one is used. -/
theorem overtaken_and_absent :
    (∃ s, run (step deviceConfig) {} [.readSeqnum 2 peekRequest, .writeSeqnum 0,
        .readSeqnum 3 pokeRequest, .writeSeqnum 1, .lock 1, .getSendBuff 1 (.ok true), .refresh 1,
        .releaseSendBuff 1 (.ok ()), .lock 0, .getSendBuff 0 (.ok true), .refresh 0,
        .releaseSendBuff 0 (.ok ())] = some s ∧ ¬ s.KeepsPromise) ∧
      ∃ s, run (step deviceConfig) {} [.readSeqnum 2 peekRequest, .writeSeqnum 0, .lock 0,
        .getSendBuff 0 (.ok false), .refresh 0] = some s ∧ ¬ s.KeepsPromise := by
  constructor
  · obtain ⟨s, hs, hwire⟩ := Option.map_eq_some_iff.mp (by decide :
      (run (step deviceConfig) {} [.readSeqnum 2 peekRequest, .writeSeqnum 0,
        .readSeqnum 3 pokeRequest, .writeSeqnum 1, .lock 1, .getSendBuff 1 (.ok true), .refresh 1,
        .releaseSendBuff 1 (.ok ()), .lock 0, .getSendBuff 0 (.ok true), .refresh 0,
        .releaseSendBuff 0 (.ok ())]).map (fun s => s.wire.map fun p => p.header.getSeqNum) =
          some [1, 0])
    refine ⟨s, hs, fun h => ?_⟩
    obtain ⟨p, rest, hp, hfirst, hrest⟩ := List.map_eq_cons_iff.mp hwire
    obtain ⟨q, rest', hq, hsecond, -⟩ := List.map_eq_cons_iff.mp hrest
    have hnext := h.consecutive 0 p q (by rw [hp]; rfl) (by rw [hp, hq]; rfl)
    rw [hfirst, hsecond] at hnext
    exact absurd hnext (by decide)
  · obtain ⟨s, hs, hstages⟩ := Option.map_eq_some_iff.mp (by decide :
      (run (step deviceConfig) {} [.readSeqnum 2 peekRequest, .writeSeqnum 0, .lock 0,
        .getSendBuff 0 (.ok false), .refresh 0]).map (fun s => s.sends.map Send.stage) =
          some [.absentFrameUsed])
    refine ⟨s, hs, fun h => ?_⟩
    obtain ⟨call, rest, hcall, habsent, -⟩ := List.map_eq_cons_iff.mp hstages
    exact h.framePresent call (hcall ▸ List.mem_cons_self) habsent

end CtrlSend
end Rfnoc
end UhdHost
