import Mathlib
import UhdHost.Library.Exceptions
import UhdHost.Library.Transition
import UhdHost.Transport.RecvPacketHandler
import UhdHost.Transport.VrtRoundTrip

/-!
# The receive packet demuxer

`recv_packet_demuxer` deals the packets of one transport out to channels, by their stream ID.  A
packet of another channel than the one that is asked for waits in the queue of its channel.  Where a
packet of no channel is met, it is dropped, and a packet is made that is to tell the caller of an
overflow: a header, the stream ID of the caller's channel, and the error code.

What was made is read by the unpacker of VRT headers and by the receive packet handler, which takes
the packet type of the header for what tells a message from samples.  The demuxer packs the type of
data.

* `owned_step`: what a channel was given, what waits for it and what the transport has for it stay
  together, in their order.
* `drained`: calls for a channel return all that is its own.
* `isOverflow_iff`: what is made is a message of an overflow exactly if its type is not that of
  data.
* `lawful_iff`: the demuxer does what it should exactly in the runs that meet no unknown stream ID.
-/

namespace UhdHost
namespace Usrp
namespace RecvDemux

open Transport Transport.Vrt Transport.RecvHandler

/-! ## The demuxer -/

/-- A packet of the transport: its words, as the transport has them. -/
structure Packet where
  words : List (BitVec 32)
  /-- There is a stream ID. -/
  two_le : 2 ≤ words.length
  deriving DecidableEq

/-- `recv_packet_demuxer_impl`, without its state.  `memory` is what the words of a new
`recv_pkt_demux_mrb` hold. -/
structure Demuxer (size : ℕ) where
  host : Endianness
  sidBase : BitVec 32
  memory : Words

/-- A `managed_recv_buffer`: one of the transport, or a `recv_pkt_demux_mrb`. -/
inductive Buffer where
  | received (p : Packet)
  | made (words : List (BitVec 32))
  deriving DecidableEq

/-- The transport, the queues, and what the calls have returned; null is `none`.  The transport is
what it yields, one after the other, where `none` is nothing in time; with nothing left it yields
nothing in time. -/
structure State (size : ℕ) where
  transport : List (Option Packet)
  queues : Fin size → List Packet
  returned : List (Fin size × Option Buffer)

variable {size : ℕ}

/-- `extract_sid` -/
def extractSid (host : Endianness) (p : Packet) : BitVec 32 :=
  Endianness.htowx host (p.words.get ⟨1, p.two_le⟩)

namespace Demuxer

/-- `rx_index`, a difference of 32 bits -/
def rxIndex (d : Demuxer size) (p : Packet) : ℕ := (extractSid d.host p - d.sidBase).toNat

/-- `PACKET_TYPE_DATA` -/
def packetTypeData : BitVec 3 := 0

/-- The info that is packed where a stream ID is unknown. -/
def unknownSidInfo (d : Demuxer size) (index : Fin size) : IfPacketInfo where
  packetType := packetTypeData
  numPayloadWords32 := 1
  numPayloadBytes := 4
  hasSid := true
  sid := d.sidBase + BitVec.ofNat 32 index

/-- The words of an info that is packed, with an error code after the header. -/
def madeWords (d : Demuxer size) (info : IfPacketInfo) : List (BitVec 32) :=
  let (words, packed) := ifHdrPack (Endianness.conv d.host .little) d.memory info
  (List.range packed.numPacketWords32).map
    (Function.update words packed.numHeaderWords32 (BitVec.ofNat 32 errorCodeOverflow))

/-- The loop of `get_recv_buff`: what it returns, and the transport and the queues after it. -/
def readTransport (d : Demuxer size) (index : Fin size) :
    List (Option Packet) → (Fin size → List Packet) →
      Option Buffer × List (Option Packet) × (Fin size → List Packet)
  | [], queues => (none, [], queues)
  | none :: transport, queues => (none, transport, queues)
  | some p :: transport, queues =>
    if d.rxIndex p = index then (some (.received p), transport, queues)
    else if h : d.rxIndex p < size then
      d.readTransport index transport
        (Function.update queues ⟨d.rxIndex p, h⟩ (queues ⟨d.rxIndex p, h⟩ ++ [p]))
    else (some (.made (d.madeWords (d.unknownSidInfo index))), transport, queues)

/-- `get_recv_buff`: what it returns, and the transport and the queues after it. -/
def getRecvBuff (d : Demuxer size) (index : Fin size) (s : State size) :
    Option Buffer × List (Option Packet) × (Fin size → List Packet) :=
  match s.queues index with
  | p :: queue => (some (.received p), s.transport, Function.update s.queues index queue)
  | [] => d.readTransport index s.transport s.queues

/-- The state after a call. -/
def after (d : Demuxer size) (index : Fin size) (s : State size) : State size where
  transport := (d.getRecvBuff index s).2.1
  queues := (d.getRecvBuff index s).2.2
  returned := s.returned ++ [(index, (d.getRecvBuff index s).1)]

/-- A call for a channel. -/
def step (d : Demuxer size) (s : State size) (index : Fin size) : Option (State size) :=
  some (d.after index s)

end Demuxer

/-- A demuxer that was just made. -/
def start (size : ℕ) (arrivals : List (Option Packet)) : State size where
  transport := arrivals
  queues _ := []
  returned := []

/-! ## What is claimed -/

/-- The packets of a channel among what a transport yields. -/
def own (d : Demuxer size) (index : Fin size) (transport : List (Option Packet)) : List Packet :=
  transport.reduceOption.filter fun p => d.rxIndex p = index

/-- The packet of the transport that a call returns, if it does return one. -/
def packetOf : Option Buffer → List Packet
  | some (.received p) => [p]
  | _ => []

/-- The packets that calls for a channel have returned. -/
def delivered (index : Fin size) (returned : List (Fin size × Option Buffer)) : List Packet :=
  returned.flatMap fun (i, result) => if i = index then packetOf result else []

/-- A packet of a channel, but not of this one. -/
def OfOther (d : Demuxer size) (index : Fin size) (p : Packet) : Prop :=
  d.rxIndex p ≠ index ∧ d.rxIndex p < size

/-- **The call meets a packet of an unknown stream**: nothing waits for its channel, and before the
transport has a packet for it, or nothing in time, it has one that is for no channel. -/
def MeetsUnknown (d : Demuxer size) (s : State size) (index : Fin size) : Prop :=
  s.queues index = [] ∧ ∃ (others : List Packet) (p : Packet) (rest : List (Option Packet)),
    s.transport = others.map some ++ some p :: rest ∧ (∀ q ∈ others, OfOther d index q) ∧
      size ≤ d.rxIndex p

/-- **A message of an overflow** for a stream, to the unpacker and to the receive packet handler: a
header is unpacked that has the stream ID, and what is made of it is an inline message whose code is
that of an overflow, whatever came before. -/
def IsOverflow (d : Demuxer size) (words : List (BitVec 32)) (sid : BitVec 32) : Prop :=
  ∃ info, ifHdrUnpack (Endianness.conv d.host .little) words
      { numPacketWords32 := words.length } = .ok info ∧
    info.hasSid = true ∧ info.sid = sid ∧
    getContextCode ⟨info, words.getD info.numHeaderWords32 0⟩ = errorCodeOverflow ∧
    ∀ prev packetCount, (getAndProcessSinglePacket prev
      [.buffer (.packet ⟨info, words.getD info.numHeaderWords32 0⟩)] packetCount {}).result =
        .ok .inlineMessage

/-- A call that meets a packet of an unknown stream returns a message of an overflow. -/
def Reports (d : Demuxer size) (s : State size) (index : Fin size) : Prop :=
  MeetsUnknown d s index → ∃ words, (d.getRecvBuff index s).1 = some (.made words) ∧
    IsOverflow d words (d.sidBase + BitVec.ofNat 32 index)

/-- **What is claimed** of a run of calls.  What was delivered to a channel, what waits for it, and
what the transport still has for it are the packets of its stream in the order of their arrival;
with enough further calls for it they are all delivered; and every call that meets a packet of an
unknown stream returns a message of an overflow. -/
structure Lawful (d : Demuxer size) (arrivals : List (Option Packet)) (calls : List (Fin size)) :
    Prop where
  owned : ∀ s, Transition.run d.step (start size arrivals) calls = some s → ∀ index,
    delivered index s.returned ++ s.queues index ++ own d index s.transport =
      own d index arrivals
  drained : ∀ s, Transition.run d.step (start size arrivals) calls = some s → ∀ index count,
    (s.queues index).length + s.transport.length ≤ count →
      ∃ t, Transition.run d.step s (List.replicate count index) = some t ∧
        delivered index t.returned = own d index arrivals
  reports : Transition.EveryStep d.step (Reports d) (start size arrivals) calls

/-! ## What is delivered -/

section Delivery

variable {d : Demuxer size} {index i : Fin size} {s : State size} {p : Packet}
  {transport : List (Option Packet)} {queues : Fin size → List Packet}

theorem own_nil : own d index [] = [] := rfl

theorem own_cons_of_eq (h : d.rxIndex p = index) :
    own d index (some p :: transport) = p :: own d index transport := by
  rw [own, List.reduceOption_cons_of_some, List.filter_cons_of_pos (by exact decide_eq_true h)]
  rfl

theorem own_cons_of_ne (h : d.rxIndex p ≠ index) :
    own d index (some p :: transport) = own d index transport := by
  rw [own, List.reduceOption_cons_of_some,
    List.filter_cons_of_neg (by rw [decide_eq_true_iff]; exact h)]
  rfl

theorem delivered_append (returned : List (Fin size × Option Buffer)) (result : Option Buffer) :
    delivered i (returned ++ [(index, result)]) =
      delivered i returned ++ if index = i then packetOf result else [] := by
  rw [delivered, List.flatMap_append, List.flatMap_singleton]
  rfl

theorem owned_readTransport (d : Demuxer size) (transport : List (Option Packet))
    (hempty : queues index = []) :
    (∀ i, i ≠ index →
      (d.readTransport index transport queues).2.2 i ++
          own d i (d.readTransport index transport queues).2.1 =
        queues i ++ own d i transport) ∧
      (d.readTransport index transport queues).2.2 index = [] ∧
      packetOf (d.readTransport index transport queues).1 ++
          own d index (d.readTransport index transport queues).2.1 =
        own d index transport := by
  induction transport generalizing queues with
  | nil => exact ⟨fun _ _ => rfl, hempty, rfl⟩
  | cons arrival transport ih =>
    rcases arrival with _ | p
    · exact ⟨fun _ _ => rfl, hempty, rfl⟩
    · rw [Demuxer.readTransport]
      split_ifs with hown hknown
      · refine ⟨fun i hi => ?_, hempty, ?_⟩
        · have hne : d.rxIndex p ≠ i := fun h => hi (Fin.ext (h.symm.trans hown))
          rw [own_cons_of_ne hne]
        · rw [own_cons_of_eq hown]
          rfl
      · let owner : Fin size := ⟨d.rxIndex p, hknown⟩
        have hne : index ≠ owner := fun h => hown (congrArg Fin.val h).symm
        have hempty' : Function.update queues owner (queues owner ++ [p]) index = [] := by
          rw [Function.update_of_ne hne, hempty]
        obtain ⟨hothers, hnone, hgiven⟩ := ih hempty'
        refine ⟨fun i hi => ?_, hnone, ?_⟩
        · rw [hothers i hi]
          by_cases hi' : i = owner
          · have hown' : d.rxIndex p = (owner : ℕ) := rfl
            rw [hi', Function.update_self, own_cons_of_eq hown', List.append_assoc]
            rfl
          · have hother : d.rxIndex p ≠ i := fun h => hi' (Fin.ext h.symm)
            rw [Function.update_of_ne hi', own_cons_of_ne hother]
        · rw [own_cons_of_ne hown]
          exact hgiven
      · refine ⟨fun i _ => ?_, hempty, ?_⟩
        · have hne : d.rxIndex p ≠ i := fun h => hknown (h ▸ i.isLt)
          rw [own_cons_of_ne hne]
        · rw [own_cons_of_ne hown]
          rfl

/-- What a channel was given, what waits for it and what the transport has for it. -/
def owned (d : Demuxer size) (i : Fin size) (s : State size) : List Packet :=
  delivered i s.returned ++ s.queues i ++ own d i s.transport

theorem owned_after : owned d i (d.after index s) = owned d i s := by
  rw [owned, owned, Demuxer.after]
  dsimp only
  rw [delivered_append, Demuxer.getRecvBuff]
  rcases hqueue : s.queues index with _ | ⟨p, queue⟩
  · obtain ⟨hothers, hnone, hgiven⟩ :=
      owned_readTransport d s.transport hqueue
    dsimp only
    by_cases hi : index = i
    · subst hi
      rw [if_pos rfl, hnone, hqueue, List.append_nil, List.append_nil, List.append_assoc, hgiven]
    · rw [if_neg hi, List.append_nil, List.append_assoc, List.append_assoc,
        hothers i (Ne.symm hi)]
  · dsimp only
    by_cases hi : index = i
    · subst hi
      rw [if_pos rfl, Function.update_self, hqueue, packetOf]
      simp only [List.append_assoc, List.cons_append, List.nil_append]
    · rw [if_neg hi, List.append_nil, Function.update_of_ne (Ne.symm hi)]

/-- What still waits, for a channel. -/
def waiting (index : Fin size) (s : State size) : ℕ :=
  (s.queues index).length + s.transport.length

theorem length_readTransport_lt (hpos : 0 < transport.length) :
    (d.readTransport index transport queues).2.1.length < transport.length := by
  induction transport generalizing queues with
  | nil => exact absurd hpos (Nat.lt_irrefl 0)
  | cons arrival transport ih =>
    rcases arrival with _ | p
    · exact Nat.lt_succ_self _
    · rw [Demuxer.readTransport]
      split_ifs with hown hknown
      · exact Nat.lt_succ_self _
      · rcases Nat.eq_zero_or_pos transport.length with hzero | hpos'
        · rw [List.eq_nil_of_length_eq_zero hzero]
          exact Nat.zero_lt_one
        · exact (ih hpos').trans (Nat.lt_succ_self _)
      · exact Nat.lt_succ_self _

theorem waiting_after : waiting index (d.after index s) ≤ waiting index s - 1 := by
  rw [waiting, waiting, Demuxer.after, Demuxer.getRecvBuff]
  rcases hqueue : s.queues index with _ | ⟨p, queue⟩
  · obtain ⟨-, hnone, -⟩ := owned_readTransport d s.transport hqueue
    dsimp only
    rw [hnone, List.length_nil, Nat.zero_add, Nat.zero_add]
    rcases Nat.eq_zero_or_pos s.transport.length with hzero | hpos
    · rw [List.eq_nil_of_length_eq_zero hzero]
      exact Nat.zero_le _
    · exact Nat.le_sub_one_of_lt (length_readTransport_lt hpos)
  · dsimp only
    rw [Function.update_self, List.length_cons]
    omega

theorem drained (count : ℕ) :
    ∀ {s : State size}, waiting index s ≤ count →
      ∃ t, Transition.run d.step s (List.replicate count index) = some t ∧
        delivered index t.returned = owned d index s := by
  induction count with
  | zero =>
    intro s hwaiting
    obtain ⟨hqueue, htransport⟩ := Nat.add_eq_zero_iff.mp (Nat.le_zero.mp hwaiting)
    refine ⟨s, rfl, ?_⟩
    rw [owned, List.eq_nil_of_length_eq_zero hqueue, List.eq_nil_of_length_eq_zero htransport,
      own_nil, List.append_nil, List.append_nil]
  | succ count ih =>
    intro s hwaiting
    have hless : waiting index (d.after index s) ≤ count :=
      waiting_after.trans (Nat.sub_le_of_le_add hwaiting)
    obtain ⟨t, hrun, hdelivered⟩ := ih hless
    exact ⟨t, Transition.run_cons_eq_some.mpr ⟨_, rfl, hrun⟩, hdelivered.trans owned_after⟩

end Delivery

/-! ## What is made -/

section Made

variable {d : Demuxer size} {index : Fin size} {s : State size} {p : Packet}

theorem fcAck_of_unpack {conv : BitVec 32 → BitVec 32} {words : List (BitVec 32)}
    {info out : IfPacketInfo} (hlink : info.linkType = .none)
    (h : ifHdrUnpack conv words info = .ok out) : out.fcAck = info.fcAck := by
  rw [ifHdrUnpack, hlink] at h
  obtain ⟨hdr, -, h⟩ := Exceptions.bind_eq_ok.mp h
  rw [unpackCore] at h
  split_ifs at h with hshort
  obtain ⟨sid, -, h⟩ := Exceptions.bind_eq_ok.mp h
  obtain ⟨tsi, -, h⟩ := Exceptions.bind_eq_ok.mp h
  obtain ⟨tsf, -, h⟩ := Exceptions.bind_eq_ok.mp h
  obtain ⟨tlr, -, h⟩ := Exceptions.bind_eq_ok.mp h
  split_ifs at h with hlength
  cases h
  rfl

/-- The info that the demuxer packs, with some packet type. -/
def typedInfo (d : Demuxer size) (index : Fin size) (packetType : BitVec 3) : IfPacketInfo :=
  { d.unknownSidInfo index with packetType := packetType }

theorem unpack_madeWords (d : Demuxer size) (index : Fin size) (packetType : BitVec 3) :
    ∃ info, ifHdrUnpack (Endianness.conv d.host .little)
        (d.madeWords (typedInfo d index packetType))
        { numPacketWords32 := (d.madeWords (typedInfo d index packetType)).length } = .ok info ∧
      info.packetType = packetType ∧ info.hasSid = true ∧
      info.sid = d.sidBase + BitVec.ofNat 32 index ∧ info.fcAck = false ∧
      (d.madeWords (typedInfo d index packetType)).getD info.numHeaderWords32 0 =
        BitVec.ofNat 32 errorCodeOverflow := by
  have hrange : InRange (typedInfo d index packetType) :=
    ⟨show 0 < 2 ^ 4 by decide, show 4 ≤ 1 * 4 by decide, show 1 * 4 < 4 + 4 by decide,
      fun _ _ => rfl, fun _ => show 2 + 0 + 1 < 2 ^ 16 by decide, fun h => nomatch h⟩
  have hconv : ∀ x : BitVec 32,
      Endianness.conv d.host .little (Endianness.conv d.host .little x) = x :=
    Endianness.conv_conv d.host .little (by decide)
  have hlength : (d.madeWords (typedInfo d index packetType)).length = 3 := by
    rw [Demuxer.madeWords, List.length_map, List.length_range]
    rfl
  have hget : ∀ i, i < 3 → (d.madeWords (typedInfo d index packetType)).getD i 0 =
      Function.update (ifHdrPack (Endianness.conv d.host .little) d.memory
        (typedInfo d index packetType)).1 2 (BitVec.ofNat 32 errorCodeOverflow) i := by
    intro i hi
    rw [List.getD_eq_getElem _ _ (hlength.symm ▸ hi)]
    simp only [Demuxer.madeWords, List.getElem_map, List.getElem_range]
    rfl
  have hreceived : Received
      (ifHdrPack (Endianness.conv d.host .little) d.memory (typedInfo d index packetType)).1
      (ifHdrPack (Endianness.conv d.host .little) d.memory (typedInfo d index packetType)).2
      (d.madeWords (typedInfo d index packetType))
      { numPacketWords32 := (d.madeWords (typedInfo d index packetType)).length } := by
    refine ⟨hlength, fun i hi hor => ?_, rfl, hlength⟩
    have hne : i ≠ 2 := by
      have hor' : i < 2 ∨ 2 + 1 ≤ i := hor
      omega
    rw [hget i hi, Function.update_of_ne hne]
  obtain ⟨info, hunpack, hrecovers⟩ := unpack_pack_none hrange rfl hconv d.memory hreceived
  have hheader : info.numHeaderWords32 = 2 := hrecovers.numHeaderWords32
  refine ⟨info, hunpack, hrecovers.packetType, hrecovers.hasSid, hrecovers.sid rfl,
    fcAck_of_unpack rfl hunpack, ?_⟩
  rw [hheader, hget 2 (by decide), Function.update_self]

theorem classify_eq_inlineMessage_iff {prev info : PerBufferInfo} {packetCount : ℕ} :
    (classify prev info packetCount).1 = .inlineMessage ↔ info.ifpi.packetType ≠ 0 := by
  rw [classify]
  split_ifs with htype hcount htime
  · exact ⟨fun _ => htype, fun _ => rfl⟩
  · exact iff_of_false (fun h => nomatch h) htype
  · exact iff_of_false (fun h => nomatch h) htype
  · exact iff_of_false (fun h => nomatch h) htype

theorem isOverflow_iff (packetType : BitVec 3) :
    IsOverflow d (d.madeWords (typedInfo d index packetType))
        (d.sidBase + BitVec.ofNat 32 index) ↔ packetType ≠ Demuxer.packetTypeData := by
  obtain ⟨info, hunpack, htype, hhasSid, hsid, hack, hword⟩ :=
    unpack_madeWords d index packetType
  constructor
  · rintro ⟨info', hunpack', -, -, -, hmessage⟩ hdata
    rw [hunpack] at hunpack'
    cases hunpack'
    have hresult := hmessage {} 0
    rw [getAndProcessSinglePacket, if_neg (by rw [hack]; exact Bool.false_ne_true)] at hresult
    exact classify_eq_inlineMessage_iff.mp (Except.ok.inj hresult) (htype.trans hdata)
  · intro hne
    refine ⟨info, hunpack, hhasSid, hsid, ?_, fun prev packetCount => ?_⟩
    · rw [hword]
      have hcode : ((BitVec.ofNat 32 errorCodeOverflow |||
          WordBytes.byteswap (BitVec.ofNat 32 errorCodeOverflow)) &&& 0xff).toNat =
            errorCodeOverflow := by decide +kernel
      exact hcode
    · rw [getAndProcessSinglePacket, if_neg (by rw [hack]; exact Bool.false_ne_true)]
      exact congrArg Except.ok (classify_eq_inlineMessage_iff.mpr (htype.trans_ne hne))

theorem getRecvBuff_of_meetsUnknown (h : MeetsUnknown d s index) :
    (d.getRecvBuff index s).1 = some (.made (d.madeWords (d.unknownSidInfo index))) := by
  obtain ⟨hempty, others, p, rest, htransport, hothers, hunknown⟩ := h
  rw [Demuxer.getRecvBuff, hempty, htransport]
  dsimp only
  clear htransport hempty
  generalize s.queues = queues
  induction others generalizing queues with
  | nil =>
    have hne : ¬ d.rxIndex p = index := fun h => by
      rw [h] at hunknown
      exact absurd index.isLt (Nat.not_lt.mpr hunknown)
    rw [List.map_nil, List.nil_append, Demuxer.readTransport, if_neg hne,
      dif_neg (Nat.not_lt.mpr hunknown)]
  | cons other others ih =>
    obtain ⟨hne, hlt⟩ := hothers other List.mem_cons_self
    rw [List.map_cons, List.cons_append, Demuxer.readTransport, if_neg hne, dif_pos hlt]
    exact ih (fun q hq => hothers q (List.mem_cons_of_mem _ hq)) _

theorem reports_iff : Reports d s index ↔ ¬ MeetsUnknown d s index := by
  refine ⟨fun hreports hmeets => ?_, fun hnot hmeets => absurd hmeets hnot⟩
  obtain ⟨words, hwords, hoverflow⟩ := hreports hmeets
  rw [getRecvBuff_of_meetsUnknown hmeets, Option.some_inj, Buffer.made.injEq] at hwords
  subst hwords
  exact isOverflow_iff Demuxer.packetTypeData |>.mp hoverflow rfl

end Made

/-! ## The law -/

/-- **The demuxer.**  A run of calls is as it should be, exactly if no call of it meets a packet of
an unknown stream. -/
theorem lawful_iff (d : Demuxer size) (arrivals : List (Option Packet)) (calls : List (Fin size)) :
    Lawful d arrivals calls ↔
      Transition.EveryStep d.step (fun s index => ¬ MeetsUnknown d s index)
        (start size arrivals) calls := by
  have howned : ∀ s, Transition.run d.step (start size arrivals) calls = some s →
      ∀ index, owned d index s = own d index arrivals := by
    intro s hrun
    refine Transition.run_invariant (I := fun s => ∀ index, owned d index s = own d index arrivals)
      (fun s index t hs hstep i => ?_) (fun _ => rfl) hrun
    rw [← Option.some.inj hstep, owned_after]
    exact hs i
  have hreports : Transition.EveryStep d.step (Reports d) (start size arrivals) calls ↔
      Transition.EveryStep d.step (fun s index => ¬ MeetsUnknown d s index)
        (start size arrivals) calls :=
    Transition.everyStep_iff_of_good (I := fun _ => True) (fun _ _ _ _ _ _ => trivial)
      (fun _ _ _ => reports_iff) trivial calls
  refine ⟨fun hlawful => hreports.mp hlawful.reports,
    fun hnever => ⟨howned, fun s hrun index count hcount => ?_, hreports.mpr hnever⟩⟩
  obtain ⟨t, ht, hdelivered⟩ := drained count hcount
  exact ⟨t, ht, hdelivered.trans (howned s hrun index)⟩

/-- A packet of another stream. -/
def strayPacket : Packet where
  words := [0x10000003, 9, 0]
  two_le := by decide

/-- One channel, of the stream 5, on a host of little endian. -/
def oneChannel : Demuxer 1 where
  host := .little
  sidBase := 5
  memory _ := 0

/-- **A packet of the stream 9** is met where there is only the stream 5. -/
theorem not_lawful_strayPacket : ¬ Lawful oneChannel [some strayPacket] [0] := by
  intro hlawful
  exact reports_iff.mp hlawful.reports.1
    ⟨rfl, [], strayPacket, [], rfl, (fun _ h => nomatch h), show 1 ≤ 4 by decide⟩

end RecvDemux
end Usrp
end UhdHost
