import UhdHost.Rfnoc.ChdrPacketWriter

/-!
# Stream packets are read back

A stream status or a stream command is written into a packet in four steps: the header with a
timestamp where the type asks for one, the metadata, the payload, and the length.  Every step writes
words of its own, and the length is the only field of the header that is changed, so whoever reads
the memory finds all of them (`stream_packets_read_back`).
-/

namespace UhdHost
namespace Rfnoc
namespace Chdr

open ByteMemory ChdrPacketImpl

variable {host : Endianness} {chdrW : ChdrW} {endianness : Endianness}

/-! ## What a step leaves alone -/

namespace ChdrPacketImpl

theorem word_write_of_lt (p : ChdrPacketImpl host chdrW endianness) {ptr i : ℕ}
    (words : List (BitVec 64)) (hi : i < ptr) : (p.write ptr words).word i = p.word i := by
  refine wordAt_congr host.byteOrder
    ((eqOn_setWords host.byteOrder p.pktBuff ptr words).mono fun a ha => Or.inl ?_)
  have hend := (Set.mem_Ico.mp ha).2
  omega

theorem eqOn_updatePayloadSize (p : ChdrPacketImpl host chdrW endianness) (n : ℕ) :
    Set.EqOn (p.updatePayloadSize n).pktBuff p.pktBuff {a | 8 ≤ a} :=
  (eqOn_setWord host.byteOrder p.pktBuff 0 _).mono fun _ ha => Or.inr ha

theorem word_refresh (host : Endianness) (chdrW : ChdrW) (endianness : Endianness) (mem : Memory)
    (header : ChdrHeader) (timestamp : BitVec 64) :
    (refresh mem header timestamp : ChdrPacketImpl host chdrW endianness).word 0 =
        conv host endianness header.flatHdr ∧
      (hasTimestamp header = true →
        (refresh mem header timestamp : ChdrPacketImpl host chdrW endianness).word 1 =
          conv host endianness timestamp) := by
  have hfirst := wordAt_setWord host.byteOrder mem 0 (conv host endianness header.flatHdr)
  by_cases htime : hasTimestamp header = true
  · have hmem : (refresh mem header timestamp : ChdrPacketImpl host chdrW endianness).pktBuff =
        setWord host.byteOrder (setWord host.byteOrder mem 0 (conv host endianness header.flatHdr))
          1 (conv host endianness timestamp) := if_pos htime
    rw [word, word, hmem]
    refine ⟨?_, fun _ => wordAt_setWord _ _ _ _⟩
    rw [wordAt_congr host.byteOrder ((eqOn_setWord host.byteOrder _ 1 _).mono
      fun a ha => Or.inl (Set.mem_Ico.mp ha).2), hfirst]
  · have hmem : (refresh mem header timestamp : ChdrPacketImpl host chdrW endianness).pktBuff =
        setWord host.byteOrder mem 0 (conv host endianness header.flatHdr) := if_neg htime
    rw [word, hmem]
    exact ⟨hfirst, fun h => absurd h htime⟩

end ChdrPacketImpl

/-! ## What is read -/

/-- The fields of a header beside the length. -/
def ChdrHeader.besideLength (h : ChdrHeader) :
    BitVec 8 × Bool × Bool × BitVec 64 × BitVec 8 × BitVec 16 × BitVec 16 :=
  (h.getVc, h.getEob, h.getEov, h.getPktType, h.getNumMdata, h.getSeqNum, h.getDstEpid)

theorem besideLength_setLength (h : ChdrHeader) (v : BitVec 16) :
    (h.setLength v).besideLength = h.besideLength := by
  rw [ChdrHeader.besideLength, ChdrHeader.getVc, ChdrHeader.getEob, ChdrHeader.getEov,
    ChdrHeader.getPktType, ChdrHeader.getNumMdata, ChdrHeader.getSeqNum, ChdrHeader.getDstEpid]
  simp (disch := decide) only [ChdrHeader.get_setLength]
  rfl

/-- What a reader finds in a memory: the fields of a header, the timestamp where the type has
one, the metadata, the payload, and sizes that fit together. -/
structure Found {α : Type} [PayloadClass α] (host : Endianness) (chdrW : ChdrW)
    (endianness : Endianness) (mem : Memory) (header : ChdrHeader) (timestamp : BitVec 64)
    (mdata : List (BitVec 64)) (n : ℕ) (payload : α) : Prop where
  fields : (refreshConst mem : ChdrPacketImpl host chdrW endianness).getChdrHeader.besideLength =
    header.besideLength
  length : (refreshConst mem : ChdrPacketImpl host chdrW endianness).getChdrHeader.getLength.toNat =
    (refreshConst mem : ChdrPacketImpl host chdrW endianness).getHeaderSize +
      (refreshConst mem : ChdrPacketImpl host chdrW endianness).getMdataSize + n
  timestamp : (refreshConst mem : ChdrPacketImpl host chdrW endianness).getTimestamp =
    if hasTimestamp header then some timestamp else none
  mdataSize : (refreshConst mem : ChdrPacketImpl host chdrW endianness).getMdataSize =
    8 * mdata.length
  mdata : wordsAt host.byteOrder mem
    (refreshConst mem : ChdrPacketImpl host chdrW endianness).getMdataPtr mdata.length = mdata
  payloadSize : (refreshConst mem : ChdrPacketImpl host chdrW endianness).getPayloadSize = n
  payload : getPayload α (refreshConst mem : ChdrPacketImpl host chdrW endianness) = .ok payload

/-- A memory that holds the parts of a packet. -/
structure Holds (host : Endianness) (chdrW : ChdrW) (endianness : Endianness) (mem : Memory)
    (header : ChdrHeader) (timestamp : BitVec 64) (mdata words : List (BitVec 64)) : Prop where
  holdsHeader : HoldsHeader host endianness mem (header.setLength
    (BitVec.ofNat 16 (payloadOffset chdrW header + 8 * words.length)))
  timestamp : hasTimestamp header = true →
    wordAt host.byteOrder mem 1 = conv host endianness timestamp
  mdata : wordsAt host.byteOrder mem (chdrW.stride * computeMdataOffset chdrW header)
    mdata.length = mdata
  words : wordsAt host.byteOrder mem
    (chdrW.stride * (computeMdataOffset chdrW header + header.getNumMdata.toNat))
      words.length = words

variable {α : Type} [PayloadClass α] {mem : Memory} {header : ChdrHeader}
  {timestamp : BitVec 64} {mdata words : List (BitVec 64)} {payload : α}

theorem map_wordAt_eq (o : ByteOrder) (mem : Memory) (i n : ℕ) :
    ((List.range n).map fun k => wordAt o mem (i + k)) = wordsAt o mem i n := by
  induction n generalizing i with
  | zero => rfl
  | succ n ih =>
    have hnext : ((fun k => wordAt o mem (i + k)) ∘ Nat.succ) =
        fun k => wordAt o mem (i + 1 + k) := by
      funext k
      have hindex : i + Nat.succ k = i + 1 + k := by omega
      rw [Function.comp_apply, hindex]
    rw [List.range_succ_eq_map, List.map_cons, List.map_map, hnext, ih, wordsAt, Nat.add_zero]

theorem Holds.found (h : Holds host chdrW endianness mem header timestamp mdata words)
    (hmdata : mdata.length = header.getNumMdata.toNat * chdrW.stride)
    (hpayload : ReadsBack (conv host endianness) payload words) (hlen : 8 * words.length < 2 ^ 15) :
    Found host chdrW endianness mem header timestamp mdata (8 * words.length) payload := by
  have hlt : payloadOffset chdrW header + 8 * words.length < 2 ^ 16 := by
    have := payloadOffset_le chdrW header
    omega
  obtain ⟨hheader, hoffset⟩ := h.holdsHeader.read chdrW
  have hlength : (header.setLength (BitVec.ofNat 16
      (payloadOffset chdrW header + 8 * words.length))).getLength.toNat =
      payloadOffset chdrW header + 8 * words.length := by
    rw [ChdrHeader.getLength_setLength, BitVec.toNat_ofNat, Nat.mod_eq_of_lt hlt]
  have hsame : payloadOffset chdrW (header.setLength (BitVec.ofNat 16
      (payloadOffset chdrW header + 8 * words.length))) = payloadOffset chdrW header := by
    rw [payloadOffset, computeMdataOffset_setLength, getNumMdata_setLength, payloadOffset]
  obtain ⟨hsize, hpayloadSize⟩ := h.holdsHeader.sizes
    (hlength.trans (congrArg (· + 8 * words.length) hsame.symm))
  rw [computeMdataOffset_setLength] at hoffset
  rw [hsame] at hsize
  refine ⟨?_, ?_, ?_, ?_, ?_, hpayloadSize, ?_⟩
  · rw [hheader, besideLength_setLength]
  · rw [hheader, hsize, hlength]
  · rw [getTimestamp, hheader, hasTimestamp_setLength]
    by_cases htime : hasTimestamp header = true
    · rw [if_pos htime, if_pos htime, word]
      exact congrArg some ((congrArg _ (h.timestamp htime)).trans (conv_conv host endianness _))
    · rw [if_neg htime, if_neg htime]
  · rw [getMdataSize, hheader, getNumMdata_setLength, hmdata, ChdrW.bytes_eq]
    ring
  · rw [getMdataPtr, hoffset]
    exact h.mdata
  · have hcount : 8 * words.length / 8 = words.length := by omega
    rw [getPayload, hpayloadSize, hcount]
    refine hpayload.deserialize ?_
    rw [getPayloadPtr, hoffset, hheader, getNumMdata_setLength]
    exact (map_wordAt_eq host.byteOrder mem _ _).trans h.words

/-! ## Writing a packet -/

/-- A packet with a header, a timestamp and metadata. -/
def begun (host : Endianness) (chdrW : ChdrW) (endianness : Endianness) (mem : Memory)
    (header : ChdrHeader) (timestamp : BitVec 64) (mdata : List (BitVec 64)) :
    ChdrPacketImpl host chdrW endianness :=
  let p : ChdrPacketImpl host chdrW endianness := ChdrPacketImpl.refresh mem header timestamp
  p.write p.getMdataPtr mdata

theorem one_le_stride_mul (chdrW : ChdrW) (header : ChdrHeader) :
    1 ≤ chdrW.stride * computeMdataOffset chdrW header :=
  Nat.mul_pos chdrW.stride_pos (one_le_mdataOffset chdrW header).1

theorem begun_layout (host : Endianness) (chdrW : ChdrW) (endianness : Endianness) (mem : Memory)
    (header : ChdrHeader) (timestamp : BitVec 64) (mdata : List (BitVec 64)) :
    (begun host chdrW endianness mem header timestamp mdata).getChdrHeader = header ∧
      (begun host chdrW endianness mem header timestamp mdata).mdataOffset =
        computeMdataOffset chdrW header := by
  have hholds : HoldsHeader host endianness
      (refresh mem header timestamp : ChdrPacketImpl host chdrW endianness).pktBuff header :=
    (word_refresh host chdrW endianness mem header timestamp).1
  obtain ⟨hheader, hoffset⟩ := hholds.read chdrW
  refine ⟨?_, hoffset⟩
  have hbefore : 0 < (refresh mem header timestamp :
      ChdrPacketImpl host chdrW endianness).getMdataPtr := by
    have hptr := one_le_stride_mul chdrW header
    rw [← hoffset] at hptr
    exact hptr
  rw [getChdrHeader, begun, word_write_of_lt _ mdata hbefore]
  exact hheader

theorem word_begun (host : Endianness) (chdrW : ChdrW) (endianness : Endianness) (mem : Memory)
    (header : ChdrHeader) (timestamp : BitVec 64) (mdata : List (BitVec 64)) :
    (begun host chdrW endianness mem header timestamp mdata).word 0 =
        conv host endianness header.flatHdr ∧
      (hasTimestamp header = true →
        (begun host chdrW endianness mem header timestamp mdata).word 1 =
          conv host endianness timestamp) := by
  obtain ⟨hword, htimestamp⟩ := word_refresh host chdrW endianness mem header timestamp
  have hptr : (refresh mem header timestamp : ChdrPacketImpl host chdrW endianness).getMdataPtr =
      chdrW.stride * computeMdataOffset chdrW header :=
    congrArg (chdrW.stride * ·) (begun_layout host chdrW endianness mem header timestamp mdata).2
  have hone := one_le_stride_mul chdrW header
  refine ⟨?_, fun htime => ?_⟩
  · rw [begun, word_write_of_lt _ mdata (by omega), hword]
  · have htwo := two_le_stride_mul_mdataOffset chdrW htime
    rw [begun, word_write_of_lt _ mdata (by omega), htimestamp htime]

theorem exists_writePayload (mem : Memory) (header : ChdrHeader) (timestamp : BitVec 64)
    (hmdata : mdata.length = header.getNumMdata.toNat * chdrW.stride)
    (hpayload : ReadsBack (conv host endianness) payload words) {maxSizeBytes : ℕ}
    (hmax : 8 * words.length ≤ maxSizeBytes) :
    ∃ sent, writePayload (begun host chdrW endianness mem header timestamp mdata) maxSizeBytes
        payload = .ok sent ∧
      Holds host chdrW endianness sent.pktBuff header timestamp mdata words := by
  obtain ⟨hheader, hoffset⟩ := begun_layout host chdrW endianness mem header timestamp mdata
  have hptr : (begun host chdrW endianness mem header timestamp mdata).getPayloadPtr =
      chdrW.stride * (computeMdataOffset chdrW header + header.getNumMdata.toNat) := by
    rw [getPayloadPtr, hheader, hoffset]
  have hafter : chdrW.stride * computeMdataOffset chdrW header + mdata.length =
      chdrW.stride * (computeMdataOffset chdrW header + header.getNumMdata.toNat) := by
    rw [hmdata]
    ring
  have hone := one_le_stride_mul chdrW header
  have htimestamp := (word_begun host chdrW endianness mem header timestamp mdata).2
  generalize hb : begun host chdrW endianness mem header timestamp mdata = b at *
  refine ⟨(b.write b.getPayloadPtr words).updatePayloadSize (8 * words.length), ?_, ?_⟩
  · rw [writePayload, hpayload.serialize hmax]
  · have hwritten : (b.write b.getPayloadPtr words).getChdrHeader = header := by
      rw [getChdrHeader, word_write_of_lt b words (by omega)]
      exact hheader
    have hupdate := (b.write b.getPayloadPtr words).eqOn_updatePayloadSize (8 * words.length)
    have hbefore : Set.EqOn (b.write b.getPayloadPtr words).pktBuff b.pktBuff
        (Set.Iio (8 * b.getPayloadPtr)) :=
      (eqOn_setWords host.byteOrder b.pktBuff b.getPayloadPtr words).mono fun _ ha => Or.inl ha
    refine ⟨?_, fun htime => ?_, ?_, ?_⟩
    · rw [HoldsHeader, updatePayloadSize, hwritten, payloadOffset]
      have hlength : (b.write b.getPayloadPtr words).mdataOffset =
          computeMdataOffset chdrW header := hoffset
      rw [hlength]
      exact wordAt_setWord host.byteOrder _ 0 _
    · have htwo := two_le_stride_mul_mdataOffset chdrW htime
      rw [wordAt_congr host.byteOrder (hupdate.mono fun a ha => (Set.mem_Ico.mp ha).1)]
      exact (word_write_of_lt b words (by omega)).trans (htimestamp htime)
    · rw [wordsAt_congr host.byteOrder (hupdate.mono fun a ha => ?_),
        wordsAt_congr host.byteOrder (hbefore.mono fun a ha => ?_)]
      · have hmem : b.pktBuff = setWords host.byteOrder (refresh mem header timestamp :
            ChdrPacketImpl host chdrW endianness).pktBuff
              (chdrW.stride * computeMdataOffset chdrW header) mdata := by
          rw [← hoffset, ← hb]
          rfl
        rw [hmem]
        exact wordsAt_setWords host.byteOrder _ _ mdata
      · have hend := (Set.mem_Ico.mp ha).2
        exact Set.mem_Iio.mpr (by omega)
      · have hstart := (Set.mem_Ico.mp ha).1
        exact (by omega : 8 ≤ a)
    · rw [wordsAt_congr host.byteOrder (hupdate.mono fun a ha => ?_), ← hptr]
      · exact wordsAt_setWords host.byteOrder b.pktBuff b.getPayloadPtr words
      · have hstart := (Set.mem_Ico.mp ha).1
        exact (by omega : 8 ≤ a)

theorem besideLength_populate (t : PacketType) (h : ChdrHeader) :
    (populate t h).besideLength =
      (h.getVc, false, false, t.code, 0, h.getSeqNum, h.getDstEpid) := by
  have hcode : t.code.toNat < 2 ^ HeaderField.pktType.width := by cases t <;> decide
  have hpktType : (populate t h).get .pktType = t.code := by
    rw [populate, ChdrHeader.setNumMdata, ChdrHeader.setEov, ChdrHeader.setEob,
      ChdrHeader.setPktType]
    simp (disch := decide) only [ChdrHeader.get_set_of_disjoint]
    exact h.get_set_of_lt .pktType hcode
  have heob : (populate t h).get .eob = 0 := by
    rw [populate, ChdrHeader.setNumMdata, ChdrHeader.setEov, ChdrHeader.setEob]
    simp (disch := decide) only [ChdrHeader.get_set_of_disjoint]
    exact ChdrHeader.get_set_of_lt _ .eob (by decide)
  have heov : (populate t h).get .eov = 0 := by
    rw [populate, ChdrHeader.setNumMdata, ChdrHeader.setEov]
    simp (disch := decide) only [ChdrHeader.get_set_of_disjoint]
    exact ChdrHeader.get_set_of_lt _ .eov (by decide)
  have hnumMdata : (populate t h).get .numMdata = 0 :=
    ChdrHeader.get_set_of_lt _ .numMdata (by decide)
  have hothers : ∀ f : HeaderField, HeaderField.numMdata.Disjoint f → HeaderField.eov.Disjoint f →
      HeaderField.eob.Disjoint f → HeaderField.pktType.Disjoint f →
        (populate t h).get f = h.get f := by
    intro f hf1 hf2 hf3 hf4
    rw [populate, ChdrHeader.setNumMdata, ChdrHeader.get_set_of_disjoint _ _ hf1,
      ChdrHeader.setEov, ChdrHeader.get_set_of_disjoint _ _ hf2, ChdrHeader.setEob,
      ChdrHeader.get_set_of_disjoint _ _ hf3, ChdrHeader.setPktType,
      ChdrHeader.get_set_of_disjoint _ _ hf4]
  rw [ChdrHeader.besideLength, ChdrHeader.getVc, ChdrHeader.getEob, ChdrHeader.getEov,
    ChdrHeader.getPktType, ChdrHeader.getNumMdata, ChdrHeader.getSeqNum, ChdrHeader.getDstEpid,
    hpktType, heob, heov, hnumMdata, hothers .vc (by decide) (by decide) (by decide) (by decide),
    hothers .seqNum (by decide) (by decide) (by decide) (by decide),
    hothers .dstEpid (by decide) (by decide) (by decide) (by decide)]
  rfl

theorem exists_refreshSpecific (mem : Memory) (header : ChdrHeader) {t : PacketType}
    (ht : t ≠ .dataWithTs) (hpopulate : PayloadClass.populateHeader α header = populate t header)
    (hpayload : ReadsBack (conv host endianness) payload words) (hwords : words ≠ [])
    {pktBuffSize : ℕ} (hsize : chdrW.bytes + 8 * words.length ≤ pktBuffSize) :
    ∃ sent : ChdrPacketImpl host chdrW endianness,
      refreshSpecific mem pktBuffSize header payload = .ok (sent, sent.getChdrHeader) ∧
        Holds host chdrW endianness sent.pktBuff (populate t header) 0 [] words := by
  have hfields := besideLength_populate t header
  have hpktType : (populate t header).getPktType = t.code :=
    congrArg (fun fields => fields.2.2.2.1) hfields
  have hnumMdata : (populate t header).getNumMdata = 0 :=
    congrArg (fun fields => fields.2.2.2.2.1) hfields
  have htime : hasTimestamp (populate t header) = false := by
    rw [hasTimestamp, hpktType]
    cases t with
    | dataWithTs => exact absurd rfl ht
    | _ => rfl
  have hoffset : computeMdataOffset chdrW (populate t header) = 1 := by
    rw [computeMdataOffset, htime]
    exact ite_self 1
  have hheaderSize : (refresh mem (populate t header) 0 :
      ChdrPacketImpl host chdrW endianness).getHeaderSize = chdrW.bytes := by
    have hlayout := (begun_layout host chdrW endianness mem (populate t header) 0 []).2
    exact (congrArg (chdrW.bytes * ·) (hlayout.trans hoffset)).trans (Nat.mul_one _)
  have hpos : 0 < words.length := List.length_pos_iff.mpr hwords
  have hmdata : ([] : List (BitVec 64)).length =
      (populate t header).getNumMdata.toNat * chdrW.stride := by
    rw [hnumMdata]
    exact (Nat.zero_mul _).symm
  obtain ⟨sent, hsent, hholds⟩ := exists_writePayload mem (populate t header) 0 hmdata hpayload
    (Nat.le_sub_of_add_le' hsize)
  refine ⟨sent, ?_, hholds⟩
  have hroom : (if chdrW.bytes < pktBuffSize then pktBuffSize - chdrW.bytes else 0) =
      pktBuffSize - chdrW.bytes := if_pos (by omega)
  have hwrite : writePayload (refresh mem (populate t header) 0 :
      ChdrPacketImpl host chdrW endianness) (pktBuffSize - chdrW.bytes) payload = .ok sent := hsent
  rw [refreshSpecific, hpopulate, hheaderSize, hroom, hwrite]

/-- Packets of a payload are read back, written step by step with any header, timestamp and
metadata, or by the writer of their own class. -/
def PacketsReadBack (host : Endianness) (chdrW : ChdrW) (endianness : Endianness) (t : PacketType)
    (payload : α) (n : ℕ) : Prop :=
  ∀ (mem : Memory) (header : ChdrHeader),
    (∀ (timestamp : BitVec 64) (mdata : List (BitVec 64)) (maxSizeBytes : ℕ),
      mdata.length = header.getNumMdata.toNat * chdrW.stride → n ≤ maxSizeBytes →
        ∃ sent, writePayload (begun host chdrW endianness mem header timestamp mdata) maxSizeBytes
            payload = .ok sent ∧
          Found host chdrW endianness sent.pktBuff header timestamp mdata n payload) ∧
    ∀ pktBuffSize, chdrW.bytes + n ≤ pktBuffSize →
      ∃ sent : ChdrPacketImpl host chdrW endianness,
        refreshSpecific mem pktBuffSize header payload = .ok (sent, sent.getChdrHeader) ∧
          Found host chdrW endianness sent.pktBuff (populate t header) 0 [] n payload ∧
          (populate t header).besideLength =
            (header.getVc, false, false, t.code, 0, header.getSeqNum, header.getDstEpid)

theorem ReadsBack.packets {t : PacketType} (ht : t ≠ .dataWithTs)
    (hpopulate : ∀ header, PayloadClass.populateHeader α header = populate t header)
    (hpayload : ReadsBack (conv host endianness) payload words) (hwords : words ≠ [])
    (hlen : 8 * words.length < 2 ^ 15) :
    PacketsReadBack host chdrW endianness t payload (8 * words.length) := by
  intro mem header
  refine ⟨fun timestamp mdata maxSizeBytes hmdata hmax => ?_, fun pktBuffSize hsize => ?_⟩
  · obtain ⟨sent, hsent, hholds⟩ := exists_writePayload mem header timestamp hmdata hpayload hmax
    exact ⟨sent, hsent, hholds.found hmdata hpayload hlen⟩
  · obtain ⟨sent, hsent, hholds⟩ :=
      exists_refreshSpecific mem header ht (hpopulate header) hpayload hwords hsize
    have hnumMdata : (populate t header).getNumMdata = 0 :=
      congrArg (fun fields => fields.2.2.2.2.1) (besideLength_populate t header)
    refine ⟨sent, hsent, hholds.found ?_ hpayload hlen, besideLength_populate t header⟩
    rw [hnumMdata]
    exact (Nat.zero_mul _).symm

/-- **Stream packets are read back.**  Whatever the width of CHDR words, the byte orders of the host
and of the link, the header, the timestamp and the metadata, a stream status or a stream command
whose values have room in their fields is found as it was written. -/
theorem stream_packets_read_back (host : Endianness) (chdrW : ChdrW) (endianness : Endianness) :
    (∀ p : StrsPayload, p.InRange → PacketsReadBack host chdrW endianness .strs p 32) ∧
      ∀ p : StrcPayload, p.InRange → PacketsReadBack host chdrW endianness .strc p 16 := by
  refine ⟨fun p hp => ?_, fun p hp => ?_⟩
  · exact (hp.readsBack (conv_conv host endianness)).packets (by decide) (fun _ => rfl)
      (List.cons_ne_nil _ _) (by decide : 8 * 4 < 2 ^ 15)
  · exact (hp.readsBack (conv_conv host endianness)).packets (by decide) (fun _ => rfl)
      (List.cons_ne_nil _ _) (by decide : 8 * 2 < 2 ^ 15)

end Chdr
end Rfnoc
end UhdHost
