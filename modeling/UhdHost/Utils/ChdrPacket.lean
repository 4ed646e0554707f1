import UhdHost.Rfnoc.StreamPacketRoundTrip

/-!
# CHDR packets as values

`uhd::utils::chdr::chdr_packet` of `utils/chdr/chdr_packet.cpp` holds a CHDR packet apart from any
buffer: the header, the timestamp, the metadata and the bytes of the payload.  The metadata count
and the length of the header are set from the other parts whenever one of them changes, so they
agree with them (`header_eq`).

`deserialize_ptr` makes a packet of the bytes that `serialize_ptr` writes.  It asks that the
metadata ends *before* the end of the buffer, while the payload may end with it, so a packet
without payload is not read back, and every other one is (`deserialize_serialize_iff`).
-/

namespace UhdHost
namespace Utils

open Rfnoc Rfnoc.Chdr ByteMemory ChdrPacketImpl

/-- `get_packet_len`, of the parts of a packet -/
def packetLen (chdrW : ChdrW) (payload : List (BitVec 8)) (timestamp : Option (BitVec 64))
    (mdata : List (BitVec 64)) : ℕ :=
  payload.length + mdata.length * 8 +
    (if timestamp.isSome ∧ chdrW = .w64 then 2 else 1) * chdrW.bytes

/-- `set_header_lengths` -/
def setHeaderLengths (chdrW : ChdrW) (payload : List (BitVec 8)) (timestamp : Option (BitVec 64))
    (mdata : List (BitVec 64)) (header : ChdrHeader) : ChdrHeader :=
  (header.setNumMdata (BitVec.ofNat 8 (mdata.length / chdrW.stride))).setLength
    (BitVec.ofNat 16 (packetLen chdrW payload timestamp mdata))

theorem setHeaderLengths_setHeaderLengths (chdrW : ChdrW) (payload : List (BitVec 8))
    (timestamp : Option (BitVec 64)) (mdata : List (BitVec 64)) (header : ChdrHeader) :
    setHeaderLengths chdrW payload timestamp mdata
      (setHeaderLengths chdrW payload timestamp mdata header) =
        setHeaderLengths chdrW payload timestamp mdata header := by
  have hnumMdata : (setHeaderLengths chdrW payload timestamp mdata header).setNumMdata
      (BitVec.ofNat 8 (mdata.length / chdrW.stride)) =
        setHeaderLengths chdrW payload timestamp mdata header := by
    refine ChdrHeader.set_eq_self _ .numMdata ?_
    rw [setHeaderLengths, ChdrHeader.get_setLength _ _ (by decide), ChdrHeader.setNumMdata,
      ChdrHeader.get_set]
  have hlength : (setHeaderLengths chdrW payload timestamp mdata header).setLength
      (BitVec.ofNat 16 (packetLen chdrW payload timestamp mdata)) =
        setHeaderLengths chdrW payload timestamp mdata header := by
    refine ChdrHeader.set_eq_self _ .length ?_
    rw [setHeaderLengths, ChdrHeader.setLength, ChdrHeader.get_set]
  rw [setHeaderLengths, hnumMdata, hlength]

/-- `chdr_packet` -/
structure ChdrPacket where
  /-- `_chdr_w` -/
  chdrW : ChdrW
  /-- `_header` -/
  header : ChdrHeader
  /-- `_payload` -/
  payload : List (BitVec 8)
  /-- `_timestamp` -/
  timestamp : Option (BitVec 64)
  /-- `_mdata` -/
  mdata : List (BitVec 64)
  /-- Every function that changes a part sets the lengths. -/
  header_eq : setHeaderLengths chdrW payload timestamp mdata header = header

namespace ChdrPacket

/-- The constructor. -/
def make (chdrW : ChdrW) (header : ChdrHeader) (payload : List (BitVec 8))
    (timestamp : Option (BitVec 64)) (mdata : List (BitVec 64)) : ChdrPacket where
  chdrW := chdrW
  header := setHeaderLengths chdrW payload timestamp mdata header
  payload := payload
  timestamp := timestamp
  mdata := mdata
  header_eq := setHeaderLengths_setHeaderLengths chdrW payload timestamp mdata header

/-- `get_packet_len` -/
def getPacketLen (p : ChdrPacket) : ℕ := packetLen p.chdrW p.payload p.timestamp p.mdata

/-- `serialize_ptr`, into a buffer of `len` bytes: the memory from the start of the buffer on,
before and after. -/
def serializePtr (host endianness : Endianness) (p : ChdrPacket) (mem : Memory) (len : ℕ) :
    Except UhdError Memory :=
  if p.getPacketLen ≤ len then
    let writer : ChdrPacketImpl host p.chdrW endianness :=
      refresh mem p.header (p.timestamp.getD 0)
    let withMdata := writer.write writer.getMdataPtr (p.mdata.map (conv host endianness))
    .ok (setBytes withMdata.pktBuff (8 * withMdata.getPayloadPtr) p.payload)
  else .error (.assertionError "get_packet_len() <= len")

/-- `deserialize_ptr`, of a buffer of `len` bytes -/
def deserializePtr (host : Endianness) (chdrW : ChdrW) (endianness : Endianness) (mem : Memory)
    (len : ℕ) : Except UhdError ChdrPacket :=
  let writer : ChdrPacketImpl host chdrW endianness := refreshConst mem
  let mdataSizeWords := writer.getMdataSize / 8
  if 8 * (writer.getMdataPtr + mdataSizeWords) < len then
    let mdata := (wordsAt host.byteOrder mem writer.getMdataPtr mdataSizeWords).map
      (conv host endianness)
    if 8 * writer.getPayloadPtr + writer.getPayloadSize ≤ len then
      .ok (make chdrW writer.getChdrHeader
        (bytesAt mem (8 * writer.getPayloadPtr) writer.getPayloadSize) writer.getTimestamp mdata)
    else .error (.assertionError "payload_end <= static_cast<const uint8_t*>(end)")
  else .error (.assertionError "mdata_src_end < static_cast<const uint64_t*>(end)")

/-- A packet that a header can describe. -/
structure InRange (p : ChdrPacket) : Prop where
  /-- A timestamp is there exactly if the type of the packet says so. -/
  timestamp : p.timestamp.isSome = hasTimestamp p.header
  /-- The metadata is a number of CHDR words. -/
  mdata : p.mdata.length % p.chdrW.stride = 0
  /-- The count of the metadata fits into its field. -/
  numMdata : p.mdata.length / p.chdrW.stride < 2 ^ 5
  /-- The length fits into its field. -/
  length : p.getPacketLen < 2 ^ 16

variable {p : ChdrPacket} {host endianness : Endianness}

theorem InRange.getNumMdata (hp : p.InRange) :
    p.header.getNumMdata.toNat = p.mdata.length / p.chdrW.stride := by
  have hcount := hp.numMdata
  rw [← p.header_eq, setHeaderLengths, getNumMdata_setLength,
    ChdrHeader.toNat_getNumMdata_setNumMdata, BitVec.toNat_ofNat,
    Nat.mod_eq_of_lt (Nat.lt_trans hcount (by decide))]
  exact Nat.mod_eq_of_lt hcount

theorem InRange.length_mdata (hp : p.InRange) :
    p.mdata.length = p.header.getNumMdata.toNat * p.chdrW.stride := by
  rw [hp.getNumMdata, Nat.div_mul_cancel (Nat.dvd_of_mod_eq_zero hp.mdata)]

theorem InRange.getPacketLen_eq (hp : p.InRange) :
    p.getPacketLen = payloadOffset p.chdrW p.header + p.payload.length := by
  have hoffset : (if p.timestamp.isSome ∧ p.chdrW = .w64 then 2 else 1) =
      computeMdataOffset p.chdrW p.header := by
    rw [computeMdataOffset, hp.timestamp]
    by_cases hw : p.chdrW = .w64
    · rw [if_pos hw]
      by_cases htime : hasTimestamp p.header = true
      · rw [if_pos ⟨htime, hw⟩, if_pos htime]
      · rw [if_neg (fun h => htime h.1), if_neg htime]
    · rw [if_neg (fun h => hw h.2), if_neg hw]
  rw [getPacketLen, packetLen, hoffset, hp.length_mdata, payloadOffset, ChdrW.bytes_eq]
  ring

theorem InRange.getLength (hp : p.InRange) :
    p.header.getLength.toNat = payloadOffset p.chdrW p.header + p.payload.length := by
  have hlength : p.header.getLength = BitVec.ofNat 16 p.getPacketLen := by
    rw [← p.header_eq, setHeaderLengths, ChdrHeader.getLength_setLength, getPacketLen]
  rw [hlength, BitVec.toNat_ofNat, Nat.mod_eq_of_lt hp.length, hp.getPacketLen_eq]

/-! ## What was written is read back -/

/-- A memory that holds a packet. -/
structure HoldsPacket (host endianness : Endianness) (mem : Memory) (p : ChdrPacket) : Prop where
  holdsHeader : HoldsHeader host endianness mem p.header
  timestamp : hasTimestamp p.header = true →
    wordAt host.byteOrder mem 1 = conv host endianness (p.timestamp.getD 0)
  mdata : wordsAt host.byteOrder mem (p.chdrW.stride * computeMdataOffset p.chdrW p.header)
    p.mdata.length = p.mdata.map (conv host endianness)
  payload : bytesAt mem (payloadOffset p.chdrW p.header) p.payload.length = p.payload

theorem eight_mul_payloadPtr (chdrW : ChdrW) (header : ChdrHeader) :
    8 * (chdrW.stride * (computeMdataOffset chdrW header + header.getNumMdata.toNat)) =
      payloadOffset chdrW header := by
  rw [payloadOffset, ChdrW.bytes_eq]
  ring

theorem InRange.serializePtr (hp : p.InRange) (host endianness : Endianness) (mem : Memory)
    {len : ℕ} (hlen : p.getPacketLen ≤ len) :
    ∃ mem', serializePtr host endianness p mem len = .ok mem' ∧
      HoldsPacket host endianness mem' p := by
  -- the packet with its header, timestamp and metadata, before the payload
  obtain ⟨hheader, hoffset⟩ := begun_layout host p.chdrW endianness mem p.header
    (p.timestamp.getD 0) (p.mdata.map (conv host endianness))
  have hone := one_le_stride_mul p.chdrW p.header
  have hptr : 8 * (begun host p.chdrW endianness mem p.header (p.timestamp.getD 0)
      (p.mdata.map (conv host endianness))).getPayloadPtr = payloadOffset p.chdrW p.header := by
    rw [getPayloadPtr, hheader, hoffset, eight_mul_payloadPtr]
  have hafter : 8 * (p.chdrW.stride * computeMdataOffset p.chdrW p.header + p.mdata.length) =
      payloadOffset p.chdrW p.header := by
    rw [← eight_mul_payloadPtr, hp.length_mdata]
    ring
  obtain ⟨hword, htimestamp⟩ := word_begun host p.chdrW endianness mem p.header
    (p.timestamp.getD 0) (p.mdata.map (conv host endianness))
  generalize hb : begun host p.chdrW endianness mem p.header (p.timestamp.getD 0)
    (p.mdata.map (conv host endianness)) = b at *
  have hbefore : Set.EqOn (setBytes b.pktBuff (8 * b.getPayloadPtr) p.payload) b.pktBuff
      (Set.Iio (payloadOffset p.chdrW p.header)) := by
    refine (eqOn_setBytes b.pktBuff (8 * b.getPayloadPtr) p.payload).mono fun a ha => Or.inl ?_
    rw [hptr]
    exact ha
  refine ⟨setBytes b.pktBuff (8 * b.getPayloadPtr) p.payload, ?_, ?_, fun htime => ?_, ?_, ?_⟩
  · rw [ChdrPacket.serializePtr, if_pos hlen, ← hb]
    rfl
  · rw [HoldsHeader, wordAt_congr host.byteOrder (hbefore.mono fun a ha => ?_)]
    · exact hword
    · have hend := (Set.mem_Ico.mp ha).2
      exact Set.mem_Iio.mpr (by omega)
  · have htwo := two_le_stride_mul_mdataOffset p.chdrW htime
    rw [wordAt_congr host.byteOrder (hbefore.mono fun a ha => ?_)]
    · exact htimestamp htime
    · have hend := (Set.mem_Ico.mp ha).2
      exact Set.mem_Iio.mpr (by omega)
  · rw [wordsAt_congr host.byteOrder (hbefore.mono fun a ha => ?_), ← hoffset, ← hb]
    · have hread := wordsAt_setWords host.byteOrder (refresh mem p.header (p.timestamp.getD 0) :
        ChdrPacketImpl host p.chdrW endianness).pktBuff (refresh mem p.header
          (p.timestamp.getD 0) : ChdrPacketImpl host p.chdrW endianness).getMdataPtr
            (p.mdata.map (conv host endianness))
      rw [List.length_map] at hread
      exact hread
    · have hend := (Set.mem_Ico.mp ha).2
      exact Set.mem_Iio.mpr (by omega)
  · rw [← hptr]
    exact bytesAt_setBytes b.pktBuff (8 * b.getPayloadPtr) p.payload

theorem InRange.deserializePtr (hp : p.InRange) {mem : Memory}
    (h : HoldsPacket host endianness mem p) :
    deserializePtr host p.chdrW endianness mem p.getPacketLen =
      if p.payload ≠ [] then .ok p
      else .error (.assertionError "mdata_src_end < static_cast<const uint64_t*>(end)") := by
  obtain ⟨hheader, hoffset⟩ := h.holdsHeader.read p.chdrW
  obtain ⟨-, hpayloadSize⟩ := h.holdsHeader.sizes hp.getLength
  have hmdataSize : (refreshConst mem : ChdrPacketImpl host p.chdrW endianness).getMdataSize / 8 =
      p.mdata.length := by
    have hsize : p.header.getNumMdata.toNat * p.chdrW.bytes = 8 * p.mdata.length := by
      rw [hp.length_mdata, ChdrW.bytes_eq]
      ring
    rw [getMdataSize, hheader, hsize, Nat.mul_div_cancel_left _ (by decide)]
  have hmdataPtr : (refreshConst mem : ChdrPacketImpl host p.chdrW endianness).getMdataPtr =
      p.chdrW.stride * computeMdataOffset p.chdrW p.header := by
    rw [getMdataPtr, hoffset]
  have hpayloadPtr : 8 * (refreshConst mem :
      ChdrPacketImpl host p.chdrW endianness).getPayloadPtr = payloadOffset p.chdrW p.header := by
    rw [getPayloadPtr, hheader, hoffset, eight_mul_payloadPtr]
  have hend : 8 * (p.chdrW.stride * computeMdataOffset p.chdrW p.header + p.mdata.length) =
      payloadOffset p.chdrW p.header := by
    rw [← eight_mul_payloadPtr, hp.length_mdata]
    ring
  rw [ChdrPacket.deserializePtr, hmdataSize, hmdataPtr, hpayloadPtr, hpayloadSize, hend,
    hp.getPacketLen_eq]
  by_cases hempty : p.payload = []
  · rw [if_neg (not_not.mpr hempty), hempty]
    exact if_neg (Nat.lt_irrefl _)
  · have hpos : 0 < p.payload.length := List.length_pos_iff.mpr hempty
    rw [if_pos hempty, if_pos (Nat.lt_add_of_pos_right hpos), if_pos (Nat.le_refl _), h.mdata,
      h.payload, hheader]
    have htimestamp : (refreshConst mem :
        ChdrPacketImpl host p.chdrW endianness).getTimestamp = p.timestamp := by
      rw [getTimestamp, hheader]
      by_cases htime : hasTimestamp p.header = true
      · obtain ⟨ts, hts⟩ := Option.isSome_iff_exists.mp (hp.timestamp.trans htime)
        have hword := h.timestamp htime
        rw [hts, Option.getD_some] at hword
        rw [if_pos htime, hts]
        exact congrArg some ((congrArg _ hword).trans (conv_conv host endianness ts))
      · have hnone : p.timestamp = none := by
          rw [← Option.not_isSome_iff_eq_none, hp.timestamp]
          exact htime
        rw [if_neg htime, hnone]
    have hmdata : (p.mdata.map (conv host endianness)).map (conv host endianness) = p.mdata := by
      rw [List.map_map]
      exact (List.map_congr_left fun x _ => conv_conv host endianness x).trans (List.map_id _)
    rw [htimestamp, hmdata]
    refine congrArg Except.ok ?_
    obtain ⟨chdrW, header, payload, timestamp, mdata, header_eq⟩ := p
    rw [make]
    congr 1

/-- **Packets as values.**  A packet that a header can describe is read back from the bytes that
are written of it exactly if it has a payload. -/
theorem deserialize_serialize_iff (hp : p.InRange) (host endianness : Endianness) (mem : Memory)
    {len : ℕ} (hlen : p.getPacketLen ≤ len) :
    (∃ mem', serializePtr host endianness p mem len = .ok mem' ∧
      deserializePtr host p.chdrW endianness mem' p.getPacketLen = .ok p) ↔ p.payload ≠ [] := by
  obtain ⟨written, hwritten, hholds⟩ := hp.serializePtr host endianness mem hlen
  constructor
  · rintro ⟨mem', hmem', hread⟩ hempty
    rw [hwritten] at hmem'
    obtain rfl := Except.ok.inj hmem'
    rw [hp.deserializePtr hholds, if_neg (not_not.mpr hempty)] at hread
    cases hread
  · intro hpayload
    exact ⟨written, hwritten, by rw [hp.deserializePtr hholds, if_pos hpayload]⟩

/-- A management packet of 64-bit words with four bytes of payload. -/
theorem deserialize_serialize_iff_four :
    (∃ mem', serializePtr .little .big (make .w64 {} [1, 2, 3, 4] none []) (fun _ => 0) 12 =
        .ok mem' ∧
      deserializePtr .little .w64 .big mem' 12 = .ok (make .w64 {} [1, 2, 3, 4] none [])) ↔
        ([1, 2, 3, 4] : List (BitVec 8)) ≠ [] :=
  deserialize_serialize_iff (p := make .w64 {} [1, 2, 3, 4] none [])
    ⟨by decide, by decide, by decide, by decide⟩ .little .big (fun _ => 0) (Nat.le_refl 12)

/-- A management packet of 64-bit words without payload is written, and refused. -/
theorem empty_payload_refused :
    (make .w64 {} [] none []).InRange ∧
      ∀ (host endianness : Endianness) (mem : Memory), ∃ mem',
        serializePtr host endianness (make .w64 {} [] none []) mem 8 = .ok mem' ∧
          deserializePtr host .w64 endianness mem' 8 =
            .error (.assertionError "mdata_src_end < static_cast<const uint64_t*>(end)") := by
  have hp : (make .w64 {} [] none []).InRange := ⟨by decide, by decide, by decide, by decide⟩
  refine ⟨hp, fun host endianness mem => ?_⟩
  obtain ⟨mem', hmem', hholds⟩ := hp.serializePtr host endianness mem (Nat.le_refl 8)
  exact ⟨mem', hmem', hp.deserializePtr hholds⟩

end ChdrPacket
end Utils
end UhdHost
