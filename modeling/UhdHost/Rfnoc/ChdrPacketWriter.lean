import UhdHost.Rfnoc.StreamPayloads
import UhdHost.Types.Endianness
import UhdHost.Types.SizeT

/-!
# CHDR packets in a buffer

`chdr_packet_impl` of `rfnoc/chdr_packet_writer.cpp` lays a CHDR packet over a buffer: a header, a
timestamp in packets of one type, metadata and payload.  Where the metadata starts depends on the
type and the width, where the payload starts on the metadata count of the header too.

A packet is read through the header that lies in the buffer, so what a reader finds follows from
word 0 alone, and from the bytes that word 0 points to.
-/

namespace UhdHost
namespace Rfnoc
namespace Chdr

open ByteMemory

/-- `chdr_packet_impl`, on a host of a byte order, with the memory from the buffer on -/
structure ChdrPacketImpl (host : Endianness) (chdrW : ChdrW) (endianness : Endianness) where
  /-- `_pkt_buff` -/
  pktBuff : Memory
  /-- `_mdata_offset`, in CHDR words -/
  mdataOffset : ℕ

/-- `_has_timestamp` -/
def hasTimestamp (header : ChdrHeader) : Bool := header.getPktType == PacketType.dataWithTs.code

/-- `_compute_mdata_offset` -/
def computeMdataOffset (chdrW : ChdrW) (header : ChdrHeader) : ℕ :=
  if chdrW = .w64 then (if hasTimestamp header then 2 else 1) else 1

namespace ChdrPacketImpl

variable {host : Endianness} {chdrW : ChdrW} {endianness : Endianness}

/-- `conv_from_host`, `conv_to_host`, `u64_from_host` and `u64_to_host` -/
def conv (host endianness : Endianness) : BitVec 64 → BitVec 64 := Endianness.conv host endianness

/-- `_pkt_buff[i]` -/
def word (p : ChdrPacketImpl host chdrW endianness) (i : ℕ) : BitVec 64 :=
  wordAt host.byteOrder p.pktBuff i

/-- `get_chdr_header` -/
def getChdrHeader (p : ChdrPacketImpl host chdrW endianness) : ChdrHeader :=
  ⟨conv host endianness (p.word 0)⟩

/-- `refresh`, of a packet that is only read -/
def refreshConst (pktBuff : Memory) : ChdrPacketImpl host chdrW endianness where
  pktBuff := pktBuff
  mdataOffset := computeMdataOffset chdrW
    ⟨conv host endianness (wordAt host.byteOrder pktBuff 0)⟩

/-- `refresh`, of a packet that is written -/
def refresh (pktBuff : Memory) (header : ChdrHeader) (timestamp : BitVec 64) :
    ChdrPacketImpl host chdrW endianness :=
  let withHeader := setWord host.byteOrder pktBuff 0 (conv host endianness header.flatHdr)
  refreshConst
    (if hasTimestamp header then
      setWord host.byteOrder withHeader 1 (conv host endianness timestamp)
    else withHeader)

/-- `update_payload_size` -/
def updatePayloadSize (p : ChdrPacketImpl host chdrW endianness) (payloadSizeBytes : ℕ) :
    ChdrPacketImpl host chdrW endianness :=
  let header := p.getChdrHeader.setLength (BitVec.ofNat 16
    ((p.mdataOffset + p.getChdrHeader.getNumMdata.toNat) * chdrW.bytes + payloadSizeBytes))
  { p with pktBuff := setWord host.byteOrder p.pktBuff 0 (conv host endianness header.flatHdr) }

/-- `get_header_size` -/
def getHeaderSize (p : ChdrPacketImpl host chdrW endianness) : ℕ := chdrW.bytes * p.mdataOffset

/-- `get_timestamp` -/
def getTimestamp (p : ChdrPacketImpl host chdrW endianness) : Option (BitVec 64) :=
  if hasTimestamp p.getChdrHeader then some (conv host endianness (p.word 1)) else none

/-- `get_mdata_size` -/
def getMdataSize (p : ChdrPacketImpl host chdrW endianness) : ℕ :=
  p.getChdrHeader.getNumMdata.toNat * chdrW.bytes

/-- `get_mdata_ptr` and `get_mdata_const_ptr`, as the index of a word -/
def getMdataPtr (p : ChdrPacketImpl host chdrW endianness) : ℕ := chdrW.stride * p.mdataOffset

/-- `get_payload_size` -/
def getPayloadSize (p : ChdrPacketImpl host chdrW endianness) : ℕ :=
  sizeSub (sizeSub p.getChdrHeader.getLength.toNat p.getMdataSize) (chdrW.bytes * p.mdataOffset)

/-- `get_payload_ptr` and `get_payload_const_ptr`, as the index of a word -/
def getPayloadPtr (p : ChdrPacketImpl host chdrW endianness) : ℕ :=
  chdrW.stride * (p.mdataOffset + p.getChdrHeader.getNumMdata.toNat)

/-- Words that are written through a pointer into the packet. -/
def write (p : ChdrPacketImpl host chdrW endianness) (ptr : ℕ) (words : List (BitVec 64)) :
    ChdrPacketImpl host chdrW endianness :=
  { p with pktBuff := setWords host.byteOrder p.pktBuff ptr words }

/-- `calculate_payload_offset` -/
def calculatePayloadOffset (chdrW : ChdrW) (pktType : PacketType) (numMdata : BitVec 8) : ℕ :=
  (computeMdataOffset chdrW (ChdrHeader.setPktType {} pktType) + numMdata.toNat) * chdrW.bytes

end ChdrPacketImpl

/-! ## Packets with a payload of a class -/

section Specific

variable {α : Type} [PayloadClass α] {host : Endianness} {chdrW : ChdrW} {endianness : Endianness}

open ChdrPacketImpl

/-- A payload that is written through `get_payload_ptr`, with the length update. -/
def writePayload (p : ChdrPacketImpl host chdrW endianness) (maxSizeBytes : ℕ) (payload : α) :
    Except UhdError (ChdrPacketImpl host chdrW endianness) :=
  match PayloadClass.serialize payload maxSizeBytes (conv host endianness) with
  | .error e => .error e
  | .ok (words, bytesCopied) => .ok ((p.write p.getPayloadPtr words).updatePayloadSize bytesCopied)

/-- `get_payload`, and `fill_payload` -/
def getPayload (α : Type) [PayloadClass α] (p : ChdrPacketImpl host chdrW endianness) :
    Except UhdError α :=
  PayloadClass.deserialize (fun i => p.word (p.getPayloadPtr + i)) (p.getPayloadSize / 8)
    (conv host endianness)

/-- `refresh` of `chdr_packet_writer_specific`, of a packet that is written: the packet, and
what the header is set to. -/
def refreshSpecific (pktBuff : Memory) (pktBuffSize : ℕ) (header : ChdrHeader) (payload : α) :
    Except UhdError (ChdrPacketImpl host chdrW endianness × ChdrHeader) :=
  let p : ChdrPacketImpl host chdrW endianness :=
    ChdrPacketImpl.refresh pktBuff (PayloadClass.populateHeader α header) 0
  match writePayload p
      (if p.getHeaderSize < pktBuffSize then pktBuffSize - p.getHeaderSize else 0) payload with
  | .error e => .error e
  | .ok sent => .ok (sent, sent.getChdrHeader)

end Specific

/-! ## What the header says -/

theorem one_le_mdataOffset (chdrW : ChdrW) (header : ChdrHeader) :
    1 ≤ computeMdataOffset chdrW header ∧ computeMdataOffset chdrW header ≤ 2 := by
  rw [computeMdataOffset]
  split_ifs
  · exact ⟨by decide, by decide⟩
  · exact ⟨by decide, by decide⟩
  · exact ⟨by decide, by decide⟩

theorem two_le_stride_mul_mdataOffset (chdrW : ChdrW) {header : ChdrHeader}
    (h : hasTimestamp header = true) : 2 ≤ chdrW.stride * computeMdataOffset chdrW header := by
  rw [computeMdataOffset, if_pos h]
  cases chdrW <;> decide

theorem hasTimestamp_setLength (header : ChdrHeader) (v : BitVec 16) :
    hasTimestamp (header.setLength v) = hasTimestamp header :=
  congrArg (· == PacketType.dataWithTs.code) (header.get_setLength v (by decide))

theorem computeMdataOffset_setLength (chdrW : ChdrW) (header : ChdrHeader) (v : BitVec 16) :
    computeMdataOffset chdrW (header.setLength v) = computeMdataOffset chdrW header := by
  rw [computeMdataOffset, hasTimestamp_setLength, computeMdataOffset]

theorem getNumMdata_setLength (header : ChdrHeader) (v : BitVec 16) :
    (header.setLength v).getNumMdata = header.getNumMdata :=
  congrArg (BitVec.setWidth 8) (header.get_setLength v (by decide))

theorem getNumMdata_lt (header : ChdrHeader) : header.getNumMdata.toNat < 32 := by
  rw [ChdrHeader.toNat_getNumMdata]
  exact header.toNat_get_lt .numMdata

/-- The bytes before the payload, by the header. -/
def payloadOffset (chdrW : ChdrW) (header : ChdrHeader) : ℕ :=
  (computeMdataOffset chdrW header + header.getNumMdata.toNat) * chdrW.bytes

theorem payloadOffset_le (chdrW : ChdrW) (header : ChdrHeader) :
    payloadOffset chdrW header ≤ 2112 := by
  have hoffset := (one_le_mdataOffset chdrW header).2
  have hmdata := getNumMdata_lt header
  calc payloadOffset chdrW header ≤ 33 * 64 :=
        Nat.mul_le_mul (by omega) (by cases chdrW <;> decide)
    _ = 2112 := rfl

namespace ChdrPacketImpl

variable {host endianness : Endianness}

theorem conv_conv (host endianness : Endianness) (x : BitVec 64) :
    conv host endianness (conv host endianness x) = x :=
  Endianness.conv_conv host endianness (by decide) x

/-- The memory holds a header. -/
def HoldsHeader (host endianness : Endianness) (mem : Memory) (header : ChdrHeader) : Prop :=
  wordAt host.byteOrder mem 0 = conv host endianness header.flatHdr

variable {mem : Memory} {header : ChdrHeader}

theorem HoldsHeader.read (h : HoldsHeader host endianness mem header) (chdrW : ChdrW) :
    (refreshConst mem : ChdrPacketImpl host chdrW endianness).getChdrHeader = header ∧
      (refreshConst mem : ChdrPacketImpl host chdrW endianness).mdataOffset =
        computeMdataOffset chdrW header := by
  have hheader : (⟨conv host endianness (wordAt host.byteOrder mem 0)⟩ : ChdrHeader) = header := by
    rw [h, conv_conv]
  exact ⟨hheader, congrArg (computeMdataOffset chdrW) hheader⟩

theorem HoldsHeader.sizes (h : HoldsHeader host endianness mem header) {chdrW : ChdrW} {n : ℕ}
    (hlength : header.getLength.toNat = payloadOffset chdrW header + n) :
    (refreshConst mem : ChdrPacketImpl host chdrW endianness).getHeaderSize +
        (refreshConst mem : ChdrPacketImpl host chdrW endianness).getMdataSize =
          payloadOffset chdrW header ∧
      (refreshConst mem : ChdrPacketImpl host chdrW endianness).getPayloadSize = n := by
  obtain ⟨hheader, hoffset⟩ := h.read chdrW
  have hlt : header.getLength.toNat < 2 ^ 64 :=
    Nat.lt_trans header.getLength.isLt (by decide)
  have hparts : chdrW.bytes * computeMdataOffset chdrW header +
      header.getNumMdata.toNat * chdrW.bytes = payloadOffset chdrW header := by
    rw [payloadOffset, Nat.add_mul, Nat.mul_comm chdrW.bytes]
  refine ⟨?_, ?_⟩
  · rw [getHeaderSize, getMdataSize, hheader, hoffset, hparts]
  · rw [getPayloadSize, getMdataSize, hheader, hoffset, sizeSub_of_le (by omega) hlt,
      sizeSub_of_le (by omega) (by omega)]
    omega

end ChdrPacketImpl
end Chdr
end Rfnoc
end UhdHost
