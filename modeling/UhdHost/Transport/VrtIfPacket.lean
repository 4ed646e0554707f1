import UhdHost.Library.BitFields
import UhdHost.Types.Endianness
import UhdHost.Types.Exception
import UhdHost.Types.SizeT

/-!
# VRT headers

The routines that `transport/gen_vrt_if_packet.py` generates pack an `if_packet_info_t` into a VRT
header and unpack it.  The generator writes one case for every combination of the optional fields;
the combination (`Pred`) is a parameter here, and says where a field lies.

A header stands in one of three link layers.  Without one, the VRT header word comes first.  VRLP
puts two words before it and one after the packet.  CHDR has a header word of its own, which counts
bytes and not words, and from which a VRT header word is made.

Unpacking reads words of a buffer.  A word that is outside of the buffer is a result of its own
(`VrtFault.outside`).
-/

namespace UhdHost
namespace Transport
namespace Vrt

open BitFields

/-- `link_type_t` -/
inductive LinkType where
  | none
  | chdr
  | vrlp
  deriving DecidableEq, Repr

/-- `if_packet_info_t` -/
structure IfPacketInfo where
  linkType : LinkType := .none
  /-- The value of `packet_type_t`, whose names depend on the link. -/
  packetType : BitVec 3 := 0
  numPayloadWords32 : ℕ := 0
  numPayloadBytes : ℕ := 0
  numHeaderWords32 : ℕ := 0
  numPacketWords32 : ℕ := 0
  packetCount : ℕ := 0
  sob : Bool := false
  eob : Bool := false
  error : Bool := false
  fcAck : Bool := false
  hasSid : Bool := false
  sid : BitVec 32 := 0
  hasCid : Bool := false
  cid : BitVec 64 := 0
  hasTsi : Bool := false
  tsi : BitVec 32 := 0
  hasTsf : Bool := false
  tsf : BitVec 64 := 0
  hasTlr : Bool := false
  tlr : BitVec 32 := 0
  deriving DecidableEq, Repr

/-- `pred_type`: the fields of a header that are there, and its burst flags. -/
structure Pred where
  sid : Bool
  cid : Bool
  tsi : Bool
  tsf : Bool
  tlr : Bool
  sob : Bool
  eob : Bool
  deriving DecidableEq, Repr

namespace Pred

/-- The combination that an info asks for. -/
def ofInfo (info : IfPacketInfo) : Pred where
  sid := info.hasSid
  cid := info.hasCid
  tsi := info.hasTsi
  tsf := info.hasTsf
  tlr := info.hasTlr
  sob := info.sob
  eob := info.eob

/-- `pred_unpack_table` at the index of a header word: which of the bits 20 to 28 are set. -/
def ofHeader (hdr : BitVec 32) : Pred where
  sid := getField hdr 28 1 != 0
  cid := getField hdr 27 1 != 0
  tsi := getField hdr 22 2 != 0
  tsf := getField hdr 20 2 != 0
  tlr := getField hdr 26 1 != 0
  sob := getField hdr 25 1 != 0
  eob := getField hdr 24 1 != 0

/-- `vrt_hdr_flags` -/
def flags (p : Pred) : BitVec 32 :=
  field (if p.sid then 1 else 0) 28 1 ||| field (if p.cid then 1 else 0) 27 1 |||
    field (if p.tsi then 3 else 0) 22 2 ||| field (if p.tsf then 1 else 0) 20 2 |||
    field (if p.eob then 1 else 0) 24 1 ||| field (if p.sob then 1 else 0) 25 1 |||
    field (if p.tlr then 1 else 0) 26 1

/-- Where the class ID lies. -/
def cidAt (p : Pred) : ℕ := 1 + p.sid.toNat

/-- Where the integer time lies. -/
def tsiAt (p : Pred) : ℕ := p.cidAt + 2 * p.cid.toNat

/-- Where the fractional time lies. -/
def tsfAt (p : Pred) : ℕ := p.tsiAt + p.tsi.toNat

/-- `num_header_words` -/
def headerWords (p : Pred) : ℕ := p.tsfAt + 2 * p.tsf.toNat

/-- `num_trailer_words` -/
def trailerWords (p : Pred) : ℕ := p.tlr.toNat

end Pred

/-- `occ_table` -/
def occTable (i : ℕ) : ℕ := [0, 2, 1, 3].getD i 0

/-- `VRLP` -/
def vrlpWord : BitVec 32 := 0x56524C50

/-- `VEND` -/
def vendWord : BitVec 32 := 0x56454E44

/-- The VRT header word of `chdr_to_vrt`. -/
def chdrToVrt (chdr : BitVec 32) : BitVec 32 :=
  BitVec.ofNat 32 (((getField chdr 0 16).toNat + 3) / 4) |||
    field (getField chdr 31 1) 30 1 ||| field (getField chdr 29 1) 20 1 |||
    field (getField chdr 28 1) 24 1 ||| field 1 28 1

/-- The packet count of `chdr_to_vrt`. -/
def chdrPacketCount (chdr : BitVec 32) : ℕ := (getField chdr 16 12).toNat

/-- The bytes of the last word that are empty. -/
def bytesRem (numPayloadBytes : ℕ) : ℕ :=
  if numPayloadBytes % 4 ≠ 0 then 4 - numPayloadBytes % 4 else 0

/-- `vrt_to_chdr` -/
def vrtToChdr (vrt : BitVec 32) (info : IfPacketInfo) : BitVec 32 :=
  (BitVec.ofNat 32 ((getField vrt 0 16).toNat * 4) - BitVec.ofNat 32 (bytesRem info.numPayloadBytes))
    ||| field (BitVec.ofNat 32 info.packetCount) 16 12 ||| field (getField vrt 30 1) 31 1 |||
    field (getField vrt 20 1) 29 1 ||| field (getField vrt 24 1) 28 1

/-! ## Packing -/

/-- The words from a pointer on. -/
abbrev Words := ℕ → BitVec 32

/-- Write a word, if it is there. -/
def put (buff : Words) (present : Bool) (i : ℕ) (x : BitVec 32) : Words :=
  if present then Function.update buff i x else buff

/-- The trailer that is written. -/
def trailerOf (info : IfPacketInfo) : BitVec 32 :=
  (3 <<< 22) ||| (BitVec.ofNat 32
    (occTable (sizeSub (info.numPayloadWords32 * 4) info.numPayloadBytes % 4)) <<< 10)

/-- The header word that is filled in at the end. -/
def vrtHdrWord (info : IfPacketInfo) : BitVec 32 :=
  (info.packetType.setWidth 32 <<< 29) ||| (Pred.ofInfo info).flags |||
    field (BitVec.ofNat 32 info.packetCount) 16 4 |||
    field (BitVec.ofNat 32 info.numPacketWords32) 0 16

/-- What `__if_hdr_pack` makes of the info. -/
def packedInfo (info : IfPacketInfo) : IfPacketInfo :=
  let p := Pred.ofInfo info
  { info with
    tlr := if p.tlr then trailerOf info else info.tlr
    numHeaderWords32 := p.headerWords
    numPacketWords32 := p.headerWords + p.trailerWords + info.numPayloadWords32 }

/-- The words that `__if_hdr_pack` writes, with the buffer from an index on; the header word
is left to the link layer. -/
def packWords (conv : BitVec 32 → BitVec 32) (buff : Words) (base : ℕ) (info : IfPacketInfo) :
    Words :=
  let p := Pred.ofInfo info
  let withSid := put buff p.sid (base + 1) (conv info.sid)
  -- the class ID is not implemented
  let withCid := put (put withSid p.cid (base + p.cidAt) 0) p.cid (base + p.cidAt + 1) 0
  let withTsi := put withCid p.tsi (base + p.tsiAt) (conv info.tsi)
  let withTsf := put (put withTsi p.tsf (base + p.tsfAt) (conv ((info.tsf >>> 32).setWidth 32)))
    p.tsf (base + p.tsfAt + 1) (conv (info.tsf.setWidth 32))
  put withTsf p.tlr (base + (p.headerWords + info.numPayloadWords32)) (conv (trailerOf info))

/-- The info of a packet with the words of VRLP. -/
def vrlpInfo (inner : IfPacketInfo) : IfPacketInfo :=
  { inner with
    numHeaderWords32 := inner.numHeaderWords32 + 2
    numPacketWords32 := inner.numPacketWords32 + 3 }

/-- The second word of a VRLP header. -/
def vrlHdrWord (info : IfPacketInfo) : BitVec 32 :=
  field (BitVec.ofNat 32 info.numPacketWords32) 0 20 |||
    field (BitVec.ofNat 32 info.packetCount) 20 12

/-- The words that VRLP puts around a packet, and the header word of the packet. -/
def vrlpWords (conv : BitVec 32 → BitVec 32) (buff : Words) (info : IfPacketInfo)
    (hdr : BitVec 32) : Words :=
  let withVrlp := Function.update buff 0 (conv vrlpWord)
  let withLength := Function.update withVrlp 1 (conv (vrlHdrWord info))
  let withHdr := Function.update withLength 2 (conv hdr)
  Function.update withHdr (info.numPacketWords32 - 1) (conv vendWord)

/-- `if_hdr_pack`: the words from `packet_buff` on, and the info. -/
def ifHdrPack (conv : BitVec 32 → BitVec 32) (buff : Words) (info : IfPacketInfo) :
    Words × IfPacketInfo :=
  let packed := packedInfo info
  match info.linkType with
  | .none =>
    (Function.update (packWords conv buff 0 info) 0 (conv (vrtHdrWord packed)), packed)
  | .chdr =>
    (Function.update (packWords conv buff 0 info) 0 (conv (vrtToChdr (vrtHdrWord packed) packed)),
      packed)
  | .vrlp =>
    (vrlpWords conv (packWords conv buff 2 info) (vrlpInfo packed) (vrtHdrWord packed),
      vrlpInfo packed)

/-! ## Unpacking -/

/-- Unpacking has not returned an info. -/
inductive VrtFault where
  | thrown (e : UhdError)
  /-- A word outside of the buffer is read. -/
  | outside
  deriving DecidableEq, Repr

/-- Read a word, in the order of the host. -/
def readWord (conv : BitVec 32 → BitVec 32) (buff : List (BitVec 32)) (i : ℕ) :
    Except VrtFault (BitVec 32) :=
  if i < buff.length then .ok (conv (buff.getD i 0)) else .error .outside

/-- Read the word before an index; before the first one is outside. -/
def readBefore (conv : BitVec 32 → BitVec 32) (buff : List (BitVec 32)) (i : ℕ) :
    Except VrtFault (BitVec 32) :=
  if i = 0 then .error .outside else readWord conv buff (i - 1)

/-- Read a word if it is there. -/
def readIf (present : Bool) (old : BitVec 32) (read : Except VrtFault (BitVec 32)) :
    Except VrtFault (BitVec 32) :=
  if present then read else .ok old

/-- Read the fractional time if it is there. -/
def readTsf (conv : BitVec 32 → BitVec 32) (buff : List (BitVec 32)) (present : Bool) (i : ℕ)
    (old : BitVec 64) : Except VrtFault (BitVec 64) :=
  if present then do
    let high ← readWord conv buff i
    let low ← readWord conv buff (i + 1)
    return (high.setWidth 64 <<< 32) ||| low.setWidth 64
  else .ok old

/-- `indicators` -/
def indicators (tlr : BitVec 32) : BitVec 32 := (tlr >>> 20) &&& (tlr >>> 8)

/-- `empty_bytes` -/
def emptyBytes (p : Pred) (tlr : BitVec 32) : ℕ :=
  if p.tlr then occTable (getField (indicators tlr) 2 2).toNat else 0

/-- The packet length that a VRT header word says. -/
def packetWords32 (hdr : BitVec 32) : ℕ := (getField hdr 0 16).toNat

/-- The fields of a header and the sizes. -/
def unpackedInfo (info : IfPacketInfo) (hdr sid tsi tlr : BitVec 32) (tsf : BitVec 64) :
    IfPacketInfo :=
  let p := Pred.ofHeader hdr
  let payloadWords := packetWords32 hdr - (p.headerWords + p.trailerWords)
  { info with
    packetType := (getField hdr 29 3).setWidth 3
    packetCount := (getField hdr 16 4).toNat
    hasSid := p.sid
    sid := sid
    hasCid := p.cid
    cid := if p.cid then 0 else info.cid
    hasTsi := p.tsi
    tsi := tsi
    hasTsf := p.tsf
    tsf := tsf
    hasTlr := p.tlr
    tlr := tlr
    eob := p.eob || (p.tlr && (indicators tlr).getLsbD 0)
    sob := p.sob || (p.tlr && (indicators tlr).getLsbD 1)
    numHeaderWords32 := p.headerWords
    numPayloadWords32 := payloadWords
    numPayloadBytes := sizeSub (payloadWords * 4) (emptyBytes p tlr) }

/-- `__if_hdr_unpack`, with the buffer from an index on -/
def unpackCore (conv : BitVec 32 → BitVec 32) (buff : List (BitVec 32)) (base : ℕ)
    (info : IfPacketInfo) (hdr : BitVec 32) : Except VrtFault IfPacketInfo :=
  if info.numPacketWords32 < packetWords32 hdr then
    .error (.thrown (.valueError "bad vrt header or packet fragment"))
  else do
    let p := Pred.ofHeader hdr
    let sid ← readIf p.sid info.sid (readWord conv buff (base + 1))
    let tsi ← readIf p.tsi info.tsi (readWord conv buff (base + p.tsiAt))
    let tsf ← readTsf conv buff p.tsf (base + p.tsfAt) info.tsf
    let tlr ← readIf p.tlr info.tlr (readBefore conv buff (base + packetWords32 hdr))
    if packetWords32 hdr < p.headerWords + p.trailerWords then
      .error (.thrown (.valueError "bad vrt header or invalid packet length"))
    else .ok (unpackedInfo info hdr sid tsi tlr tsf)

/-- `if_hdr_unpack` -/
def ifHdrUnpack (conv : BitVec 32 → BitVec 32) (buff : List (BitVec 32)) (info : IfPacketInfo) :
    Except VrtFault IfPacketInfo :=
  match info.linkType with
  | .none => do
    let hdr ← readWord conv buff 0
    unpackCore conv buff 0 info hdr
  | .chdr => do
    let chdr ← readWord conv buff 0
    let out ← unpackCore conv buff 0 info (chdrToVrt chdr)
    return { out with
      numPayloadBytes := sizeSub out.numPayloadBytes (getField (~~~chdr + 1) 0 2).toNat
      packetCount := chdrPacketCount chdr }
  | .vrlp => do
    let vrlp ← readWord conv buff 0
    if vrlp ≠ vrlpWord then .error (.thrown (.valueError "bad vrl header VRLP"))
    else do
      let vrlHdr ← readWord conv buff 1
      let hdr ← readWord conv buff 2
      let length := (getField vrlHdr 0 20).toNat
      if info.numPacketWords32 < length then
        .error (.thrown (.valueError "bad vrl header or packet fragment"))
      else do
        -- the index is a number of 32 bits
        let vend ← readWord conv buff ((length + (2 ^ 32 - 1)) % 2 ^ 32)
        if vend ≠ vendWord then .error (.thrown (.valueError "bad vrl trailer VEND"))
        else do
          let out ← unpackCore conv buff 2 info hdr
          return { out with
            numHeaderWords32 := out.numHeaderWords32 + 2
            packetCount := (getField vrlHdr 20 12).toNat }

end Vrt
end Transport
end UhdHost
