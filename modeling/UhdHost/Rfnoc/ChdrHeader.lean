import UhdHost.Library.BitFields
import UhdHost.Rfnoc.RxDataXport

/-!
# The CHDR header

`chdr_header` of `uhd/rfnoc/chdr_types.hpp` is one word of 64 bits with eight fields.  Every
accessor reads or writes one of them (`HeaderField`); writing one leaves the others as they were.
-/

namespace UhdHost
namespace Rfnoc

/-- `chdr_w_to_bits` of one of the enumerated widths. -/
def ChdrW.bits (w : ChdrW) : ℕ := 8 * w.bytes

/-- The number of 64-bit words in a CHDR word. -/
def ChdrW.stride (w : ChdrW) : ℕ := w.bits / 64

theorem ChdrW.stride_pos (w : ChdrW) : 0 < w.stride := by cases w <;> decide

theorem ChdrW.bytes_eq (w : ChdrW) : w.bytes = 8 * w.stride := by cases w <;> rfl

theorem ChdrW.stride_le (w : ChdrW) : w.stride ≤ 8 := by cases w <;> decide

/-- The value of `packet_type_t`. -/
def PacketType.code : PacketType → BitVec 64
  | .mgmt => 0x0
  | .strs => 0x1
  | .strc => 0x2
  | .ctrl => 0x4
  | .dataNoTs => 0x6
  | .dataWithTs => 0x7

namespace Chdr

open BitFields

/-- `chdr_header`, in host order -/
structure ChdrHeader where
  /-- `_flat_hdr` -/
  flatHdr : BitVec 64 := 0
  deriving DecidableEq, Repr

/-- The place of a field. -/
structure HeaderField where
  offset : ℕ
  width : ℕ
  /-- The field is part of the word, and not all of it. -/
  fits : width < 64 ∧ offset + width ≤ 64

namespace HeaderField

/-- `VC` -/
def vc : HeaderField := ⟨58, 6, by decide⟩

/-- `EOB` -/
def eob : HeaderField := ⟨57, 1, by decide⟩

/-- `EOV` -/
def eov : HeaderField := ⟨56, 1, by decide⟩

/-- `PKT_TYPE` -/
def pktType : HeaderField := ⟨53, 3, by decide⟩

/-- `NUM_MDATA` -/
def numMdata : HeaderField := ⟨48, 5, by decide⟩

/-- `SEQ_NUM` -/
def seqNum : HeaderField := ⟨32, 16, by decide⟩

/-- `LENGTH` -/
def length : HeaderField := ⟨16, 16, by decide⟩

/-- `DST_EPID` -/
def dstEpid : HeaderField := ⟨0, 16, by decide⟩

/-- Fields that share no bit. -/
def Disjoint (f g : HeaderField) : Prop :=
  f.offset + f.width ≤ g.offset ∨ g.offset + g.width ≤ f.offset

instance (f g : HeaderField) : Decidable (f.Disjoint g) := inferInstanceAs (Decidable (_ ∨ _))

end HeaderField

namespace ChdrHeader

open HeaderField

/-- `get_field` -/
def get (h : ChdrHeader) (f : HeaderField) : BitVec 64 := getField h.flatHdr f.offset f.width

/-- `set_field` -/
def set (h : ChdrHeader) (f : HeaderField) (v : BitVec 64) : ChdrHeader :=
  ⟨setField h.flatHdr v f.offset f.width⟩

/-- `get_vc` -/
def getVc (h : ChdrHeader) : BitVec 8 := (h.get vc).setWidth 8

/-- `set_vc` -/
def setVc (h : ChdrHeader) (v : BitVec 8) : ChdrHeader := h.set vc (v.setWidth 64)

/-- `get_eob` -/
def getEob (h : ChdrHeader) : Bool := h.get eob != 0

/-- `set_eob` -/
def setEob (h : ChdrHeader) (v : Bool) : ChdrHeader := h.set eob (if v then 1 else 0)

/-- `get_eov` -/
def getEov (h : ChdrHeader) : Bool := h.get eov != 0

/-- `set_eov` -/
def setEov (h : ChdrHeader) (v : Bool) : ChdrHeader := h.set eov (if v then 1 else 0)

/-- `get_pkt_type`, as a number -/
def getPktType (h : ChdrHeader) : BitVec 64 := h.get pktType

/-- `set_pkt_type` -/
def setPktType (h : ChdrHeader) (t : PacketType) : ChdrHeader := h.set pktType t.code

/-- `get_num_mdata` -/
def getNumMdata (h : ChdrHeader) : BitVec 8 := (h.get numMdata).setWidth 8

/-- `set_num_mdata` -/
def setNumMdata (h : ChdrHeader) (v : BitVec 8) : ChdrHeader := h.set numMdata (v.setWidth 64)

/-- `get_seq_num` -/
def getSeqNum (h : ChdrHeader) : BitVec 16 := (h.get seqNum).setWidth 16

/-- `set_seq_num` -/
def setSeqNum (h : ChdrHeader) (v : BitVec 16) : ChdrHeader := h.set seqNum (v.setWidth 64)

/-- `get_length` -/
def getLength (h : ChdrHeader) : BitVec 16 := (h.get length).setWidth 16

/-- `set_length` -/
def setLength (h : ChdrHeader) (v : BitVec 16) : ChdrHeader := h.set length (v.setWidth 64)

/-- `get_dst_epid` -/
def getDstEpid (h : ChdrHeader) : BitVec 16 := (h.get dstEpid).setWidth 16

/-- `set_dst_epid` -/
def setDstEpid (h : ChdrHeader) (v : BitVec 16) : ChdrHeader := h.set dstEpid (v.setWidth 64)

theorem get_set (h : ChdrHeader) (f : HeaderField) (v : BitVec 64) :
    (h.set f v).get f = v &&& lowMask 64 f.width :=
  getField_setField h.flatHdr v f.fits.1 f.fits.2

theorem get_set_of_disjoint (h : ChdrHeader) {f g : HeaderField} (v : BitVec 64)
    (hdisjoint : f.Disjoint g) : (h.set f v).get g = h.get g :=
  getField_setField_of_disjoint h.flatHdr v f.fits.1 g.fits.1 hdisjoint g.fits.2

theorem toNat_get_lt (h : ChdrHeader) (f : HeaderField) : (h.get f).toNat < 2 ^ f.width :=
  toNat_getField_lt h.flatHdr f.offset f.fits.1

theorem get_set_of_lt (h : ChdrHeader) (f : HeaderField) {v : BitVec 64}
    (hv : v.toNat < 2 ^ f.width) : (h.set f v).get f = v := by
  rw [get_set, and_lowMask_of_lt f.fits.1 hv]

theorem toNat_getNumMdata (h : ChdrHeader) : h.getNumMdata.toNat = (h.get numMdata).toNat := by
  have hlt := h.toNat_get_lt numMdata
  rw [getNumMdata, BitVec.toNat_setWidth, Nat.mod_eq_of_lt (Nat.lt_trans hlt (by decide))]

theorem toNat_getNumMdata_setNumMdata (h : ChdrHeader) (v : BitVec 8) :
    (h.setNumMdata v).getNumMdata.toNat = v.toNat % 32 := by
  rw [toNat_getNumMdata, setNumMdata, get_set, toNat_and_lowMask _ (by decide),
    toNat_setWidth_of_le v (by decide)]
  rfl

theorem getLength_setLength (h : ChdrHeader) (v : BitVec 16) : (h.setLength v).getLength = v := by
  have hfits : (v.setWidth 64).toNat < 2 ^ length.width := by
    rw [toNat_setWidth_of_le v (by decide)]
    exact v.isLt
  rw [getLength, setLength, get_set_of_lt h length hfits, setWidth_setWidth_of_le v (by decide)]

theorem get_setLength (h : ChdrHeader) (v : BitVec 16) {f : HeaderField}
    (hdisjoint : length.Disjoint f) : (h.setLength v).get f = h.get f :=
  h.get_set_of_disjoint _ hdisjoint

theorem set_eq_self (h : ChdrHeader) (f : HeaderField) {v : BitVec 64}
    (hv : v &&& lowMask 64 f.width = h.get f) : h.set f v = h := by
  refine congrArg ChdrHeader.mk (BitVec.eq_of_getLsbD_eq fun i hi => ?_)
  rw [setField, field, hv, get, getField]
  simp only [BitVec.getLsbD_or, BitVec.getLsbD_and, BitVec.getLsbD_not, BitVec.getLsbD_shiftLeft,
    BitVec.getLsbD_ushiftRight, getLsbD_lowMask f.fits.1]
  by_cases hlow : i < f.offset
  · simp [hi, hlow]
  · have hback : f.offset + (i - f.offset) = i := by omega
    by_cases hhigh : i - f.offset < f.width
    · simp [hi, hlow, hhigh, hback]
    · simp [hi, hlow, hhigh]

end ChdrHeader
end Chdr
end Rfnoc
end UhdHost
