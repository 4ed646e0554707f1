import UhdHost.Rfnoc.ChdrHeader

/-!
# Stream status and stream command payloads

`strs_payload` and `strc_payload` of `uhd/rfnoc/chdr_types.hpp` and `rfnoc/chdr_types.cpp`.  A status
is four words of 64 bits, a command two; their fields have widths like 24 and 40 bits, and the
values of a class may be wider than their fields.  What has room in its field is read back
(`StrsPayload.InRange.deserialize`, `StrcPayload.InRange.deserialize`).

`chdr_packet_writer_specific` is a template over the class of the payload.  What it asks of that
class is `PayloadClass`.
-/

namespace UhdHost
namespace Rfnoc
namespace Chdr

open BitFields

/-- What `chdr_packet_writer_specific` asks of the class of a payload. -/
class PayloadClass (α : Type) where
  /-- `populate_header` -/
  populateHeader : ChdrHeader → ChdrHeader
  /-- `serialize`: the words that are written, and the number of bytes that is returned. -/
  serialize : α → ℕ → (BitVec 64 → BitVec 64) → Except UhdError (List (BitVec 64) × ℕ)
  /-- `deserialize`, of the words from the buffer on -/
  deserialize : (ℕ → BitVec 64) → ℕ → (BitVec 64 → BitVec 64) → Except UhdError α

/-- `populate_header` of a payload of packets of a type. -/
def populate (t : PacketType) (header : ChdrHeader) : ChdrHeader :=
  (((header.setPktType t).setEob false).setEov false).setNumMdata 0

/-! ## Stream status -/

/-- `strs_status_t` -/
inductive StrsStatus where
  | okay
  | cmdErr
  | seqErr
  | dataErr
  | rtErr
  deriving DecidableEq, Repr

/-- The value of a status. -/
def StrsStatus.code : StrsStatus → BitVec 4
  | .okay => 0x0
  | .cmdErr => 0x1
  | .seqErr => 0x2
  | .dataErr => 0x3
  | .rtErr => 0x4

/-- `strs_payload` -/
structure StrsPayload where
  srcEpid : BitVec 16 := 0
  /-- The value of the status; four bits may hold one without a name. -/
  status : BitVec 4 := StrsStatus.okay.code
  /-- 40 bits -/
  capacityBytes : BitVec 64 := 0
  /-- 24 bits -/
  capacityPkts : BitVec 32 := 0
  xferCountBytes : BitVec 64 := 0
  /-- 40 bits -/
  xferCountPkts : BitVec 64 := 0
  buffInfo : BitVec 16 := 0
  /-- `status_info.info`, 48 bits -/
  statusInfo : BitVec 64 := 0
  deriving DecidableEq, Repr

namespace StrsPayload

/-- The first word. -/
def word0 (p : StrsPayload) : BitVec 64 :=
  field (p.srcEpid.setWidth 64) 0 16 ||| field (p.status.setWidth 64) 16 4 |||
    field p.capacityBytes 24 40

/-- The second word. -/
def word1 (p : StrsPayload) : BitVec 64 :=
  field (p.capacityPkts.setWidth 64) 0 24 ||| field p.xferCountPkts 24 40

/-- The fourth word. -/
def word3 (p : StrsPayload) : BitVec 64 :=
  field (p.buffInfo.setWidth 64) 0 16 ||| field p.statusInfo 16 48

/-- `populate_header` -/
def populateHeader : ChdrHeader → ChdrHeader := populate .strs

/-- The words that are written. -/
def words (p : StrsPayload) (conv : BitVec 64 → BitVec 64) : List (BitVec 64) :=
  [conv p.word0, conv p.word1, conv p.xferCountBytes, conv p.word3]

/-- `serialize` -/
def serialize (p : StrsPayload) (maxSizeBytes : ℕ) (conv : BitVec 64 → BitVec 64) :
    Except UhdError (List (BitVec 64) × ℕ) :=
  if 4 * 8 ≤ maxSizeBytes then .ok (p.words conv, 4 * 8)
  else .error (.assertionError "max_size_bytes >= (4 * sizeof(uint64_t))")

/-- `deserialize` -/
def deserialize (buff : ℕ → BitVec 64) (buffSize : ℕ) (conv : BitVec 64 → BitVec 64) :
    Except UhdError StrsPayload :=
  if 4 ≤ buffSize then
    let word0 := conv (buff 0)
    let word1 := conv (buff 1)
    let word3 := conv (buff 3)
    .ok
      { srcEpid := (getField word0 0 16).setWidth 16
        status := (getField word0 16 4).setWidth 4
        capacityBytes := getField word0 24 40
        capacityPkts := (getField word1 0 24).setWidth 32
        xferCountPkts := getField word1 24 40
        xferCountBytes := conv (buff 2)
        buffInfo := (getField word3 0 16).setWidth 16
        statusInfo := getField word3 16 48 }
  else .error (.assertionError "buff_size >= 4")

instance : PayloadClass StrsPayload := ⟨populateHeader, serialize, deserialize⟩

/-- The values that have room in their fields. -/
structure InRange (p : StrsPayload) : Prop where
  capacityBytes : p.capacityBytes.toNat < 2 ^ 40
  capacityPkts : p.capacityPkts.toNat < 2 ^ 24
  xferCountPkts : p.xferCountPkts.toNat < 2 ^ 40
  statusInfo : p.statusInfo.toNat < 2 ^ 48

end StrsPayload

/-! ## Stream commands -/

/-- `strc_payload` -/
structure StrcPayload where
  srcEpid : BitVec 16 := 0
  /-- The value of the operation code; four bits may hold one without a name. -/
  opCode : BitVec 4 := 0x0
  /-- 4 bits -/
  opData : BitVec 8 := 0
  /-- 40 bits -/
  numPkts : BitVec 64 := 0
  numBytes : BitVec 64 := 0
  deriving DecidableEq, Repr

namespace StrcPayload

/-- The first word. -/
def word0 (p : StrcPayload) : BitVec 64 :=
  field (p.srcEpid.setWidth 64) 0 16 ||| field (p.opCode.setWidth 64) 16 4 |||
    field (p.opData.setWidth 64) 20 4 ||| field p.numPkts 24 40

/-- `populate_header` -/
def populateHeader : ChdrHeader → ChdrHeader := populate .strc

/-- The words that are written. -/
def words (p : StrcPayload) (conv : BitVec 64 → BitVec 64) : List (BitVec 64) :=
  [conv p.word0, conv p.numBytes]

/-- `serialize` -/
def serialize (p : StrcPayload) (maxSizeBytes : ℕ) (conv : BitVec 64 → BitVec 64) :
    Except UhdError (List (BitVec 64) × ℕ) :=
  if 2 * 8 ≤ maxSizeBytes then .ok (p.words conv, 2 * 8)
  else .error (.assertionError "max_size_bytes >= (2 * sizeof(uint64_t))")

/-- `deserialize` -/
def deserialize (buff : ℕ → BitVec 64) (buffSize : ℕ) (conv : BitVec 64 → BitVec 64) :
    Except UhdError StrcPayload :=
  if 2 ≤ buffSize then
    let word0 := conv (buff 0)
    .ok
      { srcEpid := (getField word0 0 16).setWidth 16
        opCode := (getField word0 16 4).setWidth 4
        opData := (getField word0 20 4).setWidth 8
        numPkts := getField word0 24 40
        numBytes := conv (buff 1) }
  else .error (.assertionError "buff_size >= 2")

instance : PayloadClass StrcPayload := ⟨populateHeader, serialize, deserialize⟩

/-- The values that have room in their fields. -/
structure InRange (p : StrcPayload) : Prop where
  opData : p.opData.toNat < 2 ^ 4
  numPkts : p.numPkts.toNat < 2 ^ 40

end StrcPayload

/-! ## What was written is read back -/

/-- What is needed of a payload that is to be read back: these are the words that
`serialize` writes, and wherever they lie, `deserialize` makes the payload of them. -/
structure ReadsBack {α : Type} [PayloadClass α] (conv : BitVec 64 → BitVec 64) (payload : α)
    (words : List (BitVec 64)) : Prop where
  serialize : ∀ {maxSizeBytes}, 8 * words.length ≤ maxSizeBytes →
    PayloadClass.serialize payload maxSizeBytes conv = .ok (words, 8 * words.length)
  deserialize : ∀ {buff : ℕ → BitVec 64}, (List.range words.length).map buff = words →
    PayloadClass.deserialize buff words.length conv = .ok payload

theorem setWidth_and_lowMask {m width : ℕ} {v : BitVec m} (hm : m ≤ 64) (hwidth : width < 64)
    (hv : v.toNat < 2 ^ width) : (v.setWidth 64 &&& lowMask 64 width).setWidth m = v := by
  have hfits : (v.setWidth 64).toNat < 2 ^ width := by
    rw [toNat_setWidth_of_le v hm]
    exact hv
  rw [and_lowMask_of_lt hwidth hfits, setWidth_setWidth_of_le v hm]

theorem StrsPayload.InRange.readsBack {p : StrsPayload} (hp : p.InRange)
    {conv : BitVec 64 → BitVec 64} (hconv : ∀ x, conv (conv x) = x) :
    ReadsBack conv p (p.words conv) where
  serialize := fun hmax => if_pos hmax
  deserialize := by
    intro buff hbuff
    obtain ⟨h0, h1, h2, h3⟩ : buff 0 = conv p.word0 ∧ buff 1 = conv p.word1 ∧
        buff 2 = conv p.xferCountBytes ∧ buff 3 = conv p.word3 := by
      simpa [StrsPayload.words, List.range_succ] using hbuff
    show StrsPayload.deserialize buff 4 conv = .ok p
    rw [StrsPayload.deserialize, if_pos (Nat.le_refl 4)]
    simp only [h0, h1, h2, h3, hconv, StrsPayload.word0, StrsPayload.word1, StrsPayload.word3]
    simp (disch := decide) only [getField_or, getField_field, getField_field_of_disjoint,
      BitVec.or_zero, BitVec.zero_or]
    rw [setWidth_and_lowMask (by decide) (by decide) p.srcEpid.isLt,
      setWidth_and_lowMask (by decide) (by decide) p.status.isLt,
      and_lowMask_of_lt (by decide) hp.capacityBytes,
      setWidth_and_lowMask (by decide) (by decide) hp.capacityPkts,
      and_lowMask_of_lt (by decide) hp.xferCountPkts,
      setWidth_and_lowMask (by decide) (by decide) p.buffInfo.isLt,
      and_lowMask_of_lt (by decide) hp.statusInfo]

theorem StrcPayload.InRange.readsBack {p : StrcPayload} (hp : p.InRange)
    {conv : BitVec 64 → BitVec 64} (hconv : ∀ x, conv (conv x) = x) :
    ReadsBack conv p (p.words conv) where
  serialize := fun hmax => if_pos hmax
  deserialize := by
    intro buff hbuff
    obtain ⟨h0, h1⟩ : buff 0 = conv p.word0 ∧ buff 1 = conv p.numBytes := by
      simpa [StrcPayload.words, List.range_succ] using hbuff
    show StrcPayload.deserialize buff 2 conv = .ok p
    rw [StrcPayload.deserialize, if_pos (Nat.le_refl 2)]
    simp only [h0, h1, hconv, StrcPayload.word0]
    simp (disch := decide) only [getField_or, getField_field, getField_field_of_disjoint,
      BitVec.or_zero, BitVec.zero_or]
    rw [setWidth_and_lowMask (by decide) (by decide) p.srcEpid.isLt,
      setWidth_and_lowMask (by decide) (by decide) p.opCode.isLt,
      setWidth_and_lowMask (by decide) (by decide) hp.opData,
      and_lowMask_of_lt (by decide) hp.numPkts]

end Chdr
end Rfnoc
end UhdHost
