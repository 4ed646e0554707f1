import UhdHost.Library.BitFields
import UhdHost.Rfnoc.CtrlPayload
import UhdHost.Types.Endianness
import UhdHost.Types.Exception

/-!
# The format of control payloads

`ctrl_payload::serialize` and `ctrl_payload::deserialize` of `rfnoc/chdr_types.cpp`: two header
words, two words for a timestamp if there is one, the operation word, and the data words.

A payload that is written is read back, whatever comes after it.  Reading takes as many data words
as the header says, or as many as there are, but keeps the number from the header: so what is read
from a payload that was cut within its data is refused by `serialize` (`ctrl_format`).
-/

namespace UhdHost
namespace Rfnoc

open BitFields

/-- The value of an operation code. -/
def CtrlOpcode.code : CtrlOpcode → BitVec 32
  | .sleep => 0x0
  | .write => 0x1
  | .read => 0x2
  | .readWrite => 0x3
  | .blockWrite => 0x4
  | .blockRead => 0x5
  | .poll => 0x6
  | .unnamed7 => 0x7
  | .unnamed8 => 0x8
  | .unnamed9 => 0x9
  | .user1 => 0xA
  | .user2 => 0xB
  | .user3 => 0xC
  | .user4 => 0xD
  | .user5 => 0xE
  | .user6 => 0xF

/-- The operation code of a value of four bits. -/
def CtrlOpcode.ofCode (code : BitVec 32) : CtrlOpcode :=
  match code.toNat with
  | 0 => .sleep
  | 1 => .write
  | 2 => .read
  | 3 => .readWrite
  | 4 => .blockWrite
  | 5 => .blockRead
  | 6 => .poll
  | 7 => .unnamed7
  | 8 => .unnamed8
  | 9 => .unnamed9
  | 10 => .user1
  | 11 => .user2
  | 12 => .user3
  | 13 => .user4
  | 14 => .user5
  | _ => .user6

theorem CtrlOpcode.ofCode_code (op : CtrlOpcode) : ofCode op.code = op := by cases op <;> rfl

theorem CtrlOpcode.code_lt (op : CtrlOpcode) : op.code.toNat < 2 ^ 4 := by cases op <;> decide

/-- The value of a status. -/
def CtrlStatus.code : CtrlStatus → BitVec 32
  | .okay => 0x0
  | .cmdErr => 0x1
  | .tsErr => 0x2
  | .warning => 0x3

/-- The status of a value of two bits. -/
def CtrlStatus.ofCode (code : BitVec 32) : CtrlStatus :=
  match code.toNat with
  | 0 => .okay
  | 1 => .cmdErr
  | 2 => .tsErr
  | _ => .warning

theorem CtrlStatus.ofCode_code (status : CtrlStatus) : ofCode status.code = status := by
  cases status <;> rfl

theorem CtrlStatus.code_lt (status : CtrlStatus) : status.code.toNat < 2 ^ 2 := by
  cases status <;> decide

namespace CtrlPayload

/-- `MAX_DATA_WORDS` -/
def maxDataWords : ℕ := 15

/-- `get_length` -/
def getLength (p : CtrlPayload) : ℕ := p.getPayloadSize * 4

/-! ## Writing -/

/-- Control header word 0. -/
def hdrLo (p : CtrlPayload) : BitVec 32 :=
  field (p.dstPort.toBitVec.setWidth 32) 0 10 ||| field (BitVec.ofNat 32 p.numData) 10 4 |||
    field (if p.timestamp.isSome then 1 else 0) 14 1 ||| field (if p.isAck then 1 else 0) 15 1 |||
    field (p.srcEpid.toBitVec.setWidth 32) 16 16

/-- Control header word 1. -/
def hdrHi (p : CtrlPayload) : BitVec 32 :=
  field (p.srcPort.toBitVec.setWidth 32) 0 10 ||| field (p.seqNum.toBitVec.setWidth 32) 20 8 |||
    field (BitVec.ofNat 32 p.reqSize) 28 4

/-- The words of a timestamp, the low word first. -/
def timestampWords (timestamp : UInt64) : List (BitVec 32) :=
  [(timestamp.toBitVec &&& 0xFFFFFFFF).setWidth 32,
    ((timestamp.toBitVec >>> 32) &&& 0xFFFFFFFF).setWidth 32]

/-- The operation word. -/
def opLo (p : CtrlPayload) : BitVec 32 :=
  field p.address.toBitVec 0 20 ||| field (p.byteEnable.toBitVec.setWidth 32) 20 4 |||
    field p.opCode.code 24 4 ||| field p.status.code 30 2

/-- The words that `serialize` writes. -/
def words (p : CtrlPayload) (conv : BitVec 32 → BitVec 32) : List (BitVec 32) :=
  ([p.hdrLo, p.hdrHi] ++ p.timestamp.elim [] timestampWords ++ [p.opLo] ++
    p.dataVtr.map UInt32.toBitVec).map conv

/-- `serialize`: the words that are written, and the number of bytes that is returned. -/
def serialize (p : CtrlPayload) (maxSizeBytes : ℕ) (conv : BitVec 32 → BitVec 32) :
    Except UhdError (List (BitVec 32) × ℕ) :=
  if ¬ (p.numData = p.dataVtr.length ∧ p.numData ≤ maxDataWords) then
    .error (.assertionError "num_data == data_vtr.size() && num_data <= MAX_DATA_WORDS")
  else if ¬ p.reqSize ≤ maxDataWords then .error (.assertionError "req_size <= MAX_DATA_WORDS")
  else if ¬ p.getLength ≤ maxSizeBytes then
    .error (.assertionError "get_length() <= max_size_bytes")
  else if ¬ (p.words conv).length * 4 = p.getLength then
    .error (.assertionError "ptr * sizeof(uint32_t) == get_length()")
  else .ok (p.words conv, (p.words conv).length * 4)

/-! ## Reading -/

/-- The payload with the fields of its words. -/
def ofWords (hdrLo hdrHi opLo : BitVec 32) (timestamp : Option UInt64) (dataVtr : List UInt32) :
    CtrlPayload where
  dstPort := .ofBitVec ((getField hdrLo 0 10).setWidth 16)
  srcPort := .ofBitVec ((getField hdrHi 0 10).setWidth 16)
  seqNum := .ofBitVec ((getField hdrHi 20 8).setWidth 8)
  timestamp := timestamp
  isAck := getField hdrLo 15 1 != 0
  srcEpid := .ofBitVec ((getField hdrLo 16 16).setWidth 16)
  address := .ofBitVec (getField opLo 0 20)
  dataVtr := dataVtr
  numData := (getField hdrLo 10 4).toNat
  reqSize := (getField hdrHi 28 4).toNat
  byteEnable := .ofBitVec ((getField opLo 20 4).setWidth 8)
  opCode := .ofCode (getField opLo 24 4)
  status := .ofCode (getField opLo 30 2)

/-- `deserialize`, of a buffer of `buff_size` words. -/
def deserialize (buff : List (BitVec 32)) (conv : BitVec 32 → BitVec 32) :
    Except UhdError CtrlPayload :=
  let hdrLo := conv (buff.getD 0 0)
  let hdrHi := conv (buff.getD 1 0)
  let numDataFromHdr := (getField hdrLo 10 4).toNat
  let hasTime := getField hdrLo 14 1 != 0
  let ptr := if hasTime then 4 else 2
  if ¬ 3 ≤ buff.length then .error (.assertionError "buff_size >= 3")
  else if ¬ numDataFromHdr ≤ maxDataWords then
    .error (.assertionError "num_data_from_hdr <= MAX_DATA_WORDS")
  else if hasTime ∧ ¬ 4 ≤ buff.length then .error (.assertionError "buff_size >= ptr + 2")
  else if ¬ ptr + 1 ≤ buff.length then .error (.assertionError "buff_size >= ptr + 1")
  else
    let timestamp : Option UInt64 :=
      if hasTime then
        some (.ofBitVec ((conv (buff.getD 3 0)).setWidth 64 <<< 32 |||
          (conv (buff.getD 2 0)).setWidth 64))
      else none
    -- as many as the header says, or as there are
    let dataVtr := ((buff.drop (ptr + 1)).take numDataFromHdr).map fun x => .ofBitVec (conv x)
    .ok (ofWords hdrLo hdrHi (conv (buff.getD ptr 0)) timestamp dataVtr)

/-! ## What was written is read back -/

/-- A payload whose fields have room in their words. -/
structure InRange (p : CtrlPayload) : Prop where
  dstPort : p.dstPort.toNat < 2 ^ 10
  srcPort : p.srcPort.toNat < 2 ^ 10
  address : p.address.toNat < 2 ^ 20
  byteEnable : p.byteEnable.toNat < 2 ^ 4
  numData : p.numData = p.dataVtr.length
  atMost : p.dataVtr.length ≤ maxDataWords
  reqSize : p.reqSize ≤ maxDataWords

variable {p : CtrlPayload}

theorem setWidth_and_lowMask {m width : ℕ} {v : BitVec m} (hm : m ≤ 32) (hwidth : width < 32)
    (hv : v.toNat < 2 ^ width) : (v.setWidth 32 &&& lowMask 32 width).setWidth m = v := by
  have hfits : (v.setWidth 32).toNat < 2 ^ width := by
    rw [toNat_setWidth_of_le v hm]
    exact hv
  rw [and_lowMask_of_lt hwidth hfits, setWidth_setWidth_of_le v hm]

theorem toNat_ofNat_and_lowMask {k : ℕ} (hk : k ≤ maxDataWords) :
    (BitVec.ofNat 32 k &&& lowMask 32 4).toNat = k := by
  have hlt : k < 16 := Nat.lt_succ_of_le hk
  rw [toNat_and_lowMask _ (by decide), BitVec.toNat_ofNat]
  omega

theorem flag_and_lowMask (b : Bool) :
    ((if b then 1 else 0 : BitVec 32) &&& lowMask 32 1 != 0) = b := by
  cases b <;> decide

theorem InRange.hdrLo (hp : p.InRange) :
    (getField p.hdrLo 0 10).setWidth 16 = p.dstPort.toBitVec ∧
      (getField p.hdrLo 10 4).toNat = p.numData ∧
      (getField p.hdrLo 14 1 != 0) = p.timestamp.isSome ∧
      (getField p.hdrLo 15 1 != 0) = p.isAck ∧
      (getField p.hdrLo 16 16).setWidth 16 = p.srcEpid.toBitVec := by
  rw [CtrlPayload.hdrLo]
  simp (disch := decide) only [getField_or, getField_field, getField_field_of_disjoint,
    BitVec.or_zero, BitVec.zero_or]
  exact ⟨setWidth_and_lowMask (by decide) (by decide) hp.dstPort,
    toNat_ofNat_and_lowMask (hp.numData ▸ hp.atMost), flag_and_lowMask _, flag_and_lowMask _,
    setWidth_and_lowMask (by decide) (by decide) p.srcEpid.toBitVec.isLt⟩

theorem InRange.hdrHi (hp : p.InRange) :
    (getField p.hdrHi 0 10).setWidth 16 = p.srcPort.toBitVec ∧
      (getField p.hdrHi 20 8).setWidth 8 = p.seqNum.toBitVec ∧
      (getField p.hdrHi 28 4).toNat = p.reqSize := by
  rw [CtrlPayload.hdrHi]
  simp (disch := decide) only [getField_or, getField_field, getField_field_of_disjoint,
    BitVec.or_zero, BitVec.zero_or]
  exact ⟨setWidth_and_lowMask (by decide) (by decide) hp.srcPort,
    setWidth_and_lowMask (by decide) (by decide) p.seqNum.toBitVec.isLt,
    toNat_ofNat_and_lowMask hp.reqSize⟩

theorem InRange.opLo (hp : p.InRange) :
    getField p.opLo 0 20 = p.address.toBitVec ∧
      (getField p.opLo 20 4).setWidth 8 = p.byteEnable.toBitVec ∧
      getField p.opLo 24 4 = p.opCode.code ∧ getField p.opLo 30 2 = p.status.code := by
  rw [CtrlPayload.opLo]
  simp (disch := decide) only [getField_or, getField_field, getField_field_of_disjoint,
    BitVec.or_zero, BitVec.zero_or]
  exact ⟨and_lowMask_of_lt (by decide) hp.address,
    setWidth_and_lowMask (by decide) (by decide) hp.byteEnable,
    and_lowMask_of_lt (by decide) p.opCode.code_lt, and_lowMask_of_lt (by decide) p.status.code_lt⟩

theorem timestamp_of_words (ts : BitVec 64) :
    (((ts >>> 32) &&& 0xFFFFFFFF).setWidth 32).setWidth 64 <<< 32 |||
      ((ts &&& 0xFFFFFFFF).setWidth 32).setWidth 64 = ts := by
  have hmask : (0xFFFFFFFF : BitVec 64) = lowMask 64 32 := by decide
  refine BitVec.eq_of_getLsbD_eq fun i hi => ?_
  rw [hmask]
  simp only [BitVec.getLsbD_or, BitVec.getLsbD_shiftLeft, BitVec.getLsbD_setWidth,
    BitVec.getLsbD_and, BitVec.getLsbD_ushiftRight, getLsbD_lowMask (by decide : 32 < 64)]
  by_cases hlow : i < 32
  · simp [hi, hlow]
  · have hback : 32 + (i - 32) = i := by omega
    have hhigh : i - 32 < 32 := by omega
    have hhigh' : i - 32 < 64 := by omega
    simp [hi, hlow, hhigh, hhigh', hback]

theorem length_words (p : CtrlPayload) (conv : BitVec 32 → BitVec 32) :
    (p.words conv).length = p.getPayloadSize := by
  rw [words, getPayloadSize, List.length_map, List.length_append, List.length_append,
    List.length_append, List.length_map]
  cases p.timestamp with
  | none => rfl
  | some ts => rfl

theorem InRange.ofWords (hp : p.InRange) :
    CtrlPayload.ofWords p.hdrLo p.hdrHi p.opLo p.timestamp p.dataVtr = p := by
  obtain ⟨hdstPort, hnumData, -, hisAck, hsrcEpid⟩ := hp.hdrLo
  obtain ⟨hsrcPort, hseqNum, hreqSize⟩ := hp.hdrHi
  obtain ⟨haddress, hbyteEnable, hopCode, hstatus⟩ := hp.opLo
  rw [CtrlPayload.ofWords, hdstPort, hnumData, hisAck, hsrcEpid, hsrcPort, hseqNum, hreqSize,
    haddress, hbyteEnable, hopCode, hstatus, CtrlOpcode.ofCode_code, CtrlStatus.ofCode_code]

theorem InRange.deserialize_words (hp : p.InRange) {conv : BitVec 32 → BitVec 32}
    (hconv : ∀ x, conv (conv x) = x) (padding : List (BitVec 32)) :
    deserialize (p.words conv ++ padding) conv = .ok p := by
  obtain ⟨-, hnumData, hhasTime, -, -⟩ := hp.hdrLo
  have hdata : (((p.dataVtr.map UInt32.toBitVec).map conv ++ padding).take p.numData).map
      (fun x => UInt32.ofBitVec (conv x)) = p.dataVtr := by
    rw [hp.numData, List.take_left' (by rw [List.length_map, List.length_map]), List.map_map,
      List.map_map]
    exact (List.map_congr_left fun x _ => congrArg UInt32.ofBitVec (hconv _)).trans (List.map_id _)
  have hcount : p.numData ≤ maxDataWords := hp.numData ▸ hp.atMost
  cases htime : p.timestamp with
  | none =>
    have hwords : p.words conv ++ padding = conv p.hdrLo :: conv p.hdrHi :: conv p.opLo ::
        ((p.dataVtr.map UInt32.toBitVec).map conv ++ padding) := by
      rw [words, htime]
      rfl
    rw [htime] at hhasTime
    rw [hwords, deserialize]
    simp only [List.getD_cons_zero, List.getD_cons_succ, hconv, hnumData, hhasTime, hcount,
      List.length_cons, Option.isSome_none]
    rw [if_neg (by omega), if_neg (by simp), if_neg (by simp), if_neg (by simp)]
    have hback := hp.ofWords
    rw [htime] at hback
    simp only [Bool.false_eq_true, if_false, List.drop_succ_cons, List.drop_zero,
      List.getD_cons_succ, List.getD_cons_zero, hconv]
    rw [hdata, hback]
  | some ts =>
    have hwords : p.words conv ++ padding = conv p.hdrLo :: conv p.hdrHi ::
        conv ((ts.toBitVec &&& 0xFFFFFFFF).setWidth 32) ::
        conv (((ts.toBitVec >>> 32) &&& 0xFFFFFFFF).setWidth 32) :: conv p.opLo ::
        ((p.dataVtr.map UInt32.toBitVec).map conv ++ padding) := by
      rw [words, htime]
      rfl
    rw [htime] at hhasTime
    rw [hwords, deserialize]
    simp only [List.getD_cons_zero, List.getD_cons_succ, hconv, hnumData, hhasTime, hcount,
      List.length_cons, Option.isSome_some]
    rw [if_neg (by omega), if_neg (by simp), if_neg (by omega), if_neg (by simp)]
    have hback := hp.ofWords
    rw [htime] at hback
    simp only [if_true, List.drop_succ_cons, List.drop_zero, List.getD_cons_succ,
      List.getD_cons_zero, hconv]
    rw [hdata, timestamp_of_words, UInt64.ofBitVec_toBitVec, hback]

theorem InRange.serialize (hp : p.InRange) (conv : BitVec 32 → BitVec 32) {maxSizeBytes : ℕ}
    (hmax : p.getLength ≤ maxSizeBytes) :
    p.serialize maxSizeBytes conv = .ok (p.words conv, p.getLength) := by
  have hlength : (p.words conv).length * 4 = p.getLength := by rw [length_words, getLength]
  have hcount : p.numData = p.dataVtr.length ∧ p.numData ≤ maxDataWords :=
    ⟨hp.numData, hp.numData ▸ hp.atMost⟩
  rw [CtrlPayload.serialize, if_neg (not_not.mpr hcount), if_neg (not_not.mpr hp.reqSize),
    if_neg (not_not.mpr hmax), if_neg (not_not.mpr hlength), hlength]

/-! ## What is read -/

/-- `serialize` accepts a payload, given a buffer that is large enough. -/
def Accepted (p : CtrlPayload) (conv : BitVec 32 → BitVec 32) : Prop :=
  ∃ maxSizeBytes out, p.serialize maxSizeBytes conv = .ok out

/-- The data words that a header announces. -/
def announced (buff : List (BitVec 32)) (conv : BitVec 32 → BitVec 32) : ℕ :=
  (getField (conv (buff.getD 0 0)) 10 4).toNat

/-- Where the data words start: after the headers, the timestamp if there is one, and the
operation word. -/
def dataStart (buff : List (BitVec 32)) (conv : BitVec 32 → BitVec 32) : ℕ :=
  if getField (conv (buff.getD 0 0)) 14 1 != 0 then 5 else 3

theorem announced_le (buff : List (BitVec 32)) (conv : BitVec 32 → BitVec 32) :
    announced buff conv ≤ maxDataWords :=
  Nat.le_of_lt_succ (toNat_getField_lt _ _ (by decide))

theorem deserialize_short {buff : List (BitVec 32)} {conv : BitVec 32 → BitVec 32}
    (hshort : buff.length < dataStart buff conv) : ∃ e, deserialize buff conv = .error e := by
  have hcount : (getField (conv (buff.getD 0 0)) 10 4).toNat ≤ maxDataWords :=
    announced_le buff conv
  rw [deserialize]
  dsimp only
  by_cases hthree : 3 ≤ buff.length
  · rw [if_neg (not_not.mpr hthree), if_neg (not_not.mpr hcount)]
    by_cases htime : (getField (conv (buff.getD 0 0)) 14 1 != 0) = true
    · rw [dataStart, if_pos htime] at hshort
      by_cases hfour : 4 ≤ buff.length
      · rw [if_neg fun h => h.2 hfour, if_pos htime, if_pos (by omega)]
        exact ⟨_, rfl⟩
      · rw [if_pos ⟨htime, hfour⟩]
        exact ⟨_, rfl⟩
    · rw [dataStart, if_neg htime] at hshort
      omega
  · rw [if_pos hthree]
    exact ⟨_, rfl⟩

theorem deserialize_long {buff : List (BitVec 32)} {conv : BitVec 32 → BitVec 32}
    (hlong : dataStart buff conv ≤ buff.length) :
    ∃ q, deserialize buff conv = .ok q ∧ q.numData = announced buff conv ∧
      q.dataVtr.length = min (announced buff conv) (buff.length - dataStart buff conv) ∧
      q.reqSize ≤ maxDataWords := by
  have hcount : (getField (conv (buff.getD 0 0)) 10 4).toNat ≤ maxDataWords :=
    announced_le buff conv
  have hstart : (if (getField (conv (buff.getD 0 0)) 14 1 != 0) = true then 4 else 2) + 1 =
      dataStart buff conv := by
    rw [dataStart]
    split_ifs
    · rfl
    · rfl
  have hthree : 3 ≤ dataStart buff conv := by
    rw [dataStart]
    split_ifs
    · decide
    · decide
  have hfour : ¬ ((getField (conv (buff.getD 0 0)) 14 1 != 0) = true ∧ ¬ 4 ≤ buff.length) := by
    rintro ⟨htime, hfour⟩
    rw [dataStart, if_pos htime] at hlong
    omega
  rw [deserialize]
  dsimp only
  rw [if_neg (not_not.mpr (Nat.le_trans hthree hlong)), if_neg (not_not.mpr hcount), if_neg hfour,
    hstart, if_neg (not_not.mpr hlong)]
  refine ⟨_, rfl, rfl, ?_, Nat.le_of_lt_succ (toNat_getField_lt _ _ (by decide))⟩
  show (List.map _ _).length = _
  rw [List.length_map, List.length_take, List.length_drop]
  rfl

theorem accepted_iff (p : CtrlPayload) (conv : BitVec 32 → BitVec 32) :
    p.Accepted conv ↔
      p.numData = p.dataVtr.length ∧ p.numData ≤ maxDataWords ∧ p.reqSize ≤ maxDataWords := by
  constructor
  · rintro ⟨maxSizeBytes, out, hout⟩
    rw [CtrlPayload.serialize] at hout
    split_ifs at hout with hnumData hreqSize
    exact ⟨hnumData.1, hnumData.2, hreqSize⟩
  · rintro ⟨hnumData, hatMost, hreqSize⟩
    have hlength : (p.words conv).length * 4 = p.getLength := by rw [length_words, getLength]
    refine ⟨p.getLength, (p.words conv, (p.words conv).length * 4), ?_⟩
    rw [CtrlPayload.serialize, if_neg (not_not.mpr ⟨hnumData, hatMost⟩),
      if_neg (not_not.mpr hreqSize), if_neg (not_not.mpr (Nat.le_refl _)),
      if_neg (not_not.mpr hlength)]

/-- **The format of control payloads.**  A payload whose fields have room is read back from what
is written of it and any padding.  Of any words, what is read is accepted by `serialize` exactly if
the words end before the data, or hold as many data words as the header announces. -/
theorem ctrl_format (host link : Endianness) :
    (∀ p : CtrlPayload, p.InRange → ∀ maxSizeBytes, p.getLength ≤ maxSizeBytes → ∃ words,
        p.serialize maxSizeBytes (Endianness.conv host link) = .ok (words, p.getLength) ∧
        words.length * 4 = p.getLength ∧ ∀ padding,
          deserialize (words ++ padding) (Endianness.conv host link) = .ok p) ∧
      ∀ buff : List (BitVec 32),
        ((∃ e, deserialize buff (Endianness.conv host link) = .error e) ∨
          ∃ q, deserialize buff (Endianness.conv host link) = .ok q ∧
            q.Accepted (Endianness.conv host link) ∧ q.numData = q.dataVtr.length) ↔
        buff.length < dataStart buff (Endianness.conv host link) ∨
          dataStart buff (Endianness.conv host link) +
            announced buff (Endianness.conv host link) ≤ buff.length := by
  have hconv : ∀ x : BitVec 32, Endianness.conv host link (Endianness.conv host link x) = x :=
    Endianness.conv_conv host link (by decide)
  refine ⟨fun p hp maxSizeBytes hmax => ⟨_, hp.serialize _ hmax, ?_, fun padding =>
    hp.deserialize_words hconv padding⟩, fun buff => ?_⟩
  · rw [length_words, getLength]
  · have hcount := announced_le buff (Endianness.conv host link)
    rcases Nat.lt_or_ge buff.length (dataStart buff (Endianness.conv host link)) with
      hshort | hlong
    · exact ⟨fun _ => Or.inl hshort, fun _ => Or.inl (deserialize_short hshort)⟩
    · obtain ⟨q, hread, hnumData, hdata, hreqSize⟩ := deserialize_long hlong
      constructor
      · rintro (⟨e, herror⟩ | ⟨q', hread', -, hsame⟩)
        · rw [hread] at herror
          cases herror
        · rw [hread] at hread'
          obtain rfl := Except.ok.inj hread'
          refine Or.inr ?_
          rw [hnumData, hdata] at hsame
          omega
      · intro h
        have hsame : q.numData = q.dataVtr.length := by
          rw [hnumData, hdata]
          omega
        exact Or.inr ⟨q, hread, (accepted_iff q _).mpr ⟨hsame, hnumData ▸ hcount, hreqSize⟩, hsame⟩

/-- Three words that announce five data words are read, and not accepted. -/
theorem ctrl_format_cut :
    deserialize [0x1400, 0, 0x01000000] (Endianness.conv .little .little) =
        .ok { dataVtr := [], numData := 5, byteEnable := 0, opCode := .write } ∧
      ¬ Accepted { dataVtr := [], numData := 5, byteEnable := 0, opCode := .write }
        (Endianness.conv .little .little) := by
  refine ⟨by decide, fun h => ?_⟩
  exact absurd ((accepted_iff _ _).mp h).1 (by decide)

end CtrlPayload
end Rfnoc
end UhdHost
