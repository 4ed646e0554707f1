import UhdHost.Transport.VrtUnpackSafety

/-!
# What is packed is unpacked

Both directions compute where a field lies from the combination of the fields that are there, and
the header word carries the combination.  So every field is read from the word that it was written
to (`packWords_holds`, `infoOf_recovers`).

Some fields a header does not carry.  The class ID is not implemented: its words are zero.  The CHDR
header says that there is a stream ID always, and has a bit for the fractional time, for the
end of a burst and for packets of context, and none for anything else.  What comes back is the
info without these (`carried`).
-/

namespace UhdHost
namespace Transport
namespace Vrt

open BitFields

/-! ## The header word -/

theorem flag_ne_zero (b : Bool) : ((if b then 1 else 0 : BitVec 32) &&& lowMask 32 1 != 0) = b := by
  cases b <;> decide

theorem vrtHdrWord_eq (info : IfPacketInfo) :
    vrtHdrWord info = field (info.packetType.setWidth 32) 29 3 ||| (Pred.ofInfo info).flags |||
      field (BitVec.ofNat 32 info.packetCount) 16 4 |||
        field (BitVec.ofNat 32 info.numPacketWords32) 0 16 := by
  have htype : (info.packetType.setWidth 32).toNat < 2 ^ 3 := by
    rw [toNat_setWidth_of_le _ (by decide)]
    exact info.packetType.isLt
  rw [vrtHdrWord, field_of_lt 29 (by decide) htype]

theorem ofHeader_vrtHdrWord (info : IfPacketInfo) :
    Pred.ofHeader (vrtHdrWord info) = Pred.ofInfo info := by
  have htsi : ((if info.hasTsi then 3 else 0 : BitVec 32) &&& lowMask 32 2 != 0) = info.hasTsi := by
    cases info.hasTsi <;> decide
  have htsf : ((if info.hasTsf then 1 else 0 : BitVec 32) &&& lowMask 32 2 != 0) = info.hasTsf := by
    cases info.hasTsf <;> decide
  rw [vrtHdrWord_eq, Pred.ofHeader, Pred.flags]
  simp (disch := decide) only [getField_or, getField_field, getField_field_of_disjoint,
    BitVec.or_zero, BitVec.zero_or]
  rw [Pred.ofInfo, Pred.mk.injEq]
  exact ⟨flag_ne_zero _, flag_ne_zero _, htsi, htsf, flag_ne_zero _, flag_ne_zero _,
    flag_ne_zero _⟩

theorem getField_vrtHdrWord (info : IfPacketInfo) :
    (getField (vrtHdrWord info) 29 3).setWidth 3 = info.packetType ∧
      (getField (vrtHdrWord info) 16 4).toNat = info.packetCount % 2 ^ 4 ∧
      packetWords32 (vrtHdrWord info) = info.numPacketWords32 % 2 ^ 16 := by
  have htype : (info.packetType.setWidth 32).toNat < 2 ^ 3 := by
    rw [toNat_setWidth_of_le _ (by decide)]
    exact info.packetType.isLt
  rw [vrtHdrWord_eq, packetWords32, Pred.flags]
  simp (disch := decide) only [getField_or, getField_field, getField_field_of_disjoint,
    BitVec.or_zero, BitVec.zero_or]
  refine ⟨?_, ?_, ?_⟩
  · rw [and_lowMask_of_lt (by decide) htype, setWidth_setWidth_of_le _ (by decide)]
  · rw [toNat_and_lowMask _ (by decide), BitVec.toNat_ofNat]
    omega
  · rw [toNat_and_lowMask _ (by decide), BitVec.toNat_ofNat]
    omega

/-! ## The words -/

/-- The words of an info, where its combination of fields puts them. -/
structure HoldsFields (conv : BitVec 32 → BitVec 32) (words : Words) (base : ℕ)
    (info : IfPacketInfo) : Prop where
  sid : info.hasSid = true → words (base + 1) = conv info.sid
  tsi : info.hasTsi = true → words (base + (Pred.ofInfo info).tsiAt) = conv info.tsi
  tsfHigh : info.hasTsf = true →
    words (base + (Pred.ofInfo info).tsfAt) = conv ((info.tsf >>> 32).setWidth 32)
  tsfLow : info.hasTsf = true →
    words (base + (Pred.ofInfo info).tsfAt + 1) = conv (info.tsf.setWidth 32)
  tlr : info.hasTlr = true →
    words (base + ((Pred.ofInfo info).headerWords + info.numPayloadWords32)) =
      conv (trailerOf info)

theorem put_self (words : Words) {present : Bool} (h : present = true) (i : ℕ) (x : BitVec 32) :
    put words present i x i = x := by
  rw [put, if_pos h, Function.update_self]

theorem put_of_ne (words : Words) {present : Bool} {i j : ℕ} (x : BitVec 32)
    (h : present = true → j ≠ i) : put words present i x j = words j := by
  cases present with
  | false => rfl
  | true => exact Function.update_of_ne (h rfl) x words

theorem packWords_holds (conv : BitVec 32 → BitVec 32) (buff : Words) (base : ℕ)
    (info : IfPacketInfo) : HoldsFields conv (packWords conv buff base info) base info := by
  have hplaces : (Pred.ofInfo info).cidAt = 1 + info.hasSid.toNat ∧
      (Pred.ofInfo info).tsiAt = 1 + info.hasSid.toNat + 2 * info.hasCid.toNat ∧
      (Pred.ofInfo info).tsfAt = 1 + info.hasSid.toNat + 2 * info.hasCid.toNat +
        info.hasTsi.toNat ∧
      (Pred.ofInfo info).headerWords = 1 + info.hasSid.toNat + 2 * info.hasCid.toNat +
        info.hasTsi.toNat + 2 * info.hasTsf.toNat := ⟨rfl, rfl, rfl, rfl⟩
  obtain ⟨hcidAt, htsiAt, htsfAt, hheaderWords⟩ := hplaces
  -- a word that is written later lies elsewhere
  have hone : ∀ {b : Bool}, b = true → b.toNat = 1 := fun h => h ▸ rfl
  refine ⟨fun (hsid : (Pred.ofInfo info).sid = true) => ?_,
    fun (htsi : (Pred.ofInfo info).tsi = true) => ?_,
    fun (htsf : (Pred.ofInfo info).tsf = true) => ?_,
    fun (htsf : (Pred.ofInfo info).tsf = true) => ?_,
    fun (htlr : (Pred.ofInfo info).tlr = true) => ?_⟩
  · have hnat : info.hasSid.toNat = 1 := hone hsid
    rw [packWords]
    rw [put_of_ne, put_of_ne, put_of_ne, put_of_ne, put_of_ne, put_of_ne, put_self _ hsid]
    all_goals intro; omega
  · have hnat : info.hasTsi.toNat = 1 := hone htsi
    rw [packWords]
    rw [put_of_ne, put_of_ne, put_of_ne, put_self _ htsi]
    all_goals intro; omega
  · have hnat : info.hasTsf.toNat = 1 := hone htsf
    rw [packWords]
    rw [put_of_ne, put_of_ne, put_self _ htsf]
    all_goals intro; omega
  · have hnat : info.hasTsf.toNat = 1 := hone htsf
    rw [packWords]
    rw [put_of_ne, put_self _ htsf]
    intro
    omega
  · exact put_self _ htlr _ _

theorem HoldsFields.congr {conv : BitVec 32 → BitVec 32} {words words' : Words} {base : ℕ}
    {info : IfPacketInfo} (h : HoldsFields conv words base info)
    (hheader : ∀ i, 1 ≤ i → i < (Pred.ofInfo info).headerWords →
      words' (base + i) = words (base + i))
    (htrailer : info.hasTlr = true →
      words' (base + ((Pred.ofInfo info).headerWords + info.numPayloadWords32)) =
        words (base + ((Pred.ofInfo info).headerWords + info.numPayloadWords32))) :
    HoldsFields conv words' base info := by
  have hplaces : (Pred.ofInfo info).tsiAt = 1 + info.hasSid.toNat + 2 * info.hasCid.toNat ∧
      (Pred.ofInfo info).tsfAt = (Pred.ofInfo info).tsiAt + info.hasTsi.toNat ∧
      (Pred.ofInfo info).headerWords = (Pred.ofInfo info).tsfAt + 2 * info.hasTsf.toNat :=
    ⟨rfl, rfl, rfl⟩
  obtain ⟨htsiAt, htsfAt, hheaderWords⟩ := hplaces
  have hone : ∀ {b : Bool}, b = true → b.toNat = 1 := fun h => h ▸ rfl
  refine ⟨fun hsid => ?_, fun htsi => ?_, fun htsf => ?_, fun htsf => ?_, fun htlr => ?_⟩
  · have hnat := hone hsid
    rw [hheader 1 (by omega) (by omega), h.sid hsid]
  · have hnat := hone htsi
    rw [hheader _ (by omega) (by omega), h.tsi htsi]
  · have hnat := hone htsf
    rw [hheader _ (by omega) (by omega), h.tsfHigh htsf]
  · have hnat := hone htsf
    rw [Nat.add_assoc, hheader _ (by omega) (by omega), ← Nat.add_assoc, h.tsfLow htsf]
  · rw [htrailer htlr, h.tlr htlr]

/-! ## What is unpacked -/

/-- An info is recovered: the fields that it says are there, its flags, and its sizes. -/
structure Recovers (info out : IfPacketInfo) : Prop where
  packetType : out.packetType = info.packetType
  packetCount : out.packetCount = info.packetCount
  sob : out.sob = info.sob
  eob : out.eob = info.eob
  hasSid : out.hasSid = info.hasSid
  sid : info.hasSid = true → out.sid = info.sid
  hasCid : out.hasCid = info.hasCid
  cid : info.hasCid = true → out.cid = info.cid
  hasTsi : out.hasTsi = info.hasTsi
  tsi : info.hasTsi = true → out.tsi = info.tsi
  hasTsf : out.hasTsf = info.hasTsf
  tsf : info.hasTsf = true → out.tsf = info.tsf
  hasTlr : out.hasTlr = info.hasTlr
  tlr : info.hasTlr = true → out.tlr = info.tlr
  numHeaderWords32 : out.numHeaderWords32 = info.numHeaderWords32
  numPayloadWords32 : out.numPayloadWords32 = info.numPayloadWords32
  numPayloadBytes : out.numPayloadBytes = info.numPayloadBytes

/-- A header word that describes an info. -/
structure Describes (hdr : BitVec 32) (info : IfPacketInfo) : Prop where
  pred : Pred.ofHeader hdr = Pred.ofInfo info
  packetWords32 : Vrt.packetWords32 hdr = (Pred.ofInfo info).headerWords +
    (Pred.ofInfo info).trailerWords + info.numPayloadWords32
  packetType : (getField hdr 29 3).setWidth 3 = info.packetType
  packetCount : (getField hdr 16 4).toNat = info.packetCount
  numHeaderWords32 : info.numHeaderWords32 = (Pred.ofInfo info).headerWords
  cid : info.hasCid = true → info.cid = 0
  tlr : info.hasTlr = true → info.tlr = trailerOf info
  bytes_le : info.numPayloadBytes ≤ info.numPayloadWords32 * 4
  lt_bytes : info.numPayloadWords32 * 4 < info.numPayloadBytes + 4
  wholeWords : info.hasTlr = false → info.numPayloadBytes = info.numPayloadWords32 * 4

theorem trailerOf_spec {info : IfPacketInfo} (p : Pred) (hp : p.tlr = true)
    (hle : info.numPayloadBytes ≤ info.numPayloadWords32 * 4)
    (hlt : info.numPayloadWords32 * 4 < info.numPayloadBytes + 4)
    (hwords : info.numPayloadWords32 < 2 ^ 16) :
    emptyBytes p (trailerOf info) = info.numPayloadWords32 * 4 - info.numPayloadBytes ∧
      (indicators (trailerOf info)).getLsbD 0 = false ∧
      (indicators (trailerOf info)).getLsbD 1 = false := by
  have hsub : sizeSub (info.numPayloadWords32 * 4) info.numPayloadBytes =
      info.numPayloadWords32 * 4 - info.numPayloadBytes := sizeSub_of_le hle (by omega)
  have hempty : info.numPayloadWords32 * 4 - info.numPayloadBytes < 4 := by omega
  rw [trailerOf, hsub, emptyBytes, if_pos hp, Nat.mod_eq_of_lt hempty]
  generalize info.numPayloadWords32 * 4 - info.numPayloadBytes = empty at hempty
  interval_cases empty <;> decide

variable {conv : BitVec 32 → BitVec 32} {sent : List (BitVec 32)} {base : ℕ}
  {info out : IfPacketInfo} {hdr : BitVec 32}

theorem describes_readsInside (h : Describes hdr info)
    (hlen : base + packetWords32 hdr ≤ sent.length) : ReadsInside sent base hdr := by
  have hplaces : (Pred.ofInfo info).tsiAt = 1 + info.hasSid.toNat + 2 * info.hasCid.toNat ∧
      (Pred.ofInfo info).tsfAt = (Pred.ofInfo info).tsiAt + info.hasTsi.toNat ∧
      (Pred.ofInfo info).headerWords = (Pred.ofInfo info).tsfAt + 2 * info.hasTsf.toNat :=
    ⟨rfl, rfl, rfl⟩
  obtain ⟨htsiAt, htsfAt, hheaderWords⟩ := hplaces
  have hone : ∀ {b : Bool}, b = true → b.toNat = 1 := fun h => h ▸ rfl
  have hpacket := h.packetWords32
  refine ⟨fun hsid => ?_, fun htsi => ?_, fun htsf => ?_, fun _ => ?_⟩
  · rw [h.pred] at hsid
    have hnat : info.hasSid.toNat = 1 := hone hsid
    omega
  · rw [h.pred] at htsi ⊢
    have hnat : info.hasTsi.toNat = 1 := hone htsi
    omega
  · rw [h.pred] at htsf ⊢
    have hnat : info.hasTsf.toNat = 1 := hone htsf
    omega
  · omega

theorem infoOf_recovers (h : Describes hdr info) (hconv : ∀ x, conv (conv x) = x)
    (hholds : HoldsFields conv (fun i => sent.getD i 0) base info) (out : IfPacketInfo) :
    Recovers info (infoOf conv sent base out hdr) := by
  have hlt := toNat_getField_lt hdr 0 (by decide : 16 < 32)
  have hwords : info.numPayloadWords32 < 2 ^ 16 := by
    have hpacket := h.packetWords32
    rw [packetWords32] at hpacket
    omega
  have hheader : packetWords32 hdr - ((Pred.ofHeader hdr).headerWords +
      (Pred.ofHeader hdr).trailerWords) = info.numPayloadWords32 := by
    rw [h.packetWords32, h.pred, Nat.add_sub_cancel_left]
  have htlr : info.hasTlr = true → wordOr conv sent (Pred.ofHeader hdr).tlr
      (base + packetWords32 hdr - 1) out.tlr = trailerOf info := by
    intro htlr
    have htrailerWords : (Pred.ofInfo info).trailerWords = 1 := by
      rw [Pred.trailerWords]
      exact congrArg Bool.toNat htlr
    have hindex : base + packetWords32 hdr - 1 =
        base + ((Pred.ofInfo info).headerWords + info.numPayloadWords32) := by
      rw [h.packetWords32]
      omega
    have hread := hholds.tlr htlr
    rw [wordOr, h.pred, if_pos (show (Pred.ofInfo info).tlr = true from htlr), hindex]
    exact (congrArg conv hread).trans (hconv _)
  -- the trailer does not set a burst flag
  have hflags : ∀ i, i < 2 → ∀ b, (b || ((Pred.ofHeader hdr).tlr && (indicators (wordOr conv sent
      (Pred.ofHeader hdr).tlr (base + packetWords32 hdr - 1) out.tlr)).getLsbD i)) = b := by
    intro i hi b
    cases hpresent : info.hasTlr with
    | false =>
      have hnone : (Pred.ofHeader hdr).tlr = false := (congrArg Pred.tlr h.pred).trans hpresent
      rw [hnone, Bool.false_and, Bool.or_false]
    | true =>
      obtain ⟨-, hzero, hone⟩ := trailerOf_spec (Pred.ofInfo info) hpresent h.bytes_le h.lt_bytes
        hwords
      have hflag : (indicators (trailerOf info)).getLsbD i = false := by
        interval_cases i
        · exact hzero
        · exact hone
      rw [htlr hpresent, hflag, Bool.and_false, Bool.or_false]
  refine ⟨h.packetType, h.packetCount, ?_, ?_, congrArg Pred.sid h.pred, fun hsid => ?_,
    congrArg Pred.cid h.pred, fun hcid => ?_, congrArg Pred.tsi h.pred, fun htsi => ?_,
    congrArg Pred.tsf h.pred, fun htsf => ?_, congrArg Pred.tlr h.pred, fun hpresent => ?_,
    ?_, hheader, ?_⟩
  · exact (hflags 1 (by decide) _).trans (congrArg Pred.sob h.pred)
  · exact (hflags 0 (by decide) _).trans (congrArg Pred.eob h.pred)
  · show wordOr conv sent (Pred.ofHeader hdr).sid (base + 1) out.sid = info.sid
    rw [wordOr, h.pred, if_pos (show (Pred.ofInfo info).sid = true from hsid)]
    exact (congrArg conv (hholds.sid hsid)).trans (hconv _)
  · show (if (Pred.ofHeader hdr).cid = true then 0 else out.cid) = info.cid
    rw [h.pred, if_pos (show (Pred.ofInfo info).cid = true from hcid), h.cid hcid]
  · show wordOr conv sent (Pred.ofHeader hdr).tsi (base + (Pred.ofHeader hdr).tsiAt) out.tsi = _
    rw [wordOr, h.pred, if_pos (show (Pred.ofInfo info).tsi = true from htsi)]
    exact (congrArg conv (hholds.tsi htsi)).trans (hconv _)
  · show tsfOr conv sent (Pred.ofHeader hdr).tsf (base + (Pred.ofHeader hdr).tsfAt) out.tsf = _
    have hhigh : conv (sent.getD (base + (Pred.ofInfo info).tsfAt) 0) =
        (info.tsf >>> 32).setWidth 32 := (congrArg conv (hholds.tsfHigh htsf)).trans (hconv _)
    have hlow : conv (sent.getD (base + (Pred.ofInfo info).tsfAt + 1) 0) =
        info.tsf.setWidth 32 := (congrArg conv (hholds.tsfLow htsf)).trans (hconv _)
    rw [tsfOr, h.pred, if_pos (show (Pred.ofInfo info).tsf = true from htsf), hhigh, hlow]
    exact shiftLeft_high_or_low (m := 32) info.tsf
  · exact (htlr hpresent).trans (h.tlr hpresent).symm
  · show (Pred.ofHeader hdr).headerWords = info.numHeaderWords32
    rw [h.pred, h.numHeaderWords32]
  · show sizeSub (_ * 4) (emptyBytes _ _) = info.numPayloadBytes
    rw [hheader]
    have hle := h.bytes_le
    cases hpresent : info.hasTlr with
    | false =>
      have hnone : (Pred.ofHeader hdr).tlr = false := (congrArg Pred.tlr h.pred).trans hpresent
      rw [emptyBytes, hnone, if_neg (by decide), h.wholeWords hpresent,
        sizeSub_of_le (Nat.zero_le _) (by omega)]
      rfl
    | true =>
      have hsome : (Pred.ofHeader hdr).tlr = true := (congrArg Pred.tlr h.pred).trans hpresent
      have hempty := (trailerOf_spec (Pred.ofHeader hdr) hsome h.bytes_le h.lt_bytes hwords).1
      rw [htlr hpresent, hempty, sizeSub_of_le (Nat.sub_le _ _) (by omega)]
      omega

theorem unpackCore_recovers (h : Describes hdr info) (hconv : ∀ x, conv (conv x) = x)
    (out : IfPacketInfo)
    (hholds : HoldsFields conv (fun i => sent.getD i 0) base info)
    (hlen : base + packetWords32 hdr ≤ sent.length)
    (hout : packetWords32 hdr ≤ out.numPacketWords32) :
    ∃ result, unpackCore conv sent base out hdr = .ok result ∧ Recovers info result := by
  refine ⟨infoOf conv sent base out hdr, ?_, infoOf_recovers h hconv hholds out⟩
  have hpacket := h.packetWords32
  rw [unpackCore_eq, if_neg (Nat.not_lt.mpr hout), if_neg (not_not.mpr (describes_readsInside h hlen)),
    h.pred, if_neg (by omega)]

/-! ## The CHDR header -/

theorem getField_and_lowMask (x : BitVec 32) (offset : ℕ) {width : ℕ} (hwidth : width < 32) :
    getField x offset width &&& lowMask 32 width = getField x offset width :=
  and_lowMask_of_lt hwidth (toNat_getField_lt x offset hwidth)

theorem getField_vrtToChdr (hdr : BitVec 32) (info : IfPacketInfo) {words rem : ℕ}
    (hwords : packetWords32 hdr = words) (hrem : bytesRem info.numPayloadBytes = rem)
    (hle : rem ≤ words * 4) (hlength : words * 4 - rem < 2 ^ 16) :
    (getField (vrtToChdr hdr info) 0 16).toNat = words * 4 - rem ∧
      (getField (vrtToChdr hdr info) 16 12).toNat = info.packetCount % 2 ^ 12 ∧
      getField (vrtToChdr hdr info) 31 1 = getField hdr 30 1 ∧
      getField (vrtToChdr hdr info) 29 1 = getField hdr 20 1 ∧
      getField (vrtToChdr hdr info) 28 1 = getField hdr 24 1 := by
  have hthree : rem ≤ 3 := by
    rw [← hrem, bytesRem]
    split_ifs
    · omega
    · exact Nat.zero_le 3
  have hlow : (BitVec.ofNat 32 (words * 4) - BitVec.ofNat 32 rem).toNat = words * 4 - rem := by
    rw [BitVec.toNat_sub, BitVec.toNat_ofNat, BitVec.toNat_ofNat]
    omega
  have hfield : BitVec.ofNat 32 (words * 4) - BitVec.ofNat 32 rem =
      field (BitVec.ofNat 32 (words * 4) - BitVec.ofNat 32 rem) 0 16 := by
    rw [field_of_lt 0 (by decide) (hlow ▸ hlength), BitVec.shiftLeft_zero]
  rw [packetWords32] at hwords
  rw [vrtToChdr, hwords, hrem, hfield]
  simp (disch := decide) only [getField_or, getField_field, getField_field_of_disjoint,
    BitVec.or_zero, BitVec.zero_or, getField_and_lowMask]
  refine ⟨?_, ?_, trivial, trivial, trivial⟩
  · rw [toNat_and_lowMask _ (by decide), hlow, Nat.mod_eq_of_lt hlength]
  · rw [toNat_and_lowMask _ (by decide), BitVec.toNat_ofNat]
    omega

theorem getField_vrtHdrWord_bits (info : IfPacketInfo) :
    (field (getField (vrtHdrWord info) 20 1) 0 1 != 0) = info.hasTsf ∧
      (getField (vrtHdrWord info) 24 1 != 0) = info.eob ∧
      (field (getField (vrtHdrWord info) 30 1) 1 1).setWidth 3 = info.packetType &&& 2 := by
  have htsf : getField (getField (vrtHdrWord info) 20 2) 0 1 = getField (vrtHdrWord info) 20 1 :=
    getField_getField _ rfl (by decide) (by decide) (by decide)
  have htype : getField (getField (vrtHdrWord info) 29 3) 1 1 = getField (vrtHdrWord info) 30 1 :=
    getField_getField _ rfl (by decide) (by decide) (by decide)
  refine ⟨?_, congrArg Pred.eob (ofHeader_vrtHdrWord info), ?_⟩
  · rw [← htsf, vrtHdrWord_eq, Pred.flags]
    simp (disch := decide) only [getField_or, getField_field, getField_field_of_disjoint,
      BitVec.or_zero, BitVec.zero_or]
    cases htsfs : (Pred.ofInfo info).tsf with
    | false => exact Eq.trans (by decide) htsfs.symm
    | true => exact Eq.trans (by decide) htsfs.symm
  · rw [← htype, vrtHdrWord_eq, Pred.flags]
    simp (disch := decide) only [getField_or, getField_field, getField_field_of_disjoint,
      BitVec.or_zero]
    generalize info.packetType = packetType
    revert packetType
    decide

theorem getField_chdrToVrt (chdr : BitVec 32) :
    packetWords32 (chdrToVrt chdr) = ((getField chdr 0 16).toNat + 3) / 4 ∧
      getField (chdrToVrt chdr) 29 3 = field (getField chdr 31 1) 1 1 ∧
      Pred.ofHeader (chdrToVrt chdr) =
        ⟨true, false, false, field (getField chdr 29 1) 0 1 != 0, false, false,
          getField chdr 28 1 != 0⟩ := by
  have hlt := toNat_getField_lt chdr 0 (by decide : 16 < 32)
  have hlow : (BitVec.ofNat 32 (((getField chdr 0 16).toNat + 3) / 4)).toNat =
      ((getField chdr 0 16).toNat + 3) / 4 := by
    rw [BitVec.toNat_ofNat]
    omega
  have hfield : BitVec.ofNat 32 (((getField chdr 0 16).toNat + 3) / 4) =
      field (BitVec.ofNat 32 (((getField chdr 0 16).toNat + 3) / 4)) 0 16 := by
    rw [field_of_lt 0 (by decide) (by rw [hlow]; omega), BitVec.shiftLeft_zero]
  have htype : getField (field (getField chdr 31 1) 30 1) 29 3 = field (getField chdr 31 1) 1 1 :=
    getField_field_inside _ rfl (by decide) (by decide) (by decide) (by decide)
  have htsf : getField (field (getField chdr 29 1) 20 1) 20 2 = field (getField chdr 29 1) 0 1 :=
    getField_field_inside _ rfl (by decide) (by decide) (by decide) (by decide)
  rw [packetWords32, Pred.ofHeader, chdrToVrt, hfield]
  simp (disch := decide) only [getField_or, getField_field, getField_field_of_disjoint,
    BitVec.or_zero, BitVec.zero_or, getField_and_lowMask, htype, htsf]
  refine ⟨?_, trivial, ?_⟩
  · rw [toNat_and_lowMask _ (by decide), hlow, Nat.mod_eq_of_lt (by omega)]
  · rfl

/-! ## Packets -/

/-- An info whose fields are in the range of its link layer. -/
structure InRange (info : IfPacketInfo) : Prop where
  packetCount : info.packetCount < if info.linkType = .none then 2 ^ 4 else 2 ^ 12
  /-- The payload is as many words as its bytes need. -/
  bytes_le : info.numPayloadBytes ≤ info.numPayloadWords32 * 4
  lt_bytes : info.numPayloadWords32 * 4 < info.numPayloadBytes + 4
  /-- Only a trailer or a CHDR header can say that the last word is not full. -/
  wholeWords : info.linkType ≠ .chdr → info.hasTlr = false →
    info.numPayloadBytes = info.numPayloadWords32 * 4
  /-- The packet length fits into its field. -/
  length : info.linkType ≠ .chdr → (Pred.ofInfo info).headerWords +
    (Pred.ofInfo info).trailerWords + info.numPayloadWords32 < 2 ^ 16
  chdrLength : info.linkType = .chdr → ((Pred.ofInfo info).headerWords +
    (Pred.ofInfo info).trailerWords) * 4 + info.numPayloadBytes < 2 ^ 16

/-- The fields that a packet of CHDR has. -/
def HasChdrFields (info : IfPacketInfo) : Prop :=
  info.hasSid = true ∧ info.hasCid = false ∧ info.hasTsi = false ∧ info.hasTlr = false

/-- The info as its link layer carries it: without the class ID, and of the type and the flags
what CHDR has bits for. -/
def carried (info : IfPacketInfo) : IfPacketInfo :=
  match info.linkType with
  | .chdr => { info with cid := 0, packetType := info.packetType &&& 2, sob := false }
  | _ => { info with cid := 0 }

theorem carried_of_ne (info : IfPacketInfo) (h : info.linkType ≠ .chdr) :
    carried info = { info with cid := 0 } := by
  rw [carried]
  split
  · exact absurd ‹info.linkType = .chdr› h
  · rfl

/-- A buffer that holds a packet, with any payload, and what is known before it is unpacked. -/
structure Received (words : Words) (packed : IfPacketInfo) (sent : List (BitVec 32))
    (out : IfPacketInfo) : Prop where
  length : sent.length = packed.numPacketWords32
  getD : ∀ i, i < packed.numPacketWords32 →
    (i < packed.numHeaderWords32 ∨ packed.numHeaderWords32 + packed.numPayloadWords32 ≤ i) →
      sent.getD i 0 = words i
  linkType : out.linkType = packed.linkType
  numPacketWords32 : out.numPacketWords32 = packed.numPacketWords32

theorem headerWords_pos (p : Pred) : 0 < p.headerWords := by
  rw [Pred.headerWords, Pred.tsfAt, Pred.tsiAt, Pred.cidAt]
  omega

theorem trailerWords_of_tlr {info : IfPacketInfo} (h : info.hasTlr = true) :
    (Pred.ofInfo info).trailerWords = 1 := by
  rw [Pred.trailerWords]
  exact congrArg Bool.toNat h

theorem describes_packed (hp : InRange info) (hne : info.linkType ≠ .chdr) :
    Describes (vrtHdrWord (packedInfo info))
      { packedInfo info with cid := 0, packetCount := info.packetCount % 2 ^ 4 } := by
  obtain ⟨htype, hcount, hwords⟩ := getField_vrtHdrWord (packedInfo info)
  exact
    { pred := ofHeader_vrtHdrWord (packedInfo info)
      packetWords32 := hwords.trans (Nat.mod_eq_of_lt (hp.length hne))
      packetType := htype
      packetCount := hcount
      numHeaderWords32 := rfl
      cid := fun _ => rfl
      tlr := fun htlr => if_pos htlr
      bytes_le := hp.bytes_le
      lt_bytes := hp.lt_bytes
      wholeWords := hp.wholeWords hne }

theorem Received.holdsFields {words : Words} {packed : IfPacketInfo} (buff : Words)
    (h : Received words packed sent out)
    (hheader : packed.numHeaderWords32 = base + (Pred.ofInfo info).headerWords)
    (hpayload : packed.numPayloadWords32 = info.numPayloadWords32)
    (hlength : base + ((Pred.ofInfo info).headerWords + (Pred.ofInfo info).trailerWords +
      info.numPayloadWords32) ≤ packed.numPacketWords32)
    (hwords : ∀ i, 1 ≤ i → i < (Pred.ofInfo info).headerWords +
      (Pred.ofInfo info).trailerWords + info.numPayloadWords32 →
        words (base + i) = packWords conv buff base info (base + i)) :
    HoldsFields conv (fun i => sent.getD i 0) base info := by
  have hpos := headerWords_pos (Pred.ofInfo info)
  refine (packWords_holds conv buff base info).congr (fun i hi hlt => ?_) fun htlr => ?_
  · rw [← hwords i hi (by omega)]
    exact h.getD _ (by omega) (Or.inl (by omega))
  · have hone := trailerWords_of_tlr htlr
    rw [← hwords _ (by omega) (by omega)]
    exact h.getD _ (by omega) (Or.inr (by omega))

theorem unpack_pack_none (hp : InRange info) (hlink : info.linkType = .none)
    (hconv : ∀ x, conv (conv x) = x) (buff : Words)
    (h : Received (ifHdrPack conv buff info).1 (ifHdrPack conv buff info).2 sent out) :
    ∃ result, ifHdrUnpack conv sent out = .ok result ∧
      Recovers (carried (ifHdrPack conv buff info).2) result := by
  have hpack : ifHdrPack conv buff info =
      (Function.update (packWords conv buff 0 info) 0 (conv (vrtHdrWord (packedInfo info))),
        packedInfo info) := by
    rw [ifHdrPack, hlink]
  have hne : info.linkType ≠ .chdr := by rw [hlink]; decide
  rw [hpack] at h ⊢
  replace h : Received (Function.update (packWords conv buff 0 info) 0
    (conv (vrtHdrWord (packedInfo info)))) (packedInfo info) sent out := h
  rw [carried_of_ne (packedInfo info) hne]
  have hlength := hp.length hne
  have hpos := headerWords_pos (Pred.ofInfo info)
  have hdescribes := describes_packed hp hne
  have hwords : packetWords32 (vrtHdrWord (packedInfo info)) = (packedInfo info).numPacketWords32 :=
    hdescribes.packetWords32
  have hcount := hp.packetCount
  rw [if_pos hlink] at hcount
  have hsentLength : sent.length = (Pred.ofInfo info).headerWords +
      (Pred.ofInfo info).trailerWords + info.numPayloadWords32 := h.length
  have hfields : HoldsFields conv (fun i => sent.getD i 0) 0 info :=
    h.holdsFields buff (Nat.zero_add _).symm rfl (Nat.le_of_eq (Nat.zero_add _))
      fun i hi _ => Function.update_of_ne (by omega) _ _
  obtain ⟨result, hresult, hrecovers⟩ := unpackCore_recovers hdescribes hconv out
    ⟨hfields.1, hfields.2, hfields.3, hfields.4, hfields.5⟩
    (by rw [Nat.zero_add, hwords, h.length])
    (by rw [hwords, h.numPacketWords32])
  refine ⟨result, ?_, { hrecovers with
    packetCount := hrecovers.packetCount.trans (Nat.mod_eq_of_lt hcount) }⟩
  have hfirst : readWord conv sent 0 = .ok (vrtHdrWord (packedInfo info)) := by
    have hword : sent.getD 0 0 = conv (vrtHdrWord (packedInfo info)) :=
      (h.getD 0 (by rw [← h.length]; omega) (Or.inl hpos)).trans (Function.update_self _ _ _)
    rw [readWord_of_lt conv (by omega), hword, hconv]
  rw [ifHdrUnpack, show out.linkType = .none from h.linkType.trans hlink, hfirst]
  exact hresult

theorem vrlpWords_apply (conv : BitVec 32 → BitVec 32) (words : Words) (packed : IfPacketInfo)
    (hdr : BitVec 32) (hfour : 4 ≤ packed.numPacketWords32) :
    vrlpWords conv words packed hdr 0 = conv vrlpWord ∧
      vrlpWords conv words packed hdr 1 = conv (vrlHdrWord packed) ∧
      vrlpWords conv words packed hdr 2 = conv hdr ∧
      vrlpWords conv words packed hdr (packed.numPacketWords32 - 1) = conv vendWord ∧
      ∀ i, 3 ≤ i → i < packed.numPacketWords32 - 1 →
        vrlpWords conv words packed hdr i = words i := by
  rw [vrlpWords]
  refine ⟨?_, ?_, ?_, Function.update_self _ _ _, fun i hi hlt => ?_⟩
  · rw [Function.update_of_ne (by omega), Function.update_of_ne (by omega),
      Function.update_of_ne (by omega), Function.update_self]
  · rw [Function.update_of_ne (by omega), Function.update_of_ne (by omega), Function.update_self]
  · rw [Function.update_of_ne (by omega), Function.update_self]
  · rw [Function.update_of_ne (by omega), Function.update_of_ne (by omega),
      Function.update_of_ne (by omega), Function.update_of_ne (by omega)]

theorem getField_vrlHdrWord (packed : IfPacketInfo) (hwords : packed.numPacketWords32 < 2 ^ 20)
    (hcount : packed.packetCount < 2 ^ 12) :
    (getField (vrlHdrWord packed) 0 20).toNat = packed.numPacketWords32 ∧
      (getField (vrlHdrWord packed) 20 12).toNat = packed.packetCount := by
  rw [vrlHdrWord]
  simp (disch := decide) only [getField_or, getField_field, getField_field_of_disjoint,
    BitVec.or_zero, BitVec.zero_or]
  rw [toNat_and_lowMask _ (by decide), toNat_and_lowMask _ (by decide), BitVec.toNat_ofNat,
    BitVec.toNat_ofNat]
  omega

theorem ok_bind {α β : Type} (x : α) (f : α → Except VrtFault β) :
    (Except.ok x >>= f) = f x := rfl

theorem ifHdrUnpack_vrlp {vrlHdr hdr : BitVec 32} {n : ℕ} {result : IfPacketInfo}
    (hlink : out.linkType = .vrlp) (hvrlp : readWord conv sent 0 = .ok vrlpWord)
    (hvrlHdr : readWord conv sent 1 = .ok vrlHdr) (hhdr : readWord conv sent 2 = .ok hdr)
    (hlength : (getField vrlHdr 0 20).toNat = n) (hpos : 0 < n) (hn : n ≤ out.numPacketWords32)
    (hvend : readWord conv sent (n - 1) = .ok vendWord)
    (hresult : unpackCore conv sent 2 out hdr = .ok result) :
    ifHdrUnpack conv sent out = .ok { result with
      numHeaderWords32 := result.numHeaderWords32 + 2
      packetCount := (getField vrlHdr 20 12).toNat } := by
  have hlt := toNat_getField_lt vrlHdr 0 (by decide : 20 < 32)
  have hindex : (n + (2 ^ 32 - 1)) % 2 ^ 32 = n - 1 := by omega
  rw [ifHdrUnpack, hlink]
  dsimp only
  rw [hvrlp, ok_bind, if_neg (not_not.mpr rfl), hvrlHdr, ok_bind, hhdr, ok_bind, hlength,
    if_neg (Nat.not_lt.mpr hn), hindex, hvend, ok_bind, if_neg (not_not.mpr rfl), hresult, ok_bind]
  rfl

theorem unpack_pack_vrlp (hp : InRange info) (hlink : info.linkType = .vrlp)
    (hconv : ∀ x, conv (conv x) = x) (buff : Words)
    (h : Received (ifHdrPack conv buff info).1 (ifHdrPack conv buff info).2 sent out) :
    ∃ result, ifHdrUnpack conv sent out = .ok result ∧
      Recovers (carried (ifHdrPack conv buff info).2) result := by
  have hpack : ifHdrPack conv buff info =
      (vrlpWords conv (packWords conv buff 2 info) (vrlpInfo (packedInfo info))
        (vrtHdrWord (packedInfo info)), vrlpInfo (packedInfo info)) := by
    rw [ifHdrPack, hlink]
  have hne : info.linkType ≠ .chdr := by rw [hlink]; decide
  rw [hpack] at h ⊢
  replace h : Received (vrlpWords conv (packWords conv buff 2 info) (vrlpInfo (packedInfo info))
    (vrtHdrWord (packedInfo info))) (vrlpInfo (packedInfo info)) sent out := h
  rw [carried_of_ne (vrlpInfo (packedInfo info)) hne]
  have hpacket : (vrlpInfo (packedInfo info)).numPacketWords32 = (Pred.ofInfo info).headerWords +
      (Pred.ofInfo info).trailerWords + info.numPayloadWords32 + 3 := rfl
  have hheader : (vrlpInfo (packedInfo info)).numHeaderWords32 =
      (Pred.ofInfo info).headerWords + 2 := rfl
  have hpayload : (vrlpInfo (packedInfo info)).numPayloadWords32 = info.numPayloadWords32 := rfl
  have hcount := hp.packetCount
  rw [if_neg (by rw [hlink]; decide)] at hcount
  have hlength := hp.length hne
  have hpos := headerWords_pos (Pred.ofInfo info)
  have hdescribes := describes_packed hp hne
  have hwords : packetWords32 (vrtHdrWord (packedInfo info)) = (Pred.ofInfo info).headerWords +
      (Pred.ofInfo info).trailerWords + info.numPayloadWords32 := hdescribes.packetWords32
  obtain ⟨hvrlp, hvrlHdr, hhdr, hvend, hbetween⟩ := vrlpWords_apply conv (packWords conv buff 2 info)
    (vrlpInfo (packedInfo info)) (vrtHdrWord (packedInfo info)) (by omega)
  have hfields : HoldsFields conv (fun i => sent.getD i 0) 2 info :=
    h.holdsFields buff (by omega) hpayload (by omega) fun i hi hlt =>
      hbetween _ (by omega) (by omega)
  obtain ⟨result, hresult, hrecovers⟩ := unpackCore_recovers hdescribes hconv out
    ⟨hfields.1, hfields.2, hfields.3, hfields.4, hfields.5⟩
    (by rw [hwords, h.length]; omega) (by rw [hwords, h.numPacketWords32]; omega)
  -- the words of the link layer
  have hread : ∀ i x, i < (vrlpInfo (packedInfo info)).numPacketWords32 →
      (i < (vrlpInfo (packedInfo info)).numHeaderWords32 ∨
        (vrlpInfo (packedInfo info)).numHeaderWords32 +
          (vrlpInfo (packedInfo info)).numPayloadWords32 ≤ i) →
      vrlpWords conv (packWords conv buff 2 info) (vrlpInfo (packedInfo info))
        (vrtHdrWord (packedInfo info)) i = conv x → readWord conv sent i = .ok x := by
    intro i x hi hout hx
    rw [readWord_of_lt conv (h.length ▸ hi), h.getD i hi hout, hx, hconv]
  obtain ⟨hlengthField, hcountField⟩ := getField_vrlHdrWord (vrlpInfo (packedInfo info))
    (by omega) hcount
  refine ⟨_, ifHdrUnpack_vrlp (h.linkType.trans hlink)
    (hread 0 _ (by omega) (Or.inl (by omega)) hvrlp)
    (hread 1 _ (by omega) (Or.inl (by omega)) hvrlHdr)
    (hread 2 _ (by omega) (Or.inl (by omega)) hhdr) hlengthField (by omega)
    (Nat.le_of_eq h.numPacketWords32.symm)
    (hread _ _ (by omega) (Or.inr (by omega)) hvend) hresult, ?_⟩
  exact { hrecovers with
    packetCount := hcountField
    numHeaderWords32 := congrArg (· + 2) hrecovers.numHeaderWords32 }

theorem toNat_getField_neg (chdr : BitVec 32) :
    (getField (~~~chdr + 1) 0 2).toNat = (4 - (getField chdr 0 16).toNat % 4) % 4 := by
  have hneg : ~~~chdr + 1 = -chdr := (BitVec.neg_eq_not_add chdr).symm
  rw [hneg, getField, getField, BitVec.ushiftRight_zero, BitVec.ushiftRight_zero,
    toNat_and_lowMask _ (by decide), toNat_and_lowMask _ (by decide), BitVec.toNat_neg]
  omega

theorem unpack_pack_chdr (hp : InRange info) (hlink : info.linkType = .chdr)
    (hchdr : HasChdrFields info) (hconv : ∀ x, conv (conv x) = x) (buff : Words)
    (h : Received (ifHdrPack conv buff info).1 (ifHdrPack conv buff info).2 sent out) :
    ∃ result, ifHdrUnpack conv sent out = .ok result ∧
      Recovers (carried (ifHdrPack conv buff info).2) result := by
  obtain ⟨hsid, hcid, htsi, htlr⟩ := hchdr
  obtain ⟨chdr, hchdrWord⟩ : ∃ chdr, chdr = vrtToChdr (vrtHdrWord (packedInfo info))
    (packedInfo info) := ⟨_, rfl⟩
  have hpack : ifHdrPack conv buff info =
      (Function.update (packWords conv buff 0 info) 0 (conv chdr), packedInfo info) := by
    rw [ifHdrPack, hlink, hchdrWord]
  rw [hpack] at h ⊢
  replace h : Received (Function.update (packWords conv buff 0 info) 0 (conv chdr))
    (packedInfo info) sent out := h
  have hcarried : carried (packedInfo info) = { packedInfo info with
      cid := 0, packetType := info.packetType &&& 2, sob := false } := by
    rw [carried]
    split
    · rfl
    · exact absurd hlink ‹_›
  rw [hcarried]
  have hcount := hp.packetCount
  rw [if_neg (by rw [hlink]; decide)] at hcount
  have hle := hp.bytes_le
  have hlt := hp.lt_bytes
  have hlength := hp.chdrLength hlink
  have hpos := headerWords_pos (Pred.ofInfo info)
  have hpacket : (packedInfo info).numPacketWords32 = (Pred.ofInfo info).headerWords +
      (Pred.ofInfo info).trailerWords + info.numPayloadWords32 := rfl
  -- the lengths of the two headers
  have hrem : bytesRem info.numPayloadBytes = info.numPayloadWords32 * 4 - info.numPayloadBytes := by
    rw [bytesRem]
    split_ifs
    · omega
    · omega
  have hwords : packetWords32 (vrtHdrWord (packedInfo info)) = (Pred.ofInfo info).headerWords +
      (Pred.ofInfo info).trailerWords + info.numPayloadWords32 := by
    rw [(getField_vrtHdrWord (packedInfo info)).2.2, hpacket, Nat.mod_eq_of_lt (by omega)]
  obtain ⟨hlow, hcountField, htypeBit, htsfBit, heobBit⟩ := getField_vrtToChdr
    (vrtHdrWord (packedInfo info)) (packedInfo info) hwords hrem (by omega) (by omega)
  obtain ⟨htsf, heob, htype⟩ := getField_vrtHdrWord_bits (packedInfo info)
  obtain ⟨hwordsChdr, htypeChdr, hpredChdr⟩ := getField_chdrToVrt chdr
  rw [← hchdrWord] at hlow hcountField htypeBit htsfBit heobBit
  rw [htsfBit, heobBit, htsf, heob] at hpredChdr
  rw [htypeBit] at htypeChdr
  rw [hlow] at hwordsChdr
  have hwordsVrt : packetWords32 (chdrToVrt chdr) = (Pred.ofInfo info).headerWords +
      (Pred.ofInfo info).trailerWords + info.numPayloadWords32 := by omega
  -- the header word says that every word is full, and a smaller packet count
  have hdescribes : Describes (chdrToVrt chdr) { packedInfo info with
      cid := 0, packetType := info.packetType &&& 2, sob := false
      packetCount := (getField (chdrToVrt chdr) 16 4).toNat
      numPayloadBytes := info.numPayloadWords32 * 4 } :=
    { pred := by
        rw [hpredChdr, Pred.ofInfo, Pred.mk.injEq]
        exact ⟨hsid.symm, hcid.symm, htsi.symm, rfl, htlr.symm, rfl, rfl⟩
      packetWords32 := hwordsVrt
      packetType := (congrArg (BitVec.setWidth 3) htypeChdr).trans htype
      packetCount := rfl
      numHeaderWords32 := rfl
      cid := fun _ => rfl
      tlr := fun h => absurd (htlr.symm.trans h) (by decide)
      bytes_le := Nat.le_refl _
      lt_bytes := Nat.lt_add_of_pos_right (by decide)
      wholeWords := fun _ => rfl }
  have hfields : HoldsFields conv (fun i => sent.getD i 0) 0 info :=
    h.holdsFields buff (Nat.zero_add _).symm rfl (Nat.le_of_eq (Nat.zero_add _))
      fun i hi _ => Function.update_of_ne (by omega) _ _
  obtain ⟨result, hresult, hrecovers⟩ := unpackCore_recovers hdescribes hconv out
    ⟨hfields.1, hfields.2, hfields.3, hfields.4, fun h => absurd (htlr.symm.trans h) (by decide)⟩
    (by rw [Nat.zero_add, hwordsVrt, h.length, hpacket])
    (by rw [hwordsVrt, h.numPacketWords32, hpacket])
  have hfirst : readWord conv sent 0 = .ok chdr := by
    have hword : sent.getD 0 0 = conv chdr :=
      (h.getD 0 (by rw [hpacket]; omega) (Or.inl hpos)).trans (Function.update_self _ _ _)
    rw [readWord_of_lt conv (by rw [h.length, hpacket]; omega), hword, hconv]
  -- the bytes that the length of the CHDR header takes off
  have hempty : (getField (~~~chdr + 1) 0 2).toNat =
      info.numPayloadWords32 * 4 - info.numPayloadBytes := by
    rw [toNat_getField_neg, hlow]
    omega
  have hfull : result.numPayloadBytes = info.numPayloadWords32 * 4 := hrecovers.numPayloadBytes
  refine ⟨{ result with
    numPayloadBytes := sizeSub result.numPayloadBytes (getField (~~~chdr + 1) 0 2).toNat
    packetCount := chdrPacketCount chdr }, ?_, ?_⟩
  · rw [ifHdrUnpack, show out.linkType = .chdr from h.linkType.trans hlink]
    dsimp only
    rw [hfirst, ok_bind, hresult, ok_bind]
    rfl
  · exact { hrecovers with
      packetCount := hcountField.trans (Nat.mod_eq_of_lt hcount)
      numPayloadBytes := by
        show sizeSub result.numPayloadBytes _ = info.numPayloadBytes
        rw [hempty, hfull, sizeSub_of_le (Nat.sub_le _ _) (by omega)]
        omega }

/-- `pack_and_unpack`, of a packet whose payload is zero -/
def packAndUnpack (conv : BitVec 32 → BitVec 32) (info : IfPacketInfo) :
    Except VrtFault IfPacketInfo :=
  let (words, packed) := ifHdrPack conv (fun _ => 0) info
  ifHdrUnpack conv ((List.range packed.numPacketWords32).map words)
    { linkType := packed.linkType, numPacketWords32 := packed.numPacketWords32 }

/-- An info that is in range, and that is not recovered. -/
def Lost (info : IfPacketInfo) : Prop :=
  InRange info ∧ ∃ result, packAndUnpack (Endianness.conv .little .little) info = .ok result ∧
    ¬ Recovers (ifHdrPack (Endianness.conv .little .little) (fun _ => 0) info).2 result

end Vrt
end Transport
end UhdHost
