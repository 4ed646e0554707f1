import UhdHost.Transport.VrtIfPacket

/-!
# Unpacking any buffer

The words that `if_hdr_unpack` reads, and the sizes that it computes, depend on the header that it
finds.  It compares the packet length of the header with the size of the buffer first, and with the
size of the header only after it has read the header and the trailer (`unpackCore_eq`).

Under VRLP the packet starts two words into the buffer, and the comparison does not count
them.  Nothing compares the empty bytes of the last word with the size of the payload.  So a buffer
is unpacked safely under a condition on its words (`UnpackCond`), and only then
(`unpack_safe_iff`).
-/

namespace UhdHost
namespace Transport
namespace Vrt

open BitFields

variable {conv : BitVec 32 → BitVec 32} {buff : List (BitVec 32)} {info : IfPacketInfo}

/-! ## Reads -/

/-- The word of an index, if it is there. -/
def wordOr (conv : BitVec 32 → BitVec 32) (buff : List (BitVec 32)) (present : Bool) (i : ℕ)
    (old : BitVec 32) : BitVec 32 :=
  if present then conv (buff.getD i 0) else old

/-- The fractional time of two words, if it is there. -/
def tsfOr (conv : BitVec 32 → BitVec 32) (buff : List (BitVec 32)) (present : Bool) (i : ℕ)
    (old : BitVec 64) : BitVec 64 :=
  if present then
    ((conv (buff.getD i 0)).setWidth 64 <<< 32) ||| (conv (buff.getD (i + 1) 0)).setWidth 64
  else old

theorem readWord_of_lt (conv : BitVec 32 → BitVec 32) {i : ℕ} (hi : i < buff.length) :
    readWord conv buff i = .ok (conv (buff.getD i 0)) := if_pos hi

theorem readWord_of_le (conv : BitVec 32 → BitVec 32) {i : ℕ} (hi : buff.length ≤ i) :
    readWord conv buff i = .error .outside :=
  if_neg (Nat.not_lt.mpr hi)

theorem readIf_inside {present : Bool} {i : ℕ} (h : present = true → i < buff.length)
    (old : BitVec 32) :
    readIf present old (readWord conv buff i) = .ok (wordOr conv buff present i old) := by
  cases present with
  | false => rfl
  | true => exact readWord_of_lt conv (h rfl)

theorem readIf_outside {present : Bool} {i : ℕ} (h : ¬ (present = true → i < buff.length))
    (old : BitVec 32) : readIf present old (readWord conv buff i) = .error .outside := by
  obtain ⟨hpresent, hi⟩ := Classical.not_imp.mp h
  rw [readIf, if_pos hpresent, readWord_of_le conv (Nat.le_of_not_lt hi)]

theorem readTsf_inside {present : Bool} {i : ℕ} (h : present = true → i + 1 < buff.length)
    (old : BitVec 64) :
    readTsf conv buff present i old = .ok (tsfOr conv buff present i old) := by
  cases present with
  | false => rfl
  | true =>
    have hhigh := readWord_of_lt conv (Nat.lt_of_succ_lt (h rfl))
    have hlow := readWord_of_lt conv (h rfl)
    rw [readTsf, if_pos rfl, hhigh, hlow]
    rfl

theorem readTsf_outside {present : Bool} {i : ℕ} (h : ¬ (present = true → i + 1 < buff.length))
    (old : BitVec 64) : readTsf conv buff present i old = .error .outside := by
  obtain ⟨hpresent, hi⟩ := Classical.not_imp.mp h
  have hlow := readWord_of_le conv (Nat.le_of_not_lt hi)
  rw [readTsf, if_pos hpresent, hlow]
  by_cases hhigh : i < buff.length
  · rw [readWord_of_lt conv hhigh]
    rfl
  · rw [readWord_of_le conv (Nat.le_of_not_lt hhigh)]
    rfl

theorem readBefore_inside {present : Bool} {i : ℕ}
    (h : present = true → 0 < i ∧ i ≤ buff.length) (old : BitVec 32) :
    readIf present old (readBefore conv buff i) = .ok (wordOr conv buff present (i - 1) old) := by
  cases present with
  | false => rfl
  | true =>
    obtain ⟨hpos, hle⟩ := h rfl
    have hlt : i - 1 < buff.length := by omega
    rw [readIf, if_pos rfl, readBefore, if_neg (Nat.ne_of_gt hpos), readWord_of_lt conv hlt]
    rfl

theorem readBefore_outside {present : Bool} {i : ℕ}
    (h : ¬ (present = true → 0 < i ∧ i ≤ buff.length)) (old : BitVec 32) :
    readIf present old (readBefore conv buff i) = .error .outside := by
  obtain ⟨hpresent, hi⟩ := Classical.not_imp.mp h
  rw [readIf, if_pos hpresent, readBefore]
  split_ifs with hzero
  · rfl
  · exact readWord_of_le conv (by omega)

/-! ## The header -/

/-- Every word that a header asks for is in the buffer. -/
structure ReadsInside (buff : List (BitVec 32)) (base : ℕ) (hdr : BitVec 32) : Prop where
  sid : (Pred.ofHeader hdr).sid = true → base + 1 < buff.length
  tsi : (Pred.ofHeader hdr).tsi = true → base + (Pred.ofHeader hdr).tsiAt < buff.length
  tsf : (Pred.ofHeader hdr).tsf = true → base + (Pred.ofHeader hdr).tsfAt + 1 < buff.length
  tlr : (Pred.ofHeader hdr).tlr = true →
    0 < base + packetWords32 hdr ∧ base + packetWords32 hdr ≤ buff.length

/-- The info that is made of the words of a buffer. -/
def infoOf (conv : BitVec 32 → BitVec 32) (buff : List (BitVec 32)) (base : ℕ)
    (info : IfPacketInfo) (hdr : BitVec 32) : IfPacketInfo :=
  let p := Pred.ofHeader hdr
  unpackedInfo info hdr (wordOr conv buff p.sid (base + 1) info.sid)
    (wordOr conv buff p.tsi (base + p.tsiAt) info.tsi)
    (wordOr conv buff p.tlr (base + packetWords32 hdr - 1) info.tlr)
    (tsfOr conv buff p.tsf (base + p.tsfAt) info.tsf)

open Classical in
/-- **Unpacking a header.** -/
theorem unpackCore_eq (conv : BitVec 32 → BitVec 32) (buff : List (BitVec 32)) (base : ℕ)
    (info : IfPacketInfo) (hdr : BitVec 32) :
    unpackCore conv buff base info hdr =
      if info.numPacketWords32 < packetWords32 hdr then
        .error (.thrown (.valueError "bad vrt header or packet fragment"))
      else if ¬ ReadsInside buff base hdr then .error .outside
      else if packetWords32 hdr <
          (Pred.ofHeader hdr).headerWords + (Pred.ofHeader hdr).trailerWords then
        .error (.thrown (.valueError "bad vrt header or invalid packet length"))
      else .ok (infoOf conv buff base info hdr) := by
  rw [unpackCore]
  refine if_congr Iff.rfl rfl ?_
  dsimp only
  by_cases hsid : (Pred.ofHeader hdr).sid = true → base + 1 < buff.length
  · rw [readIf_inside hsid]
    by_cases htsi : (Pred.ofHeader hdr).tsi = true →
        base + (Pred.ofHeader hdr).tsiAt < buff.length
    · rw [readIf_inside htsi]
      by_cases htsf : (Pred.ofHeader hdr).tsf = true →
          base + (Pred.ofHeader hdr).tsfAt + 1 < buff.length
      · rw [readTsf_inside htsf]
        by_cases htlr : (Pred.ofHeader hdr).tlr = true →
            0 < base + packetWords32 hdr ∧ base + packetWords32 hdr ≤ buff.length
        · rw [readBefore_inside htlr, if_neg (not_not.mpr ⟨hsid, htsi, htsf, htlr⟩)]
          rfl
        · rw [readBefore_outside htlr, if_pos fun h => htlr h.tlr]
          rfl
      · rw [readTsf_outside htsf, if_pos fun h => htsf h.tsf]
        rfl
    · rw [readIf_outside htsi, if_pos fun h => htsi h.tsi]
      rfl
  · rw [readIf_outside hsid, if_pos fun h => hsid h.sid]
    rfl

/-! ## Safety -/

/-- Unpacking a buffer of so many words either throws, or it returns sizes that fit together
without reading a word outside. -/
def Safe (n : ℕ) : Except VrtFault IfPacketInfo → Prop
  | .error (.thrown _) => True
  | .error .outside => False
  | .ok out =>
    out.numHeaderWords32 + out.numPayloadWords32 + out.hasTlr.toNat ≤ n ∧
      out.numPayloadBytes ≤ 4 * out.numPayloadWords32

/-- The condition on the words from an index on.  Where the packet length is not refused, the words
that the header asks for are in the buffer; and where the header and the trailer do not exceed
that length, the buffer holds the packet, and its payload has room for the bytes that are
empty. -/
def CoreCond (conv : BitVec 32 → BitVec 32) (buff : List (BitVec 32)) (base rem : ℕ)
    (hdr : BitVec 32) : Prop :=
  packetWords32 hdr ≤ buff.length →
    ReadsInside buff base hdr ∧
      ((Pred.ofHeader hdr).headerWords + (Pred.ofHeader hdr).trailerWords ≤ packetWords32 hdr →
        base + packetWords32 hdr ≤ buff.length ∧
          emptyBytes (Pred.ofHeader hdr) (conv (buff.getD (base + packetWords32 hdr - 1) 0)) + rem ≤
            4 * (packetWords32 hdr -
              ((Pred.ofHeader hdr).headerWords + (Pred.ofHeader hdr).trailerWords)))

/-- The word of an index, in the order of the host. -/
def wordOf (conv : BitVec 32 → BitVec 32) (buff : List (BitVec 32)) (i : ℕ) : BitVec 32 :=
  conv (buff.getD i 0)

/-- **The condition** under which a buffer is unpacked safely. -/
def UnpackCond (conv : BitVec 32 → BitVec 32) (buff : List (BitVec 32)) : LinkType → Prop
  | .none => 0 < buff.length ∧ CoreCond conv buff 0 0 (wordOf conv buff 0)
  | .chdr => 0 < buff.length ∧ CoreCond conv buff 0
      (getField (~~~(wordOf conv buff 0) + 1) 0 2).toNat (chdrToVrt (wordOf conv buff 0))
  | .vrlp => 0 < buff.length ∧ (wordOf conv buff 0 = vrlpWord → 2 < buff.length ∧
      ((getField (wordOf conv buff 1) 0 20).toNat ≤ buff.length →
        ((getField (wordOf conv buff 1) 0 20).toNat + (2 ^ 32 - 1)) % 2 ^ 32 < buff.length ∧
          (wordOf conv buff (((getField (wordOf conv buff 1) 0 20).toNat + (2 ^ 32 - 1)) % 2 ^ 32) =
              vendWord →
            CoreCond conv buff 2 0 (wordOf conv buff 2))))

theorem safe_readWord_bind {n i : ℕ} (f : BitVec 32 → Except VrtFault IfPacketInfo) :
    Safe n (readWord conv buff i >>= f) ↔ i < buff.length ∧ Safe n (f (wordOf conv buff i)) := by
  by_cases hi : i < buff.length
  · rw [readWord_of_lt conv hi]
    exact ⟨fun h => ⟨hi, h⟩, fun h => h.2⟩
  · rw [readWord_of_le conv (Nat.le_of_not_lt hi)]
    exact ⟨False.elim, fun h => absurd h.1 hi⟩

theorem emptyBytes_le (p : Pred) (tlr : BitVec 32) : emptyBytes p tlr ≤ 3 := by
  rw [emptyBytes]
  split_ifs
  · have hlt : (getField (indicators tlr) 2 2).toNat < 4 := toNat_getField_lt _ _ (by decide)
    generalize (getField (indicators tlr) 2 2).toNat = i at hlt
    interval_cases i <;> decide
  · exact Nat.zero_le 3

theorem infoOf_sizes (conv : BitVec 32 → BitVec 32) (buff : List (BitVec 32)) (base : ℕ)
    (info : IfPacketInfo) (hdr : BitVec 32) :
    (infoOf conv buff base info hdr).numHeaderWords32 = (Pred.ofHeader hdr).headerWords ∧
      (infoOf conv buff base info hdr).numPayloadWords32 = packetWords32 hdr -
        ((Pred.ofHeader hdr).headerWords + (Pred.ofHeader hdr).trailerWords) ∧
      (infoOf conv buff base info hdr).hasTlr = (Pred.ofHeader hdr).tlr ∧
      (infoOf conv buff base info hdr).numPayloadBytes = sizeSub ((packetWords32 hdr -
        ((Pred.ofHeader hdr).headerWords + (Pred.ofHeader hdr).trailerWords)) * 4)
          (emptyBytes (Pred.ofHeader hdr)
            (conv (buff.getD (base + packetWords32 hdr - 1) 0))) := by
  refine ⟨rfl, rfl, rfl, ?_⟩
  have hempty : emptyBytes (Pred.ofHeader hdr)
      (wordOr conv buff (Pred.ofHeader hdr).tlr (base + packetWords32 hdr - 1) info.tlr) =
        emptyBytes (Pred.ofHeader hdr) (conv (buff.getD (base + packetWords32 hdr - 1) 0)) := by
    cases htlr : (Pred.ofHeader hdr).tlr with
    | false => rw [emptyBytes, emptyBytes, htlr, if_neg (by decide), if_neg (by decide)]
    | true => rfl
  rw [← hempty]
  rfl

theorem sizeSub_sizeSub_le_iff {words empty rem : ℕ} (hempty : empty ≤ 3) (hrem : rem ≤ 3) :
    sizeSub (sizeSub (words * 4) empty) rem ≤ 4 * words ↔ empty + rem ≤ 4 * words := by
  rw [sizeSub, sizeSub]
  omega

theorem safe_core_iff {base rem : ℕ} {hdr : BitVec 32} {g : IfPacketInfo → IfPacketInfo}
    (hinfo : info.numPacketWords32 = buff.length) (hrem : rem ≤ 3)
    (hheader : ∀ out, (g out).numHeaderWords32 = out.numHeaderWords32 + base)
    (hpayload : ∀ out, (g out).numPayloadWords32 = out.numPayloadWords32)
    (htlr : ∀ out, (g out).hasTlr = out.hasTlr)
    (hbytes : ∀ out, out.numPayloadBytes < 2 ^ 64 →
      (g out).numPayloadBytes = sizeSub out.numPayloadBytes rem) :
    Safe buff.length (unpackCore conv buff base info hdr >>= fun out => .ok (g out)) ↔
      CoreCond conv buff base rem hdr := by
  rw [unpackCore_eq, CoreCond, hinfo]
  by_cases hfragment : buff.length < packetWords32 hdr
  · rw [if_pos hfragment]
    exact ⟨fun _ hle => absurd hle (Nat.not_le.mpr hfragment), fun _ => trivial⟩
  · have hle : packetWords32 hdr ≤ buff.length := Nat.le_of_not_lt hfragment
    rw [if_neg hfragment, imp_iff_right hle]
    by_cases hreads : ReadsInside buff base hdr
    · rw [if_neg (not_not.mpr hreads), and_iff_right hreads]
      by_cases hlength : packetWords32 hdr <
          (Pred.ofHeader hdr).headerWords + (Pred.ofHeader hdr).trailerWords
      · rw [if_pos hlength]
        exact ⟨fun _ hle => absurd hle (Nat.not_le.mpr hlength), fun _ => trivial⟩
      · have hfits := Nat.le_of_not_lt hlength
        rw [if_neg hlength, imp_iff_right hfits]
        obtain ⟨hheaderOf, hpayloadOf, htlrOf, hbytesOf⟩ := infoOf_sizes conv buff base info hdr
        have hbytesLt : (infoOf conv buff base info hdr).numPayloadBytes < 2 ^ 64 := by
          rw [hbytesOf]
          exact Nat.mod_lt _ (by decide)
        show _ ∧ _ ↔ _
        rw [hheader, hpayload, htlr, hbytes _ hbytesLt, hheaderOf, hpayloadOf, htlrOf, hbytesOf,
          sizeSub_sizeSub_le_iff (emptyBytes_le _ _) hrem]
        refine and_congr ?_ Iff.rfl
        show (Pred.ofHeader hdr).headerWords + base + (packetWords32 hdr -
          ((Pred.ofHeader hdr).headerWords + (Pred.ofHeader hdr).trailerWords)) +
            (Pred.ofHeader hdr).trailerWords ≤ buff.length ↔ _
        omega
    · rw [if_pos hreads]
      exact ⟨False.elim, fun h => absurd h.1 hreads⟩

theorem unpack_none_safe_iff (hlink : info.linkType = .none)
    (hinfo : info.numPacketWords32 = buff.length) :
    Safe buff.length (ifHdrUnpack conv buff info) ↔ UnpackCond conv buff .none := by
  have hunpack : ifHdrUnpack conv buff info = readWord conv buff 0 >>= fun hdr =>
      unpackCore conv buff 0 info hdr >>= fun out => .ok out := by
    rw [ifHdrUnpack, hlink]
    refine congrArg (readWord conv buff 0 >>= ·) (funext fun hdr => ?_)
    exact (bind_pure (unpackCore conv buff 0 info hdr)).symm
  rw [hunpack, safe_readWord_bind, UnpackCond]
  refine and_congr Iff.rfl (safe_core_iff hinfo (by decide) (fun _ => rfl) (fun _ => rfl)
    (fun _ => rfl) fun out hlt => ?_)
  exact (sizeSub_of_le (Nat.zero_le _) hlt).symm

theorem unpack_chdr_safe_iff (hlink : info.linkType = .chdr)
    (hinfo : info.numPacketWords32 = buff.length) :
    Safe buff.length (ifHdrUnpack conv buff info) ↔ UnpackCond conv buff .chdr := by
  have hunpack : ifHdrUnpack conv buff info = readWord conv buff 0 >>= fun chdr =>
      unpackCore conv buff 0 info (chdrToVrt chdr) >>= fun out => .ok
        { out with
          numPayloadBytes := sizeSub out.numPayloadBytes (getField (~~~chdr + 1) 0 2).toNat
          packetCount := chdrPacketCount chdr } := by
    rw [ifHdrUnpack, hlink]
    rfl
  have hrem : (getField (~~~(wordOf conv buff 0) + 1) 0 2).toNat < 2 ^ 2 :=
    toNat_getField_lt _ 0 (by decide)
  rw [hunpack, safe_readWord_bind, UnpackCond]
  exact and_congr Iff.rfl (safe_core_iff hinfo (Nat.le_of_lt_succ hrem) (fun _ => rfl)
    (fun _ => rfl) (fun _ => rfl) fun _ _ => rfl)

theorem unpack_vrlp_safe_iff (hlink : info.linkType = .vrlp)
    (hinfo : info.numPacketWords32 = buff.length) :
    Safe buff.length (ifHdrUnpack conv buff info) ↔ UnpackCond conv buff .vrlp := by
  rw [ifHdrUnpack, hlink, UnpackCond]
  dsimp only
  rw [safe_readWord_bind]
  refine and_congr Iff.rfl ?_
  by_cases hvrlp : wordOf conv buff 0 = vrlpWord
  · rw [if_neg (not_not.mpr hvrlp), imp_iff_right hvrlp, safe_readWord_bind, safe_readWord_bind,
      hinfo]
    by_cases hthree : 2 < buff.length
    · rw [and_iff_right (Nat.lt_of_succ_lt hthree), and_iff_right hthree, and_iff_right hthree]
      by_cases hlength : (getField (wordOf conv buff 1) 0 20).toNat ≤ buff.length
      · rw [if_neg (Nat.not_lt.mpr hlength), imp_iff_right hlength, safe_readWord_bind]
        refine and_congr Iff.rfl ?_
        generalize wordOf conv buff
          (((getField (wordOf conv buff 1) 0 20).toNat + (2 ^ 32 - 1)) % 2 ^ 32) = vend
        by_cases hvend : vend = vendWord
        · rw [if_neg (not_not.mpr hvend), imp_iff_right hvend]
          refine safe_core_iff hinfo (by decide) (fun _ => rfl) (fun _ => rfl) (fun _ => rfl)
            fun out hlt => ?_
          exact (sizeSub_of_le (Nat.zero_le _) hlt).symm
        · rw [if_pos hvend]
          exact ⟨fun _ h => absurd h hvend, fun _ => trivial⟩
      · rw [if_pos (Nat.lt_of_not_le hlength)]
        exact ⟨fun _ h => absurd h hlength, fun _ => trivial⟩
    · exact ⟨fun h => absurd h.2.1 hthree, fun h => absurd h.1 hthree⟩
  · rw [if_pos hvrlp]
    exact ⟨fun _ h => absurd h hvrlp, fun _ => trivial⟩

theorem unpack_safe_iff_cond (hinfo : info.numPacketWords32 = buff.length) :
    Safe buff.length (ifHdrUnpack conv buff info) ↔ UnpackCond conv buff info.linkType := by
  cases hlink : info.linkType with
  | none => exact unpack_none_safe_iff hlink hinfo
  | chdr => exact unpack_chdr_safe_iff hlink hinfo
  | vrlp => exact unpack_vrlp_safe_iff hlink hinfo

/-- **Unpacking any buffer.**  Whatever the link layer and the byte orders, a buffer is unpacked
safely exactly under the condition on its words. -/
theorem unpack_safe_iff (host link : Endianness) (info : IfPacketInfo)
    (buff : List (BitVec 32)) :
    Safe buff.length (ifHdrUnpack (Endianness.conv host link) buff
        { info with numPacketWords32 := buff.length }) ↔
      UnpackCond (Endianness.conv host link) buff info.linkType :=
  unpack_safe_iff_cond rfl

/-- Three buffers that are not unpacked safely: a word whose header asks for a stream ID that
would lie behind it; four words of VRLP whose packet length counts the words of VRLP too; and two
words, a header and a trailer that says that two bytes of the payload are empty. -/
theorem unpack_unsafe :
    ifHdrUnpack (Endianness.conv .little .little) [0x10000001]
        { numPacketWords32 := 1 } = .error .outside ∧
      ¬ Safe 4 (ifHdrUnpack (Endianness.conv .little .little)
        [vrlpWord, 0x00000004, 0x00000004, vendWord]
          { linkType := .vrlp, numPacketWords32 := 4 }) ∧
      ¬ Safe 2 (ifHdrUnpack (Endianness.conv .little .little) [0x04000002, 0x00C00400]
        { numPacketWords32 := 2 }) := by
  refine ⟨by decide +kernel, fun h => ?_, fun h => ?_⟩
  · have hout : ifHdrUnpack (Endianness.conv .little .little)
        [vrlpWord, 0x00000004, 0x00000004, vendWord]
          { linkType := .vrlp, numPacketWords32 := 4 } =
        .ok { linkType := .vrlp, numPacketWords32 := 4, numHeaderWords32 := 3,
              numPayloadWords32 := 3, numPayloadBytes := 12 } := by decide +kernel
    rw [hout] at h
    exact absurd h.1 (by decide)
  · have hout : ifHdrUnpack (Endianness.conv .little .little) [0x04000002, 0x00C00400]
          { numPacketWords32 := 2 } =
        .ok { numPacketWords32 := 2, numHeaderWords32 := 1, numPayloadBytes := 2 ^ 64 - 2,
              hasTlr := true, tlr := 0x00C00400 } := by decide +kernel
    rw [hout] at h
    exact absurd h.2 (by decide)

end Vrt
end Transport
end UhdHost
