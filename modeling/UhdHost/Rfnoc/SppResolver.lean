import UhdHost.Rfnoc.TxDataXport
import UhdHost.Types.Exception
import UhdHost.Types.SizeT

/-!
# Samples per packet

The resolvers of `radio_control_impl.cpp` for the atomic item size of an output and for the samples
per packet, and what is written into the register from them.

An item is a word of the radio: so many samples as there are in a cycle.  The atomic item size is
made a multiple of that, and no larger than the MTU, which may leave nothing of it.  The samples per
packet are then cut to what fits into a packet that holds whole items, and to a multiple of the
items' samples.  Everything is divided on the way, by numbers which come from the hardware or from
other blocks and are not compared with zero; and sizes of 64 bits are turned into an `int`.

* `coerce_spec`: what the coercion gives where the multiple is positive and fits.
* `claimed_iff_itemFits`: the samples per packet are right, or refused, exactly where the samples have
  bytes, a word of the radio fits into the MTU and into the least common multiple, and no number is
  cut off, unless the number that is cut off is refused.
-/

namespace UhdHost
namespace Rfnoc
namespace SppResolver

/-! ## The resolvers -/

/-- What a computation ends with that does not end normally. -/
inductive Fault where
  | divByZero
  | thrown (e : UhdError)
  deriving DecidableEq

/-- The radio: `_radio_width`, which is read from a register, and the width of its packets. -/
structure Radio where
  radioWidth : BitVec 32
  chdrW : ChdrW

/-- The quotient of sizes. -/
def divBy (a b : ℕ) : Except Fault ℕ := if b = 0 then .error .divByZero else .ok (a / b)

/-- The remainder of sizes. -/
def modBy (a b : ℕ) : Except Fault ℕ := if b = 0 then .error .divByZero else .ok (a % b)

/-- The remainder of two `int`, which has the sign of the first. -/
def intModBy (a b : ℤ) : Except Fault ℤ := if b = 0 then .error .divByZero else .ok (a.tmod b)

/-- A number as an `int`. -/
def asInt (n : ℕ) : ℤ := (BitVec.ofNat 32 n).toInt

/-- An `int` as a `uint32_t`. -/
def asUInt32 (n : ℤ) : ℕ := (BitVec.ofInt 32 n).toNat

namespace Radio

variable (r : Radio)

/-- `_samp_width` -/
def sampWidth : ℕ := r.radioWidth.toNat / 2 ^ 16

/-- `_spc` -/
def spc : ℕ := r.radioWidth.toNat % 2 ^ 16

/-- The bytes of a sample. -/
def bytesPerSamp : ℕ := r.sampWidth / 8

/-- `get_atomic_item_size` -/
def getAtomicItemSize : ℕ := r.bytesPerSamp * r.spc

/-- `get_chdr_hdr_len`, with a time stamp -/
def getChdrHdrLen : ℕ :=
  r.chdrW.bytes * if r.chdrW = .w64 then 2 else 1

/-- `get_max_payload_size` -/
def getMaxPayloadSize (mtu : BitVec 64) : ℕ := sizeSub mtu.toNat r.getChdrHdrLen

/-- `std::lcm` of sizes -/
def stdLcm (a b : ℕ) : ℕ := Nat.lcm a b % 2 ^ 64

/-- The resolver for the atomic item size. -/
def resolveAtomicItemSize (mtu ais : BitVec 64) : Except Fault ℕ := do
  let aisOut := min (stdLcm ais.toNat r.getAtomicItemSize) mtu.toNat
  let rest ← modBy aisOut r.getAtomicItemSize
  if 0 < rest then pure (aisOut - rest) else pure aisOut

/-- `get_max_spp` -/
def getMaxSpp (bytes : ℕ) : Except Fault ℤ := do
  let packetSamps := asInt (← divBy bytes r.bytesPerSamp)
  let rest ← modBy (asUInt32 packetSamps) r.spc
  pure (asInt (asUInt32 packetSamps - rest))

/-- The resolver for the samples per packet. -/
def resolveSpp (mtu : BitVec 64) (aisOut : ℕ) (spp : ℤ) : Except Fault ℤ := do
  let maxPyld := r.getMaxPayloadSize mtu
  let maxSpp ← r.getMaxSpp (maxPyld - (← modBy maxPyld aisOut))
  let spp := if maxSpp < spp then maxSpp else spp
  let spp := if spp ≤ 0 then maxSpp else spp
  let sppMultiple := asInt (← divBy aisOut r.bytesPerSamp)
  if maxSpp < sppMultiple then
    .error (.thrown (.resolveError "Cannot resolve spp!"))
  else
    let rest ← intModBy spp sppMultiple
    if rest ≠ 0 then
      if spp < sppMultiple then pure sppMultiple else pure (spp - rest)
    else
      pure spp

/-- The register that is written when the samples per packet have changed. -/
def wordsPerPkt (spp : ℤ) : Except Fault ℕ := divBy (asUInt32 spp) r.spc

/-- The resolvers, one after the other, and the register: the atomic item size, the samples per
packet and the words per packet. -/
def resolve (mtu ais : BitVec 64) (spp : BitVec 32) : Except Fault (ℕ × ℤ × ℕ) := do
  let aisOut ← r.resolveAtomicItemSize mtu ais
  let spp ← r.resolveSpp mtu aisOut spp.toInt
  let wordsPerPkt ← r.wordsPerPkt spp
  pure (aisOut, spp, wordsPerPkt)

/-! ## What is claimed -/

/-- **What is claimed**: the request is refused, or the samples per packet are positive, whole
items, whole cycles and fit into a packet, and the register describes them. -/
def Claimed (mtu ais : BitVec 64) (spp : BitVec 32) : Prop :=
  (∃ what, r.resolve mtu ais spp = .error (.thrown (.resolveError what))) ∨
    ∃ aisOut sppOut words, r.resolve mtu ais spp = .ok (aisOut, sppOut, words) ∧
      0 < sppOut ∧ ((aisOut / r.bytesPerSamp : ℕ) : ℤ) ∣ sppOut ∧ (r.spc : ℤ) ∣ sppOut ∧
      sppOut * r.bytesPerSamp + r.getChdrHdrLen ≤ mtu.toNat ∧ (words * r.spc : ℤ) = sppOut

/-- What is left of an atomic item size: the words of the radio in it that fit into the MTU. -/
def itemSize (mtu ais : BitVec 64) : ℕ :=
  min (stdLcm ais.toNat r.getAtomicItemSize) mtu.toNat / r.getAtomicItemSize * r.getAtomicItemSize

/-- The samples that whole items take in a packet, cut to 32 bits and to whole cycles. -/
def maxSpp (mtu : BitVec 64) (aisOut : ℕ) : ℤ :=
  let samps := r.getMaxPayloadSize mtu / aisOut * aisOut / r.bytesPerSamp % 2 ^ 32
  asInt (samps / r.spc * r.spc)

/-- **The condition**: samples have bytes, a cycle has samples, a word of the radio fits into the
MTU and into the least common multiple, and the header fits into the MTU and the samples of an item
into an `int`, or else the resolver refuses the numbers that were cut off. -/
def Meets (mtu ais : BitVec 64) : Prop :=
  8 ≤ r.sampWidth ∧ 0 < r.spc ∧ r.getAtomicItemSize ≤ mtu.toNat ∧
    r.getAtomicItemSize ≤ stdLcm ais.toNat r.getAtomicItemSize ∧
    (r.getChdrHdrLen ≤ mtu.toNat ∧ r.itemSize mtu ais / r.bytesPerSamp < 2 ^ 31 ∨
      r.maxSpp mtu (r.itemSize mtu ais) < asInt (r.itemSize mtu ais / r.bytesPerSamp))

/-! ## Numbers that are cut off -/

section Cut

variable {n : ℕ} {x : ℤ}

theorem asInt_lt (n : ℕ) : asInt n < 2 ^ 31 := by
  have hlt := @BitVec.toInt_lt 32 (BitVec.ofNat 32 n)
  exact hlt

theorem asInt_of_lt (h : n < 2 ^ 31) : asInt n = n := by
  have hnat : (BitVec.ofNat 32 n).toNat = n := by
    rw [BitVec.toNat_ofNat]
    exact Nat.mod_eq_of_lt (by omega)
  rw [asInt, BitVec.toInt_eq_toNat_cond, hnat, if_pos (by omega)]

theorem asInt_le (n : ℕ) : asInt n ≤ n := by
  have hmod := Nat.mod_le n (2 ^ 32)
  have hlt := Nat.mod_lt n (Nat.two_pow_pos 32)
  rw [asInt, BitVec.toInt_eq_toNat_cond, BitVec.toNat_ofNat]
  split_ifs <;> omega

theorem asUInt32_asInt (n : ℕ) : asUInt32 (asInt n) = n % 2 ^ 32 := by
  rw [asUInt32, asInt, BitVec.ofInt_toInt, BitVec.toNat_ofNat]

theorem asUInt32_of_lt (h0 : 0 ≤ x) (h : x < 2 ^ 32) : (asUInt32 x : ℤ) = x := by
  rw [asUInt32, BitVec.toNat_ofInt]
  omega

end Cut

/-! ## What the resolvers give -/

section Results

variable {r} {mtu ais : BitVec 64} {a : ℕ} {spp maxSpp multiple : ℤ}

theorem sub_mod_eq (n k : ℕ) : n - n % k = n / k * k := by
  have hdiv := Nat.div_add_mod n k
  rw [Nat.mul_comm] at hdiv
  omega

theorem divBy_of_pos {n k : ℕ} (h : 0 < k) : divBy n k = .ok (n / k) := if_neg h.ne'

theorem modBy_of_pos {n k : ℕ} (h : 0 < k) : modBy n k = .ok (n % k) := if_neg h.ne'

theorem resolveAtomicItemSize_eq (h : 0 < r.getAtomicItemSize) (mtu ais : BitVec 64) :
    r.resolveAtomicItemSize mtu ais = .ok (r.itemSize mtu ais) := by
  unfold resolveAtomicItemSize
  dsimp only
  rw [modBy_of_pos h]
  dsimp only [bind, Except.bind]
  rw [sub_mod_eq]
  split_ifs with hrest
  · rfl
  · have hzero := Nat.eq_zero_of_not_pos hrest
    have hsame := sub_mod_eq (min (stdLcm ais.toNat r.getAtomicItemSize) mtu.toNat)
      r.getAtomicItemSize
    rw [hzero, Nat.sub_zero] at hsame
    exact congrArg Except.ok hsame

theorem getMaxSpp_eq (hw : 0 < r.bytesPerSamp) (hc : 0 < r.spc) (bytes : ℕ) :
    r.getMaxSpp bytes = .ok (asInt (bytes / r.bytesPerSamp % 2 ^ 32 / r.spc * r.spc)) := by
  unfold getMaxSpp
  rw [divBy_of_pos hw]
  dsimp only [bind, Except.bind]
  rw [asUInt32_asInt, modBy_of_pos hc]
  dsimp only
  rw [sub_mod_eq]
  rfl

/-- The samples per packet that are made of a request, for the most that fit and a multiple. -/
def coerce (maxSpp multiple spp : ℤ) : ℤ :=
  let spp := if maxSpp < spp then maxSpp else spp
  let spp := if spp ≤ 0 then maxSpp else spp
  if spp.tmod multiple ≠ 0 then
    if spp < multiple then multiple else spp - spp.tmod multiple
  else
    spp

theorem resolveSpp_eq (hw : 0 < r.bytesPerSamp) (hc : 0 < r.spc) (ha : 0 < a) (mtu : BitVec 64)
    (spp : ℤ) : r.resolveSpp mtu a spp =
      if r.maxSpp mtu a < asInt (a / r.bytesPerSamp) then
        .error (.thrown (.resolveError "Cannot resolve spp!"))
      else if asInt (a / r.bytesPerSamp) = 0 then .error .divByZero
      else .ok (coerce (r.maxSpp mtu a) (asInt (a / r.bytesPerSamp)) spp) := by
  unfold resolveSpp
  dsimp only
  rw [modBy_of_pos ha]
  dsimp only [bind, Except.bind]
  rw [sub_mod_eq, getMaxSpp_eq hw hc, divBy_of_pos hw]
  dsimp only
  have hmax : asInt (r.getMaxPayloadSize mtu / a * a / r.bytesPerSamp % 2 ^ 32 / r.spc * r.spc)
      = r.maxSpp mtu a := rfl
  rw [hmax]
  by_cases hlarge : r.maxSpp mtu a < asInt (a / r.bytesPerSamp)
  · rw [if_pos hlarge, if_pos hlarge]
  · rw [if_neg hlarge, if_neg hlarge, coerce]
    generalize (if (if r.maxSpp mtu a < spp then r.maxSpp mtu a else spp) ≤ 0 then r.maxSpp mtu a
      else if r.maxSpp mtu a < spp then r.maxSpp mtu a else spp) = x
    by_cases hzero : asInt (a / r.bytesPerSamp) = 0
    · rw [if_pos hzero, intModBy, if_pos hzero]
    · rw [if_neg hzero, intModBy, if_neg hzero]
      dsimp only
      split_ifs <;> rfl

theorem coerce_spec (hpos : 0 < multiple) (hle : multiple ≤ maxSpp) (spp : ℤ) :
    0 < coerce maxSpp multiple spp ∧ multiple ∣ coerce maxSpp multiple spp ∧
      coerce maxSpp multiple spp ≤ maxSpp := by
  have hcut : ∀ x : ℤ, 0 < x → x ≤ maxSpp →
      0 < (if x.tmod multiple ≠ 0 then if x < multiple then multiple else x - x.tmod multiple
        else x) ∧
      multiple ∣ (if x.tmod multiple ≠ 0 then
        if x < multiple then multiple else x - x.tmod multiple else x) ∧
      (if x.tmod multiple ≠ 0 then if x < multiple then multiple else x - x.tmod multiple
        else x) ≤ maxSpp := by
    intro x hx hxle
    have hmod : x.tmod multiple = x % multiple := Int.tmod_eq_emod_of_nonneg hx.le
    have hnonneg := Int.emod_nonneg x hpos.ne'
    have hlt := Int.emod_lt_of_pos x hpos
    rw [hmod]
    split_ifs with hrest hsmall
    · exact ⟨hpos, dvd_refl _, hle⟩
    · exact ⟨by omega, Int.dvd_self_sub_emod, by omega⟩
    · exact ⟨hx, Int.dvd_of_emod_eq_zero (not_not.mp hrest), hxle⟩
  unfold coerce
  dsimp only
  refine hcut _ ?_ ?_
  · split_ifs <;> omega
  · split_ifs <;> omega

theorem tmod_le {x : ℤ} (hx : 0 ≤ x) (m : ℤ) : x.tmod m ≤ x := by
  obtain ⟨n, rfl⟩ := Int.eq_ofNat_of_zero_le hx
  rw [Int.tmod_eq_emod_of_nonneg hx, ← Int.emod_abs, Int.abs_eq_natAbs, ← Int.natCast_mod]
  exact Int.ofNat_le.mpr (Nat.mod_le n m.natAbs)

theorem coerce_lt (hmax : maxSpp < 2 ^ 31) (hmultiple : multiple < 2 ^ 31) (hspp : spp < 2 ^ 31) :
    coerce maxSpp multiple spp < 2 ^ 31 := by
  have hcut : ∀ x : ℤ, x < 2 ^ 31 → (if x.tmod multiple ≠ 0 then
      if x < multiple then multiple else x - x.tmod multiple else x) < 2 ^ 31 := by
    intro x hx
    split_ifs with hrest hsmall
    · exact hmultiple
    · rcases Int.le_total 0 x with hx0 | hx0
      · have hnonneg := Int.tmod_nonneg multiple hx0
        omega
      · have hneg := Int.neg_tmod x multiple
        have hle := tmod_le (Int.neg_nonneg_of_nonpos hx0) multiple
        omega
    · exact hx
  unfold coerce
  dsimp only
  refine hcut _ ?_
  split_ifs <;> omega

theorem maxSpp_mul_le (mtu : BitVec 64) (a : ℕ) :
    r.maxSpp mtu a * r.bytesPerSamp ≤ r.getMaxPayloadSize mtu := by
  have hle : r.maxSpp mtu a ≤ (r.getMaxPayloadSize mtu / r.bytesPerSamp : ℕ) := by
    refine (asInt_le _).trans (Int.ofNat_le.mpr ?_)
    refine (Nat.div_mul_le_self _ _).trans ((Nat.mod_le _ _).trans ?_)
    exact Nat.div_le_div_right (Nat.div_mul_le_self _ _)
  have hmul := Int.mul_le_mul_of_nonneg_right hle (Int.natCast_nonneg r.bytesPerSamp)
  have hdiv := Nat.div_mul_le_self (r.getMaxPayloadSize mtu) r.bytesPerSamp
  exact hmul.trans (by exact_mod_cast hdiv)

theorem itemSize_eq (mtu ais : BitVec 64) : r.itemSize mtu ais =
    min (stdLcm ais.toNat r.getAtomicItemSize) mtu.toNat / r.getAtomicItemSize * r.spc
      * r.bytesPerSamp := by
  rw [itemSize, getAtomicItemSize, Nat.mul_assoc, Nat.mul_comm r.spc]

theorem itemSize_pos_iff (h : 0 < r.getAtomicItemSize) : 0 < r.itemSize mtu ais ↔
    r.getAtomicItemSize ≤ mtu.toNat ∧
      r.getAtomicItemSize ≤ stdLcm ais.toNat r.getAtomicItemSize := by
  rw [itemSize, Nat.mul_pos_iff_of_pos_right h, Nat.div_pos_iff, and_iff_right h]
  omega

theorem spc_dvd_multiple (hw : 0 < r.bytesPerSamp) :
    r.spc ∣ r.itemSize mtu ais / r.bytesPerSamp := by
  rw [itemSize_eq, Nat.mul_div_cancel _ hw]
  exact Dvd.intro_left _ rfl

theorem multiple_pos (hw : 0 < r.bytesPerSamp) (h : 0 < r.itemSize mtu ais) :
    0 < r.itemSize mtu ais / r.bytesPerSamp := by
  have hdvd : r.bytesPerSamp ∣ r.itemSize mtu ais := by
    rw [itemSize_eq]
    exact Dvd.intro_left _ rfl
  exact Nat.div_pos (Nat.le_of_dvd h hdvd) hw

theorem wordsPerPkt_eq (hc : 0 < r.spc) (h0 : 0 < spp) (h : spp < 2 ^ 31)
    (hdvd : (r.spc : ℤ) ∣ spp) :
    ∃ words : ℕ, r.wordsPerPkt spp = .ok words ∧ (words * r.spc : ℤ) = spp := by
  have hsame := asUInt32_of_lt h0.le (h.trans (by decide))
  refine ⟨_, divBy_of_pos hc, ?_⟩
  have hnat : r.spc ∣ asUInt32 spp := by
    rw [← hsame] at hdvd
    exact Int.natCast_dvd_natCast.mp hdvd
  rw [← Int.natCast_mul, Nat.div_mul_cancel hnat]
  exact hsame

theorem wordsPerPkt_ne_thrown {e : UhdError} {g : ℕ → ℕ × ℤ × ℕ} (hc : 0 < r.spc) :
    ((r.wordsPerPkt spp).bind fun words => .ok (g words)) ≠ .error (.thrown e) := by
  rw [wordsPerPkt, divBy_of_pos hc]
  intro h
  cases h

theorem wordsPerPkt_bind_eq {x aisOut words : ℕ} {sppOut : ℤ}
    (h : ((r.wordsPerPkt spp).bind fun words => .ok (x, spp, words))
      = (.ok (aisOut, sppOut, words) : Except Fault (ℕ × ℤ × ℕ))) : x = aisOut ∧ spp = sppOut := by
  cases hwords : r.wordsPerPkt spp with
  | error e =>
    rw [hwords] at h
    cases h
  | ok n =>
    rw [hwords] at h
    cases h
    exact ⟨rfl, rfl⟩

end Results

/-! ## When the claim holds -/

section Main

variable {r} {mtu ais : BitVec 64} {spp : BitVec 32}

theorem not_claimed_of_fault (h : r.resolve mtu ais spp = .error .divByZero) :
    ¬ r.Claimed mtu ais spp := by
  rintro (⟨what, hwhat⟩ | ⟨aisOut, sppOut, words, hok, -⟩)
  · rw [h] at hwhat
    cases hwhat
  · rw [h] at hok
    cases hok

theorem not_claimed_of_noItem (h : ¬ 0 < r.getAtomicItemSize) : ¬ r.Claimed mtu ais spp := by
  refine not_claimed_of_fault ?_
  have hzero : r.getAtomicItemSize = 0 := Nat.eq_zero_of_not_pos h
  have hfault : r.resolveAtomicItemSize mtu ais = .error .divByZero := by
    unfold resolveAtomicItemSize
    dsimp only
    rw [hzero]
    rfl
  unfold resolve
  rw [hfault]
  rfl

theorem resolve_eq (hw : 0 < r.bytesPerSamp) (hc : 0 < r.spc) (mtu ais : BitVec 64)
    (spp : BitVec 32) : r.resolve mtu ais spp =
      (r.resolveSpp mtu (r.itemSize mtu ais) spp.toInt).bind fun sppOut =>
        (r.wordsPerPkt sppOut).bind fun words => .ok (r.itemSize mtu ais, sppOut, words) := by
  unfold resolve
  rw [resolveAtomicItemSize_eq (Nat.mul_pos hw hc)]
  rfl

theorem not_claimed_of_noSize (hw : 0 < r.bytesPerSamp) (hc : 0 < r.spc)
    (h : r.itemSize mtu ais = 0) : ¬ r.Claimed mtu ais spp := by
  refine not_claimed_of_fault ?_
  rw [resolve_eq hw hc, h]
  rfl

theorem claimed_iff_of_pos (hw : 0 < r.bytesPerSamp) (hc : 0 < r.spc)
    (ha : 0 < r.itemSize mtu ais) : r.Claimed mtu ais spp ↔
      (r.getChdrHdrLen ≤ mtu.toNat ∧ r.itemSize mtu ais / r.bytesPerSamp < 2 ^ 31 ∨
        r.maxSpp mtu (r.itemSize mtu ais) < asInt (r.itemSize mtu ais / r.bytesPerSamp)) := by
  have hresolve := resolve_eq hw hc mtu ais spp
  rw [resolveSpp_eq hw hc ha] at hresolve
  by_cases hlarge : r.maxSpp mtu (r.itemSize mtu ais)
      < asInt (r.itemSize mtu ais / r.bytesPerSamp)
  · rw [if_pos hlarge] at hresolve
    exact iff_of_true (Or.inl ⟨_, hresolve⟩) (Or.inr hlarge)
  · rw [if_neg hlarge] at hresolve
    rw [or_iff_left hlarge]
    constructor
    · intro hclaimed
      by_cases hzero : asInt (r.itemSize mtu ais / r.bytesPerSamp) = 0
      · rw [if_pos hzero] at hresolve
        exact absurd hclaimed (not_claimed_of_fault hresolve)
      rw [if_neg hzero] at hresolve
      rcases hclaimed with ⟨what, hwhat⟩ | ⟨aisOut, sppOut, words, hok, hpos, hdvd, -, hfits, -⟩
      · rw [hresolve] at hwhat
        exact absurd hwhat (wordsPerPkt_ne_thrown hc)
      · rw [hresolve] at hok
        obtain ⟨hais, hspp⟩ := wordsPerPkt_bind_eq hok
        rw [← hais] at hdvd
        have hlt : sppOut < 2 ^ 31 :=
          hspp ▸ coerce_lt (asInt_lt _) (asInt_lt _) BitVec.toInt_lt
        have hle := Int.le_of_dvd hpos hdvd
        have hbytes : 0 ≤ sppOut * r.bytesPerSamp :=
          Int.mul_nonneg hpos.le (Int.natCast_nonneg _)
        exact ⟨by omega, by omega⟩
    · rintro ⟨hhdr, hmultiple⟩
      have hint := asInt_of_lt hmultiple
      have hmultpos := multiple_pos hw ha
      rw [hint] at hlarge hresolve
      rw [if_neg (by omega)] at hresolve
      obtain ⟨hpos, hdvd, hle⟩ := coerce_spec (Int.ofNat_lt.mpr hmultpos) (not_lt.mp hlarge)
        spp.toInt
      have hcycles : (r.spc : ℤ) ∣ _ :=
        (Int.natCast_dvd_natCast.mpr (spc_dvd_multiple hw)).trans hdvd
      obtain ⟨words, hwords, hregister⟩ :=
        wordsPerPkt_eq hc hpos (lt_of_le_of_lt hle (asInt_lt _)) hcycles
      refine Or.inr ⟨_, _, words, ?_, hpos, hdvd, hcycles, ?_, hregister⟩
      · rw [hresolve]
        dsimp only [Except.bind]
        rw [hwords]
      · have hmax := maxSpp_mul_le (r := r) mtu (r.itemSize mtu ais)
        have hmul := Int.mul_le_mul_of_nonneg_right hle (Int.natCast_nonneg r.bytesPerSamp)
        have hpayload := sizeSub_of_le hhdr mtu.isLt
        rw [getMaxPayloadSize, hpayload] at hmax
        omega

theorem bytesPerSamp_pos_iff : 0 < r.bytesPerSamp ↔ 8 ≤ r.sampWidth := by
  rw [bytesPerSamp]
  omega

/-- **The samples per packet are as claimed** exactly where nothing is divided by zero, and no
number is cut off unless it is refused. -/
theorem claimed_iff_itemFits : r.Claimed mtu ais spp ↔ r.Meets mtu ais := by
  rw [Meets, ← bytesPerSamp_pos_iff]
  by_cases hitem : 0 < r.getAtomicItemSize
  · obtain ⟨hw, hc⟩ : 0 < r.bytesPerSamp ∧ 0 < r.spc :=
      ⟨Nat.pos_of_mul_pos_right hitem, Nat.pos_of_mul_pos_left hitem⟩
    rw [and_iff_right hw, and_iff_right hc, ← and_assoc, ← itemSize_pos_iff hitem]
    by_cases ha : 0 < r.itemSize mtu ais
    · rw [and_iff_right ha]
      exact claimed_iff_of_pos hw hc ha
    · exact iff_of_false (not_claimed_of_noSize hw hc (Nat.eq_zero_of_not_pos ha))
        (fun hmeets => ha hmeets.1)
  · refine iff_of_false (not_claimed_of_noItem hitem) ?_
    rintro ⟨hw, hc, -⟩
    exact hitem (Nat.mul_pos hw hc)

/-- The radio of an X410 with 32 bits in a sample and one sample in a cycle. -/
def narrow : Radio where
  radioWidth := 32 * 2 ^ 16 + 1
  chdrW := .w64

/-- **An edge that asks for items of no bytes** leaves an item size of zero, by which the payload is
divided. -/
theorem not_claimed_noBytes : ¬ narrow.Claimed 8000 0 1000 := by
  rw [claimed_iff_itemFits, Meets]
  decide +kernel

end Main

end Radio

end SppResolver
end Rfnoc
end UhdHost
