import Mathlib
import UhdHost.Usrp.Lmx2572

/-!
# The frequencies of the LMX2572

What `set_frequency` of `lmx2572.cpp` programs: the divider of the outputs, and the whole part `N`
and the fraction `NUM / DEN` of the feedback divider.

* `fraction_spec`: a number as a whole part and a rounded fraction.
* `setFrequency_eq`: what a request that passes the checks ends with.
* `right_iff_fits`: when a request is rejected at once, or programs fields that produce what is
  returned.
-/

namespace UhdHost
namespace Usrp
namespace Lmx2572

open Cal Stateful

/-! ## Whole parts and fractions -/

section Fraction

variable {x : ℚ} {d : ℕ}

/-- The fraction of a number in parts of a denominator, rounded. -/
def roundedNum (x : ℚ) (d : ℕ) : ℤ := ⌊Int.fract x * d + 1 / 2⌋

theorem roundedNum_nonneg (x : ℚ) (d : ℕ) : 0 ≤ roundedNum x d := by
  refine Int.floor_nonneg.mpr ?_
  have hnonneg := mul_nonneg (Int.fract_nonneg x) (Nat.cast_nonneg d)
  linarith

theorem roundedNum_le (x : ℚ) (hd : 0 < d) : roundedNum x d ≤ d := by
  have hd' : (0 : ℚ) < d := Nat.cast_pos.mpr hd
  have hlt : Int.fract x * d < d := (mul_lt_iff_lt_one_left hd').mpr (Int.fract_lt_one x)
  refine Int.lt_add_one_iff.mp (Int.floor_lt.mpr ?_)
  push_cast
  linarith

theorem roundedNum_lt_iff (x : ℚ) (hd : 0 < d) :
    roundedNum x d < d ↔ Int.fract x < 1 - 1 / (2 * d) := by
  have hd' : (0 : ℚ) < d := Nat.cast_pos.mpr hd
  have hscale : (1 - 1 / (2 * d) : ℚ) * d = d - 1 / 2 := by
    field_simp
  have hiff : Int.fract x < 1 - 1 / (2 * d) ↔ Int.fract x * d < d - 1 / 2 := by
    rw [← hscale]
    exact (mul_lt_mul_iff_left₀ hd').symm
  rw [roundedNum, Int.floor_lt, hiff]
  push_cast
  exact lt_sub_iff_add_lt.symm

theorem fraction_spec (x : ℚ) (hd : 0 < d) :
    ((⌊x⌋ : ℚ) + roundedNum x d / d) * d = ⌊x * d + 1 / 2⌋ := by
  have hd' : (d : ℚ) ≠ 0 := (Nat.cast_pos.mpr hd).ne'
  have hsplit : x * d + 1 / 2 = (Int.fract x * d + 1 / 2) + ((⌊x⌋ * d : ℤ) : ℚ) := by
    rw [Int.fract]
    push_cast
    ring
  rw [hsplit, Int.floor_add_intCast, add_mul, div_mul_cancel₀ _ hd', roundedNum]
  push_cast
  ring

theorem rounded_mem_iff {step low high y : ℚ} (hstep : 0 < step) :
    (low ≤ step * ⌊y / step + 1 / 2⌋ ∧ step * ⌊y / step + 1 / 2⌋ ≤ high) ↔
      (⌈low / step⌉ - 1 / 2) * step ≤ y ∧ y < (⌊high / step⌋ + 1 / 2) * step := by
  refine and_congr ?_ ?_
  · rw [← div_le_iff₀' hstep, ← Int.ceil_le, Int.le_floor, ← le_div_iff₀ hstep]
    exact sub_le_iff_le_add.symm
  · rw [← le_div_iff₀' hstep, ← Int.le_floor, ← Int.lt_add_one_iff, Int.floor_lt,
      ← div_lt_iff₀ hstep]
    push_cast
    constructor
    · intro h
      linarith
    · intro h
      linarith

end Fraction

/-! ## Requests -/

/-- What `set_frequency` is called with. -/
structure Request where
  targetFreq : ℚ
  fOSC : ℚ
  spurDodging : Bool

/-- The divider that a register setting stands for. -/
def Chdiv.divisor : Chdiv → ℕ
  | .divideBy2 => 2
  | .divideBy4 => 4
  | .divideBy8 => 8
  | .divideBy16 => 16
  | .divideBy32 => 32
  | .divideBy64 => 64
  | .divideBy128 => 128
  | .divideBy256 => 256

/-- The register that says what an output is connected to. -/
def Lmx.outMux (s : Lmx) : Output → OutMux
  | .rfOutputA => s.outaMux
  | .rfOutputB => s.outbMux

/-- The divider between the VCO and an output, if the output is connected to the VCO. -/
def Lmx.outDivider (s : Lmx) (output : Output) : Option ℕ :=
  match s.outMux output with
  | .channelDivider => some s.chdiv.divisor
  | .vco => some 1
  | _ => none

/-- `PLL_N`, of its two registers. -/
def Lmx.pllN (s : Lmx) : ℕ := s.pllNUpper3Bits * 65536 + s.pllNLower16Bits

/-- `PLL_NUM`, of its two registers. -/
def Lmx.pllNum (s : Lmx) : ℕ := s.pllNumUpper * 65536 + s.pllNumLower

/-- `PLL_DEN`, of its two registers. -/
def Lmx.pllDen (s : Lmx) : ℕ := s.pllDenUpper * 65536 + s.pllDenLower

/-- The factor `P` of the feedback divider for a request, in the state that was programmed. -/
def Lmx.includedDivide (s : Lmx) (req : Request) (outD : ℕ) : ℕ :=
  (phaseSync s.outaMux s.outbMux
    (getSyncCat s.syncMode s.mult req.fOSC req.targetFreq outD)).1

/-- The frequency of the VCO that the registers produce: equation (2), with the factor `P`. -/
def Lmx.vcoFreq (s : Lmx) (fOSC : ℚ) (p : ℕ) : ℚ :=
  s.pfd fOSC * (s.pllN + s.pllNum / s.pllDen) * p

/-- **What is claimed** of the registers and the frequency that is returned once a request was
accepted, with the least `N` for each order of the modulator. -/
structure Accepted (minN : MashOrder → ℕ) (req : Request) (t : Lmx) (actual : ℚ) (outD : ℕ) :
    Prop where
  divider : ∀ output, t.outputEnabled output → t.outDivider output = some outD
  num_lt_den : t.pllNum < t.pllDen
  vco_mem : 3200000000 ≤ t.vcoFreq req.fOSC (t.includedDivide req outD) ∧
    t.vcoFreq req.fOSC (t.includedDivide req outD) ≤ 6400000000
  minN_le : minN t.mashOrder ≤ t.pllN
  produced : actual = t.vcoFreq req.fOSC (t.includedDivide req outD) / outD
  near : |actual - req.targetFreq| ≤
    t.pfd req.fOSC * t.includedDivide req outD / t.pllDen / outD / 2

/-- **What is claimed** of a request: it is rejected by the checks at the start and nothing is
programmed, or it is accepted. -/
def Right (minN : MashOrder → ℕ) (s : Lmx) (req : Request) : Prop :=
  (∃ halt, checkRequest req.targetFreq req.fOSC = .error halt ∧
    setFrequency req.targetFreq req.fOSC req.spurDodging s = .error halt s) ∨
  ∃ actual t outD, setFrequency req.targetFreq req.fOSC req.spurDodging s = .ok actual t ∧
    Accepted minN req t actual outD

/-! ## When it holds -/

/-- The divider of the outputs for a request. -/
def Request.outD (req : Request) : ℕ :=
  ((outDivMap.find? fun entry => req.targetFreq < entry.1).map fun entry => entry.2.1).getD 0

/-- The frequency of the VCO that a request asks for. -/
def Request.fVCO (req : Request) : ℚ := req.targetFreq * req.outD

/-- The divider of the reference for a request, if the tables have one. -/
def Lmx.refDivider (s : Lmx) (req : Request) : Option ℕ :=
  postDivider s.syncMode req.targetFreq req.fVCO ⌊req.fOSC⌋₊

/-- What an output is connected to after it was programmed. -/
def Lmx.muxAfter (s : Lmx) (outD : ℕ) (output : Output) : OutMux :=
  if s.outputEnabled output then (if 1 < outD then .channelDivider else .vco) else s.outMux output

/-- The factor `P` for a request. -/
def Lmx.factor (s : Lmx) (req : Request) : ℕ :=
  (phaseSync (s.muxAfter req.outD .rfOutputA) (s.muxAfter req.outD .rfOutputB)
    (getSyncCat s.syncMode 1 req.fOSC req.targetFreq req.outD)).1

/-- How much a unit of `N` is for the VCO, with this divider of the reference. -/
def Lmx.unit (s : Lmx) (req : Request) (pllR : ℕ) : ℚ := req.fOSC / pllR * s.factor req

/-- The denominator for a request. -/
def Lmx.den (s : Lmx) (req : Request) (pllR : ℕ) : ℕ :=
  Lmx2572.pllDen (req.fOSC / pllR) (s.factor req) req.spurDodging

/-- How much a unit of `NUM` is for the VCO. -/
def Lmx.step (s : Lmx) (req : Request) (pllR : ℕ) : ℚ := s.unit req pllR / s.den req pllR

/-- **The condition** for a request that passes the checks: the tables have a divider for the
reference, the modulator is of the third order, the frequency of the VCO is not within half a step
below a multiple of the unit, and not so near to an end of the range that it is rounded out of it,
and the least `N` is reached. -/
def Fits (minN : MashOrder → ℕ) (s : Lmx) (req : Request) (pllR : ℕ) : Prop :=
  s.refDivider req = some pllR ∧ 0 < pllR ∧ s.mashOrder = .thirdOrder ∧
  Int.fract (req.fVCO / s.unit req pllR) < 1 - 1 / (2 * s.den req pllR) ∧
  (⌈3200000000 / s.step req pllR⌉ - 1 / 2) * s.step req pllR ≤ req.fVCO ∧
  req.fVCO < (⌊6400000000 / s.step req pllR⌋ + 1 / 2) * s.step req pllR ∧
  minN .thirdOrder * s.unit req pllR ≤ req.fVCO

/-! ## The tables -/

section Tables

variable {req : Request} {s : Lmx}

theorem check_eq_ok : checkRequest req.targetFreq req.fOSC = .ok () ↔
    12500000 ≤ req.targetFreq ∧ req.targetFreq ≤ 6400000000 ∧ req.fOSC ∈ validFosc := by
  rw [checkRequest, maxOutFreq, minOutFreq]
  constructor
  · intro h
    split_ifs at h with hrange hvalid
    · rw [not_or, not_lt, not_lt] at hrange
      exact ⟨hrange.2, hrange.1, hvalid⟩
  · rintro ⟨hlow, hhigh, hvalid⟩
    rw [if_neg (not_or.mpr ⟨not_lt.mpr hhigh, not_lt.mpr hlow⟩), if_pos hvalid]

theorem exists_outDivider (hlow : 12500000 ≤ req.targetFreq) (hhigh : req.targetFreq ≤ 6400000000) :
    ∃ fmax outD chdiv, (outDivMap.find? fun entry => req.targetFreq < entry.1) =
        some (fmax, outD, chdiv) ∧ 3200000000 ≤ req.targetFreq * outD ∧
      req.targetFreq * outD ≤ 6400000000 ∧ 0 < outD ∧ (1 < outD → chdiv.divisor = outD) := by
  -- In an interval the divided ends are in the range.
  have hinterval : ∀ (k : ℕ) (rest : List (ℚ × ℕ × Chdiv)) (low high fmax : ℚ) (outD : ℕ)
      (chdiv : Chdiv), outDivMap.drop k = (fmax, outD, chdiv) :: rest →
      (∀ entry ∈ outDivMap.take k, entry.1 ≤ low) → low ≤ req.targetFreq →
      req.targetFreq ≤ high → req.targetFreq < fmax → 3200000000 ≤ low * outD →
      high * outD ≤ 6400000000 → 0 < outD → (1 < outD → chdiv.divisor = outD) →
      ∃ fmax outD chdiv, (outDivMap.find? fun entry => req.targetFreq < entry.1) =
          some (fmax, outD, chdiv) ∧ 3200000000 ≤ req.targetFreq * outD ∧
        req.targetFreq * outD ≤ 6400000000 ∧ 0 < outD ∧ (1 < outD → chdiv.divisor = outD) := by
    intro k rest low high fmax outD chdiv hdrop htake hle hge hlt hlowD hhighD hpos hdivisor
    refine ⟨fmax, outD, chdiv, ?_,
      hlowD.trans (mul_le_mul_of_nonneg_right hle (Nat.cast_nonneg outD)),
      (mul_le_mul_of_nonneg_right hge (Nat.cast_nonneg outD)).trans hhighD, hpos, hdivisor⟩
    have hnone : (outDivMap.take k).find? (fun entry => decide (req.targetFreq < entry.1)) = none :=
      List.find?_eq_none.mpr fun entry hentry =>
        decide_eq_true_iff.not.mpr ((htake entry hentry).trans hle).not_gt
    rw [← List.take_append_drop k outDivMap, List.find?_append, hnone, Option.none_or, hdrop]
    exact List.find?_cons_of_pos (decide_eq_true hlt)
  rcases lt_or_ge req.targetFreq 25000000 with h256 | h256
  · exact hinterval 0 _ 12500000 25000000 25000000 256 .divideBy256 rfl (by decide +kernel) hlow
      h256.le h256 (by norm_num) (by norm_num) (by norm_num) fun _ => rfl
  rcases lt_or_ge req.targetFreq 50000000 with h128 | h128
  · exact hinterval 1 _ 25000000 50000000 50000000 128 .divideBy128 rfl (by decide +kernel) h256
      h128.le h128 (by norm_num) (by norm_num) (by norm_num) fun _ => rfl
  rcases lt_or_ge req.targetFreq 100000000 with h64 | h64
  · exact hinterval 2 _ 50000000 100000000 100000000 64 .divideBy64 rfl (by decide +kernel) h128
      h64.le h64 (by norm_num) (by norm_num) (by norm_num) fun _ => rfl
  rcases lt_or_ge req.targetFreq 200000000 with h32 | h32
  · exact hinterval 3 _ 100000000 200000000 200000000 32 .divideBy32 rfl (by decide +kernel) h64
      h32.le h32 (by norm_num) (by norm_num) (by norm_num) fun _ => rfl
  rcases lt_or_ge req.targetFreq 400000000 with h16 | h16
  · exact hinterval 4 _ 200000000 400000000 400000000 16 .divideBy16 rfl (by decide +kernel) h32
      h16.le h16 (by norm_num) (by norm_num) (by norm_num) fun _ => rfl
  rcases lt_or_ge req.targetFreq 800000000 with h8 | h8
  · exact hinterval 5 _ 400000000 800000000 800000000 8 .divideBy8 rfl (by decide +kernel) h16
      h8.le h8 (by norm_num) (by norm_num) (by norm_num) fun _ => rfl
  rcases lt_or_ge req.targetFreq 1600000000 with h4 | h4
  · exact hinterval 6 _ 800000000 1600000000 1600000000 4 .divideBy4 rfl (by decide +kernel) h8
      h4.le h4 (by norm_num) (by norm_num) (by norm_num) fun _ => rfl
  rcases lt_or_ge req.targetFreq 3200000000 with h2 | h2
  · exact hinterval 7 _ 1600000000 3200000000 3200000000 2 .divideBy2 rfl (by decide +kernel) h4
      h2.le h2 (by norm_num) (by norm_num) (by norm_num) fun _ => rfl
  -- The last key is beyond the range, so that its end is found.
  exact hinterval 8 _ 3200000000 6400000000 6400000001 1 .divideBy2 rfl (by decide +kernel) h2 hhigh
    (by linarith) (by norm_num) (by norm_num) (by norm_num) fun h => absurd h (by norm_num)

theorem validFosc_mem {fOSC : ℚ} (h : fOSC ∈ validFosc) : 30720000 ≤ fOSC ∧ fOSC ≤ 64000000 := by
  have hall : ∀ fOSC ∈ validFosc, 30720000 ≤ fOSC ∧ fOSC ≤ 64000000 := by decide +kernel
  exact hall fOSC h

theorem postDivider_le {syncMode : Bool} {fTARGET fVCO : ℚ} {fOSCInt pllR : ℕ}
    (h : postDivider syncMode fTARGET fVCO fOSCInt = some pllR) : pllR ≤ 2 := by
  rw [postDivider] at h
  split_ifs at h <;> cases h <;> norm_num

theorem phaseSync_mem (outaMux outbMux : OutMux) (cat : SyncCat) :
    1 ≤ (phaseSync outaMux outbMux cat).1 ∧ (phaseSync outaMux outbMux cat).1 ≤ 2 := by
  cases cat with
  | cat3 =>
    rw [phaseSync]
    split_ifs <;> norm_num
  | _ => simp [phaseSync]

theorem unit_mem {pllR : ℕ} (hfosc : req.fOSC ∈ validFosc) (hpos : 0 < pllR) (hle : pllR ≤ 2) :
    15360000 ≤ s.unit req pllR ∧ s.unit req pllR ≤ 128000000 := by
  obtain ⟨hlow, hhigh⟩ := validFosc_mem hfosc
  obtain ⟨hp, hp'⟩ : 1 ≤ s.factor req ∧ s.factor req ≤ 2 := phaseSync_mem _ _ _
  have hpllR : pllR = 1 ∨ pllR = 2 := by omega
  have hfactor : s.factor req = 1 ∨ s.factor req = 2 := by omega
  rw [Lmx.unit]
  rcases hpllR with rfl | rfl <;> rcases hfactor with h | h <;> rw [h] <;>
    constructor <;> push_cast <;> linarith

theorem pllDen_mem (fPD : ℚ) (p : ℕ) (spurDodging : Bool) :
    0 < pllDen fPD p spurDodging ∧ pllDen fPD p spurDodging < 2 ^ 32 := by
  rw [pllDen]
  generalize ⌈fPD * p / (if spurDodging then 2000000 else 1)⌉ = den
  omega

theorem exists_vcoCore {fVCO : ℚ} (hlow : 3200000000 ≤ fVCO) (hhigh : fVCO ≤ 6400000000) :
    ∃ core ∈ vcoCores, vcoCore? fVCO = some core ∧ core.fmin ≤ fVCO ∧ fVCO ≤ core.fmax := by
  -- Each core begins where the one before it ends.
  have hinterval : ∀ (k : ℕ) (core : VcoCore) (rest : List VcoCore) (low : ℚ),
      vcoCores.drop k = core :: rest → (∀ other ∈ vcoCores.take k, other.fmax ≤ low) → low < fVCO →
      core.fmin ≤ fVCO → fVCO ≤ core.fmax →
      ∃ core ∈ vcoCores, vcoCore? fVCO = some core ∧ core.fmin ≤ fVCO ∧ fVCO ≤ core.fmax := by
    intro k core rest low hdrop htake hlt hle hge
    have hmem : core ∈ vcoCores.drop k := hdrop ▸ List.mem_cons_self
    refine ⟨core, List.mem_of_mem_drop hmem, ?_, hle, hge⟩
    have hnone : (vcoCores.take k).find? (fun other => decide (fVCO ≤ other.fmax)) = none :=
      List.find?_eq_none.mpr fun other hother =>
        decide_eq_true_iff.not.mpr ((htake other hother).trans_lt hlt).not_ge
    rw [vcoCore?, ← List.take_append_drop k vcoCores, List.find?_append, hnone, Option.none_or,
      hdrop]
    exact List.find?_cons_of_pos (decide_eq_true hge)
  rcases le_or_gt fVCO 3650000000 with h1 | h1
  · exact hinterval 0 _ _ 0 rfl (by decide +kernel) (by linarith) hlow h1
  rcases le_or_gt fVCO 4200000000 with h2 | h2
  · exact hinterval 1 _ _ 3650000000 rfl (by decide +kernel) h1 h1.le h2
  rcases le_or_gt fVCO 4650000000 with h3 | h3
  · exact hinterval 2 _ _ 4200000000 rfl (by decide +kernel) h2 h2.le h3
  rcases le_or_gt fVCO 5200000000 with h4 | h4
  · exact hinterval 3 _ _ 4650000000 rfl (by decide +kernel) h3 h3.le h4
  rcases le_or_gt fVCO 5750000000 with h5 | h5
  · exact hinterval 4 _ _ 5200000000 rfl (by decide +kernel) h4 h4.le h5
  exact hinterval 5 _ _ 5750000000 rfl (by decide +kernel) h5 h5.le hhigh

end Tables

/-! ## Parts of a run -/

section Parts

variable {s : Lmx} {req : Request}

theorem get_bind {α : Type} (f : Lmx → Prog α) : (get >>= f : Prog α) s = f s s := rfl

theorem modify_bind {α : Type} (g : Lmx → Lmx) (f : PUnit → Prog α) :
    (modify g >>= f : Prog α) s = f ⟨⟩ (g s) := rfl

theorem toUInt_intCast {bits : ℕ} {z : ℤ} (hnonneg : 0 ≤ z) (hlt : z < 2 ^ bits) :
    toUInt bits z s = .ok z.toNat s := by
  have hlow : (-1 : ℚ) < z := by
    have hcast : (0 : ℚ) ≤ z := Int.cast_nonneg hnonneg
    linarith
  have hhigh : (z : ℚ) < 2 ^ bits := by exact_mod_cast hlt
  rw [toUInt, if_pos ⟨hlow, hhigh⟩, truncInt, if_pos (Int.cast_nonneg hnonneg), Int.floor_intCast]
  rfl

theorem assertThrow_of {code : Prop} [Decidable code] (h : code) (what : String) :
    assertThrow code what s = .ok ⟨⟩ s := by
  rw [assertThrow, if_pos h]
  rfl

theorem assertThrow_of_not {code : Prop} [Decidable code] (h : ¬ code) (what : String) :
    assertThrow code what s = .error (.threw (.assertionError what)) s := by
  rw [assertThrow, if_neg h]
  rfl

theorem setOutputDivider_eq {fmax : ℚ} {outD : ℕ} {chdiv : Chdiv}
    (hfind : (outDivMap.find? fun entry => req.targetFreq < entry.1) = some (fmax, outD, chdiv)) :
    setOutputDivider req.targetFreq s = .ok outD { s with
      chdiv
      outaMux := s.muxAfter outD .rfOutputA
      outbMux := s.muxAfter outD .rfOutputB } := by
  rw [setOutputDivider, hfind]
  obtain ⟨syncMode, outaPd, outbPd⟩ := s
  by_cases hdivided : 1 < outD
  · cases outaPd <;> cases outbPd <;> simp [Lmx.muxAfter, hdivided] <;> rfl
  · cases outaPd <;> cases outbPd <;> simp [Lmx.muxAfter, hdivided] <;> rfl

theorem setPllDivAndMult_eq {fOSCInt pllR : ℕ} {fTARGET fVCO : ℚ}
    (hdivider : postDivider s.syncMode fTARGET fVCO fOSCInt = some pllR) (hpos : 0 < pllR) :
    setPllDivAndMult fTARGET fVCO fOSCInt s =
      .ok ⟨⟩ { s with pllRPre := 1, mult := 1, osc2x := false, pllR } := by
  rw [setPllDivAndMult, modify_bind, get_bind]
  dsimp only
  rw [hdivider]
  dsimp only
  rw [bind_of_ok (assertThrow_of hpos _), modify_bind, get_bind]
  exact assertThrow_of (Or.inl rfl) _

theorem setPllDivAndMult_of_hole {fOSCInt : ℕ} {fTARGET fVCO : ℚ}
    (hhole : ∀ pllR, postDivider s.syncMode fTARGET fVCO fOSCInt = some pllR → ¬ 0 < pllR) :
    ∃ halt t, setPllDivAndMult fTARGET fVCO fOSCInt s = .error halt t := by
  rw [setPllDivAndMult, modify_bind, get_bind]
  dsimp only
  cases hdivider : postDivider s.syncMode fTARGET fVCO fOSCInt with
  | none => exact ⟨_, _, rfl⟩
  | some pllR => exact ⟨_, _, bind_of_error (assertThrow_of_not (hhole pllR hdivider) _) _⟩

theorem setPfdDly_eq {fVCO : ℚ} (hmash : s.mashOrder = .thirdOrder) (hlow : 3200000000 ≤ fVCO)
    (hhigh : fVCO ≤ 6400000000) :
    ∃ pfdDlySel, setPfdDly fVCO s = .ok ⟨⟩ { s with pfdDlySel } := by
  rw [setPfdDly, get_bind, bind_of_ok (assertThrow_of hmash _)]
  rcases lt_or_ge fVCO 4000000000 with h | h
  · rw [if_pos ⟨hlow, h⟩]
    exact ⟨2, rfl⟩
  rcases lt_or_ge fVCO 4900000000 with h' | h'
  · rw [if_neg (not_and_of_not_right _ h.not_gt), if_pos ⟨h, h'⟩]
    exact ⟨2, rfl⟩
  · rw [if_neg (not_and_of_not_right _ h.not_gt), if_neg (not_and_of_not_right _ h'.not_gt),
      if_pos ⟨h', hhigh⟩]
    exact ⟨3, rfl⟩

theorem setPfdDly_of_ne (fVCO : ℚ) (hmash : s.mashOrder ≠ .thirdOrder) :
    ∃ halt t, setPfdDly fVCO s = .error halt t := by
  rw [setPfdDly, get_bind]
  exact ⟨_, _, bind_of_error (assertThrow_of_not hmash _) _⟩

theorem setMashSeed_eq {pfd : ℚ} (spurDodging : Bool) (pllNum : ℕ) (hpfd : pfd ≤ 64000000) :
    ∃ seed, setMashSeed spurDodging pllNum pfd s =
      .ok ⟨⟩ { s with mashSeedUpper := seed / 65536 % 65536, mashSeedLower := seed % 65536 } := by
  rw [setMashSeed, mashSeed]
  split_ifs with hzero
  · exact ⟨0, rfl⟩
  · have hlast : (seedMap.find? fun entry => pfd ≤ entry.1).isSome :=
      List.find?_isSome.mpr ⟨(64000000, 7993), by decide +kernel, decide_eq_true hpfd⟩
    obtain ⟨⟨key, seed⟩, hfind⟩ := Option.isSome_iff_exists.mp hlast
    rw [hfind]
    exact ⟨seed, rfl⟩

theorem exists_mashRstCount {fOSC : ℚ} (hfosc : fOSC ∈ validFosc) :
    ∃ mashRstCount, toUInt 32
      ⌈4 * pllLockTime / ((if s.calClkDiv = 0 then (1 : ℚ) else 2) / fOSC)⌉ s =
        .ok mashRstCount s := by
  obtain ⟨hlow, hhigh⟩ := validFosc_mem hfosc
  have hquotient : 0 ≤ 4 * pllLockTime / ((if s.calClkDiv = 0 then (1 : ℚ) else 2) / fOSC) ∧
      4 * pllLockTime / ((if s.calClkDiv = 0 then (1 : ℚ) else 2) / fOSC) ≤ 51200 := by
    rw [pllLockTime]
    split_ifs
    · rw [div_div_eq_mul_div]
      constructor <;> linarith
    · rw [div_div_eq_mul_div]
      constructor <;> linarith
  refine ⟨_, toUInt_intCast (Int.ceil_nonneg hquotient.1) ?_⟩
  refine (Int.ceil_le.mpr ?_).trans_lt (show (51200 : ℤ) < 2 ^ 32 by norm_num)
  rw [Int.cast_ofNat]
  exact hquotient.2

theorem computeAndSetChargePumpGain_eq {fVCO : ℚ} (nReal : ℚ) (hlow : 3200000000 ≤ fVCO)
    (hhigh : fVCO ≤ 6400000000) :
    ∃ cpg, computeAndSetChargePumpGain fVCO nReal s = .ok ⟨⟩ { s with cpg } := by
  obtain ⟨core, hcore, hfind, -, -⟩ := exists_vcoCore hlow hhigh
  have hne : ∀ core ∈ vcoCores, core.fmin ≠ core.fmax := by decide +kernel
  have hkvco : ∃ kvco, linearInterp fVCO core.fmin core.kvcoMin core.fmax core.kvcoMax = .ok kvco :=
    ⟨_, if_neg (hne core hcore)⟩
  obtain ⟨kvco, hkvco⟩ := hkvco
  rw [computeAndSetChargePumpGain, hfind]
  dsimp only
  rw [hkvco, orThrow, pure_bind]
  have hmap : cpgMap.entries ≠ [] := by decide +kernel
  rcases exists_bounding hmap
      (2 * pi * targetLoopBandwidth * nReal / (kvco * loopGainSettingResistance)) with
    ⟨entry, -, -, hread⟩ | ⟨lo, hi, -, -, hread⟩
  · rw [atNearest, hread, orThrow, pure_bind]
    exact ⟨_, rfl⟩
  · rw [atNearest, hread, orThrow, pure_bind]
    exact ⟨_, rfl⟩

theorem exists_toUInt_rounded {x xmin xmax y0 y1 : ℚ} (hlow : xmin ≤ x) (hhigh : x ≤ xmax)
    (hlt : xmin < xmax) (hy : y1 ≤ y0) (hnonneg : 0 ≤ y1) (hle : y0 ≤ 256) :
    ∃ n, ∀ s, toUInt 16 (stdRound (y0 - (x - xmin) * (y0 - y1) / (xmax - xmin))) s = .ok n s := by
  obtain ⟨y, hy', hbetween, -⟩ := linearInterp_spec y0 y1 hlow hhigh hlt
  rw [linearInterp, if_neg hlt.ne, Except.ok.injEq] at hy'
  have heq : y0 - (x - xmin) * (y0 - y1) / (xmax - xmin) = y := by
    rw [← hy']
    ring
  obtain ⟨hge, hlt'⟩ := hbetween
  rw [min_eq_right hy] at hge
  rw [max_eq_left hy] at hlt'
  have hynonneg : 0 ≤ y := hnonneg.trans hge
  rw [heq]
  refine ⟨_, fun s => toUInt_intCast (z := stdRound y) ?_ ?_⟩
  · rw [stdRound, if_pos hynonneg]
    exact Int.floor_nonneg.mpr (by linarith)
  · rw [stdRound, if_pos hynonneg]
    refine Int.floor_lt.mpr ?_
    push_cast
    linarith

theorem computeAndSetVcoCal_eq {fVCO : ℚ} (hlow : 3200000000 ≤ fVCO) (hhigh : fVCO ≤ 6400000000) :
    ∃ vcoSel vcoCapctrlStrt vcoDacisetStrt, computeAndSetVcoCal fVCO s =
      .ok ⟨⟩ { s with vcoSel, vcoCapctrlStrt, vcoDacisetStrt } := by
  obtain ⟨core, hcore, hfind, hmin, hmax⟩ := exists_vcoCore hlow hhigh
  have hcores : ∀ core ∈ vcoCores, core.fmin < core.fmax ∧ core.cMax ≤ core.cMin ∧ 0 ≤ core.cMax ∧
      core.cMin ≤ 256 ∧ core.aMax ≤ core.aMin ∧ 0 ≤ core.aMax ∧ core.aMin ≤ 256 := by
    decide +kernel
  obtain ⟨hlt, hc, hc0, hc256, ha, ha0, ha256⟩ := hcores core hcore
  obtain ⟨capctrl, hcapctrl⟩ := exists_toUInt_rounded hmin hmax hlt hc hc0 hc256
  obtain ⟨daciset, hdaciset⟩ := exists_toUInt_rounded hmin hmax hlt ha ha0 ha256
  rw [computeAndSetVcoCal, hfind]
  dsimp only
  rw [bind_of_ok (hcapctrl s), bind_of_ok (hdaciset s)]
  exact ⟨_, _, _, rfl⟩

end Parts

/-! ## The end of a run -/

section Finish

variable {s : Lmx} {fOSC fPD fVCOActual nReal : ℚ} {spurDodging : Bool} {n num den outD : ℕ}

/-- The fields that say which frequency is produced, without those of `N`, `NUM` and `DEN`. -/
structure SameDividers (s t : Lmx) : Prop where
  syncMode : t.syncMode = s.syncMode
  outputEnabled : t.outputEnabled = s.outputEnabled
  outaMux : t.outaMux = s.outaMux
  outbMux : t.outbMux = s.outbMux
  chdiv : t.chdiv = s.chdiv
  mult : t.mult = s.mult
  pfd : t.pfd = s.pfd
  mashOrder : t.mashOrder = s.mashOrder

theorem SameDividers.trans {s t u : Lmx} (h : SameDividers s t) (h' : SameDividers t u) :
    SameDividers s u where
  syncMode := h'.syncMode.trans h.syncMode
  outputEnabled := h'.outputEnabled.trans h.outputEnabled
  outaMux := h'.outaMux.trans h.outaMux
  outbMux := h'.outbMux.trans h.outbMux
  chdiv := h'.chdiv.trans h.chdiv
  mult := h'.mult.trans h.mult
  pfd := h'.pfd.trans h.pfd
  mashOrder := h'.mashOrder.trans h.mashOrder

/-- All fields that say which frequency is produced. -/
structure Kept (s t : Lmx) : Prop extends SameDividers s t where
  pllN : t.pllN = s.pllN
  pllNum : t.pllNum = s.pllNum
  pllDen : t.pllDen = s.pllDen

theorem Kept.trans {s t u : Lmx} (h : Kept s t) (h' : Kept t u) : Kept s u where
  toSameDividers := h.toSameDividers.trans h'.toSameDividers
  pllN := h'.pllN.trans h.pllN
  pllNum := h'.pllNum.trans h.pllNum
  pllDen := h'.pllDen.trans h.pllDen

/-- The computation ends normally and keeps these fields. -/
def Keeps (x : Prog PUnit) (s : Lmx) : Prop := ∃ t, x s = .ok ⟨⟩ t ∧ Kept s t

theorem keeps_multHi (fOSC : ℚ) (s : Lmx) : Keeps (computeAndSetMultHi fOSC) s :=
  ⟨_, rfl, ⟨rfl, rfl, rfl, rfl, rfl, rfl, rfl, rfl⟩, rfl, rfl, rfl⟩

theorem keeps_fcalHpfdAdj (fPD : ℚ) (s : Lmx) : Keeps (setFcalHpfdAdj fPD) s :=
  ⟨_, rfl, ⟨rfl, rfl, rfl, rfl, rfl, rfl, rfl, rfl⟩, rfl, rfl, rfl⟩

theorem keeps_fcalLpfdAdj (fPD : ℚ) (s : Lmx) : Keeps (setFcalLpfdAdj fPD) s :=
  ⟨_, rfl, ⟨rfl, rfl, rfl, rfl, rfl, rfl, rfl, rfl⟩, rfl, rfl, rfl⟩

theorem keeps_pfdDly (hmash : s.mashOrder = .thirdOrder) (hlow : 3200000000 ≤ fVCOActual)
    (hhigh : fVCOActual ≤ 6400000000) : Keeps (setPfdDly fVCOActual) s := by
  obtain ⟨_, h⟩ := setPfdDly_eq hmash hlow hhigh
  exact ⟨_, h, ⟨rfl, rfl, rfl, rfl, rfl, rfl, rfl, rfl⟩, rfl, rfl, rfl⟩

theorem keeps_mashSeed (spurDodging : Bool) (num : ℕ) (s : Lmx) (hpfd : fPD ≤ 64000000) :
    Keeps (setMashSeed spurDodging num fPD) s := by
  obtain ⟨_, h⟩ := setMashSeed_eq spurDodging num hpfd
  exact ⟨_, h, ⟨rfl, rfl, rfl, rfl, rfl, rfl, rfl, rfl⟩, rfl, rfl, rfl⟩

theorem keeps_chargePumpGain (nReal : ℚ) (s : Lmx) (hlow : 3200000000 ≤ fVCOActual)
    (hhigh : fVCOActual ≤ 6400000000) :
    Keeps (computeAndSetChargePumpGain fVCOActual nReal) s := by
  obtain ⟨_, h⟩ := computeAndSetChargePumpGain_eq nReal hlow hhigh
  exact ⟨_, h, ⟨rfl, rfl, rfl, rfl, rfl, rfl, rfl, rfl⟩, rfl, rfl, rfl⟩

theorem keeps_vcoCal (hlow : 3200000000 ≤ fVCOActual) (hhigh : fVCOActual ≤ 6400000000) :
    Keeps (computeAndSetVcoCal fVCOActual) s := by
  obtain ⟨_, _, _, h⟩ := computeAndSetVcoCal_eq hlow hhigh
  exact ⟨_, h, ⟨rfl, rfl, rfl, rfl, rfl, rfl, rfl, rfl⟩, rfl, rfl, rfl⟩

/-- What `set_frequency` does once the frequency of the VCO is known to be in its range. -/
def finish (fOSC fPD fVCOActual nReal : ℚ) (spurDodging : Bool) (n num den outD : ℕ) : Prog ℚ := do
  computeAndSetMultHi fOSC
  setPllN n
  setPllNum num
  setPllDen den
  setFcalHpfdAdj fPD
  setFcalLpfdAdj fPD
  setPfdDly fVCOActual
  setMashSeed spurDodging num fPD
  let s ← get
  if s.syncMode then
    let period := (if s.calClkDiv = 0 then (1 : ℚ) else 2) / fOSC
    let mashRstCount ← toUInt 32 ⌈4 * pllLockTime / period⌉
    setMashRstCount mashRstCount
  computeAndSetChargePumpGain fVCOActual nReal
  computeAndSetVcoCal fVCOActual
  pure (fVCOActual / outD)

theorem setPllN_eq (hn : n < 524288) : setPllN n s =
    .ok ⟨⟩ { s with pllNUpper3Bits := n / 65536 % 8, pllNLower16Bits := n % 65536 } := by
  rw [setPllN, bind_of_ok (assertThrow_of (Nat.mod_eq_of_lt hn) _)]
  rfl

theorem exists_setPll (hn : n < 524288) (hnum : num < 2 ^ 32) (hden : den < 2 ^ 32) :
    ∃ t u v, setPllN n s = .ok ⟨⟩ t ∧ setPllNum num t = .ok ⟨⟩ u ∧ setPllDen den u = .ok ⟨⟩ v ∧
      SameDividers s v ∧ v.pllN = n ∧ v.pllNum = num ∧ v.pllDen = den := by
  refine ⟨_, _, _, setPllN_eq hn, rfl, rfl, ⟨rfl, rfl, rfl, rfl, rfl, rfl, rfl, rfl⟩, ?_, ?_, ?_⟩
  · dsimp only [Lmx.pllN]
    omega
  · dsimp only [Lmx.pllNum]
    omega
  · dsimp only [Lmx.pllDen]
    omega

theorem finish_of_ne (fOSC fPD fVCOActual nReal : ℚ) (spurDodging : Bool) (outD : ℕ)
    (hn : n < 524288) (hnum : num < 2 ^ 32) (hden : den < 2 ^ 32)
    (hmash : s.mashOrder ≠ .thirdOrder) :
    ∃ halt t, finish fOSC fPD fVCOActual nReal spurDodging n num den outD s = .error halt t := by
  obtain ⟨s1, h1, hkept1⟩ := keeps_multHi fOSC s
  obtain ⟨t, u, s2, hn', hnum', hden', hsame2, -⟩ := exists_setPll (s := s1) hn hnum hden
  obtain ⟨s3, h3, hkept3⟩ := keeps_fcalHpfdAdj fPD s2
  obtain ⟨s4, h4, hkept4⟩ := keeps_fcalLpfdAdj fPD s3
  have hmash4 : s4.mashOrder ≠ .thirdOrder := by
    rw [hkept4.mashOrder, hkept3.mashOrder, hsame2.mashOrder, hkept1.mashOrder]
    exact hmash
  obtain ⟨halt, t', ht'⟩ := setPfdDly_of_ne fVCOActual hmash4
  refine ⟨halt, t', ?_⟩
  rw [finish, bind_of_ok h1, bind_of_ok hn', bind_of_ok hnum', bind_of_ok hden', bind_of_ok h3,
    bind_of_ok h4, bind_of_error ht']

theorem exists_finish (nReal : ℚ) (spurDodging : Bool) (outD : ℕ) (hfosc : fOSC ∈ validFosc)
    (hpfd : fPD ≤ 64000000)
    (hlow : 3200000000 ≤ fVCOActual) (hhigh : fVCOActual ≤ 6400000000)
    (hmash : s.mashOrder = .thirdOrder) (hn : n < 524288) (hnum : num < 2 ^ 32)
    (hden : den < 2 ^ 32) :
    ∃ t, finish fOSC fPD fVCOActual nReal spurDodging n num den outD s =
        .ok (fVCOActual / outD) t ∧ SameDividers s t ∧ t.pllN = n ∧ t.pllNum = num ∧
      t.pllDen = den := by
  obtain ⟨s1, h1, hkept1⟩ := keeps_multHi fOSC s
  obtain ⟨t, u, s2, hn', hnum', hden', hsame2, hpllN, hpllNum, hpllDen⟩ :=
    exists_setPll (s := s1) hn hnum hden
  obtain ⟨s3, h3, hkept3⟩ := keeps_fcalHpfdAdj fPD s2
  obtain ⟨s4, h4, hkept4⟩ := keeps_fcalLpfdAdj fPD s3
  have hmash4 : s4.mashOrder = .thirdOrder := by
    rw [hkept4.mashOrder, hkept3.mashOrder, hsame2.mashOrder, hkept1.mashOrder]
    exact hmash
  obtain ⟨s5, h5, hkept5⟩ := keeps_pfdDly hmash4 hlow hhigh
  obtain ⟨s6, h6, hkept6⟩ := keeps_mashSeed spurDodging num s5 hpfd
  -- The count is programmed in sync mode only.
  have hcount : ∃ s7, (∀ x : Prog ℚ, (do
      if s6.syncMode then
        let period := (if s6.calClkDiv = 0 then (1 : ℚ) else 2) / fOSC
        let mashRstCount ← toUInt 32 ⌈4 * pllLockTime / period⌉
        setMashRstCount mashRstCount
      x) s6 = x s7) ∧ Kept s6 s7 := by
    by_cases hsync : s6.syncMode
    · obtain ⟨count, hcount⟩ := exists_mashRstCount (s := s6) hfosc
      refine ⟨{ s6 with
        mashRstCountUpper := count / 65536 % 65536, mashRstCountLower := count % 65536 },
        fun x => ?_, ⟨rfl, rfl, rfl, rfl, rfl, rfl, rfl, rfl⟩, rfl, rfl, rfl⟩
      rw [if_pos hsync, bind_of_ok hcount, setMashRstCount, modify_bind]
    · refine ⟨s6, fun x => ?_, ⟨rfl, rfl, rfl, rfl, rfl, rfl, rfl, rfl⟩, rfl, rfl, rfl⟩
      rw [if_neg hsync]
  obtain ⟨s7, h7, hkept7⟩ := hcount
  obtain ⟨s8, h8, hkept8⟩ := keeps_chargePumpGain nReal s7 hlow hhigh
  obtain ⟨s9, h9, hkept9⟩ := keeps_vcoCal (s := s8) hlow hhigh
  have hkept : Kept s2 s9 := ((((((hkept3.trans hkept4).trans hkept5).trans hkept6).trans
    hkept7).trans hkept8).trans hkept9)
  refine ⟨s9, ?_, (hkept1.toSameDividers.trans hsame2).trans hkept.toSameDividers,
    hkept.pllN.trans hpllN, hkept.pllNum.trans hpllNum, hkept.pllDen.trans hpllDen⟩
  rw [finish, bind_of_ok h1, bind_of_ok hn', bind_of_ok hnum', bind_of_ok hden', bind_of_ok h3,
    bind_of_ok h4, bind_of_ok h5, bind_of_ok h6, get_bind]
  refine (h7 _).trans ?_
  rw [bind_of_ok h8, bind_of_ok h9]
  rfl

end Finish

/-! ## Whole runs -/

section Runs

variable {s t : Lmx} {req : Request} {pllR : ℕ}

/-- What the dividers are once they are programmed. -/
structure Divided (s : Lmx) (req : Request) (pllR : ℕ) (t : Lmx) : Prop where
  syncMode : t.syncMode = s.syncMode
  outputEnabled : t.outputEnabled = s.outputEnabled
  outaMux : t.outaMux = s.muxAfter req.outD .rfOutputA
  outbMux : t.outbMux = s.muxAfter req.outD .rfOutputB
  divisor : 1 < req.outD → t.chdiv.divisor = req.outD
  mult : t.mult = 1
  pfd : t.pfd req.fOSC = req.fOSC / pllR
  mashOrder : t.mashOrder = s.mashOrder

/-- What `set_frequency` does once the dividers are programmed. -/
def afterDivided (fOSC fPD fVCO : ℚ) (p outD : ℕ) (spurDodging : Bool) : Prog ℚ := do
  let den := pllDen fPD p spurDodging
  assertThrow (0 < den) "PLL_DEN > 0"
  let nReal := fVCO / (fPD * p)
  let n ← toUInt 32 ⌊nReal⌋
  let pllNum ← toUInt 32 (stdRound ((nReal - n) * den))
  let fVCOActual := fPD * p * (n + pllNum / den)
  assertThrow (3200000000 ≤ fVCOActual ∧ fVCOActual ≤ 6400000000)
    "3200e6 <= fVCO_actual && fVCO_actual <= 6400e6"
  finish fOSC fPD fVCOActual nReal spurDodging n pllNum den outD

theorem outD_of_find {fmax : ℚ} {outD : ℕ} {chdiv : Chdiv}
    (hfind : (outDivMap.find? fun entry => req.targetFreq < entry.1) = some (fmax, outD, chdiv)) :
    req.outD = outD := by
  rw [Request.outD, hfind]
  rfl

theorem fVCO_mem (hcheck : checkRequest req.targetFreq req.fOSC = .ok ()) :
    3200000000 ≤ req.fVCO ∧ req.fVCO ≤ 6400000000 ∧ 0 < req.outD := by
  obtain ⟨hlow, hhigh, -⟩ := check_eq_ok.mp hcheck
  obtain ⟨fmax, outD, chdiv, hfind, hlow', hhigh', hpos, -⟩ := exists_outDivider hlow hhigh
  rw [Request.fVCO, outD_of_find hfind]
  exact ⟨hlow', hhigh', hpos⟩

theorem toUInt_fOSC (hfosc : req.fOSC ∈ validFosc) :
    toUInt 64 req.fOSC s = .ok ⌊req.fOSC⌋₊ s := by
  obtain ⟨hlow, hhigh⟩ := validFosc_mem hfosc
  have hlt : req.fOSC < 2 ^ 64 := hhigh.trans_lt (by norm_num)
  rw [toUInt, if_pos ⟨by linarith, hlt⟩, truncInt, if_pos (by linarith)]
  rfl

theorem setFrequency_of_hole (hcheck : checkRequest req.targetFreq req.fOSC = .ok ())
    (hhole : ∀ pllR, s.refDivider req = some pllR → ¬ 0 < pllR) :
    ∃ halt t, setFrequency req.targetFreq req.fOSC req.spurDodging s = .error halt t := by
  obtain ⟨hlow, hhigh, hfosc⟩ := check_eq_ok.mp hcheck
  obtain ⟨fmax, outD, chdiv, hfind, hlow', hhigh', -⟩ := exists_outDivider hlow hhigh
  have hdivided := setOutputDivider_eq (s := s) hfind
  have hfVCO : req.targetFreq * outD = req.fVCO := by rw [Request.fVCO, outD_of_find hfind]
  rw [setFrequency, hcheck, orThrow, pure_bind, bind_of_ok (toUInt_fOSC hfosc),
    bind_of_ok hdivided]
  dsimp only
  rw [bind_of_ok (assertThrow_of ⟨hlow', hhigh'⟩ _), hfVCO]
  obtain ⟨halt, t, ht⟩ := setPllDivAndMult_of_hole (s := { s with
    chdiv, outaMux := s.muxAfter outD .rfOutputA, outbMux := s.muxAfter outD .rfOutputB }) hhole
  exact ⟨halt, t, bind_of_error ht _⟩

/-- The state with the dividers programmed. -/
def Lmx.divided (s : Lmx) (chdiv : Chdiv) (outD pllR : ℕ) : Lmx :=
  { s with
    chdiv
    outaMux := s.muxAfter outD .rfOutputA
    outbMux := s.muxAfter outD .rfOutputB
    pllRPre := 1
    mult := 1
    osc2x := false
    pllR }

theorem exists_divided (hcheck : checkRequest req.targetFreq req.fOSC = .ok ())
    (hdivider : s.refDivider req = some pllR) (hpos : 0 < pllR) :
    ∃ t, Divided s req pllR t ∧ setFrequency req.targetFreq req.fOSC req.spurDodging s =
      afterDivided req.fOSC (req.fOSC / pllR) req.fVCO (s.factor req) req.outD req.spurDodging
        t := by
  obtain ⟨hlow, hhigh, hfosc⟩ := check_eq_ok.mp hcheck
  obtain ⟨fmax, outD, chdiv, hfind, hlow', hhigh', -, hdivisor⟩ := exists_outDivider hlow hhigh
  have houtD := outD_of_find hfind
  have hfVCO : req.targetFreq * outD = req.fVCO := by rw [Request.fVCO, houtD]
  have hpfd : (s.divided chdiv outD pllR).pfd req.fOSC = req.fOSC / pllR := by
    rw [Lmx.pfd, Lmx.divided, Bool.toNat_false]
    push_cast
    ring
  have hrun : setFrequency req.targetFreq req.fOSC req.spurDodging s =
      afterDivided req.fOSC ((s.divided chdiv outD pllR).pfd req.fOSC) req.fVCO
        (phaseSync (s.muxAfter outD .rfOutputA) (s.muxAfter outD .rfOutputB)
          (getSyncCat s.syncMode 1 req.fOSC req.targetFreq outD)).1 outD req.spurDodging
        { s.divided chdiv outD pllR with
          vcoPhaseSyncEn := (phaseSync (s.muxAfter outD .rfOutputA) (s.muxAfter outD .rfOutputB)
            (getSyncCat s.syncMode 1 req.fOSC req.targetFreq outD)).2 } := by
    rw [setFrequency, hcheck, orThrow, pure_bind, bind_of_ok (toUInt_fOSC hfosc),
      bind_of_ok (setOutputDivider_eq (s := s) hfind)]
    dsimp only
    rw [bind_of_ok (assertThrow_of ⟨hlow', hhigh'⟩ _), hfVCO,
      bind_of_ok (setPllDivAndMult_eq (s := { s with
        chdiv, outaMux := s.muxAfter outD .rfOutputA, outbMux := s.muxAfter outD .rfOutputB })
        hdivider hpos), get_bind]
    dsimp only
    rw [setPhaseSync, bind_assoc, get_bind, bind_assoc, modify_bind, pure_bind]
    rfl
  refine ⟨{ s.divided chdiv outD pllR with
    vcoPhaseSyncEn := (phaseSync (s.muxAfter outD .rfOutputA) (s.muxAfter outD .rfOutputB)
      (getSyncCat s.syncMode 1 req.fOSC req.targetFreq outD)).2 },
    ⟨rfl, rfl, ?_, ?_, ?_, rfl, hpfd, rfl⟩, ?_⟩
  · rw [houtD]
    rfl
  · rw [houtD]
    rfl
  · rw [houtD]
    exact hdivisor
  · rw [hrun, hpfd, Lmx.factor, houtD]

theorem unit_mul_fraction (hunit : 0 < s.unit req pllR) (hden : 0 < s.den req pllR) :
    s.unit req pllR * (⌊req.fVCO / s.unit req pllR⌋ +
      roundedNum (req.fVCO / s.unit req pllR) (s.den req pllR) / s.den req pllR) =
    s.step req pllR * ⌊req.fVCO / s.step req pllR + 1 / 2⌋ := by
  have hden' : (0 : ℚ) < s.den req pllR := Nat.cast_pos.mpr hden
  have hstep : req.fVCO / s.step req pllR = req.fVCO / s.unit req pllR * s.den req pllR := by
    rw [Lmx.step]
    field_simp
  rw [hstep, ← fraction_spec _ hden, Lmx.step]
  field_simp

theorem cast_toNat {z : ℤ} (h : 0 ≤ z) : ((z.toNat : ℕ) : ℚ) = z := by
  exact_mod_cast Int.toNat_of_nonneg h

theorem afterDivided_eq (hcheck : checkRequest req.targetFreq req.fOSC = .ok ()) (hpos : 0 < pllR)
    (hle : pllR ≤ 2) :
    afterDivided req.fOSC (req.fOSC / pllR) req.fVCO (s.factor req) req.outD req.spurDodging t =
      (do
        assertThrow
          (3200000000 ≤ s.step req pllR * ⌊req.fVCO / s.step req pllR + 1 / 2⌋ ∧
            s.step req pllR * ⌊req.fVCO / s.step req pllR + 1 / 2⌋ ≤ 6400000000)
          "3200e6 <= fVCO_actual && fVCO_actual <= 6400e6"
        finish req.fOSC (req.fOSC / pllR)
          (s.step req pllR * ⌊req.fVCO / s.step req pllR + 1 / 2⌋) (req.fVCO / s.unit req pllR)
          req.spurDodging ⌊req.fVCO / s.unit req pllR⌋.toNat
          (roundedNum (req.fVCO / s.unit req pllR) (s.den req pllR)).toNat (s.den req pllR)
          req.outD) t := by
  obtain ⟨-, -, hfosc⟩ := check_eq_ok.mp hcheck
  obtain ⟨hlow, hhigh, -⟩ := fVCO_mem hcheck
  obtain ⟨hunit, -⟩ := unit_mem (s := s) hfosc hpos hle
  obtain ⟨hden, hden'⟩ : 0 < s.den req pllR ∧ s.den req pllR < 2 ^ 32 := pllDen_mem _ _ _
  have hunitPos : 0 < s.unit req pllR := by linarith
  have hnReal : 0 ≤ req.fVCO / s.unit req pllR := div_nonneg (by linarith) hunitPos.le
  have hn : 0 ≤ ⌊req.fVCO / s.unit req pllR⌋ := Int.floor_nonneg.mpr hnReal
  have hnLt : ⌊req.fVCO / s.unit req pllR⌋ < 2 ^ 32 := by
    refine Int.floor_lt.mpr ((div_lt_iff₀ hunitPos).mpr ?_)
    push_cast
    nlinarith
  have hnum := roundedNum_nonneg (req.fVCO / s.unit req pllR) (s.den req pllR)
  have hnumLe := roundedNum_le (req.fVCO / s.unit req pllR) hden
  have hround : stdRound ((req.fVCO / s.unit req pllR - ⌊req.fVCO / s.unit req pllR⌋.toNat) *
      s.den req pllR) = roundedNum (req.fVCO / s.unit req pllR) (s.den req pllR) := by
    rw [cast_toNat hn, ← Int.fract, stdRound,
      if_pos (mul_nonneg (Int.fract_nonneg _) (Nat.cast_nonneg _)), roundedNum]
  have hactual := unit_mul_fraction hunitPos hden
  change (do
    assertThrow (0 < s.den req pllR) "PLL_DEN > 0"
    let n ← toUInt 32 ⌊req.fVCO / s.unit req pllR⌋
    let pllNum ← toUInt 32 (stdRound ((req.fVCO / s.unit req pllR - n) * s.den req pllR))
    let fVCOActual := s.unit req pllR * (n + pllNum / s.den req pllR)
    assertThrow (3200000000 ≤ fVCOActual ∧ fVCOActual ≤ 6400000000)
      "3200e6 <= fVCO_actual && fVCO_actual <= 6400e6"
    finish req.fOSC (req.fOSC / pllR) fVCOActual (req.fVCO / s.unit req pllR) req.spurDodging n
      pllNum (s.den req pllR) req.outD : Prog ℚ) t = _
  rw [bind_of_ok (assertThrow_of hden _), bind_of_ok (toUInt_intCast hn hnLt), hround,
    bind_of_ok (toUInt_intCast hnum (by omega)), cast_toNat hn, cast_toNat hnum, hactual]

theorem abs_nearest_sub_le {step : ℚ} (hstep : 0 < step) (y : ℚ) :
    |step * ⌊y / step + 1 / 2⌋ - y| ≤ step / 2 := by
  have hle := Int.floor_le (y / step + 1 / 2)
  have hlt := Int.lt_floor_add_one (y / step + 1 / 2)
  have hfactor : step * ⌊y / step + 1 / 2⌋ - y = step * (⌊y / step + 1 / 2⌋ - y / step) := by
    field_simp
  have hnear : |(⌊y / step + 1 / 2⌋ : ℚ) - y / step| ≤ 1 / 2 := by
    rw [abs_le]
    constructor <;> linarith
  rw [hfactor, abs_mul, abs_of_pos hstep]
  calc step * |(⌊y / step + 1 / 2⌋ : ℚ) - y / step|
      ≤ step * (1 / 2) := mul_le_mul_of_nonneg_left hnear hstep.le
    _ = step / 2 := mul_one_div step 2

theorem minN_le_iff {m : ℕ} {unit y : ℚ} (hunit : 0 < unit) (hy : 0 ≤ y) :
    m ≤ ⌊y / unit⌋.toNat ↔ m * unit ≤ y := by
  rw [Int.le_toNat (Int.floor_nonneg.mpr (div_nonneg hy hunit.le)), Int.le_floor,
    ← le_div_iff₀ hunit, Int.cast_natCast]

/-- **A request that passes the checks** ends normally exactly if there is a divider for the
reference, the modulator is of the third order and the nearest multiple of the step is in the range
of the VCO, and then programs `N` and `NUM` as they come. -/
theorem setFrequency_eq (hcheck : checkRequest req.targetFreq req.fOSC = .ok ()) :
    (∃ halt t, setFrequency req.targetFreq req.fOSC req.spurDodging s = .error halt t ∧
      ¬ ∃ pllR, s.refDivider req = some pllR ∧ 0 < pllR ∧ s.mashOrder = .thirdOrder ∧
        3200000000 ≤ s.step req pllR * ⌊req.fVCO / s.step req pllR + 1 / 2⌋ ∧
        s.step req pllR * ⌊req.fVCO / s.step req pllR + 1 / 2⌋ ≤ 6400000000) ∨
    ∃ pllR t, s.refDivider req = some pllR ∧ 0 < pllR ∧ pllR ≤ 2 ∧ s.mashOrder = .thirdOrder ∧
      3200000000 ≤ s.step req pllR * ⌊req.fVCO / s.step req pllR + 1 / 2⌋ ∧
      s.step req pllR * ⌊req.fVCO / s.step req pllR + 1 / 2⌋ ≤ 6400000000 ∧
      setFrequency req.targetFreq req.fOSC req.spurDodging s =
        .ok (s.step req pllR * ⌊req.fVCO / s.step req pllR + 1 / 2⌋ / req.outD) t ∧
      Divided s req pllR t ∧ t.pllN = ⌊req.fVCO / s.unit req pllR⌋.toNat ∧
      t.pllNum = (roundedNum (req.fVCO / s.unit req pllR) (s.den req pllR)).toNat ∧
      t.pllDen = s.den req pllR := by
  by_cases hdivider : ∃ pllR, s.refDivider req = some pllR ∧ 0 < pllR
  swap
  · obtain ⟨halt, t, ht⟩ := setFrequency_of_hole (s := s) hcheck fun pllR h hpos =>
      hdivider ⟨pllR, h, hpos⟩
    exact Or.inl ⟨halt, t, ht, fun ⟨pllR, h, hpos, _⟩ => hdivider ⟨pllR, h, hpos⟩⟩
  obtain ⟨pllR, hpllR, hpos⟩ := hdivider
  have hle : pllR ≤ 2 := postDivider_le hpllR
  have honly : ∀ r, s.refDivider req = some r → r = pllR := fun r hr =>
    Option.some.inj (hr.symm.trans hpllR)
  obtain ⟨t, hdivided, hrun⟩ := exists_divided hcheck hpllR hpos
  rw [hrun, afterDivided_eq hcheck hpos hle]
  by_cases hrange : 3200000000 ≤ s.step req pllR * ⌊req.fVCO / s.step req pllR + 1 / 2⌋ ∧
      s.step req pllR * ⌊req.fVCO / s.step req pllR + 1 / 2⌋ ≤ 6400000000
  swap
  · refine Or.inl ⟨_, _, bind_of_error (assertThrow_of_not hrange _) _, ?_⟩
    rintro ⟨r, hr, -, -, hrange'⟩
    obtain rfl := honly r hr
    exact hrange hrange'
  rw [bind_of_ok (assertThrow_of hrange _)]
  obtain ⟨-, -, hfosc⟩ := check_eq_ok.mp hcheck
  obtain ⟨hlow, hhigh, -⟩ := fVCO_mem hcheck
  obtain ⟨hunit, -⟩ := unit_mem (s := s) hfosc hpos hle
  obtain ⟨hden, hden'⟩ : 0 < s.den req pllR ∧ s.den req pllR < 2 ^ 32 := pllDen_mem _ _ _
  have hn : ⌊req.fVCO / s.unit req pllR⌋.toNat < 524288 := by
    have hlt : ⌊req.fVCO / s.unit req pllR⌋ < 524288 := by
      refine Int.floor_lt.mpr ((div_lt_iff₀ (by linarith)).mpr ?_)
      push_cast
      nlinarith
    omega
  have hnum : (roundedNum (req.fVCO / s.unit req pllR) (s.den req pllR)).toNat < 2 ^ 32 := by
    have hnumLe := roundedNum_le (req.fVCO / s.unit req pllR) hden
    omega
  by_cases hmash : s.mashOrder = .thirdOrder
  · have hpfd : req.fOSC / pllR ≤ 64000000 := by
      obtain ⟨hfoscLow, hfoscHigh⟩ := validFosc_mem hfosc
      have hone : (1 : ℚ) ≤ pllR := by exact_mod_cast hpos
      exact (div_le_self (by linarith) hone).trans hfoscHigh
    obtain ⟨u, hfinish, hsame, hpllN, hpllNum, hpllDen⟩ := exists_finish
      (req.fVCO / s.unit req pllR) req.spurDodging req.outD hfosc hpfd hrange.1
      hrange.2 (hdivided.mashOrder.trans hmash) hn hnum hden'
    refine Or.inr ⟨pllR, u, hpllR, hpos, hle, hmash, hrange.1, hrange.2, hfinish, ?_, hpllN,
      hpllNum, hpllDen⟩
    exact {
      syncMode := hsame.syncMode.trans hdivided.syncMode
      outputEnabled := hsame.outputEnabled.trans hdivided.outputEnabled
      outaMux := hsame.outaMux.trans hdivided.outaMux
      outbMux := hsame.outbMux.trans hdivided.outbMux
      divisor := fun h => (congrArg Chdiv.divisor hsame.chdiv).trans (hdivided.divisor h)
      mult := hsame.mult.trans hdivided.mult
      pfd := (congrFun hsame.pfd _).trans hdivided.pfd
      mashOrder := hsame.mashOrder.trans hdivided.mashOrder }
  · obtain ⟨halt, u, hu⟩ := finish_of_ne req.fOSC (req.fOSC / pllR)
      (s.step req pllR * ⌊req.fVCO / s.step req pllR + 1 / 2⌋) (req.fVCO / s.unit req pllR)
      req.spurDodging req.outD hn hnum hden' (fun h => hmash (hdivided.mashOrder.symm.trans h))
    exact Or.inl ⟨halt, u, hu, fun ⟨_, _, _, h, _⟩ => hmash h⟩

end Runs

/-! ## Requests that go right -/

section Right

variable {minN : MashOrder → ℕ} {s t : Lmx} {req : Request} {pllR : ℕ}

theorem accepted_of_divided (hcheck : checkRequest req.targetFreq req.fOSC = .ok ())
    (hpos : 0 < pllR) (hle : pllR ≤ 2) (hmash : s.mashOrder = .thirdOrder)
    (hlow : 3200000000 ≤ s.step req pllR * ⌊req.fVCO / s.step req pllR + 1 / 2⌋)
    (hhigh : s.step req pllR * ⌊req.fVCO / s.step req pllR + 1 / 2⌋ ≤ 6400000000)
    (hdivided : Divided s req pllR t) (hpllN : t.pllN = ⌊req.fVCO / s.unit req pllR⌋.toNat)
    (hpllNum : t.pllNum = (roundedNum (req.fVCO / s.unit req pllR) (s.den req pllR)).toNat)
    (hpllDen : t.pllDen = s.den req pllR) (hlt : t.pllNum < t.pllDen)
    (hminN : minN .thirdOrder ≤ t.pllN) :
    Accepted minN req t (s.step req pllR * ⌊req.fVCO / s.step req pllR + 1 / 2⌋ / req.outD)
      req.outD := by
  obtain ⟨-, -, hfosc⟩ := check_eq_ok.mp hcheck
  obtain ⟨hVCO, -, houtD⟩ := fVCO_mem hcheck
  obtain ⟨hunit, -⟩ := unit_mem (s := s) hfosc hpos hle
  have hunitPos : 0 < s.unit req pllR := by linarith
  obtain ⟨hden, -⟩ : 0 < s.den req pllR ∧ s.den req pllR < 2 ^ 32 := pllDen_mem _ _ _
  have hden' : (0 : ℚ) < s.den req pllR := Nat.cast_pos.mpr hden
  have houtD' : (0 : ℚ) < req.outD := Nat.cast_pos.mpr houtD
  have hfactor : t.includedDivide req req.outD = s.factor req := by
    rw [Lmx.includedDivide, hdivided.outaMux, hdivided.outbMux, hdivided.syncMode, hdivided.mult,
      Lmx.factor]
  have hn : 0 ≤ ⌊req.fVCO / s.unit req pllR⌋ :=
    Int.floor_nonneg.mpr (div_nonneg (by linarith) hunitPos.le)
  have hvco : t.vcoFreq req.fOSC (t.includedDivide req req.outD) =
      s.step req pllR * ⌊req.fVCO / s.step req pllR + 1 / 2⌋ := by
    rw [← unit_mul_fraction hunitPos hden, Lmx.vcoFreq, hfactor, hdivided.pfd, hpllN, hpllNum,
      hpllDen, cast_toNat hn, cast_toNat (roundedNum_nonneg _ _), Lmx.unit]
    ring
  refine ⟨fun output houtput => ?_, hlt, hvco.symm ▸ ⟨hlow, hhigh⟩, ?_, by rw [hvco], ?_⟩
  · -- An output that is enabled was connected to the divider, or to the VCO.
    have hmux : t.outMux output = if 1 < req.outD then .channelDivider else .vco := by
      rw [hdivided.outputEnabled] at houtput
      cases output with
      | rfOutputA => exact hdivided.outaMux.trans (if_pos houtput)
      | rfOutputB => exact hdivided.outbMux.trans (if_pos houtput)
    rw [Lmx.outDivider, hmux]
    by_cases hone : 1 < req.outD
    · rw [if_pos hone]
      exact congrArg some (hdivided.divisor hone)
    · rw [if_neg hone]
      exact congrArg some (by omega)
  · rw [hdivided.mashOrder, hmash]
    exact hminN
  · have hstep : 0 < s.step req pllR := div_pos hunitPos hden'
    have hnear := abs_nearest_sub_le hstep req.fVCO
    have htarget : req.targetFreq = req.fVCO / req.outD := by
      rw [Request.fVCO, mul_div_cancel_right₀ _ houtD'.ne']
    have hhalf : t.pfd req.fOSC * t.includedDivide req req.outD / t.pllDen / req.outD / 2 =
        s.step req pllR / 2 / req.outD := by
      rw [hfactor, hdivided.pfd, hpllDen, Lmx.step, Lmx.unit]
      ring
    rw [hhalf, htarget, ← sub_div, abs_div, abs_of_pos houtD']
    exact div_le_div_of_nonneg_right hnear houtD'.le

/-- **A request goes right** exactly if the checks reject it or it fits. -/
theorem right_iff_fits (minN : MashOrder → ℕ) (s : Lmx) (req : Request) :
    Right minN s req ↔
      checkRequest req.targetFreq req.fOSC ≠ .ok () ∨ ∃ pllR, Fits minN s req pllR := by
  cases hcheck : checkRequest req.targetFreq req.fOSC with
  | error halt =>
    refine iff_of_true (Or.inl ⟨halt, hcheck, ?_⟩) (Or.inl ?_)
    · rw [setFrequency, hcheck]
      rfl
    · intro h
      cases h
  | ok u =>
    obtain ⟨-, -, hfosc⟩ := check_eq_ok.mp hcheck
    obtain ⟨hVCO, -, -⟩ := fVCO_mem hcheck
    have hpositive : ∀ r, 0 < r → r ≤ 2 → 0 < s.unit req r ∧ 0 < s.den req r ∧
        0 < s.step req r := by
      intro r hpos hle
      obtain ⟨hunit, -⟩ := unit_mem (s := s) hfosc hpos hle
      have hunitPos : 0 < s.unit req r := by linarith
      have hden : 0 < s.den req r := (pllDen_mem _ _ _).1
      exact ⟨hunitPos, hden, div_pos hunitPos (Nat.cast_pos.mpr hden)⟩
    rcases setFrequency_eq (s := s) hcheck with ⟨halt, t, hrun, hnot⟩ |
      ⟨r, t, hr, hpos, hle, hmash, hlow, hhigh, hrun, hdivided, hpllN, hpllNum, hpllDen⟩
    · constructor
      · rintro (⟨halt', hcheck', -⟩ | ⟨actual, t', outD, hrun', -⟩)
        · rw [hcheck] at hcheck'
          cases hcheck'
        · rw [hrun] at hrun'
          cases hrun'
      · rintro (hne | ⟨r, hr, hpos, hmash, -, hlow, hhigh, -⟩)
        · exact absurd rfl hne
        · have hstep := (hpositive r hpos (postDivider_le hr)).2.2
          obtain ⟨hlow', hhigh'⟩ := (rounded_mem_iff hstep).mpr ⟨hlow, hhigh⟩
          exact absurd ⟨r, hr, hpos, hmash, hlow', hhigh'⟩ hnot
    · obtain ⟨hunitPos, hden, hstep⟩ := hpositive r hpos hle
      have hnum : t.pllNum < t.pllDen ↔
          Int.fract (req.fVCO / s.unit req r) < 1 - 1 / (2 * s.den req r) := by
        rw [hpllNum, hpllDen, ← roundedNum_lt_iff _ hden]
        have hnonneg := roundedNum_nonneg (req.fVCO / s.unit req r) (s.den req r)
        omega
      have hn : minN .thirdOrder ≤ t.pllN ↔ minN .thirdOrder * s.unit req r ≤ req.fVCO := by
        rw [hpllN]
        exact minN_le_iff hunitPos (by linarith)
      constructor
      · rintro (⟨halt', hcheck', -⟩ | ⟨actual, t', outD, hrun', haccepted⟩)
        · rw [hcheck] at hcheck'
          cases hcheck'
        · rw [hrun] at hrun'
          cases hrun'
          have hmin := haccepted.minN_le
          rw [hdivided.mashOrder, hmash] at hmin
          obtain ⟨hlow', hhigh'⟩ := (rounded_mem_iff hstep).mp ⟨hlow, hhigh⟩
          exact Or.inr ⟨r, hr, hpos, hmash, hnum.mp haccepted.num_lt_den, hlow', hhigh', hn.mp hmin⟩
      · rintro (hne | ⟨r', hr', -, -, hfract, -, -, hmin⟩)
        · exact absurd rfl hne
        · obtain rfl := Option.some.inj (hr'.symm.trans hr)
          exact Or.inr ⟨_, t, _, hrun, accepted_of_divided hcheck hpos hle hmash hlow hhigh hdivided
            hpllN hpllNum hpllDen (hnum.mpr hfract) (hn.mpr hmin)⟩

/-- The output of 1030 MHz from a reference of 64 MHz. -/
def holeRequest : Request where
  targetFreq := 1030000000
  fOSC := 64000000
  spurDodging := false

/-- **A hole in the table** for the reference of 64 MHz: at 1030 MHz the VCO is to run at 4120 MHz,
which neither interval has, and the request ends with an assertion after fields were programmed. -/
theorem not_right_hole : ¬ ∃ minN : MashOrder → ℕ, ∀ (s : Lmx) (req : Request),
    s.mashOrder = .thirdOrder → Right minN s req := by
  rintro ⟨minN, hright⟩
  have hcheck : checkRequest holeRequest.targetFreq holeRequest.fOSC = .ok () :=
    check_eq_ok.mpr ⟨by decide +kernel, by decide +kernel, by decide +kernel⟩
  have hhole : (afterReset true).refDivider holeRequest = some 0 := by decide +kernel
  obtain ⟨halt, t, hrun⟩ := setFrequency_of_hole hcheck fun pllR hpllR hpos => by
    obtain rfl := Option.some.inj (hhole.symm.trans hpllR)
    exact lt_irrefl 0 hpos
  rcases hright (afterReset true) holeRequest rfl with ⟨halt', hcheck', -⟩ | ⟨_, _, _, hrun', -⟩
  · rw [hcheck] at hcheck'
    cases hcheck'
  · rw [hrun] at hrun'
    cases hrun'

end Right

end Lmx2572
end Usrp
end UhdHost
