import Mathlib
import UhdHost.Cal.Interpolation
import UhdHost.Library.Stateful
import UhdHost.Types.RangeClip
import UhdHost.Types.TimeSpec

/-!
# The LMX2572 synthesizer

`lmx2572_impl` of `lmx2572.cpp`, as far as `set_frequency` goes: the fields of the register cache
that it reads and writes, the choice of the dividers, and the tables.

Numbers are rational.  `math::PI` is the decimal number that the source has.  A conversion to an
unsigned type drops the fraction, and what does not fit is not defined.
-/

namespace UhdHost
namespace Usrp
namespace Lmx2572

open Cal Stateful

/-! ## The register cache -/

/-- `chdiv_t` -/
inductive Chdiv where
  | divideBy2
  | divideBy4
  | divideBy8
  | divideBy16
  | divideBy32
  | divideBy64
  | divideBy128
  | divideBy256
  deriving DecidableEq

/-- `outa_mux_t` and `outb_mux_t` -/
inductive OutMux where
  | channelDivider
  | vco
  | notUsed
  | sysref
  | highImpedance
  deriving DecidableEq

/-- `mash_order_t` -/
inductive MashOrder where
  | integerMode
  | firstOrder
  | secondOrder
  | thirdOrder
  | fourthOrder
  deriving DecidableEq

/-- `lmx2572_impl`, with the fields of `lmx2572_regs_t` that `set_frequency` uses. -/
structure Lmx where
  syncMode : Bool
  /-- `OUTA_PD_POWER_DOWN` -/
  outaPd : Bool
  /-- `OUTB_PD_POWER_DOWN` -/
  outbPd : Bool
  outaMux : OutMux
  outbMux : OutMux
  chdiv : Chdiv
  pllRPre : ℕ
  mult : ℕ
  /-- `OSC_2X_ENABLED` -/
  osc2x : Bool
  pllR : ℕ
  /-- `VCO_PHASE_SYNC_EN_PHASE_SYNC_MODE` -/
  vcoPhaseSyncEn : Bool
  /-- `MULT_HI_GREATER_THAN_100M` -/
  multHi : Bool
  pllNUpper3Bits : ℕ
  pllNLower16Bits : ℕ
  pllNumUpper : ℕ
  pllNumLower : ℕ
  pllDenUpper : ℕ
  pllDenLower : ℕ
  fcalHpfdAdj : ℕ
  fcalLpfdAdj : ℕ
  mashOrder : MashOrder
  pfdDlySel : ℕ
  mashSeedUpper : ℕ
  mashSeedLower : ℕ
  calClkDiv : ℕ
  mashRstCountUpper : ℕ
  mashRstCountLower : ℕ
  cpg : ℕ
  vcoSel : ℕ
  vcoCapctrlStrt : ℕ
  vcoDacisetStrt : ℕ
  deriving DecidableEq

/-- What `_set_defaults` leaves, which `reset` calls: the modulator is of the third order, and nothing
else changes that. -/
def afterReset (syncMode : Bool) : Lmx where
  syncMode
  outaPd := true
  outbPd := true
  outaMux := .vco
  outbMux := .vco
  chdiv := .divideBy2
  pllRPre := 1
  mult := 1
  osc2x := false
  pllR := 1
  vcoPhaseSyncEn := false
  multHi := false
  pllNUpper3Bits := 0
  pllNLower16Bits := 40
  pllNumUpper := 0
  pllNumLower := 0
  pllDenUpper := 0
  pllDenLower := 0
  fcalHpfdAdj := 1
  fcalLpfdAdj := 0
  mashOrder := .thirdOrder
  pfdDlySel := 2
  mashSeedUpper := 0
  mashSeedLower := 0
  calClkDiv := 0
  mashRstCountUpper := 0
  mashRstCountLower := 0
  cpg := 7
  vcoSel := 6
  vcoCapctrlStrt := 0
  vcoDacisetStrt := 150

/-- A function of the driver. -/
abbrev Prog (α : Type) := EStateM Halt Lmx α

/-- `UHD_ASSERT_THROW` -/
def assertThrow (code : Prop) [Decidable code] (what : String) : Prog PUnit :=
  if code then pure ⟨⟩ else throw (.threw (.assertionError what))

/-- `UHD_THROW_INVALID_CODE_PATH` -/
def invalidCodePath {α : Type} : Prog α := throw (.threw (.systemError "invalid code path"))

/-- The conversion of a `double` to an unsigned type with so many bits. -/
def toUInt (bits : ℕ) (x : ℚ) : Prog ℕ :=
  if -1 < x ∧ x < 2 ^ bits then pure (truncInt x).toNat else throw .undefined

/-- `std::fmod` -/
def fmod (x y : ℚ) : ℚ := x - y * truncInt (x / y)

/-! ## Constants -/

/-- `MAX_OUT_FREQ` -/
def maxOutFreq : ℚ := 6400000000

/-- `MIN_OUT_FREQ` -/
def minOutFreq : ℚ := 12500000

/-- `TARGET_LOOP_BANDWIDTH` -/
def targetLoopBandwidth : ℚ := 75000

/-- `LOOP_GAIN_SETTING_RESISTANCE` -/
def loopGainSettingResistance : ℚ := 150

/-- `PLL_LOCK_TIME` -/
def pllLockTime : ℚ := 200 / 1000000

/-- `VALID_FOSC` -/
def validFosc : List ℚ :=
  [61440000, 64000000, 62500000, 50000000, 39062500, 31250000, 30720000]

/-- `math::PI` -/
def pi : ℚ := 314159265358979323846 / 100000000000000000000

/-! ## The outputs -/

/-- `output_t` -/
inductive Output where
  | rfOutputA
  | rfOutputB
  deriving DecidableEq

/-- `mux_in_t` -/
inductive MuxIn where
  | divider
  | vco
  | highImpedance
  | sysref
  deriving DecidableEq

/-- `get_output_enabled` -/
def Lmx.outputEnabled (s : Lmx) : Output → Bool
  | .rfOutputA => !s.outaPd
  | .rfOutputB => !s.outbPd

/-- `set_mux_input` -/
def setMuxInput : Output → MuxIn → Prog PUnit
  | .rfOutputA, .divider => modify fun s => { s with outaMux := .channelDivider }
  | .rfOutputA, .vco => modify fun s => { s with outaMux := .vco }
  | .rfOutputA, .highImpedance => modify fun s => { s with outaMux := .highImpedance }
  | .rfOutputA, .sysref => invalidCodePath
  | .rfOutputB, .divider => modify fun s => { s with outbMux := .channelDivider }
  | .rfOutputB, .vco => modify fun s => { s with outbMux := .vco }
  | .rfOutputB, .highImpedance => modify fun s => { s with outbMux := .highImpedance }
  | .rfOutputB, .sysref => modify fun s => { s with outbMux := .sysref }

/-- `out_div_map` of `_set_output_divider` -/
def outDivMap : List (ℚ × ℕ × Chdiv) :=
  [(25000000, 256, .divideBy256), (50000000, 128, .divideBy128), (100000000, 64, .divideBy64),
    (200000000, 32, .divideBy32), (400000000, 16, .divideBy16), (800000000, 8, .divideBy8),
    (1600000000, 4, .divideBy4), (3200000000, 2, .divideBy2), (6400000001, 1, .divideBy2)]

/-- `_set_output_divider` -/
def setOutputDivider (freq : ℚ) : Prog ℕ :=
  match outDivMap.find? fun entry => freq < entry.1 with
  | none => throw (.threw (.assertionError "out_div_it != out_div_map.end()"))
  | some (_, outD, chdiv) => do
    modify fun s => { s with chdiv }
    let input := if 1 < outD then MuxIn.divider else .vco
    let s ← get
    if s.outputEnabled .rfOutputA then setMuxInput .rfOutputA input
    if s.outputEnabled .rfOutputB then setMuxInput .rfOutputB input
    pure outD

/-! ## The reference divider -/

/-- The divider `pll_r` that `_set_pll_div_and_mult` chooses: zero where no
interval has the frequency, and nothing where the reference is none of the known ones. -/
def postDivider (syncMode : Bool) (fTARGET fVCO : ℚ) (fOSCInt : ℕ) : Option ℕ :=
  if syncMode then
    if fTARGET < 3200000000 then
      if fOSCInt = 61440000 then
        if 3200000000 ≤ fVCO ∧ fVCO < 3950000000 then some 2
        else if 3950000000 ≤ fVCO ∧ fVCO ≤ 6400000000 then some 1
        else some 0
      else if fOSCInt = 64000000 then
        if 3200000000 ≤ fVCO ∧ fVCO < 4100000000 then some 2
        else if 4150000000 < fVCO ∧ fVCO ≤ 6400000000 then some 1
        else some 0
      else if fOSCInt = 62500000 then
        if 3200000000 ≤ fVCO ∧ fVCO < 4000000000 then some 2
        else if 4050000000 ≤ fVCO ∧ fVCO ≤ 6400000000 then some 1
        else some 0
      else if fOSCInt = 50000000 then some 1
      else none
    else some 1
  else some 1

/-- `_set_pll_div_and_mult` -/
def setPllDivAndMult (fTARGET fVCO : ℚ) (fOSCInt : ℕ) : Prog PUnit := do
  modify fun s => { s with pllRPre := 1, mult := 1, osc2x := false }
  let s ← get
  match postDivider s.syncMode fTARGET fVCO fOSCInt with
  | none => invalidCodePath
  | some pllR => do
    assertThrow (0 < pllR) "pll_r > 0"
    modify fun s => { s with pllR }
    let s ← get
    assertThrow (s.mult = 1 ∨ s.osc2x = false)
      "_regs.mult == 1 || _regs.osc_2x == lmx2572_regs_t::osc_2x_t::OSC_2X_DISABLED"

/-! ## Phase synchronization -/

/-- `sync_cat` -/
inductive SyncCat where
  | cat1a
  | cat1b
  | cat2
  | cat3
  | cat4
  | none
  deriving DecidableEq

/-- `_get_sync_cat` -/
def getSyncCat (syncMode : Bool) (m : ℕ) (fOSC fOUT : ℚ) (chdiv : ℕ) : SyncCat :=
  if !syncMode then .none
  else if 1 < m ∧ 2 < chdiv then .cat4
  else if 1 < m ∧ fmod fOUT (fOSC * m) ≠ 0 then .cat4
  else if m = 1 ∧ fmod fOUT fOSC ≠ 0 then .cat3
  else if m = 1 ∧ 2 < chdiv then .cat2
  else if chdiv = 2 then .cat1b
  else .cat1a

/-- The factor that `_set_phase_sync` returns, and whether it sets `VCO_PHASE_SYNC_EN`. -/
def phaseSync (outaMux outbMux : OutMux) : SyncCat → ℕ × Bool
  | .cat1a => (1, false)
  | .cat1b => (2, true)
  | .cat2 => (1, false)
  | .cat3 => (if outaMux = .channelDivider ∨ outbMux = .channelDivider then 2 else 1, true)
  | .cat4 => (1, false)
  | .none => (1, false)

/-- `_set_phase_sync` -/
def setPhaseSync (cat : SyncCat) : Prog ℕ := do
  let s ← get
  modify fun s => { s with vcoPhaseSyncEn := (phaseSync s.outaMux s.outbMux cat).2 }
  pure (phaseSync s.outaMux s.outbMux cat).1

/-! ## Fields that depend on the frequency -/

/-- `_compute_and_set_mult_hi` -/
def computeAndSetMultHi (fOSC : ℚ) : Prog PUnit :=
  modify fun s => { s with
    multHi := 1 < s.mult ∧ 100000000 < fOSC * (s.osc2x.toNat + 1) * s.mult / s.pllRPre }

/-- `_set_pll_n` -/
def setPllN (n : ℕ) : Prog PUnit := do
  assertThrow (n % 524288 = n) "(n & 0x7FFFF) == n"
  modify fun s => { s with pllNUpper3Bits := n / 65536 % 8, pllNLower16Bits := n % 65536 }

/-- `_set_pll_num` -/
def setPllNum (num : ℕ) : Prog PUnit :=
  modify fun s => { s with pllNumUpper := num / 65536 % 65536, pllNumLower := num % 65536 }

/-- `_set_pll_den` -/
def setPllDen (den : ℕ) : Prog PUnit :=
  modify fun s => { s with pllDenUpper := den / 65536 % 65536, pllDenLower := den % 65536 }

/-- `_set_fcal_hpfd_adj` -/
def setFcalHpfdAdj (pfd : ℚ) : Prog PUnit :=
  modify fun s => { s with
    fcalHpfdAdj := if pfd ≤ 37500000 then 0 else if pfd ≤ 75000000 then 1
      else if pfd ≤ 100000000 then 2 else 3 }

/-- `_set_fcal_lpfd_adj` -/
def setFcalLpfdAdj (pfd : ℚ) : Prog PUnit :=
  modify fun s => { s with
    fcalLpfdAdj := if 10000000 ≤ pfd then 0 else if 5000000 ≤ pfd then 1
      else if 2500000 ≤ pfd then 2 else 3 }

/-- `_set_pfd_dly` -/
def setPfdDly (fVCO : ℚ) : Prog PUnit := do
  let s ← get
  assertThrow (s.mashOrder = .thirdOrder)
    "_regs.mash_order == lmx2572_regs_t::MASH_ORDER_THIRD_ORDER"
  if 3200000000 ≤ fVCO ∧ fVCO < 4000000000 then modify fun s => { s with pfdDlySel := 2 }
  else if 4000000000 ≤ fVCO ∧ fVCO < 4900000000 then modify fun s => { s with pfdDlySel := 2 }
  else if 4900000000 ≤ fVCO ∧ fVCO ≤ 6400000000 then modify fun s => { s with pfdDlySel := 3 }
  else invalidCodePath

/-- `seed_map` of `_set_mash_seed` -/
def seedMap : List (ℚ × ℕ) :=
  [(25000000, 4999), (30720000, 5531), (31250000, 5591), (32000000, 5657), (39062500, 6247),
    (50000000, 7096), (61440000, 7841), (62500000, 7907), (64000000, 7993)]

/-- The seed of `_set_mash_seed` -/
def mashSeed (spurDodging : Bool) (pllNum : ℕ) (pfd : ℚ) : Prog ℕ :=
  if spurDodging ∨ pllNum = 0 then pure 0
  else
    match seedMap.find? fun entry => pfd ≤ entry.1 with
    | some (_, seed) => pure seed
    | none => throw .undefined

/-- `_set_mash_seed` -/
def setMashSeed (spurDodging : Bool) (pllNum : ℕ) (pfd : ℚ) : Prog PUnit := do
  let seed ← mashSeed spurDodging pllNum pfd
  modify fun s => { s with
    mashSeedUpper := seed / 65536 % 65536, mashSeedLower := seed % 65536 }

/-- `_set_mash_rst_count` -/
def setMashRstCount (mashRstCount : ℕ) : Prog PUnit :=
  modify fun s => { s with
    mashRstCountUpper := mashRstCount / 65536 % 65536, mashRstCountLower := mashRstCount % 65536 }

/-- The ranges of the VCO cores: the columns of `vco_gain_map`, and those of
`vco_partial_assist_map`. -/
structure VcoCore where
  fmin : ℚ
  fmax : ℚ
  core : ℕ
  kvcoMin : ℚ
  kvcoMax : ℚ
  cMin : ℚ
  cMax : ℚ
  aMin : ℚ
  aMax : ℚ

/-- `vco_gain_map` and `vco_partial_assist_map`, which have the same keys `fmax`. -/
def vcoCores : List VcoCore :=
  [⟨3200000000, 3650000000, 1, 32, 47, 131, 19, 138, 137⟩,
    ⟨3650000000, 4200000000, 2, 35, 54, 143, 25, 162, 142⟩,
    ⟨4200000000, 4650000000, 3, 47, 64, 135, 34, 126, 114⟩,
    ⟨4650000000, 5200000000, 4, 50, 73, 136, 25, 195, 172⟩,
    ⟨5200000000, 5750000000, 5, 61, 82, 133, 20, 190, 163⟩,
    ⟨5750000000, 6400000000, 6, 57, 79, 151, 27, 256, 204⟩]

/-- `lower_bound` in one of these maps. -/
def vcoCore? (fVCO : ℚ) : Option VcoCore := vcoCores.find? fun core => fVCO ≤ core.fmax

/-- `cpg_map` of `_compute_and_set_charge_pump_gain` -/
def cpgMap : SortedMap ℚ ℕ := SortedMap.empty.insertAll
  [(0, 0), (625, 1), (1250, 2), (1875, 3), (2500, 4), (3125, 5), (3750, 6), (4375, 7), (5000, 12),
    (5625, 13), (6250, 14), (6875, 15)]

/-- `_compute_and_set_charge_pump_gain` -/
def computeAndSetChargePumpGain (fVCOActual nReal : ℚ) : Prog PUnit :=
  match vcoCore? fVCOActual with
  | none => throw (.threw (.assertionError "vco_gain_it != vco_gain_map.end()"))
  | some core => do
    let kvco ← orThrow (linearInterp fVCOActual core.fmin core.kvcoMin core.fmax core.kvcoMax)
    let icp := 2 * pi * targetLoopBandwidth * nReal / (kvco * loopGainSettingResistance)
    let cpg ← orThrow (atNearest cpgMap icp)
    modify fun s => { s with cpg }

/-- `_compute_and_set_vco_cal` -/
def computeAndSetVcoCal (fVCOActual : ℚ) : Prog PUnit :=
  match vcoCore? fVCOActual with
  | none => throw (.threw (.assertionError "vco_cal_it != vco_partial_assist_map.end()"))
  | some core => do
    let capctrl ← toUInt 16 (stdRound
      (core.cMin - (fVCOActual - core.fmin) * (core.cMin - core.cMax) / (core.fmax - core.fmin)))
    let daciset ← toUInt 16 (stdRound
      (core.aMin - (fVCOActual - core.fmin) * (core.aMin - core.aMax) / (core.fmax - core.fmin)))
    modify fun s => { s with
      vcoSel := core.core, vcoCapctrlStrt := min 183 capctrl, vcoDacisetStrt := min daciset 511 }

/-! ## Setting the frequency -/

/-- The checks at the start of `set_frequency`. -/
def checkRequest (targetFreq fOSC : ℚ) : Except Halt Unit :=
  if maxOutFreq < targetFreq ∨ targetFreq < minOutFreq then
    .error (.threw (.valueError "Invalid LMX2572 target frequency!"))
  else if fOSC ∈ validFosc then .ok ()
  else .error (.threw (.assertionError "VALID_FOSC.count(fOSC)"))

/-- The frequency of the phase detector. -/
def Lmx.pfd (s : Lmx) (fOSC : ℚ) : ℚ :=
  fOSC * (s.osc2x.toNat + 1) * s.mult / (s.pllRPre * s.pllR)

/-- `PLL_DEN` -/
def pllDen (fPD : ℚ) (p : ℕ) (spurDodging : Bool) : ℕ :=
  let deltaFVCO : ℚ := if spurDodging then 2000000 else 1
  (max 1 (min ⌈fPD * p / deltaFVCO⌉ 4294967295)).toNat

/-- `set_frequency` -/
def setFrequency (targetFreq fOSC : ℚ) (spurDodging : Bool) : Prog ℚ := do
  orThrow (checkRequest targetFreq fOSC)
  let fOSCInt ← toUInt 64 fOSC
  let outD ← setOutputDivider targetFreq
  let fVCO := targetFreq * outD
  assertThrow (3200000000 ≤ fVCO ∧ fVCO ≤ 6400000000) "3200e6 <= fVCO && fVCO <= 6400e6"
  setPllDivAndMult targetFreq fVCO fOSCInt
  let s ← get
  let fPD := s.pfd fOSC
  let p ← setPhaseSync (getSyncCat s.syncMode s.mult fOSC targetFreq outD)
  let den := pllDen fPD p spurDodging
  assertThrow (0 < den) "PLL_DEN > 0"
  let nReal := fVCO / (fPD * p)
  let n ← toUInt 32 ⌊nReal⌋
  let pllNum ← toUInt 32 (stdRound ((nReal - n) * den))
  let fVCOActual := fPD * p * (n + pllNum / den)
  assertThrow (3200000000 ≤ fVCOActual ∧ fVCOActual ≤ 6400000000)
    "3200e6 <= fVCO_actual && fVCO_actual <= 6400e6"
  computeAndSetMultHi fOSC
  setPllN n
  setPllNum pllNum
  setPllDen den
  setFcalHpfdAdj fPD
  setFcalLpfdAdj fPD
  setPfdDly fVCOActual
  setMashSeed spurDodging pllNum fPD
  let s ← get
  if s.syncMode then
    let period := (if s.calClkDiv = 0 then (1 : ℚ) else 2) / fOSC
    let mashRstCount ← toUInt 32 ⌈4 * pllLockTime / period⌉
    setMashRstCount mashRstCount
  computeAndSetChargePumpGain fVCOActual nReal
  computeAndSetVcoCal fVCOActual
  pure (fVCOActual / outD)

end Lmx2572
end Usrp
end UhdHost
