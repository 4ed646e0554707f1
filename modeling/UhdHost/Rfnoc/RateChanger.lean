import Mathlib.Data.Nat.Log
import UhdHost.Library.DirtyLoop
import UhdHost.Library.Transition
import UhdHost.Rfnoc.Property
import UhdHost.Types.Ranges
import UhdHost.Types.TimeSpec

/-!
# Channels that change the sampling rate

What a channel of a DDC (`ddc_block_control.cpp`) and one of a DUC (`duc_block_control.cpp`) have in
common: the properties for the rates, the scalings, the frequency and the factor between the rates
(`decim` or `interp`), the registers that the factor goes to, and the factors that the block can
have.  Everything is exact here: `double` is `ℚ`, and two rates are equal within
`frequencies_are_equal` when they are equal.  A rate is positive.

What the factor stands for is written to the registers by `set_decim` or `set_interp` (`setFactor`):
the word for halfbands and CIC, the ratio, the time increment of the output rate, and the scale
factor, with what scaling is left over.

The properties for the types of the streams are constants, and left out.
-/

namespace UhdHost
namespace Rfnoc
namespace RateChanger

/-! ## The block -/

/-- What a block has been made with, and in what the two blocks differ. -/
structure Config where
  chan : ℕ
  /-- `PROP_KEY_DECIM` or `PROP_KEY_INTERP` -/
  factorKey : String
  numHalfbands : ℕ
  /-- `_cic_max_decim` or `_cic_max_interp` -/
  cicMax : ℕ
  tickRate : ℚ
  /-- `_spc`; 1 in a DUC -/
  spc : ℕ := 1
  /-- The registers for the ratio, which version 0 has. -/
  hasRatio : Bool := true
  /-- `dds_gain` -/
  ddsGain : ℚ := 1
  /-- The exponent of the gain of the CIC. -/
  cicOrder : ℕ
  cicMax_pos : 0 < cicMax
  cicMax_le : cicMax ≤ 0xff

namespace Config

variable (cfg : Config)

/-- The numbers of `_valid_decims` or `_valid_interps`, in ascending order. -/
def validFactors : List ℕ :=
  (List.range (2 ^ cfg.numHalfbands * cfg.cicMax + 1)).filter fun f =>
    f == 1 || (List.range (cfg.numHalfbands + 1)).any fun hb =>
      (List.range cfg.cicMax).any fun cic => f == 2 ^ hb * (cic + 1)

/-- `_valid_decims` or `_valid_interps` -/
def validRanges : MetaRange := cfg.validFactors.map fun (f : ℕ) => ⟨f, f, 0, le_refl _⟩

/-- `coerce_decim` or `coerce_interp` -/
def coerce (requested : ℚ) : Except UhdError ℤ :=
  if requested < 0 then .error (.assertionError ("requested_" ++ cfg.factorKey ++ " >= 0"))
  else (MetaRange.clip cfg.validRanges requested).map truncInt

/-- The loop of `set_decim` over the halfbands: how many are enabled, and what the CIC does. -/
def splitFactor : ℕ → ℕ → ℕ × ℕ
  | 0, cic => (0, cic)
  | left + 1, cic =>
    if cic % 2 = 0 then ((splitFactor left (cic / 2)).1 + 1, (splitFactor left (cic / 2)).2)
    else (0, cic)

/-- `hb_enable` -/
def hbEnable (f : ℤ) : ℕ := (splitFactor cfg.numHalfbands f.toNat).1

/-- `cic_decim` or `cic_interp` -/
def cicFactor (f : ℤ) : ℕ := (splitFactor cfg.numHalfbands f.toNat).2

/-- `decim_word` or `interp_word` -/
def factorWord (f : ℤ) : BitVec 32 := BitVec.ofNat 32 ((cfg.hbEnable f <<< 8) ||| cfg.cicFactor f)

/-- `total_gain` -/
def totalGain (f : ℤ) : ℚ :=
  cfg.ddsGain * (cfg.cicFactor f : ℚ) ^ cfg.cicOrder
    / 2 ^ Nat.clog 2 (cfg.cicFactor f ^ cfg.cicOrder)

/-- `std::lround` -/
def lround (q : ℚ) : ℤ := if 0 ≤ q then ⌊q + 1 / 2⌋ else ⌈q - 1 / 2⌉

/-- `actual_factor` of `update_scaling` -/
def actualFactor (f : ℤ) : ℤ := lround (2 ^ 15 * (1 / cfg.totalGain f))

/-- What `update_scaling` leaves in `_residual_scaling`. -/
def residual (f : ℤ) : ℚ := cfg.totalGain f * cfg.actualFactor f / 2 ^ 15

/-- The time increment for an output rate. -/
def timeIncr (rate : ℚ) : BitVec 32 := BitVec.ofNat 32 ⌊cfg.tickRate / rate * cfg.spc⌋₊

end Config

/-! ## The channel -/

/-- The properties of a channel. -/
inductive RateProp where
  | sampRateIn
  | sampRateOut
  | scalingIn
  | scalingOut
  /-- `decim` or `interp`; its value is an integer. -/
  | factor
  | freq
  deriving DecidableEq

instance : Fintype RateProp where
  elems := {.sampRateIn, .sampRateOut, .scalingIn, .scalingOut, .factor, .freq}
  complete p := by cases p <;> decide

/-- What a property is called in a message. -/
def Config.propName (cfg : Config) : RateProp → String
  | .sampRateIn => "samp_rate@" ++ ResSourceInfo.toString ⟨.inputEdge, cfg.chan⟩
  | .sampRateOut => "samp_rate@" ++ ResSourceInfo.toString ⟨.outputEdge, cfg.chan⟩
  | .scalingIn => "scaling@" ++ ResSourceInfo.toString ⟨.inputEdge, cfg.chan⟩
  | .scalingOut => "scaling@" ++ ResSourceInfo.toString ⟨.outputEdge, cfg.chan⟩
  | .factor => cfg.factorKey ++ "@" ++ ResSourceInfo.toString ⟨.user, cfg.chan⟩
  | .freq => "freq@" ++ ResSourceInfo.toString ⟨.user, cfg.chan⟩

/-- What was last written to the registers. -/
structure Registers where
  factorWord : Option (BitVec 32) := none
  n : Option (BitVec 32) := none
  m : Option (BitVec 32) := none
  timeIncr : Option (BitVec 32) := none
  scaleIq : Option (BitVec 32) := none
  freq : Option (BitVec 32) := none
  deriving DecidableEq

/-- A channel: what its properties hold, which of them are valid and which dirty, and what goes with
the registers. -/
structure Channel where
  value : RateProp → ℚ
  valid : RateProp → Bool
  dirty : RateProp → Bool
  /-- `_residual_scaling` -/
  residualScaling : ℚ := 1
  regs : Registers := {}

namespace Channel

/-- Assign to a property. -/
def assign (p : RateProp) (v : ℚ) (s : Channel) : Channel :=
  { s with
    value := Function.update s.value p v
    valid := Function.update s.valid p true
    dirty := Function.update s.dirty p (s.dirty p || decide (s.value p ≠ v)) }

/-- `set` of a property that a resolver may write, and that may be locked -/
def set (cfg : Config) (locked : RateProp → Bool) (p : RateProp) (v : ℚ) (s : Channel) :
    Except UhdError Channel :=
  if locked p then
    if s.value p ≠ v then
      .error (.resolveError ("Attempting to overwrite property " ++ cfg.propName p
        ++ "' with a new value after it was locked!"))
    else .ok s
  else .ok (s.assign p v)

/-- `force_dirty` -/
def forceDirty (cfg : Config) (locked : RateProp → Bool) (p : RateProp) (s : Channel) :
    Except UhdError Channel :=
  if locked p && !s.dirty p then
    .error (.resolveError ("Attempting to overwrite property " ++ cfg.propName p
      ++ "' with dirty flag after it was locked!"))
  else .ok { s with dirty := Function.update s.dirty p true }

/-- `get_output_rate` -/
def outputRate (s : Channel) : ℚ := if s.valid .sampRateOut then s.value .sampRateOut else 1

/-- The value of `decim` or `interp`. -/
def factor (s : Channel) : ℤ := truncInt (s.value .factor)

/-- `set_decim` or `set_interp` -/
def setFactor (cfg : Config) (f : ℤ) (s : Channel) : Except UhdError Channel :=
  if 0 < cfg.cicFactor f ∧ cfg.cicFactor f ≤ cfg.cicMax then
    .ok { s with
      regs := { s.regs with
        factorWord := some (cfg.factorWord f)
        n := if cfg.hasRatio then some (BitVec.ofInt 32 f) else s.regs.n
        m := if cfg.hasRatio then some 1 else s.regs.m
        timeIncr := some (cfg.timeIncr s.outputRate)
        scaleIq := some (BitVec.ofInt 32 (cfg.actualFactor f)) }
      residualScaling := cfg.residual f }
  else
    .error (.assertionError
      ("cic_" ++ cfg.factorKey ++ " > 0 and cic_" ++ cfg.factorKey ++ " <= _cic_max_"
        ++ cfg.factorKey))

/-- `uhd::math::wrap_frequency`, for a rate of 1 -/
def wrapFrequency (freq : ℚ) : ℚ :=
  if 1 / 2 < |freq - truncInt freq| then
    if 0 ≤ freq - truncInt freq then freq - truncInt freq - 1 else freq - truncInt freq + 1
  else freq - truncInt freq

/-- `get_freq_and_freq_word` -/
def getFreqAndFreqWord (requestedFreq tickRate : ℚ) : Except UhdError (ℚ × ℤ) :=
  let freqNormScaled := wrapFrequency (requestedFreq / tickRate) * 2 ^ 32
  let freqWord :=
    if 2 ^ 31 - 1 ≤ freqNormScaled then 2 ^ 31 - 1
    else if freqNormScaled ≤ -2 ^ 31 then -2 ^ 31
    else Config.lround freqNormScaled
  if |freqNormScaled| - 1 ≤ 2 ^ 31 - 1 then .ok (freqWord / 2 ^ 32 * tickRate, freqWord)
  else .error (.assertionError "std::abs(freq_norm_scaled) - 1 <= MAX_FREQ_WORD")

/-- The resolver of the frequency, with the rate that it depends on. -/
def resolveFreq (cfg : Config) (rate : RateProp) (locked : RateProp → Bool) (s : Channel) :
    Except UhdError Channel :=
  if s.valid rate then
    (getFreqAndFreqWord (s.value .freq) (s.value rate)).bind fun actual =>
      let s := { s with regs := { s.regs with freq := some (BitVec.ofInt 32 actual.2) } }
      if actual.1 ≠ s.value .freq then s.set cfg locked .freq actual.1 else .ok s
  else .ok s

/-- A channel whose properties were made, and not yet resolved. -/
def fresh : Channel where
  value p := if p = .factor then 1 else 0
  valid p := decide (p = .factor ∨ p = .freq)
  dirty _ := true

/-- `clean_props` -/
def clean (s : Channel) : Channel := { s with dirty := fun _ => false }

end Channel

/-- A resolver of a channel. -/
abbrev RateResolver := DirtyLoop.Resolver RateProp Channel UhdError

/-- `init_props`: run all the resolvers in turn, where everything is locked -/
def initProps : List RateResolver → Channel → Except UhdError Channel
  | [], s => .ok s.clean
  | r :: rs, s => (r.run (fun _ => true) s).bind (initProps rs)

/-- What suffices for the list of dirty properties, whatever is dirty. -/
def resolveFuel (rs : List RateResolver) : ℕ :=
  6 + 6 * ((rs.map fun r => r.outputs.length).sum + 1)

/-- `resolve_props`, where one property at most is dirty, and `clean_props` -/
def resolveProps (rs : List RateResolver) (p : RateProp) (s : Channel) : Except UhdError Channel :=
  match DirtyLoop.resolveLoop Channel.dirty rs (resolveFuel rs) (if s.dirty p then [p] else []) [] []
    s with
  | some result => result.map Channel.clean
  | none => .error (.runtimeError "the list of dirty properties does not end")

/-- A change of a property: to a rate, a scaling, or a factor. -/
inductive Change where
  | sampRateIn (rate : ℚ) (pos : 0 < rate)
  | sampRateOut (rate : ℚ) (pos : 0 < rate)
  | scalingIn (scaling : ℚ)
  | scalingOut (scaling : ℚ)
  | factor (f : ℤ)

namespace Change

/-- What is changed. -/
def prop : Change → RateProp
  | sampRateIn .. => .sampRateIn
  | sampRateOut .. => .sampRateOut
  | scalingIn _ => .scalingIn
  | scalingOut _ => .scalingOut
  | factor _ => .factor

/-- What it becomes. -/
def value : Change → ℚ
  | sampRateIn rate _ => rate
  | sampRateOut rate _ => rate
  | scalingIn scaling => scaling
  | scalingOut scaling => scaling
  | factor f => f

/-- The channel before the properties are resolved. -/
def apply (c : Change) (s : Channel) : Channel := s.assign c.prop c.value

end Change

/-- A change, and a resolution that succeeds. -/
def step (rs : List RateResolver) (s : Channel) (c : Change) : Option Channel :=
  (resolveProps rs c.prop (c.apply s)).toOption

theorem resolveLoop_ne_none (rs : List RateResolver) (p : RateProp) (s : Channel) :
    DirtyLoop.resolveLoop Channel.dirty rs (resolveFuel rs) (if s.dirty p then [p] else []) [] [] s
      ≠ none := by
  refine DirtyLoop.resolveLoop_ne_none List.nodup_nil ?_
  have hlength : (if s.dirty p then [p] else []).length ≤ 1 := by
    split_ifs
    · exact le_refl _
    · exact Nat.zero_le _
  have hcard : Fintype.card RateProp = 6 := rfl
  rw [hcard, List.length_nil, Nat.sub_zero]
  exact Nat.add_le_add (hlength.trans (by decide)) (le_refl _)

/-! ## The factors -/

namespace Config

variable {cfg : Config}

/-- A valid factor that is as near as any to what was requested. -/
def Nearest (cfg : Config) (requested : ℚ) (f : ℕ) : Prop :=
  f ∈ cfg.validFactors ∧ ∀ g ∈ cfg.validFactors, |requested - f| ≤ |requested - g|

theorem clipFrom_points (value last : ℚ) {fs : List ℕ} (hsorted : fs.Pairwise (· ≤ ·))
    (hlast : ∀ f ∈ fs, last ≤ f) :
    ∃ c, MetaRange.clipFrom value last (fs.map fun (f : ℕ) => ⟨f, f, 0, le_refl _⟩) = c ∧
      (c = last ∨ ∃ f ∈ fs, c = f) ∧ |value - c| ≤ |value - last| ∧
      (|value - c| = |value - last| → c ≤ last) ∧
      ∀ f ∈ fs, |value - c| ≤ |value - f| ∧ (|value - c| = |value - f| → c ≤ f) := by
  induction fs generalizing last with
  | nil =>
    exact ⟨last, rfl, Or.inl rfl, le_refl _, fun _ => le_refl _,
      fun f hf => absurd hf List.not_mem_nil⟩
  | cons g gs ih =>
    obtain ⟨hle, hsorted⟩ := List.pairwise_cons.mp hsorted
    have hlg : last ≤ g := hlast g List.mem_cons_self
    rw [List.map_cons, MetaRange.clipFrom]
    -- Below the next point, that one or the one before it is the nearest.
    by_cases hlt : value < g
    · rw [if_pos hlt]
      have hfar : ∀ f ∈ g :: gs, |value - g| ≤ |value - f| := by
        intro f hf
        have hgf : (g : ℚ) ≤ f := by
          rcases List.mem_cons.mp hf with rfl | hf
          · exact le_refl _
          · exact_mod_cast hle f hf
        rw [abs_of_neg (by linarith), abs_of_neg (by linarith)]
        linarith
      by_cases hnear : |value - g| < |value - last|
      · rw [if_pos hnear]
        refine ⟨g, rfl, Or.inr ⟨g, List.mem_cons_self, rfl⟩, hnear.le, fun heq => ?_,
          fun f hf => ⟨hfar f hf, fun _ => ?_⟩⟩
        · exact absurd heq hnear.ne
        · rcases List.mem_cons.mp hf with rfl | hf
          · exact le_refl _
          · exact_mod_cast hle f hf
      · rw [if_neg hnear]
        exact ⟨last, rfl, Or.inl rfl, le_refl _, fun _ => le_refl _, fun f hf =>
          ⟨(not_lt.mp hnear).trans (hfar f hf), fun _ => hlast f hf⟩⟩
    · rw [if_neg hlt]
      rw [not_lt] at hlt
      by_cases hat : value ≤ g
      · rw [if_pos hat]
        have heq : value = g := le_antisymm hat hlt
        refine ⟨value, rfl, Or.inr ⟨g, List.mem_cons_self, heq⟩, ?_, fun h => ?_,
          fun f hf => ⟨?_, fun h => ?_⟩⟩
        · rw [sub_self, abs_zero]
          exact abs_nonneg _
        · rw [sub_self, abs_zero, eq_comm, abs_eq_zero, sub_eq_zero] at h
          exact h.le
        · rw [sub_self, abs_zero]
          exact abs_nonneg _
        · rw [sub_self, abs_zero, eq_comm, abs_eq_zero, sub_eq_zero] at h
          exact h.le
      · rw [if_neg hat]
        rw [not_le] at hat
        obtain ⟨c, hc, hmem, hg, htie, hall⟩ := ih (g : ℚ) hsorted
          fun f hf => Nat.cast_le.mpr (hle f hf)
        refine ⟨c, hc, ?_, ?_, fun h => ?_, fun f hf => ?_⟩
        · rcases hmem with rfl | ⟨f, hf, rfl⟩
          · exact Or.inr ⟨g, List.mem_cons_self, rfl⟩
          · exact Or.inr ⟨f, List.mem_cons_of_mem g hf, rfl⟩
        · refine hg.trans ?_
          rw [abs_of_pos (by linarith), abs_of_pos (by linarith)]
          linarith
        · have hgl : |value - g| ≤ |value - last| := by
            rw [abs_of_pos (by linarith), abs_of_pos (by linarith)]
            linarith
          have hcg := htie (le_antisymm hg (by rw [h]; exact hgl))
          have hsame : |value - g| = |value - last| := le_antisymm hgl (by rw [← h]; exact hg)
          rw [abs_of_pos (by linarith), abs_of_pos (by linarith)] at hsame
          linarith
        · rcases List.mem_cons.mp hf with rfl | hf
          · exact ⟨hg, htie⟩
          · exact hall f hf

theorem sorted_validFactors (cfg : Config) : cfg.validFactors.Pairwise (· ≤ ·) :=
  (List.pairwise_lt_range.imp fun h => h.le).filter _

theorem one_mem_validFactors (cfg : Config) : 1 ∈ cfg.validFactors := by
  refine List.mem_filter.mpr ⟨List.mem_range.mpr ?_, rfl⟩
  exact Nat.lt_succ_of_le (Nat.mul_pos (Nat.two_pow_pos _) cfg.cicMax_pos)

theorem pos_of_mem {f : ℕ} (h : f ∈ cfg.validFactors) : 0 < f := by
  have hset := (List.mem_filter.mp h).2
  simp only [Bool.or_eq_true, beq_iff_eq, List.any_eq_true] at hset
  rcases hset with rfl | ⟨hb, -, cic, -, rfl⟩
  · exact Nat.one_pos
  · exact Nat.mul_pos (Nat.two_pow_pos _) (Nat.succ_pos _)

theorem checkMonotonic_validRanges (cfg : Config) :
    MetaRange.checkMonotonic cfg.validRanges = .ok () := by
  refine MetaRange.checkMonotonic_eq_ok.mpr ⟨?_, ?_⟩
  · rw [validRanges, Ne, List.map_eq_nil_iff]
    exact List.ne_nil_of_mem cfg.one_mem_validFactors
  · refine List.Pairwise.isChain ?_
    rw [validRanges, List.pairwise_map]
    exact cfg.sorted_validFactors.imp fun h => Nat.cast_le.mpr h

theorem coerce_of_nonneg (cfg : Config) {requested : ℚ} (h : 0 ≤ requested) :
    ∃ f : ℕ, cfg.coerce requested = .ok f ∧ cfg.Nearest requested f ∧
      ∀ g ∈ cfg.validFactors, |requested - f| = |requested - g| → f ≤ g := by
  rw [coerce, if_neg (not_lt.mpr h), MetaRange.clip, checkMonotonic_validRanges]
  dsimp only
  obtain ⟨first, rest, hlist⟩ := List.exists_cons_of_ne_nil
    (List.ne_nil_of_mem cfg.one_mem_validFactors)
  have hsorted := cfg.sorted_validFactors
  have hfirst : ∀ f ∈ cfg.validFactors, ((first : ℕ) : ℚ) ≤ f := by
    intro f hf
    rw [hlist] at hf hsorted
    rcases List.mem_cons.mp hf with rfl | hf
    · exact le_refl _
    · exact_mod_cast (List.pairwise_cons.mp hsorted).1 f hf
  obtain ⟨c, hc, hmem, -, -, hall⟩ := clipFrom_points requested _ hsorted hfirst
  obtain ⟨f, hf, rfl⟩ : ∃ f ∈ cfg.validFactors, c = f := by
    rcases hmem with rfl | hmem
    · exact ⟨first, by rw [hlist]; exact List.mem_cons_self, rfl⟩
    · exact hmem
  have hhead : (cfg.validRanges.map Range.stop).headD 0 = first := by
    rw [validRanges, hlist]
    rfl
  refine ⟨f, ?_, ⟨hf, fun g hg => (hall g hg).1⟩, fun g hg heq => ?_⟩
  · rw [hhead, validRanges, hc, Except.map]
    have htrunc : truncInt ((f : ℕ) : ℚ) = f := by
      rw [truncInt, if_pos (Nat.cast_nonneg f), ← Int.cast_natCast, Int.floor_intCast]
    rw [htrunc]
  · exact_mod_cast (hall g hg).2 heq

theorem coerce_of_mem {f : ℕ} (h : f ∈ cfg.validFactors) : cfg.coerce f = .ok f := by
  obtain ⟨g, hg, ⟨-, hnearest⟩, -⟩ := coerce_of_nonneg cfg (Nat.cast_nonneg f : (0 : ℚ) ≤ f)
  have hzero := hnearest f h
  rw [sub_self, abs_zero] at hzero
  have heq : (f : ℚ) = g := sub_eq_zero.mp (abs_eq_zero.mp (le_antisymm hzero (abs_nonneg _)))
  rw [hg, Nat.cast_injective heq]

theorem coerce_eq_ok {requested : ℚ} {d : ℤ} (h : cfg.coerce requested = .ok d) :
    ∃ f : ℕ, d = f ∧ cfg.Nearest requested f ∧
      ∀ g ∈ cfg.validFactors, |requested - f| = |requested - g| → f ≤ g := by
  have hnonneg : 0 ≤ requested := by
    by_contra hneg
    rw [coerce, if_pos (not_le.mp hneg)] at h
    cases h
  obtain ⟨f, hf, hrest⟩ := coerce_of_nonneg cfg hnonneg
  rw [hf] at h
  exact ⟨f, (Except.ok.inj h).symm, hrest⟩

end Config

/-! ## What the operations leave -/

theorem bind_eq_ok {ε α β : Type} {x : Except ε α} {f : α → Except ε β} {b : β} :
    x.bind f = .ok b ↔ ∃ a, x = .ok a ∧ f a = .ok b := by
  cases x with
  | error e =>
    constructor
    · intro h
      cases h
    · rintro ⟨a, ha, -⟩
      cases ha
  | ok a =>
    constructor
    · intro h
      exact ⟨a, rfl, h⟩
    · rintro ⟨a', ha', h⟩
      rw [Except.ok.inj ha']
      exact h

/-- A property was written. -/
structure Wrote (s : Channel) (p : RateProp) (v : ℚ) (t : Channel) : Prop where
  self : t.value p = v
  value : ∀ q, q ≠ p → t.value q = s.value q
  valid : ∀ q, q ≠ p → t.valid q = s.valid q
  valid_self : s.valid p = true → t.valid p = true
  valid_of_ne : s.value p ≠ v → t.valid p = true
  dirty : ∀ q, q ≠ p → t.dirty q = s.dirty q
  dirty_self : t.dirty p = (s.dirty p || decide (s.value p ≠ v))
  residual : t.residualScaling = s.residualScaling
  regs : t.regs = s.regs

section Operations

variable {cfg : Config} {locked : RateProp → Bool} {p : RateProp} {v : ℚ} {f : ℤ}
  {s t : Channel}

theorem wrote_assign (p : RateProp) (v : ℚ) (s : Channel) : Wrote s p v (s.assign p v) where
  self := Function.update_self _ _ _
  value _ hq := Function.update_of_ne hq _ _
  valid _ hq := Function.update_of_ne hq _ _
  valid_self _ := Function.update_self _ _ _
  valid_of_ne _ := Function.update_self _ _ _
  dirty _ hq := Function.update_of_ne hq _ _
  dirty_self := Function.update_self _ _ _
  residual := rfl
  regs := rfl

theorem valid_assign_self (p : RateProp) (v : ℚ) (s : Channel) : (s.assign p v).valid p = true :=
  Function.update_self _ _ _

theorem wrote_of_set (h : s.set cfg locked p v = .ok t) : Wrote s p v t := by
  rw [Channel.set] at h
  by_cases hlocked : locked p = true
  · rw [if_pos hlocked] at h
    by_cases hne : s.value p ≠ v
    · rw [if_pos hne] at h
      cases h
    · rw [if_neg hne] at h
      rw [← Except.ok.inj h]
      rw [not_not] at hne
      exact
        { self := hne
          value := fun _ _ => rfl
          valid := fun _ _ => rfl
          valid_self := id
          valid_of_ne := fun hne' => absurd hne hne'
          dirty := fun _ _ => rfl
          dirty_self := by rw [decide_eq_false (not_not_intro hne), Bool.or_false]
          residual := rfl
          regs := rfl }
  · rw [if_neg hlocked] at h
    rw [← Except.ok.inj h]
    exact wrote_assign p v s

/-- A property was marked as dirty. -/
structure Marked (s t : Channel) : Prop where
  value : t.value = s.value
  valid : t.valid = s.valid
  residual : t.residualScaling = s.residualScaling
  regs : t.regs = s.regs

theorem Marked.refl (s : Channel) : Marked s s := ⟨rfl, rfl, rfl, rfl⟩

theorem marked_of_forceDirty (h : s.forceDirty cfg locked p = .ok t) :
    Marked s t ∧ t.dirty = Function.update s.dirty p true := by
  rw [Channel.forceDirty] at h
  split at h
  · cases h
  · rw [← Except.ok.inj h]
    exact ⟨⟨rfl, rfl, rfl, rfl⟩, rfl⟩

/-- The registers and the scaling that is left are those of a factor. -/
structure RegsFor (cfg : Config) (f : ℤ) (s : Channel) : Prop where
  factorWord : s.regs.factorWord = some (cfg.factorWord f)
  ratio : cfg.hasRatio = true →
    s.regs.n = some (BitVec.ofInt 32 f) ∧ s.regs.m = some 1
  scaleIq : s.regs.scaleIq = some (BitVec.ofInt 32 (cfg.actualFactor f))
  residual : s.residualScaling = cfg.residual f

theorem RegsFor.of_eq (h : RegsFor cfg f s) (hregs : t.regs = s.regs)
    (hresidual : t.residualScaling = s.residualScaling) : RegsFor cfg f t where
  factorWord := by rw [hregs]; exact h.factorWord
  ratio := by rw [hregs]; exact h.ratio
  scaleIq := by rw [hregs]; exact h.scaleIq
  residual := by rw [hresidual]; exact h.residual

/-- The time increment is that of the output rate. -/
def TimeRight (cfg : Config) (s : Channel) : Prop :=
  s.regs.timeIncr = some (cfg.timeIncr s.outputRate)

theorem setFactor_eq_ok (h : s.setFactor cfg f = .ok t) :
    t.value = s.value ∧ t.valid = s.valid ∧ t.dirty = s.dirty ∧ RegsFor cfg f t ∧
      t.regs.timeIncr = some (cfg.timeIncr s.outputRate) := by
  rw [Channel.setFactor] at h
  split at h
  · rw [← Except.ok.inj h]
    exact ⟨rfl, rfl, rfl, ⟨rfl, fun hratio => ⟨if_pos hratio, if_pos hratio⟩, rfl, rfl⟩, rfl⟩
  · cases h

theorem outputRate_congr (hvalid : t.valid .sampRateOut = s.valid .sampRateOut)
    (hvalue : t.value .sampRateOut = s.value .sampRateOut) : t.outputRate = s.outputRate := by
  rw [Channel.outputRate, Channel.outputRate, hvalid, hvalue]

/-- The properties that the rates depend on. -/
def rateProps : List RateProp := [.sampRateIn, .sampRateOut, .factor]

/-- Two channels differ in nothing that has to do with the rates. -/
structure RatesEq (s t : Channel) : Prop where
  value : ∀ q ∈ rateProps, t.value q = s.value q
  valid : ∀ q ∈ rateProps, t.valid q = s.valid q
  residual : t.residualScaling = s.residualScaling
  regs : t.regs = { s.regs with freq := t.regs.freq }

theorem Marked.ratesEq (h : Marked s t) : RatesEq s t where
  value q _ := congrFun h.value q
  valid q _ := congrFun h.valid q
  residual := h.residual
  regs := by rw [h.regs]

theorem Wrote.ratesEq (h : Wrote s p v t) (hp : p ∉ rateProps) : RatesEq s t where
  value q hq := h.value q fun heq => hp (heq ▸ hq)
  valid q hq := h.valid q fun heq => hp (heq ▸ hq)
  residual := h.residual
  regs := by rw [h.regs]

theorem RatesEq.outputRate (h : RatesEq s t) : t.outputRate = s.outputRate :=
  outputRate_congr (h.valid _ (by decide)) (h.value _ (by decide))

theorem RatesEq.timeRight (h : RatesEq s t) (hs : TimeRight cfg s) : TimeRight cfg t := by
  rw [TimeRight, h.regs, h.outputRate]
  exact hs

theorem RatesEq.regsFor (h : RatesEq s t) (hs : RegsFor cfg f s) : RegsFor cfg f t where
  factorWord := by rw [h.regs]; exact hs.factorWord
  ratio := by rw [h.regs]; exact hs.ratio
  scaleIq := by rw [h.regs]; exact hs.scaleIq
  residual := by rw [h.residual]; exact hs.residual

theorem factor_eq (h : s.value .factor = (f : ℚ)) : s.factor = f := by
  rw [Channel.factor, h, truncInt]
  split_ifs
  · exact Int.floor_intCast f
  · exact Int.ceil_intCast f

theorem resolveFreq_eq_ok {rate : RateProp} (h : s.resolveFreq cfg rate locked = .ok t) :
    RatesEq s t ∧ (∀ q, q ≠ .freq → t.value q = s.value q) ∧
      (∀ q, q ≠ .freq → t.valid q = s.valid q) := by
  rw [Channel.resolveFreq] at h
  split_ifs at h with hvalid
  · obtain ⟨actual, -, h⟩ := bind_eq_ok.mp h
    dsimp only at h
    split_ifs at h with hne
    · have hw := wrote_of_set h
      refine ⟨⟨fun q hq => hw.value q fun heq => ?_, fun q hq => hw.valid q fun heq => ?_,
        hw.residual, by rw [hw.regs]⟩, hw.value, hw.valid⟩
      · exact absurd (heq ▸ hq) (by decide)
      · exact absurd (heq ▸ hq) (by decide)
    · rw [← Except.ok.inj h]
      exact ⟨⟨fun _ _ => rfl, fun _ _ => rfl, rfl, rfl⟩, fun _ _ => rfl, fun _ _ => rfl⟩
  · rw [← Except.ok.inj h]
    exact ⟨⟨fun _ _ => rfl, fun _ _ => rfl, rfl, rfl⟩, fun _ _ => rfl, fun _ _ => rfl⟩

theorem dirty_of_resolveFreq {rate : RateProp} (h : s.resolveFreq cfg rate locked = .ok t)
    {q : RateProp} (hq : q ≠ .freq) : t.dirty q = s.dirty q := by
  rw [Channel.resolveFreq] at h
  split_ifs at h with hvalid
  · obtain ⟨actual, -, h⟩ := bind_eq_ok.mp h
    dsimp only at h
    split_ifs at h with hne
    · exact (wrote_of_set h).dirty q hq
    · rw [← Except.ok.inj h]
  · rw [← Except.ok.inj h]

end Operations

/-! ## One resolution -/

section Resolution

variable {rs : List RateResolver} {p : RateProp} {s t : Channel}

theorem resolveProps_of_clean (h : s.dirty p = false) : resolveProps rs p s = .ok s.clean := by
  rw [resolveProps, h, if_neg Bool.false_ne_true, DirtyLoop.resolveLoop]
  rfl

theorem exists_of_resolveProps (hdirty : s.dirty p = true) (h : resolveProps rs p s = .ok t) :
    ∃ fuel pass u, DirtyLoop.process Channel.dirty [] p rs [] [] s = .ok pass ∧
      DirtyLoop.resolveLoop Channel.dirty rs fuel pass.added [p] pass.written pass.state
        = some (.ok u) ∧ t = u.clean := by
  rw [resolveProps, hdirty, if_pos rfl] at h
  cases hloop : DirtyLoop.resolveLoop Channel.dirty rs (resolveFuel rs) [p] [] [] s with
  | none =>
    rw [hloop] at h
    cases h
  | some result =>
    rw [hloop] at h
    cases result with
    | error e => cases h
    | ok u =>
      have hfuel : resolveFuel rs = (resolveFuel rs - 1) + 1 := by
        have hle : 6 ≤ resolveFuel rs := Nat.le_add_right _ _
        omega
      rw [hfuel] at hloop
      obtain ⟨pass, hpass, hrest⟩ :=
        (DirtyLoop.resolveLoop_process_eq_ok List.not_mem_nil).mp hloop
      exact ⟨_, pass, u, hpass, hrest, (Except.ok.inj h).symm⟩

theorem exists_clean_of_resolveProps {J : Channel → Prop} (h : resolveProps rs p s = .ok t)
    (hloop : ∀ {fuel u}, DirtyLoop.resolveLoop Channel.dirty rs fuel [p] [] [] s = some (.ok u) →
      J u) (hclean : ∀ u, J u → J u.clean) (hs : J s) : J t := by
  rw [resolveProps] at h
  by_cases hdirty : s.dirty p = true
  · rw [if_pos hdirty] at h
    cases hresult : DirtyLoop.resolveLoop Channel.dirty rs (resolveFuel rs) [p] [] [] s with
    | none =>
      rw [hresult] at h
      cases h
    | some result =>
      rw [hresult] at h
      cases result with
      | error e => cases h
      | ok u =>
        rw [← Except.ok.inj h]
        exact hclean u (hloop hresult)
  · rw [if_neg hdirty, DirtyLoop.resolveLoop] at h
    rw [← Except.ok.inj h]
    exact hclean s hs

theorem resolveProps_of_step {c : Change} (h : step rs s c = some t) :
    resolveProps rs c.prop (c.apply s) = .ok t := by
  rw [step] at h
  cases hres : resolveProps rs c.prop (c.apply s) with
  | error e =>
    rw [hres] at h
    cases h
  | ok u =>
    rw [hres] at h
    rw [Option.some.inj h]

end Resolution

end RateChanger
end Rfnoc
end UhdHost
