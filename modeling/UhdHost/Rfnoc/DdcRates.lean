import UhdHost.Rfnoc.RateChanger

/-!
# The rates of a DDC

The property resolvers of a channel of `ddc_block_control.cpp`.

* `Sound`: the input rate is the output rate times the decimation, and the registers are those of
  the decimation.  Every resolver keeps that, whatever is locked, and once it holds neither rate
  changes any more.
* Each change leads there with the first resolver that is run, but for one of the output rate where
  the decimation stays: then the input rate is not adapted (`Stuck`).
* `right_iff_changes`: whether what is claimed holds after a change, in every run.
-/

namespace UhdHost
namespace Rfnoc
namespace Ddc

open RateChanger

/-! ## The block -/

/-- `ddc_block_control_impl`: what the registers say about the block, and the tick rate. -/
structure Block where
  /-- The compat version 1, with `REG_ADDRS_V1`. -/
  multisample : Bool
  numHalfbands : ℕ
  cicMaxDecim : ℕ
  rbSpc : ℕ
  tickRate : ℚ
  cicMaxDecim_pos : 0 < cicMaxDecim
  cicMaxDecim_le : cicMaxDecim ≤ 0xff

/-- A channel of the block. -/
def Block.config (b : Block) (chan : ℕ) : Config where
  chan := chan
  factorKey := "decim"
  numHalfbands := b.numHalfbands
  cicMax := b.cicMaxDecim
  tickRate := b.tickRate
  spc := if b.multisample then b.rbSpc else 1
  hasRatio := !b.multisample
  ddsGain := if b.multisample then 1 else 2
  cicOrder := 4
  cicMax_pos := b.cicMaxDecim_pos
  cicMax_le := b.cicMaxDecim_le

/-! ## The resolvers -/

/-- The scaling of the output, where that of the input is known. -/
def setScalingOut (cfg : Config) (locked : RateProp → Bool) (s : Channel) :
    Except UhdError Channel :=
  if s.valid .scalingIn then
    s.set cfg locked .scalingOut (s.value .scalingIn * s.residualScaling)
  else .ok s

/-- The resolver for `decim`. -/
def resolveDecim (cfg : Config) (locked : RateProp → Bool) (s : Channel) :
    Except UhdError Channel :=
  (cfg.coerce (s.value .factor)).bind fun decim =>
    (s.set cfg locked .factor decim).bind fun s =>
      (if s.dirty .factor then s.setFactor cfg s.factor else .ok s).bind fun s =>
        (if s.valid .sampRateIn then
            s.set cfg locked .sampRateOut (s.value .sampRateIn / s.value .factor)
          else if s.valid .sampRateOut then
            s.set cfg locked .sampRateIn (s.value .sampRateOut * s.value .factor)
          else .ok s).bind fun s =>
          if s.valid .scalingIn then s.forceDirty cfg locked .scalingIn else .ok s

/-- The resolver for `samp_rate_in` and `scaling_in`. -/
def resolveIn (cfg : Config) (locked : RateProp → Bool) (s : Channel) :
    Except UhdError Channel :=
  (if s.valid .sampRateIn then
      (if s.valid .sampRateOut then
          (cfg.coerce (s.value .sampRateIn / s.value .sampRateOut)).bind fun decim =>
            (s.set cfg locked .factor decim).bind fun s =>
              (s.setFactor cfg s.factor).bind fun s =>
                s.set cfg locked .sampRateOut (s.value .sampRateIn / s.value .factor)
        else if s.valid .factor then
          s.set cfg locked .sampRateOut (s.value .sampRateIn / s.value .factor)
        else .ok s).bind fun s => s.forceDirty cfg locked .freq
    else .ok s).bind (setScalingOut cfg locked)

/-- The resolver for `samp_rate_out` and `scaling_out`. -/
def resolveOut (cfg : Config) (locked : RateProp → Bool) (s : Channel) :
    Except UhdError Channel :=
  (if s.valid .sampRateOut then
      (if s.valid .sampRateIn then
          (cfg.coerce (s.value .sampRateIn / s.value .sampRateOut)).bind fun decim =>
            (s.set cfg locked .factor decim).bind fun s => s.setFactor cfg s.factor
        else .ok s).bind fun s =>
        if s.dirty .factor then
          s.set cfg locked .sampRateIn (s.value .sampRateOut * s.value .factor)
        else .ok s
    else .ok s).bind (setScalingOut cfg locked)

/-- The resolvers, in the order in which they are added. -/
def resolvers (cfg : Config) : List RateResolver :=
  [⟨[.factor], [.factor, .sampRateOut, .sampRateIn, .scalingIn], resolveDecim cfg⟩,
    ⟨[.freq], [.freq], fun locked s => s.resolveFreq cfg .sampRateIn locked⟩,
    ⟨[.sampRateIn, .scalingIn], [.factor, .sampRateOut, .freq, .scalingOut], resolveIn cfg⟩,
    ⟨[.sampRateOut, .scalingOut], [.factor, .sampRateIn, .scalingOut], resolveOut cfg⟩]

/-! ## What is claimed -/

/-- The output scaling is the input scaling times what is left over. -/
def Scaled (s : Channel) : Prop :=
  s.valid .scalingIn = true → s.value .scalingOut = s.value .scalingIn * s.residualScaling

/-- The rates differ by the decimation. -/
def Balanced (s : Channel) : Prop :=
  s.valid .sampRateIn = true → s.valid .sampRateOut = true ∧
    s.value .sampRateIn = s.value .sampRateOut * s.value .factor

/-- **What is claimed after each resolution.** -/
structure Right (cfg : Config) (s : Channel) : Prop where
  balanced : Balanced s
  programmed : ∃ f ∈ cfg.validFactors, s.value .factor = (f : ℚ) ∧ RegsFor cfg f s
  timeRight : TimeRight cfg s
  scaled : Scaled s

/-- The input rate fits, or the decimation changes, which makes it fit. -/
def Fits (cfg : Config) (s : Channel) : Prop :=
  s.value .sampRateIn = s.value .sampRateOut * s.value .factor ∨
    cfg.coerce (s.value .sampRateIn / s.value .sampRateOut) ≠ .ok s.factor

/-- **The condition on a change.**  A new output rate fits the input rate, or changes the decimation;
where the input rate is not known, it has the time increment that is set.  A new input scaling
differs from what the property held, or fits the output scaling. -/
def Restorable (cfg : Config) (s : Channel) : Change → Prop
  | .sampRateOut rate pos =>
    if s.valid .sampRateIn then Fits cfg ((Change.sampRateOut rate pos).apply s)
    else s.regs.timeIncr = some (cfg.timeIncr rate)
  | .scalingIn scaling =>
    s.value .scalingIn ≠ scaling ∨ s.value .scalingOut = scaling * s.residualScaling
  | _ => True

/-! ## What holds all along -/

/-- What the resolvers rely on. -/
structure Basic (cfg : Config) (s : Channel) : Prop where
  factor_valid : s.valid .factor = true
  in_pos : s.valid .sampRateIn = true → 0 < s.value .sampRateIn
  in_zero : s.valid .sampRateIn = false → s.value .sampRateIn = 0
  out_pos : s.valid .sampRateOut = true → 0 < s.value .sampRateOut
  out_zero : s.valid .sampRateOut = false → s.value .sampRateOut = 0
  programmed : ∃ f ∈ cfg.validFactors, s.value .factor = (f : ℚ) ∧ RegsFor cfg f s

/-- **What every resolver keeps.** -/
structure Sound (cfg : Config) (s : Channel) : Prop extends Basic cfg s where
  balanced : Balanced s

section Resolvers

variable {cfg : Config} {locked : RateProp → Bool} {s t : Channel}

theorem setScalingOut_eq_ok (h : setScalingOut cfg locked s = .ok t) :
    Scaled t ∧ RatesEq s t ∧ ∀ q, q ≠ .scalingOut → t.dirty q = s.dirty q := by
  rw [setScalingOut] at h
  by_cases hvalid : s.valid .scalingIn = true
  · rw [if_pos hvalid] at h
    have hw := wrote_of_set h
    refine ⟨fun _ => ?_, hw.ratesEq (by decide), hw.dirty⟩
    rw [hw.self, hw.value .scalingIn (by decide), hw.residual]
  · rw [if_neg hvalid] at h
    rw [← Except.ok.inj h]
    exact ⟨fun hv => absurd hv hvalid, (Marked.refl s).ratesEq, fun _ _ => rfl⟩

theorem Basic.of_ratesEq (h : Basic cfg s) (heq : RatesEq s t) : Basic cfg t where
  factor_valid := by rw [heq.valid _ (by decide)]; exact h.factor_valid
  in_pos := by rw [heq.valid _ (by decide), heq.value _ (by decide)]; exact h.in_pos
  in_zero := by rw [heq.valid _ (by decide), heq.value _ (by decide)]; exact h.in_zero
  out_pos := by rw [heq.valid _ (by decide), heq.value _ (by decide)]; exact h.out_pos
  out_zero := by rw [heq.valid _ (by decide), heq.value _ (by decide)]; exact h.out_zero
  programmed := by
    obtain ⟨f, hf, hvalue, hregs⟩ := h.programmed
    exact ⟨f, hf, (heq.value _ (by decide)).trans hvalue, heq.regsFor hregs⟩

theorem Balanced.of_ratesEq (h : Balanced s) (heq : RatesEq s t) : Balanced t := by
  rw [Balanced, heq.valid _ (by decide), heq.valid _ (by decide), heq.value _ (by decide),
    heq.value _ (by decide), heq.value _ (by decide)]
  exact h

theorem Sound.of_ratesEq (h : Sound cfg s) (heq : RatesEq s t) : Sound cfg t :=
  ⟨h.toBasic.of_ratesEq heq, h.balanced.of_ratesEq heq⟩

theorem coerce_factor {f : ℕ} (hf : f ∈ cfg.validFactors) (hvalue : s.value .factor = (f : ℚ))
    {d : ℤ} (h : cfg.coerce (s.value .factor) = .ok d) : d = f := by
  rw [hvalue, Config.coerce_of_mem hf] at h
  exact (Except.ok.inj h).symm

/-- **The resolver for the input rate** leads to a sound channel; the time increment is right then
unless the output rate was changed. -/
theorem resolveIn_spec (hs : Basic cfg s) (h : resolveIn cfg locked s = .ok t) :
    Sound cfg t ∧ Scaled t ∧ t.valid .sampRateIn = s.valid .sampRateIn ∧
      t.value .sampRateIn = s.value .sampRateIn ∧
      (s.valid .sampRateIn = true → TimeRight cfg t ∨ t.dirty .sampRateOut = true) ∧
      (s.valid .sampRateIn = false ∨ Sound cfg s → TimeRight cfg s → TimeRight cfg t) := by
  rw [resolveIn] at h
  obtain ⟨u, hu, h⟩ := bind_eq_ok.mp h
  obtain ⟨hscaled, heq, hdirty⟩ := setScalingOut_eq_ok h
  by_cases hin : s.valid .sampRateIn = true
  · rw [if_pos hin] at hu
    obtain ⟨w, hw, hu⟩ := bind_eq_ok.mp hu
    obtain ⟨hmarked, hmarkedDirty⟩ := marked_of_forceDirty hu
    obtain ⟨f, hf, hfactor, hregsFor⟩ := hs.programmed
    have hinPos := hs.in_pos hin
    -- What the resolver does to the rates and the decimation.
    obtain ⟨g, hg, hgvalue, hgregs, hgin, hginValid, hgout, hgoutValid, hgfactorValid, hgtime,
        hgkeep⟩ : ∃ g ∈ cfg.validFactors, w.value .factor = (g : ℚ) ∧ RegsFor cfg g w ∧
          w.value .sampRateIn = s.value .sampRateIn ∧ w.valid .sampRateIn = true ∧
          w.value .sampRateOut = s.value .sampRateIn / g ∧ w.valid .sampRateOut = true ∧
          w.valid .factor = true ∧
          (TimeRight cfg w ∨ w.dirty .sampRateOut = true) ∧
          (Sound cfg s → TimeRight cfg s → TimeRight cfg w) := by
      by_cases hout : s.valid .sampRateOut = true
      · rw [if_pos hout] at hw
        obtain ⟨d, hd, hw⟩ := bind_eq_ok.mp hw
        obtain ⟨g, rfl, ⟨hg, -⟩, -⟩ := Config.coerce_eq_ok hd
        obtain ⟨s₁, hset, hw⟩ := bind_eq_ok.mp hw
        have hw₁ := wrote_of_set hset
        have hgself : s₁.value .factor = ((g : ℤ) : ℚ) := hw₁.self
        obtain ⟨s₂, hset₂, hw⟩ := bind_eq_ok.mp hw
        rw [factor_eq hgself] at hset₂
        obtain ⟨hvalue₂, hvalid₂, hdirty₂, hregs₂, htime₂⟩ := setFactor_eq_ok hset₂
        have hw₃ := wrote_of_set hw
        have hgpos : (0 : ℚ) < g := Nat.cast_pos.mpr (Config.pos_of_mem hg)
        have hin₂ : s₂.value .sampRateIn = s.value .sampRateIn := by
          rw [hvalue₂, hw₁.value _ (by decide)]
        have hfactor₂ : s₂.value .factor = (g : ℚ) := by
          rw [hvalue₂, hgself, Int.cast_natCast]
        rw [hin₂, hfactor₂] at hw₃
        have houtValid₂ : s₂.valid .sampRateOut = true := by
          rw [hvalid₂, hw₁.valid _ (by decide)]
          exact hout
        have hrate₂ : s₂.outputRate = s₁.outputRate := outputRate_congr (by rw [hvalid₂])
          (by rw [hvalue₂])
        have hkeep : s₂.value .sampRateOut = s.value .sampRateIn / g → TimeRight cfg w := by
          intro hsame
          have hrate₃ : w.outputRate = s₂.outputRate :=
            outputRate_congr (by rw [hw₃.valid_self houtValid₂, houtValid₂])
              (by rw [hw₃.self, hsame])
          rw [TimeRight, hw₃.regs, hrate₃, hrate₂]
          exact htime₂
        refine ⟨g, hg, ?_, ?_, ?_, ?_, hw₃.self, hw₃.valid_self houtValid₂, ?_, ?_, ?_⟩
        · rw [hw₃.value _ (by decide), hfactor₂]
        · exact hregs₂.of_eq hw₃.regs hw₃.residual
        · rw [hw₃.value _ (by decide), hin₂]
        · rw [hw₃.valid _ (by decide), hvalid₂, hw₁.valid _ (by decide)]
          exact hin
        · rw [hw₃.valid _ (by decide), hvalid₂]
          exact hw₁.valid_self hs.factor_valid
        · by_cases hsame : s₂.value .sampRateOut = s.value .sampRateIn / g
          · exact Or.inl (hkeep hsame)
          · right
            rw [hw₃.dirty_self, decide_eq_true hsame, Bool.or_true]
        · intro hsound _
          refine hkeep ?_
          obtain ⟨-, hbalanced⟩ := hsound.balanced hin
          have hpos := hs.out_pos hout
          have hratio : s.value .sampRateIn / s.value .sampRateOut = s.value .factor := by
            rw [hbalanced]
            exact mul_div_cancel_left₀ _ hpos.ne'
          rw [hratio, hfactor, Config.coerce_of_mem hf] at hd
          have hfg : (f : ℤ) = g := Except.ok.inj hd
          rw [hvalue₂, hw₁.value _ (by decide), hbalanced, hfactor, ← Int.cast_natCast (n := g),
            ← hfg, Int.cast_natCast]
          exact (mul_div_cancel_right₀ _
            (Nat.cast_pos.mpr (Config.pos_of_mem hf)).ne').symm
      · rw [if_neg hout, if_pos hs.factor_valid] at hw
        have hw₁ := wrote_of_set hw
        rw [Bool.not_eq_true] at hout
        have hfpos : (0 : ℚ) < f := Nat.cast_pos.mpr (Config.pos_of_mem hf)
        have hne : s.value .sampRateOut ≠ s.value .sampRateIn / s.value .factor := by
          rw [hs.out_zero hout, hfactor]
          exact (div_pos hinPos hfpos).ne
        refine ⟨f, hf, ?_, ?_, ?_, ?_, ?_, hw₁.valid_of_ne hne, ?_, Or.inr ?_, ?_⟩
        · rw [hw₁.value _ (by decide), hfactor]
        · exact hregsFor.of_eq hw₁.regs hw₁.residual
        · exact hw₁.value _ (by decide)
        · rw [hw₁.valid _ (by decide)]
          exact hin
        · rw [hw₁.self, hfactor]
        · rw [hw₁.valid _ (by decide)]
          exact hs.factor_valid
        · rw [hw₁.dirty_self, decide_eq_true hne, Bool.or_true]
        · intro hsound _
          rw [(hsound.balanced hin).1] at hout
          exact absurd hout.symm Bool.false_ne_true
    have hgpos : (0 : ℚ) < g := Nat.cast_pos.mpr (Config.pos_of_mem hg)
    have hu' : Sound cfg u := by
      refine ⟨⟨?_, fun _ => ?_, fun hin' => ?_, fun _ => ?_, fun hout => ?_, g, hg, ?_, ?_⟩,
        fun _ => ⟨?_, ?_⟩⟩
      · rw [hmarked.valid]
        exact hgfactorValid
      · rw [hmarked.value, hgin]
        exact hinPos
      · rw [hmarked.valid, hginValid] at hin'
        cases hin'
      · rw [hmarked.value, hgout]
        exact div_pos hinPos hgpos
      · rw [hmarked.valid, hgoutValid] at hout
        cases hout
      · rw [hmarked.value, hgvalue]
      · exact hgregs.of_eq hmarked.regs hmarked.residual
      · rw [hmarked.valid]
        exact hgoutValid
      · rw [hmarked.value, hgin, hgout, hgvalue]
        exact (div_mul_cancel₀ _ hgpos.ne').symm
    have htime : TimeRight cfg w → TimeRight cfg t := fun htime =>
      heq.timeRight (hmarked.ratesEq.timeRight htime)
    refine ⟨hu'.of_ratesEq heq, hscaled, ?_, ?_, fun _ => ?_, fun hor htimeS => ?_⟩
    · rw [heq.valid _ (by decide), hmarked.valid, hginValid, hin]
    · rw [heq.value _ (by decide), hmarked.value, hgin]
    · refine hgtime.imp htime fun hmark => ?_
      rw [hdirty _ (by decide), hmarkedDirty, Function.update_of_ne (by decide)]
      exact hmark
    · refine htime (hgkeep (hor.resolve_left ?_) htimeS)
      rw [hin]
      exact Bool.true_eq_false.mp
  · rw [if_neg hin] at hu
    have hus : s = u := Except.ok.inj hu
    subst hus
    have hsound : Sound cfg s := ⟨hs, fun hvalid => absurd hvalid hin⟩
    exact ⟨hsound.of_ratesEq heq, hscaled, heq.valid _ (by decide), heq.value _ (by decide),
      fun hvalid => absurd hvalid hin, fun _ htimeS => heq.timeRight htimeS⟩

/-- **The resolver for the output rate** leads to a sound channel where the input rate fits, or is
made to. -/
theorem resolveOut_spec (hs : Basic cfg s)
    (hknown : s.valid .sampRateIn = true → s.valid .sampRateOut = true)
    (hfits : s.valid .sampRateIn = true → Fits cfg s) (h : resolveOut cfg locked s = .ok t) :
    Sound cfg t ∧ Scaled t ∧ (s.valid .sampRateIn = true → t.valid .sampRateIn = true) ∧
      (s.valid .sampRateIn = true ∨ TimeRight cfg s → TimeRight cfg t) := by
  rw [resolveOut] at h
  obtain ⟨u, hu, h⟩ := bind_eq_ok.mp h
  obtain ⟨hscaled, heq, -⟩ := setScalingOut_eq_ok h
  obtain ⟨f, hf, hfactor, hregsFor⟩ := hs.programmed
  -- It suffices to look at what is done before the scaling.
  suffices hu' : Sound cfg u ∧ (s.valid .sampRateIn = true → u.valid .sampRateIn = true) ∧
      (s.valid .sampRateIn = true ∨ TimeRight cfg s → TimeRight cfg u) by
    obtain ⟨hsound, hkeep, htime⟩ := hu'
    refine ⟨hsound.of_ratesEq heq, hscaled, fun hin => ?_, fun hor => heq.timeRight (htime hor)⟩
    rw [heq.valid _ (by decide)]
    exact hkeep hin
  by_cases hout : s.valid .sampRateOut = true
  · rw [if_pos hout] at hu
    have houtPos := hs.out_pos hout
    obtain ⟨w, hw, hu⟩ := bind_eq_ok.mp hu
    by_cases hin : s.valid .sampRateIn = true
    · rw [if_pos hin] at hw
      obtain ⟨d, hd, hw⟩ := bind_eq_ok.mp hw
      obtain ⟨g, rfl, ⟨hg, -⟩, -⟩ := Config.coerce_eq_ok hd
      obtain ⟨s₁, hset, hw⟩ := bind_eq_ok.mp hw
      have hw₁ := wrote_of_set hset
      have hgself : s₁.value .factor = ((g : ℤ) : ℚ) := hw₁.self
      rw [factor_eq hgself] at hw
      obtain ⟨hvalue₂, hvalid₂, hdirty₂, hregs₂, htime₂⟩ := setFactor_eq_ok hw
      have hgpos : (0 : ℚ) < g := Nat.cast_pos.mpr (Config.pos_of_mem hg)
      have hfactorW : w.value .factor = (g : ℚ) := by
        rw [hvalue₂, hgself, Int.cast_natCast]
      have houtW : w.value .sampRateOut = s.value .sampRateOut := by
        rw [hvalue₂, hw₁.value _ (by decide)]
      have houtValidW : w.valid .sampRateOut = true := by
        rw [hvalid₂, hw₁.valid _ (by decide)]
        exact hout
      have hinW : w.value .sampRateIn = s.value .sampRateIn := by
        rw [hvalue₂, hw₁.value _ (by decide)]
      have hinValidW : w.valid .sampRateIn = true := by
        rw [hvalid₂, hw₁.valid _ (by decide)]
        exact hin
      have hfactorValidW : w.valid .factor = true := by
        rw [hvalid₂]
        exact hw₁.valid_self hs.factor_valid
      have htimeW : TimeRight cfg w := by
        rw [TimeRight, outputRate_congr (s := s₁) (congrFun hvalid₂ _) (congrFun hvalue₂ _)]
        exact htime₂
      by_cases hdirty : w.dirty .factor = true
      · rw [if_pos hdirty, hfactorW, houtW] at hu
        have hw₃ := wrote_of_set hu
        refine ⟨⟨⟨?_, fun _ => ?_, fun hin' => ?_, fun _ => ?_, fun hinvalid => ?_, g, hg, ?_, ?_⟩,
          fun _ => ⟨?_, ?_⟩⟩, fun _ => hw₃.valid_self hinValidW, fun _ => ?_⟩
        · rw [hw₃.valid _ (by decide)]
          exact hfactorValidW
        · rw [hw₃.self]
          exact mul_pos houtPos hgpos
        · rw [hw₃.valid_self hinValidW] at hin'
          cases hin'
        · rw [hw₃.value _ (by decide), houtW]
          exact houtPos
        · rw [hw₃.valid _ (by decide), houtValidW] at hinvalid
          cases hinvalid
        · rw [hw₃.value _ (by decide), hfactorW]
        · exact hregs₂.of_eq hw₃.regs hw₃.residual
        · rw [hw₃.valid _ (by decide)]
          exact houtValidW
        · rw [hw₃.self, hw₃.value _ (by decide), hw₃.value _ (by decide), houtW, hfactorW]
        · rw [TimeRight, hw₃.regs,
            outputRate_congr (hw₃.valid _ (by decide)) (hw₃.value _ (by decide))]
          exact htimeW
      · rw [if_neg hdirty] at hu
        obtain rfl := Except.ok.inj hu
        -- The decimation has not changed, and the input rate fits.
        rw [Bool.not_eq_true, hdirty₂, hw₁.dirty_self, Bool.or_eq_false_iff,
          decide_eq_false_iff_not, not_not] at hdirty
        have hsame : s.factor = g := factor_eq hdirty.2
        have hbalanced : s.value .sampRateIn = s.value .sampRateOut * s.value .factor := by
          refine (hfits hin).resolve_right fun hne => hne ?_
          rw [hd, hsame]
        refine ⟨⟨⟨hfactorValidW, fun _ => ?_, fun hin' => ?_, fun _ => ?_, fun hinvalid => ?_, g, hg,
          hfactorW, hregs₂⟩, fun _ => ⟨houtValidW, ?_⟩⟩, fun _ => hinValidW, fun _ => htimeW⟩
        · rw [hinW]
          exact hs.in_pos hin
        · rw [hinValidW] at hin'
          cases hin'
        · rw [houtW]
          exact houtPos
        · rw [houtValidW] at hinvalid
          cases hinvalid
        · rw [hinW, houtW, hfactorW, hbalanced, hdirty.2, Int.cast_natCast]
    · rw [if_neg hin] at hw
      obtain rfl := Except.ok.inj hw
      have hfpos : (0 : ℚ) < f := Nat.cast_pos.mpr (Config.pos_of_mem hf)
      by_cases hdirty : s.dirty .factor = true
      · rw [if_pos hdirty, hfactor] at hu
        have hw₃ := wrote_of_set hu
        have hne : s.value .sampRateIn ≠ s.value .sampRateOut * f := by
          rw [hs.in_zero (Bool.not_eq_true _ ▸ hin)]
          exact (mul_pos houtPos hfpos).ne
        refine ⟨⟨⟨?_, fun _ => ?_, fun hin' => ?_, fun _ => ?_, fun hinvalid => ?_, f, hf, ?_, ?_⟩,
          fun _ => ⟨?_, ?_⟩⟩, fun hin' => absurd hin' hin, fun hor => ?_⟩
        · rw [hw₃.valid _ (by decide)]
          exact hs.factor_valid
        · rw [hw₃.self]
          exact mul_pos houtPos hfpos
        · rw [hw₃.valid_of_ne hne] at hin'
          cases hin'
        · rw [hw₃.value _ (by decide)]
          exact houtPos
        · rw [hw₃.valid _ (by decide), hout] at hinvalid
          cases hinvalid
        · rw [hw₃.value _ (by decide), hfactor]
        · exact hregsFor.of_eq hw₃.regs hw₃.residual
        · rw [hw₃.valid _ (by decide)]
          exact hout
        · rw [hw₃.self, hw₃.value _ (by decide), hw₃.value _ (by decide), hfactor]
        · rw [TimeRight, hw₃.regs,
            outputRate_congr (hw₃.valid _ (by decide)) (hw₃.value _ (by decide))]
          exact hor.resolve_left hin
      · rw [if_neg hdirty] at hu
        obtain rfl := Except.ok.inj hu
        exact ⟨⟨hs, fun hin' => absurd hin' hin⟩, id, fun hor => hor.resolve_left hin⟩
  · rw [if_neg hout] at hu
    obtain rfl := Except.ok.inj hu
    have hin : ¬ s.valid .sampRateIn = true := fun hin => hout (hknown hin)
    exact ⟨⟨hs, fun hin' => absurd hin' hin⟩, id, fun hor => hor.resolve_left hin⟩

/-- **The resolver for the decimation** leads to a sound channel, whatever the decimation was before;
the time increment is right then unless the output rate was changed, and the scalings follow. -/
theorem resolveDecim_spec (hvalid : s.valid .factor = true)
    (hinPos : s.valid .sampRateIn = true → 0 < s.value .sampRateIn)
    (hinZero : s.valid .sampRateIn = false → s.value .sampRateIn = 0)
    (houtPos : s.valid .sampRateOut = true → 0 < s.value .sampRateOut)
    (houtZero : s.valid .sampRateOut = false → s.value .sampRateOut = 0)
    (hknown : s.valid .sampRateIn = true → s.valid .sampRateOut = true)
    (hprogrammed : s.dirty .factor = true ∨
      ∃ f ∈ cfg.validFactors, s.value .factor = (f : ℚ) ∧ RegsFor cfg f s)
    (h : resolveDecim cfg locked s = .ok t) :
    Sound cfg t ∧ (s.valid .sampRateIn = true → t.valid .sampRateIn = true) ∧
      (s.dirty .factor = true → TimeRight cfg t ∨
        (t.dirty .sampRateOut = true ∧ s.valid .sampRateIn = true)) ∧
      (t.valid .scalingIn = true → t.dirty .scalingIn = true) ∧
      (Sound cfg s → TimeRight cfg s → TimeRight cfg t) ∧
      (Sound cfg s → Scaled s → Scaled t) := by
  rw [resolveDecim] at h
  obtain ⟨d, hd, h⟩ := bind_eq_ok.mp h
  obtain ⟨g, rfl, ⟨hg, -⟩, -⟩ := Config.coerce_eq_ok hd
  have hgpos : (0 : ℚ) < g := Nat.cast_pos.mpr (Config.pos_of_mem hg)
  obtain ⟨s₁, hset, h⟩ := bind_eq_ok.mp h
  have hw₁ := wrote_of_set hset
  have hgself : s₁.value .factor = (g : ℚ) := by rw [hw₁.self, Int.cast_natCast]
  obtain ⟨s₂, hs₂, h⟩ := bind_eq_ok.mp h
  -- The registers are those of the decimation, be it that they were that before.
  obtain ⟨hvalue₂, hvalid₂, hdirty₂, hregs₂, htime₂, hkeep₂⟩ : s₂.value = s₁.value ∧
      s₂.valid = s₁.valid ∧ s₂.dirty = s₁.dirty ∧ RegsFor cfg g s₂ ∧
      (s.dirty .factor = true → s₂.regs.timeIncr = some (cfg.timeIncr s.outputRate)) ∧
      (TimeRight cfg s → s₂.regs.timeIncr = some (cfg.timeIncr s.outputRate)) := by
    have hrate : s₁.outputRate = s.outputRate :=
      outputRate_congr (hw₁.valid _ (by decide)) (hw₁.value _ (by decide))
    by_cases hdirty : s₁.dirty .factor = true
    · rw [if_pos hdirty, factor_eq (hw₁.self)] at hs₂
      obtain ⟨hvalue₂, hvalid₂, hdirty₂, hregs₂, htime₂⟩ := setFactor_eq_ok hs₂
      rw [hrate] at htime₂
      exact ⟨hvalue₂, hvalid₂, hdirty₂, hregs₂, fun _ => htime₂, fun _ => htime₂⟩
    · rw [if_neg hdirty] at hs₂
      obtain rfl := Except.ok.inj hs₂
      rw [Bool.not_eq_true, hw₁.dirty_self, Bool.or_eq_false_iff] at hdirty
      obtain ⟨f, hf, hfactor, hregsFor⟩ := hprogrammed.resolve_left (by
        rw [hdirty.1]
        exact Bool.false_ne_true)
      have hfg : (g : ℤ) = f := coerce_factor hf hfactor hd
      refine ⟨rfl, rfl, rfl, ?_, fun hdirty' => ?_, fun htime => ?_⟩
      · rw [hfg]
        exact hregsFor.of_eq hw₁.regs hw₁.residual
      · rw [hdirty.1] at hdirty'
        cases hdirty'
      · rw [hw₁.regs]
        exact htime
  obtain ⟨s₃, hs₃, h⟩ := bind_eq_ok.mp h
  have hin₂ : s₂.value .sampRateIn = s.value .sampRateIn := by
    rw [hvalue₂, hw₁.value _ (by decide)]
  have hout₂ : s₂.value .sampRateOut = s.value .sampRateOut := by
    rw [hvalue₂, hw₁.value _ (by decide)]
  have hinValid₂ : s₂.valid .sampRateIn = s.valid .sampRateIn := by
    rw [hvalid₂, hw₁.valid _ (by decide)]
  have houtValid₂ : s₂.valid .sampRateOut = s.valid .sampRateOut := by
    rw [hvalid₂, hw₁.valid _ (by decide)]
  have hfactorValid₂ : s₂.valid .factor = true := by
    rw [hvalid₂]
    exact hw₁.valid_self hvalid
  have hfactor₂ : s₂.value .factor = (g : ℚ) := by rw [hvalue₂, hgself]
  have hscalings₂ : s₂.value .scalingIn = s.value .scalingIn ∧
      s₂.value .scalingOut = s.value .scalingOut ∧ s₂.valid .scalingIn = s.valid .scalingIn := by
    rw [hvalue₂, hvalid₂]
    exact ⟨hw₁.value _ (by decide), hw₁.value _ (by decide), hw₁.valid _ (by decide)⟩
  -- What becomes of the rates.
  obtain ⟨hsound₃, hin₃, hscalings₃, hregs₃, htime₃⟩ : Sound cfg s₃ ∧
      (s.valid .sampRateIn = true → s₃.valid .sampRateIn = true) ∧
      (s₃.value .scalingIn = s₂.value .scalingIn ∧ s₃.value .scalingOut = s₂.value .scalingOut ∧
        s₃.valid .scalingIn = s₂.valid .scalingIn ∧
        s₃.residualScaling = s₂.residualScaling) ∧
      s₃.regs = s₂.regs ∧
      (s₃.outputRate = s.outputRate ∨ (s₃.dirty .sampRateOut = true ∧
        s.value .sampRateOut ≠ s.value .sampRateIn / g ∧ s.valid .sampRateIn = true)) := by
    by_cases hin : s.valid .sampRateIn = true
    · rw [if_pos (hinValid₂.trans hin), hin₂, hfactor₂] at hs₃
      have hw₃ := wrote_of_set hs₃
      have houtValid₃ : s₃.valid .sampRateOut = true :=
        hw₃.valid_self (houtValid₂.trans (hknown hin))
      have hinValid₃ : s₃.valid .sampRateIn = true := by
        rw [hw₃.valid _ (by decide), hinValid₂]
        exact hin
      refine ⟨⟨⟨?_, fun _ => ?_, fun hin' => ?_, fun _ => ?_, fun hinvalid => ?_, g, hg, ?_,
        hregs₂.of_eq hw₃.regs hw₃.residual⟩, fun _ => ⟨houtValid₃, ?_⟩⟩, fun _ => hinValid₃,
        ⟨hw₃.value _ (by decide), hw₃.value _ (by decide), hw₃.valid _ (by decide),
          hw₃.residual⟩, hw₃.regs, ?_⟩
      · rw [hw₃.valid _ (by decide)]
        exact hfactorValid₂
      · rw [hw₃.value _ (by decide), hin₂]
        exact hinPos hin
      · rw [hinValid₃] at hin'
        cases hin'
      · rw [hw₃.self]
        exact div_pos (hinPos hin) hgpos
      · rw [houtValid₃] at hinvalid
        cases hinvalid
      · rw [hw₃.value _ (by decide), hfactor₂]
      · rw [hw₃.value _ (by decide), hw₃.self, hw₃.value _ (by decide), hin₂, hfactor₂]
        exact (div_mul_cancel₀ _ hgpos.ne').symm
      · by_cases hsame : s₂.value .sampRateOut = s.value .sampRateIn / g
        · refine Or.inl (outputRate_congr ?_ ?_)
          · rw [houtValid₃, hknown hin]
          · rw [hw₃.self, ← hsame, hout₂]
        · refine Or.inr ⟨?_, ?_, hin⟩
          · rw [hw₃.dirty_self, decide_eq_true hsame, Bool.or_true]
          · rw [← hout₂]
            exact hsame
    · rw [if_neg (by rw [hinValid₂]; exact hin)] at hs₃
      by_cases hout : s.valid .sampRateOut = true
      · rw [if_pos (houtValid₂.trans hout), hout₂, hfactor₂] at hs₃
        have hw₃ := wrote_of_set hs₃
        have houtValid₃ : s₃.valid .sampRateOut = true := by
          rw [hw₃.valid _ (by decide), houtValid₂]
          exact hout
        have hne : s₂.value .sampRateIn ≠ s.value .sampRateOut * g := by
          rw [hin₂, hinZero (Bool.not_eq_true _ ▸ hin)]
          exact (mul_pos (houtPos hout) hgpos).ne
        refine ⟨⟨⟨?_, fun _ => ?_, fun hin' => ?_, fun _ => ?_, fun hinvalid => ?_, g, hg, ?_,
          hregs₂.of_eq hw₃.regs hw₃.residual⟩, fun _ => ⟨houtValid₃, ?_⟩⟩,
          fun hin' => absurd hin' hin,
          ⟨hw₃.value _ (by decide), hw₃.value _ (by decide), hw₃.valid _ (by decide),
            hw₃.residual⟩, hw₃.regs, Or.inl (outputRate_congr ?_ ?_)⟩
        · rw [hw₃.valid _ (by decide)]
          exact hfactorValid₂
        · rw [hw₃.self]
          exact mul_pos (houtPos hout) hgpos
        · rw [hw₃.valid_of_ne hne] at hin'
          cases hin'
        · rw [hw₃.value _ (by decide), hout₂]
          exact houtPos hout
        · rw [houtValid₃] at hinvalid
          cases hinvalid
        · rw [hw₃.value _ (by decide), hfactor₂]
        · rw [hw₃.self, hw₃.value _ (by decide), hw₃.value _ (by decide), hout₂, hfactor₂]
        · rw [hw₃.valid _ (by decide), houtValid₂]
        · rw [hw₃.value _ (by decide), hout₂]
      · rw [if_neg (by rw [houtValid₂]; exact hout)] at hs₃
        obtain rfl := Except.ok.inj hs₃
        refine ⟨⟨⟨hfactorValid₂, fun hin' => absurd (hinValid₂ ▸ hin') hin, fun _ => ?_,
          fun hout' => absurd (houtValid₂ ▸ hout') hout, fun _ => ?_, g, hg, hfactor₂, hregs₂⟩,
          fun hin' => absurd (hinValid₂ ▸ hin') hin⟩, fun hin' => absurd hin' hin,
          ⟨rfl, rfl, rfl, rfl⟩, rfl, Or.inl (outputRate_congr houtValid₂ hout₂)⟩
        · rw [hin₂]
          exact hinZero (Bool.not_eq_true _ ▸ hin)
        · rw [hout₂]
          exact houtZero (Bool.not_eq_true _ ▸ hout)
  have hmarked : Marked s₃ t ∧ (s₃.dirty .sampRateOut = true → t.dirty .sampRateOut = true) ∧
      (t.valid .scalingIn = true → t.dirty .scalingIn = true) := by
    by_cases hscaling : s₃.valid .scalingIn = true
    · rw [if_pos hscaling] at h
      obtain ⟨hmarked, hdirty⟩ := marked_of_forceDirty h
      refine ⟨hmarked, fun hout => ?_, fun _ => ?_⟩
      · rw [hdirty, Function.update_of_ne (by decide)]
        exact hout
      · rw [hdirty, Function.update_self]
    · rw [if_neg hscaling] at h
      obtain rfl := Except.ok.inj h
      exact ⟨Marked.refl _, id, fun hvalid' => absurd hvalid' hscaling⟩
  obtain ⟨hmarked, hmarkedOut, hmarkedScaling⟩ := hmarked
  have hrate : t.outputRate = s₃.outputRate := hmarked.ratesEq.outputRate
  have hsoundT : Sound cfg t := hsound₃.of_ratesEq hmarked.ratesEq
  refine ⟨hsoundT, fun hin => ?_, fun hdirty => ?_, hmarkedScaling, fun hsound htime => ?_,
    fun hsound hscaled hvalid' => ?_⟩
  · rw [hmarked.valid]
    exact hin₃ hin
  · rcases htime₃ with hsame | ⟨hmark, -, hin⟩
    · left
      rw [TimeRight, hmarked.regs, hregs₃, hrate, hsame]
      exact htime₂ hdirty
    · exact Or.inr ⟨hmarkedOut hmark, hin⟩
  · rcases htime₃ with hsame | ⟨-, hne, hin⟩
    · rw [TimeRight, hmarked.regs, hregs₃, hrate, hsame]
      exact hkeep₂ htime
    · -- In a sound channel the output rate is what it was.
      exfalso
      refine hne ?_
      obtain ⟨f, hf, hfactor, -⟩ := hsound.programmed
      have hfg : (g : ℤ) = f := coerce_factor hf hfactor hd
      have hfg' : (g : ℚ) = f := by exact_mod_cast hfg
      rw [(hsound.balanced hin).2, hfactor, hfg']
      exact (mul_div_cancel_right₀ _ (hfg' ▸ hgpos).ne').symm
  · obtain ⟨f, hf, hfactor, hregsFor⟩ := hsound.programmed
    have hfg : (g : ℤ) = f := coerce_factor hf hfactor hd
    have hresidual : s₂.residualScaling = s.residualScaling := by
      rw [hregs₂.residual, hregsFor.residual, hfg]
    rw [hmarked.valid, hscalings₃.2.2.1, hscalings₂.2.2] at hvalid'
    rw [hmarked.value, hmarked.residual, hscalings₃.2.1, hscalings₂.2.1, hscalings₃.1, hscalings₂.1,
      hscalings₃.2.2.2, hresidual]
    exact hscaled hvalid'

theorem forall_resolvers {P : RateResolver → Prop}
    (hdecim : P ⟨[.factor], [.factor, .sampRateOut, .sampRateIn, .scalingIn], resolveDecim cfg⟩)
    (hfreq : P ⟨[.freq], [.freq], fun locked s => s.resolveFreq cfg .sampRateIn locked⟩)
    (hin : P ⟨[.sampRateIn, .scalingIn], [.factor, .sampRateOut, .freq, .scalingOut],
      resolveIn cfg⟩)
    (hout : P ⟨[.sampRateOut, .scalingOut], [.factor, .sampRateIn, .scalingOut],
      resolveOut cfg⟩) : ∀ r ∈ resolvers cfg, P r := by
  intro r hr
  rw [resolvers] at hr
  rcases List.mem_cons.mp hr with rfl | hr
  · exact hdecim
  rcases List.mem_cons.mp hr with rfl | hr
  · exact hfreq
  rcases List.mem_cons.mp hr with rfl | hr
  · exact hin
  · rw [List.mem_singleton.mp hr]
    exact hout

theorem Sound.fits (h : Sound cfg s) (hin : s.valid .sampRateIn = true) : Fits cfg s :=
  Or.inl (h.balanced hin).2

theorem Sound.known (h : Sound cfg s) (hin : s.valid .sampRateIn = true) :
    s.valid .sampRateOut = true := (h.balanced hin).1

theorem keeps_sound : ∀ r ∈ resolvers cfg, ∀ locked s t, Sound cfg s → r.run locked s = .ok t →
    Sound cfg t := by
  refine forall_resolvers (fun locked s t hs h => ?_) (fun locked s t hs h => ?_)
    (fun locked s t hs h => ?_) (fun locked s t hs h => ?_)
  · exact (resolveDecim_spec hs.factor_valid hs.in_pos hs.in_zero hs.out_pos hs.out_zero hs.known
      (Or.inr hs.programmed) h).1
  · exact hs.of_ratesEq (resolveFreq_eq_ok h).1
  · exact (resolveIn_spec hs.toBasic h).1
  · exact (resolveOut_spec hs.toBasic hs.known hs.fits h).1

theorem keeps_known : ∀ r ∈ resolvers cfg, ∀ locked s t,
    Sound cfg s ∧ s.valid .sampRateIn = true → r.run locked s = .ok t →
      Sound cfg t ∧ t.valid .sampRateIn = true := by
  refine forall_resolvers ?_ ?_ ?_ ?_
  · rintro locked s t ⟨hs, hin⟩ h
    obtain ⟨ht, hkeep, -⟩ := resolveDecim_spec hs.factor_valid hs.in_pos hs.in_zero hs.out_pos
      hs.out_zero hs.known (Or.inr hs.programmed) h
    exact ⟨ht, hkeep hin⟩
  · rintro locked s t ⟨hs, hin⟩ h
    have heq := (resolveFreq_eq_ok h).1
    exact ⟨hs.of_ratesEq heq, (heq.valid _ (by decide)).trans hin⟩
  · rintro locked s t ⟨hs, hin⟩ h
    obtain ⟨ht, -, hvalid, -⟩ := resolveIn_spec hs.toBasic h
    exact ⟨ht, hvalid.trans hin⟩
  · rintro locked s t ⟨hs, hin⟩ h
    obtain ⟨ht, -, hkeep, -⟩ := resolveOut_spec hs.toBasic hs.known hs.fits h
    exact ⟨ht, hkeep hin⟩

theorem keeps_timeRight : ∀ r ∈ resolvers cfg, ∀ locked s t, Sound cfg s → TimeRight cfg s →
    r.run locked s = .ok t → TimeRight cfg t := by
  refine forall_resolvers (fun locked s t hs htime h => ?_) (fun locked s t hs htime h => ?_)
    (fun locked s t hs htime h => ?_) (fun locked s t hs htime h => ?_)
  · exact (resolveDecim_spec hs.factor_valid hs.in_pos hs.in_zero hs.out_pos hs.out_zero hs.known
      (Or.inr hs.programmed) h).2.2.2.2.1 hs htime
  · exact (resolveFreq_eq_ok h).1.timeRight htime
  · exact (resolveIn_spec hs.toBasic h).2.2.2.2.2 (Or.inr hs) htime
  · exact (resolveOut_spec hs.toBasic hs.known hs.fits h).2.2.2 (Or.inr htime)

theorem keeps_scaled : ∀ r ∈ resolvers cfg, ∀ locked s t, Sound cfg s → Scaled s →
    r.run locked s = .ok t → Scaled t := by
  refine forall_resolvers (fun locked s t hs hscaled h => ?_) (fun locked s t hs hscaled h => ?_)
    (fun locked s t hs hscaled h => ?_) (fun locked s t hs hscaled h => ?_)
  · exact (resolveDecim_spec hs.factor_valid hs.in_pos hs.in_zero hs.out_pos hs.out_zero hs.known
      (Or.inr hs.programmed) h).2.2.2.2.2 hs hscaled
  · obtain ⟨heq, hvalue, hvalid⟩ := resolveFreq_eq_ok h
    rw [Scaled, hvalid _ (by decide), hvalue _ (by decide), hvalue _ (by decide), heq.residual]
    exact hscaled
  · exact (resolveIn_spec hs.toBasic h).2.1
  · exact (resolveOut_spec hs.toBasic hs.known hs.fits h).2.1

theorem right_of_loop {fuel : ℕ} {todo processed written : List RateProp} (hs : Sound cfg s)
    (hscaled : Scaled s ∨ RateProp.scalingIn ∈ todo ∧ RateProp.scalingIn ∉ processed)
    (htime : TimeRight cfg s ∨ s.valid .sampRateIn = true ∧ RateProp.sampRateOut ∈ todo ∧
      RateProp.sampRateOut ∉ processed)
    (h : DirtyLoop.resolveLoop Channel.dirty (resolvers cfg) fuel todo processed written s
      = some (.ok t)) : Sound cfg t ∧ TimeRight cfg t ∧ Scaled t := by
  refine ⟨DirtyLoop.resolveLoop_keeps keeps_sound hs h, ?_, ?_⟩
  · rcases htime with htime | ⟨hin, hmem, hnot⟩
    · exact (DirtyLoop.resolveLoop_keeps (J := fun u => Sound cfg u ∧ TimeRight cfg u)
        (fun r hr locked u v hu hv => ⟨keeps_sound r hr locked u v hu.1 hv,
          keeps_timeRight r hr locked u v hu.1 hu.2 hv⟩) ⟨hs, htime⟩ h).2
    · refine DirtyLoop.resolveLoop_reaches (p := .sampRateOut)
        (J := fun u => Sound cfg u ∧ u.valid .sampRateIn = true) keeps_known
        (fun r hr locked u v hu => keeps_timeRight r hr locked u v hu.1)
        ⟨⟨[.sampRateOut, .scalingOut], [.factor, .sampRateIn, .scalingOut], resolveOut cfg⟩,
          ?_, by simp, fun locked u v hu hv => ?_⟩ ⟨hs, hin⟩ hmem hnot h
      · simp [resolvers]
      · exact (resolveOut_spec hu.1.toBasic hu.1.known hu.1.fits hv).2.2.2 (Or.inl hu.2)
  · rcases hscaled with hscaled | ⟨hmem, hnot⟩
    · exact (DirtyLoop.resolveLoop_keeps (J := fun u => Sound cfg u ∧ Scaled u)
        (fun r hr locked u v hu hv => ⟨keeps_sound r hr locked u v hu.1 hv,
          keeps_scaled r hr locked u v hu.1 hu.2 hv⟩) ⟨hs, hscaled⟩ h).2
    · refine DirtyLoop.resolveLoop_reaches (p := .scalingIn) (J := Sound cfg) keeps_sound
        keeps_scaled
        ⟨⟨[.sampRateIn, .scalingIn], [.factor, .sampRateOut, .freq, .scalingOut], resolveIn cfg⟩,
          ?_, by simp, fun locked u v hu hv => ?_⟩ hs hmem hnot h
      · simp [resolvers]
      · exact (resolveIn_spec hu.toBasic hv).2.1

end Resolvers

/-! ## The first resolver of a resolution -/

section First

variable {cfg : Config} {p : RateProp} {s : Channel} {pass : DirtyLoop.Pass RateProp Channel}

theorem first_decim
    (h : DirtyLoop.process Channel.dirty [] .factor (resolvers cfg) [] [] s = .ok pass) :
    ∃ locked, resolveDecim cfg locked s = .ok pass.state ∧
      ∀ q ∈ [RateProp.factor, .sampRateOut, .sampRateIn, .scalingIn],
        pass.state.dirty q = true → q ∈ pass.added := by
  obtain ⟨hrun, hadded⟩ := DirtyLoop.process_only []
    ⟨[.factor], [.factor, .sampRateOut, .sampRateIn, .scalingIn], resolveDecim cfg⟩
    (by simp) (fun q hq => absurd hq List.not_mem_nil) (by simp) h
  exact ⟨_, hrun, fun q hq hdirty => hadded q hq hdirty List.not_mem_nil⟩

theorem first_in (hp : p ∈ [RateProp.sampRateIn, .scalingIn])
    (h : DirtyLoop.process Channel.dirty [] p (resolvers cfg) [] [] s = .ok pass) :
    ∃ locked, resolveIn cfg locked s = .ok pass.state ∧
      ∀ q ∈ [RateProp.factor, .sampRateOut, .freq, .scalingOut],
        pass.state.dirty q = true → q ∈ pass.added := by
  have hcases : p = .sampRateIn ∨ p = .scalingIn := by simpa using hp
  obtain ⟨hrun, hadded⟩ := DirtyLoop.process_only
    [⟨[.factor], [.factor, .sampRateOut, .sampRateIn, .scalingIn], resolveDecim cfg⟩,
      ⟨[.freq], [.freq], fun locked s => s.resolveFreq cfg .sampRateIn locked⟩]
    ⟨[.sampRateIn, .scalingIn], [.factor, .sampRateOut, .freq, .scalingOut], resolveIn cfg⟩
    hp (by rcases hcases with rfl | rfl <;> simp) (by rcases hcases with rfl | rfl <;> simp) h
  exact ⟨_, hrun, fun q hq hdirty => hadded q hq hdirty List.not_mem_nil⟩

theorem first_out (hp : p ∈ [RateProp.sampRateOut, .scalingOut])
    (h : DirtyLoop.process Channel.dirty [] p (resolvers cfg) [] [] s = .ok pass) :
    ∃ locked, resolveOut cfg locked s = .ok pass.state := by
  have hcases : p = .sampRateOut ∨ p = .scalingOut := by simpa using hp
  obtain ⟨hrun, -⟩ := DirtyLoop.process_only
    [⟨[.factor], [.factor, .sampRateOut, .sampRateIn, .scalingIn], resolveDecim cfg⟩,
      ⟨[.freq], [.freq], fun locked s => s.resolveFreq cfg .sampRateIn locked⟩,
      ⟨[.sampRateIn, .scalingIn], [.factor, .sampRateOut, .freq, .scalingOut], resolveIn cfg⟩]
    ⟨[.sampRateOut, .scalingOut], [.factor, .sampRateIn, .scalingOut], resolveOut cfg⟩
    hp (by rcases hcases with rfl | rfl <;> simp) (fun q hq => absurd hq List.not_mem_nil) h
  exact ⟨_, hrun⟩

end First

/-! ## One change -/

/-- What is claimed holds, and nothing is dirty. -/
structure Settled (cfg : Config) (s : Channel) : Prop where
  sound : Sound cfg s
  timeRight : TimeRight cfg s
  scaled : Scaled s
  clean : ∀ p, s.dirty p = false

section Steps

variable {cfg : Config} {s t : Channel} {c : Change}

theorem Settled.right (h : Settled cfg s) : Right cfg s where
  balanced := h.sound.balanced
  programmed := h.sound.programmed
  timeRight := h.timeRight
  scaled := h.scaled

theorem settled_clean (h : Sound cfg s ∧ TimeRight cfg s ∧ Scaled s) : Settled cfg s.clean where
  sound := h.1.of_ratesEq ⟨fun _ _ => rfl, fun _ _ => rfl, rfl, rfl⟩
  timeRight := h.2.1
  scaled := h.2.2
  clean _ := rfl

theorem Settled.dirty_apply (h : Settled cfg s) (c : Change) :
    (c.apply s).dirty c.prop = decide (s.value c.prop ≠ c.value) := by
  rw [Change.apply, (wrote_assign c.prop c.value s).dirty_self, h.clean, Bool.false_or]

theorem Basic.assign_out (h : Basic cfg s) {rate : ℚ} (pos : 0 < rate) :
    Basic cfg (s.assign .sampRateOut rate) := by
  have hw := wrote_assign .sampRateOut rate s
  obtain ⟨f, hf, hfactor, hregs⟩ := h.programmed
  refine ⟨?_, ?_, ?_, fun _ => ?_, fun hinvalid => ?_, f, hf, ?_, hregs.of_eq hw.regs hw.residual⟩
  · rw [hw.valid _ (by decide)]
    exact h.factor_valid
  · rw [hw.valid _ (by decide), hw.value _ (by decide)]
    exact h.in_pos
  · rw [hw.valid _ (by decide), hw.value _ (by decide)]
    exact h.in_zero
  · rw [hw.self]
    exact pos
  · rw [valid_assign_self] at hinvalid
    cases hinvalid
  · rw [hw.value _ (by decide), hfactor]

theorem Basic.assign_in (h : Basic cfg s) {rate : ℚ} (pos : 0 < rate) :
    Basic cfg (s.assign .sampRateIn rate) := by
  have hw := wrote_assign .sampRateIn rate s
  obtain ⟨f, hf, hfactor, hregs⟩ := h.programmed
  refine ⟨?_, fun _ => ?_, fun hinvalid => ?_, ?_, ?_, f, hf, ?_, hregs.of_eq hw.regs hw.residual⟩
  · rw [hw.valid _ (by decide)]
    exact h.factor_valid
  · rw [hw.self]
    exact pos
  · rw [valid_assign_self] at hinvalid
    cases hinvalid
  · rw [hw.valid _ (by decide), hw.value _ (by decide)]
    exact h.out_pos
  · rw [hw.valid _ (by decide), hw.value _ (by decide)]
    exact h.out_zero
  · rw [hw.value _ (by decide), hfactor]

theorem Settled.of_same (h : Settled cfg s) (hgood : Restorable cfg s c)
    (hsame : s.value c.prop = c.value) : Settled cfg (c.apply s).clean := by
  have hw := wrote_assign c.prop c.value s
  have hvalue : (c.apply s).value = s.value := by
    show Function.update s.value c.prop c.value = s.value
    rw [← hsame, Function.update_eq_self]
  have heq : RatesEq s (c.apply s) := by
    by_cases hp : c.prop ∈ rateProps
    · refine ⟨fun q _ => congrFun hvalue q, fun q hq => ?_, rfl, rfl⟩
      by_cases hqp : q = c.prop
      · -- A rate or a decimation that has a value is known.
        have hvalid : s.valid c.prop = true := by
          cases c with
          | sampRateIn rate pos =>
            by_contra hinvalid
            exact pos.ne ((h.sound.in_zero (Bool.not_eq_true _ ▸ hinvalid)).symm.trans hsame)
          | sampRateOut rate pos =>
            by_contra hinvalid
            exact pos.ne ((h.sound.out_zero (Bool.not_eq_true _ ▸ hinvalid)).symm.trans hsame)
          | scalingIn x => exact absurd hp (by simp [Change.prop, rateProps])
          | scalingOut x => exact absurd hp (by simp [Change.prop, rateProps])
          | factor f => exact h.sound.factor_valid
        rw [hqp, hvalid]
        exact Function.update_self _ _ _
      · exact hw.valid q hqp
    · exact hw.ratesEq hp
  refine settled_clean ⟨h.sound.of_ratesEq heq, heq.timeRight h.timeRight, fun hvalid => ?_⟩
  rw [hvalue, heq.residual]
  by_cases hp : c.prop = .scalingIn
  · cases c with
    | scalingIn x =>
      have hx : s.value .scalingIn = x := hsame
      rw [hx]
      exact hgood.resolve_left (not_not_intro hx)
    | sampRateIn rate pos => cases hp
    | sampRateOut rate pos => cases hp
    | scalingOut x => cases hp
    | factor f => cases hp
  · refine h.scaled ?_
    rw [← hw.valid .scalingIn (Ne.symm hp)]
    exact hvalid

theorem Settled.step (h : Settled cfg s) (hgood : Restorable cfg s c)
    (hstep : RateChanger.step (resolvers cfg) s c = some t) : Settled cfg t := by
  have hresolve := resolveProps_of_step hstep
  by_cases hsame : s.value c.prop = c.value
  · have hclean := h.dirty_apply c
    rw [decide_eq_false (not_not_intro hsame)] at hclean
    rw [resolveProps_of_clean hclean] at hresolve
    rw [← Except.ok.inj hresolve]
    exact h.of_same hgood hsame
  · have hdirty := h.dirty_apply c
    rw [decide_eq_true hsame] at hdirty
    obtain ⟨fuel, pass, u, hpass, hloop, rfl⟩ := exists_of_resolveProps hdirty hresolve
    refine settled_clean ?_
    have hw := wrote_assign c.prop c.value s
    cases c with
    | sampRateIn rate pos =>
      obtain ⟨locked, hrun, hadded⟩ := first_in (by simp [Change.prop]) hpass
      obtain ⟨hsound, hscaled, hvalid, -, htime, -⟩ :=
        resolveIn_spec (h.sound.toBasic.assign_in pos) hrun
      have hin : (s.assign .sampRateIn rate).valid .sampRateIn = true := valid_assign_self _ _ _
      refine right_of_loop hsound (Or.inl hscaled) ((htime hin).imp_right fun hmark => ?_) hloop
      exact ⟨hvalid.trans hin, hadded _ (by simp) hmark, by simp [Change.prop]⟩
    | factor f =>
      obtain ⟨locked, hrun, hadded⟩ := first_decim hpass
      have hvalid : ∀ q, q ≠ .factor → (s.assign .factor f).valid q = s.valid q := hw.valid
      have hvalue : ∀ q, q ≠ .factor → (s.assign .factor f).value q = s.value q := hw.value
      obtain ⟨hsound, hkeep, htime, hscaling, -, -⟩ := resolveDecim_spec
        (valid_assign_self .factor f s)
        (by rw [hvalid _ (by decide), hvalue _ (by decide)]; exact h.sound.in_pos)
        (by rw [hvalid _ (by decide), hvalue _ (by decide)]; exact h.sound.in_zero)
        (by rw [hvalid _ (by decide), hvalue _ (by decide)]; exact h.sound.out_pos)
        (by rw [hvalid _ (by decide), hvalue _ (by decide)]; exact h.sound.out_zero)
        (by rw [hvalid _ (by decide), hvalid _ (by decide)]; exact h.sound.known)
        (Or.inl hdirty) hrun
      refine right_of_loop hsound ?_ ((htime hdirty).imp_right ?_) hloop
      · by_cases hknown : pass.state.valid .scalingIn = true
        · exact Or.inr ⟨hadded _ (by simp) (hscaling hknown), by simp [Change.prop]⟩
        · exact Or.inl fun hknown' => absurd hknown' hknown
      · rintro ⟨hmark, hin⟩
        exact ⟨hkeep hin, hadded _ (by simp) hmark, by simp [Change.prop]⟩
    | scalingIn x =>
      obtain ⟨locked, hrun, hadded⟩ := first_in (by simp [Change.prop]) hpass
      have heq : RatesEq s (s.assign .scalingIn x) := hw.ratesEq (by simp [Change.prop, rateProps])
      obtain ⟨hsound, hscaled, -, -, -, hkeep⟩ :=
        resolveIn_spec (h.sound.toBasic.of_ratesEq heq) hrun
      exact right_of_loop hsound (Or.inl hscaled)
        (Or.inl (hkeep (Or.inr (h.sound.of_ratesEq heq)) (heq.timeRight h.timeRight))) hloop
    | scalingOut x =>
      obtain ⟨locked, hrun⟩ := first_out (by simp [Change.prop]) hpass
      have heq : RatesEq s (s.assign .scalingOut x) :=
        hw.ratesEq (by simp [Change.prop, rateProps])
      have hsound' := h.sound.of_ratesEq heq
      obtain ⟨hsound, hscaled, -, htime⟩ :=
        resolveOut_spec hsound'.toBasic hsound'.known hsound'.fits hrun
      exact right_of_loop hsound (Or.inl hscaled)
        (Or.inl (htime (Or.inr (heq.timeRight h.timeRight)))) hloop
    | sampRateOut rate pos =>
      obtain ⟨locked, hrun⟩ := first_out (by simp [Change.prop]) hpass
      have hin : (s.assign .sampRateOut rate).valid .sampRateIn = s.valid .sampRateIn :=
        hw.valid _ (by simp [Change.prop])
      rw [Restorable] at hgood
      have hfits : (s.assign .sampRateOut rate).valid .sampRateIn = true →
          Fits cfg (s.assign .sampRateOut rate) := by
        intro hknown
        rw [if_pos (hin.symm.trans hknown)] at hgood
        exact hgood
      obtain ⟨hsound, hscaled, -, htime⟩ := resolveOut_spec (h.sound.toBasic.assign_out pos)
        (fun _ => valid_assign_self _ _ _) hfits hrun
      refine right_of_loop hsound (Or.inl hscaled) (Or.inl (htime ?_)) hloop
      by_cases hknown : s.valid .sampRateIn = true
      · exact Or.inl (hin.trans hknown)
      · right
        rw [if_neg hknown] at hgood
        have hrate : (s.assign .sampRateOut rate).outputRate = rate := by
          rw [Channel.outputRate, valid_assign_self, if_pos rfl]
          exact hw.self
        rw [TimeRight, hrate]
        exact hgood

/-! ## A change that is not followed -/

/-- The input rate is left as it is, though it does not fit. -/
structure Stuck (cfg : Config) (s : Channel) : Prop where
  in_valid : s.valid .sampRateIn = true
  out_valid : s.valid .sampRateOut = true
  coerced : cfg.coerce (s.value .sampRateIn / s.value .sampRateOut) = .ok s.factor
  integral : (s.factor : ℚ) = s.value .factor
  unfit : s.value .sampRateIn ≠ s.value .sampRateOut * s.value .factor
  factor_clean : s.dirty .factor = false
  in_clean : s.dirty .sampRateIn = false

/-- The input rate is not known, and the time increment is not written. -/
structure Unwritten (cfg : Config) (s : Channel) : Prop where
  in_valid : s.valid .sampRateIn = false
  timeWrong : ¬ TimeRight cfg s
  factor_clean : s.dirty .factor = false
  in_clean : s.dirty .sampRateIn = false

theorem Stuck.resolveOut {locked : RateProp → Bool} (h : Stuck cfg s)
    (hrun : Ddc.resolveOut cfg locked s = .ok t) : Stuck cfg t := by
  rw [Ddc.resolveOut, if_pos h.out_valid, if_pos h.in_valid, h.coerced] at hrun
  obtain ⟨u, hu, hrun⟩ := bind_eq_ok.mp hrun
  obtain ⟨-, heq, hdirty⟩ := setScalingOut_eq_ok hrun
  obtain ⟨w, hw, hu⟩ := bind_eq_ok.mp hu
  obtain ⟨d, hd, hw⟩ := bind_eq_ok.mp hw
  obtain rfl := Except.ok.inj hd
  obtain ⟨s₁, hset, hw⟩ := bind_eq_ok.mp hw
  have hw₁ := wrote_of_set hset
  obtain ⟨hvalue₂, hvalid₂, hdirty₂, -, -⟩ := setFactor_eq_ok hw
  have hvalueW : ∀ q, w.value q = s.value q := by
    intro q
    rw [hvalue₂]
    by_cases hq : q = .factor
    · rw [hq, hw₁.self]
      exact h.integral
    · exact hw₁.value q hq
  have hclean : w.dirty .factor = false := by
    rw [hdirty₂, hw₁.dirty_self, h.factor_clean, Bool.false_or]
    exact decide_eq_false (not_not_intro h.integral.symm)
  rw [if_neg (by rw [hclean]; exact Bool.false_ne_true)] at hu
  obtain rfl := Except.ok.inj hu
  have hfactor : t.factor = s.factor := by
    rw [Channel.factor, Channel.factor, heq.value _ (by decide), hvalueW]
  refine ⟨?_, ?_, ?_, ?_, ?_, ?_, ?_⟩
  · rw [heq.valid _ (by decide), hvalid₂, hw₁.valid _ (by decide)]
    exact h.in_valid
  · rw [heq.valid _ (by decide), hvalid₂, hw₁.valid _ (by decide)]
    exact h.out_valid
  · rw [heq.value _ (by decide), heq.value _ (by decide), hvalueW, hvalueW, hfactor]
    exact h.coerced
  · rw [hfactor, heq.value _ (by decide), hvalueW]
    exact h.integral
  · rw [heq.value _ (by decide), heq.value _ (by decide), heq.value _ (by decide), hvalueW, hvalueW,
      hvalueW]
    exact h.unfit
  · rw [hdirty _ (by decide)]
    exact hclean
  · rw [hdirty _ (by decide), hdirty₂, hw₁.dirty _ (by decide)]
    exact h.in_clean

theorem Unwritten.resolveOut {locked : RateProp → Bool} (h : Unwritten cfg s)
    (hrun : Ddc.resolveOut cfg locked s = .ok t) : Unwritten cfg t := by
  have hin : ¬ s.valid .sampRateIn = true := by
    rw [h.in_valid]
    exact Bool.false_ne_true
  have hclean : ¬ s.dirty .factor = true := by
    rw [h.factor_clean]
    exact Bool.false_ne_true
  rw [Ddc.resolveOut, if_neg hin] at hrun
  obtain ⟨u, hu, hset⟩ := bind_eq_ok.mp hrun
  have hus : u = s := by
    by_cases hout : s.valid .sampRateOut = true
    · rw [if_pos hout] at hu
      obtain ⟨w, hw, hu⟩ := bind_eq_ok.mp hu
      obtain rfl := Except.ok.inj hw
      rw [if_neg hclean] at hu
      exact (Except.ok.inj hu).symm
    · rw [if_neg hout] at hu
      exact (Except.ok.inj hu).symm
  rw [hus] at hset
  obtain ⟨-, heq, hdirty⟩ := setScalingOut_eq_ok hset
  refine ⟨?_, fun htime => h.timeWrong ?_, ?_, ?_⟩
  · rw [heq.valid _ (by decide)]
    exact h.in_valid
  · rw [TimeRight, heq.regs, heq.outputRate] at htime
    exact htime
  · rw [hdirty _ (by decide)]
    exact h.factor_clean
  · rw [hdirty _ (by decide)]
    exact h.in_clean

theorem keeps_of_resolveOut {J : Channel → Prop} {fuel : ℕ} {p : RateProp}
    (hp : p = .sampRateOut ∨ p = .scalingOut)
    (hJ : ∀ locked s t, J s → Ddc.resolveOut cfg locked s = .ok t → J t)
    (hclean : ∀ s, J s → s.dirty .factor = false ∧ s.dirty .sampRateIn = false) (hs : J s)
    (h : DirtyLoop.resolveLoop Channel.dirty (resolvers cfg) fuel [p] [] [] s = some (.ok t)) :
    J t := by
  refine DirtyLoop.resolveLoop_confined (fun q => q = .sampRateOut ∨ q = .scalingOut) ?_ hs
    (fun q hq => by rw [List.mem_singleton.mp hq]; exact hp) h
  refine forall_resolvers ?_ ?_ ?_ ?_
  · rintro q hq (rfl | rfl) <;> exact absurd hq (by simp)
  · rintro q hq (rfl | rfl) <;> exact absurd hq (by simp)
  · rintro q hq (rfl | rfl) <;> exact absurd hq (by simp)
  · intro q _ _ locked u v hu hv
    have hv' := hJ locked u v hu hv
    refine ⟨hv', fun r hr hdirty => ?_⟩
    obtain ⟨hfactor, hin⟩ := hclean v hv'
    rcases List.mem_cons.mp hr with rfl | hr
    · rw [hfactor] at hdirty
      cases hdirty
    rcases List.mem_cons.mp hr with rfl | hr
    · rw [hin] at hdirty
      cases hdirty
    · exact Or.inr (List.mem_singleton.mp hr)

theorem Settled.step_bad (h : Settled cfg s) (hbad : ¬ Restorable cfg s c)
    (hstep : RateChanger.step (resolvers cfg) s c = some t) : ¬ Right cfg t := by
  have hresolve := resolveProps_of_step hstep
  have hw := wrote_assign c.prop c.value s
  cases c with
  | sampRateIn rate pos => exact absurd trivial hbad
  | scalingOut x => exact absurd trivial hbad
  | factor f => exact absurd trivial hbad
  | scalingIn x =>
    rw [Restorable, not_or, not_not] at hbad
    have hclean := h.dirty_apply (.scalingIn x)
    have hsame : s.value (Change.scalingIn x).prop = (Change.scalingIn x).value := hbad.1
    rw [decide_eq_false (not_not_intro hsame)] at hclean
    rw [resolveProps_of_clean hclean] at hresolve
    intro hright
    refine hbad.2 ?_
    rw [← Except.ok.inj hresolve] at hright
    have hvalid : (s.assign .scalingIn x).valid .scalingIn = true := valid_assign_self _ _ _
    have hscaled : (s.assign .scalingIn x).value .scalingOut
        = (s.assign .scalingIn x).value .scalingIn * s.residualScaling := hright.scaled hvalid
    exact ((hw.value .scalingOut (by simp [Change.prop])).symm.trans hscaled).trans
      (congrArg (· * s.residualScaling) hw.self)
  | sampRateOut rate pos =>
    have hout : (s.assign .sampRateOut rate).valid .sampRateOut = true := valid_assign_self _ _ _
    have hin : (s.assign .sampRateOut rate).valid .sampRateIn = s.valid .sampRateIn :=
      hw.valid _ (by simp [Change.prop])
    have hvalue : ∀ q, q ≠ .sampRateOut → (s.assign .sampRateOut rate).value q = s.value q :=
      hw.value
    have hself : (s.assign .sampRateOut rate).value .sampRateOut = rate := hw.self
    have hdirty : ∀ q, q ≠ .sampRateOut → (s.assign .sampRateOut rate).dirty q = false :=
      fun q hq => (hw.dirty q hq).trans (h.clean q)
    rw [Restorable] at hbad
    by_cases hknown : s.valid .sampRateIn = true
    · rw [if_pos hknown, Fits, not_or, not_not] at hbad
      obtain ⟨f, hf, hfactor, -⟩ := h.sound.programmed
      have hfactor' : (s.assign .sampRateOut rate).value .factor = ((f : ℤ) : ℚ) := by
        rw [hvalue _ (by decide), hfactor, Int.cast_natCast]
      have hstuck : Stuck cfg (s.assign .sampRateOut rate) :=
        { in_valid := hin.trans hknown
          out_valid := hout
          coerced := hbad.2
          integral := by rw [factor_eq hfactor', hfactor']
          unfit := hbad.1
          factor_clean := hdirty _ (by decide)
          in_clean := hdirty _ (by decide) }
      have hend : Stuck cfg t := exists_clean_of_resolveProps hresolve
        (fun hloop => keeps_of_resolveOut (Or.inl rfl) (fun _ _ _ hs => hs.resolveOut)
          (fun _ hs => ⟨hs.factor_clean, hs.in_clean⟩) hstuck hloop)
        (fun u hu => { hu with factor_clean := rfl, in_clean := rfl }) hstuck
      intro hright
      exact hend.unfit (hright.balanced hend.in_valid).2
    · rw [if_neg hknown] at hbad
      have hunwritten : Unwritten cfg (s.assign .sampRateOut rate) :=
        { in_valid := hin.trans (Bool.not_eq_true _ ▸ hknown)
          timeWrong := fun htime => hbad (by
            rw [TimeRight, Channel.outputRate, hout, if_pos rfl, hself] at htime
            exact htime)
          factor_clean := hdirty _ (by decide)
          in_clean := hdirty _ (by decide) }
      have hend : Unwritten cfg t := exists_clean_of_resolveProps hresolve
        (fun hloop => keeps_of_resolveOut (Or.inl rfl) (fun _ _ _ hs => hs.resolveOut)
          (fun _ hs => ⟨hs.factor_clean, hs.in_clean⟩) hunwritten hloop)
        (fun u hu => { hu with factor_clean := rfl, in_clean := rfl }) hunwritten
      exact fun hright => hend.timeWrong hright.timeRight

theorem settled_of_initProps (h : initProps (resolvers cfg) Channel.fresh = .ok s) :
    Settled cfg s := by
  rw [resolvers] at h
  obtain ⟨s₁, hrun₁, h⟩ := bind_eq_ok.mp h
  obtain ⟨s₂, hrun₂, h⟩ := bind_eq_ok.mp h
  obtain ⟨s₃, hrun₃, h⟩ := bind_eq_ok.mp h
  obtain ⟨s₄, hrun₄, h⟩ := bind_eq_ok.mp h
  rw [← Except.ok.inj h]
  have hin : Channel.fresh.valid .sampRateIn = false := rfl
  have hout : Channel.fresh.valid .sampRateOut = false := rfl
  obtain ⟨hsound₁, -, htime₁, -⟩ := resolveDecim_spec (s := Channel.fresh) rfl
    (fun hvalid => absurd (hin.symm.trans hvalid) Bool.false_ne_true) (fun _ => rfl)
    (fun hvalid => absurd (hout.symm.trans hvalid) Bool.false_ne_true) (fun _ => rfl)
    (fun hvalid => absurd (hin.symm.trans hvalid) Bool.false_ne_true) (Or.inl rfl) hrun₁
  have htime₁ := (htime₁ rfl).resolve_right fun hboth => by
    rw [hin] at hboth
    exact Bool.false_ne_true hboth.2
  have heq₂ := (resolveFreq_eq_ok hrun₂).1
  have hsound₂ := hsound₁.of_ratesEq heq₂
  obtain ⟨hsound₃, -, -, -, -, hkeep₃⟩ := resolveIn_spec hsound₂.toBasic hrun₃
  have htime₃ := hkeep₃ (Or.inr hsound₂) (heq₂.timeRight htime₁)
  obtain ⟨hsound₄, hscaled₄, -, htime₄⟩ :=
    resolveOut_spec hsound₃.toBasic hsound₃.known hsound₃.fits hrun₄
  exact settled_clean ⟨hsound₄, htime₄ (Or.inr htime₃), hscaled₄⟩

end Steps

/-- **The rates over whole runs.**  For every sequence of changes whose resolutions succeed: what is
claimed holds after each of them, exactly when each of them meets the condition. -/
theorem right_iff_changes (b : Block) (chan : ℕ) (changes : List Change) (s t : Channel)
    (hstart : initProps (resolvers (b.config chan)) Channel.fresh = .ok s)
    (hrun : Transition.run (step (resolvers (b.config chan))) s changes = some t) :
    (∀ cs u, cs <+: changes →
      Transition.run (step (resolvers (b.config chan))) s cs = some u → Right (b.config chan) u) ↔
      Transition.EveryStep (step (resolvers (b.config chan))) (Restorable (b.config chan)) s
        changes :=
  Transition.forall_prefix_iff_everyStep (I := Settled (b.config chan)) (fun _ h => h.right)
    (fun _ _ _ h hstep hgood => h.step hgood hstep)
    (fun _ _ _ h hstep hbad => h.step_bad hbad hstep) (settled_of_initProps hstart) hrun

/-! ## A run, and one that goes wrong -/

/-- A legacy block with one halfband, and a CIC that decimates by four at most. -/
def smallBlock : Block := ⟨false, 1, 4, 1, 400, by decide, by decide⟩

/-- A channel of it after some changes, if all resolutions succeed. -/
def afterChanges (changes : List Change) : Option (Channel × Channel) :=
  (initProps (resolvers (smallBlock.config 0)) Channel.fresh).toOption.bind fun s =>
    (Transition.run (step (resolvers (smallBlock.config 0))) s changes).map fun t => (s, t)

theorem exists_of_afterChanges {changes : List Change} {q : Channel × Channel}
    (h : afterChanges changes = some q) :
    initProps (resolvers (smallBlock.config 0)) Channel.fresh = .ok q.1 ∧
      Transition.run (step (resolvers (smallBlock.config 0))) q.1 changes = some q.2 := by
  rw [afterChanges] at h
  obtain ⟨s, hs, h⟩ := Option.bind_eq_some_iff.mp h
  obtain ⟨t, ht, rfl⟩ := Option.map_eq_some_iff.mp h
  cases hinit : initProps (resolvers (smallBlock.config 0)) Channel.fresh with
  | error e =>
    rw [hinit] at hs
    cases hs
  | ok u =>
    rw [hinit] at hs
    rw [Option.some.inj hs]
    exact ⟨rfl, ht⟩

/-- An input rate, a decimation, and an output rate that the decimation changes for. -/
def followedChanges : List Change :=
  [.sampRateIn 200 (by decide), .factor 2, .sampRateOut 50 (by decide)]

theorem right_followedChanges : ∃ s t,
    initProps (resolvers (smallBlock.config 0)) Channel.fresh = .ok s ∧
    Transition.run (step (resolvers (smallBlock.config 0))) s followedChanges = some t ∧
    ((∀ cs u, cs <+: followedChanges →
      Transition.run (step (resolvers (smallBlock.config 0))) s cs = some u →
        Right (smallBlock.config 0) u) ↔
      Transition.EveryStep (step (resolvers (smallBlock.config 0)))
        (Restorable (smallBlock.config 0)) s followedChanges) := by
  obtain ⟨q, hq⟩ := Option.isSome_iff_exists.mp
    (by decide +kernel : (afterChanges followedChanges).isSome = true)
  obtain ⟨hstart, hrun⟩ := exists_of_afterChanges hq
  exact ⟨q.1, q.2, hstart, hrun, right_iff_changes smallBlock 0 followedChanges q.1 q.2 hstart hrun⟩

/-- An input rate, a decimation, and an output rate that is nearest to the same decimation. -/
def unfitChanges : List Change :=
  [.sampRateIn 200 (by decide), .factor 2, .sampRateOut 90 (by decide)]

/-- The input rate is not adapted to an output rate for which the decimation stays. -/
theorem input_rate_not_adapted : ¬ ∀ (b : Block) (chan : ℕ) (changes : List Change) (s t : Channel),
    initProps (resolvers (b.config chan)) Channel.fresh = .ok s →
    Transition.run (step (resolvers (b.config chan))) s changes = some t →
      Right (b.config chan) t := by
  intro hall
  have hvalues : (afterChanges unfitChanges).map (fun q =>
      (q.2.valid .sampRateIn, q.2.value .sampRateIn, q.2.value .sampRateOut, q.2.value .factor))
        = some (true, 200, 90, 2) := by
    decide +kernel
  obtain ⟨q, hq, hvalues⟩ := Option.map_eq_some_iff.mp hvalues
  rw [Prod.mk.injEq, Prod.mk.injEq, Prod.mk.injEq] at hvalues
  obtain ⟨hvalid, hin, hout, hfactor⟩ := hvalues
  obtain ⟨hstart, hrun⟩ := exists_of_afterChanges hq
  have hbalanced := ((hall smallBlock 0 unfitChanges q.1 q.2 hstart hrun).balanced hvalid).2
  rw [hin, hout, hfactor] at hbalanced
  exact absurd hbalanced (by norm_num)

end Ddc
end Rfnoc
end UhdHost
