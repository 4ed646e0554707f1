import UhdHost.Rfnoc.RateChanger

/-!
# The rates of a DUC

The property resolvers of a channel of `duc_block_control.cpp`.

* `Even`: the output rate is the input rate times the interpolation, which is a valid one.  Every
  resolver keeps that and, once it holds, changes neither rates nor interpolation (`Calm`).
* The registers are written by the resolver for the interpolation alone, and only if that is dirty.
  What becomes of the time increment therefore depends on whether the interpolation changes.
* The ratio is rounded down when the output rate changes, which leads to an interpolation that is
  not nearest where a midpoint between two valid ones is passed (`nearest_iff`).
* `right_iff_followed`: whether what is claimed holds after a change, in every run.
-/

namespace UhdHost
namespace Rfnoc
namespace Duc

open RateChanger

/-! ## The block -/

/-- `duc_block_control_impl`: what the registers say about the block, and the tick rate. -/
structure Block where
  /-- The compat version 1, with `REG_ADDRS_V1`. -/
  multisample : Bool
  numHalfbands : ℕ
  cicMaxInterp : ℕ
  tickRate : ℚ
  cicMaxInterp_pos : 0 < cicMaxInterp
  cicMaxInterp_le : cicMaxInterp ≤ 0xff

/-- A channel of the block. -/
def Block.config (b : Block) (chan : ℕ) : Config where
  chan := chan
  factorKey := "interp"
  numHalfbands := b.numHalfbands
  cicMax := b.cicMaxInterp
  tickRate := b.tickRate
  hasRatio := !b.multisample
  cicOrder := 3
  cicMax_pos := b.cicMaxInterp_pos
  cicMax_le := b.cicMaxInterp_le

/-! ## The resolvers -/

/-- The scaling of the input, where that of the output is known. -/
def setScalingIn (cfg : Config) (locked : RateProp → Bool) (s : Channel) :
    Except UhdError Channel :=
  if s.valid .scalingOut then
    s.set cfg locked .scalingIn (s.value .scalingOut * s.residualScaling)
  else .ok s

/-- The resolver for `interp` and `scaling_in`. -/
def resolveInterp (cfg : Config) (locked : RateProp → Bool) (s : Channel) :
    Except UhdError Channel :=
  (cfg.coerce (s.value .factor)).bind fun interp =>
    (s.set cfg locked .factor interp).bind fun s =>
      (if s.dirty .factor then s.setFactor cfg s.factor else .ok s).bind fun s =>
        (if s.valid .sampRateOut then
            s.set cfg locked .sampRateIn (s.value .sampRateOut / s.value .factor)
          else if s.valid .sampRateIn then
            s.set cfg locked .sampRateOut (s.value .sampRateIn * s.value .factor)
          else .ok s).bind (setScalingIn cfg locked)

/-- The resolver for `samp_rate_in`. -/
def resolveIn (cfg : Config) (locked : RateProp → Bool) (s : Channel) :
    Except UhdError Channel :=
  if s.valid .sampRateIn then
    (if s.valid .sampRateOut then
        (cfg.coerce (s.value .sampRateOut / s.value .sampRateIn)).bind fun interp =>
          s.set cfg locked .factor interp
      else .ok s).bind fun s =>
      s.set cfg locked .sampRateOut (s.value .sampRateIn * s.value .factor)
  else .ok s

/-- The resolver for `samp_rate_out`. -/
def resolveOut (cfg : Config) (locked : RateProp → Bool) (s : Channel) :
    Except UhdError Channel :=
  if s.valid .sampRateOut then
    (if s.valid .sampRateIn then
        (cfg.coerce (truncInt (s.value .sampRateOut / s.value .sampRateIn))).bind fun interp =>
          s.set cfg locked .factor interp
      else .ok s).bind fun s =>
      (s.set cfg locked .sampRateIn (s.value .sampRateOut / s.value .factor)).bind fun s =>
        s.forceDirty cfg locked .freq
  else .ok s

/-- The resolver for `scaling_out`. -/
def resolveScalingOut (cfg : Config) (locked : RateProp → Bool) (s : Channel) :
    Except UhdError Channel :=
  if !s.dirty .factor && !s.dirty .sampRateIn && !s.dirty .sampRateOut then
    setScalingIn cfg locked s
  else .ok s

/-- The resolvers, in the order in which they are added. -/
def resolvers (cfg : Config) : List RateResolver :=
  [⟨[.factor, .scalingIn], [.factor, .sampRateOut, .sampRateIn, .scalingIn], resolveInterp cfg⟩,
    ⟨[.freq], [.freq], fun locked s => s.resolveFreq cfg .sampRateOut locked⟩,
    ⟨[.sampRateIn], [.factor, .sampRateOut], resolveIn cfg⟩,
    ⟨[.sampRateOut], [.factor, .sampRateIn, .freq], resolveOut cfg⟩,
    ⟨[.scalingOut], [.scalingIn], resolveScalingOut cfg⟩]

/-! ## What is claimed -/

/-- The input scaling is the output scaling times what is left over. -/
def Scaled (s : Channel) : Prop :=
  s.valid .scalingOut = true → s.value .scalingIn = s.value .scalingOut * s.residualScaling

/-- The rates differ by the interpolation. -/
def Balanced (s : Channel) : Prop :=
  s.valid .sampRateIn = true → s.valid .sampRateOut = true →
    s.value .sampRateOut = s.value .sampRateIn * s.value .factor

/-- The interpolation is one that is nearest to the ratio that a change of a rate asks for, in a
state. -/
def NearestTo (cfg : Config) (s : Channel) (c : Change) (f : ℕ) : Prop :=
  match c with
  | .sampRateIn rate _ =>
    s.valid .sampRateOut = true → cfg.Nearest (s.value .sampRateOut / rate) f
  | .sampRateOut rate _ =>
    s.valid .sampRateIn = true → cfg.Nearest (rate / s.value .sampRateIn) f
  | _ => True

/-- **What is claimed after each resolution**, for the state before the change as well. -/
structure Right (cfg : Config) (s : Channel) (c : Change) (t : Channel) : Prop where
  balanced : Balanced t
  programmed : ∃ f ∈ cfg.validFactors, t.value .factor = (f : ℚ) ∧ RegsFor cfg f t ∧
    NearestTo cfg s c f
  timeRight : TimeRight cfg t
  scaled : Scaled t

/-- The interpolation that a change of a rate leads to. -/
def newInterp (cfg : Config) (s : Channel) : Change → Except UhdError ℤ
  | .sampRateIn rate _ =>
    if s.valid .sampRateOut then cfg.coerce (s.value .sampRateOut / rate) else .ok s.factor
  | .sampRateOut rate _ =>
    if s.valid .sampRateIn then cfg.coerce (truncInt (rate / s.value .sampRateIn))
    else .ok s.factor
  | .factor f => .ok f
  | _ => .ok s.factor

/-- The output rate after a change that leaves the interpolation as it is. -/
def newRate (s : Channel) : Change → ℚ
  | .sampRateIn rate _ => rate * s.value .factor
  | .sampRateOut rate _ => rate
  | _ => s.outputRate

/-- The scalings agree after a change that leaves the interpolation as it is. -/
def NewScaled (s : Channel) : Change → Prop
  | .scalingIn scaling => s.value .scalingIn = scaling → Scaled s
  | .scalingOut scaling =>
    s.value .scalingOut = scaling → s.value .scalingIn = scaling * s.residualScaling
  | _ => Scaled s

/-- Rounding the ratio down passes no midpoint between two neighbours among the valid
interpolations. -/
def PassesNoMidpoint (cfg : Config) (ratio : ℚ) : Prop :=
  ∀ f ∈ cfg.validFactors, ∀ g ∈ cfg.validFactors, f < g →
    (∀ e ∈ cfg.validFactors, e ≤ f ∨ g ≤ e) → (f + g : ℚ) / 2 < truncInt ratio ∨
      ratio ≤ (f + g : ℚ) / 2

/-- **The condition on a change.**  It changes the interpolation, or leaves the time increment and
the scalings as they have to be; and the ratio of the rates may be rounded down. -/
def Followed (cfg : Config) (s : Channel) (c : Change) : Prop :=
  (match c with
    | .sampRateOut rate _ =>
      s.valid .sampRateIn = true → PassesNoMidpoint cfg (rate / s.value .sampRateIn)
    | _ => True) ∧
  (newInterp cfg s c ≠ .ok s.factor ∨
    s.regs.timeIncr = some (cfg.timeIncr (newRate s c)) ∧ NewScaled s c)

/-! ## Rounding down -/

section Nearest

variable {cfg : Config} {ratio : ℚ} {f : ℕ}

/-- **What rounding down does.**  The interpolation for the ratio rounded down is nearest to the ratio
itself, exactly when no midpoint is passed. -/
theorem nearest_iff (hpos : 0 ≤ ratio) (hf : cfg.coerce (truncInt ratio) = .ok f) :
    cfg.Nearest ratio f ↔ PassesNoMidpoint cfg ratio := by
  have hfloor : truncInt ratio = ⌊ratio⌋ := by rw [truncInt, if_pos hpos]
  have hle : (truncInt ratio : ℚ) ≤ ratio := by
    rw [hfloor]
    exact Int.floor_le ratio
  obtain ⟨f', hff', ⟨hmem, hnearest⟩, hleast⟩ := Config.coerce_eq_ok hf
  obtain rfl : f = f' := by exact_mod_cast hff'
  constructor
  · rintro ⟨-, hnear⟩ a ha b hb hab hgap
    by_contra hpassed
    rw [not_or, not_lt, not_le] at hpassed
    obtain ⟨hbelow, habove⟩ := hpassed
    have habQ : (a : ℚ) < b := by exact_mod_cast hab
    -- Rounded down the ratio is not nearer to the upper one, and so has a lower one.
    have hfa : f ≤ a := by
      rcases hgap f hmem with hfa | hbf
      · exact hfa
      · exfalso
        have hbfQ : (b : ℚ) ≤ f := by exact_mod_cast hbf
        have hdist := hnearest a ha
        have hfar : |(truncInt ratio : ℚ) - a| ≤ |(truncInt ratio : ℚ) - f| := by
          rw [abs_of_nonpos (by linarith : (truncInt ratio : ℚ) - f ≤ 0)]
          exact abs_le.mpr ⟨by linarith, by linarith⟩
        have hle' := hleast a ha (le_antisymm hdist hfar)
        exact absurd (hab.trans_le hbf) (not_lt.mpr hle')
    have hfaQ : (f : ℚ) ≤ a := by exact_mod_cast hfa
    have hdist := hnear b hb
    rw [abs_of_pos (by linarith : 0 < ratio - f)] at hdist
    rcases abs_le.mp (le_refl |ratio - b|) with ⟨-, -⟩
    rcases le_total ratio b with hrb | hbr
    · rw [abs_of_nonpos (by linarith)] at hdist
      linarith
    · rw [abs_of_nonneg (by linarith)] at hdist
      linarith
  · intro hnone
    refine ⟨hmem, fun g hg => ?_⟩
    by_contra hcloser
    rw [not_le] at hcloser
    have hround := hnearest g hg
    -- What is nearer to the ratio lies above, and the next one above `f` is passed.
    have hfg : f < g := by
      by_contra hgf
      rw [not_lt] at hgf
      have hgfQ : (g : ℚ) ≤ f := by exact_mod_cast hgf
      rcases le_total ratio f with hrf | hfr
      · rw [abs_of_nonpos (by linarith : ratio - f ≤ 0)] at hcloser
        rw [abs_of_nonpos (by linarith : (truncInt ratio : ℚ) - f ≤ 0)] at hround
        have h₁ := neg_abs_le (ratio - g)
        have h₂ := le_abs_self ((truncInt ratio : ℚ) - g)
        rcases le_total (truncInt ratio : ℚ) g with htg | hgt
        · rw [abs_of_nonpos (by linarith)] at hround
          have hgeq : (g : ℚ) = f := le_antisymm hgfQ (by linarith)
          rw [hgeq, abs_of_nonpos (by linarith)] at hcloser
          exact lt_irrefl _ hcloser
        · rw [abs_of_nonneg (by linarith : 0 ≤ (truncInt ratio : ℚ) - g)] at hround
          rw [abs_of_nonneg (by linarith : 0 ≤ ratio - g)] at hcloser
          linarith
      · rw [abs_of_nonneg (by linarith : 0 ≤ ratio - f),
          abs_of_nonneg (by linarith : 0 ≤ ratio - g)] at hcloser
        linarith
    obtain ⟨b, ⟨hb, hfb⟩, hmin⟩ : ∃ b, (b ∈ cfg.validFactors ∧ f < b) ∧
        ∀ e, e ∈ cfg.validFactors ∧ f < e → b ≤ e :=
      ⟨_, Nat.find_spec (⟨g, hg, hfg⟩ : ∃ b, b ∈ cfg.validFactors ∧ f < b),
        fun e he => Nat.find_min' _ he⟩
    have hbg : b ≤ g := hmin g ⟨hg, hfg⟩
    have hfgQ : (f : ℚ) < g := by exact_mod_cast hfg
    have hfbQ : (f : ℚ) < b := by exact_mod_cast hfb
    have hbgQ : (b : ℚ) ≤ g := by exact_mod_cast hbg
    have hroundB := hnearest b hb
    rcases hnone f hmem b hb hfb (fun e he => by
      by_cases hfe : f < e
      · exact Or.inr (hmin e ⟨he, hfe⟩)
      · exact Or.inl (not_lt.mp hfe)) with habove | hbelow
    · -- Above the midpoint the ratio rounded down is nearer to the upper one.
      rw [abs_of_pos (by linarith : 0 < (truncInt ratio : ℚ) - f)] at hroundB
      rcases le_total (truncInt ratio : ℚ) b with htb | hbt
      · rw [abs_of_nonpos (by linarith)] at hroundB
        linarith
      · rw [abs_of_nonneg (by linarith)] at hroundB
        linarith
    · rcases le_total ratio f with hrf | hfr
      · rw [abs_of_nonpos (by linarith : ratio - f ≤ 0),
          abs_of_nonpos (by linarith : ratio - g ≤ 0)] at hcloser
        linarith
      · rw [abs_of_nonneg (by linarith : 0 ≤ ratio - f),
          abs_of_nonpos (by linarith : ratio - g ≤ 0)] at hcloser
        linarith

end Nearest

/-! ## What the resolvers do -/

/-- What the resolvers rely on. -/
structure Basic (s : Channel) : Prop where
  factor_valid : s.valid .factor = true
  in_pos : s.valid .sampRateIn = true → 0 < s.value .sampRateIn
  in_zero : s.valid .sampRateIn = false → s.value .sampRateIn = 0
  out_pos : s.valid .sampRateOut = true → 0 < s.value .sampRateOut
  out_zero : s.valid .sampRateOut = false → s.value .sampRateOut = 0

/-- **What every resolver keeps.** -/
structure Even (cfg : Config) (s : Channel) : Prop extends Basic s where
  both : s.valid .sampRateOut = s.valid .sampRateIn
  numeric : ∃ f ∈ cfg.validFactors, s.value .factor = (f : ℚ)
  balanced : Balanced s

/-- The registers are those of the interpolation. -/
def Programmed (cfg : Config) (s : Channel) : Prop :=
  ∃ f ∈ cfg.validFactors, s.value .factor = (f : ℚ) ∧ RegsFor cfg f s

/-- Neither the registers nor what scaling is left over are touched, but for the frequency. -/
structure RegsSame (s t : Channel) : Prop where
  residual : t.residualScaling = s.residualScaling
  regs : t.regs = { s.regs with freq := t.regs.freq }

/-- The scalings are not touched. -/
def ScalingsSame (s t : Channel) : Prop :=
  ∀ q ∈ [RateProp.scalingIn, .scalingOut], t.value q = s.value q ∧ t.valid q = s.valid q

/-- **Nothing that has to do with the rates changes.** -/
structure Calm (s t : Channel) : Prop where
  value : ∀ q ∈ rateProps, t.value q = s.value q
  valid : ∀ q ∈ rateProps, t.valid q = s.valid q
  factor_dirty : t.dirty .factor = s.dirty .factor

section Resolvers

variable {cfg : Config} {locked : RateProp → Bool} {s t u : Channel} {f : ℤ}

theorem RegsSame.refl (s : Channel) : RegsSame s s := ⟨rfl, rfl⟩

theorem RegsSame.trans (h : RegsSame s t) (h' : RegsSame t u) : RegsSame s u :=
  ⟨h'.residual.trans h.residual, by rw [h'.regs, h.regs]⟩

theorem RegsSame.regsFor (h : RegsSame s t) (hs : RegsFor cfg f s) : RegsFor cfg f t where
  factorWord := by rw [h.regs]; exact hs.factorWord
  ratio := by rw [h.regs]; exact hs.ratio
  scaleIq := by rw [h.regs]; exact hs.scaleIq
  residual := by rw [h.residual]; exact hs.residual

theorem Wrote.regsSame {p : RateProp} {v : ℚ} (h : Wrote s p v t) : RegsSame s t :=
  ⟨h.residual, by rw [h.regs]⟩

theorem Calm.refl (s : Channel) : Calm s s := ⟨fun _ _ => rfl, fun _ _ => rfl, rfl⟩

theorem Calm.trans (h : Calm s t) (h' : Calm t u) : Calm s u where
  value q hq := (h'.value q hq).trans (h.value q hq)
  valid q hq := (h'.valid q hq).trans (h.valid q hq)
  factor_dirty := h'.factor_dirty.trans h.factor_dirty

theorem Calm.outputRate (h : Calm s t) : t.outputRate = s.outputRate :=
  outputRate_congr (h.valid _ (by decide)) (h.value _ (by decide))

theorem Even.of_calm (hs : Even cfg s) (h : Calm s t) : Even cfg t where
  factor_valid := by rw [h.valid _ (by decide)]; exact hs.factor_valid
  in_pos := by rw [h.valid _ (by decide), h.value _ (by decide)]; exact hs.in_pos
  in_zero := by rw [h.valid _ (by decide), h.value _ (by decide)]; exact hs.in_zero
  out_pos := by rw [h.valid _ (by decide), h.value _ (by decide)]; exact hs.out_pos
  out_zero := by rw [h.valid _ (by decide), h.value _ (by decide)]; exact hs.out_zero
  both := by rw [h.valid _ (by decide), h.valid _ (by decide)]; exact hs.both
  numeric := by rw [h.value _ (by decide)]; exact hs.numeric
  balanced := by
    rw [Balanced, h.valid _ (by decide), h.valid _ (by decide), h.value _ (by decide),
      h.value _ (by decide), h.value _ (by decide)]
    exact hs.balanced

theorem Programmed.of_same (hs : Programmed cfg s) (h : RegsSame s t) (hcalm : Calm s t) :
    Programmed cfg t := by
  obtain ⟨f, hf, hvalue, hregs⟩ := hs
  exact ⟨f, hf, (hcalm.value _ (by decide)).trans hvalue, h.regsFor hregs⟩

theorem timeRight_of_same (h : RegsSame s t) (hcalm : Calm s t) :
    TimeRight cfg t ↔ TimeRight cfg s := by
  rw [TimeRight, TimeRight, h.regs, hcalm.outputRate]

theorem scaled_of_same (h : ScalingsSame s t) (hresidual : t.residualScaling = s.residualScaling) :
    Scaled t ↔ Scaled s := by
  rw [Scaled, Scaled, (h .scalingOut (by simp)).1, (h .scalingOut (by simp)).2,
    (h .scalingIn (by simp)).1, hresidual]

theorem setScalingIn_eq_ok (h : setScalingIn cfg locked s = .ok t) :
    Scaled t ∧ (∀ q, q ≠ .scalingIn → t.value q = s.value q) ∧
      (∀ q, q ≠ .scalingIn → t.valid q = s.valid q) ∧
      (∀ q, q ≠ .scalingIn → t.dirty q = s.dirty q) ∧ RegsSame s t := by
  rw [setScalingIn] at h
  by_cases hvalid : s.valid .scalingOut = true
  · rw [if_pos hvalid] at h
    have hw := wrote_of_set h
    refine ⟨fun _ => ?_, hw.value, hw.valid, hw.dirty, Wrote.regsSame hw⟩
    rw [hw.self, hw.value .scalingOut (by decide), hw.residual]
  · rw [if_neg hvalid] at h
    rw [← Except.ok.inj h]
    exact ⟨fun hv => absurd hv hvalid, fun _ _ => rfl, fun _ _ => rfl, fun _ _ => rfl,
      RegsSame.refl s⟩

/-- **The resolver for the interpolation.**  The input rate follows, and the registers if the
interpolation is dirty. -/
theorem resolveInterp_spec (hs : Basic s) (hboth : s.valid .sampRateOut = s.valid .sampRateIn)
    (h : resolveInterp cfg locked s = .ok t) :
    ∃ g : ℕ, cfg.coerce (s.value .factor) = .ok g ∧ t.value .factor = (g : ℚ) ∧ Even cfg t ∧
      Scaled t ∧ t.value .sampRateOut = s.value .sampRateOut ∧
      t.valid .sampRateOut = s.valid .sampRateOut ∧ t.valid .sampRateIn = s.valid .sampRateIn ∧
      (s.valid .sampRateOut = true → t.value .sampRateIn = s.value .sampRateOut / g) ∧
      (s.valid .sampRateOut = false → t.value .sampRateIn = s.value .sampRateIn) ∧
      t.dirty .factor = (s.dirty .factor || decide (s.value .factor ≠ g)) ∧
      (t.dirty .factor = true → RegsFor cfg g t ∧ TimeRight cfg t) ∧
      (t.dirty .factor = false → RegsSame s t) := by
  rw [resolveInterp] at h
  obtain ⟨d, hd, h⟩ := bind_eq_ok.mp h
  obtain ⟨g, rfl, ⟨hg, -⟩, -⟩ := Config.coerce_eq_ok hd
  have hgpos : (0 : ℚ) < g := Nat.cast_pos.mpr (Config.pos_of_mem hg)
  obtain ⟨s₁, hset, h⟩ := bind_eq_ok.mp h
  have hw₁ := wrote_of_set hset
  have hgself : s₁.value .factor = (g : ℚ) := by rw [hw₁.self, Int.cast_natCast]
  have hdirty₁ : s₁.dirty .factor = (s.dirty .factor || decide (s.value .factor ≠ g)) := by
    rw [hw₁.dirty_self, Int.cast_natCast]
  obtain ⟨s₂, hs₂, h⟩ := bind_eq_ok.mp h
  obtain ⟨hvalue₂, hvalid₂, hdirty₂, hwritten₂, hkept₂⟩ : s₂.value = s₁.value ∧
      s₂.valid = s₁.valid ∧ s₂.dirty = s₁.dirty ∧
      (s₁.dirty .factor = true → RegsFor cfg g s₂ ∧
        s₂.regs.timeIncr = some (cfg.timeIncr s.outputRate)) ∧
      (s₁.dirty .factor = false → RegsSame s s₂) := by
    by_cases hdirty : s₁.dirty .factor = true
    · rw [if_pos hdirty, factor_eq hw₁.self] at hs₂
      obtain ⟨hvalue₂, hvalid₂, hdirty₂, hregs₂, htime₂⟩ := setFactor_eq_ok hs₂
      rw [outputRate_congr (hw₁.valid _ (by decide)) (hw₁.value _ (by decide))] at htime₂
      refine ⟨hvalue₂, hvalid₂, hdirty₂, fun _ => ⟨hregs₂, htime₂⟩, fun hclean => ?_⟩
      rw [hdirty] at hclean
      cases hclean
    · rw [if_neg hdirty] at hs₂
      obtain rfl := Except.ok.inj hs₂
      exact ⟨rfl, rfl, rfl, fun hdirty' => absurd hdirty' hdirty, fun _ => Wrote.regsSame hw₁⟩
  obtain ⟨s₃, hs₃, h⟩ := bind_eq_ok.mp h
  have hother₂ : ∀ q, q ≠ .factor → s₂.value q = s.value q ∧ s₂.valid q = s.valid q := by
    intro q hq
    rw [hvalue₂, hvalid₂]
    exact ⟨hw₁.value q hq, hw₁.valid q hq⟩
  have hfactor₂ : s₂.value .factor = (g : ℚ) := by rw [hvalue₂, hgself]
  have hfactorValid₂ : s₂.valid .factor = true := by
    rw [hvalid₂]
    exact hw₁.valid_self hs.factor_valid
  obtain ⟨hscaled, hvalue₄, hvalid₄, hdirty₄, hsame₄⟩ := setScalingIn_eq_ok h
  -- What becomes of the input rate.
  obtain ⟨hin₃, hout₃, houtValid₃, hinValid₃, hfactor₃, hfactorValid₃, hdirty₃, hsame₃⟩ :
      ((s.valid .sampRateOut = true → s₃.value .sampRateIn = s.value .sampRateOut / g) ∧
        (s.valid .sampRateOut = false → s₃.value .sampRateIn = s.value .sampRateIn)) ∧
      s₃.value .sampRateOut = s.value .sampRateOut ∧
      s₃.valid .sampRateOut = s.valid .sampRateOut ∧
      s₃.valid .sampRateIn = s.valid .sampRateIn ∧ s₃.value .factor = (g : ℚ) ∧
      s₃.valid .factor = true ∧ s₃.dirty .factor = s₁.dirty .factor ∧ RegsSame s₂ s₃ := by
    by_cases hout : s.valid .sampRateOut = true
    · rw [if_pos ((hother₂ _ (by decide)).2.trans hout), (hother₂ _ (by decide)).1,
        hfactor₂] at hs₃
      have hw₃ := wrote_of_set hs₃
      refine ⟨⟨fun _ => hw₃.self, fun hinvalid => ?_⟩, ?_, ?_, ?_, ?_, ?_, ?_,
        Wrote.regsSame hw₃⟩
      · rw [hout] at hinvalid
        cases hinvalid
      · rw [hw₃.value _ (by decide), (hother₂ _ (by decide)).1]
      · rw [hw₃.valid _ (by decide), (hother₂ _ (by decide)).2]
      · rw [hw₃.valid_self ((hother₂ _ (by decide)).2.trans (hboth.symm.trans hout)), ← hboth, hout]
      · rw [hw₃.value _ (by decide), hfactor₂]
      · rw [hw₃.valid _ (by decide), hfactorValid₂]
      · rw [hw₃.dirty _ (by decide), hdirty₂]
    · have hin : ¬ s.valid .sampRateIn = true := by
        rw [← hboth]
        exact hout
      rw [if_neg (by rw [(hother₂ _ (by decide)).2]; exact hout),
        if_neg (by rw [(hother₂ _ (by decide)).2]; exact hin)] at hs₃
      obtain rfl := Except.ok.inj hs₃
      exact ⟨⟨fun hout' => absurd hout' hout, fun _ => (hother₂ _ (by decide)).1⟩,
        (hother₂ _ (by decide)).1, (hother₂ _ (by decide)).2, (hother₂ _ (by decide)).2, hfactor₂,
        hfactorValid₂, by rw [hdirty₂], RegsSame.refl _⟩
  have hdirtyT : t.dirty .factor = s₁.dirty .factor := (hdirty₄ _ (by decide)).trans hdirty₃
  have hfactorT : t.value .factor = (g : ℚ) := (hvalue₄ _ (by decide)).trans hfactor₃
  have houtT : t.value .sampRateOut = s.value .sampRateOut := (hvalue₄ _ (by decide)).trans hout₃
  have houtValidT : t.valid .sampRateOut = s.valid .sampRateOut :=
    (hvalid₄ _ (by decide)).trans houtValid₃
  have hinValidT : t.valid .sampRateIn = s.valid .sampRateIn :=
    (hvalid₄ _ (by decide)).trans hinValid₃
  have hinT : t.value .sampRateIn = s₃.value .sampRateIn := hvalue₄ _ (by decide)
  have hsameT : RegsSame s₂ t := hsame₃.trans hsame₄
  refine ⟨g, hd, hfactorT, ?_, hscaled, houtT, houtValidT, hinValidT,
    fun hout => hinT.trans (hin₃.1 hout), fun hout => hinT.trans (hin₃.2 hout),
    hdirtyT.trans hdirty₁, fun hdirty => ?_, fun hclean => ?_⟩
  · refine ⟨⟨(hvalid₄ _ (by decide)).trans hfactorValid₃, fun hin => ?_, fun hin => ?_,
      fun hout => ?_, fun hout => ?_⟩, ?_, ⟨g, hg, hfactorT⟩, fun hin hout => ?_⟩
    · rw [hinValidT, ← hboth] at hin
      rw [hinT, hin₃.1 hin]
      exact div_pos (hs.out_pos hin) hgpos
    · rw [hinValidT] at hin
      rw [hinT, hin₃.2 (hboth.trans hin)]
      exact hs.in_zero hin
    · rw [houtValidT] at hout
      rw [houtT]
      exact hs.out_pos hout
    · rw [houtValidT] at hout
      rw [houtT]
      exact hs.out_zero hout
    · rw [houtValidT, hinValidT]
      exact hboth
    · rw [houtValidT] at hout
      rw [houtT, hinT, hin₃.1 hout, hfactorT]
      exact (div_mul_cancel₀ _ hgpos.ne').symm
  · obtain ⟨hregs, htime⟩ := hwritten₂ (hdirtyT ▸ hdirty)
    refine ⟨hsameT.regsFor hregs, ?_⟩
    rw [TimeRight, hsameT.regs, outputRate_congr houtValidT houtT]
    exact htime
  · exact (hkept₂ (hdirtyT ▸ hclean)).trans hsameT

theorem resolveIn_spec (hs : Basic s) (hnumeric : ∃ f ∈ cfg.validFactors, s.value .factor = (f : ℚ))
    (hin : s.valid .sampRateIn = true) (h : resolveIn cfg locked s = .ok t) :
    ∃ g ∈ cfg.validFactors, t.value .factor = (g : ℚ) ∧ Even cfg t ∧
      (s.valid .sampRateOut = true →
        cfg.coerce (s.value .sampRateOut / s.value .sampRateIn) = .ok g) ∧
      (s.valid .sampRateOut = false → s.value .factor = (g : ℚ)) ∧
      t.value .sampRateIn = s.value .sampRateIn ∧
      t.value .sampRateOut = s.value .sampRateIn * g ∧ t.valid .sampRateIn = true ∧
      t.valid .sampRateOut = true ∧
      t.dirty .factor = (s.dirty .factor || decide (s.value .factor ≠ g)) ∧
      ScalingsSame s t ∧ RegsSame s t := by
  rw [resolveIn, if_pos hin] at h
  have hinPos := hs.in_pos hin
  obtain ⟨u, hu, h⟩ := bind_eq_ok.mp h
  have hw := wrote_of_set h
  obtain ⟨g, hg, hgvalue, hgcoerce, hgsame, hgother, hgvalid, hgdirty, hgregs⟩ :
      ∃ g ∈ cfg.validFactors, u.value .factor = (g : ℚ) ∧
        (s.valid .sampRateOut = true →
          cfg.coerce (s.value .sampRateOut / s.value .sampRateIn) = .ok g) ∧
        (s.valid .sampRateOut = false → s.value .factor = (g : ℚ)) ∧
        (∀ q, q ≠ .factor → u.value q = s.value q ∧ u.valid q = s.valid q) ∧
        u.valid .factor = true ∧
        u.dirty .factor = (s.dirty .factor || decide (s.value .factor ≠ g)) ∧ RegsSame s u := by
    by_cases hout : s.valid .sampRateOut = true
    · rw [if_pos hout] at hu
      obtain ⟨d, hd, hu⟩ := bind_eq_ok.mp hu
      obtain ⟨g, rfl, ⟨hg, -⟩, -⟩ := Config.coerce_eq_ok hd
      have hw₁ := wrote_of_set hu
      refine ⟨g, hg, ?_, fun _ => hd, fun hinvalid => ?_,
        fun q hq => ⟨hw₁.value q hq, hw₁.valid q hq⟩, hw₁.valid_self hs.factor_valid, ?_,
        Wrote.regsSame hw₁⟩
      · rw [hw₁.self, Int.cast_natCast]
      · rw [hout] at hinvalid
        cases hinvalid
      · rw [hw₁.dirty_self, Int.cast_natCast]
    · rw [if_neg hout] at hu
      obtain rfl := Except.ok.inj hu
      obtain ⟨f, hf, hfactor⟩ := hnumeric
      refine ⟨f, hf, hfactor, fun hout' => absurd hout' hout, fun _ => hfactor,
        fun _ _ => ⟨rfl, rfl⟩, hs.factor_valid, ?_, RegsSame.refl _⟩
      rw [hfactor, decide_eq_false (not_not_intro rfl), Bool.or_false]
  have hgpos : (0 : ℚ) < g := Nat.cast_pos.mpr (Config.pos_of_mem hg)
  rw [(hgother _ (by decide)).1, hgvalue] at hw
  have hinT : t.value .sampRateIn = s.value .sampRateIn := by
    rw [hw.value _ (by decide), (hgother _ (by decide)).1]
  have hinValidT : t.valid .sampRateIn = true := by
    rw [hw.valid _ (by decide), (hgother _ (by decide)).2]
    exact hin
  have hfactorT : t.value .factor = (g : ℚ) := by rw [hw.value _ (by decide), hgvalue]
  have houtValidT : t.valid .sampRateOut = true := by
    by_cases hout : s.valid .sampRateOut = true
    · exact hw.valid_self ((hgother _ (by decide)).2.trans hout)
    · refine hw.valid_of_ne ?_
      rw [(hgother _ (by decide)).1, hs.out_zero (Bool.not_eq_true _ ▸ hout)]
      exact (mul_pos hinPos hgpos).ne
  refine ⟨g, hg, hfactorT, ?_, hgcoerce, hgsame, hinT, hw.self, hinValidT, houtValidT, ?_, ?_,
    hgregs.trans (Wrote.regsSame hw)⟩
  · refine ⟨⟨?_, fun _ => ?_, fun hinvalid => ?_, fun _ => ?_, fun hinvalid => ?_⟩, ?_,
      ⟨g, hg, hfactorT⟩, fun _ _ => ?_⟩
    · rw [hw.valid _ (by decide)]
      exact hgvalid
    · rw [hinT]
      exact hinPos
    · rw [hinValidT] at hinvalid
      cases hinvalid
    · rw [hw.self]
      exact mul_pos hinPos hgpos
    · rw [houtValidT] at hinvalid
      cases hinvalid
    · rw [houtValidT, hinValidT]
    · rw [hw.self, hinT, hfactorT]
  · rw [hw.dirty _ (by decide)]
    exact hgdirty
  · intro q hq
    have hqne : q ≠ .sampRateOut ∧ q ≠ .factor := by
      rcases List.mem_cons.mp hq with rfl | hq
      · decide
      · rw [List.mem_singleton.mp hq]
        decide
    rw [hw.value q hqne.1, hw.valid q hqne.1]
    exact hgother q hqne.2

theorem resolveOut_spec (hs : Basic s) (hnumeric : ∃ f ∈ cfg.validFactors, s.value .factor = (f : ℚ))
    (hout : s.valid .sampRateOut = true) (h : resolveOut cfg locked s = .ok t) :
    ∃ g ∈ cfg.validFactors, t.value .factor = (g : ℚ) ∧ Even cfg t ∧
      (s.valid .sampRateIn = true →
        cfg.coerce (truncInt (s.value .sampRateOut / s.value .sampRateIn)) = .ok g) ∧
      (s.valid .sampRateIn = false → s.value .factor = (g : ℚ)) ∧
      t.value .sampRateOut = s.value .sampRateOut ∧
      t.value .sampRateIn = s.value .sampRateOut / g ∧ t.valid .sampRateIn = true ∧
      t.valid .sampRateOut = true ∧
      t.dirty .factor = (s.dirty .factor || decide (s.value .factor ≠ g)) ∧
      ScalingsSame s t ∧ RegsSame s t := by
  rw [resolveOut, if_pos hout] at h
  have houtPos := hs.out_pos hout
  obtain ⟨u, hu, h⟩ := bind_eq_ok.mp h
  obtain ⟨w, hset, h⟩ := bind_eq_ok.mp h
  obtain ⟨hmarked, hmarkedDirty⟩ := marked_of_forceDirty h
  have hw := wrote_of_set hset
  obtain ⟨g, hg, hgvalue, hgcoerce, hgsame, hgother, hgvalid, hgdirty, hgregs⟩ :
      ∃ g ∈ cfg.validFactors, u.value .factor = (g : ℚ) ∧
        (s.valid .sampRateIn = true →
          cfg.coerce (truncInt (s.value .sampRateOut / s.value .sampRateIn)) = .ok g) ∧
        (s.valid .sampRateIn = false → s.value .factor = (g : ℚ)) ∧
        (∀ q, q ≠ .factor → u.value q = s.value q ∧ u.valid q = s.valid q) ∧
        u.valid .factor = true ∧
        u.dirty .factor = (s.dirty .factor || decide (s.value .factor ≠ g)) ∧ RegsSame s u := by
    by_cases hin : s.valid .sampRateIn = true
    · rw [if_pos hin] at hu
      obtain ⟨d, hd, hu⟩ := bind_eq_ok.mp hu
      obtain ⟨g, rfl, ⟨hg, -⟩, -⟩ := Config.coerce_eq_ok hd
      have hw₁ := wrote_of_set hu
      refine ⟨g, hg, ?_, fun _ => hd, fun hinvalid => ?_,
        fun q hq => ⟨hw₁.value q hq, hw₁.valid q hq⟩, hw₁.valid_self hs.factor_valid, ?_,
        Wrote.regsSame hw₁⟩
      · rw [hw₁.self, Int.cast_natCast]
      · rw [hin] at hinvalid
        cases hinvalid
      · rw [hw₁.dirty_self, Int.cast_natCast]
    · rw [if_neg hin] at hu
      obtain rfl := Except.ok.inj hu
      obtain ⟨f, hf, hfactor⟩ := hnumeric
      refine ⟨f, hf, hfactor, fun hin' => absurd hin' hin, fun _ => hfactor,
        fun _ _ => ⟨rfl, rfl⟩, hs.factor_valid, ?_, RegsSame.refl _⟩
      rw [hfactor, decide_eq_false (not_not_intro rfl), Bool.or_false]
  have hgpos : (0 : ℚ) < g := Nat.cast_pos.mpr (Config.pos_of_mem hg)
  rw [(hgother _ (by decide)).1, hgvalue] at hw
  have houtT : t.value .sampRateOut = s.value .sampRateOut := by
    rw [hmarked.value, hw.value _ (by decide), (hgother _ (by decide)).1]
  have houtValidT : t.valid .sampRateOut = true := by
    rw [hmarked.valid, hw.valid _ (by decide), (hgother _ (by decide)).2]
    exact hout
  have hfactorT : t.value .factor = (g : ℚ) := by
    rw [hmarked.value, hw.value _ (by decide), hgvalue]
  have hinT : t.value .sampRateIn = s.value .sampRateOut / g := by
    rw [hmarked.value, hw.self]
  have hinValidT : t.valid .sampRateIn = true := by
    rw [hmarked.valid]
    by_cases hin : s.valid .sampRateIn = true
    · exact hw.valid_self ((hgother _ (by decide)).2.trans hin)
    · refine hw.valid_of_ne ?_
      rw [(hgother _ (by decide)).1, hs.in_zero (Bool.not_eq_true _ ▸ hin)]
      exact (div_pos houtPos hgpos).ne
  refine ⟨g, hg, hfactorT, ?_, hgcoerce, hgsame, houtT, hinT, hinValidT, houtValidT, ?_, ?_, ?_⟩
  · refine ⟨⟨?_, fun _ => ?_, fun hinvalid => ?_, fun _ => ?_, fun hinvalid => ?_⟩, ?_,
      ⟨g, hg, hfactorT⟩, fun _ _ => ?_⟩
    · rw [hmarked.valid, hw.valid _ (by decide)]
      exact hgvalid
    · rw [hinT]
      exact div_pos houtPos hgpos
    · rw [hinValidT] at hinvalid
      cases hinvalid
    · rw [houtT]
      exact houtPos
    · rw [houtValidT] at hinvalid
      cases hinvalid
    · rw [houtValidT, hinValidT]
    · rw [houtT, hinT, hfactorT]
      exact (div_mul_cancel₀ _ hgpos.ne').symm
  · rw [hmarkedDirty, Function.update_of_ne (by decide), hw.dirty _ (by decide)]
    exact hgdirty
  · intro q hq
    have hqne : q ≠ .sampRateIn ∧ q ≠ .factor := by
      rcases List.mem_cons.mp hq with rfl | hq
      · decide
      · rw [List.mem_singleton.mp hq]
        decide
    rw [hmarked.value, hmarked.valid, hw.value q hqne.1, hw.valid q hqne.1]
    exact hgother q hqne.2
  · exact (hgregs.trans (Wrote.regsSame hw)).trans ⟨hmarked.residual, by rw [hmarked.regs]⟩

theorem Even.ratio (hs : Even cfg s) (hin : s.valid .sampRateIn = true) :
    s.value .sampRateOut / s.value .sampRateIn = s.value .factor := by
  rw [hs.balanced hin (hs.both.trans hin)]
  exact mul_div_cancel_left₀ _ (hs.in_pos hin).ne'

theorem truncInt_natCast (f : ℕ) : (truncInt (f : ℚ) : ℚ) = f := by
  rw [truncInt, if_pos (Nat.cast_nonneg f), ← Int.cast_natCast, Int.floor_intCast]

theorem Even.eq_of_coerce (hs : Even cfg s) {g : ℕ}
    (hg : cfg.coerce (s.value .factor) = .ok g) : s.value .factor = (g : ℚ) := by
  obtain ⟨f, hf, hfactor⟩ := hs.numeric
  rw [hfactor, Config.coerce_of_mem hf] at hg
  have hfg : (f : ℤ) = g := Except.ok.inj hg
  rw [hfactor]
  exact_mod_cast hfg

theorem Even.eq_of_coerce_truncInt (hs : Even cfg s) {g : ℕ}
    (hg : cfg.coerce (truncInt (s.value .factor)) = .ok g) : s.value .factor = (g : ℚ) := by
  obtain ⟨f, hf, hfactor⟩ := hs.numeric
  refine hs.eq_of_coerce ?_
  rw [hfactor, truncInt_natCast] at hg
  rw [hfactor]
  exact hg

/-- **What a resolver does to a channel that is even**: the rates stay, the registers stay or are
written, and the scalings agree if they did. -/
structure Quiet (cfg : Config) (s t : Channel) : Prop where
  calm : Calm s t
  regs : RegsSame s t ∨ s.dirty .factor = true ∧ Programmed cfg t ∧ TimeRight cfg t
  scaled : Scaled s → Scaled t

theorem Quiet.programmed (h : Quiet cfg s t) (hs : Programmed cfg s) : Programmed cfg t := by
  rcases h.regs with hsame | ⟨-, hprogrammed, -⟩
  · exact hs.of_same hsame h.calm
  · exact hprogrammed

theorem Even.quiet_interp (hs : Even cfg s) (h : resolveInterp cfg locked s = .ok t) :
    Quiet cfg s t ∧ Scaled t ∧
      (s.dirty .factor = true → Programmed cfg t ∧ TimeRight cfg t) := by
  obtain ⟨g, hg, hfactor, heven, hscaled, hout, houtValid, hinValid, hin, hin', hdirty, hwritten,
    hkept⟩ := resolveInterp_spec hs.toBasic hs.both h
  have hsame := hs.eq_of_coerce hg
  rw [hsame, decide_eq_false (not_not_intro rfl), Bool.or_false] at hdirty
  have hcalm : Calm s t := by
    refine ⟨fun q hq => ?_, fun q hq => ?_, hdirty⟩
    · rcases List.mem_cons.mp hq with rfl | hq
      · by_cases hknown : s.valid .sampRateOut = true
        · have hinKnown : s.valid .sampRateIn = true := hs.both.symm.trans hknown
          have hpos : (0 : ℚ) < g := by
            obtain ⟨f, hf, hf'⟩ := hs.numeric
            rw [← hsame, hf']
            exact Nat.cast_pos.mpr (Config.pos_of_mem hf)
          rw [hin hknown, hs.balanced hinKnown hknown, hsame]
          exact mul_div_cancel_right₀ _ hpos.ne'
        · exact hin' (Bool.not_eq_true _ ▸ hknown)
      rcases List.mem_cons.mp hq with rfl | hq
      · exact hout
      · rw [List.mem_singleton.mp hq, hfactor, hsame]
    · rcases List.mem_cons.mp hq with rfl | hq
      · exact hinValid
      rcases List.mem_cons.mp hq with rfl | hq
      · exact houtValid
      · rw [List.mem_singleton.mp hq, hs.factor_valid, heven.factor_valid]
  have hprogrammed : s.dirty .factor = true → Programmed cfg t ∧ TimeRight cfg t := by
    intro hmark
    obtain ⟨hregs, htime⟩ := hwritten (hdirty.trans hmark)
    obtain ⟨f, hf, hf'⟩ := heven.numeric
    have hfg : f = g := by
      rw [hf'] at hfactor
      exact_mod_cast hfactor
    exact ⟨⟨f, hf, hf', by rw [hfg]; exact hregs⟩, htime⟩
  refine ⟨⟨hcalm, ?_, fun _ => hscaled⟩, hscaled, hprogrammed⟩
  by_cases hmark : s.dirty .factor = true
  · exact Or.inr ⟨hmark, hprogrammed hmark⟩
  · exact Or.inl (hkept (hdirty.trans (Bool.not_eq_true _ ▸ hmark)))

theorem quiet_freq (h : s.resolveFreq cfg .sampRateOut locked = .ok t) : Quiet cfg s t := by
  obtain ⟨heq, hvalue, hvalid⟩ := resolveFreq_eq_ok h
  refine ⟨⟨heq.value, heq.valid, dirty_of_resolveFreq h (by decide)⟩,
    Or.inl ⟨heq.residual, heq.regs⟩, fun hscaled => ?_⟩
  rw [Scaled, hvalid _ (by decide), hvalue _ (by decide), hvalue _ (by decide), heq.residual]
  exact hscaled

theorem Even.calm_of_rate (hs : Even cfg s) (ht : Even cfg t) {g : ℕ}
    (hsame : s.value .factor = (g : ℚ)) (hfactor : t.value .factor = (g : ℚ))
    (hin : s.valid .sampRateIn = true) (hinValid : t.valid .sampRateIn = true)
    (hrate : t.value .sampRateIn = s.value .sampRateIn ∨
      t.value .sampRateOut = s.value .sampRateOut)
    (hdirty : t.dirty .factor = (s.dirty .factor || decide (s.value .factor ≠ g))) : Calm s t := by
  have hout : s.valid .sampRateOut = true := hs.both.trans hin
  have houtValid : t.valid .sampRateOut = true := ht.both.trans hinValid
  have hbal := hs.balanced hin hout
  have hbal' := ht.balanced hinValid houtValid
  have hpos : (0 : ℚ) < g := by
    obtain ⟨f, hf, hf'⟩ := hs.numeric
    rw [← hsame, hf']
    exact Nat.cast_pos.mpr (Config.pos_of_mem hf)
  rw [hsame] at hbal
  rw [hfactor] at hbal'
  have hboth : t.value .sampRateIn = s.value .sampRateIn ∧
      t.value .sampRateOut = s.value .sampRateOut := by
    rcases hrate with hrate | hrate
    · exact ⟨hrate, by rw [hbal', hbal, hrate]⟩
    · refine ⟨?_, hrate⟩
      rw [hbal', hbal] at hrate
      exact mul_right_cancel₀ hpos.ne' hrate
  refine ⟨fun q hq => ?_, fun q hq => ?_, ?_⟩
  · rcases List.mem_cons.mp hq with rfl | hq
    · exact hboth.1
    rcases List.mem_cons.mp hq with rfl | hq
    · exact hboth.2
    · rw [List.mem_singleton.mp hq, hfactor, hsame]
  · rcases List.mem_cons.mp hq with rfl | hq
    · rw [hinValid, hin]
    rcases List.mem_cons.mp hq with rfl | hq
    · rw [houtValid, hout]
    · rw [List.mem_singleton.mp hq, hs.factor_valid, ht.factor_valid]
  · rw [hdirty, hsame, decide_eq_false (not_not_intro rfl), Bool.or_false]

theorem Even.quiet_in (hs : Even cfg s) (h : resolveIn cfg locked s = .ok t) :
    Quiet cfg s t ∧ ScalingsSame s t ∧ RegsSame s t := by
  by_cases hin : s.valid .sampRateIn = true
  · obtain ⟨g, hg, hfactor, heven, hcoerce, -, hrate, -, hinValid, -, hdirty, hscalings, hregs⟩ :=
      resolveIn_spec hs.toBasic hs.numeric hin h
    have hcoerced := hcoerce (hs.both.trans hin)
    rw [hs.ratio hin] at hcoerced
    have hcalm := hs.calm_of_rate heven (hs.eq_of_coerce hcoerced) hfactor hin hinValid
      (Or.inl hrate) hdirty
    exact ⟨⟨hcalm, Or.inl hregs, (scaled_of_same hscalings hregs.residual).mpr⟩, hscalings, hregs⟩
  · rw [resolveIn, if_neg hin] at h
    obtain rfl := Except.ok.inj h
    exact ⟨⟨Calm.refl s, Or.inl (RegsSame.refl s), id⟩, fun _ _ => ⟨rfl, rfl⟩, RegsSame.refl s⟩

theorem Even.quiet_out (hs : Even cfg s) (h : resolveOut cfg locked s = .ok t) :
    Quiet cfg s t ∧ ScalingsSame s t ∧ RegsSame s t := by
  by_cases hout : s.valid .sampRateOut = true
  · obtain ⟨g, hg, hfactor, heven, hcoerce, -, hrate, -, hinValid, -, hdirty, hscalings, hregs⟩ :=
      resolveOut_spec hs.toBasic hs.numeric hout h
    have hin : s.valid .sampRateIn = true := hs.both.symm.trans hout
    have hcoerced := hcoerce hin
    rw [hs.ratio hin] at hcoerced
    have hcalm := hs.calm_of_rate heven (hs.eq_of_coerce_truncInt hcoerced) hfactor hin hinValid
      (Or.inr hrate) hdirty
    exact ⟨⟨hcalm, Or.inl hregs, (scaled_of_same hscalings hregs.residual).mpr⟩, hscalings, hregs⟩
  · rw [resolveOut, if_neg hout] at h
    obtain rfl := Except.ok.inj h
    exact ⟨⟨Calm.refl s, Or.inl (RegsSame.refl s), id⟩, fun _ _ => ⟨rfl, rfl⟩, RegsSame.refl s⟩

theorem quiet_scalingOut (h : resolveScalingOut cfg locked s = .ok t) : Quiet cfg s t := by
  rw [resolveScalingOut] at h
  split_ifs at h with hclean
  · obtain ⟨hscaled, hvalue, hvalid, hdirty, hregs⟩ := setScalingIn_eq_ok h
    refine ⟨⟨fun q hq => hvalue q fun heq => ?_, fun q hq => hvalid q fun heq => ?_,
      hdirty _ (by decide)⟩, Or.inl hregs, fun _ => hscaled⟩
    · exact absurd (heq ▸ hq) (by decide)
    · exact absurd (heq ▸ hq) (by decide)
  · obtain rfl := Except.ok.inj h
    exact ⟨Calm.refl s, Or.inl (RegsSame.refl s), id⟩

theorem forall_resolvers {P : RateResolver → Prop}
    (hinterp : P ⟨[.factor, .scalingIn], [.factor, .sampRateOut, .sampRateIn, .scalingIn],
      resolveInterp cfg⟩)
    (hfreq : P ⟨[.freq], [.freq], fun locked s => s.resolveFreq cfg .sampRateOut locked⟩)
    (hin : P ⟨[.sampRateIn], [.factor, .sampRateOut], resolveIn cfg⟩)
    (hout : P ⟨[.sampRateOut], [.factor, .sampRateIn, .freq], resolveOut cfg⟩)
    (hscaling : P ⟨[.scalingOut], [.scalingIn], resolveScalingOut cfg⟩) :
    ∀ r ∈ resolvers cfg, P r := by
  intro r hr
  rw [resolvers] at hr
  rcases List.mem_cons.mp hr with rfl | hr
  · exact hinterp
  rcases List.mem_cons.mp hr with rfl | hr
  · exact hfreq
  rcases List.mem_cons.mp hr with rfl | hr
  · exact hin
  rcases List.mem_cons.mp hr with rfl | hr
  · exact hout
  · rw [List.mem_singleton.mp hr]
    exact hscaling

theorem quiet_of_run : ∀ r ∈ resolvers cfg, ∀ locked s t, Even cfg s → r.run locked s = .ok t →
    Quiet cfg s t :=
  forall_resolvers (fun _ _ _ hs h => (hs.quiet_interp h).1) (fun _ _ _ _ h => quiet_freq h)
    (fun _ _ _ hs h => (hs.quiet_in h).1) (fun _ _ _ hs h => (hs.quiet_out h).1)
    (fun _ _ _ _ h => quiet_scalingOut h)

end Resolvers

/-! ## The loop -/

section Loop

variable {cfg : Config} {s t : Channel} {fuel : ℕ} {todo processed written : List RateProp}

theorem written_of_loop (hs : Even cfg s) (hdirty : s.dirty .factor = true)
    (hmem : RateProp.factor ∈ todo) (hnot : RateProp.factor ∉ processed)
    (h : DirtyLoop.resolveLoop Channel.dirty (resolvers cfg) fuel todo processed written s
      = some (.ok t)) : Programmed cfg t ∧ TimeRight cfg t ∧ Scaled t := by
  refine DirtyLoop.resolveLoop_reaches (p := .factor)
    (J := fun u => Even cfg u ∧ u.dirty .factor = true)
    (K := fun u => Programmed cfg u ∧ TimeRight cfg u ∧ Scaled u) ?_ ?_ ?_ ⟨hs, hdirty⟩ hmem hnot h
  · rintro r hr locked u v ⟨hu, hmark⟩ hv
    have hquiet := quiet_of_run r hr locked u v hu hv
    exact ⟨hu.of_calm hquiet.calm, hquiet.calm.factor_dirty.trans hmark⟩
  · rintro r hr locked u v ⟨hu, -⟩ ⟨hprogrammed, htime, hscaled⟩ hv
    have hquiet := quiet_of_run r hr locked u v hu hv
    rcases hquiet.regs with hregs | ⟨-, hprogrammed', htime'⟩
    · exact ⟨hprogrammed.of_same hregs hquiet.calm,
        (timeRight_of_same hregs hquiet.calm).mpr htime, hquiet.scaled hscaled⟩
    · exact ⟨hprogrammed', htime', hquiet.scaled hscaled⟩
  · refine ⟨⟨[.factor, .scalingIn], [.factor, .sampRateOut, .sampRateIn, .scalingIn],
      resolveInterp cfg⟩, by simp [resolvers], by simp, ?_⟩
    rintro locked u v ⟨hu, hmark⟩ hv
    obtain ⟨-, hscaled, hwritten⟩ := hu.quiet_interp hv
    obtain ⟨hprogrammed, htime⟩ := hwritten hmark
    exact ⟨hprogrammed, htime, hscaled⟩

theorem quiet_of_loop (hs : Even cfg s)
    (h : DirtyLoop.resolveLoop Channel.dirty (resolvers cfg) fuel todo processed written s
      = some (.ok t)) :
    Even cfg t ∧ Calm s t ∧ (s.dirty .factor = false → RegsSame s t) ∧ (Scaled s → Scaled t) := by
  refine DirtyLoop.resolveLoop_keeps (J := fun u => Even cfg u ∧ Calm s u ∧
    (s.dirty .factor = false → RegsSame s u) ∧ (Scaled s → Scaled u)) ?_
    ⟨hs, Calm.refl s, fun _ => RegsSame.refl s, id⟩ h
  rintro r hr locked u v ⟨hu, hcalm, hregs, hscaled⟩ hv
  have hquiet := quiet_of_run r hr locked u v hu hv
  refine ⟨hu.of_calm hquiet.calm, hcalm.trans hquiet.calm, fun hclean => ?_,
    fun hs' => hquiet.scaled (hscaled hs')⟩
  rcases hquiet.regs with hsame | ⟨hmark, -⟩
  · exact (hregs hclean).trans hsame
  · rw [hcalm.factor_dirty, hclean] at hmark
    cases hmark

theorem right_of_loop (hs : Even cfg s) (hprogrammed : Programmed cfg s) (htime : TimeRight cfg s)
    (h : DirtyLoop.resolveLoop Channel.dirty (resolvers cfg) fuel todo processed written s
      = some (.ok t)) : Programmed cfg t ∧ TimeRight cfg t := by
  have hend := DirtyLoop.resolveLoop_keeps
    (J := fun u => Even cfg u ∧ Programmed cfg u ∧ TimeRight cfg u) ?_ ⟨hs, hprogrammed, htime⟩ h
  · exact hend.2
  · rintro r hr locked u v ⟨hu, hprogrammed, htime⟩ hv
    have hquiet := quiet_of_run r hr locked u v hu hv
    refine ⟨hu.of_calm hquiet.calm, ?_⟩
    rcases hquiet.regs with hregs | ⟨-, hwritten⟩
    · exact ⟨hprogrammed.of_same hregs hquiet.calm,
        (timeRight_of_same hregs hquiet.calm).mpr htime⟩
    · exact hwritten

theorem scalingsSame_of_loop (hs : Even cfg s) (hclean : s.dirty .factor = false)
    (htodo : ∀ p ∈ todo, p = .sampRateIn ∨ p = .sampRateOut ∨ p = .freq)
    (h : DirtyLoop.resolveLoop Channel.dirty (resolvers cfg) fuel todo processed written s
      = some (.ok t)) : ScalingsSame s t := by
  have hend := DirtyLoop.resolveLoop_confined
    (fun p => p = RateProp.sampRateIn ∨ p = .sampRateOut ∨ p = .freq)
    (J := fun u => Even cfg u ∧ u.dirty .factor = false ∧ ScalingsSame s u) ?_
    ⟨hs, hclean, fun _ _ => ⟨rfl, rfl⟩⟩ htodo h
  · exact hend.2.2
  · refine forall_resolvers ?_ ?_ ?_ ?_ ?_
    · rintro p hp (rfl | rfl | rfl) <;> exact absurd hp (by simp)
    · rintro p hp hallowed locked u v ⟨hu, hmark, hsame⟩ hv
      obtain ⟨-, hvalue, hvalid⟩ := resolveFreq_eq_ok hv
      have hquiet : Quiet cfg u v := quiet_freq hv
      have hcalm := hquiet.calm
      refine ⟨⟨hu.of_calm hcalm, hcalm.factor_dirty.trans hmark, fun q hq => ?_⟩,
        fun q hq _ => Or.inr (Or.inr (List.mem_singleton.mp hq))⟩
      have hne : q ≠ .freq := fun heq => absurd (heq ▸ hq) (by decide)
      rw [hvalue q hne, hvalid q hne]
      exact hsame q hq
    · rintro p hp hallowed locked u v ⟨hu, hmark, hsame⟩ hv
      obtain ⟨hquiet, hscalings, -⟩ := hu.quiet_in hv
      have hmark' := hquiet.calm.factor_dirty.trans hmark
      refine ⟨⟨hu.of_calm hquiet.calm, hmark', fun q hq => ?_⟩, fun q hq hdirty => ?_⟩
      · exact ⟨(hscalings q hq).1.trans (hsame q hq).1, (hscalings q hq).2.trans (hsame q hq).2⟩
      · rcases List.mem_cons.mp hq with rfl | hq
        · rw [hmark'] at hdirty
          cases hdirty
        · exact Or.inr (Or.inl (List.mem_singleton.mp hq))
    · rintro p hp hallowed locked u v ⟨hu, hmark, hsame⟩ hv
      obtain ⟨hquiet, hscalings, -⟩ := hu.quiet_out hv
      have hmark' := hquiet.calm.factor_dirty.trans hmark
      refine ⟨⟨hu.of_calm hquiet.calm, hmark', fun q hq => ?_⟩, fun q hq hdirty => ?_⟩
      · exact ⟨(hscalings q hq).1.trans (hsame q hq).1, (hscalings q hq).2.trans (hsame q hq).2⟩
      · rcases List.mem_cons.mp hq with rfl | hq
        · rw [hmark'] at hdirty
          cases hdirty
        rcases List.mem_cons.mp hq with rfl | hq
        · exact Or.inl rfl
        · exact Or.inr (Or.inr (List.mem_singleton.mp hq))
    · rintro p hp (rfl | rfl | rfl) <;> exact absurd hp (by simp)

end Loop

/-! ## One change -/

/-- **What holds after every change**, and nothing is dirty. -/
structure Reached (cfg : Config) (s : Channel) : Prop where
  even : Even cfg s
  programmed : Programmed cfg s
  clean : ∀ p, s.dirty p = false

section Steps

variable {cfg : Config} {s t u : Channel} {c : Change}

theorem reached_clean (heven : Even cfg t) (hprogrammed : Programmed cfg t) :
    Reached cfg t.clean where
  even := ⟨⟨heven.factor_valid, heven.in_pos, heven.in_zero, heven.out_pos, heven.out_zero⟩,
    heven.both, heven.numeric, heven.balanced⟩
  programmed := by
    obtain ⟨f, hf, hvalue, hregs⟩ := hprogrammed
    exact ⟨f, hf, hvalue, hregs.of_eq rfl rfl⟩
  clean _ := rfl

theorem Reached.factor_eq (h : Reached cfg s) : (s.factor : ℚ) = s.value .factor := by
  obtain ⟨f, -, hvalue⟩ := h.even.numeric
  rw [Channel.factor, hvalue, truncInt_natCast]

theorem right_clean_iff (heven : Even cfg t) (hprogrammed : Programmed cfg t) :
    Right cfg s c t.clean ↔ (∀ f : ℕ, t.value .factor = (f : ℚ) → NearestTo cfg s c f) ∧
      TimeRight cfg t ∧ Scaled t := by
  constructor
  · intro h
    obtain ⟨f, -, hvalue, -, hnearest⟩ := h.programmed
    refine ⟨fun g hg => ?_, h.timeRight, h.scaled⟩
    have hfg : (f : ℚ) = g := hvalue.symm.trans hg
    rw [← Nat.cast_injective hfg]
    exact hnearest
  · rintro ⟨hnearest, htime, hscaled⟩
    obtain ⟨f, hf, hvalue, hregs⟩ := hprogrammed
    exact ⟨heven.balanced, ⟨f, hf, hvalue, hregs.of_eq rfl rfl, hnearest f hvalue⟩, htime, hscaled⟩

theorem Reached.dirty_apply (h : Reached cfg s) (c : Change) :
    (c.apply s).dirty c.prop = decide (s.value c.prop ≠ c.value) := by
  rw [Change.apply, (wrote_assign c.prop c.value s).dirty_self, h.clean, Bool.false_or]

theorem Basic.assign_rate (hs : Basic s) {rate : ℚ} (pos : 0 < rate) {p : RateProp}
    (hp : p = .sampRateIn ∨ p = .sampRateOut) : Basic (s.assign p rate) := by
  have hw := wrote_assign p rate s
  have hself : (s.assign p rate).valid p = true := valid_assign_self p rate s
  refine ⟨?_, ?_, ?_, ?_, ?_⟩
  · rw [hw.valid _ (by rcases hp with rfl | rfl <;> decide)]
    exact hs.factor_valid
  all_goals rcases hp with rfl | rfl
  · intro _
    rw [hw.self]
    exact pos
  · rw [hw.valid _ (by decide), hw.value _ (by decide)]
    exact hs.in_pos
  · intro hinvalid
    rw [hself] at hinvalid
    cases hinvalid
  · rw [hw.valid _ (by decide), hw.value _ (by decide)]
    exact hs.in_zero
  · rw [hw.valid _ (by decide), hw.value _ (by decide)]
    exact hs.out_pos
  · intro _
    rw [hw.self]
    exact pos
  · rw [hw.valid _ (by decide), hw.value _ (by decide)]
    exact hs.out_zero
  · intro hinvalid
    rw [hself] at hinvalid
    cases hinvalid

theorem Reached.rate_loop (h : Reached cfg s) {g : ℕ} {fuel : ℕ}
    {added processed written : List RateProp} (hu : Even cfg u) (hfactor : u.value .factor = (g : ℚ))
    (hdirty : u.dirty .factor = decide (s.value .factor ≠ g)) (hscalings : ScalingsSame s u)
    (hregs : RegsSame s u) (hnot : RateProp.factor ∉ processed)
    (hadded : u.dirty .factor = true → RateProp.factor ∈ added)
    (hconfined : ∀ p ∈ added, p = .factor ∧ u.dirty .factor = true ∨
      (p = .sampRateIn ∨ p = .sampRateOut ∨ p = .freq))
    (hloop : DirtyLoop.resolveLoop Channel.dirty (resolvers cfg) fuel added processed written u
      = some (.ok t)) :
    Even cfg t ∧ Programmed cfg t ∧ t.value .factor = (g : ℚ) ∧
      (TimeRight cfg t ∧ Scaled t ↔ s.value .factor ≠ g ∨
        s.regs.timeIncr = some (cfg.timeIncr u.outputRate) ∧ Scaled s) := by
  obtain ⟨heven, hcalm, hkept, -⟩ := quiet_of_loop hu hloop
  have hfactorT : t.value .factor = (g : ℚ) := (hcalm.value _ (by decide)).trans hfactor
  by_cases hne : s.value .factor ≠ g
  · rw [decide_eq_true hne] at hdirty
    obtain ⟨hprogrammed, htime, hscaled⟩ :=
      written_of_loop hu hdirty (hadded hdirty) hnot hloop
    exact ⟨heven, hprogrammed, hfactorT, iff_of_true ⟨htime, hscaled⟩ (Or.inl hne)⟩
  · rw [decide_eq_false hne] at hdirty
    have hsame := hkept hdirty
    have hscalings' := scalingsSame_of_loop hu hdirty (fun p hp => (hconfined p hp).resolve_left
      fun hmark => by
        rw [hdirty] at hmark
        exact Bool.false_ne_true hmark.2) hloop
    rw [not_not] at hne
    obtain ⟨f, hf, hvalue, hregsFor⟩ := h.programmed
    have hprogrammed : Programmed cfg t :=
      ⟨f, hf, by rw [hfactorT, ← hne, hvalue], (hregs.trans hsame).regsFor hregsFor⟩
    refine ⟨heven, hprogrammed, hfactorT, ?_⟩
    rw [timeRight_of_same hsame hcalm, scaled_of_same hscalings' hsame.residual,
      scaled_of_same hscalings hregs.residual, TimeRight, hregs.regs]
    exact ⟨Or.inr, fun hor => hor.resolve_left (not_not_intro hne)⟩

/-- **A change that changes no value.** -/
theorem Reached.of_same (h : Reached cfg s) (hsame : s.value c.prop = c.value) :
    Reached cfg (c.apply s).clean ∧ (Right cfg s c (c.apply s).clean ↔ Followed cfg s c) := by
  have hw := wrote_assign c.prop c.value s
  have hvalue : (c.apply s).value = s.value := by
    show Function.update s.value c.prop c.value = s.value
    rw [← hsame, Function.update_eq_self]
  have hknown : c.prop ∈ rateProps → s.valid c.prop = true := by
    intro hp
    cases c with
    | sampRateIn rate pos =>
      by_contra hinvalid
      exact pos.ne ((h.even.in_zero (Bool.not_eq_true _ ▸ hinvalid)).symm.trans hsame)
    | sampRateOut rate pos =>
      by_contra hinvalid
      exact pos.ne ((h.even.out_zero (Bool.not_eq_true _ ▸ hinvalid)).symm.trans hsame)
    | scalingIn x => exact absurd hp (by simp [Change.prop, rateProps])
    | scalingOut x => exact absurd hp (by simp [Change.prop, rateProps])
    | factor f => exact h.even.factor_valid
  have hcalm : Calm s (c.apply s) := by
    refine ⟨fun q _ => congrFun hvalue q, fun q hq => ?_, ?_⟩
    · by_cases hqp : q = c.prop
      · rw [hqp, hknown (hqp ▸ hq)]
        exact Function.update_self _ _ _
      · exact hw.valid q hqp
    · by_cases hqp : RateProp.factor = c.prop
      · rw [hqp, h.dirty_apply, decide_eq_false (not_not_intro hsame), h.clean]
      · exact hw.dirty _ hqp
  have hregs : RegsSame s (c.apply s) := ⟨rfl, rfl⟩
  have heven := h.even.of_calm hcalm
  have hprogrammed := h.programmed.of_same hregs hcalm
  refine ⟨reached_clean heven hprogrammed, ?_⟩
  rw [right_clean_iff heven hprogrammed, timeRight_of_same hregs hcalm, hvalue, TimeRight]
  obtain ⟨f, hf, hfactor⟩ := h.even.numeric
  have hfactorS : s.factor = f := by
    have hcast : (s.factor : ℚ) = (f : ℚ) := h.factor_eq.trans hfactor
    exact_mod_cast hcast
  have hscaledIff : c.prop ≠ .scalingOut → (Scaled (c.apply s) ↔ Scaled s) := by
    intro hp
    have hvalid : (c.apply s).valid .scalingOut = s.valid .scalingOut := hw.valid _ (Ne.symm hp)
    rw [Scaled, Scaled, hvalue, hvalid, hregs.residual]
  have hcoerced : cfg.coerce (f : ℚ) = .ok (f : ℤ) := Config.coerce_of_mem hf
  have hnearest : ∀ ratio : ℚ, ratio = f → ∀ g : ℕ, s.value .factor = (g : ℚ) →
      cfg.Nearest ratio g := by
    intro ratio hratio g hg
    have hgf : g = f := by
      rw [hg] at hfactor
      exact_mod_cast hfactor
    rw [hratio, hgf]
    refine ⟨hf, fun e he => ?_⟩
    rw [sub_self, abs_zero]
    exact abs_nonneg _
  cases c with
  | sampRateIn rate pos =>
    have hrate : s.value .sampRateIn = rate := hsame
    have hin : s.valid .sampRateIn = true := hknown (by simp [Change.prop, rateProps])
    have hout : s.valid .sampRateOut = true := h.even.both.trans hin
    have hratio : s.value .sampRateOut / rate = f := by rw [← hrate, h.even.ratio hin, hfactor]
    have hinterp : newInterp cfg s (.sampRateIn rate pos) = .ok s.factor := by
      rw [newInterp, if_pos hout, hratio, hcoerced, hfactorS]
    have hnew : newRate s (.sampRateIn rate pos) = s.outputRate := by
      rw [newRate, Channel.outputRate, if_pos hout, h.even.balanced hin hout, hrate]
    rw [Followed, hinterp, hnew, hscaledIff (by simp [Change.prop])]
    · constructor
      · rintro ⟨-, htime, hscaled⟩
        exact ⟨trivial, Or.inr ⟨htime, hscaled⟩⟩
      · rintro ⟨-, hor⟩
        exact ⟨fun g hg _ => hnearest _ hratio g hg, hor.resolve_left (not_not_intro rfl)⟩
    all_goals simp
  | sampRateOut rate pos =>
    have hrate : s.value .sampRateOut = rate := hsame
    have hout : s.valid .sampRateOut = true := hknown (by simp [Change.prop, rateProps])
    have hin : s.valid .sampRateIn = true := h.even.both.symm.trans hout
    have hratio : rate / s.value .sampRateIn = f := by rw [← hrate, h.even.ratio hin, hfactor]
    have hinterp : newInterp cfg s (.sampRateOut rate pos) = .ok s.factor := by
      rw [newInterp, if_pos hin, hratio, truncInt_natCast, hcoerced, hfactorS]
    have hnew : newRate s (.sampRateOut rate pos) = s.outputRate := by
      rw [newRate, Channel.outputRate, if_pos hout, hrate]
    have hmidpoint : PassesNoMidpoint cfg (rate / s.value .sampRateIn) := by
      refine (nearest_iff (f := f) ?_ ?_).mp (hnearest _ hratio f hfactor)
      · exact div_nonneg pos.le (h.even.in_pos hin).le
      · rw [hratio, truncInt_natCast, hcoerced]
    rw [Followed, hinterp, hnew, hscaledIff (by simp [Change.prop])]
    constructor
    · rintro ⟨-, htime, hscaled⟩
      exact ⟨fun _ => hmidpoint, Or.inr ⟨htime, hscaled⟩⟩
    · rintro ⟨-, hor⟩
      exact ⟨fun g hg _ => hnearest _ hratio g hg, hor.resolve_left (not_not_intro rfl)⟩
  | factor x =>
    have hx : s.value .factor = x := hsame
    have hxs : x = s.factor := (RateChanger.factor_eq hx).symm
    rw [Followed, newInterp, newRate, NewScaled, hscaledIff (by simp [Change.prop]), ← hxs]
    · constructor
      · rintro ⟨-, htime, hscaled⟩
        exact ⟨trivial, Or.inr ⟨htime, hscaled⟩⟩
      · rintro ⟨-, hor⟩
        exact ⟨fun _ _ => trivial, hor.resolve_left (not_not_intro rfl)⟩
    all_goals simp
  | scalingIn x =>
    have hx : s.value .scalingIn = x := hsame
    rw [Followed, newInterp, newRate, NewScaled, hscaledIff (by simp [Change.prop])]
    · constructor
      · rintro ⟨-, htime, hscaled⟩
        exact ⟨trivial, Or.inr ⟨htime, fun _ => hscaled⟩⟩
      · rintro ⟨-, hor⟩
        obtain ⟨htime, hscaled⟩ := hor.resolve_left (not_not_intro rfl)
        exact ⟨fun _ _ => trivial, htime, hscaled hx⟩
    all_goals simp
  | scalingOut x =>
    have hx : s.value .scalingOut = x := hsame
    have hscaled : Scaled ((Change.scalingOut x).apply s) ↔
        s.value .scalingIn = x * s.residualScaling := by
      have hvalid : ((Change.scalingOut x).apply s).valid .scalingOut = true :=
        valid_assign_self _ _ _
      rw [Scaled, hvalue, hregs.residual, hx]
      exact ⟨fun hs => hs hvalid, fun hs _ => hs⟩
    rw [Followed, newInterp, newRate, NewScaled, hscaled]
    · constructor
      · rintro ⟨-, htime, hscaled⟩
        exact ⟨trivial, Or.inr ⟨htime, fun _ => hscaled⟩⟩
      · rintro ⟨-, hor⟩
        obtain ⟨htime, hscaled⟩ := hor.resolve_left (not_not_intro rfl)
        exact ⟨fun _ _ => trivial, htime, hscaled hx⟩
    all_goals simp

theorem Reached.rate_iff (h : Reached cfg s) {g : ℕ} (rate : ℚ)
    (hinterp : newInterp cfg s c = .ok g) (hscaled : NewScaled s c ↔ Scaled s)
    (hrate : s.value .factor = (g : ℚ) → newRate s c = rate) :
    (newInterp cfg s c ≠ .ok s.factor ∨
      s.regs.timeIncr = some (cfg.timeIncr (newRate s c)) ∧ NewScaled s c) ↔
      (s.value .factor ≠ g ∨ s.regs.timeIncr = some (cfg.timeIncr rate) ∧ Scaled s) := by
  have hsame : newInterp cfg s c = .ok s.factor ↔ s.value .factor = (g : ℚ) := by
    rw [hinterp, Except.ok.injEq, ← h.factor_eq]
    constructor
    · intro heq
      rw [← heq, Int.cast_natCast]
    · intro heq
      exact_mod_cast heq.symm
  rw [Ne, hsame, hscaled]
  by_cases heq : s.value .factor = (g : ℚ)
  · rw [hrate heq]
  · exact iff_of_true (Or.inl heq) (Or.inl heq)

theorem calm_assign {p : RateProp} {v : ℚ} (hp : p ∉ rateProps) : Calm s (s.assign p v) := by
  have hw := wrote_assign p v s
  refine ⟨fun q hq => hw.value q fun heq => hp (heq ▸ hq),
    fun q hq => hw.valid q fun heq => hp (heq ▸ hq), hw.dirty _ fun heq => hp ?_⟩
  rw [← heq]
  decide

theorem Reached.scaling_loop (h : Reached cfg s) {fuel : ℕ}
    {added processed written : List RateProp}
    (hc : (∃ x, c = .scalingIn x) ∨ ∃ x, c = .scalingOut x) (hne : s.value c.prop ≠ c.value)
    (hcalm : Calm s (c.apply s)) (hquiet : Quiet cfg (c.apply s) u) (hscaled : Scaled u)
    (hloop : DirtyLoop.resolveLoop Channel.dirty (resolvers cfg) fuel added processed written u
      = some (.ok t)) :
    Reached cfg t.clean ∧ (Right cfg s c t.clean ↔ Followed cfg s c) := by
  have hclean : (c.apply s).dirty .factor = false := hcalm.factor_dirty.trans (h.clean _)
  have hcalmU := hcalm.trans hquiet.calm
  have hregsU : RegsSame s u := by
    rcases hquiet.regs with hsame | ⟨hmark, -⟩
    · have hassign : RegsSame s (c.apply s) := ⟨rfl, rfl⟩
      exact hassign.trans hsame
    · rw [hclean] at hmark
      cases hmark
  obtain ⟨hevenT, hcalmT, hkept, hscaledT⟩ := quiet_of_loop (h.even.of_calm hcalmU) hloop
  have hregsT := hregsU.trans (hkept (hquiet.calm.factor_dirty.trans hclean))
  have hcalmS := hcalmU.trans hcalmT
  have hprogrammed := h.programmed.of_same hregsT hcalmS
  refine ⟨reached_clean hevenT hprogrammed, ?_⟩
  rw [right_clean_iff hevenT hprogrammed, timeRight_of_same hregsT hcalmS, TimeRight]
  rcases hc with ⟨x, rfl⟩ | ⟨x, rfl⟩
  · rw [Followed, newInterp, newRate, NewScaled]
    · constructor
      · rintro ⟨-, htime, -⟩
        exact ⟨trivial, Or.inr ⟨htime, fun hx => absurd hx hne⟩⟩
      · rintro ⟨-, hor⟩
        exact ⟨fun _ _ => trivial, (hor.resolve_left (not_not_intro rfl)).1, hscaledT hscaled⟩
    all_goals simp
  · rw [Followed, newInterp, newRate, NewScaled]
    · constructor
      · rintro ⟨-, htime, -⟩
        exact ⟨trivial, Or.inr ⟨htime, fun hx => absurd hx hne⟩⟩
      · rintro ⟨-, hor⟩
        exact ⟨fun _ _ => trivial, (hor.resolve_left (not_not_intro rfl)).1, hscaledT hscaled⟩
    all_goals simp

/-- **One change.**  What holds after every change holds after it, and what is claimed exactly if it
meets the condition. -/
theorem Reached.step (h : Reached cfg s)
    (hstep : RateChanger.step (resolvers cfg) s c = some t) :
    Reached cfg t ∧ (Right cfg s c t ↔ Followed cfg s c) := by
  have hresolve := resolveProps_of_step hstep
  by_cases hsame : s.value c.prop = c.value
  · have hclean := h.dirty_apply c
    rw [decide_eq_false (not_not_intro hsame)] at hclean
    rw [resolveProps_of_clean hclean] at hresolve
    rw [← Except.ok.inj hresolve]
    exact h.of_same hsame
  · have hdirty := h.dirty_apply c
    rw [decide_eq_true hsame] at hdirty
    obtain ⟨fuel, pass, u, hpass, hloop, rfl⟩ := exists_of_resolveProps hdirty hresolve
    have hw := wrote_assign c.prop c.value s
    have hother : ∀ q, q ≠ c.prop → (c.apply s).dirty q = false :=
      fun q hq => (hw.dirty q hq).trans (h.clean q)
    obtain ⟨f, hf, hfactor⟩ := h.even.numeric
    have hfactorS : s.factor = f := by
      have hcast : (s.factor : ℚ) = (f : ℚ) := h.factor_eq.trans hfactor
      exact_mod_cast hcast
    cases c with
    | sampRateIn rate pos =>
      obtain ⟨hrun, hadded⟩ := DirtyLoop.process_only_eq
        [⟨[.factor, .scalingIn], [.factor, .sampRateOut, .sampRateIn, .scalingIn],
          resolveInterp cfg⟩,
          ⟨[.freq], [.freq], fun locked s => s.resolveFreq cfg .sampRateOut locked⟩]
        ⟨[.sampRateIn], [.factor, .sampRateOut], resolveIn cfg⟩
        (by simp [Change.prop]) (by simp [Change.prop]) (by simp [Change.prop]) hpass
      have hvalue : ∀ q, q ≠ .sampRateIn → (s.assign .sampRateIn rate).value q = s.value q :=
        hw.value
      have hvalid : ∀ q, q ≠ .sampRateIn → (s.assign .sampRateIn rate).valid q = s.valid q :=
        hw.valid
      have hself : (s.assign .sampRateIn rate).value .sampRateIn = rate := hw.self
      obtain ⟨g, hg, hfactorU, hevenU, hcoerce, hkeep, -, houtU, -, houtValid, hdirtyU, hscalings,
        hregs⟩ := resolveIn_spec (h.even.toBasic.assign_rate pos (Or.inl rfl))
          ⟨f, hf, (hvalue _ (by decide)).trans hfactor⟩ (valid_assign_self _ _ _) hrun
      rw [hvalid _ (by decide), hvalue _ (by decide), hself] at hcoerce
      rw [hvalid _ (by decide), hvalue _ (by decide)] at hkeep
      rw [hself] at houtU
      have hmark : (s.assign .sampRateIn rate).dirty .factor = false :=
        hother _ (by simp [Change.prop])
      rw [hmark, Bool.false_or, hvalue _ (by decide)] at hdirtyU
      have hrateU : pass.state.outputRate = rate * g := by
        rw [Channel.outputRate, if_pos houtValid, houtU]
      obtain ⟨hevenT, hprogrammed, hfactorT, hiff⟩ := h.rate_loop hevenU hfactorU hdirtyU
        (fun q hq => by
          have hne : q ≠ .sampRateIn := fun heq => absurd (heq ▸ hq) (by decide)
          rw [(hscalings q hq).1, (hscalings q hq).2]
          exact ⟨hvalue q hne, hvalid q hne⟩)
        ((Wrote.regsSame hw).trans hregs) (by simp [Change.prop])
        (fun hmark' => by simp [hadded, hmark'])
        (fun q hq => by
          rw [hadded, List.nil_append, List.mem_filter, Bool.and_eq_true] at hq
          rcases List.mem_cons.mp hq.1 with rfl | hout
          · exact Or.inl ⟨rfl, hq.2.1⟩
          · exact Or.inr (Or.inr (Or.inl (List.mem_singleton.mp hout)))) hloop
      have hinterp : newInterp cfg s (.sampRateIn rate pos) = .ok g := by
        rw [newInterp]
        split_ifs with hout
        · exact hcoerce hout
        · have hfg := hkeep (Bool.not_eq_true _ ▸ hout)
          rw [hfactorS]
          rw [hfactor] at hfg
          have hfg' : f = g := by exact_mod_cast hfg
          rw [hfg']
      refine ⟨reached_clean hevenT hprogrammed, ?_⟩
      rw [right_clean_iff hevenT hprogrammed, hiff, hrateU, Followed,
        h.rate_iff (rate * g) hinterp Iff.rfl (fun heq => by rw [newRate, heq])]
      · refine and_congr_left fun _ => iff_of_true (fun g' hg' hout => ?_) trivial
        have hgg : g' = g := by
          rw [hfactorT] at hg'
          exact_mod_cast hg'.symm
        rw [hgg]
        obtain ⟨e, he, hnearest, -⟩ := Config.coerce_eq_ok (hcoerce hout)
        have heg : e = g := by exact_mod_cast he.symm
        rw [← heg]
        exact hnearest
      · simp
    | sampRateOut rate pos =>
      obtain ⟨hrun, hadded⟩ := DirtyLoop.process_only_eq
        [⟨[.factor, .scalingIn], [.factor, .sampRateOut, .sampRateIn, .scalingIn],
          resolveInterp cfg⟩,
          ⟨[.freq], [.freq], fun locked s => s.resolveFreq cfg .sampRateOut locked⟩,
          ⟨[.sampRateIn], [.factor, .sampRateOut], resolveIn cfg⟩]
        ⟨[.sampRateOut], [.factor, .sampRateIn, .freq], resolveOut cfg⟩
        (by simp [Change.prop]) (by simp [Change.prop]) (by simp [Change.prop]) hpass
      have hvalue : ∀ q, q ≠ .sampRateOut → (s.assign .sampRateOut rate).value q = s.value q :=
        hw.value
      have hvalid : ∀ q, q ≠ .sampRateOut → (s.assign .sampRateOut rate).valid q = s.valid q :=
        hw.valid
      have hself : (s.assign .sampRateOut rate).value .sampRateOut = rate := hw.self
      obtain ⟨g, hg, hfactorU, hevenU, hcoerce, hkeep, houtU, -, -, houtValid, hdirtyU, hscalings,
        hregs⟩ := resolveOut_spec (h.even.toBasic.assign_rate pos (Or.inr rfl))
          ⟨f, hf, (hvalue _ (by decide)).trans hfactor⟩ (valid_assign_self _ _ _) hrun
      rw [hvalid _ (by decide), hself, hvalue _ (by decide)] at hcoerce
      rw [hvalid _ (by decide), hvalue _ (by decide)] at hkeep
      rw [hself] at houtU
      have hmark : (s.assign .sampRateOut rate).dirty .factor = false :=
        hother _ (by simp [Change.prop])
      rw [hmark, Bool.false_or, hvalue _ (by decide)] at hdirtyU
      have hrateU : pass.state.outputRate = rate := by
        rw [Channel.outputRate, if_pos houtValid, houtU]
      obtain ⟨hevenT, hprogrammed, hfactorT, hiff⟩ := h.rate_loop hevenU hfactorU hdirtyU
        (fun q hq => by
          have hne : q ≠ .sampRateOut := fun heq => absurd (heq ▸ hq) (by decide)
          rw [(hscalings q hq).1, (hscalings q hq).2]
          exact ⟨hvalue q hne, hvalid q hne⟩)
        ((Wrote.regsSame hw).trans hregs) (by simp [Change.prop])
        (fun hmark' => by simp [hadded, hmark'])
        (fun q hq => by
          rw [hadded, List.nil_append, List.mem_filter, Bool.and_eq_true] at hq
          rcases List.mem_cons.mp hq.1 with rfl | hrest
          · exact Or.inl ⟨rfl, hq.2.1⟩
          rcases List.mem_cons.mp hrest with rfl | hrest
          · exact Or.inr (Or.inl rfl)
          · exact Or.inr (Or.inr (Or.inr (List.mem_singleton.mp hrest)))) hloop
      have hinterp : newInterp cfg s (.sampRateOut rate pos) = .ok g := by
        rw [newInterp]
        split_ifs with hin
        · exact hcoerce hin
        · have hfg := hkeep (Bool.not_eq_true _ ▸ hin)
          rw [hfactorS]
          rw [hfactor] at hfg
          have hfg' : f = g := by exact_mod_cast hfg
          rw [hfg']
      refine ⟨reached_clean hevenT hprogrammed, ?_⟩
      rw [right_clean_iff hevenT hprogrammed, hiff, hrateU, Followed,
        h.rate_iff rate hinterp Iff.rfl (fun _ => rfl)]
      refine and_congr_left fun _ => ?_
      -- The ratio was rounded down before it was coerced.
      have hround : ∀ hin : s.valid .sampRateIn = true,
          cfg.Nearest (rate / s.value .sampRateIn) g ↔
            PassesNoMidpoint cfg (rate / s.value .sampRateIn) := fun hin =>
        nearest_iff (div_nonneg pos.le (h.even.in_pos hin).le) (hcoerce hin)
      constructor
      · intro hnearest hin
        exact (hround hin).mp (hnearest g hfactorT hin)
      · intro hmidpoint g' hg' hin
        have hgg : g' = g := by
          rw [hfactorT] at hg'
          exact_mod_cast hg'.symm
        rw [hgg]
        exact (hround hin).mpr (hmidpoint hin)
    | factor x =>
      obtain ⟨hrun, -⟩ := DirtyLoop.process_only_eq []
        ⟨[.factor, .scalingIn], [.factor, .sampRateOut, .sampRateIn, .scalingIn],
          resolveInterp cfg⟩
        (by simp [Change.prop]) (fun q hq => absurd hq List.not_mem_nil) (by simp [Change.prop])
        hpass
      have hvalue : ∀ q, q ≠ .factor → (s.assign .factor x).value q = s.value q := hw.value
      have hvalid : ∀ q, q ≠ .factor → (s.assign .factor x).valid q = s.valid q := hw.valid
      have hbasic : Basic (s.assign .factor x) := by
        refine ⟨valid_assign_self _ _ _, ?_, ?_, ?_, ?_⟩
        · rw [hvalid _ (by decide), hvalue _ (by decide)]
          exact h.even.in_pos
        · rw [hvalid _ (by decide), hvalue _ (by decide)]
          exact h.even.in_zero
        · rw [hvalid _ (by decide), hvalue _ (by decide)]
          exact h.even.out_pos
        · rw [hvalid _ (by decide), hvalue _ (by decide)]
          exact h.even.out_zero
      obtain ⟨g, -, hfactorU, hevenU, hscaledU, -, -, -, -, -, hdirtyU, hwritten, -⟩ :=
        resolveInterp_spec hbasic
          (by rw [hvalid _ (by decide), hvalid _ (by decide)]; exact h.even.both) hrun
      have hmark : (s.assign .factor x).dirty .factor = true := hdirty
      rw [hmark, Bool.true_or] at hdirtyU
      obtain ⟨hregsU, htimeU⟩ := hwritten hdirtyU
      obtain ⟨e, he, hfactorE⟩ := hevenU.numeric
      have heg : e = g := by
        rw [hfactorU] at hfactorE
        exact_mod_cast hfactorE.symm
      obtain ⟨hprogrammed, htime⟩ :=
        right_of_loop hevenU ⟨e, he, hfactorE, by rw [heg]; exact hregsU⟩ htimeU hloop
      obtain ⟨hevenT, -, -, hscaled⟩ := quiet_of_loop hevenU hloop
      refine ⟨reached_clean hevenT hprogrammed, ?_⟩
      rw [right_clean_iff hevenT hprogrammed]
      have hchanged : newInterp cfg s (.factor x) ≠ .ok s.factor := by
        intro heq
        have hx : x = s.factor := Except.ok.inj heq
        refine hsame ?_
        show s.value .factor = (x : ℚ)
        rw [hx, h.factor_eq]
      exact iff_of_true ⟨fun _ _ => trivial, htime, hscaled hscaledU⟩
        ⟨trivial, Or.inl hchanged⟩
    | scalingIn x =>
      obtain ⟨hrun, -⟩ := DirtyLoop.process_only_eq []
        ⟨[.factor, .scalingIn], [.factor, .sampRateOut, .sampRateIn, .scalingIn],
          resolveInterp cfg⟩
        (by simp [Change.prop]) (fun q hq => absurd hq List.not_mem_nil) (by simp [Change.prop])
        hpass
      have hcalm : Calm s (s.assign .scalingIn x) := calm_assign (by simp [rateProps])
      obtain ⟨hquiet, hscaledU, -⟩ := (h.even.of_calm hcalm).quiet_interp hrun
      refine h.scaling_loop (Or.inl ⟨x, rfl⟩) hsame hcalm hquiet hscaledU hloop
    | scalingOut x =>
      obtain ⟨hrun, -⟩ := DirtyLoop.process_only_eq
        [⟨[.factor, .scalingIn], [.factor, .sampRateOut, .sampRateIn, .scalingIn],
          resolveInterp cfg⟩,
          ⟨[.freq], [.freq], fun locked s => s.resolveFreq cfg .sampRateOut locked⟩,
          ⟨[.sampRateIn], [.factor, .sampRateOut], resolveIn cfg⟩,
          ⟨[.sampRateOut], [.factor, .sampRateIn, .freq], resolveOut cfg⟩]
        ⟨[.scalingOut], [.scalingIn], resolveScalingOut cfg⟩
        (by simp [Change.prop]) (by simp [Change.prop]) (fun q hq => absurd hq List.not_mem_nil)
        hpass
      have hcalm : Calm s (s.assign .scalingOut x) :=
        calm_assign (by simp [rateProps])
      have hscaledU : Scaled pass.state := by
        have hrates : ∀ q, q ≠ .scalingOut → (s.assign .scalingOut x).dirty q = false :=
          fun q hq => hother q (by simpa [Change.prop] using hq)
        have hrun' : resolveScalingOut cfg _ (s.assign .scalingOut x) = .ok pass.state := hrun
        rw [resolveScalingOut, hrates _ (by decide), hrates _ (by decide), hrates _ (by decide),
          if_pos (by decide)] at hrun'
        exact (setScalingIn_eq_ok hrun').1
      exact h.scaling_loop (Or.inr ⟨x, rfl⟩) hsame hcalm (quiet_scalingOut hrun) hscaledU hloop

theorem reached_of_initProps (h : initProps (resolvers cfg) Channel.fresh = .ok s) :
    Reached cfg s := by
  rw [resolvers] at h
  obtain ⟨s₁, hrun₁, h⟩ := bind_eq_ok.mp h
  obtain ⟨s₂, hrun₂, h⟩ := bind_eq_ok.mp h
  obtain ⟨s₃, hrun₃, h⟩ := bind_eq_ok.mp h
  obtain ⟨s₄, hrun₄, h⟩ := bind_eq_ok.mp h
  obtain ⟨s₅, hrun₅, h⟩ := bind_eq_ok.mp h
  rw [← Except.ok.inj h]
  have hin : Channel.fresh.valid .sampRateIn = false := rfl
  have hout : Channel.fresh.valid .sampRateOut = false := rfl
  have hbasic : Basic Channel.fresh := by
    refine ⟨rfl, fun hvalid => ?_, fun _ => rfl, fun hvalid => ?_, fun _ => rfl⟩
    · rw [hin] at hvalid
      cases hvalid
    · rw [hout] at hvalid
      cases hvalid
  obtain ⟨g, -, hfactor, heven₁, -, -, -, -, -, -, hdirty₁, hwritten₁, -⟩ :=
    resolveInterp_spec hbasic (hout.trans hin.symm) hrun₁
  have hmark : s₁.dirty .factor = true := hdirty₁.trans rfl
  obtain ⟨hregs₁, htime₁⟩ := hwritten₁ hmark
  obtain ⟨f, hf, hfactor₁⟩ := heven₁.numeric
  have hfg : f = g := by
    rw [hfactor] at hfactor₁
    exact_mod_cast hfactor₁.symm
  have hprogrammed₁ : Programmed cfg s₁ := ⟨f, hf, hfactor₁, by rw [hfg]; exact hregs₁⟩
  have hquiet₂ : Quiet cfg _ _ := quiet_freq hrun₂
  have heven₂ := heven₁.of_calm hquiet₂.calm
  have hquiet₃ := (heven₂.quiet_in hrun₃).1
  have heven₃ := heven₂.of_calm hquiet₃.calm
  have hquiet₄ := (heven₃.quiet_out hrun₄).1
  have heven₄ := heven₃.of_calm hquiet₄.calm
  have hquiet₅ : Quiet cfg _ _ := quiet_scalingOut hrun₅
  exact reached_clean (heven₄.of_calm hquiet₅.calm)
    (hquiet₅.programmed (hquiet₄.programmed (hquiet₃.programmed (hquiet₂.programmed hprogrammed₁))))

end Steps

/-- A change is followed: if its resolution succeeds, what is claimed holds then. -/
def RightAfter (cfg : Config) (s : Channel) (c : Change) : Prop :=
  ∀ t, step (resolvers cfg) s c = some t → Right cfg s c t

/-! ## A run, and one that goes wrong -/

theorem smallBlock_cicMaxInterp_pos : 0 < 4 := by decide

theorem smallBlock_cicMaxInterp_le : 4 ≤ 0xff := by decide

theorem smallBlock_rate_pos : (0 : ℚ) < 200 := by decide

theorem quarter_rate_pos : (0 : ℚ) < 50 := by decide

/-- A legacy block with one halfband, and a CIC that interpolates by four at most. -/
def smallBlock : Block :=
  ⟨false, 1, 4, 4000, smallBlock_cicMaxInterp_pos, smallBlock_cicMaxInterp_le⟩

/-- A channel of it after some changes, if all resolutions succeed. -/
def afterChanges (changes : List Change) : Option (Channel × Channel) :=
  (initProps (resolvers (smallBlock.config 0)) Channel.fresh).toOption.bind fun s =>
    (Transition.run (step (resolvers (smallBlock.config 0))) s changes).map fun t => (s, t)

theorem exists_of_afterChanges {changes : List Change} {q : Channel × Channel}
    (h : afterChanges changes = some q) :
    initProps (resolvers (smallBlock.config 0)) Channel.fresh = .ok q.1 ∧
      Transition.run (step (resolvers (smallBlock.config 0))) q.1 changes = some q.2 := by
  rw [afterChanges] at h
  obtain ⟨s, hs, h⟩ := Option.bind_eq_some_iff.mp h
  obtain ⟨t, ht, rfl⟩ := Option.map_eq_some_iff.mp h
  cases hinit : initProps (resolvers (smallBlock.config 0)) Channel.fresh with
  | error e =>
    rw [hinit] at hs
    cases hs
  | ok u =>
    rw [hinit] at hs
    rw [Option.some.inj hs]
    exact ⟨rfl, ht⟩

/-- An output rate, an interpolation, and an input rate that the interpolation changes for. -/
def adaptedChanges : List Change :=
  [.sampRateOut 200 smallBlock_rate_pos, .factor 2, .sampRateIn 50 quarter_rate_pos]

/-- An output rate, an interpolation, and an input rate that is nearest to the same one. -/
def staleChanges : List Change := [.sampRateOut 200 smallBlock_rate_pos, .factor 2]

end Duc
end Rfnoc
end UhdHost
