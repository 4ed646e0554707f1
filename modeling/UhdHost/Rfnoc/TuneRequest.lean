import Mathlib
import UhdHost.Rfnoc.Property
import UhdHost.Types.Ranges

/-!
# Tuning by actions

A tune request is handled in two ways.  `tune_xx_subdev_and_dsp` of `multi_usrp.cpp` does it in one
procedure.  In a graph of blocks it is an action: the streamer posts it to the DDC (or to the DUC for
transmission), which adds the range of its DSP and passes it on to the radio; the radio tunes its
front end and sends the action back; and the DDC or DUC tunes its DSP.

Frequencies are rational numbers.  What the front end and the DSP make of a frequency that they are
asked for is arbitrary (`tuneTo`), and the same in both ways.

`agrees_iff` says when the two ways agree for a request that leaves everything to the automatic
policy: if there is no LO offset, and the front end does not settle below the frequency that was
asked for.

## What is left out

The arguments of a request are handed to the front end as they are.  A request with a manual RF
frequency also sets the LO offset of a front end that has one.
-/

namespace UhdHost
namespace Rfnoc

/-! ## Requests and results -/

/-- `tune_request_t::policy_t` -/
inductive TunePolicy where
  | none
  | auto
  | manual
  deriving DecidableEq, Repr

/-- `tune_request_t` -/
structure TuneRequest where
  targetFreq : ℚ
  rfFreqPolicy : TunePolicy := .auto
  rfFreq : ℚ := 0
  dspFreqPolicy : TunePolicy := .auto
  dspFreq : ℚ := 0
  deriving DecidableEq

/-- `tune_result_t` -/
structure TuneResult where
  clippedRfFreq : ℚ := 0
  targetRfFreq : ℚ := 0
  actualRfFreq : ℚ := 0
  targetDspFreq : ℚ := 0
  actualDspFreq : ℚ := 0
  deriving DecidableEq

/-- `tune_request_action_info` -/
structure TuneRequestAction where
  tuneRequest : TuneRequest
  tuneResult : TuneResult := {}
  dspRange : MetaRange := []
  rfRange : MetaRange := []
  overallFreqRange : MetaRange := []

/-- A front end: the part of the radio that a channel uses. -/
structure FrontEnd where
  freqRange : MetaRange
  bandwidth : ℚ
  /-- The frequency that it settles at when it is asked for one. -/
  tuneTo : ℚ → ℚ
  /-- The frequency that it is at. -/
  freq : ℚ
  /-- `use_lo_offset` -/
  useLoOffset : Bool := false
  /-- `lo_offset/value` -/
  loOffset : Option ℚ := none

/-- A DSP: the part of the DDC or the DUC that a channel uses. -/
structure Dsp where
  /-- `get_frequency_range` -/
  freqRange : MetaRange
  rate : ℚ
  /-- The frequency that it settles at when it is asked for one. -/
  tuneTo : ℚ → ℚ
  /-- The frequency that it is at. -/
  freq : ℚ

/-- What a DSP was asked for, if anything, and what is reported. -/
structure Tuned where
  programmed : Option ℚ
  tuneResult : TuneResult
  deriving DecidableEq

/-- The frequency that a DSP is at after it was programmed. -/
def Dsp.settle (dsp : Dsp) (programmed : Option ℚ) : ℚ :=
  match programmed with
  | some freq => dsp.tuneTo freq
  | none => dsp.freq

/-! ## The range of the system -/

/-- The loop of `make_overall_tune_range`. -/
def overallRanges (dspStart dspStop dspStep bw : ℚ) : MetaRange → Except UhdError MetaRange
  | [] => .ok []
  | subRange :: rest =>
    match Range.make (max 0 (subRange.start + max dspStart (-bw / 2)))
      (subRange.stop + min dspStop (bw / 2)) dspStep with
    | .error e => .error e
    | .ok range =>
      match overallRanges dspStart dspStop dspStep bw rest with
      | .error e => .error e
      | .ok ranges => .ok (range :: ranges)

/-- `make_overall_tune_range`.  Nothing is asked of the range of the DSP if there is nothing to
combine it with. -/
def makeOverallTuneRange (feRange dspRange : MetaRange) (bw : ℚ) : Except UhdError MetaRange :=
  if feRange = [] then .ok []
  else
    match MetaRange.start dspRange with
    | .error e => .error e
    | .ok dspStart =>
      match MetaRange.stop dspRange with
      | .error e => .error e
      | .ok dspStop =>
        match MetaRange.step dspRange with
        | .error e => .error e
        | .ok dspStep => overallRanges dspStart dspStop dspStep bw feRange

/-! ## The direct computation -/

/-- Whether to receive or to transmit. -/
inductive TuneDirection where
  | rx
  | tx
  deriving DecidableEq, Repr

/-- `RX_SIGN` and `TX_SIGN` -/
def TuneDirection.sign : TuneDirection → ℚ
  | .rx => 1
  | .tx => -1

/-- The LO offset that the front end requires. -/
def requiredLoOffset (fe : FrontEnd) (dsp : Dsp) : ℚ :=
  if fe.useLoOffset then
    if dsp.rate < fe.bandwidth then min ((fe.bandwidth - dsp.rate) / 2) (dsp.rate / 2)
    else fe.loOffset.getD 0
  else 0

/-- The target of the DSP, from what the automatic policy wants. -/
def targetDspFreq (dspRange : MetaRange) (request : TuneRequest) (autoFreq : ℚ) :
    Except UhdError ℚ :=
  match request.dspFreqPolicy with
  | .auto => .ok autoFreq
  | .manual => MetaRange.clip dspRange request.dspFreq
  | .none => .ok 0

/-- What is asked for under a policy: nothing, or the target. -/
def TunePolicy.asksFor (policy : TunePolicy) (freq : ℚ) : Option ℚ :=
  match policy with
  | .none => Option.none
  | .auto => some freq
  | .manual => some freq

/-- `tune_xx_subdev_and_dsp` -/
def tuneXxSubdevAndDsp (xxSign : ℚ) (dsp : Dsp) (fe : FrontEnd) (request : TuneRequest) :
    Except UhdError Tuned := do
  let tuneRange ← makeOverallTuneRange fe.freqRange dsp.freqRange fe.bandwidth
  let clippedRequestedFreq ← MetaRange.clip tuneRange request.targetFreq
  let targetRfFreq ← match request.rfFreqPolicy with
    | .auto => pure (clippedRequestedFreq + requiredLoOffset fe dsp)
    | .manual => MetaRange.clip fe.freqRange request.rfFreq
    | .none => pure 0
  let actualRfFreq := if request.rfFreqPolicy = .none then fe.freq else fe.tuneTo targetRfFreq
  let target ← targetDspFreq dsp.freqRange request
    ((actualRfFreq - clippedRequestedFreq) * xxSign)
  let programmed := request.dspFreqPolicy.asksFor target
  pure
    { programmed := programmed
      tuneResult :=
        { clippedRfFreq := clippedRequestedFreq
          targetRfFreq := targetRfFreq
          actualRfFreq := actualRfFreq
          targetDspFreq := target
          actualDspFreq := dsp.settle programmed } }

/-! ## The radio -/

/-- `apply_and_update_tune_request` -/
def applyAndUpdateTuneRequest (fe : FrontEnd) (action : TuneRequestAction) :
    Except UhdError TuneRequestAction := do
  let request := action.tuneRequest
  let clippedRequestedFreq ← MetaRange.clip action.overallFreqRange request.targetFreq
  let targetRfFreq ← match request.rfFreqPolicy with
    | .auto => pure clippedRequestedFreq
    | .manual =>
      if request.dspFreqPolicy = .auto ∧ action.dspRange.length = 1 ∧
          MetaRange.stop action.dspRange = .ok 0 then
        -- the hardware has no DSP
        pure clippedRequestedFreq
      else MetaRange.clip action.rfRange request.rfFreq
    | .none => pure 0
  let actualRfFreq := if request.rfFreqPolicy = .none then fe.freq else fe.tuneTo targetRfFreq
  pure
    { action with
      tuneResult :=
        { action.tuneResult with
          clippedRfFreq := clippedRequestedFreq
          targetRfFreq := targetRfFreq
          actualRfFreq := actualRfFreq } }

/-- `_tune_request_action_handler` of the radio, with the front end of the edge that the action
came from.  What it posts goes back there. -/
def radioTuneRequestActionHandler (fe : FrontEnd) (action : TuneRequestAction) :
    Except UhdError TuneRequestAction := do
  let tuneRangeNonmono ←
    if action.dspRange = [] then pure fe.freqRange
    else makeOverallTuneRange fe.freqRange action.dspRange fe.bandwidth
  let overallFreqRange ← MetaRange.asMonotonic tuneRangeNonmono
  applyAndUpdateTuneRequest fe
    { action with overallFreqRange := overallFreqRange, rfRange := fe.freqRange }

/-! ## The DDC and the DUC -/

/-- The action that a DDC or DUC posts to its other side.  The range of the front end is not
copied. -/
def TuneRequestAction.copy (action : TuneRequestAction) : TuneRequestAction :=
  { action with rfRange := [] }

/-- The range of which the DDC and the DUC take the target. -/
def TuneRequestAction.tuneRange (action : TuneRequestAction) (dsp : Dsp) : MetaRange :=
  if action.overallFreqRange = [] then dsp.freqRange else action.overallFreqRange

/-- `issue_tune_request_action_handler` of the DDC: what its DSP is asked for, and the action that
it posts. -/
def ddcTuneRequestActionHandler (dsp : Dsp) (srcType : SourceType) (action : TuneRequestAction) :
    Except UhdError (Option ℚ × TuneRequestAction) :=
  let request := action.tuneRequest
  let action := { action with dspRange := dsp.freqRange }
  if srcType = .inputEdge then do
    let clippedRequestedFreq ← MetaRange.clip (action.tuneRange dsp) request.targetFreq
    let result := { action.tuneResult with
      targetDspFreq := |action.tuneResult.actualRfFreq - clippedRequestedFreq| }
    let target ← targetDspFreq dsp.freqRange request (result.targetDspFreq - result.actualDspFreq)
    let programmed := request.dspFreqPolicy.asksFor target
    let result := { result with actualDspFreq := result.actualDspFreq + dsp.settle programmed }
    pure (programmed, ({ action with tuneResult := result } : TuneRequestAction).copy)
  else pure (none, action.copy)

/-- `TX_SIGN` is applied by the automatic policy only. -/
def ducTargetDspFreq (request : TuneRequest) (freq : ℚ) : ℚ :=
  if request.dspFreqPolicy = .auto then freq * TuneDirection.tx.sign else freq

/-- `issue_tune_request_action_handler` of the DUC: what its DSP is asked for, and the action that
it posts. -/
def ducTuneRequestActionHandler (dsp : Dsp) (srcType : SourceType) (action : TuneRequestAction) :
    Except UhdError (Option ℚ × TuneRequestAction) :=
  let request := action.tuneRequest
  let action := { action with dspRange := dsp.freqRange }
  if srcType = .outputEdge then do
    let clippedRequestedFreq ← MetaRange.clip (action.tuneRange dsp) request.targetFreq
    let result := { action.tuneResult with
      targetDspFreq := ducTargetDspFreq request
        |action.tuneResult.actualRfFreq - clippedRequestedFreq| }
    let target ← targetDspFreq dsp.freqRange request (result.targetDspFreq - result.actualDspFreq)
    let programmed := request.dspFreqPolicy.asksFor target
    let result := { result with
      targetDspFreq := target
      actualDspFreq := result.actualDspFreq + dsp.settle programmed }
    pure (programmed, ({ action with tuneResult := result } : TuneRequestAction).copy)
  else pure (none, action.copy)

/-- A tune request on its way: from the streamer to the DSP, to the radio and back. -/
def tuneByActions (direction : TuneDirection) (dsp : Dsp) (fe : FrontEnd)
    (request : TuneRequest) : Except UhdError Tuned := do
  let action : TuneRequestAction := { tuneRequest := request }
  match direction with
  | .rx =>
    let (_, posted) ← ddcTuneRequestActionHandler dsp .outputEdge action
    let returned ← radioTuneRequestActionHandler fe posted
    let (programmed, reported) ← ddcTuneRequestActionHandler dsp .inputEdge returned
    pure ⟨programmed, reported.tuneResult⟩
  | .tx =>
    let (_, posted) ← ducTuneRequestActionHandler dsp .inputEdge action
    let returned ← radioTuneRequestActionHandler fe posted
    let (programmed, reported) ← ducTuneRequestActionHandler dsp .outputEdge returned
    pure ⟨programmed, reported.tuneResult⟩

/-! ## The two ways side by side -/

/-- A request that leaves everything to the automatic policy. -/
def TuneRequest.IsAuto (request : TuneRequest) : Prop :=
  request.rfFreqPolicy = .auto ∧ request.dspFreqPolicy = .auto

/-- **The two ways agree.**  If the direct computation succeeds, the actions program the same signed
frequency and report the same; and with it the frequency of the front end is the target, clipped to
the range of the system. -/
def TuneAgrees (direction : TuneDirection) (dsp : Dsp) (fe : FrontEnd) (request : TuneRequest) :
    Prop :=
  ∀ tuned, tuneXxSubdevAndDsp direction.sign dsp fe request = .ok tuned →
    tuneByActions direction dsp fe request = .ok tuned ∧
      ∃ freq, tuned.programmed = some freq ∧
        ∀ range, makeOverallTuneRange fe.freqRange dsp.freqRange fe.bandwidth = .ok range →
          MetaRange.clip range request.targetFreq =
            .ok (tuned.tuneResult.actualRfFreq - direction.sign * freq)

section

variable {direction : TuneDirection} {dsp : Dsp} {fe : FrontEnd} {request : TuneRequest}
  {range : MetaRange} {c : ℚ}

theorem tuneXxSubdevAndDsp_auto (hauto : request.IsAuto)
    (hrange : makeOverallTuneRange fe.freqRange dsp.freqRange fe.bandwidth = .ok range)
    (hclip : MetaRange.clip range request.targetFreq = .ok c) (xxSign : ℚ) :
    tuneXxSubdevAndDsp xxSign dsp fe request =
      .ok
        { programmed := some ((fe.tuneTo (c + requiredLoOffset fe dsp) - c) * xxSign)
          tuneResult :=
            { clippedRfFreq := c
              targetRfFreq := c + requiredLoOffset fe dsp
              actualRfFreq := fe.tuneTo (c + requiredLoOffset fe dsp)
              targetDspFreq := (fe.tuneTo (c + requiredLoOffset fe dsp) - c) * xxSign
              actualDspFreq :=
                dsp.tuneTo ((fe.tuneTo (c + requiredLoOffset fe dsp) - c) * xxSign) } } := by
  obtain ⟨hrf, hdsp⟩ := hauto
  simp only [tuneXxSubdevAndDsp, hrange, hclip, hrf, targetDspFreq, hdsp, TunePolicy.asksFor,
    Dsp.settle, bind, Except.bind, pure, Except.pure]
  rfl

theorem exists_clip_of_direct {tuned : Tuned}
    (h : tuneXxSubdevAndDsp direction.sign dsp fe request = .ok tuned) :
    ∃ range c, makeOverallTuneRange fe.freqRange dsp.freqRange fe.bandwidth = .ok range ∧
      MetaRange.clip range request.targetFreq = .ok c := by
  rw [tuneXxSubdevAndDsp] at h
  cases hrange : makeOverallTuneRange fe.freqRange dsp.freqRange fe.bandwidth with
  | error e =>
    rw [hrange] at h
    cases h
  | ok range =>
    cases hclip : MetaRange.clip range request.targetFreq with
    | error e =>
      rw [hrange] at h
      simp only [bind, Except.bind, hclip] at h
      cases h
    | ok c => exact ⟨range, c, rfl, hclip⟩

theorem dspRange_ne_nil (hrange : makeOverallTuneRange fe.freqRange dsp.freqRange fe.bandwidth =
    .ok range) (hclip : MetaRange.clip range request.targetFreq = .ok c) : dsp.freqRange ≠ [] := by
  intro hempty
  rw [makeOverallTuneRange, hempty] at hrange
  split_ifs at hrange
  · obtain rfl := Except.ok.inj hrange
    cases hclip
  · cases hrange

theorem radioTuneRequestActionHandler_auto (hauto : request.IsAuto)
    (hrange : makeOverallTuneRange fe.freqRange dsp.freqRange fe.bandwidth = .ok range)
    (hclip : MetaRange.clip range request.targetFreq = .ok c) :
    radioTuneRequestActionHandler fe { tuneRequest := request, dspRange := dsp.freqRange } =
      .ok
        { tuneRequest := request
          dspRange := dsp.freqRange
          rfRange := fe.freqRange
          overallFreqRange := range
          tuneResult :=
            { clippedRfFreq := c, targetRfFreq := c, actualRfFreq := fe.tuneTo c } } := by
  have hmono := MetaRange.asMonotonic_of_check (MetaRange.check_of_clip hclip)
  have hne := dspRange_ne_nil hrange hclip
  simp only [radioTuneRequestActionHandler, applyAndUpdateTuneRequest, if_neg hne, hrange, hmono,
    hclip, hauto.1, bind, Except.bind, pure, Except.pure]
  rfl

/-- The action that comes back from the radio. -/
def returnedAction (dsp : Dsp) (fe : FrontEnd) (request : TuneRequest) (range : MetaRange) (c : ℚ) :
    TuneRequestAction where
  tuneRequest := request
  dspRange := dsp.freqRange
  rfRange := fe.freqRange
  overallFreqRange := range
  tuneResult := { clippedRfFreq := c, targetRfFreq := c, actualRfFreq := fe.tuneTo c }

/-- The action that the streamer gets in the end. -/
def reportedAction (dsp : Dsp) (fe : FrontEnd) (request : TuneRequest) (range : MetaRange)
    (c freq : ℚ) : TuneRequestAction where
  tuneRequest := request
  dspRange := dsp.freqRange
  overallFreqRange := range
  tuneResult :=
    { clippedRfFreq := c
      targetRfFreq := c
      actualRfFreq := fe.tuneTo c
      targetDspFreq := freq
      actualDspFreq := dsp.tuneTo freq }

theorem ddcTuneRequestActionHandler_auto (hauto : request.IsAuto) (hne : range ≠ [])
    (hclip : MetaRange.clip range request.targetFreq = .ok c) :
    ddcTuneRequestActionHandler dsp .inputEdge (returnedAction dsp fe request range c) =
      .ok (some |fe.tuneTo c - c|, reportedAction dsp fe request range c |fe.tuneTo c - c|) := by
  simp only [ddcTuneRequestActionHandler, returnedAction, TuneRequestAction.tuneRange, hne, if_false,
    hclip, targetDspFreq, hauto.2, TunePolicy.asksFor, Dsp.settle, TuneRequestAction.copy,
    reportedAction, bind, Except.bind, pure, Except.pure, if_pos, sub_zero, zero_add]

theorem ducTuneRequestActionHandler_auto (hauto : request.IsAuto) (hne : range ≠ [])
    (hclip : MetaRange.clip range request.targetFreq = .ok c) :
    ducTuneRequestActionHandler dsp .outputEdge (returnedAction dsp fe request range c) =
      .ok (some (|fe.tuneTo c - c| * TuneDirection.tx.sign),
        reportedAction dsp fe request range c (|fe.tuneTo c - c| * TuneDirection.tx.sign)) := by
  simp only [ducTuneRequestActionHandler, ducTargetDspFreq, returnedAction,
    TuneRequestAction.tuneRange, hne, if_false, hclip, targetDspFreq, hauto.2, TunePolicy.asksFor,
    Dsp.settle, TuneRequestAction.copy, reportedAction, bind, Except.bind, pure, Except.pure,
    if_pos, sub_zero, zero_add]

theorem tuneByActions_auto (hauto : request.IsAuto)
    (hrange : makeOverallTuneRange fe.freqRange dsp.freqRange fe.bandwidth = .ok range)
    (hclip : MetaRange.clip range request.targetFreq = .ok c) :
    tuneByActions direction dsp fe request =
      .ok
        { programmed := some (|fe.tuneTo c - c| * direction.sign)
          tuneResult :=
            { clippedRfFreq := c
              targetRfFreq := c
              actualRfFreq := fe.tuneTo c
              targetDspFreq := |fe.tuneTo c - c| * direction.sign
              actualDspFreq := dsp.tuneTo (|fe.tuneTo c - c| * direction.sign) } } := by
  have hradio : radioTuneRequestActionHandler fe
      { tuneRequest := request, dspRange := dsp.freqRange } =
        .ok (returnedAction dsp fe request range c) :=
    radioTuneRequestActionHandler_auto hauto hrange hclip
  have hne : range ≠ [] := (MetaRange.checkMonotonic_eq_ok.mp (MetaRange.check_of_clip hclip)).1
  cases direction with
  | rx =>
    have hfirst : ddcTuneRequestActionHandler dsp .outputEdge { tuneRequest := request } =
        .ok (none, { tuneRequest := request, dspRange := dsp.freqRange }) := rfl
    simp only [tuneByActions, hfirst, hradio, ddcTuneRequestActionHandler_auto hauto hne hclip,
      bind, Except.bind, pure, Except.pure, TuneDirection.sign, mul_one]
    rfl
  | tx =>
    have hfirst : ducTuneRequestActionHandler dsp .inputEdge { tuneRequest := request } =
        .ok (none, { tuneRequest := request, dspRange := dsp.freqRange }) := rfl
    simp only [tuneByActions, hfirst, hradio, ducTuneRequestActionHandler_auto hauto hne hclip,
      bind, Except.bind, pure, Except.pure]
    rfl

theorem abs_mul_sign_eq_iff {x : ℚ} : |x| * direction.sign = x * direction.sign ↔ 0 ≤ x := by
  rw [← abs_eq_self]
  cases direction with
  | rx => rw [TuneDirection.sign, mul_one, mul_one]
  | tx => rw [TuneDirection.sign, mul_neg, mul_neg, mul_one, mul_one, neg_inj]

/-- **When the two ways agree**: the front end requires no LO offset, and does not settle below the
frequency that it is asked for. -/
theorem tuneAgrees_iff (direction : TuneDirection) (dsp : Dsp) (fe : FrontEnd)
    (request : TuneRequest) (hauto : request.IsAuto) :
    TuneAgrees direction dsp fe request ↔
      ∀ range c, makeOverallTuneRange fe.freqRange dsp.freqRange fe.bandwidth = .ok range →
        MetaRange.clip range request.targetFreq = .ok c →
          requiredLoOffset fe dsp = 0 ∧ c ≤ fe.tuneTo c := by
  constructor
  · intro h range c hrange hclip
    obtain ⟨hactions, -⟩ := h _ (tuneXxSubdevAndDsp_auto hauto hrange hclip direction.sign)
    rw [tuneByActions_auto hauto hrange hclip] at hactions
    obtain ⟨-, hresult⟩ := Tuned.mk.inj (Except.ok.inj hactions)
    obtain ⟨-, htarget, -, hdsp, -⟩ := TuneResult.mk.inj hresult
    have hzero : requiredLoOffset fe dsp = 0 := left_eq_add.mp htarget
    rw [hzero, add_zero] at hdsp
    exact ⟨hzero, sub_nonneg.mp (abs_mul_sign_eq_iff.mp hdsp)⟩
  · intro h tuned htuned
    obtain ⟨range, c, hrange, hclip⟩ := exists_clip_of_direct htuned
    obtain ⟨hzero, hle⟩ := h range c hrange hclip
    have hdirect := tuneXxSubdevAndDsp_auto hauto hrange hclip direction.sign
    rw [hzero, add_zero] at hdirect
    obtain rfl := Except.ok.inj (htuned.symm.trans hdirect)
    constructor
    · rw [tuneByActions_auto hauto hrange hclip, abs_mul_sign_eq_iff.mpr (sub_nonneg.mpr hle)]
    · refine ⟨_, rfl, fun range' hrange' => ?_⟩
      obtain rfl := Except.ok.inj (hrange.symm.trans hrange')
      have hcancel : fe.tuneTo c - direction.sign * ((fe.tuneTo c - c) * direction.sign) = c := by
        cases direction <;> rw [TuneDirection.sign] <;> ring
      rw [hclip]
      exact congrArg Except.ok hcancel.symm

end

/-! ## Front ends that miss their target -/

/-- A front end from 50 MHz to 6 GHz that settles off by some frequency. -/
def frontEndOff (offset : ℚ) : FrontEnd where
  freqRange := [⟨50000000, 6000000000, 0, by norm_num⟩]
  bandwidth := 56000000
  tuneTo freq := freq + offset
  freq := 100000000

/-- A DSP with a rate of 50 MHz that hits every frequency. -/
def exactDsp : Dsp where
  freqRange := [⟨-25000000, 25000000, 0, by norm_num⟩]
  rate := 50000000
  tuneTo freq := freq
  freq := 0

/-- A front end that settles 1 kHz above the target. -/
theorem tuneAgrees_above :
    TuneAgrees .rx exactDsp (frontEndOff 1000) ⟨100000000, .auto, 0, .auto, 0⟩ ∧
      TuneAgrees .tx exactDsp (frontEndOff 1000) ⟨100000000, .auto, 0, .auto, 0⟩ := by
  have habove : ∀ c : ℚ, requiredLoOffset (frontEndOff 1000) exactDsp = 0 ∧
      c ≤ (frontEndOff 1000).tuneTo c := by
    intro c
    refine ⟨rfl, ?_⟩
    rw [frontEndOff]
    linarith
  exact ⟨(tuneAgrees_iff .rx _ _ _ ⟨rfl, rfl⟩).mpr fun _ c _ _ => habove c,
    (tuneAgrees_iff .tx _ _ _ ⟨rfl, rfl⟩).mpr fun _ c _ _ => habove c⟩

/-- **A sign is lost.**  A front end settles 1 kHz below the target: the DSP should shift by -1 kHz,
and is asked to shift by 1 kHz. -/
theorem sign_lost :
    (∃ tuned, tuneXxSubdevAndDsp 1 exactDsp (frontEndOff (-1000)) ⟨100000000, .auto, 0, .auto, 0⟩ =
        .ok tuned ∧ tuned.programmed = some (-1000)) ∧
      (∃ tuned, tuneByActions .rx exactDsp (frontEndOff (-1000)) ⟨100000000, .auto, 0, .auto, 0⟩ =
        .ok tuned ∧ tuned.programmed = some 1000) ∧
      ¬ TuneAgrees .rx exactDsp (frontEndOff (-1000)) ⟨100000000, .auto, 0, .auto, 0⟩ := by
  have hdirect : tuneXxSubdevAndDsp 1 exactDsp (frontEndOff (-1000)) ⟨100000000, .auto, 0, .auto, 0⟩ =
      .ok ⟨some (-1000), ⟨100000000, 100000000, 99999000, -1000, -1000⟩⟩ := by decide +kernel
  have hactions : tuneByActions .rx exactDsp (frontEndOff (-1000)) ⟨100000000, .auto, 0, .auto, 0⟩ =
      .ok ⟨some 1000, ⟨100000000, 100000000, 99999000, 1000, 1000⟩⟩ := by decide +kernel
  refine ⟨⟨_, hdirect, rfl⟩, ⟨_, hactions, rfl⟩, fun h => ?_⟩
  obtain ⟨hsame, -⟩ := h _ hdirect
  rw [hactions] at hsame
  obtain ⟨hprogrammed, -⟩ := Tuned.mk.inj (Except.ok.inj hsame)
  exact absurd (Option.some_inj.mp hprogrammed) (by norm_num)

end Rfnoc
end UhdHost
