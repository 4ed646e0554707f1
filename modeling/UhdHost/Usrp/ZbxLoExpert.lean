import Mathlib
import UhdHost.Experts.ExpertNodes
import UhdHost.Library.Transition

/-!
# The LO expert

`zbx_lo_expert` of `zbx_expert.cpp`, the worker that programs an LO, and `zbx_lo_ctrl`, by which it
does so.

The worker reads the frequency, whether the LO is enabled and whether its test port is, and what it
does is decided by which of them are dirty.  A frequency that is dirty is programmed where the LO is
enabled, and every resolve leaves all three clean.  So a frequency that was set while the LO was
switched off has been seen, and it is not programmed when the LO is switched on.

* `right_step_iff`: what one change with its resolve does.
* `tuned_iff_everyStep`: the LO is programmed with the desired frequency, after every resolve that
  leaves it enabled, exactly when it is only ever switched on with the frequency that it still has.
-/

namespace UhdHost
namespace Usrp
namespace ZbxLoExpert

open Experts

/-- `LMX2572_MIN_FREQ` -/
def lmx2572MinFreq : ℚ := 3200000000

/-- `LMX2572_MAX_FREQ` -/
def lmx2572MaxFreq : ℚ := 6400000000

/-- `LMX2572_DEFAULT_FREQ` -/
def lmx2572DefaultFreq : ℚ := 4000000000

/-! ## The LO -/

/-- `zbx_lo_ctrl`, with what has been programmed into the synthesizer. -/
structure LoCtrl where
  /-- The frequency of the last call of `set_frequency`. -/
  programmed : ℚ
  /-- `_freq` -/
  freq : ℚ
  enabled : Bool := false
  outputEnabled : Bool := false
  testEnabled : Bool := false
  /-- `_testing_mode_enabled` -/
  testMode : Bool
  deriving DecidableEq

namespace LoCtrl

/-- `set_lo_freq`.  The synthesizer says which frequency it produces. -/
def setLoFreq (setFrequency : ℚ → ℚ) (lo : LoCtrl) (freq : ℚ) : LoCtrl :=
  { lo with programmed := freq, freq := setFrequency freq }

/-- `set_lo_port_enabled` -/
def setLoPortEnabled (lo : LoCtrl) (enable : Bool) : LoCtrl :=
  { lo with outputEnabled := enable, testEnabled := lo.testMode && enable, enabled := enable }

/-- `set_lo_test_mode_enabled` -/
def setLoTestModeEnabled (lo : LoCtrl) (enable : Bool) : LoCtrl :=
  let lo := { lo with testMode := enable }
  lo.setLoPortEnabled lo.enabled

/-- The constructor. -/
def make (setFrequency : ℚ → ℚ) (testMode : Bool) : LoCtrl :=
  let lo : LoCtrl := { programmed := 0, freq := lmx2572DefaultFreq, testMode }
  setLoFreq setFrequency (lo.setLoPortEnabled true) lmx2572DefaultFreq

end LoCtrl

/-! ## The expert -/

/-- The nodes that the expert is bound to, and the LO. -/
structure LoExpert where
  desiredLoFrequency : DataNode ℚ
  setIsEnabled : DataNode Bool
  testModeEnabled : DataNode Bool
  coercedLoFrequency : DataNode ℚ
  loCtrl : LoCtrl
  deriving DecidableEq

/-- What a user, or another expert, does to the nodes. -/
inductive Change where
  | frequency (freq : ℚ)
  | enabled (enable : Bool)
  | testMode (enable : Bool)
  deriving DecidableEq

/-- The frequency that the LO is set to for a desired one. -/
def clipped (freq : ℚ) : ℚ := max lmx2572MinFreq (min freq lmx2572MaxFreq)

namespace LoExpert

variable (setFrequency : ℚ → ℚ)

/-- The first two parts of `resolve`, for the ports. -/
def resolvePorts (e : LoExpert) : LoCtrl :=
  let lo :=
    if e.testModeEnabled.dirty then e.loCtrl.setLoTestModeEnabled e.testModeEnabled.data
    else e.loCtrl
  if e.setIsEnabled.dirty then lo.setLoPortEnabled e.setIsEnabled.data else lo

/-- `zbx_lo_expert::resolve` -/
def resolve (e : LoExpert) : LoExpert :=
  let e := { e with loCtrl := e.resolvePorts }
  if e.setIsEnabled.data && e.desiredLoFrequency.dirty then
    let loCtrl := e.loCtrl.setLoFreq setFrequency (clipped e.desiredLoFrequency.data)
    { e with loCtrl, coercedLoFrequency := e.coercedLoFrequency.set loCtrl.freq }
  else e

/-- `is_dirty` of the worker -/
def isDirty (e : LoExpert) : Bool :=
  e.desiredLoFrequency.dirty || e.testModeEnabled.dirty || e.setIsEnabled.dirty

/-- `mark_clean` of the worker -/
def markClean (e : LoExpert) : LoExpert :=
  { e with
    desiredLoFrequency := e.desiredLoFrequency.markClean
    setIsEnabled := e.setIsEnabled.markClean
    testModeEnabled := e.testModeEnabled.markClean }

/-- What the container does: a worker with dirty inputs is resolved, and they are clean then. -/
def resolveAll (e : LoExpert) : LoExpert :=
  if e.isDirty then (e.resolve setFrequency).markClean else e

/-- A node is set. -/
def set (e : LoExpert) : Change → LoExpert
  | .frequency freq => { e with desiredLoFrequency := e.desiredLoFrequency.setByUser freq }
  | .enabled enable => { e with setIsEnabled := e.setIsEnabled.setByUser enable }
  | .testMode enable => { e with testModeEnabled := e.testModeEnabled.setByUser enable }

/-- A change and the resolve that follows it. -/
def step (e : LoExpert) (change : Change) : Option LoExpert :=
  some ((e.set change).resolveAll setFrequency)

/-- The expert after the first resolve of the container. -/
def make : LoExpert :=
  let e : LoExpert := {
    desiredLoFrequency := { data := lmx2572DefaultFreq }
    setIsEnabled := { data := false }
    testModeEnabled := { data := false }
    coercedLoFrequency := { data := lmx2572DefaultFreq }
    loCtrl := LoCtrl.make setFrequency false }
  e.resolveAll setFrequency

/-! ## What is claimed -/

/-- The LO has the frequency that is desired, as far as it can be produced, and what is reported is
what the synthesizer said when it was programmed. -/
def Tuned (e : LoExpert) : Prop :=
  e.loCtrl.programmed = clipped e.desiredLoFrequency.data ∧
    e.coercedLoFrequency.data = e.loCtrl.freq

instance (e : LoExpert) : Decidable e.Tuned := inferInstanceAs (Decidable (_ ∧ _))

/-- **What is claimed** of the expert after a resolve. -/
def Right (e : LoExpert) : Prop := e.setIsEnabled.data = true → e.Tuned

instance (e : LoExpert) : Decidable e.Right := inferInstanceAs (Decidable (_ → _))

/-- **The condition** on a change: an LO that is switched on has the frequency that is desired now,
as it was last programmed and reported. -/
def Meets (e : LoExpert) (change : Change) : Prop :=
  change = .enabled true → e.setIsEnabled.data = false → e.Tuned

instance (e : LoExpert) (change : Change) : Decidable (e.Meets change) :=
  inferInstanceAs (Decidable (_ → _ → _))

/-- What every resolve leaves. -/
structure Clean (e : LoExpert) : Prop where
  frequency : e.desiredLoFrequency.dirty = false
  enabled : e.setIsEnabled.dirty = false
  testMode : e.testModeEnabled.dirty = false

/-! ## One change -/

section Step

variable {setFrequency} {e : LoExpert}

theorem clean_resolveAll (e : LoExpert) : (e.resolveAll setFrequency).Clean := by
  rw [resolveAll]
  by_cases hdirty : e.isDirty = true
  · rw [if_pos hdirty]
    exact ⟨rfl, rfl, rfl⟩
  · rw [if_neg hdirty]
    rw [isDirty, Bool.not_eq_true, Bool.or_eq_false_iff, Bool.or_eq_false_iff] at hdirty
    exact ⟨hdirty.1.1, hdirty.2, hdirty.1.2⟩

theorem programmed_resolvePorts (e : LoExpert) : e.resolvePorts.programmed = e.loCtrl.programmed ∧
    e.resolvePorts.freq = e.loCtrl.freq := by
  rw [resolvePorts]
  split_ifs <;> exact ⟨rfl, rfl⟩

theorem tuned_of_frequency (hdirty : e.desiredLoFrequency.dirty = true)
    (hon : e.setIsEnabled.data = true) : (e.resolveAll setFrequency).Tuned := by
  rw [resolveAll, isDirty, hdirty, Bool.true_or, Bool.true_or, if_pos rfl, resolve]
  dsimp only
  rw [hon, hdirty, Bool.and_self, if_pos rfl]
  exact ⟨rfl, DataNode.data_set _ _⟩

theorem tuned_resolveAll_iff (h : e.desiredLoFrequency.dirty = false) :
    (e.resolveAll setFrequency).Tuned ↔ e.Tuned := by
  rw [resolveAll]
  split_ifs
  · obtain ⟨hprogrammed, hfreq⟩ := programmed_resolvePorts e
    rw [resolve]
    dsimp only
    rw [h, Bool.and_false, if_neg Bool.false_ne_true, Tuned, Tuned, ← hprogrammed, ← hfreq]
    exact Iff.rfl
  · exact Iff.rfl

theorem data_resolveAll (e : LoExpert) :
    (e.resolveAll setFrequency).setIsEnabled.data = e.setIsEnabled.data := by
  rw [resolveAll]
  split_ifs
  · rw [resolve]
    dsimp only
    split_ifs <;> rfl
  · rfl

theorem dirty_setByUser_eq_false {V : Type} [DecidableEq V] {n : DataNode V}
    (hclean : n.dirty = false) {value : V} (h : n.data = value) : (n.setByUser value).dirty = false := by
  rw [Bool.eq_false_iff]
  intro hdirty
  rcases (DataNode.dirty_setByUser n value).mp hdirty with hdirty | hne
  · exact Bool.false_ne_true (hclean.symm.trans hdirty)
  · exact hne h.symm

theorem right_step_iff (hclean : e.Clean) (hright : e.Right) (change : Change) :
    ((e.set change).resolveAll setFrequency).Right ↔ e.Meets change := by
  cases change with
  | frequency freq =>
    refine iff_of_true ?_ (fun h => by cases h)
    intro hon
    rw [data_resolveAll] at hon
    by_cases hsame : e.desiredLoFrequency.data = freq
    · have hdirty := dirty_setByUser_eq_false hclean.frequency hsame
      rw [tuned_resolveAll_iff hdirty]
      obtain ⟨hprogrammed, hcoerced⟩ := hright hon
      refine ⟨?_, hcoerced⟩
      rw [set, DataNode.data_setByUser, ← hsame]
      exact hprogrammed
    · exact tuned_of_frequency
        ((DataNode.dirty_setByUser _ _).mpr (Or.inr fun h => hsame h.symm)) hon
  | enabled enable =>
    have hfrequency : (e.set (.enabled enable)).desiredLoFrequency.dirty = false := hclean.frequency
    rw [Right, data_resolveAll, tuned_resolveAll_iff hfrequency, set, DataNode.data_setByUser, Meets]
    cases enable with
    | false =>
      refine iff_of_true (fun h => ?_) (fun h => ?_)
      · exact absurd h Bool.false_ne_true
      · injection h with h
        exact absurd h Bool.false_ne_true
    | true =>
      cases hon : e.setIsEnabled.data with
      | false => exact ⟨fun h _ _ => h rfl, fun h _ => h rfl rfl⟩
      | true => exact iff_of_true (fun _ => hright hon) (fun _ h => absurd h.symm Bool.false_ne_true)
  | testMode enable =>
    have hfrequency : (e.set (.testMode enable)).desiredLoFrequency.dirty = false := hclean.frequency
    refine iff_of_true ?_ (fun h => by cases h)
    rw [Right, data_resolveAll, tuned_resolveAll_iff hfrequency]
    exact hright

end Step

/-! ## Runs -/

theorem right_make : (make setFrequency).Right := by
  intro hon
  rw [make, data_resolveAll] at hon
  exact absurd hon Bool.false_ne_true

/-- **The LO has the desired frequency after every resolve that leaves it enabled** exactly when
every change meets the condition. -/
theorem tuned_iff_everyStep (changes : List Change) :
    (∀ before e, before <+: changes →
      Transition.run (step setFrequency) (make setFrequency) before = some e → e.Right) ↔
    Transition.EveryStep (step setFrequency) Meets (make setFrequency) changes := by
  obtain ⟨e, hrun⟩ : ∃ e, Transition.run (step setFrequency) (make setFrequency) changes = some e :=
    Transition.exists_run (fun _ _ => ⟨_, rfl⟩) _ changes
  refine Transition.forall_prefix_iff_everyStep (I := fun e => e.Clean ∧ e.Right) (K := Right)
    (fun _ h => h.2) ?_ ?_ ⟨clean_resolveAll _, right_make setFrequency⟩ hrun
  · rintro e change t ⟨hclean, hright⟩ ht hmeets
    cases ht
    exact ⟨clean_resolveAll _, (right_step_iff hclean hright change).mpr hmeets⟩
  · rintro e change t ⟨hclean, hright⟩ ht hmeets ht'
    cases ht
    exact hmeets ((right_step_iff hclean hright change).mp ht')

/-- **A frequency that is set while the LO is off** is not programmed when it is switched on. -/
theorem not_right_setWhileOff : ¬ ∀ (setFrequency : ℚ → ℚ) (changes : List Change) before e,
    before <+: changes →
    Transition.run (step setFrequency) (make setFrequency) before = some e → e.Right := by
  intro hall
  have hsteps := (tuned_iff_everyStep id [.frequency 5000000000, .enabled true]).mp
    (hall id [.frequency 5000000000, .enabled true])
  revert hsteps
  decide +kernel

end LoExpert

end ZbxLoExpert
end Usrp
end UhdHost
