import Mathlib
import UhdHost.Library.Transition
import UhdHost.Usrp.FreqWord

/-!
# The DSP cores

`rx_dsp_core_3000.cpp` and `tx_dsp_core_3000.cpp`, as far as they set a frequency.

A core is asked for a frequency, adds the offset that undoes the IF of a heterodyne connection, and
writes the frequency word of the sum.  What it remembers is the frequency that the word stands for.
When the tick rate changes it asks for that frequency again: the offset is added once more, and what
was lost by wrapping and rounding at the old rate is lost at the new one.  A new connection changes
the offset and writes no word.

* `freqWord_actualFreq`: the frequency of a word has this word, at the same rate.
* `word_iff_everyStep`: the word last written belongs to the frequency last requested, after every
  call, exactly when the calls meet a condition on what the core remembers.
-/

namespace UhdHost
namespace Usrp
namespace DspCore3000

open FreqWord

/-- A rate. -/
abbrev Rate := { rate : ℚ // 0 < rate }

theorem one_pos_rate : (0 : ℚ) < 1 := by decide

/-! ## The cores -/

/-- `fe_connection_t::sampling_t` -/
inductive SamplingMode where
  | quadrature
  | heterodyne
  | real
  deriving DecidableEq

/-- `fe_connection_t` -/
structure FeConnection where
  samplingMode : SamplingMode
  iqSwapped : Bool := false
  iInverted : Bool := false
  qInverted : Bool := false
  ifFreq : ℚ := 0
  deriving DecidableEq

/-- What both cores have: the rate, the frequency that was achieved, and the register that the
frequency word is written to. -/
structure Core where
  tickRate : Rate := ⟨1, one_pos_rate⟩
  currentFreq : ℚ := 0
  regFreq : Option (BitVec 32) := none
  deriving DecidableEq

namespace Core

/-- `set_freq`, with an offset. -/
def setFreq (dspFreqOffset : ℚ) (core : Core) (requestedFreq : ℚ) : Except UhdError (ℚ × Core) := do
  let (actualFreq, freqWord) ←
    getFreqAndFreqWord 32 (requestedFreq + dspFreqOffset) core.tickRate
  pure (actualFreq,
    { core with currentFreq := actualFreq, regFreq := some (BitVec.ofInt 32 freqWord) })

/-- `set_tick_rate`, with an offset. -/
def setTickRate (dspFreqOffset : ℚ) (core : Core) (rate : Rate) : Except UhdError Core := do
  let (_, core) ← setFreq dspFreqOffset { core with tickRate := rate } core.currentFreq
  pure core

end Core

/-- `rx_dsp_core_3000_impl` -/
structure RxDspCore where
  core : Core := {}
  dspFreqOffset : ℚ := 0
  regMux : Option ℕ := none
  deriving DecidableEq

namespace RxDspCore

/-- The word for the multiplexer. -/
def muxRegVal (feConn : FeConnection) : ℕ :=
  (if feConn.samplingMode = .quadrature then 0 else 2) + (if feConn.iqSwapped then 1 else 0) +
    (if feConn.iInverted then 8 else 0) + (if feConn.qInverted then 4 else 0)

/-- The offset for a connection. -/
def offsetOf (feConn : FeConnection) (tickRate : ℚ) : ℚ :=
  if feConn.samplingMode = .heterodyne then
    let ifFreq := |stdFmod feConn.ifFreq tickRate|
    let ifFreq := if tickRate / 2 < ifFreq then ifFreq - tickRate else ifFreq
    if 0 ≤ feConn.ifFreq then -ifFreq else ifFreq
  else 0

/-- `set_mux` -/
def setMux (rx : RxDspCore) (feConn : FeConnection) : RxDspCore :=
  { rx with
    regMux := some (muxRegVal feConn)
    dspFreqOffset := offsetOf feConn rx.core.tickRate }

/-- `set_freq` -/
def setFreq (rx : RxDspCore) (requestedFreq : ℚ) : Except UhdError (ℚ × RxDspCore) := do
  let (actualFreq, core) ← rx.core.setFreq rx.dspFreqOffset requestedFreq
  pure (actualFreq, { rx with core })

/-- `set_tick_rate` -/
def setTickRate (rx : RxDspCore) (rate : Rate) : Except UhdError RxDspCore := do
  let core ← rx.core.setTickRate rx.dspFreqOffset rate
  pure { rx with core }

end RxDspCore

namespace TxDspCore

/-- `set_freq` of `tx_dsp_core_3000_impl` -/
def setFreq (tx : Core) (requestedFreq : ℚ) : Except UhdError (ℚ × Core) :=
  tx.setFreq 0 requestedFreq

/-- `set_tick_rate` of `tx_dsp_core_3000_impl` -/
def setTickRate (tx : Core) (rate : Rate) : Except UhdError Core := tx.setTickRate 0 rate

/-- The constructor of `tx_dsp_core_3000_impl`. -/
def make : Except UhdError Core := setTickRate {} ⟨1, one_pos_rate⟩

end TxDspCore

/-! ## Sessions -/

/-- A receive core and the frequency that was requested last. -/
structure RxSession where
  rx : RxDspCore := {}
  requested : ℚ := 0
  deriving DecidableEq

/-- A call of a receive core. -/
inductive RxCall where
  | setMux (feConn : FeConnection)
  | setFreq (requestedFreq : ℚ)
  | setTickRate (rate : Rate)
  deriving DecidableEq

/-- A call.  One that throws has no next state. -/
def RxSession.step (s : RxSession) : RxCall → Option RxSession
  | .setMux feConn => some { s with rx := s.rx.setMux feConn }
  | .setFreq requestedFreq =>
    (s.rx.setFreq requestedFreq).toOption.map fun out => ⟨out.2, requestedFreq⟩
  | .setTickRate rate => (s.rx.setTickRate rate).toOption.map fun rx => { s with rx }

/-- A transmit core and the frequency that was requested last. -/
structure TxSession where
  tx : Core
  requested : ℚ := 0
  deriving DecidableEq

/-- A call of a transmit core. -/
inductive TxCall where
  | setFreq (requestedFreq : ℚ)
  | setTickRate (rate : Rate)
  deriving DecidableEq

/-- A call.  One that throws has no next state. -/
def TxSession.step (s : TxSession) : TxCall → Option TxSession
  | .setFreq requestedFreq =>
    (TxDspCore.setFreq s.tx requestedFreq).toOption.map fun out => ⟨out.2, requestedFreq⟩
  | .setTickRate rate => (TxDspCore.setTickRate s.tx rate).toOption.map fun tx => { s with tx }

/-! ## What is claimed -/

/-- The frequency word for a frequency at a rate. -/
def freqWord (freq : ℚ) (rate : Rate) : BitVec 32 :=
  BitVec.ofInt 32 (wordOf (wrapFrequency (freq / rate) 1 * 2 ^ 32))

/-- The frequency that is achieved for a frequency at a rate. -/
def actualFreq (freq : ℚ) (rate : Rate) : ℚ :=
  wordOf (wrapFrequency (freq / rate) 1 * 2 ^ 32) / 2 ^ 32 * rate

/-- **What is claimed** of a core, its offset and the frequency that was requested last, when a word
has been written: the word is that of the frequency with the offset, and to set the rate again
changes nothing. -/
def Core.Holds (core : Core) (offset requested : ℚ) : Prop :=
  core.regFreq ≠ none →
    core.regFreq = some (freqWord (requested + offset) core.tickRate) ∧
      core.setTickRate offset core.tickRate = .ok core

/-- The claim for a receive core. -/
def RxSession.Holds (s : RxSession) : Prop := s.rx.core.Holds s.rx.dspFreqOffset s.requested

/-- The claim for a transmit core. -/
def TxSession.Holds (s : TxSession) : Prop := s.tx.Holds 0 s.requested

/-- The frequency that is achieved for another one, asked for again, has the same word. -/
def Replays (offset freq : ℚ) (rate : Rate) : Prop :=
  freqWord (actualFreq freq rate + offset) rate = freqWord freq rate

instance (offset freq : ℚ) (rate : Rate) : Decidable (Replays offset freq rate) :=
  inferInstanceAs (Decidable (_ = _))

/-- A new rate may be set: the frequency that was achieved has the word of the one that was
requested. -/
def Core.MayChange (core : Core) (offset requested : ℚ) (rate : Rate) : Prop :=
  freqWord (core.currentFreq + offset) rate = freqWord (requested + offset) rate ∧
    Replays offset (core.currentFreq + offset) rate

instance (core : Core) (offset requested : ℚ) (rate : Rate) :
    Decidable (core.MayChange offset requested rate) :=
  inferInstanceAs (Decidable (_ ∧ _))

/-- **The condition** on a call of a receive core. -/
def RxSession.Meets (s : RxSession) : RxCall → Prop
  | .setMux feConn =>
    let offset := RxDspCore.offsetOf feConn s.rx.core.tickRate
    s.rx.core.regFreq = none ∨
      s.rx.core.regFreq = some (freqWord (s.requested + offset) s.rx.core.tickRate) ∧
        s.rx.core.regFreq = some (freqWord (s.rx.core.currentFreq + offset) s.rx.core.tickRate)
  | .setFreq requestedFreq =>
    Replays s.rx.dspFreqOffset (requestedFreq + s.rx.dspFreqOffset) s.rx.core.tickRate
  | .setTickRate rate => s.rx.core.MayChange s.rx.dspFreqOffset s.requested rate

instance (s : RxSession) : (call : RxCall) → Decidable (s.Meets call)
  | .setMux _ => inferInstanceAs (Decidable (_ ∨ _))
  | .setFreq _ => inferInstanceAs (Decidable (Replays _ _ _))
  | .setTickRate _ => inferInstanceAs (Decidable (Core.MayChange _ _ _ _))

/-- **The condition** on a call of a transmit core. -/
def TxSession.Meets (s : TxSession) : TxCall → Prop
  | .setFreq _ => True
  | .setTickRate rate => freqWord s.tx.currentFreq rate = freqWord s.requested rate

/-! ## Frequencies and words -/

section Words

variable {offset requested freq : ℚ} {rate : Rate} {core : Core}

theorem wrapFrequency_of_mem {q : ℚ} (hlow : -(1 / 2) ≤ q) (hhigh : q < 1 / 2) :
    wrapFrequency q 1 = q := by
  have htrunc : truncInt q = 0 := by
    rw [truncInt]
    split_ifs with hq
    · rw [Int.floor_eq_iff]
      push_cast
      constructor <;> linarith
    · rw [Int.ceil_eq_iff]
      push_cast
      constructor <;> linarith
  have hfmod : stdFmod q 1 = q := by
    rw [stdFmod, div_one, htrunc, Int.cast_zero, zero_mul, sub_zero]
  rw [wrapFrequency, hfmod, if_neg]
  rw [not_lt, abs_le]
  constructor <;> linarith

theorem wordOf_intCast {n : ℤ} (hlow : minFreqWord ≤ n) (hhigh : n ≤ maxFreqWord) :
    wordOf n = n := by
  rw [wordOf]
  split_ifs with hmax hmin
  · exact le_antisymm (Int.cast_le.mp hmax) hhigh
  · exact le_antisymm hlow (Int.cast_le.mp hmin)
  · rw [stdRound]
    split_ifs
    · rw [Int.floor_eq_iff]
      constructor <;> linarith
    · rw [Int.ceil_eq_iff]
      constructor <;> linarith

theorem freqWord_actualFreq (freq : ℚ) (rate : Rate) :
    freqWord (actualFreq freq rate) rate = freqWord freq rate := by
  have hmin : (minFreqWord : ℚ) ≤ wrapFrequency (freq / rate) 1 * 2 ^ 32 := by
    have hlow := (wrapFrequency_one (freq / rate)).1
    rw [minFreqWord]
    push_cast
    linarith
  obtain ⟨hge, hle, -⟩ := wordOf_spec hmin
  have hge' : (minFreqWord : ℚ) ≤ wordOf (wrapFrequency (freq / rate) 1 * 2 ^ 32) :=
    Int.cast_le.mpr hge
  have hle' : (wordOf (wrapFrequency (freq / rate) 1 * 2 ^ 32) : ℚ) ≤ maxFreqWord :=
    Int.cast_le.mpr hle
  rw [minFreqWord] at hge'
  rw [maxFreqWord] at hle'
  push_cast at hge' hle'
  rw [freqWord, freqWord, actualFreq, mul_div_assoc, div_self rate.2.ne', mul_one,
    wrapFrequency_of_mem (by linarith) (by linarith), div_mul_cancel₀ _ (by norm_num),
    wordOf_intCast hge hle]

theorem replays_zero (freq : ℚ) (rate : Rate) : Replays 0 freq rate := by
  rw [Replays, add_zero]
  exact freqWord_actualFreq freq rate

theorem setFreq_eq (core : Core) (offset freq : ℚ) : core.setFreq offset freq =
    .ok (actualFreq (freq + offset) core.tickRate,
      { core with
        currentFreq := actualFreq (freq + offset) core.tickRate
        regFreq := some (freqWord (freq + offset) core.tickRate) }) := by
  unfold Core.setFreq
  rw [getFreqAndFreqWord_eq]
  rfl

theorem setTickRate_eq (core : Core) (offset : ℚ) (rate : Rate) : core.setTickRate offset rate =
    .ok ⟨rate, actualFreq (core.currentFreq + offset) rate,
      some (freqWord (core.currentFreq + offset) rate)⟩ := by
  unfold Core.setTickRate
  rw [setFreq_eq]
  rfl

/-- The frequency is the one that the word stands for. -/
def Core.Settled (core : Core) : Prop :=
  ∀ word, core.regFreq = some word → core.currentFreq = word.toInt / 2 ^ 32 * core.tickRate

theorem actualFreq_eq (freq : ℚ) (rate : Rate) :
    actualFreq freq rate = (freqWord freq rate).toInt / 2 ^ 32 * rate := by
  have hmin : (minFreqWord : ℚ) ≤ wrapFrequency (freq / rate) 1 * 2 ^ 32 := by
    have hlow := (wrapFrequency_one (freq / rate)).1
    rw [minFreqWord]
    push_cast
    linarith
  obtain ⟨hge, hle, -⟩ := wordOf_spec hmin
  have hint : (freqWord freq rate).toInt = wordOf (wrapFrequency (freq / rate) 1 * 2 ^ 32) := by
    rw [minFreqWord] at hge
    rw [maxFreqWord] at hle
    rw [freqWord, BitVec.toInt_ofInt, Int.bmod_eq_of_le (by omega) (by omega)]
  rw [hint, actualFreq]

theorem setTickRate_same_iff (hsettled : core.Settled) {word : BitVec 32}
    (hword : core.regFreq = some word) : core.setTickRate offset core.tickRate = .ok core ↔
      freqWord (core.currentFreq + offset) core.tickRate = word := by
  rw [setTickRate_eq]
  constructor
  · intro h
    have hreg := congrArg Core.regFreq (Except.ok.inj h)
    exact Option.some.inj (hreg.trans hword)
  · intro h
    have hfreq : actualFreq (core.currentFreq + offset) core.tickRate = core.currentFreq := by
      rw [actualFreq_eq, h]
      exact (hsettled word hword).symm
    rw [hfreq, h, ← hword]

theorem holds_iff (hsettled : core.Settled) {word : BitVec 32} (hword : core.regFreq = some word) :
    core.Holds offset requested ↔ word = freqWord (requested + offset) core.tickRate ∧
      freqWord (core.currentFreq + offset) core.tickRate = word := by
  have hne : core.regFreq ≠ none := by
    rw [hword]
    exact Option.some_ne_none word
  rw [Core.Holds, setTickRate_same_iff hsettled hword, hword, Option.some_inj]
  exact ⟨fun h => h (Option.some_ne_none word), fun h _ => h⟩

theorem settled_of_freq (freq : ℚ) (rate : Rate) :
    Core.Settled ⟨rate, actualFreq freq rate, some (freqWord freq rate)⟩ := by
  intro word hword
  obtain rfl := Option.some.inj hword
  exact actualFreq_eq freq rate

theorem holds_of_freq_iff (freq : ℚ) (rate : Rate) :
    Core.Holds ⟨rate, actualFreq freq rate, some (freqWord freq rate)⟩ offset requested ↔
      freqWord freq rate = freqWord (requested + offset) rate ∧ Replays offset freq rate := by
  exact holds_iff (settled_of_freq freq rate) rfl

end Words

/-! ## One call -/

section Step

theorem rxStep_setFreq (s : RxSession) (freq : ℚ) : s.step (.setFreq freq) =
    some ⟨{ s.rx with core := ⟨s.rx.core.tickRate,
      actualFreq (freq + s.rx.dspFreqOffset) s.rx.core.tickRate,
      some (freqWord (freq + s.rx.dspFreqOffset) s.rx.core.tickRate)⟩ }, freq⟩ := by
  rw [RxSession.step, RxDspCore.setFreq, setFreq_eq]
  rfl

theorem rxStep_setTickRate (s : RxSession) (rate : Rate) : s.step (.setTickRate rate) =
    some { s with rx := { s.rx with core := ⟨rate,
      actualFreq (s.rx.core.currentFreq + s.rx.dspFreqOffset) rate,
      some (freqWord (s.rx.core.currentFreq + s.rx.dspFreqOffset) rate)⟩ } } := by
  rw [RxSession.step, RxDspCore.setTickRate, setTickRate_eq]
  rfl

theorem txStep_setFreq (s : TxSession) (freq : ℚ) : s.step (.setFreq freq) =
    some ⟨⟨s.tx.tickRate, actualFreq (freq + 0) s.tx.tickRate,
      some (freqWord (freq + 0) s.tx.tickRate)⟩, freq⟩ := by
  rw [TxSession.step, TxDspCore.setFreq, setFreq_eq]
  rfl

theorem txStep_setTickRate (s : TxSession) (rate : Rate) : s.step (.setTickRate rate) =
    some { s with tx := ⟨rate, actualFreq (s.tx.currentFreq + 0) rate,
      some (freqWord (s.tx.currentFreq + 0) rate)⟩ } := by
  rw [TxSession.step, TxDspCore.setTickRate, setTickRate_eq]
  rfl

theorem exists_rxStep (s : RxSession) (call : RxCall) : ∃ t, s.step call = some t := by
  cases call with
  | setMux feConn => exact ⟨_, rfl⟩
  | setFreq freq => exact ⟨_, rxStep_setFreq s freq⟩
  | setTickRate rate => exact ⟨_, rxStep_setTickRate s rate⟩

theorem exists_txStep (s : TxSession) (call : TxCall) : ∃ t, s.step call = some t := by
  cases call with
  | setFreq freq => exact ⟨_, txStep_setFreq s freq⟩
  | setTickRate rate => exact ⟨_, txStep_setTickRate s rate⟩

theorem rxHolds_step_iff {s t : RxSession} {call : RxCall} (hsettled : s.rx.core.Settled)
    (h : s.step call = some t) : t.rx.core.Settled ∧ (t.Holds ↔ s.Meets call) := by
  cases call with
  | setMux feConn =>
    cases h
    refine ⟨hsettled, ?_⟩
    rw [RxSession.Holds, RxSession.Meets]
    cases hreg : s.rx.core.regFreq with
    | none => exact iff_of_true (fun hne => absurd hreg hne) (Or.inl rfl)
    | some word =>
      rw [RxDspCore.setMux, holds_iff hsettled hreg, Option.some_inj, Option.some_inj,
        or_iff_right (Option.some_ne_none word)]
      exact and_congr_right fun _ => eq_comm
  | setFreq freq =>
    rw [rxStep_setFreq, Option.some_inj] at h
    subst h
    refine ⟨settled_of_freq _ _, ?_⟩
    rw [RxSession.Holds, RxSession.Meets, holds_of_freq_iff, and_iff_right rfl]
  | setTickRate rate =>
    rw [rxStep_setTickRate, Option.some_inj] at h
    subst h
    refine ⟨settled_of_freq _ _, ?_⟩
    rw [RxSession.Holds, RxSession.Meets, holds_of_freq_iff, Core.MayChange]

theorem txHolds_step_iff {s t : TxSession} {call : TxCall} (h : s.step call = some t) :
    t.Holds ↔ s.Meets call := by
  cases call with
  | setFreq freq =>
    rw [txStep_setFreq, Option.some_inj] at h
    subst h
    rw [TxSession.Holds, TxSession.Meets, holds_of_freq_iff]
    exact iff_of_true ⟨rfl, replays_zero _ _⟩ trivial
  | setTickRate rate =>
    rw [txStep_setTickRate, Option.some_inj] at h
    subst h
    rw [TxSession.Holds, TxSession.Meets, holds_of_freq_iff, and_iff_left (replays_zero _ _),
      add_zero, add_zero]

end Step

/-! ## Runs -/

/-- A transmit core that is made. -/
def TxSession.start : TxSession :=
  ⟨⟨⟨1, one_pos_rate⟩, actualFreq 0 ⟨1, one_pos_rate⟩, some (freqWord 0 ⟨1, one_pos_rate⟩)⟩, 0⟩

theorem txHolds_start : TxSession.start.Holds := by
  rw [TxSession.Holds, TxSession.start, holds_of_freq_iff]
  exact ⟨congrArg (fun freq => freqWord freq _) (add_zero 0).symm, replays_zero _ _⟩

theorem rx_iff_everyStep (calls : List RxCall) :
    (∀ before s, before <+: calls →
      Transition.run RxSession.step {} before = some s → s.Holds) ↔
    Transition.EveryStep RxSession.step RxSession.Meets {} calls := by
  obtain ⟨t, hrun⟩ := Transition.exists_run exists_rxStep {} calls
  refine Transition.forall_prefix_iff_everyStep
    (I := fun s : RxSession => s.rx.core.Settled ∧ s.Holds) (K := RxSession.Holds)
    (fun _ hs => hs.2) ?_ ?_ ⟨fun _ hword => ?_, fun hne => ?_⟩ hrun
  · rintro s call u ⟨hsettled, -⟩ hu hmeets
    obtain ⟨hsettled', hiff⟩ := rxHolds_step_iff hsettled hu
    exact ⟨hsettled', hiff.mpr hmeets⟩
  · rintro s call u ⟨hsettled, -⟩ hu hmeets hholds
    exact hmeets ((rxHolds_step_iff hsettled hu).2.mp hholds)
  · cases hword
  · exact absurd rfl hne

theorem tx_iff_everyStep (calls : List TxCall) :
    (∀ before s, before <+: calls →
      Transition.run TxSession.step .start before = some s → s.Holds) ↔
    Transition.EveryStep TxSession.step TxSession.Meets .start calls := by
  obtain ⟨t, hrun⟩ := Transition.exists_run exists_txStep .start calls
  refine Transition.forall_prefix_iff_everyStep (I := TxSession.Holds) (K := TxSession.Holds)
    (fun _ hs => hs) ?_ ?_ txHolds_start hrun
  · intro s call u _ hu hmeets
    exact (txHolds_step_iff hu).mpr hmeets
  · intro s call u _ hu hmeets hholds
    exact hmeets ((txHolds_step_iff hu).mp hholds)

theorem radioRate_pos : (0 : ℚ) < 100000000 := by decide

end DspCore3000
end Usrp
end UhdHost
