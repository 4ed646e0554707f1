import UhdHost.Library.Transition
import UhdHost.Transport.RxStreamer

/-!
# Overruns of the receive streamer

`rfnoc_rx_streamer` of `lib/rfnoc/rfnoc_rx_streamer.cpp`, and what `rx_streamer_zero_copy` does for
it when packets stop coming.  A radio that has an overrun reports it downstream.  The streamer
then stops all radios, lets the user read what was received before, tells the user of the
overflow and asks the radio that reported it to restart; the radio replies with a stream command
that the streamer passes on to all radios.  While this goes on, the streamer is in overrun handling
mode, in which further reports are ignored.

## What happens in which order

Reports, commands of the user, replies and calls of `recv` come in any order, one after the
other.  A call of `recv` may look for packets twice; what counts is the last result, and what it
finds is up to the transports: samples only while there are aligned packets, and no packet at all
only when there are none (`Overruns.step`).

The fields of `Overruns.State` below the streamer are no variables of the source; they say what
happened.
-/

namespace UhdHost
namespace Rfnoc

open Transport

/-- `stream_mode_t` -/
inductive StreamMode where
  | startContinuous
  | stopContinuous
  | numSampsAndDone
  | numSampsAndMore
  deriving DecidableEq, Repr

/-- `trigger_t` -/
inductive StreamTrigger where
  | timed
  | txRunning
  deriving DecidableEq, Repr

/-- `stream_cmd_t` -/
structure StreamCmd where
  streamMode : StreamMode
  numSamps : UInt64 := 0
  streamNow : Bool := true
  timeSpec : TimeSpec := default
  trigger : StreamTrigger := .timed
  deriving DecidableEq

/-- The actions that radios and streamers exchange. -/
inductive RxAction where
  /-- `rx_event_action_info`, with its `cont_mode` argument -/
  | rxEvent (errorCode : RxErrorCode) (contMode : Bool)
  /-- `stream_cmd_action_info` -/
  | streamCmd (cmd : StreamCmd)
  /-- `ACTION_KEY_RX_RESTART_REQ` -/
  | rxRestartReq
  deriving DecidableEq

/-- An action that the streamer posts on one of its input ports. -/
structure RxPost where
  port : ℕ
  action : RxAction
  deriving DecidableEq

/-- `rfnoc_rx_streamer`, with the flags of `rx_streamer_zero_copy` -/
structure RfnocRxStreamer where
  /-- `_overrun_handling_mode` -/
  overrunHandlingMode : Bool := false
  /-- `_last_stream_cmd_stop` -/
  lastStreamCmdStop : Bool := false
  /-- `_overrun_channel` -/
  overrunChannel : ℕ := 0
  /-- `_stopped_due_to_overrun` -/
  stoppedDueToOverrun : Bool := false
  /-- `_stopped_due_to_late_cmd` -/
  stoppedDueToLateCmd : Bool := false
  deriving DecidableEq, Repr

namespace RfnocRxStreamer

/-- One action on each of the input ports. -/
def postToAll (numChans : ℕ) (action : RxAction) : List RxPost :=
  (List.range numChans).map fun port => ⟨port, action⟩

/-- `issue_stream_cmd` -/
def issueStreamCmd (numChans : ℕ) (s : RfnocRxStreamer) (cmd : StreamCmd) :
    Except UhdError (RfnocRxStreamer × List RxPost) :=
  if 1 < numChans ∧ cmd.streamNow = true ∧ cmd.streamMode ≠ .stopContinuous then
    .error (.runtimeError ("Invalid recv stream command - stream now on multiple channels in a " ++
      "single streamer will fail to time align."))
  else
    .ok ({ s with lastStreamCmdStop := cmd.streamMode = .stopContinuous },
      postToAll numChans (.streamCmd cmd))

/-- `_handle_rx_event_action` -/
def handleRxEventAction (numChans : ℕ) (s : RfnocRxStreamer) (port : ℕ) (errorCode : RxErrorCode)
    (contMode : Bool) : RfnocRxStreamer × List RxPost :=
  if errorCode = .overflow then
    if s.overrunHandlingMode then (s, [])
    else
      ({ s with
          overrunHandlingMode := !(!contMode || s.lastStreamCmdStop)
          overrunChannel := port
          stoppedDueToOverrun := true },
        postToAll numChans (.streamCmd { streamMode := .stopContinuous }))
  else if errorCode = .lateCommand then ({ s with stoppedDueToLateCmd := true }, [])
  else (s, [])

/-- `_handle_stream_cmd_action` -/
def handleStreamCmdAction (numChans : ℕ) (s : RfnocRxStreamer) (cmd : StreamCmd) :
    RfnocRxStreamer × List RxPost :=
  ({ s with overrunHandlingMode := false }, postToAll numChans (.streamCmd cmd))

/-- `_handle_overrun` -/
def handleOverrun (s : RfnocRxStreamer) : List RxPost :=
  if s.overrunHandlingMode && !s.lastStreamCmdStop then [⟨s.overrunChannel, .rxRestartReq⟩] else []

/-- `set_metadata_for_error`, the error code -/
def errorCodeOf : AlignmentResult → RxErrorCode
  | .badPacket => .badPacket
  | .timeout => .timeout
  | .alignmentFailure => .alignment
  | .sequenceError => .overflow
  | .success => .none

/-- `get_recv_buffs`, by what looking for packets comes to: the error code, and the actions that are
posted. -/
def getRecvBuffs (s : RfnocRxStreamer) (result : AlignmentResult) :
    RfnocRxStreamer × List RxPost × RxErrorCode :=
  if result = .timeout ∧ s.stoppedDueToOverrun = true then
    ({ s with stoppedDueToOverrun := false }, s.handleOverrun, .overflow)
  else if result = .timeout ∧ s.stoppedDueToLateCmd = true then
    ({ s with stoppedDueToLateCmd := false }, [], .lateCommand)
  else (s, [], errorCodeOf result)

theorem setNextPacketTime_errorCode (info : LastReadTimeInfo) (sampRate : ℚ)
    (metadata : RxMetadata) :
    (info.setNextPacketTime sampRate metadata).errorCode = metadata.errorCode := by
  rw [LastReadTimeInfo.setNextPacketTime]
  split_ifs with htime
  · rfl
  · rfl

theorem getRecvBuffs_rxStreamer {δ β : Type} {cfg : RxStreamerConfig δ β} {fuel : ℕ}
    {rx rx' : RxStreamer δ} {eov eov' : EovData} {metadata : RxMetadata} {numSamps : ℕ}
    (h : rx.getRecvBuffs cfg fuel eov = some (rx', metadata, eov', numSamps))
    (s : RfnocRxStreamer) (hover : s.stoppedDueToOverrun = rx.stoppedDueToOverrun)
    (hlate : s.stoppedDueToLateCmd = rx.stoppedDueToLateCmd) :
    ∃ result, (s.getRecvBuffs result).2.2 = metadata.errorCode ∧
      (s.getRecvBuffs result).1.stoppedDueToOverrun = rx'.stoppedDueToOverrun ∧
      (s.getRecvBuffs result).1.stoppedDueToLateCmd = rx'.stoppedDueToLateCmd := by
  rw [RxStreamer.getRecvBuffs] at h
  obtain ⟨⟨chans, result⟩, -, h⟩ := Option.map_eq_some_iff.mp h
  refine ⟨result, ?_⟩
  obtain ⟨mode, stop, port, overrun, late⟩ := s
  dsimp only at h hover hlate
  subst hover hlate
  rw [getRecvBuffs]
  split_ifs at h ⊢ with hdrained hcommand herror
  · obtain ⟨rfl, rfl, -⟩ := Prod.mk.injEq .. ▸ h
    exact ⟨(setNextPacketTime_errorCode rx.lastReadTimeInfo cfg.sampRate
      { errorCode := .overflow }).symm, rfl, rfl⟩
  · obtain ⟨rfl, rfl, -⟩ := Prod.mk.injEq .. ▸ h
    exact ⟨rfl, rfl, rfl⟩
  · obtain ⟨rfl, rfl, -⟩ := Prod.mk.injEq .. ▸ h
    refine ⟨?_, rfl, rfl⟩
    cases result with
    | success => exact absurd rfl herror
    | sequenceError => exact (setNextPacketTime_errorCode rx.lastReadTimeInfo cfg.sampRate
        { outOfSequence := true, errorCode := .overflow }).symm
    | timeout => rfl
    | alignmentFailure => rfl
    | badPacket => rfl
  · obtain ⟨rfl, rfl, -⟩ := Prod.mk.injEq .. ▸ h
    rw [not_not] at herror
    exact ⟨by rw [herror]; rfl, rfl, rfl⟩

end RfnocRxStreamer

namespace Overruns

open Transition RfnocRxStreamer

/-- An overrun that arrived. -/
structure Arrival where
  /-- The samples received before it, in packets of all channels. -/
  received : ℕ
  contMode : Bool
  /-- Whether the user had stopped. -/
  stopped : Bool
  deriving DecidableEq, Repr

/-- An overflow that the user was told of. -/
structure Report where
  /-- The samples that the user had got before, in packets of all channels. -/
  delivered : ℕ
  /-- Whether the user had stopped. -/
  stopped : Bool
  restartRequested : Bool
  deriving DecidableEq, Repr

/-- The streamer, and what happened to it. -/
structure State where
  streamer : RfnocRxStreamer := {}
  received : ℕ := 0
  delivered : ℕ := 0
  /-- The restart requests that no radio has replied to yet. -/
  restartReqs : ℕ := 0
  /-- The overruns that arrived while none was being handled. -/
  arrivals : List Arrival := []
  reports : List Report := []
  deriving DecidableEq, Repr

/-- An overrun is being handled: the user is still to be told, or a radio is to reply. -/
def State.beingHandled (s : State) : Bool :=
  s.streamer.stoppedDueToOverrun || decide (0 < s.restartReqs)

/-- What happens next. -/
inductive Call where
  /-- Packets that belong together have arrived on all channels. -/
  | receive
  | overrunReport (port : ℕ) (contMode : Bool)
  | lateCommandReport (port : ℕ)
  | issueStreamCmd (cmd : StreamCmd)
  /-- A radio replies to a restart request. -/
  | restartReply (cmd : StreamCmd)
  | recv (result : AlignmentResult)
  deriving DecidableEq

/-- One call. -/
def step (numChans : ℕ) (s : State) : Call → Option State
  | .receive => some { s with received := s.received + 1 }
  | .overrunReport port contMode =>
    some { s with
      streamer := (handleRxEventAction numChans s.streamer port .overflow contMode).1
      arrivals :=
        if s.beingHandled then s.arrivals
        else s.arrivals ++ [⟨s.received, contMode, s.streamer.lastStreamCmdStop⟩] }
  | .lateCommandReport port =>
    some { s with
      streamer := (handleRxEventAction numChans s.streamer port .lateCommand false).1 }
  | .issueStreamCmd cmd =>
    match RfnocRxStreamer.issueStreamCmd numChans s.streamer cmd with
    | .ok (streamer, _) => some { s with streamer := streamer }
    | .error _ => some s
  | .restartReply cmd =>
    if 0 < s.restartReqs then
      some { s with
        streamer := (handleStreamCmdAction numChans s.streamer cmd).1
        restartReqs := s.restartReqs - 1 }
    else none
  | .recv result =>
    if (result = .success → s.delivered < s.received) ∧
        (result = .timeout → s.delivered = s.received) then
      let (streamer, posts, errorCode) := getRecvBuffs s.streamer result
      let requests := posts.countP fun post => post.action = .rxRestartReq
      some { s with
        streamer := streamer
        delivered := if errorCode = .none then s.delivered + 1 else s.delivered
        restartReqs := s.restartReqs + requests
        reports :=
          if result = .timeout ∧ errorCode = .overflow then
            s.reports ++ [⟨s.delivered, s.streamer.lastStreamCmdStop, 0 < requests⟩]
          else s.reports }
    else none

/-- **What overrun handling promises.** -/
structure State.KeepsPromise (s : State) : Prop where
  /-- Every overrun is reported once, or still to be reported. -/
  reportedOnce : s.arrivals.length =
    s.reports.length + if s.streamer.stoppedDueToOverrun then 1 else 0
  /-- Samples received before the overrun come before the report. -/
  afterSamples : ∀ (i : ℕ) (a : Arrival) (r : Report), s.arrivals[i]? = some a →
    s.reports[i]? = some r → a.received ≤ r.delivered
  /-- A radio that was streaming continuously is asked to restart, unless the user has stopped. -/
  restarts : ∀ (i : ℕ) (a : Arrival) (r : Report), s.arrivals[i]? = some a →
    s.reports[i]? = some r → a.contMode = true → a.stopped = false → r.stopped = false → r.restartRequested = true
  /-- The mode ends. -/
  modeEnds : s.streamer.overrunHandlingMode = true → s.beingHandled = true

/-- **The condition on a call.**  No call of `recv` comes to an overflow while the streamer is in overrun
handling mode and the user has stopped. -/
def Uninterrupted (s : State) : Call → Prop
  | .recv result => ¬ (result = .timeout ∧ s.streamer.stoppedDueToOverrun = true ∧
      s.streamer.overrunHandlingMode = true ∧ s.streamer.lastStreamCmdStop = true)
  | _ => True

instance decidableUninterrupted (s : State) : (a : Call) → Decidable (Uninterrupted s a)
  | .recv _ => inferInstanceAs (Decidable (¬ _))
  | .receive => inferInstanceAs (Decidable True)
  | .overrunReport _ _ => inferInstanceAs (Decidable True)
  | .lateCommandReport _ => inferInstanceAs (Decidable True)
  | .issueStreamCmd _ => inferInstanceAs (Decidable True)
  | .restartReply _ => inferInstanceAs (Decidable True)

/-- What holds between calls, as long as none is interrupted. -/
structure State.Sound (s : State) : Prop extends s.KeepsPromise where
  /-- While a request is out, the streamer is in the mode and the user was told. -/
  requested : 0 < s.restartReqs → s.restartReqs = 1 ∧
    s.streamer.overrunHandlingMode = true ∧ s.streamer.stoppedDueToOverrun = false
  /-- What is known of the overrun that is still to be reported. -/
  pending : s.streamer.stoppedDueToOverrun = true → ∀ a : Arrival,
    s.arrivals[s.reports.length]? = some a → a.received ≤ s.received ∧
      (a.contMode = true → a.stopped = false → s.streamer.overrunHandlingMode = true)

theorem State.beingHandled_iff (s : State) : s.beingHandled = true ↔
    s.streamer.stoppedDueToOverrun = true ∨ 0 < s.restartReqs := by
  rw [State.beingHandled, Bool.or_eq_true, decide_eq_true_eq]

/-! ## One call -/

theorem State.Sound.frame {s t : State} (h : s.Sound)
    (hmode : t.streamer.overrunHandlingMode = s.streamer.overrunHandlingMode)
    (hstopped : t.streamer.stoppedDueToOverrun = s.streamer.stoppedDueToOverrun)
    (hreceived : s.received ≤ t.received) (hreqs : t.restartReqs = s.restartReqs)
    (harrivals : t.arrivals = s.arrivals) (hreports : t.reports = s.reports) : t.Sound where
  reportedOnce := by
    rw [harrivals, hreports, hstopped]
    exact h.reportedOnce
  afterSamples := by
    rw [harrivals, hreports]
    exact h.afterSamples
  restarts := by
    rw [harrivals, hreports]
    exact h.restarts
  modeEnds hm := by
    rw [beingHandled_iff, hstopped, hreqs, ← beingHandled_iff]
    exact h.modeEnds (hmode ▸ hm)
  requested := by
    rw [hreqs, hmode, hstopped]
    exact h.requested
  pending hs a ha := by
    rw [harrivals, hreports] at ha
    rw [hstopped] at hs
    rw [hmode]
    obtain ⟨hle, hcont⟩ := h.pending hs a ha
    exact ⟨Nat.le_trans hle hreceived, hcont⟩

theorem State.Sound.restartReqs_eq_zero {s : State} (h : s.Sound)
    (hnot : ¬ (s.streamer.overrunHandlingMode = true ∧ s.streamer.stoppedDueToOverrun = false)) :
    s.restartReqs = 0 := by
  by_contra hne
  exact hnot (h.requested (Nat.pos_of_ne_zero hne)).2

theorem sound_overrunReport {numChans : ℕ} {s t : State} {port : ℕ} {contMode : Bool}
    (h : s.Sound) (hstep : step numChans s (.overrunReport port contMode) = some t) :
    t.Sound := by
  rw [step, Option.some_inj, handleRxEventAction, if_pos rfl] at hstep
  by_cases hmode : s.streamer.overrunHandlingMode = true
  · rw [if_pos hmode, if_pos (h.modeEnds hmode)] at hstep
    exact hstep ▸ h
  · rw [if_neg hmode] at hstep
    have hreqs : s.restartReqs = 0 := h.restartReqs_eq_zero fun hboth => hmode hboth.1
    by_cases hstopped : s.streamer.stoppedDueToOverrun = true
    · -- the user is still to be told of an earlier overrun, and is told of both at once
      rw [if_pos (s.beingHandled_iff.mpr (Or.inl hstopped))] at hstep
      subst hstep
      refine ⟨⟨?_, h.afterSamples, h.restarts, fun _ => ?_⟩, fun hpos => ?_, fun _ a ha => ?_⟩
      · exact h.reportedOnce.trans (by rw [if_pos hstopped]; rfl)
      · exact (State.beingHandled_iff _).mpr (Or.inl rfl)
      · exact absurd (hreqs ▸ hpos) (Nat.lt_irrefl 0)
      · obtain ⟨hle, hcont⟩ := h.pending hstopped a ha
        exact ⟨hle, fun hc hs => absurd (hcont hc hs) hmode⟩
    · have hlength : s.arrivals.length = s.reports.length := by
        rw [h.reportedOnce, if_neg hstopped, Nat.add_zero]
      have hfree : ¬ s.beingHandled = true := by
        rw [s.beingHandled_iff, hreqs]
        exact fun hor => hor.elim hstopped (Nat.lt_irrefl 0)
      have hnew : ∀ (i : ℕ) (r : Report), s.reports[i]? = some r → i ≠ s.arrivals.length := by
        intro i r hr heq
        rw [heq, hlength, List.getElem?_eq_none (Nat.le_refl _)] at hr
        cases hr
      rw [if_neg hfree] at hstep
      subst hstep
      refine ⟨⟨?_, fun i a r ha hr => ?_, fun i a r ha hr => ?_, fun _ => ?_⟩, fun hpos => ?_,
        fun _ a ha => ?_⟩
      · rw [List.length_append, List.length_singleton, hlength]
        rfl
      · rcases getElem?_concat_eq_some.mp ha with ha | ⟨hi, -⟩
        · exact h.afterSamples i a r ha hr
        · exact absurd hi (hnew i r hr)
      · rcases getElem?_concat_eq_some.mp ha with ha | ⟨hi, -⟩
        · exact h.restarts i a r ha hr
        · exact absurd hi (hnew i r hr)
      · exact (State.beingHandled_iff _).mpr (Or.inl rfl)
      · exact absurd (hreqs ▸ hpos) (Nat.lt_irrefl 0)
      · rw [← hlength] at ha
        rcases getElem?_concat_eq_some.mp ha with ha | ⟨-, rfl⟩
        · rw [List.getElem?_eq_none (Nat.le_refl _)] at ha
          cases ha
        · refine ⟨Nat.le_refl _, fun hc hs => ?_⟩
          dsimp only at hc hs ⊢
          rw [hc, hs]
          rfl

theorem countP_handleOverrun (s : RfnocRxStreamer) :
    (handleOverrun s).countP (fun post => post.action = .rxRestartReq) =
      if s.overrunHandlingMode = true ∧ s.lastStreamCmdStop = false then 1 else 0 := by
  rw [handleOverrun]
  cases s.overrunHandlingMode with
  | false => rfl
  | true =>
    cases s.lastStreamCmdStop with
    | false => rfl
    | true => rfl

theorem step_recv_drained {numChans : ℕ} {s t : State}
    (hstopped : s.streamer.stoppedDueToOverrun = true)
    (hstep : step numChans s (.recv .timeout) = some t) :
    s.delivered = s.received ∧
      t = { s with
        streamer := { s.streamer with stoppedDueToOverrun := false }
        restartReqs := s.restartReqs +
          (handleOverrun s.streamer).countP fun post => post.action = .rxRestartReq
        reports := s.reports ++ [⟨s.delivered, s.streamer.lastStreamCmdStop,
          0 < (handleOverrun s.streamer).countP fun post => post.action = .rxRestartReq⟩] } := by
  have hrecv : getRecvBuffs s.streamer .timeout =
      ({ s.streamer with stoppedDueToOverrun := false }, handleOverrun s.streamer, .overflow) :=
    if_pos ⟨rfl, hstopped⟩
  rw [step, hrecv] at hstep
  obtain ⟨hfits, hstep⟩ := Option.ite_none_right_eq_some.mp hstep
  exact ⟨hfits.2 rfl, (Option.some_inj.mp hstep).symm⟩

theorem sound_recv_drained {numChans : ℕ} {s t : State} (h : s.Sound)
    (hstopped : s.streamer.stoppedDueToOverrun = true)
    (hgood : ¬ (s.streamer.overrunHandlingMode = true ∧ s.streamer.lastStreamCmdStop = true))
    (hstep : step numChans s (.recv .timeout) = some t) : t.Sound := by
  obtain ⟨hall, rfl⟩ := step_recv_drained hstopped hstep
  have hreqs : s.restartReqs = 0 := h.restartReqs_eq_zero fun hboth => by
    rw [hstopped] at hboth
    exact Bool.noConfusion hboth.2
  have hlength : s.arrivals.length = s.reports.length + 1 := by
    rw [h.reportedOnce, if_pos hstopped]
  rw [countP_handleOverrun, hreqs, Nat.zero_add]
  refine ⟨⟨?_, fun i a r ha hr => ?_, fun i a r ha hr hc hs hr' => ?_, fun hm => ?_⟩,
    fun hpos => ?_, fun hs => Bool.noConfusion hs⟩
  · rw [List.length_append, List.length_singleton, hlength]
    rfl
  · rcases getElem?_concat_eq_some.mp hr with hr | ⟨rfl, rfl⟩
    · exact h.afterSamples i a r ha hr
    · exact hall ▸ (h.pending hstopped a ha).1
  · rcases getElem?_concat_eq_some.mp hr with hr | ⟨rfl, rfl⟩
    · exact h.restarts i a r ha hr hc hs hr'
    · have hmode := (h.pending hstopped a ha).2 hc hs
      dsimp only at hr' ⊢
      rw [if_pos ⟨hmode, hr'⟩]
      rfl
  · have hlast : s.streamer.lastStreamCmdStop = false :=
      Bool.eq_false_iff.mpr fun hlast => hgood ⟨hm, hlast⟩
    refine (State.beingHandled_iff _).mpr (Or.inr ?_)
    dsimp only at hm ⊢
    rw [if_pos ⟨hm, hlast⟩]
    exact Nat.one_pos
  · dsimp only at hpos ⊢
    split_ifs at hpos ⊢ with hboth
    · exact ⟨rfl, hboth.1, rfl⟩
    · exact absurd hpos (Nat.lt_irrefl 0)

theorem sound_recv_other {numChans : ℕ} {s t : State} {result : AlignmentResult} (h : s.Sound)
    (hnot : ¬ (result = .timeout ∧ s.streamer.stoppedDueToOverrun = true))
    (hstep : step numChans s (.recv result) = some t) : t.Sound := by
  have hrecv : ∃ late code, getRecvBuffs s.streamer result =
      ({ s.streamer with stoppedDueToLateCmd := late }, [], code) ∧
        ¬ (result = .timeout ∧ code = .overflow) := by
    rw [getRecvBuffs, if_neg hnot]
    split_ifs with hlate
    · exact ⟨false, .lateCommand, rfl, fun hboth => RxErrorCode.noConfusion hboth.2⟩
    · refine ⟨_, errorCodeOf result, rfl, ?_⟩
      rintro ⟨rfl, hcode⟩
      cases hcode
  obtain ⟨late, code, hrecv, hcode⟩ := hrecv
  rw [step, hrecv] at hstep
  obtain ⟨-, hstep⟩ := Option.ite_none_right_eq_some.mp hstep
  rw [Option.some_inj] at hstep
  subst hstep
  exact h.frame rfl rfl (Nat.le_refl _) rfl rfl (if_neg hcode)

theorem sound_step {numChans : ℕ} {s t : State} {a : Call} (h : s.Sound)
    (hstep : step numChans s a = some t) (hgood : Uninterrupted s a) : t.Sound := by
  cases a with
  | receive =>
    rw [step, Option.some_inj] at hstep
    exact hstep ▸ h.frame rfl rfl (Nat.le_succ _) rfl rfl rfl
  | overrunReport port contMode => exact sound_overrunReport h hstep
  | lateCommandReport port =>
    rw [step, Option.some_inj] at hstep
    exact hstep ▸ h.frame rfl rfl (Nat.le_refl _) rfl rfl rfl
  | issueStreamCmd cmd =>
    rw [step, RfnocRxStreamer.issueStreamCmd] at hstep
    split_ifs at hstep with hnow
    · exact (Option.some_inj.mp hstep) ▸ h
    · exact (Option.some_inj.mp hstep) ▸ h.frame rfl rfl (Nat.le_refl _) rfl rfl rfl
  | restartReply cmd =>
    rw [step] at hstep
    split_ifs at hstep with hpos
    obtain ⟨hone, -, hstopped⟩ := h.requested hpos
    rw [Option.some_inj] at hstep
    subst hstep
    refine ⟨⟨h.reportedOnce, h.afterSamples, h.restarts, fun hm => Bool.noConfusion hm⟩,
      fun hpos' => ?_, fun hs => ?_⟩
    · rw [hone] at hpos'
      exact absurd hpos' (Nat.lt_irrefl 0)
    · exact absurd (hs.symm.trans hstopped) Bool.noConfusion
  | recv result =>
    by_cases hdrained : result = .timeout ∧ s.streamer.stoppedDueToOverrun = true
    · obtain ⟨rfl, hstopped⟩ := hdrained
      exact sound_recv_drained h hstopped (fun hboth => hgood ⟨rfl, hstopped, hboth⟩) hstep
    · exact sound_recv_other h hdrained hstep

theorem not_keepsPromise_step {numChans : ℕ} {s t : State} {a : Call} (h : s.Sound)
    (hstep : step numChans s a = some t) (hbad : ¬ Uninterrupted s a) : ¬ t.KeepsPromise := by
  cases a with
  | recv result =>
    obtain ⟨rfl, hstopped, hmode, hlast⟩ := not_not.mp hbad
    obtain ⟨-, rfl⟩ := step_recv_drained hstopped hstep
    have hreqs : s.restartReqs = 0 := h.restartReqs_eq_zero fun hboth => by
      rw [hstopped] at hboth
      exact Bool.noConfusion hboth.2
    intro hkeeps
    have hhandled := (State.beingHandled_iff _).mp (hkeeps.modeEnds hmode)
    dsimp only at hhandled
    have hnone : ¬ (s.streamer.overrunHandlingMode = true ∧
        s.streamer.lastStreamCmdStop = false) := fun hboth => by
      rw [hlast] at hboth
      exact Bool.noConfusion hboth.2
    rw [countP_handleOverrun, if_neg hnone, hreqs] at hhandled
    exact hhandled.elim Bool.noConfusion (Nat.lt_irrefl 0)
  | receive => exact absurd trivial hbad
  | overrunReport port contMode => exact absurd trivial hbad
  | lateCommandReport port => exact absurd trivial hbad
  | issueStreamCmd cmd => exact absurd trivial hbad
  | restartReply cmd => exact absurd trivial hbad

/-! ## Runs -/

/-- **Overruns are handled, unless the user stops in between.**  Overruns are reported once and after
the samples before them, lead to a restart, and leave the mode, in every state that is reached,
exactly if no call of `recv` comes to an overflow in the mode after the user has stopped. -/
theorem keepsPromise_iff (numChans : ℕ) {as : List Call} {t : State}
    (h : run (step numChans) {} as = some t) :
    (∀ bs s, bs <+: as → run (step numChans) {} bs = some s → s.KeepsPromise) ↔
      EveryStep (step numChans) Uninterrupted {} as := by
  have hinit : State.Sound {} := by
    refine ⟨⟨rfl, fun i a r ha => ?_, fun i a r ha => ?_, fun hm => Bool.noConfusion hm⟩,
      fun hpos => absurd hpos (Nat.lt_irrefl 0), fun hs => Bool.noConfusion hs⟩
    · rw [List.getElem?_nil] at ha
      cases ha
    · rw [List.getElem?_nil] at ha
      cases ha
  exact forall_prefix_iff_everyStep (fun s hs => hs.toKeepsPromise)
    (fun s a t hs hstep hgood => sound_step hs hstep hgood)
    (fun s a t hs hstep hbad => not_keepsPromise_step hs hstep hbad) hinit h

/-- The user starts, there is an overrun, and the stream is restarted. -/
theorem keepsPromise_restart :
    ∃ s, run (step 1) {} [.issueStreamCmd { streamMode := .startContinuous }, .receive,
        .overrunReport 0 true, .recv .success, .recv .timeout,
        .restartReply { streamMode := .startContinuous }] = some s ∧ s.KeepsPromise := by
  obtain ⟨s, hs⟩ := Option.isSome_iff_exists.mp (by decide : (run (step 1) {}
    [.issueStreamCmd { streamMode := .startContinuous }, .receive, .overrunReport 0 true,
      .recv .success, .recv .timeout,
      .restartReply { streamMode := .startContinuous }]).isSome = true)
  exact ⟨s, hs, (keepsPromise_iff 1 hs).mpr (by decide) _ s List.prefix_rfl hs⟩

/-- The user stops after an overrun and is told of the overflow: from then on overruns are ignored. -/
theorem overrun_ignored :
    ∃ s, run (step 1) {} [.issueStreamCmd { streamMode := .startContinuous },
        .overrunReport 0 true, .issueStreamCmd { streamMode := .stopContinuous }, .recv .timeout,
        .issueStreamCmd { streamMode := .startContinuous }, .overrunReport 0 true] = some s ∧
      ¬ s.KeepsPromise := by
  obtain ⟨s, hs, hstuck⟩ := Option.map_eq_some_iff.mp (by decide : (run (step 1) {}
    [.issueStreamCmd { streamMode := .startContinuous }, .overrunReport 0 true,
      .issueStreamCmd { streamMode := .stopContinuous }, .recv .timeout,
      .issueStreamCmd { streamMode := .startContinuous }, .overrunReport 0 true]).map
        (fun s => (s.streamer.overrunHandlingMode, s.beingHandled)) = some (true, false))
  rw [Prod.mk.injEq] at hstuck
  refine ⟨s, hs, fun h => ?_⟩
  have hhandled := h.modeEnds hstuck.1
  rw [hstuck.2] at hhandled
  cases hhandled

end Overruns
end Rfnoc
end UhdHost
