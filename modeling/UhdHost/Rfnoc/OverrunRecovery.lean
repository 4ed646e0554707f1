import UhdHost.Rfnoc.RfnocRxStreamer

/-!
# Restarting after an overrun

How a receive streamer and its radios restart a stream: the chain of actions from the overrun that
a radio reports to the stream command that the streamer passes on to all radios, as it goes through
the queue of actions of the graph.  The radios' side is in
`lib/rfnoc/radio_control_impl.cpp`.

Channel by channel, a port of the streamer is connected to a port of a radio; blocks in between
forward actions both ways.  Actions are delivered one after the other, in the order in which they
were posted.  While that goes on, the user issues stream commands and calls `recv`, and radios have
overruns, in any order.

Every message carries a mark (`Cause`) that says why it was posted.  Nothing that is computed depends
on it.
-/

namespace UhdHost
namespace Rfnoc
namespace OverrunRecovery

open Transport Transition RfnocRxStreamer

/-- Why a message was posted. -/
inductive Cause where
  /-- The user issued a stream command. -/
  | user
  /-- An overrun was reported, or radios are stopped because of it. -/
  | overrun
  /-- The stream is to be restarted. -/
  | recovery
  deriving DecidableEq, Repr

/-- The two sides of a channel. -/
inductive Side where
  | radio
  | streamer
  deriving DecidableEq, Repr

/-- An action on its way. -/
structure Message where
  recipient : Side
  port : ℕ
  action : RxAction
  cause : Cause
  deriving DecidableEq

/-- A stream command that a radio has executed. -/
structure Executed where
  port : ℕ
  cmd : StreamCmd
  cause : Cause
  /-- Whether the latest command of the user was a stop. -/
  userStopped : Bool
  deriving DecidableEq

/-- The streamer, the radios, and what is between them. -/
structure Recovery where
  streamer : RfnocRxStreamer := {}
  /-- `_last_stream_cmd` of the radio of a channel -/
  lastStreamCmd : ℕ → StreamCmd := fun _ => { streamMode := .stopContinuous }
  /-- The queue of actions. -/
  queue : List Message := []
  /-- What a user's thread is still to post in `issue_stream_cmd`. -/
  pending : List Message := []
  executed : List Executed := []

/-- What happens next. -/
inductive Event where
  /-- A radio has an overrun. -/
  | overrun (port : ℕ)
  | issueStreamCmd (cmd : StreamCmd)
  /-- A thread of the user posts a command on the next port. -/
  | post
  | recv (result : AlignmentResult)
  /-- The action in front is delivered.  A radio's clock shows `timeNow`. -/
  | deliver (timeNow : TimeSpec)
  deriving DecidableEq

/-- `OVERRUN_RESTART_DELAY` -/
def overrunRestartDelay : TimeSpec := TimeSpec.ofSecs (1 / 20)

/-- What the streamer posts goes to the radios. -/
def toRadios (cause : Cause) (posts : List RxPost) : List Message :=
  posts.map fun p => ⟨.radio, p.port, p.action, cause⟩

/-- The handlers of a radio. -/
def radioHandler (s : Recovery) (port : ℕ) (timeNow : TimeSpec) (cause : Cause) :
    RxAction → Recovery
  | .streamCmd cmd =>
    { s with
      lastStreamCmd := Function.update s.lastStreamCmd port cmd
      executed := s.executed ++ [⟨port, cmd, cause, s.streamer.lastStreamCmdStop⟩] }
  | .rxRestartReq =>
    { s with queue := s.queue ++ [⟨.streamer, port, .streamCmd
      { streamMode := .startContinuous
        streamNow := false
        timeSpec := timeNow + overrunRestartDelay }, .recovery⟩] }
  | .rxEvent _ _ => s

/-- The handlers of the streamer. -/
def streamerHandler (numChans : ℕ) (s : Recovery) (port : ℕ) : RxAction → Recovery
  | .rxEvent errorCode contMode =>
    let (streamer, posts) := handleRxEventAction numChans s.streamer port errorCode contMode
    { s with streamer := streamer, queue := s.queue ++ toRadios .overrun posts }
  | .streamCmd cmd =>
    let (streamer, posts) := handleStreamCmdAction numChans s.streamer cmd
    { s with streamer := streamer, queue := s.queue ++ toRadios .recovery posts }
  | .rxRestartReq => s

/-- One event. -/
def step (numChans : ℕ) (s : Recovery) : Event → Option Recovery
  | .overrun port =>
    if port < numChans then
      some { s with queue := s.queue ++ [⟨.streamer, port, .rxEvent .overflow
        ((s.lastStreamCmd port).streamMode = .startContinuous), .overrun⟩] }
    else none
  | .issueStreamCmd cmd =>
    match RfnocRxStreamer.issueStreamCmd numChans s.streamer cmd with
    | .ok (streamer, posts) =>
      some { s with streamer := streamer, pending := s.pending ++ toRadios .user posts }
    | .error _ => some s
  | .post =>
    match s.pending with
    | [] => none
    | m :: pending => some { s with queue := s.queue ++ [m], pending := pending }
  | .recv result =>
    let (streamer, posts, _) := getRecvBuffs s.streamer result
    some { s with streamer := streamer, queue := s.queue ++ toRadios .recovery posts }
  | .deliver timeNow =>
    match s.queue with
    | [] => none
    | m :: queue =>
      match m.recipient with
      | .radio => some (radioHandler { s with queue := queue } m.port timeNow m.cause m.action)
      | .streamer => some (streamerHandler numChans { s with queue := queue } m.port m.action)

/-- **The promise.**  No radio is started for recovery after the user has stopped. -/
def Recovery.KeepsStopped (s : Recovery) : Prop :=
  ∀ e ∈ s.executed, e.cause = .recovery → e.cmd.streamMode ≠ .stopContinuous →
    e.userStopped = false

/-- The messages of a recovery that are under way. -/
def Recovery.underWay (s : Recovery) : Prop := ∃ m ∈ s.queue, m.cause = .recovery

instance (s : Recovery) : Decidable s.underWay :=
  inferInstanceAs (Decidable (∃ m ∈ s.queue, m.cause = .recovery))

/-- **The condition on an event.**  The user does not stop while a restart request, the reply to one
or the start command that follows is under way. -/
def StopsInTime (s : Recovery) : Event → Prop
  | .issueStreamCmd cmd => cmd.streamMode = .stopContinuous → ¬ s.underWay
  | _ => True

instance decidableStopsInTime (s : Recovery) : (a : Event) → Decidable (StopsInTime s a)
  | .issueStreamCmd cmd =>
    inferInstanceAs (Decidable (cmd.streamMode = .stopContinuous → ¬ s.underWay))
  | .overrun _ => inferInstanceAs (Decidable True)
  | .post => inferInstanceAs (Decidable True)
  | .recv _ => inferInstanceAs (Decidable True)
  | .deliver _ => inferInstanceAs (Decidable True)

/-! ## Marks -/

/-- A restart request, or a command that starts a stream. -/
def Message.restarts (m : Message) : Prop :=
  m.recipient = .radio ∧ m.action = .rxRestartReq ∨
    ∃ cmd, m.action = .streamCmd cmd ∧ cmd.streamMode ≠ .stopContinuous

/-- The mark of a message is right. -/
structure Message.Marked (m : Message) : Prop where
  restarts : m.cause = .recovery → m.restarts
  request : m.action = .rxRestartReq → m.cause = .recovery
  reply : m.recipient = .streamer → ∀ cmd, m.action = .streamCmd cmd → m.cause = .recovery

/-- The marks are right, and nothing is under way where there are no channels. -/
structure Recovery.Marked (numChans : ℕ) (s : Recovery) : Prop where
  queue : ∀ m ∈ s.queue, m.Marked
  pending : ∀ m ∈ s.pending, m.recipient = .radio ∧ m.cause = .user ∧ m.action ≠ .rxRestartReq
  channels : s.queue ≠ [] ∨ s.pending ≠ [] ∨ s.streamer.stoppedDueToOverrun = true → 0 < numChans

theorem Message.marked_of_cause {m : Message} (hrecipient : m.recipient = .radio)
    (hcause : m.cause ≠ .recovery) (haction : m.action ≠ .rxRestartReq) : m.Marked :=
  ⟨fun h => absurd h hcause, fun h => absurd h haction,
    fun h => absurd (hrecipient.symm.trans h) Side.noConfusion⟩

theorem mem_toRadios_postToAll {numChans : ℕ} {cause : Cause} {action : RxAction} {m : Message}
    (h : m ∈ toRadios cause (postToAll numChans action)) :
    m.recipient = .radio ∧ m.action = action ∧ m.cause = cause ∧ m.port < numChans := by
  obtain ⟨p, hp, rfl⟩ := List.mem_map.mp h
  obtain ⟨port, hport, rfl⟩ := List.mem_map.mp hp
  exact ⟨rfl, rfl, rfl, List.mem_range.mp hport⟩

theorem marked_toRadios_postToAll {numChans : ℕ} {cause : Cause} {cmd : StreamCmd} {m : Message}
    (hcause : cause = .recovery → cmd.streamMode ≠ .stopContinuous)
    (h : m ∈ toRadios cause (postToAll numChans (.streamCmd cmd))) : m.Marked := by
  obtain ⟨hrecipient, haction, hc, -⟩ := mem_toRadios_postToAll h
  refine ⟨fun hm => Or.inr ⟨cmd, haction, hcause (hc ▸ hm)⟩, fun hm => ?_, fun hm => ?_⟩
  · rw [haction] at hm
    cases hm
  · rw [hrecipient] at hm
    cases hm

theorem getRecvBuffs_posts (s : RfnocRxStreamer) (result : AlignmentResult) :
    (getRecvBuffs s result).2.1 = [] ∨
      (getRecvBuffs s result).2.1 = [⟨s.overrunChannel, .rxRestartReq⟩] ∧
        s.stoppedDueToOverrun = true ∧ s.lastStreamCmdStop = false := by
  rw [getRecvBuffs]
  split_ifs with hdrained hlate
  · rw [handleOverrun]
    split_ifs with hboth
    · rw [Bool.and_eq_true, Bool.not_eq_true'] at hboth
      exact Or.inr ⟨rfl, hdrained.2, hboth.2⟩
    · exact Or.inl rfl
  · exact Or.inl rfl
  · exact Or.inl rfl

theorem getRecvBuffs_flags (s : RfnocRxStreamer) (result : AlignmentResult) :
    (getRecvBuffs s result).1.lastStreamCmdStop = s.lastStreamCmdStop ∧
      ((getRecvBuffs s result).1.stoppedDueToOverrun = true → s.stoppedDueToOverrun = true) := by
  rw [getRecvBuffs]
  split_ifs with hdrained hlate
  · exact ⟨rfl, fun h => h.elim⟩
  · exact ⟨rfl, id⟩
  · exact ⟨rfl, id⟩

theorem handleRxEventAction_cases (numChans : ℕ) (s : RfnocRxStreamer) (port : ℕ)
    (errorCode : RxErrorCode) (contMode : Bool) :
    (handleRxEventAction numChans s port errorCode contMode).1.lastStreamCmdStop =
        s.lastStreamCmdStop ∧
      ((handleRxEventAction numChans s port errorCode contMode).2 = [] ∨
        (handleRxEventAction numChans s port errorCode contMode).2 =
          postToAll numChans (.streamCmd { streamMode := .stopContinuous })) := by
  rw [handleRxEventAction]
  split_ifs with hoverflow hmode hlate
  · exact ⟨rfl, Or.inl rfl⟩
  · exact ⟨rfl, Or.inr rfl⟩
  · exact ⟨rfl, Or.inl rfl⟩
  · exact ⟨rfl, Or.inl rfl⟩

/-! ## One event -/

/-- What an event can do: messages that are new are marked, and one of them is of recovery only if
the user has not stopped or a recovery was under way. -/
structure Grows (numChans : ℕ) (s t : Recovery) : Prop where
  queue : ∀ m ∈ t.queue, m ∈ s.queue ∨ m.Marked ∧ 0 < numChans ∧
    (m.cause = .recovery → s.streamer.lastStreamCmdStop = false ∨ s.underWay)
  pending : ∀ m ∈ t.pending, m ∈ s.pending ∨
    (m.recipient = .radio ∧ m.cause = .user ∧ m.action ≠ .rxRestartReq) ∧ 0 < numChans
  executed : ∀ e ∈ t.executed, e ∈ s.executed ∨
    e.userStopped = s.streamer.lastStreamCmdStop ∧ (e.cause = .recovery → s.underWay)
  stopped : t.streamer.stoppedDueToOverrun = true →
    s.streamer.stoppedDueToOverrun = true ∨ 0 < numChans

theorem Recovery.Marked.grow {numChans : ℕ} {s t : Recovery} (h : s.Marked numChans)
    (hgrows : Grows numChans s t) : t.Marked numChans where
  queue m hm := by
    rcases hgrows.queue m hm with hm | hm
    · exact h.queue m hm
    · exact hm.1
  pending m hm := by
    rcases hgrows.pending m hm with hm | hm
    · exact h.pending m hm
    · exact hm.1
  channels hor := by
    rcases hor with hqueue | hpending | hstopped
    · obtain ⟨m, hm⟩ := List.exists_mem_of_ne_nil _ hqueue
      rcases hgrows.queue m hm with hm | hm
      · exact h.channels (Or.inl (List.ne_nil_of_mem hm))
      · exact hm.2.1
    · obtain ⟨m, hm⟩ := List.exists_mem_of_ne_nil _ hpending
      rcases hgrows.pending m hm with hm | hm
      · exact h.channels (Or.inr (Or.inl (List.ne_nil_of_mem hm)))
      · exact hm.2
    · rcases hgrows.stopped hstopped with hstopped | hpos
      · exact h.channels (Or.inr (Or.inr hstopped))
      · exact hpos

theorem grows_deliver {numChans : ℕ} {s t : Recovery} {timeNow : TimeSpec}
    (h : s.Marked numChans) (hstep : step numChans s (.deliver timeNow) = some t) :
    Grows numChans s t ∧ t.streamer.lastStreamCmdStop = s.streamer.lastStreamCmdStop := by
  rw [step] at hstep
  cases hqueue : s.queue with
  | nil =>
    rw [hqueue] at hstep
    cases hstep
  | cons m queue =>
    have hm : m ∈ s.queue := hqueue ▸ List.mem_cons_self
    have hrest : ∀ m' ∈ queue, m' ∈ s.queue := fun m' hm' => hqueue ▸ List.mem_cons_of_mem m hm'
    have hpos : 0 < numChans := h.channels (Or.inl (List.ne_nil_of_mem hm))
    have hmarked := h.queue m hm
    rw [hqueue] at hstep
    obtain ⟨recipient, port, action, cause⟩ := m
    cases recipient with
    | radio =>
      dsimp only at hstep
      rw [Option.some_inj] at hstep
      subst hstep
      cases action with
      | streamCmd cmd =>
        refine ⟨⟨fun m' hm' => Or.inl (hrest m' hm'), fun m' hm' => Or.inl hm', fun e he => ?_,
          Or.inl⟩, rfl⟩
        rcases List.mem_append.mp he with he | he
        · exact Or.inl he
        · rw [List.mem_singleton] at he
          subst he
          exact Or.inr ⟨rfl, fun hc => ⟨_, hm, hc⟩⟩
      | rxRestartReq =>
        refine ⟨⟨fun m' hm' => ?_, fun m' hm' => Or.inl hm', fun e he => Or.inl he, Or.inl⟩, rfl⟩
        rcases List.mem_append.mp hm' with hm' | hm'
        · exact Or.inl (hrest m' hm')
        · rw [List.mem_singleton] at hm'
          subst hm'
          refine Or.inr ⟨⟨fun _ => Or.inr ⟨_, rfl, StreamMode.noConfusion⟩, fun _ => rfl,
            fun _ _ _ => rfl⟩, hpos, fun _ => Or.inr ⟨_, hm, hmarked.request rfl⟩⟩
      | rxEvent errorCode contMode =>
        exact ⟨⟨fun m' hm' => Or.inl (hrest m' hm'), fun m' hm' => Or.inl hm',
          fun e he => Or.inl he, Or.inl⟩, rfl⟩
    | streamer =>
      dsimp only at hstep
      rw [Option.some_inj] at hstep
      subst hstep
      cases action with
      | streamCmd cmd =>
        have hcause : cause = .recovery := hmarked.reply rfl cmd rfl
        have hstart : cmd.streamMode ≠ .stopContinuous := by
          rcases hmarked.restarts hcause with hrequest | ⟨cmd', hcmd, hmode⟩
          · cases hrequest.2
          · cases hcmd
            exact hmode
        refine ⟨⟨fun m' hm' => ?_, fun m' hm' => Or.inl hm', fun e he => Or.inl he, Or.inl⟩, rfl⟩
        rcases List.mem_append.mp hm' with hm' | hm'
        · exact Or.inl (hrest m' hm')
        · exact Or.inr ⟨marked_toRadios_postToAll (fun _ => hstart) hm', hpos,
            fun _ => Or.inr ⟨_, hm, hcause⟩⟩
      | rxRestartReq =>
        exact ⟨⟨fun m' hm' => Or.inl (hrest m' hm'), fun m' hm' => Or.inl hm',
          fun e he => Or.inl he, Or.inl⟩, rfl⟩
      | rxEvent errorCode contMode =>
        obtain ⟨hlast, hposts⟩ :=
          handleRxEventAction_cases numChans s.streamer port errorCode contMode
        refine ⟨⟨fun m' hm' => ?_, fun m' hm' => Or.inl hm', fun e he => Or.inl he,
          fun _ => Or.inr hpos⟩, hlast⟩
        rcases List.mem_append.mp hm' with hm' | hm'
        · exact Or.inl (hrest m' hm')
        · have hnew : m' ∈ toRadios .overrun
              (handleRxEventAction numChans s.streamer port errorCode contMode).2 := hm'
          rcases hposts with hposts | hposts
          · rw [hposts] at hnew
            exact absurd hnew List.not_mem_nil
          · rw [hposts] at hnew
            have hcause := (mem_toRadios_postToAll hnew).2.2.1
            refine Or.inr ⟨marked_toRadios_postToAll (fun hc => Cause.noConfusion hc) hnew, hpos,
              fun hc => ?_⟩
            rw [hcause] at hc
            cases hc

theorem grows_step {numChans : ℕ} {s t : Recovery} {a : Event} (h : s.Marked numChans)
    (hstep : step numChans s a = some t) :
    Grows numChans s t ∧
      (t.streamer.lastStreamCmdStop = s.streamer.lastStreamCmdStop ∨
        ∃ cmd, a = .issueStreamCmd cmd ∧ t.queue = s.queue ∧ t.executed = s.executed ∧
          t.streamer.lastStreamCmdStop = decide (cmd.streamMode = .stopContinuous)) := by
  cases a with
  | overrun port =>
    rw [step] at hstep
    obtain ⟨hport, hstep⟩ := Option.ite_none_right_eq_some.mp hstep
    rw [Option.some_inj] at hstep
    subst hstep
    have hpos : 0 < numChans := Nat.lt_of_le_of_lt (Nat.zero_le port) hport
    refine ⟨⟨fun m hm => ?_, fun m hm => Or.inl hm, fun e he => Or.inl he, Or.inl⟩, Or.inl rfl⟩
    rcases List.mem_append.mp hm with hm | hm
    · exact Or.inl hm
    · rw [List.mem_singleton] at hm
      subst hm
      exact Or.inr ⟨⟨fun hc => Cause.noConfusion hc, fun hc => RxAction.noConfusion hc,
        fun _ _ hc => RxAction.noConfusion hc⟩, hpos, fun hc => Cause.noConfusion hc⟩
  | issueStreamCmd cmd =>
    rw [step, RfnocRxStreamer.issueStreamCmd] at hstep
    split_ifs at hstep with hnow
    · rw [Option.some_inj] at hstep
      subst hstep
      exact ⟨⟨fun m hm => Or.inl hm, fun m hm => Or.inl hm, fun e he => Or.inl he, Or.inl⟩,
        Or.inl rfl⟩
    · rw [Option.some_inj] at hstep
      subst hstep
      refine ⟨⟨fun m hm => Or.inl hm, fun m hm => ?_, fun e he => Or.inl he, Or.inl⟩,
        Or.inr ⟨cmd, rfl, rfl, rfl, rfl⟩⟩
      rcases List.mem_append.mp hm with hm | hm
      · exact Or.inl hm
      · obtain ⟨hrecipient, haction, hcause, hport⟩ := mem_toRadios_postToAll hm
        refine Or.inr ⟨⟨hrecipient, hcause, fun hc => ?_⟩,
          Nat.lt_of_le_of_lt (Nat.zero_le _) hport⟩
        rw [haction] at hc
        cases hc
  | post =>
    rw [step] at hstep
    cases hpending : s.pending with
    | nil =>
      rw [hpending] at hstep
      cases hstep
    | cons m pending =>
      have hm : m ∈ s.pending := hpending ▸ List.mem_cons_self
      obtain ⟨hrecipient, hcause, haction⟩ := h.pending m hm
      have hother : m.cause ≠ .recovery := fun hc => Cause.noConfusion (hcause.symm.trans hc)
      rw [hpending] at hstep
      dsimp only at hstep
      rw [Option.some_inj] at hstep
      subst hstep
      refine ⟨⟨fun m' hm' => ?_, fun m' hm' => Or.inl (hpending ▸ List.mem_cons_of_mem m hm'),
        fun e he => Or.inl he, Or.inl⟩, Or.inl rfl⟩
      rcases List.mem_append.mp hm' with hm' | hm'
      · exact Or.inl hm'
      · rw [List.mem_singleton] at hm'
        subst hm'
        exact Or.inr ⟨Message.marked_of_cause hrecipient hother haction,
          h.channels (Or.inr (Or.inl (List.ne_nil_of_mem hm))), fun hc => absurd hc hother⟩
  | recv result =>
    rw [step] at hstep
    dsimp only at hstep
    rw [Option.some_inj] at hstep
    subst hstep
    obtain ⟨hlast, hstopped⟩ := getRecvBuffs_flags s.streamer result
    refine ⟨⟨fun m hm => ?_, fun m hm => Or.inl hm, fun e he => Or.inl he,
      fun hs => Or.inl (hstopped hs)⟩, Or.inl hlast⟩
    rcases List.mem_append.mp hm with hm | hm
    · exact Or.inl hm
    · rcases getRecvBuffs_posts s.streamer result with hposts | ⟨hposts, hover, hnot⟩
      · rw [hposts] at hm
        exact absurd hm List.not_mem_nil
      · rw [hposts] at hm
        have hm := List.mem_singleton.mp hm
        subst hm
        exact Or.inr ⟨⟨fun _ => Or.inl ⟨rfl, rfl⟩, fun _ => rfl, fun hc => Side.noConfusion hc⟩,
          h.channels (Or.inr (Or.inr hover)), fun _ => Or.inl hnot⟩
  | deliver timeNow =>
    obtain ⟨hgrows, hlast⟩ := grows_deliver h hstep
    exact ⟨hgrows, Or.inl hlast⟩

/-! ## Stopping in time -/

/-- What holds between events, as long as the user stops in time. -/
structure Recovery.Quiet (numChans : ℕ) (s : Recovery) : Prop where
  marked : s.Marked numChans
  notUnderWay : s.streamer.lastStreamCmdStop = true → ¬ s.underWay
  keepsStopped : s.KeepsStopped

theorem quiet_step {numChans : ℕ} {s t : Recovery} {a : Event} (h : s.Quiet numChans)
    (hstep : step numChans s a = some t) (hgood : StopsInTime s a) : t.Quiet numChans := by
  obtain ⟨hgrows, hlast⟩ := grows_step h.marked hstep
  refine ⟨h.marked.grow hgrows, fun hstop => ?_, fun e he hcause hmode => ?_⟩
  · rcases hlast with hlast | ⟨cmd, rfl, hqueue, -, hcmd⟩
    · rw [hlast] at hstop
      rintro ⟨m, hm, hcause⟩
      rcases hgrows.queue m hm with hm | ⟨-, -, hwhy⟩
      · exact h.notUnderWay hstop ⟨m, hm, hcause⟩
      · rcases hwhy hcause with hnot | hway
        · exact Bool.noConfusion (hstop.symm.trans hnot)
        · exact h.notUnderWay hstop hway
    · rintro ⟨m, hm, hcause⟩
      rw [hcmd, decide_eq_true_eq] at hstop
      exact hgood hstop ⟨m, hqueue ▸ hm, hcause⟩
  · rcases hgrows.executed e he with he | ⟨hstopped, hway⟩
    · exact h.keepsStopped e he hcause hmode
    · rw [hstopped]
      exact Bool.eq_false_iff.mpr fun hstop => h.notUnderWay hstop (hway hcause)

/-- Whatever comes, short of a command of the user, no radio is started for recovery after the user
has stopped. -/
def Recovery.StaysStopped (numChans : ℕ) (s : Recovery) : Prop :=
  ∀ cs v, (∀ c ∈ cs, ∀ cmd, c ≠ .issueStreamCmd cmd) → run (step numChans) s cs = some v →
    v.KeepsStopped

theorem Recovery.Quiet.staysStopped {numChans : ℕ} {s : Recovery} (h : s.Quiet numChans) :
    s.StaysStopped numChans := by
  intro cs v hcs hrun
  induction cs generalizing s with
  | nil =>
    rw [run_nil, Option.some_inj] at hrun
    exact hrun ▸ h.keepsStopped
  | cons c cs ih =>
    obtain ⟨t, hstep, hrun⟩ := run_cons_eq_some.mp hrun
    have hgood : StopsInTime s c := by
      cases c with
      | issueStreamCmd cmd => exact absurd rfl (hcs _ List.mem_cons_self cmd)
      | overrun port => exact trivial
      | post => exact trivial
      | recv result => exact trivial
      | deliver timeNow => exact trivial
    exact ih (quiet_step h hstep hgood) (fun c' hc' => hcs c' (List.mem_cons_of_mem c hc')) hrun

/-! ## Stopping too late

A message of a recovery that is under way gets to the front of the queue, and leads to the next
message of the chain, until a radio is started. -/

/-- Deliveries alone lead to a radio being started after the user has stopped. -/
def Recovery.WillStart (numChans : ℕ) (s : Recovery) : Prop :=
  ∃ cs v, (∀ c ∈ cs, ∃ timeNow, c = .deliver timeNow) ∧ run (step numChans) s cs = some v ∧
    ¬ v.KeepsStopped

theorem step_deliver_radio (numChans : ℕ) {s : Recovery} {port : ℕ} {action : RxAction}
    {cause : Cause} {rest : List Message} (timeNow : TimeSpec)
    (hqueue : s.queue = ⟨.radio, port, action, cause⟩ :: rest) :
    step numChans s (.deliver timeNow) =
      some (radioHandler { s with queue := rest } port timeNow cause action) := by
  rw [step, hqueue]

theorem step_deliver_streamer (numChans : ℕ) {s : Recovery} {port : ℕ} {action : RxAction}
    {cause : Cause} {rest : List Message} (timeNow : TimeSpec)
    (hqueue : s.queue = ⟨.streamer, port, action, cause⟩ :: rest) :
    step numChans s (.deliver timeNow) =
      some (streamerHandler numChans { s with queue := rest } port action) := by
  rw [step, hqueue]

theorem prefix_radioHandler (s : Recovery) (port : ℕ) (timeNow : TimeSpec) (cause : Cause)
    (action : RxAction) : s.queue <+: (radioHandler s port timeNow cause action).queue := by
  cases action with
  | streamCmd cmd => exact List.prefix_rfl
  | rxRestartReq => exact List.prefix_append _ _
  | rxEvent errorCode contMode => exact List.prefix_rfl

theorem prefix_streamerHandler (numChans : ℕ) (s : Recovery) (port : ℕ) (action : RxAction) :
    s.queue <+: (streamerHandler numChans s port action).queue := by
  cases action with
  | streamCmd cmd => exact List.prefix_append _ _
  | rxRestartReq => exact List.prefix_rfl
  | rxEvent errorCode contMode => exact List.prefix_append _ _

theorem exists_deliver (numChans : ℕ) {s : Recovery} {m : Message} {rest : List Message}
    (hqueue : s.queue = m :: rest) :
    ∃ t, step numChans s (.deliver default) = some t ∧ rest <+: t.queue := by
  obtain ⟨recipient, port, action, cause⟩ := m
  cases recipient with
  | radio =>
    exact ⟨_, step_deliver_radio numChans default hqueue,
      prefix_radioHandler { s with queue := rest } port default cause action⟩
  | streamer =>
    exact ⟨_, step_deliver_streamer numChans default hqueue,
      prefix_streamerHandler numChans { s with queue := rest } port action⟩

theorem Recovery.WillStart.of_step {numChans : ℕ} {s t : Recovery}
    (hstep : step numChans s (.deliver default) = some t) (h : t.WillStart numChans) :
    s.WillStart numChans := by
  obtain ⟨cs, v, hcs, hrun, hnot⟩ := h
  refine ⟨.deliver default :: cs, v, fun c hc => ?_, ?_, hnot⟩
  · rcases List.mem_cons.mp hc with rfl | hc
    · exact ⟨default, rfl⟩
    · exact hcs c hc
  · rw [run_cons, hstep, Option.bind_some, hrun]

theorem willStart_of_front {numChans : ℕ} {m : Message}
    (hfront : ∀ s : Recovery, ∀ rest, s.Marked numChans → s.streamer.lastStreamCmdStop = true →
      s.queue = m :: rest → s.WillStart numChans) :
    ∀ (k : ℕ) (s : Recovery), s.Marked numChans → s.streamer.lastStreamCmdStop = true →
      s.queue[k]? = some m → s.WillStart numChans := by
  intro k
  induction k with
  | zero =>
    intro s hmarked hstop hget
    obtain ⟨rest, hqueue⟩ := List.head?_eq_some_iff.mp (List.head?_eq_getElem? ▸ hget)
    exact hfront s rest hmarked hstop hqueue
  | succ k ih =>
    intro s hmarked hstop hget
    cases hqueue : s.queue with
    | nil =>
      rw [hqueue, List.getElem?_nil] at hget
      cases hget
    | cons m' rest =>
      obtain ⟨t, hstep, hprefix⟩ := exists_deliver numChans hqueue
      obtain ⟨hgrows, hlast⟩ := grows_deliver hmarked hstep
      rw [hqueue, List.getElem?_cons_succ] at hget
      have hget' : t.queue[k]? = some m := by
        obtain ⟨new, hnew⟩ := hprefix
        rw [← hnew, List.getElem?_append_left (List.getElem?_eq_some_iff.mp hget).1, hget]
      exact (ih t (hmarked.grow hgrows) (hlast.trans hstop) hget').of_step hstep

theorem willStart_of_start {numChans port : ℕ} {cmd : StreamCmd}
    (hmode : cmd.streamMode ≠ .stopContinuous) {k : ℕ} {s : Recovery}
    (hmarked : s.Marked numChans) (hstop : s.streamer.lastStreamCmdStop = true)
    (hget : s.queue[k]? = some ⟨.radio, port, .streamCmd cmd, .recovery⟩) :
    s.WillStart numChans := by
  refine willStart_of_front (fun s rest _ hstop hqueue => ?_) k s hmarked hstop hget
  refine ⟨[.deliver default],
    radioHandler { s with queue := rest } port default .recovery (.streamCmd cmd),
    fun c hc => ⟨default, List.mem_singleton.mp hc⟩, ?_, fun hkeeps => ?_⟩
  · rw [run_cons, step_deliver_radio numChans default hqueue, Option.bind_some, run_nil]
  · have hstarted := hkeeps ⟨port, cmd, .recovery, s.streamer.lastStreamCmdStop⟩
      (List.mem_append_right _ List.mem_cons_self) rfl hmode
    exact Bool.noConfusion (hstop.symm.trans hstarted)

theorem willStart_of_reply {numChans port : ℕ} {cmd : StreamCmd} {cause : Cause}
    (hmode : cmd.streamMode ≠ .stopContinuous) {k : ℕ} {s : Recovery}
    (hmarked : s.Marked numChans) (hstop : s.streamer.lastStreamCmdStop = true)
    (hget : s.queue[k]? = some ⟨.streamer, port, .streamCmd cmd, cause⟩) :
    s.WillStart numChans := by
  refine willStart_of_front (fun s rest hmarked hstop hqueue => ?_) k s hmarked hstop hget
  have hpos : 0 < numChans := hmarked.channels (Or.inl (hqueue ▸ List.cons_ne_nil _ _))
  have hstep := step_deliver_streamer numChans default hqueue
  obtain ⟨hgrows, hlast⟩ := grows_deliver hmarked hstep
  have hstart : (⟨.radio, 0, .streamCmd cmd, .recovery⟩ : Message) ∈
      (streamerHandler numChans { s with queue := rest } port (.streamCmd cmd)).queue := by
    refine List.mem_append_right _ (List.mem_map.mpr ⟨⟨0, .streamCmd cmd⟩, ?_, rfl⟩)
    exact List.mem_map.mpr ⟨0, List.mem_range.mpr hpos, rfl⟩
  obtain ⟨j, hj⟩ := List.getElem?_of_mem hstart
  exact (willStart_of_start hmode (hmarked.grow hgrows) (hlast.trans hstop) hj).of_step hstep

theorem willStart_of_request {numChans port : ℕ} {cause : Cause} {k : ℕ} {s : Recovery}
    (hmarked : s.Marked numChans) (hstop : s.streamer.lastStreamCmdStop = true)
    (hget : s.queue[k]? = some ⟨.radio, port, .rxRestartReq, cause⟩) : s.WillStart numChans := by
  refine willStart_of_front (fun s rest hmarked hstop hqueue => ?_) k s hmarked hstop hget
  have hstep := step_deliver_radio numChans default hqueue
  obtain ⟨hgrows, hlast⟩ := grows_deliver hmarked hstep
  obtain ⟨j, hj⟩ := List.getElem?_of_mem (List.mem_append_right rest List.mem_cons_self)
  exact (willStart_of_reply StreamMode.noConfusion (hmarked.grow hgrows) (hlast.trans hstop)
    hj).of_step hstep

theorem Recovery.Marked.willStart {numChans : ℕ} {s : Recovery} (h : s.Marked numChans)
    (hstop : s.streamer.lastStreamCmdStop = true) (hway : s.underWay) : s.WillStart numChans := by
  obtain ⟨⟨recipient, port, action, cause⟩, hm, hcause⟩ := hway
  obtain ⟨k, hk⟩ := List.getElem?_of_mem hm
  dsimp only at hcause
  subst hcause
  rcases (h.queue _ hm).restarts rfl with ⟨hrecipient, haction⟩ | ⟨cmd, haction, hmode⟩
  · dsimp only at hrecipient haction
    subst hrecipient haction
    exact willStart_of_request h hstop hk
  · dsimp only at haction
    subst haction
    cases recipient with
    | radio => exact willStart_of_start hmode h hstop hk
    | streamer => exact willStart_of_reply hmode h hstop hk

theorem not_staysStopped_step {numChans : ℕ} {s t : Recovery} {a : Event} (h : s.Quiet numChans)
    (hstep : step numChans s a = some t) (hbad : ¬ StopsInTime s a) :
    ¬ t.StaysStopped numChans := by
  cases a with
  | issueStreamCmd cmd =>
    obtain ⟨hcmd, hway⟩ := Classical.not_imp.mp hbad
    obtain ⟨hgrows, -⟩ := grows_step h.marked hstep
    rw [step, RfnocRxStreamer.issueStreamCmd, if_neg (fun hnow => hnow.2.2 hcmd)] at hstep
    dsimp only at hstep
    rw [Option.some_inj] at hstep
    obtain ⟨cs, v, hcs, hrun, hnot⟩ : t.WillStart numChans := by
      subst hstep
      exact (h.marked.grow hgrows).willStart (decide_eq_true hcmd) (not_not.mp hway)
    refine fun hstays => hnot (hstays cs v (fun c hc cmd heq => ?_) hrun)
    obtain ⟨timeNow, hdeliver⟩ := hcs c hc
    exact Event.noConfusion (hdeliver.symm.trans heq)
  | overrun port => exact absurd trivial hbad
  | post => exact absurd trivial hbad
  | recv result => exact absurd trivial hbad
  | deliver timeNow => exact absurd trivial hbad

/-! ## Runs -/

/-- **A stop holds, if it comes in time.**  In every state that is reached, whatever comes before the
next command of the user starts no radio for recovery after a stop, exactly if the user never stops
while a restart request, its reply or the start that follows is under way. -/
theorem staysStopped_iff (numChans : ℕ) {as : List Event} {t : Recovery}
    (h : run (step numChans) {} as = some t) :
    (∀ bs s, bs <+: as → run (step numChans) {} bs = some s → s.StaysStopped numChans) ↔
      EveryStep (step numChans) StopsInTime {} as := by
  have hinit : Recovery.Quiet numChans {} := by
    refine ⟨⟨fun m hm => absurd hm List.not_mem_nil, fun m hm => absurd hm List.not_mem_nil,
      fun hor => ?_⟩, fun hstop => Bool.noConfusion hstop,
      fun e he => absurd he List.not_mem_nil⟩
    rcases hor with hne | hne | hstopped
    · exact absurd rfl hne
    · exact absurd rfl hne
    · exact Bool.noConfusion hstopped
  exact forall_prefix_iff_everyStep (fun s hs => hs.staysStopped)
    (fun s a t hs hstep hgood => quiet_step hs hstep hgood)
    (fun s a t hs hstep hbad => not_staysStopped_step hs hstep hbad) hinit h

/-- The radio is restarted, and then the user stops. -/
theorem staysStopped_restarted :
    ∃ s, run (step 1) {} [.issueStreamCmd { streamMode := .startContinuous }, .post,
        .deliver default, .overrun 0, .deliver default, .recv .timeout, .deliver default,
        .deliver default, .deliver default, .deliver default,
        .issueStreamCmd { streamMode := .stopContinuous }, .post, .deliver default] = some s ∧
      s.StaysStopped 1 := by
  obtain ⟨s, hs⟩ := Option.isSome_iff_exists.mp (by decide : (run (step 1) {}
    [.issueStreamCmd { streamMode := .startContinuous }, .post, .deliver default, .overrun 0,
      .deliver default, .recv .timeout, .deliver default, .deliver default, .deliver default,
      .deliver default, .issueStreamCmd { streamMode := .stopContinuous }, .post,
      .deliver default]).isSome = true)
  exact ⟨s, hs, (staysStopped_iff 1 hs).mpr (by decide) _ s List.prefix_rfl hs⟩

/-- The user stops while a restart request is under way: the radio gets the stop, and then the start. -/
theorem started_after_stop :
    ∃ s, run (step 1) {} [.issueStreamCmd { streamMode := .startContinuous }, .post,
        .deliver default, .overrun 0, .deliver default, .recv .timeout, .deliver default,
        .issueStreamCmd { streamMode := .stopContinuous }, .post, .deliver default,
        .deliver default, .deliver default, .deliver default] = some s ∧ ¬ s.KeepsStopped := by
  obtain ⟨s, hs, hlast⟩ := Option.map_eq_some_iff.mp (by decide : (run (step 1) {}
    [.issueStreamCmd { streamMode := .startContinuous }, .post, .deliver default, .overrun 0,
      .deliver default, .recv .timeout, .deliver default,
      .issueStreamCmd { streamMode := .stopContinuous }, .post, .deliver default,
      .deliver default, .deliver default, .deliver default]).map (fun s =>
        s.executed.any fun e => e.cause = .recovery && (e.cmd.streamMode ≠ .stopContinuous) &&
          e.userStopped) = some true)
  refine ⟨s, hs, fun hkeeps => ?_⟩
  obtain ⟨e, he, hall⟩ := List.any_eq_true.mp hlast
  simp only [Bool.and_eq_true, decide_eq_true_eq] at hall
  exact Bool.noConfusion (hall.2.symm.trans (hkeeps e he hall.1.1 hall.1.2))

end OverrunRecovery
end Rfnoc
end UhdHost
