import UhdHost.Transport.RecvPacketHandler

/-!
# Which errors the older receive packet handler reports

An error that `get_aligned_buffs` meets is put into the metadata of the current set, and it gets to
the user with the metadata of that call of `recv`, or is queued for the next call.

What happened inside of the calls is compared with what they have returned: the samples one by one,
and the errors between them.

* `Met`: what `get_aligned_buffs` leaves behind, and `Told` the condition under which it does: the
  overflow handler does not flush at an alignment failure, for its metadata are not saved from it as
  they are at an inline message; it does not throw; and the code of an error is that of an error.
* `reported_of_run`: then the calls return just what happened, in its order, and one error may be
  queued at the end.
-/

namespace UhdHost
namespace Transport
namespace RecvHandler

open RecvPacketHandler

variable {n : ℕ}

/-! ## What happened, and what was returned -/

/-- What the user is to see. -/
inductive Report where
  | sample
  | error (code : ℕ)
  deriving DecidableEq

/-- The error of an error code, if it is one other than that nothing came in time. -/
def errorOf (code : ℕ) : List Report :=
  if code = errorCodeNone ∨ code = errorCodeTimeout then [] else [.error code]

/-- What an event is to the user. -/
def Event.report : Event n → List Report
  | .fetched _ _ _ _ => []
  | .failed code _ => [.error code]
  | .copied nsamps _ _ => List.replicate nsamps .sample
  | .threw _ => []

/-- What a call says by what it returns. -/
def reportOf (result : ℕ × Metadata) : List Report :=
  List.replicate result.1 .sample ++ errorOf result.2.errorCode

/-- What happened inside of the calls. -/
def happened (h : RecvPacketHandler n) : List Report := h.trace.flatMap Event.report

/-- What is queued for the next call. -/
def queued (h : RecvPacketHandler n) : List Report :=
  if h.queueErrorForNextCall then errorOf h.queueMetadata.errorCode else []

/-- **What is claimed**: the calls have returned what happened, each error by one call, in order; an
error may be queued for the next call. -/
def Reported (s : Session n) : Prop :=
  happened s.handler = s.returned.flatMap reportOf ++ queued s.handler

/-- **The condition.**  The error has a code that is one of an error, and not the one for nothing in
time.  The overflow handler does not throw, and it does not flush at an alignment failure.  A call
that an exception ends has not copied samples. -/
def Event.Told : Event n → Prop
  | .failed code action =>
    code ≠ errorCodeNone ∧ code ≠ errorCodeTimeout ∧ action ≠ .throws ∧
      (code = errorCodeAlignment → action ≠ .flush)
  | .threw nsamps => nsamps = 0
  | _ => True

theorem errorOf_none : errorOf errorCodeNone = [] := rfl

theorem errorOf_timeout : errorOf errorCodeTimeout = [] := rfl

theorem errorOf_of_told {code : ℕ} {action : OverflowAction}
    (h : (Event.failed code action : Event n).Told) : errorOf code = [.error code] :=
  if_neg (not_or.mpr ⟨h.1, h.2.1⟩)

/-! ## The ring -/

/-- The ring while a set is being filled. -/
structure Aligning (base : List Report) (flag : Bool) (h : RecvPacketHandler n) : Prop where
  code : h.currInfo.metadata.errorCode = errorCodeNone
  next : h.nextInfo.dataBytesToCopy = 0
  other : h.otherInfo.dataBytesToCopy = 0
  happened : happened h = base
  flag : h.queueErrorForNextCall = flag

/-- The ring outside of `get_aligned_buffs`.  A set from which there is something to copy has no
error. -/
structure Idle (base : List Report) (flag : Bool) (h : RecvPacketHandler n) : Prop where
  curr : h.currInfo.dataBytesToCopy ≠ 0 → h.currInfo.metadata.errorCode = errorCodeNone
  other : h.otherInfo.dataBytesToCopy = 0
  happened : happened h = base
  flag : h.queueErrorForNextCall = flag

/-- What `get_aligned_buffs` leaves behind. -/
def Met (base : List Report) (flag : Bool) (result : Except Thrown Unit)
    (h : RecvPacketHandler n) : Prop :=
  match result with
  | .error _ => Idle base flag h
  | .ok _ => Idle (base ++ errorOf h.currInfo.metadata.errorCode) flag h

section Ring

variable {h : RecvPacketHandler n} {cfg : Config} {base : List Report} {flag : Bool}

theorem happened_append (events : List (Event n)) (event : Event n) :
    (events ++ [event]).flatMap Event.report = events.flatMap Event.report ++ event.report := by
  rw [List.flatMap_append, List.flatMap_singleton]

theorem Aligning.fetch (ha : Aligning base flag h) (index : Fin n) :
    Aligning base flag (h.fetch index) where
  code := ha.code
  next := ha.next
  other := ha.other
  happened := by
    refine Eq.trans (happened_append _ _) ?_
    rw [Event.report, List.append_nil]
    exact ha.happened
  flag := ha.flag

theorem alignmentCheck_errorCode (s : BuffersInfo n) (index : Fin n) :
    (s.alignmentCheck index).metadata.errorCode = s.metadata.errorCode := by
  rw [BuffersInfo.alignmentCheck]
  split_ifs <;> rfl

theorem restart_errorCode (s : BuffersInfo n) (index : Fin n) :
    (s.restart index).metadata.errorCode = s.metadata.errorCode := by
  rw [BuffersInfo.restart]
  split_ifs <;> rfl

theorem handleOverflow_keeps (h : RecvPacketHandler n) :
    happened h.handleOverflow = happened h ∧
      (h.currInfo.dataBytesToCopy = 0 → h.handleOverflow.currInfo.dataBytesToCopy = 0) ∧
      h.handleOverflow.otherInfo = h.otherInfo ∧
      h.handleOverflow.queueErrorForNextCall = h.queueErrorForNextCall ∧
      (h.overflowAction ≠ .flush →
        h.handleOverflow.currInfo.metadata = h.currInfo.metadata) := by
  rw [handleOverflow]
  split_ifs with hflush
  · exact ⟨rfl, fun _ => rfl, rfl, rfl, fun hne => absurd hflush hne⟩
  · exact ⟨rfl, id, rfl, rfl, fun _ => rfl⟩

theorem met_callOverflow (hdata : h.currInfo.dataBytesToCopy = 0)
    (hother : h.otherInfo.dataBytesToCopy = 0) (hbase : happened h = base)
    (hflag : h.queueErrorForNextCall = flag) (code : ℕ) :
    Idle (base ++ [.error code]) flag (h.callOverflow code) ∧
      (h.callOverflow code).currInfo.dataBytesToCopy = 0 := by
  obtain ⟨hhappened, hcurr, hoth, hfl, -⟩ :=
    handleOverflow_keeps (h.record (.failed code h.overflowAction))
  refine ⟨⟨fun hne => absurd (hcurr hdata) hne, (congrArg _ hoth).trans hother, ?_, hfl.trans hflag⟩,
    hcurr hdata⟩
  rw [callOverflow, hhappened]
  refine Eq.trans (happened_append _ _) ?_
  rw [Event.report]
  exact congrArg (· ++ [Report.error code]) hbase

theorem Aligning.met_swapWithError (ha : Aligning base flag h) {code : ℕ} :
    Idle base flag (h.swapWithError code) where
  curr := fun hne => absurd ha.next hne
  other := ha.other
  happened := ha.happened
  flag := ha.flag

theorem Aligning.record_failed (ha : Aligning base flag h) (code : ℕ) (action : OverflowAction) :
    Aligning (base ++ [.error code]) flag (h.record (.failed code action)) where
  code := ha.code
  next := ha.next
  other := ha.other
  happened := by
    refine Eq.trans (happened_append _ _) ?_
    rw [Event.report]
    exact congrArg (· ++ [Report.error code]) ha.happened
  flag := ha.flag

theorem told_callOverflow {code : ℕ}
    (htold : ∀ event ∈ (h.callOverflow code).trace, event.Told) :
    (Event.failed code h.overflowAction : Event n).Told := by
  rw [callOverflow, handleOverflow_trace] at htold
  exact htold _ (List.mem_append_right _ List.mem_cons_self)

theorem met_inlineMessage (ha : Aligning base flag h) (index : Fin n)
    (htold : ∀ event ∈ (h.inlineMessage cfg index).2.trace, event.Told) :
    Met base flag (h.inlineMessage cfg index).1 (h.inlineMessage cfg index).2 := by
  rw [inlineMessage] at htold ⊢
  split_ifs at htold ⊢ with hcode hthrows
  · have hfailed := told_callOverflow (h := h.swapWithMessage cfg index) htold
    exact absurd hthrows hfailed.2.2.1
  · have hfailed : (Event.failed errorCodeOverflow _ : Event n).Told :=
      told_callOverflow (h := h.swapWithMessage cfg index) htold
    obtain ⟨hidle, hdata⟩ := met_callOverflow (h := h.swapWithMessage cfg index) ha.next ha.other
      ha.happened ha.flag errorCodeOverflow
    have hmeta : errorOf (h.swapWithMessage cfg index).currInfo.metadata.errorCode =
        [.error errorCodeOverflow] := by
      rw [← errorOf_of_told hfailed, ← hcode]
      rfl
    refine ⟨fun hne => absurd hdata hne, hidle.other, ?_, hidle.flag⟩
    exact hidle.happened.trans (congrArg (base ++ ·) hmeta).symm
  · have hfailed : (Event.failed (h.contextCode index) .nothing : Event n).Told :=
      htold _ (List.mem_append_right _ List.mem_cons_self)
    refine ⟨fun hne => absurd ha.next hne, ha.other, ?_, ha.flag⟩
    refine (happened_append _ _).trans ?_
    rw [Event.report, ← errorOf_of_told hfailed]
    exact congrArg (· ++ errorOf (h.contextCode index)) ha.happened

theorem met_sequenceError (ha : Aligning base flag h) (index : Fin n) :
    Met base flag (.ok ()) (h.sequenceError cfg index) := by
  refine ⟨fun hne => absurd ha.next hne, ha.other, ?_, ha.flag⟩
  exact (ha.record_failed errorCodeOverflow .nothing).happened

theorem met_alignmentFailure (ha : Aligning base flag h)
    (htold : ∀ event ∈ h.alignmentFailure.2.trace, event.Told) :
    Met base flag h.alignmentFailure.1 h.alignmentFailure.2 := by
  have hfailed : (Event.failed errorCodeAlignment h.overflowAction : Event n).Told :=
    told_callOverflow (h := h.swapWithError errorCodeAlignment) htold
  obtain ⟨hidle, hdata⟩ := met_callOverflow (h := h.swapWithError errorCodeAlignment) ha.next
    ha.other ha.happened ha.flag errorCodeAlignment
  rw [alignmentFailure, if_neg hfailed.2.2.1]
  have hmeta : ((h.swapWithError errorCodeAlignment).callOverflow
      errorCodeAlignment).currInfo.metadata.errorCode = errorCodeAlignment := by
    have hkeeps := (handleOverflow_keeps ((h.swapWithError errorCodeAlignment).record
      (.failed errorCodeAlignment h.overflowAction))).2.2.2.2 (hfailed.2.2.2 rfl)
    exact congrArg Metadata.errorCode hkeeps
  refine ⟨fun hne => absurd hdata hne, hidle.other, ?_, hidle.flag⟩
  rw [hmeta, errorOf_of_told hfailed]
  exact hidle.happened

variable [NeZero n]

theorem met_pass (ha : Provided Event.Told (Aligning base flag) h) :
    (∀ outcome, alignPass cfg h = .inl outcome →
        Provided Event.Told (Met base flag outcome.1) outcome.2) ∧
      ∀ h', alignPass cfg h = .inr h' → Provided Event.Told (Aligning base flag) h' := by
  rw [alignPass]
  rcases hfind : h.currInfo.findFirst with _ | index
  · refine ⟨fun outcome houtcome => ?_, fun h' hh' => by cases hh'⟩
    cases houtcome
    refine ha.of_subset (List.Subset.refl _) fun hb => ?_
    refine ⟨fun _ => rfl, hb.other, ?_, hb.flag⟩
    exact hb.happened.trans (List.append_nil base).symm
  · have hfetch : Provided Event.Told (fun _ => Aligning base flag (h.fetch index))
        (h.fetch index) :=
      ha.of_subset (List.subset_append_left _ _) fun hb => hb.fetch index
    simp only
    rcases hresult : (h.process index).result with thrown | packetType
    · refine ⟨fun outcome houtcome => ?_, fun h' hh' => by rcases thrown <;> cases hh'⟩
      have hthrown : Provided Event.Told (Met base flag (.error thrown)) (h.fetch index) :=
        hfetch.of_subset (List.Subset.refl _) fun hb =>
          ⟨fun _ => hb.code, hb.other, hb.happened, hb.flag⟩
      rcases thrown with _ | _ | _ | _
      · cases houtcome
        refine hfetch.of_subset (List.subset_append_left _ _) fun hb => ?_
        exact (hb.record_failed errorCodeBadPacket .nothing).met_swapWithError
      · cases houtcome
        exact hthrown
      · cases houtcome
        exact hthrown
      · cases houtcome
        exact hthrown
    · rcases packetType with _ | _ | _ | _ | _
      · refine ⟨fun outcome houtcome => (by cases houtcome), fun h' hh' => ?_⟩
        cases hh'
        refine hfetch.of_subset (List.Subset.refl _) fun hb => ?_
        exact ⟨(alignmentCheck_errorCode _ _).trans hb.code, hb.next, hb.other, hb.happened,
          hb.flag⟩
      · refine ⟨fun outcome houtcome => (by cases houtcome), fun h' hh' => ?_⟩
        cases hh'
        refine hfetch.of_subset (List.Subset.refl _) fun hb => ?_
        refine ⟨(alignmentCheck_errorCode _ _).trans ?_, hb.next, hb.other, hb.happened, hb.flag⟩
        exact (restart_errorCode _ _).trans hb.code
      · refine ⟨fun outcome houtcome => ?_, fun h' hh' => by cases hh'⟩
        cases houtcome
        intro htold
        have hb := hfetch fun event hevent => htold event (subset_inlineMessage _ _ _ hevent)
        exact met_inlineMessage hb index htold
      · refine ⟨fun outcome houtcome => ?_, fun h' hh' => by cases hh'⟩
        cases houtcome
        refine hfetch.of_subset (List.Subset.refl _) fun hb => ?_
        have hidle : Idle base flag ((h.fetch index).swapWithError errorCodeTimeout) :=
          hb.met_swapWithError
        exact ⟨hidle.curr, hidle.other, hidle.happened.trans (List.append_nil base).symm,
          hidle.flag⟩
      · refine ⟨fun outcome houtcome => ?_, fun h' hh' => by cases hh'⟩
        cases houtcome
        refine hfetch.of_subset (List.subset_append_left _ _) fun hb => ?_
        exact met_sequenceError hb index

theorem met_alignLoop (remaining : ℕ) (ha : Provided Event.Told (Aligning base flag) h) :
    Provided Event.Told (Met base flag (alignLoop cfg remaining h).1)
      (alignLoop cfg remaining h).2 := by
  induction remaining generalizing h with
  | zero =>
    rw [alignLoop]
    obtain ⟨hends, hgoes⟩ : (∀ outcome, alignPass cfg h = .inl outcome →
        Provided Event.Told (Met base flag outcome.1) outcome.2) ∧
      ∀ h', alignPass cfg h = .inr h' → Provided Event.Told (Aligning base flag) h' := met_pass ha
    rcases halign : alignPass cfg h with outcome | h'
    · exact hends outcome halign
    · intro htold
      have hb := hgoes h' halign fun event hevent =>
        htold event (subset_alignmentFailure h' hevent)
      exact met_alignmentFailure hb htold
  | succ remaining ih =>
    rw [alignLoop]
    obtain ⟨hends, hgoes⟩ : (∀ outcome, alignPass cfg h = .inl outcome →
        Provided Event.Told (Met base flag outcome.1) outcome.2) ∧
      ∀ h', alignPass cfg h = .inr h' → Provided Event.Told (Aligning base flag) h' := met_pass ha
    rcases halign : alignPass cfg h with outcome | h'
    · exact hends outcome halign
    · exact ih (hgoes h' halign)

theorem met_getAlignedBuffs (hi : Provided Event.Told (Idle base flag) h) :
    Provided Event.Told (Met base flag (getAlignedBuffs cfg h).1) (getAlignedBuffs cfg h).2 := by
  rw [getAlignedBuffs]
  refine met_alignLoop _ (hi.of_subset (List.Subset.refl _) fun hb => ?_)
  exact ⟨rfl, hb.other, rfl, hb.happened, hb.flag⟩

/-! ## The calls -/

/-- What `recv_one_packet` leaves behind.  It returns samples or an error. -/
def Gave (base : List Report) (flag : Bool) (result : Except Thrown (ℕ × Metadata))
    (h : RecvPacketHandler n) : Prop :=
  match result with
  | .error _ => Idle base flag h
  | .ok got =>
    Idle (base ++ reportOf got) flag h ∧ (got.2.errorCode ≠ errorCodeNone → got.1 = 0)

omit [NeZero n] in
theorem Idle.convertToOutBuff (hi : Idle base flag h) (cfg : Config) (nsamps : ℕ) :
    Idle (base ++ List.replicate (nsamps / cfg.numOutputs) .sample) flag
      (h.convertToOutBuff cfg nsamps) where
  curr := fun hne => hi.curr fun hzero => hne (by
    have hdata : (h.convertToOutBuff cfg nsamps).currInfo.dataBytesToCopy =
        h.currInfo.dataBytesToCopy - nsamps * cfg.bytesPerOtwItem := rfl
    omega)
  other := hi.other
  happened := by
    refine (happened_append _ _).trans ?_
    rw [Event.report]
    exact congrArg (· ++ List.replicate (nsamps / cfg.numOutputs) Report.sample) hi.happened
  flag := hi.flag

omit [NeZero n] in
theorem nsampsToCopy_eq_zero (hdata : h.currInfo.dataBytesToCopy = 0) (nsampsPerBuff : ℕ) :
    nsampsToCopy cfg nsampsPerBuff h = 0 := by
  rw [nsampsToCopy, hdata, Nat.zero_div, Nat.min_zero]

omit [NeZero n] in
theorem gave_copySamples (hmet : Idle (base ++ errorOf h.currInfo.metadata.errorCode) flag h)
    (nsampsPerBuff : ℕ) :
    Gave base flag (h.copySamples cfg nsampsPerBuff).1 (h.copySamples cfg nsampsPerBuff).2 := by
  rw [copySamples]
  have hcopied := hmet.convertToOutBuff cfg (nsampsToCopy cfg nsampsPerBuff h)
  by_cases hcode : h.currInfo.metadata.errorCode = errorCodeNone
  · refine ⟨?_, fun hne => absurd hcode hne⟩
    rw [reportOf, hcode, errorOf_none, List.append_nil]
    rw [hcode, errorOf_none, List.append_nil] at hcopied
    exact hcopied
  · have hdata : h.currInfo.dataBytesToCopy = 0 := not_not.mp fun hne => hcode (hmet.curr hne)
    rw [nsampsToCopy_eq_zero hdata, Nat.zero_div] at hcopied ⊢
    rw [List.replicate_zero, List.append_nil] at hcopied
    exact ⟨hcopied, fun _ => rfl⟩

theorem gave_recvOnePacket (cfg : Config) (hi : Provided Event.Told (Idle base flag) h) (nsampsPerBuff : ℕ) :
    Provided Event.Told (Gave base flag (h.recvOnePacket cfg nsampsPerBuff).1)
      (h.recvOnePacket cfg nsampsPerBuff).2 := by
  have hgot : Provided Event.Told
      (Met base flag
        (if h.currInfo.dataBytesToCopy = 0 then h.getAlignedBuffs cfg else (.ok (), h)).1)
      (if h.currInfo.dataBytesToCopy = 0 then h.getAlignedBuffs cfg else (.ok (), h)).2 := by
    split_ifs with hdata
    · exact met_getAlignedBuffs hi
    · refine hi.of_subset (List.Subset.refl _) fun hb => ?_
      refine ⟨hb.curr, hb.other, ?_, hb.flag⟩
      rw [hb.curr hdata, errorOf_none, List.append_nil]
      exact hb.happened
  rw [recvOnePacket]
  revert hgot
  generalize (if h.currInfo.dataBytesToCopy = 0 then h.getAlignedBuffs cfg else (.ok (), h)) = got
  intro hgot
  rcases got with ⟨thrown | done, h'⟩
  · exact hgot
  · refine hgot.of_subset (List.subset_append_left _ _) fun hmet => ?_
    exact gave_copySamples hmet nsampsPerBuff

/-- What a call leaves behind.  `base` is what happened before it. -/
def Returned (base : List Report) (result : Except Thrown (ℕ × Metadata))
    (h : RecvPacketHandler n) : Prop :=
  match result with
  | .error _ => Idle base false h
  | .ok got => ∃ flag, Idle (base ++ reportOf got ++ queued h) flag h

omit [NeZero n] in
theorem queued_of_false (hflag : h.queueErrorForNextCall = false) : queued h = [] :=
  if_neg (Bool.eq_false_iff.mp hflag)

omit [NeZero n] in
theorem returned_threw {nsamps : ℕ} {thrown : Thrown} (samples : List Report)
    (hsamples : samples = List.replicate nsamps .sample)
    (hi : Provided Event.Told (Idle (base ++ samples) false) h) :
    Provided Event.Told (Returned base (.error thrown)) (h.record (.threw nsamps)) := by
  intro htold
  have hzero : nsamps = 0 := htold (.threw nsamps) (List.mem_append_right _ List.mem_cons_self)
  have hb := hi fun event hevent => htold event (List.mem_append_left _ hevent)
  rw [hsamples, hzero, List.replicate_zero, List.append_nil] at hb
  refine ⟨hb.curr, hb.other, ?_, hb.flag⟩
  refine (happened_append _ _).trans ?_
  rw [Event.report, List.append_nil]
  exact hb.happened

theorem returned_recvLoop {nsampsPerBuff fuel accum : ℕ} {metadata : Metadata}
    {outcome : Outcome n (ℕ × Metadata)} (hcode : metadata.errorCode = errorCodeNone)
    (hi : Provided Event.Told (Idle (base ++ List.replicate accum .sample) false) h)
    (hrecv : recvLoop cfg nsampsPerBuff fuel accum metadata h = some outcome) :
    Provided Event.Told (Returned base outcome.1) outcome.2 := by
  induction fuel generalizing h accum metadata with
  | zero => cases hrecv
  | succ fuel ih =>
    rw [recvLoop] at hrecv
    split_ifs at hrecv with hmore
    · have hpacket := gave_recvOnePacket cfg hi (nsampsPerBuff - accum)
      rcases hone : h.recvOnePacket cfg (nsampsPerBuff - accum) with ⟨thrown | ⟨nsamps, queue⟩, h'⟩
      · rw [hone] at hrecv hpacket
        cases hrecv
        exact returned_threw _ rfl hpacket
      · rw [hone] at hrecv hpacket
        simp only at hrecv
        split_ifs at hrecv with herror hburst
        · cases hrecv
          refine hpacket.of_subset (List.Subset.refl _) fun hgave => ?_
          obtain ⟨hidle, hnone⟩ := hgave
          have hzero : nsamps = 0 := hnone herror
          refine ⟨true, hidle.curr, hidle.other, hidle.happened.trans ?_, rfl⟩
          rw [reportOf, reportOf, hzero, hcode, errorOf_none, List.append_nil, List.replicate_zero,
            List.nil_append]
          rfl
        · cases hrecv
          refine hpacket.of_subset (List.Subset.refl _) fun hgave => ?_
          obtain ⟨hidle, -⟩ := hgave
          have hqueued : queued { h' with queueMetadata := queue } = [] :=
            queued_of_false hidle.flag
          refine ⟨false, hidle.curr, hidle.other, hidle.happened.trans ?_, hidle.flag⟩
          simp only [hqueued]
          rw [reportOf, reportOf, not_not.mp herror, hcode, errorOf_none, List.append_nil,
            List.append_nil, List.append_nil, List.append_assoc, List.replicate_append_replicate]
        · have hcode' : { metadata with endOfBurst := queue.endOfBurst }.errorCode =
              errorCodeNone := hcode
          refine ih hcode' ?_ hrecv
          refine hpacket.of_subset (List.Subset.refl _) fun hgave => ?_
          obtain ⟨hidle, -⟩ := hgave
          refine ⟨hidle.curr, hidle.other, hidle.happened.trans ?_, hidle.flag⟩
          rw [reportOf, not_not.mp herror, errorOf_none, List.append_nil, List.append_assoc,
            List.replicate_append_replicate]
    · cases hrecv
      refine hi.of_subset (List.Subset.refl _) fun hb => ⟨false, hb.curr, hb.other, ?_, hb.flag⟩
      rw [queued_of_false hb.flag, reportOf, hcode, errorOf_none, List.append_nil, List.append_nil]
      exact hb.happened

theorem returned_recvPackets {nsampsPerBuff fuel : ℕ} {onePacket : Bool}
    {outcome : Outcome n (ℕ × Metadata)} (hi : Provided Event.Told (Idle base false) h)
    (hrecv : recvPackets cfg fuel nsampsPerBuff onePacket h = some outcome) :
    Provided Event.Told (Returned base outcome.1) outcome.2 := by
  rw [recvPackets] at hrecv
  have hpacket := gave_recvOnePacket cfg hi nsampsPerBuff
  rcases hone : h.recvOnePacket cfg nsampsPerBuff with ⟨thrown | ⟨nsamps, metadata⟩, h'⟩
  · rw [hone] at hrecv hpacket
    cases hrecv
    refine returned_threw [] rfl ?_
    rw [List.append_nil]
    exact hpacket
  · rw [hone] at hrecv hpacket
    have hreturned : Provided Event.Told (Returned base (.ok (nsamps, metadata))) h' := by
      refine hpacket.of_subset (List.Subset.refl _) fun hgave => ?_
      obtain ⟨hidle, -⟩ := hgave
      refine ⟨false, hidle.curr, hidle.other, hidle.happened.trans ?_, hidle.flag⟩
      rw [queued_of_false hidle.flag, List.append_nil]
    simp only at hrecv
    split_ifs at hrecv with hburst herror
    · cases hrecv
      exact hreturned
    · cases hrecv
      exact hreturned
    · refine returned_recvLoop (not_not.mp herror) ?_ hrecv
      refine hpacket.of_subset (List.Subset.refl _) fun hgave => ?_
      obtain ⟨hidle, -⟩ := hgave
      rw [reportOf, not_not.mp herror, errorOf_none, List.append_nil] at hidle
      exact hidle

/-- What holds of a session between two calls. -/
structure Reporting (s : Session n) : Prop where
  idle : Idle (s.returned.flatMap reportOf ++ queued s.handler) s.handler.queueErrorForNextCall
    s.handler

omit [NeZero n] in
theorem reporting_of_returned {s : Session n} {outcome : Outcome n (ℕ × Metadata)}
    (hreturned : Provided Event.Told (Returned (s.returned.flatMap reportOf) outcome.1) outcome.2) :
    (∀ event ∈ (s.next outcome).handler.trace, event.Told) → Reporting (s.next outcome) := by
  rcases outcome with ⟨thrown | got, h'⟩
  · intro htold
    have hidle : Idle (s.returned.flatMap reportOf) false h' := hreturned htold
    refine ⟨hidle.curr, hidle.other, ?_, rfl⟩
    simp only [Session.next]
    rw [queued_of_false hidle.flag, List.append_nil]
    exact hidle.happened
  · intro htold
    obtain ⟨flag, hidle⟩ := hreturned htold
    refine ⟨hidle.curr, hidle.other, ?_, rfl⟩
    simp only [Session.next]
    rw [List.flatMap_append, List.flatMap_singleton]
    exact hidle.happened

theorem reporting_step {s t : Session n} {call : Call}
    (hs : (∀ event ∈ s.handler.trace, event.Told) → Reporting s)
    (hstep : step cfg s call = some t) :
    (∀ event ∈ t.handler.trace, event.Told) → Reporting t := by
  rcases call with ⟨fuel, nsampsPerBuff, onePacket⟩ | _
  · obtain ⟨outcome, hrecv, rfl⟩ := Option.map_eq_some_iff.mp hstep
    have hbefore : Provided Event.Told (fun _ => Reporting s) s.handler := hs
    have hpackets : ∀ h₀ : RecvPacketHandler n, h₀.trace = s.handler.trace →
        h₀.currInfo = s.handler.currInfo → h₀.otherInfo = s.handler.otherInfo →
        h₀.queueErrorForNextCall = false → queued s.handler = [] →
        recvPackets cfg fuel nsampsPerBuff onePacket h₀ = some outcome →
        Provided Event.Told (Returned (s.returned.flatMap reportOf) outcome.1) outcome.2 := by
      intro h₀ htrace hcurr hother hflag hqueued hpackets
      refine returned_recvPackets ?_ hpackets
      intro htold
      have hidle := (hbefore (htrace ▸ htold)).idle
      rw [hqueued, List.append_nil] at hidle
      refine ⟨hcurr ▸ hidle.curr, hother ▸ hidle.other, ?_, hflag⟩
      exact (congrArg (List.flatMap Event.report) htrace).trans hidle.happened
    rw [recv] at hrecv
    split_ifs at hrecv with hflag htimeout
    · cases hrecv
      intro htold
      obtain ⟨hcurr, hother, hhappened, -⟩ := (hbefore htold).idle
      refine ⟨hcurr, hother, ?_, rfl⟩
      refine hhappened.trans ?_
      simp only [Session.next]
      rw [queued, if_pos hflag, queued_of_false rfl, List.append_nil, List.flatMap_append,
        List.flatMap_singleton]
      rfl
    · have htimeout' := not_not.mp htimeout
      refine reporting_of_returned
        (hpackets { s.handler with queueErrorForNextCall := false } rfl rfl rfl rfl ?_ hrecv)
      rw [queued, if_pos hflag, htimeout', errorOf_timeout]
    · have hflag' := Bool.eq_false_iff.mpr hflag
      exact reporting_of_returned (hpackets _ rfl rfl rfl hflag' (queued_of_false hflag') hrecv)
  · cases hstep
    intro htold
    obtain ⟨hcurr, hother, hhappened, hflag⟩ := (hs htold).idle
    exact ⟨fun hne => absurd rfl hne, hother, hhappened, hflag⟩

end Ring

theorem reporting_start (xports : Fin n → List Fetch) (overflowActions : List OverflowAction) :
    Reporting (start xports overflowActions) :=
  ⟨fun _ => rfl, rfl, rfl, rfl⟩

/-- **Every error is reported once, in order, over whole runs.**  After any sequence of calls, over
any packets, errors and overflow handlers, the calls have returned just what happened inside of them,
samples and errors in their order, apart from one error that is queued for the next call; as long as
every error has a code of its own, the overflow handler neither throws nor flushes at an alignment
failure, and no exception ends a call that has copied samples. -/
theorem reported_of_run [NeZero n] (cfg : Config) (xports : Fin n → List Fetch)
    (overflowActions : List OverflowAction) {calls : List Call} {t : Session n}
    (hrun : Transition.run (step cfg) (start xports overflowActions) calls = some t)
    (htold : ∀ event ∈ t.handler.trace, event.Told) : Reported t := by
  have hreporting : (∀ event ∈ t.handler.trace, event.Told) → Reporting t :=
    Transition.run_invariant
      (I := fun s => (∀ event ∈ s.handler.trace, event.Told) → Reporting s)
      (fun s call s' hh hstep => reporting_step hh hstep)
      (fun _ => reporting_start xports overflowActions) hrun
  exact (hreporting htold).idle.happened

instance (event : Event n) : Decidable event.Told :=
  match event with
  | .fetched _ _ _ _ => inferInstanceAs (Decidable True)
  | .failed code action =>
    inferInstanceAs (Decidable (code ≠ errorCodeNone ∧ code ≠ errorCodeTimeout ∧
      action ≠ .throws ∧ (code = errorCodeAlignment → action ≠ .flush)))
  | .copied _ _ _ => inferInstanceAs (Decidable True)
  | .threw nsamps => inferInstanceAs (Decidable (nsamps = 0))

/-- One output, four bytes a sample, and an alignment that fails at the second packet. -/
def strictConfig : Config where
  alignmentFailureThreshold := 0
  numOutputs := 1
  bytesPerOtwItem := 4
  tickRate := 1000000
  sampRate := 1000000
  numOutputs_pos := one_pos
  bytesPerOtwItem_pos := by norm_num

/-- A data packet of two samples. -/
def dataAt (time : BitVec 64) (count : ℕ) : Fetch :=
  .buffer (.packet ⟨{
    linkType := .chdr, packetCount := count, hasTsf := true, tsf := time
    numPayloadWords32 := 2, numPayloadBytes := 8 }, 0⟩)

/-- An inline message of an overflow. -/
def overflowMessage : Fetch :=
  .buffer (.packet ⟨{ linkType := .chdr, packetType := 1, hasTsf := true, tsf := 9 }, 8⟩)

/-- Samples, an overflow in the middle of a call, a lost packet, and a bad header. -/
def troubled : Fin 1 → List Fetch := fun _ =>
  [dataAt 1 0, overflowMessage, dataAt 5 3, .buffer (.badHeader {}), .timeout]

set_option maxRecDepth 10000 in
theorem reported_troubled :
    ∃ t, Transition.run (step strictConfig) (start troubled [.nothing])
        [.recv 9 9 false, .recv 9 9 false, .recv 9 9 false, .recv 9 9 false] = some t ∧
      t.returned.map (fun result => (result.1, result.2.errorCode)) =
        [(2, errorCodeNone), (0, errorCodeOverflow), (0, errorCodeOverflow), (2, errorCodeNone)] ∧
      Reported t := by
  refine Exists.imp (fun t ht => ⟨ht, ?_, ?_⟩) (Option.isSome_iff_exists.mp rfl)
  · rw [Option.some_inj.mp ht.symm]
    decide
  · refine reported_of_run strictConfig troubled [.nothing] ht ?_
    rw [Option.some_inj.mp ht.symm]
    decide

/-- Two channels whose packets do not have the same time. -/
def unaligned : Fin 2 → List Fetch := fun i => [dataAt (if i = 0 then 1 else 2) 0]

/-- **An error is lost.**  The alignment fails, and the overflow handler flushes the handler and the
error code with it.  The call returns no samples and no error. -/
theorem alignment_failure_lost :
    ∃ t, Transition.run (step strictConfig) (start unaligned [.flush]) [.recv 9 9 false] = some t ∧
      t.returned.map (fun result => (result.1, result.2.errorCode)) = [(0, errorCodeNone)] ∧
      ¬ Reported t := by
  refine Exists.imp (fun t ht => ⟨ht, ?_, ?_⟩) (Option.isSome_iff_exists.mp rfl)
  · rw [Option.some_inj.mp ht.symm]
    decide
  · rw [Option.some_inj.mp ht.symm, Reported]
    decide

end RecvHandler
end Transport
end UhdHost
