import UhdHost.Transport.AlignerRuns

/-!
# Aligning streams whose timestamps increase

On every channel timestamps increase, and packets may be missing, out of sequence, bad or late.
Over any run of calls (`contract_of_run`): every call that succeeds has a packet of every channel,
with one time; no timestamp that is on all channels is skipped; every frame is released once or
still held; and a packet that is out of sequence is reported once, unless the alignment has
failed in between.

Timestamps come out once and in order where every packet has one.  A packet without a time is
taken as it comes, together with whatever the other channels have at the moment, so a timestamp
may come out once for each channel (`time_returned_twice`).
-/

namespace UhdHost
namespace Transport

open GetAlignedBuffs SortedStreams Transition

variable {δ : Type}

/-- The timestamps of the sets that calls have come back with. -/
def Aligner.times (numChans : ℕ) (a : Aligner δ) : List ℕ :=
  a.keys (fun _ _ info => info.tsf) numChans

/-- Which packets are out of sequence. -/
def seqErrors (events : List (RxEvent δ)) : List Bool :=
  events.filterMap fun
    | .packet _ seqError => some seqError
    | _ => none

/-- Timestamps increase on every channel. -/
def Increasing (numChans : ℕ) (streams : ℕ → List (RxEvent δ)) : Prop :=
  ∀ c < numChans, (timestamps (packetsOf (streams c))).Pairwise (· < ·)

instance (numChans : ℕ) (streams : ℕ → List (RxEvent δ)) :
    Decidable (Increasing numChans streams) :=
  inferInstanceAs (Decidable (∀ c < numChans, _))

/-- What is promised of a run of so many calls. -/
structure Aligner.Contract (ignoreSeqErr : Bool) (numChans : ℕ)
    (streams : ℕ → List (RxEvent δ)) (calls : ℕ) (a : Aligner δ) : Prop where
  /-- A call returns, with enough passes. -/
  ends : ∃ passes, ∀ fuel, passes < fuel → ∃ a', a.step ignoreSeqErr numChans fuel = some a'
  /-- A call that succeeds has one packet of every channel, with one time. -/
  sets : ∀ set ∈ a.sets, set.Aligned numChans streams
  /-- Every frame is released once or still held. -/
  frames : ∀ c < numChans,
    (a.chans c).released ++ (a.chans c).frameBuff.toList = List.range (a.chans c).received
  /-- A timestamp that is on all channels has come out when its packet is gone from one. -/
  complete : ∀ t, (∀ c < numChans, t ∈ timestamps (packetsOf (streams c))) →
    ∀ c < numChans, t ∉ timestamps (a.chans c).pending → t ∈ a.times numChans
  /-- After enough calls all of them have come out. -/
  eventually : total numChans load (Aligner.start streams).chans < calls →
    ∀ t, (∀ c < numChans, t ∈ timestamps (packetsOf (streams c))) → t ∈ a.times numChans
  /-- Timestamps come out once and in order where every packet has one. -/
  ordered : AllTimed numChans streams → (a.times numChans).Pairwise (· < ·)
  ignored : ignoreSeqErr = true → AlignmentResult.sequenceError ∉ a.results
  /-- A packet out of sequence is reported once, unless the alignment has failed. -/
  reported : ignoreSeqErr = false → AlignmentResult.alignmentFailure ∉ a.results →
    a.results.count .sequenceError =
      ∑ c ∈ Finset.range numChans,
        ((seqErrors (streams c)).take (a.chans c).received).count true

/-! ## Timestamps as keys -/

theorem keysFrom_tsf (frame : ℕ) (ps : List (RxPacketInfo δ)) :
    keysFrom (fun _ info => info.tsf) frame ps = timestamps ps := by
  induction ps generalizing frame with
  | nil => rfl
  | cons p ps ih =>
    rw [keysFrom, ih]
    cases htsf : p.hasTsf with
    | true => rw [if_pos rfl, timestamps, timestamps, List.filterMap_cons, if_pos htsf]
    | false =>
      rw [if_neg Bool.false_ne_true, timestamps, timestamps, List.filterMap_cons,
        if_neg (Bool.eq_false_iff.mp htsf)]

theorem keys_tsf (ch : RxChannel δ) : ch.keys (fun _ info => info.tsf) = timestamps ch.pending :=
  keysFrom_tsf ..

/-- Timestamps go forward on a channel. -/
structure RxChannel.Forward (ch : RxChannel δ) : Prop where
  increasing : (timestamps ch.pending).Pairwise (· < ·)
  prevTsf : ∀ t ∈ timestamps ch.pending, ch.prevTsf ≤ t

theorem timestamps_of_held {ch : RxChannel δ} (hheld : ch.frameBuff.isSome = true)
    (htsf : ch.info.hasTsf = true) :
    timestamps ch.pending = ch.info.tsf :: timestamps (packetsOf ch.events) := by
  rw [pending_of_isSome hheld, timestamps, List.filterMap_cons, if_pos htsf]
  rfl

theorem receive_prevTsf {ch ch' : RxChannel δ} {r : Option Bool} (h : ch.receive = (ch', r)) :
    ch'.prevTsf = ch.prevTsf := by
  rcases receive_cases ch with ⟨-, hget⟩ | ⟨-, -, hget⟩ | ⟨_, -, -, hget⟩ | ⟨_, -, -, hget⟩ |
    ⟨_, _, _, -, -, hget⟩
  all_goals
    obtain ⟨rfl, -⟩ := Prod.mk.inj (hget.symm.trans h)
    rfl

theorem channelRule_forward : ChannelRule (RxChannel.Forward (δ := δ)) where
  receive ch ch' r h hreceive := by
    obtain ⟨hincreasing, hprev⟩ := h
    rw [← (load_receive hreceive).1] at hincreasing hprev
    rw [← receive_prevTsf hreceive] at hprev
    exact ⟨hincreasing, hprev⟩
  release ch h := by
    have hsub : (timestamps ch.releaseRecvBuff.pending).Sublist (timestamps ch.pending) := by
      rw [pending_releaseRecvBuff, RxChannel.pending]
      exact (List.sublist_append_right _ _).filterMap _
    exact ⟨h.increasing.sublist hsub, fun t ht => h.prevTsf t (hsub.subset ht)⟩
  setPrevTsf ch h hheld htsf := by
    refine ⟨h.increasing, fun t ht => ?_⟩
    have hincreasing := h.increasing
    change t ∈ timestamps ch.pending at ht
    rw [timestamps_of_held hheld htsf] at hincreasing ht
    rcases List.mem_cons.mp ht with rfl | ht
    · exact Nat.le_refl _
    · exact Nat.le_of_lt ((List.pairwise_cons.mp hincreasing).1 t ht)

variable {ignoreSeqErr : Bool} {numChans fuel chan : ℕ} {v : AlignVars}
  {chans chans' : ℕ → RxChannel δ} {result : AlignmentResult}
  {streams : ℕ → List (RxEvent δ)} {a a' : Aligner δ}

theorem agrees_of_forward (haligning : Aligning numChans v chans)
    (hforward : (chans chan).Forward) (hheld : (chans chan).frameBuff.isSome = true) :
    Agrees (fun _ _ info => info.tsf) numChans v chans chan := by
  intro htsf i hi htoI hhas
  have hvalid : v.timeValid = true := by
    cases hvalid : v.timeValid with
    | true => rfl
    | false => cases ((haligning.invalid hvalid).2 i hi htoI).symm.trans hhas
  have hprev : (chans chan).prevTsf ≤ (chans chan).info.tsf := by
    refine hforward.prevTsf _ ?_
    rw [timestamps_of_held hheld htsf]
    exact List.mem_cons_self
  have heq : (chans i).info.tsf = v.tsf := (haligning.agree hvalid i hi htoI hhas).1
  simp only [RxChannel.key, heq]
  split_ifs with hrestarts hsame
  · rcases hrestarts with hinvalid | hback | hlater
    · cases hvalid.symm.trans hinvalid
    · omega
    · exact hlater
  · exact hsame.symm
  · have hnot : ¬ v.tsf < (chans chan).info.tsf := fun hlt => hrestarts (Or.inr (Or.inr hlt))
    omega

theorem everyPass_of_forward (h : ∀ c < numChans, (chans c).Forward) :
    EveryPass (Agrees (fun _ _ info => info.tsf) numChans) ignoreSeqErr numChans fuel {} chans :=
  everyPass_of_invariant
    (passRule_aligning.and (passRule_of_channelRule fun _ => channelRule_forward))
    (fun _ _ _ hI hchan hheld => agrees_of_forward hI.1 (hI.2 _ hchan.lt) hheld) fuel
    ⟨aligning_start numChans chans, h⟩

theorem Aligner.step_channelwise {P : ℕ → RxChannel δ → Prop} (hP : ∀ c, ChannelRule (P c))
    (h : ∀ c < numChans, P c (a.chans c))
    (hstep : a.step ignoreSeqErr numChans fuel = some a') : ∀ c < numChans, P c (a'.chans c) := by
  obtain ⟨chans, result, hcall, hresult⟩ := Aligner.step_cases hstep
  have hchans := loop_channelwise hP h hcall
  intro c hc
  rcases hresult with ⟨-, rfl⟩ | ⟨-, rfl⟩
  · show P c (releaseAll numChans chans c)
    rw [releaseAll_of_lt hc]
    exact (hP c).release _ (hchans c hc)
  · exact hchans c hc

/-! ## Packets out of sequence -/

/-- The packets out of sequence that are still to come. -/
def flagged (ch : RxChannel δ) : ℕ := (seqErrors ch.events).count true

theorem receive_flagged {ch ch' : RxChannel δ} {r : Option Bool} (h : ch.receive = (ch', r)) :
    flagged ch' + (if r = some true then 1 else 0) = flagged ch := by
  rcases receive_cases ch with ⟨-, hget⟩ | ⟨-, -, hget⟩ | ⟨events, -, hevents, hget⟩ |
    ⟨events, -, hevents, hget⟩ | ⟨info, seqError, events, -, hevents, hget⟩
  all_goals obtain ⟨rfl, rfl⟩ := Prod.mk.inj (hget.symm.trans h)
  · rw [if_neg (by decide), Nat.add_zero]
  · rw [if_neg (by decide), Nat.add_zero]
    rfl
  · rw [if_neg (by decide), Nat.add_zero, flagged, flagged, hevents]
    rfl
  · rw [if_neg (by decide), Nat.add_zero, flagged, flagged, hevents]
    rfl
  · have hcons : seqErrors ch.events = seqError :: seqErrors events := by
      rw [hevents]
      rfl
    rw [flagged, flagged, hcons, List.count_cons]
    cases seqError <;> rfl

theorem receive_none {ch ch' : RxChannel δ} {seqError : Bool}
    (h : ch.receive = (ch', some seqError)) (hnone : ch'.frameBuff = none) : seqError = false := by
  refine Bool.eq_false_iff.mpr fun htrue => ?_
  rcases receive_cases ch with ⟨-, hget⟩ | ⟨-, -, hget⟩ | ⟨_, -, -, hget⟩ | ⟨_, -, -, hget⟩ |
    ⟨_, _, _, -, -, hget⟩
  all_goals obtain ⟨hch, hr⟩ := Prod.mk.inj (hget.symm.trans h)
  · cases (Option.some.inj hr).trans htrue
  · cases (Option.some.inj hr).trans htrue
  · cases (Option.some.inj hr).trans htrue
  · cases hr
  · rw [← hch] at hnone
    cases hnone

theorem flagged_alignPacket {v' : AlignVars}
    (h : alignPacket numChans v chans chan = some (v', chans')) (c : ℕ) :
    flagged (chans' c) = flagged (chans c) := by
  have hupdate : ∀ ch : RxChannel δ, ch.events = (chans chan).events →
      flagged (Function.update chans chan ch c) = flagged (chans c) := by
    intro ch hevents
    by_cases hc : c = chan
    · rw [hc, Function.update_self, flagged, flagged, hevents]
    · rw [Function.update_of_ne hc]
  rcases alignPacket_cases numChans v chans chan with
    ⟨-, hsome⟩ | ⟨-, ⟨-, ⟨-, hnone⟩ | ⟨-, hsome⟩⟩ | ⟨-, -, ⟨-, hsome⟩ | ⟨-, hsome⟩⟩⟩
  · obtain ⟨-, rfl⟩ := Prod.mk.inj (Option.some.inj (hsome.symm.trans h))
    rfl
  · cases hnone.symm.trans h
  all_goals obtain ⟨-, rfl⟩ := Prod.mk.inj (Option.some.inj (hsome.symm.trans h))
  · rw [← hupdate (chans chan).setPrevTsf rfl]
    unfold releaseAligned
    split_ifs
    · rfl
    · rfl
  · exact hupdate _ rfl
  · exact hupdate _ rfl

theorem loop_flagged (hloop : loop ignoreSeqErr numChans fuel v chans = some (chans', result)) :
    (ignoreSeqErr = true → result ≠ .sequenceError) ∧
      (ignoreSeqErr = false → result ≠ .alignmentFailure →
        total numChans flagged chans' + (if result = .sequenceError then 1 else 0) =
          total numChans flagged chans) := by
  induction fuel generalizing v chans with
  | zero => cases hloop
  | succ fuel ih =>
    rcases loop_cases hloop with ⟨-, rfl, rfl⟩ | ⟨chan, ch, hchan, hpass⟩
    · exact ⟨fun _ => by decide, fun _ _ => by rw [if_neg (by decide), Nat.add_zero]⟩
    have hsum := total_update flagged chans hchan.lt ch
    rcases hpass with ⟨hreceive, rfl, rfl⟩ | ⟨seqError, hreceive, hpass⟩
    · have hflagged := receive_flagged hreceive
      rw [if_neg (by decide)] at hflagged
      exact ⟨fun _ => by decide, fun _ _ => by rw [if_neg (by decide)]; omega⟩
    have hflagged := receive_flagged hreceive
    rcases hpass with ⟨hnone, rfl, rfl⟩ | ⟨-, hpass⟩
    · rw [receive_none hreceive hnone, if_neg (by decide)] at hflagged
      exact ⟨fun _ => by decide, fun _ _ => by rw [if_neg (by decide)]; omega⟩
    rcases hpass with ⟨-, rfl, rfl⟩ | ⟨v₁, chans₁, halign, hpass⟩
    · exact ⟨fun _ => by decide, fun _ hne => absurd rfl hne⟩
    have hsame : total numChans flagged chans₁ =
        total numChans flagged (Function.update chans chan ch) :=
      total_congr fun c _ => flagged_alignPacket halign c
    rcases hpass with ⟨hseq, rfl, rfl⟩ | ⟨hseq, hloop⟩
    · obtain ⟨rfl, hreport⟩ := Bool.and_eq_true_iff.mp hseq
      rw [if_pos rfl] at hflagged
      refine ⟨fun hignore => ?_, fun _ _ => by rw [if_pos rfl]; omega⟩
      rw [hignore] at hreport
      cases hreport
    · obtain ⟨hignored, hcounted⟩ := ih hloop
      refine ⟨hignored, fun hignore hne => ?_⟩
      rw [hignore, Bool.not_false, Bool.and_true] at hseq
      rw [hseq, if_neg (by decide)] at hflagged
      rw [hcounted hignore hne]
      omega

theorem channelRule_seqErrors (stream : List (RxEvent δ)) :
    ChannelRule fun ch : RxChannel δ =>
      seqErrors ch.events = (seqErrors stream).drop ch.received where
  receive ch ch' r h hreceive := by
    rcases receive_cases ch with ⟨-, hget⟩ | ⟨-, -, hget⟩ | ⟨events, -, hevents, hget⟩ |
      ⟨events, -, hevents, hget⟩ | ⟨info, seqError, events, -, hevents, hget⟩
    all_goals obtain ⟨rfl, rfl⟩ := Prod.mk.inj (hget.symm.trans hreceive)
    · exact h
    · exact h
    · rw [← h, hevents]
      rfl
    · rw [← h, hevents]
      rfl
    · rw [hevents] at h
      show seqErrors events = (seqErrors stream).drop (ch.received + 1)
      rw [← List.tail_drop, ← h]
      rfl
  release _ h := h
  setPrevTsf _ h _ _ := h

/-! ## Runs -/

/-- What holds after every call. -/
structure Aligner.TimesInv (ignoreSeqErr : Bool) (numChans : ℕ) (streams : ℕ → List (RxEvent δ))
    (a : Aligner δ) : Prop where
  forward : ∀ c < numChans, (a.chans c).Forward
  ignored : ignoreSeqErr = true → AlignmentResult.sequenceError ∉ a.results
  reported : ignoreSeqErr = false → AlignmentResult.alignmentFailure ∉ a.results →
    total numChans flagged a.chans + a.results.count .sequenceError =
      total numChans flagged (Aligner.start streams).chans

theorem Aligner.TimesInv.step (h : a.TimesInv ignoreSeqErr numChans streams)
    (hstep : a.step ignoreSeqErr numChans fuel = some a') :
    a'.TimesInv ignoreSeqErr numChans streams := by
  have hforward := Aligner.step_channelwise (fun _ => channelRule_forward) h.forward hstep
  obtain ⟨chans, result, hcall, hresult⟩ := Aligner.step_cases hstep
  obtain ⟨hignored, hcounted⟩ := loop_flagged hcall
  have hresults : a'.results = a.results ++ [result] := by
    rcases hresult with ⟨-, rfl⟩ | ⟨-, rfl⟩
    · rfl
    · rfl
  have hflagged : total numChans flagged a'.chans = total numChans flagged chans := by
    rcases hresult with ⟨-, rfl⟩ | ⟨-, rfl⟩
    · refine total_congr fun c hc => ?_
      show flagged (releaseAll numChans chans c) = flagged (chans c)
      rw [releaseAll_of_lt hc]
      rfl
    · rfl
  refine ⟨hforward, fun hignore hmem => ?_, fun hignore hmem => ?_⟩
  · rw [hresults] at hmem
    rcases List.mem_append.mp hmem with hmem | hmem
    · exact h.ignored hignore hmem
    · exact hignored hignore (List.mem_singleton.mp hmem).symm
  · rw [hresults, List.mem_append, not_or, List.mem_singleton] at hmem
    have hbefore := h.reported hignore hmem.1
    have hcall := hcounted hignore (Ne.symm hmem.2)
    rw [hflagged, hresults, List.count_append, List.count_singleton]
    have hone : (if (result == AlignmentResult.sequenceError) = true then 1 else 0) =
        if result = .sequenceError then 1 else 0 := by
      simp only [beq_iff_eq]
    rw [hone]
    omega

theorem Aligner.timesInv_start (hincreasing : Increasing numChans streams) :
    (Aligner.start streams).TimesInv ignoreSeqErr numChans streams where
  forward c hc := ⟨hincreasing c hc, fun _ _ => Nat.zero_le _⟩
  ignored _ hmem := absurd hmem List.not_mem_nil
  reported _ _ := Nat.add_zero _

theorem mem_streamKeys {t : ℕ} (ht : ∀ c < numChans, t ∈ timestamps (packetsOf (streams c)))
    (c : Fin numChans) : t ∈ streamKeys (fun _ _ info => info.tsf) numChans streams c := by
  rw [streamKeys, keysFrom_tsf]
  exact ht c c.isLt

/-- **What holds over any run of calls.** -/
theorem contract_of_run (hchans : 0 < numChans) (hincreasing : Increasing numChans streams)
    {calls : List ℕ}
    (hrun : run (Aligner.step ignoreSeqErr numChans) (Aligner.start streams) calls = some a) :
    a.Contract ignoreSeqErr numChans streams calls.length := by
  have hstep : ∀ (s : Aligner δ) (call : ℕ) t, s.TimesInv ignoreSeqErr numChans streams →
      s.step ignoreSeqErr numChans call = some t → t.TimesInv ignoreSeqErr numChans streams :=
    fun _ _ _ h hst => h.step hst
  have htimes := run_invariant hstep (Aligner.timesInv_start hincreasing) hrun
  have hsorted : ∀ c, (streamKeys (fun _ _ info => info.tsf) numChans streams c).Pairwise
      (· < ·) := fun c => by
    rw [streamKeys, keysFrom_tsf]
    exact hincreasing c c.isLt
  have hinv : a.Inv (fun _ _ info => info.tsf) numChans streams :=
    Aligner.inv_run hsorted (everyStep_of_invariant hstep
      (fun s _ h => everyPass_of_forward h.forward) (Aligner.timesInv_start hincreasing) calls) hrun
  refine ⟨Aligner.step_ends a, hinv.sets, fun c hc => (hinv.tracks c hc).frames, fun t ht c hc hgone => ?_,
    fun henough t ht => ?_, fun htimed => (hinv.joined htimed).sorted, htimes.ignored,
    fun hignore hmem => ?_⟩
  · refine hinv.skipped t (mem_streamKeys ht) ⟨c, hc⟩ ?_
    show t ∉ (a.chans c).keys _
    rw [keys_tsf]
    exact hgone
  · obtain ⟨c, hc, hzero⟩ := Aligner.exhausted_of_run hchans hrun henough
    refine hinv.skipped t (mem_streamKeys ht) ⟨c, hc⟩ ?_
    show t ∉ (a.chans c).keys _
    rw [keys_of_load_eq_zero hzero]
    exact List.not_mem_nil
  · have hdrop : ∀ c < numChans,
        seqErrors (a.chans c).events = (seqErrors (streams c)).drop (a.chans c).received :=
      run_invariant (I := fun s : Aligner δ => ∀ c < numChans,
          seqErrors (s.chans c).events = (seqErrors (streams c)).drop (s.chans c).received)
        (fun _ _ _ h hst => Aligner.step_channelwise
          (fun c => channelRule_seqErrors (streams c)) h hst) (fun _ _ => rfl) hrun
    have hcount := htimes.reported hignore hmem
    have hsplit : total numChans flagged (Aligner.start streams).chans =
        total numChans flagged a.chans + ∑ c ∈ Finset.range numChans,
          ((seqErrors (streams c)).take (a.chans c).received).count true := by
      rw [total, total, ← Finset.sum_add_distrib]
      refine Finset.sum_congr rfl fun c hc => ?_
      rw [flagged, flagged, hdrop c (Finset.mem_range.mp hc), Nat.add_comm, ← List.count_append,
        List.take_append_drop]
      rfl
    omega

/-- A packet with this timestamp. -/
def timed (tsf : ℕ) (seqError : Bool := false) : RxEvent ℕ :=
  .packet { hasTsf := true, tsf := tsf } seqError

/-- A packet without a time. -/
def untimed : RxEvent ℕ := .packet {} false

/-- Packets that are missing, late, bad and out of sequence. -/
def disturbed (chan : ℕ) : List (RxEvent ℕ) :=
  if chan = 0 then [timed 1, timed 3 true, .timeout, timed 4]
  else [timed 1, timed 2, .badPacket, timed 3, timed 4]

theorem contract_of_disturbed : ∃ a, run (Aligner.step false 2) (Aligner.start disturbed)
      (List.replicate 20 20) = some a ∧ a.times 2 = [1, 3, 4] ∧
      a.results.count .sequenceError = 1 ∧ a.Contract false 2 disturbed 20 := by
  obtain ⟨a, hrun, ha⟩ := Option.map_eq_some_iff.mp
    (by decide +kernel : (run (Aligner.step false 2) (Aligner.start disturbed)
      (List.replicate 20 20)).map
        (fun a => (a.times 2, a.results.count .sequenceError)) = some ([1, 3, 4], 1))
  obtain ⟨htimes, hcount⟩ := Prod.mk.inj ha
  exact ⟨a, hrun, htimes, hcount, contract_of_run (by decide) (by decide) hrun⟩

/-- The packets with a time meet packets without one. -/
def untimedInBetween (chan : ℕ) : List (RxEvent ℕ) :=
  if chan = 0 then [untimed, timed 5] else [timed 5, untimed]

/-- A timestamp that is on both channels comes out twice. -/
theorem time_returned_twice : ∃ a, run (Aligner.step false 2) (Aligner.start untimedInBetween)
      [10, 10] = some a ∧ a.results = [.success, .success] ∧ Increasing 2 untimedInBetween ∧
      (∀ c < 2, 5 ∈ timestamps (packetsOf (untimedInBetween c))) ∧ (a.times 2).count 5 = 2 ∧
      ¬ (a.times 2).Pairwise (· < ·) := by
  obtain ⟨a, hrun, ha⟩ := Option.map_eq_some_iff.mp
    (by decide +kernel : (run (Aligner.step false 2) (Aligner.start untimedInBetween)
      [10, 10]).map (fun a => (a.results, a.times 2)) = some ([.success, .success], [5, 5]))
  obtain ⟨hresults, htimes⟩ := Prod.mk.inj ha
  refine ⟨a, hrun, hresults, by decide, by decide, ?_, ?_⟩
  · rw [htimes]
    decide
  · rw [htimes]
    decide

end Transport
end UhdHost
