import UhdHost.Rfnoc.ActionQueue

/-!
# Delivering actions and reporting exceptions

What becomes of the actions that are enqueued, and what synchronous calls report.

* Actions are delivered in the order in which they were enqueued, each once, and to their
  recipients.  If the action limit never struck, the actions that are not delivered are the ones
  still in the queue (`Delivers`); and while the graph is not shut down, the action handler can
  always take the next one (`next_is_taken`).
* A synchronous call reports the exception that came up last, whenever that was
  (`Inv.reported_eq`): the saved exception is never forgotten.

So a call that was made while nothing was pending reports what it should if and only if a handler of
its own cascade threw, or nothing ever did (`actionsMeet_iff`).
-/

namespace UhdHost
namespace Rfnoc
namespace Actions

variable {ν α : Type} {g : RfnocGraph ν} {s s' : State ν α}

/-! ## What is kept -/

/-- The actions that were delivered, in this order. -/
def State.deliveredEntries (s : State ν α) : List (Entry ν α) := s.delivered.map (·.entry)

/-- Actions are delivered once, in the order in which they were enqueued, to their recipients; if
none was dropped, those that were not delivered are in the queue. -/
structure Delivers (g : RfnocGraph ν) (s : State ν α) : Prop where
  recipient_eq : ∀ d ∈ s.delivered, recipient g d.entry.srcNode d.entry.srcEdge =
    .ok (some (d.recipientNode, d.recipientPort))
  sublist : (s.deliveredEntries ++ s.queue.filter (hasRecipient g)).Sublist
    (s.enqueued.filter (hasRecipient g))
  complete : s.dropped = [] →
    s.deliveredEntries ++ s.queue.filter (hasRecipient g) = s.enqueued.filter (hasRecipient g)

/-- The exception that came up last. -/
def lastError (thrown : List Thrown) : Option UhdError := thrown.getLast?.map (·.error)

/-- What is saved, and what was reported, is the last exception. -/
structure ReportsLast (s : State ν α) : Prop where
  eptr_eq : s.eptr = lastError s.thrown
  reported_eq : ∀ r ∈ s.returned, r.reported = lastError r.thrownBefore

theorem lastError_concat (thrown : List Thrown) (t : Thrown) :
    lastError (thrown ++ [t]) = some t.error := by
  rw [lastError, List.getLast?_concat]
  rfl

theorem isSome_lastError (thrown : List Thrown) :
    (lastError thrown).isSome = true ↔ thrown ≠ [] := by
  rw [lastError, Option.isSome_map, List.getLast?_isSome]

theorem Delivers.push (h : Delivers g s) (e : Entry ν α) (hqueue : s'.queue = s.queue ++ [e])
    (henqueued : s'.enqueued = s.enqueued ++ [e]) (hdelivered : s'.delivered = s.delivered)
    (hdropped : s'.dropped = s.dropped) : Delivers g s' where
  recipient_eq := by
    rw [hdelivered]
    exact h.recipient_eq
  sublist := by
    rw [State.deliveredEntries, hdelivered, hqueue, henqueued, List.filter_append,
      List.filter_append, ← List.append_assoc]
    exact h.sublist.append_right _
  complete := by
    intro hnone
    rw [hdropped] at hnone
    rw [State.deliveredEntries, hdelivered, hqueue, henqueued, List.filter_append,
      List.filter_append, ← List.append_assoc]
    exact congrArg (· ++ _) (h.complete hnone)

theorem Delivers.congr (h : Delivers g s) (hqueue : s'.queue = s.queue)
    (henqueued : s'.enqueued = s.enqueued) (hdelivered : s'.delivered = s.delivered)
    (hdropped : s'.dropped = s.dropped) : Delivers g s' where
  recipient_eq := by
    rw [hdelivered]
    exact h.recipient_eq
  sublist := by
    rw [State.deliveredEntries, hdelivered, hqueue, henqueued]
    exact h.sublist
  complete := by
    rw [hdropped, State.deliveredEntries, hdelivered, hqueue, henqueued]
    exact h.complete

theorem Delivers.skip (h : Delivers g s) {e : Entry ν α} {rest : List (Entry ν α)}
    (he : s.queue = e :: rest) (hnone : hasRecipient g e = false) (hqueue : s'.queue = rest)
    (henqueued : s'.enqueued = s.enqueued) (hdelivered : s'.delivered = s.delivered)
    (hdropped : s'.dropped = s.dropped) : Delivers g s' where
  recipient_eq := by
    rw [hdelivered]
    exact h.recipient_eq
  sublist := by
    have hsub := h.sublist
    rw [he, List.filter_cons_of_neg (by simp [hnone])] at hsub
    rw [State.deliveredEntries, hdelivered, hqueue, henqueued]
    exact hsub
  complete := by
    intro hnodrop
    rw [hdropped] at hnodrop
    have heq := h.complete hnodrop
    rw [he, List.filter_cons_of_neg (by simp [hnone])] at heq
    rw [State.deliveredEntries, hdelivered, hqueue, henqueued]
    exact heq

theorem Delivers.deliver (h : Delivers g s) {e : Entry ν α} {rest : List (Entry ν α)} {n : ν}
    {port : ResSourceInfo} (he : s.queue = e :: rest)
    (hrecipient : recipient g e.srcNode e.srcEdge = .ok (some (n, port)))
    (hqueue : s'.queue = rest) (henqueued : s'.enqueued = s.enqueued)
    (hdelivered : s'.delivered = s.delivered ++ [⟨e, n, port⟩])
    (hdropped : s'.dropped = s.dropped) : Delivers g s' where
  recipient_eq := by
    intro d hd
    rw [hdelivered] at hd
    rcases List.mem_append.mp hd with hd | hd
    · exact h.recipient_eq d hd
    · rw [List.mem_singleton.mp hd]
      exact hrecipient
  sublist := by
    have hsub := h.sublist
    have hhas : hasRecipient g e = true := by rw [hasRecipient, hrecipient]
    rw [he, List.filter_cons_of_pos hhas] at hsub
    rw [State.deliveredEntries, hdelivered, hqueue, henqueued, List.map_append, List.append_assoc]
    exact hsub
  complete := by
    intro hnodrop
    rw [hdropped] at hnodrop
    have heq := h.complete hnodrop
    have hhas : hasRecipient g e = true := by rw [hasRecipient, hrecipient]
    rw [he, List.filter_cons_of_pos hhas] at heq
    rw [State.deliveredEntries, hdelivered, hqueue, henqueued, List.map_append, List.append_assoc]
    exact heq

/-! ## One step -/

theorem delivers_iterate (hcommitted : g.releaseCount = 0) (h : Delivers g s) (n : ℕ) :
    Delivers g (s.iterate g n) := by
  unfold State.iterate
  split
  · exact h.congr rfl rfl rfl rfl
  · rename_i nextAction rest hqueue
    rw [if_neg (not_not.mpr hcommitted)]
    split_ifs
    · exact h.congr rfl rfl rfl rfl
    · -- the action limit
      refine ⟨h.recipient_eq, ?_, fun hnone => ?_⟩
      · exact ((List.sublist_append_left _ _).append_left _).trans h.sublist
      · have hlost := (List.append_eq_nil_iff.mp hnone).2
        rw [hqueue] at hlost
        exact absurd hlost (List.cons_ne_nil _ _)
    · split
      · rename_i e herror
        exact h.skip hqueue (by rw [hasRecipient, herror]) rfl rfl rfl rfl
      · rename_i hnobody
        exact h.skip hqueue (by rw [hasRecipient, hnobody]) rfl rfl rfl rfl
      · rename_i recipientNode recipientPort hrecipient
        exact h.deliver hqueue hrecipient rfl rfl rfl rfl

theorem ReportsLast.congr (h : ReportsLast s) (heptr : s'.eptr = s.eptr)
    (hthrown : s'.thrown = s.thrown) (hreturned : s'.returned = s.returned) : ReportsLast s' where
  eptr_eq := by rw [heptr, hthrown, h.eptr_eq]
  reported_eq := hreturned ▸ h.reported_eq

theorem ReportsLast.throw (h : ReportsLast s) {t : Thrown} (heptr : s'.eptr = some t.error)
    (hthrown : s'.thrown = s.thrown ++ [t]) (hreturned : s'.returned = s.returned) :
    ReportsLast s' where
  eptr_eq := by rw [heptr, hthrown, lastError_concat]
  reported_eq := hreturned ▸ h.reported_eq

/-- What holds in every state. -/
structure Inv (g : RfnocGraph ν) (s : State ν α) : Prop where
  delivers : Delivers g s
  reports : ReportsLast s
  shutdown_of_terminated : s.phase = .terminated → s.shutdown = true

theorem inv_init : Inv g ({} : State ν α) where
  delivers := ⟨fun _ hd => absurd hd List.not_mem_nil, List.Sublist.refl _, fun _ => rfl⟩
  reports := ⟨rfl, fun _ hr => absurd hr List.not_mem_nil⟩
  shutdown_of_terminated := fun h => absurd h (by simp)

theorem Inv.enqueueAction (h : Inv g s) (srcNode : ν) (srcEdge : ResSourceInfo) (action : α)
    (sync : Bool) : Inv g (s.enqueueAction srcNode srcEdge action sync) := by
  unfold State.enqueueAction
  split_ifs
  · exact h
  · exact ⟨h.delivers.push _ rfl rfl rfl rfl, h.reports.congr rfl rfl rfl,
      h.shutdown_of_terminated⟩
  · exact ⟨h.delivers.push _ rfl rfl rfl rfl, h.reports.congr rfl rfl rfl,
      h.shutdown_of_terminated⟩

theorem Inv.syncReturns (h : Inv g s) {sync : SyncCall} (hstep : s.syncReturns sync = some s') :
    Inv g s' := by
  unfold State.syncReturns at hstep
  split_ifs at hstep
  obtain rfl := Option.some.inj hstep
  refine ⟨h.delivers.congr rfl rfl rfl rfl, ⟨h.reports.eptr_eq, fun r hr => ?_⟩,
    h.shutdown_of_terminated⟩
  rcases List.mem_append.mp hr with hr | hr
  · exact h.reports.reported_eq r hr
  · rw [List.mem_singleton.mp hr]
    exact h.reports.eptr_eq

theorem Inv.wake (h : Inv g s) (hstep : s.wake = some s') : Inv g s' := by
  unfold State.wake at hstep
  split at hstep
  · split_ifs at hstep with hshutdown
    · obtain rfl := Option.some.inj hstep
      exact ⟨h.delivers.congr rfl rfl rfl rfl, h.reports.congr rfl rfl rfl, fun _ => hshutdown⟩
    · obtain rfl := Option.some.inj hstep
      exact ⟨h.delivers.congr rfl rfl rfl rfl, h.reports.congr rfl rfl rfl,
        fun hphase => absurd hphase (by simp)⟩
  · exact absurd hstep (by simp)

theorem phase_iterate_ne_terminated (s : State ν α) (n : ℕ) :
    (s.iterate g n).phase ≠ .terminated := by
  unfold State.iterate
  split
  · simp
  · split_ifs
    · simp
    · simp
    · simp
    · split <;> simp

theorem Inv.iterate (hcommitted : g.releaseCount = 0) (h : Inv g s) (n : ℕ) :
    Inv g (s.iterate g n) := by
  refine ⟨delivers_iterate hcommitted h.delivers n, ?_, ?_⟩
  · unfold State.iterate
    split
    · exact h.reports.congr rfl rfl rfl
    · split_ifs
      · exact h.reports.congr rfl rfl rfl
      · exact h.reports.congr rfl rfl rfl
      · exact h.reports.congr rfl rfl rfl
      · split
        · exact h.reports.throw rfl rfl rfl
        · exact h.reports.congr rfl rfl rfl
        · exact h.reports.congr rfl rfl rfl
  · exact fun hphase => absurd hphase (phase_iterate_ne_terminated s n)

theorem Inv.post (h : Inv g s) {srcNode : ν} {srcEdge : ResSourceInfo} {action : α}
    (hstep : s.post srcNode srcEdge action = some s') : Inv g s' := by
  unfold State.post at hstep
  split at hstep
  · split_ifs at hstep
    · exact Option.some.inj hstep ▸ h
    · obtain rfl := Option.some.inj hstep
      exact ⟨h.delivers.push _ rfl rfl rfl rfl, h.reports.congr rfl rfl rfl,
        h.shutdown_of_terminated⟩
  · exact absurd hstep (by simp)

theorem Inv.handlerReturns (h : Inv g s) (hstep : s.handlerReturns = some s') : Inv g s' := by
  unfold State.handlerReturns at hstep
  split at hstep
  · obtain rfl := Option.some.inj hstep
    exact ⟨h.delivers.congr rfl rfl rfl rfl, h.reports.congr rfl rfl rfl,
      fun hphase => absurd hphase (by simp)⟩
  · exact absurd hstep (by simp)

theorem Inv.handlerThrows (h : Inv g s) {error : UhdError}
    (hstep : s.handlerThrows error = some s') : Inv g s' := by
  unfold State.handlerThrows at hstep
  split at hstep
  · obtain rfl := Option.some.inj hstep
    exact ⟨h.delivers.congr rfl rfl rfl rfl, h.reports.throw rfl rfl rfl,
      fun hphase => absurd hphase (by simp)⟩
  · exact absurd hstep (by simp)

theorem Inv.leave (h : Inv g s) (hstep : s.leave = some s') : Inv g s' := by
  unfold State.leave at hstep
  split at hstep
  · obtain rfl := Option.some.inj hstep
    exact ⟨h.delivers.congr rfl rfl rfl rfl, h.reports.congr rfl rfl rfl,
      fun hphase => absurd hphase (by simp)⟩
  · exact absurd hstep (by simp)

theorem inv_step (hcommitted : g.releaseCount = 0) (s : State ν α) (a : Step ν α)
    (s' : State ν α) (h : Inv g s) (hstep : s.step g a = some s') : Inv g s' := by
  cases a with
  | enqueueAction srcNode srcEdge action sync =>
    exact Option.some.inj hstep ▸ h.enqueueAction srcNode srcEdge action sync
  | syncReturns sync => exact h.syncReturns hstep
  | wake => exact h.wake hstep
  | iterate =>
    unfold State.step at hstep
    dsimp only at hstep
    split at hstep
    · exact Option.some.inj hstep ▸ h.iterate hcommitted _
    · exact absurd hstep (by simp)
  | post srcNode srcEdge action => exact h.post hstep
  | handlerReturns => exact h.handlerReturns hstep
  | handlerThrows error => exact h.handlerThrows hstep
  | leave => exact h.leave hstep
  | shutdown =>
    obtain rfl := Option.some.inj hstep
    exact ⟨h.delivers.congr rfl rfl rfl rfl, h.reports.congr rfl rfl rfl, fun _ => rfl⟩

/-! ## Cascades -/

/-- The action is in the queue or is being handled. -/
def Pending (s : State ν α) (e : Entry ν α) : Prop :=
  e ∈ s.queue ∨ ∃ n, s.phase = .handling n e

/-- The numbers of the calls are given out one after the other, the flag is set while the queue is
processed, and when a call has returned, its cascade is over. -/
structure Cascades (s : State ν α) : Prop where
  pending_lt : ∀ e, Pending s e → e.call < s.numCalls
  waiting_lt : ∀ w ∈ s.waiting, w.call < s.numCalls
  not_processing : s.processing = false → s.phase = .waiting ∨ s.phase = .terminated
  cascade_over : ∀ r ∈ s.returned, r.shutDown = false → r.sync.call < s.numCalls ∧
    (∀ e, Pending s e → e.call ≠ r.sync.call) ∧
    ∀ t ∈ s.thrown, t.call = r.sync.call → t ∈ r.thrownBefore

theorem cascades_init : Cascades ({} : State ν α) where
  pending_lt := by
    rintro e (he | ⟨n, hn⟩)
    · exact absurd he List.not_mem_nil
    · exact absurd hn (by simp)
  waiting_lt := fun _ hw => absurd hw List.not_mem_nil
  not_processing := fun _ => Or.inl rfl
  cascade_over := fun _ hr => absurd hr List.not_mem_nil

theorem Cascades.handlerStep (h : Cascades s)
    (hpending : ∀ e, Pending s' e → ∃ e', Pending s e' ∧ e'.call = e.call)
    (hthrown : ∀ t ∈ s'.thrown, t ∈ s.thrown ∨ ∃ e, Pending s e ∧ e.call = t.call)
    (hnumCalls : s'.numCalls = s.numCalls) (hwaiting : s'.waiting = s.waiting)
    (hreturned : s'.returned = s.returned)
    (hprocessing : s'.processing = false → s'.phase = .waiting ∨ s'.phase = .terminated) :
    Cascades s' where
  pending_lt := by
    intro e he
    obtain ⟨e', he', hcall⟩ := hpending e he
    rw [← hcall, hnumCalls]
    exact h.pending_lt e' he'
  waiting_lt := by
    rw [hwaiting, hnumCalls]
    exact h.waiting_lt
  not_processing := hprocessing
  cascade_over := by
    intro r hr hrunning
    rw [hreturned] at hr
    obtain ⟨hlt, hne, hbefore⟩ := h.cascade_over r hr hrunning
    refine ⟨hnumCalls.symm ▸ hlt, fun e he => ?_, fun t ht hcall => ?_⟩
    · obtain ⟨e', he', hcall⟩ := hpending e he
      exact hcall ▸ hne e' he'
    · rcases hthrown t ht with ht | ⟨e, he, hfrom⟩
      · exact hbefore t ht hcall
      · exact absurd (hfrom.trans hcall) (hne e he)

theorem Cascades.enqueueAction (h : Cascades s) (srcNode : ν) (srcEdge : ResSourceInfo)
    (action : α) (sync : Bool) : Cascades (s.enqueueAction srcNode srcEdge action sync) := by
  by_cases hshutdown : s.shutdown = true
  · rw [State.enqueueAction, if_pos hshutdown]
    exact h
  rw [State.enqueueAction, if_neg hshutdown]
  refine ⟨fun e he => ?_, fun w hw => ?_, h.not_processing, fun r hr hrunning => ?_⟩
  · rcases he with he | ⟨n, hn⟩
    · rcases List.mem_append.mp he with he | he
      · exact Nat.lt_succ_of_lt (h.pending_lt e (Or.inl he))
      · rw [List.mem_singleton.mp he]
        exact Nat.lt_succ_self _
    · exact Nat.lt_succ_of_lt (h.pending_lt e (Or.inr ⟨n, hn⟩))
  · dsimp only at hw
    split_ifs at hw
    · rcases List.mem_append.mp hw with hw | hw
      · exact Nat.lt_succ_of_lt (h.waiting_lt w hw)
      · rw [List.mem_singleton.mp hw]
        exact Nat.lt_succ_self _
    · exact Nat.lt_succ_of_lt (h.waiting_lt w hw)
  · obtain ⟨hlt, hne, hbefore⟩ := h.cascade_over r hr hrunning
    refine ⟨Nat.lt_succ_of_lt hlt, fun e he => ?_, hbefore⟩
    rcases he with he | ⟨n, hn⟩
    · rcases List.mem_append.mp he with he | he
      · exact hne e (Or.inl he)
      · rw [List.mem_singleton.mp he]
        exact (Nat.ne_of_lt hlt).symm
    · exact hne e (Or.inr ⟨n, hn⟩)

theorem Cascades.syncReturns (h : Cascades s) {sync : SyncCall}
    (hstep : s.syncReturns sync = some s') : Cascades s' := by
  unfold State.syncReturns at hstep
  split_ifs at hstep with hreturns
  obtain rfl := Option.some.inj hstep
  refine ⟨h.pending_lt, fun w hw => h.waiting_lt w (List.mem_filter.mp hw).1, h.not_processing,
    fun r hr hrunning => ?_⟩
  rcases List.mem_append.mp hr with hr | hr
  · exact h.cascade_over r hr hrunning
  · obtain rfl := List.mem_singleton.mp hr
    -- the call returns because nothing is pending
    have hidle : s.idle = true := hreturns.2.resolve_right fun hshutdown =>
      absurd (hshutdown.symm.trans hrunning) (by simp)
    rw [State.idle, Bool.and_eq_true, List.isEmpty_iff, Bool.not_eq_true'] at hidle
    refine ⟨h.waiting_lt sync hreturns.1, ?_, fun t ht _ => ht⟩
    rintro e (he | ⟨n, hn⟩)
    · have hempty : e ∈ ([] : List (Entry ν α)) := hidle.1 ▸ he
      exact absurd hempty List.not_mem_nil
    · have hphase : s.phase = .handling n e := hn
      rcases h.not_processing hidle.2 with hphase' | hphase'
      · exact absurd (hphase.symm.trans hphase') (by simp)
      · exact absurd (hphase.symm.trans hphase') (by simp)

theorem pending_of_queue (hqueue : s'.queue = s.queue)
    (hphase : ∀ n e, s'.phase ≠ .handling n e) :
    ∀ e, Pending s' e → ∃ e', Pending s e' ∧ e'.call = e.call := by
  rintro e (he | ⟨n, hn⟩)
  · exact ⟨e, Or.inl (hqueue ▸ he), rfl⟩
  · exact absurd hn (hphase n e)

theorem Cascades.wake (h : Cascades s) (hstep : s.wake = some s') : Cascades s' := by
  unfold State.wake at hstep
  split at hstep
  · split_ifs at hstep
    · obtain rfl := Option.some.inj hstep
      exact h.handlerStep (pending_of_queue rfl (by simp))
        (fun t ht => Or.inl ht) rfl rfl rfl fun _ => Or.inr rfl
    · obtain rfl := Option.some.inj hstep
      exact h.handlerStep (pending_of_queue rfl (by simp))
        (fun t ht => Or.inl ht) rfl rfl rfl fun hflag => absurd hflag (by simp)
  · exact absurd hstep (by simp)

theorem pending_iterate {n : ℕ} {e : Entry ν α} (hphase : s.phase = .looping n)
    (he : Pending (s.iterate g n) e) : Pending s e := by
  have hold : ∀ e, (∃ m, s.phase = .handling m e) → False := by
    rintro e ⟨m, hm⟩
    exact absurd (hphase.symm.trans hm) (by simp)
  unfold State.iterate at he
  split at he
  · rename_i hqueue
    rcases he with he | ⟨m, hm⟩
    · exact Or.inl he
    · exact absurd hm (by simp)
  · rename_i nextAction rest hqueue
    have hrest : ∀ e ∈ rest, Pending s e := fun e he =>
      Or.inl (hqueue.symm ▸ List.mem_cons_of_mem _ he)
    split_ifs at he
    · rcases he with he | ⟨m, hm⟩
      · exact Or.inl he
      · exact absurd hm (by simp)
    · rcases he with he | ⟨m, hm⟩
      · exact absurd he List.not_mem_nil
      · exact absurd hm (by simp)
    · rcases he with he | ⟨m, hm⟩
      · exact hrest e he
      · exact absurd hm (by simp)
    · split at he
      · rcases he with he | ⟨m, hm⟩
        · exact hrest e he
        · exact absurd hm (by simp)
      · rcases he with he | ⟨m, hm⟩
        · exact hrest e he
        · exact absurd hm (by simp)
      · rcases he with he | ⟨m, hm⟩
        · exact hrest e he
        · injection hm with _ hm
          exact Or.inl (hqueue.symm ▸ hm ▸ List.mem_cons_self)

theorem thrown_iterate {n : ℕ} {t : Thrown} (ht : t ∈ (s.iterate g n).thrown) :
    t ∈ s.thrown ∨ ∃ e, Pending s e ∧ e.call = t.call := by
  unfold State.iterate at ht
  split at ht
  · exact Or.inl ht
  · rename_i nextAction rest hqueue
    split_ifs at ht
    · exact Or.inl ht
    · exact Or.inl ht
    · exact Or.inl ht
    · split at ht
      · rcases List.mem_append.mp ht with ht | ht
        · exact Or.inl ht
        · rw [List.mem_singleton.mp ht]
          exact Or.inr ⟨nextAction, Or.inl (hqueue.symm ▸ List.mem_cons_self), rfl⟩
      · exact Or.inl ht
      · exact Or.inl ht

theorem iterate_same (g : RfnocGraph ν) (s : State ν α) (n : ℕ) :
    (s.iterate g n).numCalls = s.numCalls ∧ (s.iterate g n).waiting = s.waiting ∧
      (s.iterate g n).returned = s.returned ∧ (s.iterate g n).processing = s.processing := by
  unfold State.iterate
  split
  · exact ⟨rfl, rfl, rfl, rfl⟩
  · split_ifs
    · exact ⟨rfl, rfl, rfl, rfl⟩
    · exact ⟨rfl, rfl, rfl, rfl⟩
    · exact ⟨rfl, rfl, rfl, rfl⟩
    · split <;> exact ⟨rfl, rfl, rfl, rfl⟩

theorem Cascades.iterate (h : Cascades s) {n : ℕ} (hphase : s.phase = .looping n) :
    Cascades (s.iterate g n) := by
  obtain ⟨hnumCalls, hwaiting, hreturned, hprocessing⟩ := iterate_same g s n
  refine h.handlerStep (fun e he => ⟨e, pending_iterate hphase he, rfl⟩)
    (fun t ht => thrown_iterate ht) hnumCalls hwaiting hreturned fun hflag => ?_
  rw [hprocessing] at hflag
  rcases h.not_processing hflag with hphase' | hphase'
  · exact absurd (hphase.symm.trans hphase') (by simp)
  · exact absurd (hphase.symm.trans hphase') (by simp)

theorem Cascades.processing_of_handling (h : Cascades s) {n : ℕ} {e : Entry ν α}
    (hphase : s.phase = .handling n e) : s.processing ≠ false := by
  intro hflag
  rcases h.not_processing hflag with hphase' | hphase'
  · exact absurd (hphase.symm.trans hphase') (by simp)
  · exact absurd (hphase.symm.trans hphase') (by simp)

theorem Cascades.post (h : Cascades s) {srcNode : ν} {srcEdge : ResSourceInfo} {action : α}
    (hstep : s.post srcNode srcEdge action = some s') : Cascades s' := by
  unfold State.post at hstep
  split at hstep
  · rename_i n current hphase
    split_ifs at hstep
    · exact Option.some.inj hstep ▸ h
    · obtain rfl := Option.some.inj hstep
      refine h.handlerStep ?_ (fun t ht => Or.inl ht) rfl rfl rfl
        fun hflag => absurd hflag (h.processing_of_handling hphase)
      rintro e (he | he)
      · rcases List.mem_append.mp he with he | he
        · exact ⟨e, Or.inl he, rfl⟩
        · rw [List.mem_singleton.mp he]
          exact ⟨current, Or.inr ⟨n, hphase⟩, rfl⟩
      · exact ⟨e, Or.inr he, rfl⟩
  · exact absurd hstep (by simp)

theorem Cascades.handlerReturns (h : Cascades s) (hstep : s.handlerReturns = some s') :
    Cascades s' := by
  unfold State.handlerReturns at hstep
  split at hstep
  · rename_i n e hphase
    obtain rfl := Option.some.inj hstep
    exact h.handlerStep (pending_of_queue rfl (by simp))
      (fun t ht => Or.inl ht) rfl rfl rfl
      fun hflag => absurd hflag (h.processing_of_handling hphase)
  · exact absurd hstep (by simp)

theorem Cascades.handlerThrows (h : Cascades s) {error : UhdError}
    (hstep : s.handlerThrows error = some s') : Cascades s' := by
  unfold State.handlerThrows at hstep
  split at hstep
  · rename_i n current hphase
    obtain rfl := Option.some.inj hstep
    refine h.handlerStep (pending_of_queue rfl (by simp)) (fun t ht => ?_)
      rfl rfl rfl fun hflag => absurd hflag (h.processing_of_handling hphase)
    rcases List.mem_append.mp ht with ht | ht
    · exact Or.inl ht
    · rw [List.mem_singleton.mp ht]
      exact Or.inr ⟨current, Or.inr ⟨n, hphase⟩, rfl⟩
  · exact absurd hstep (by simp)

theorem Cascades.leave (h : Cascades s) (hstep : s.leave = some s') : Cascades s' := by
  unfold State.leave at hstep
  split at hstep
  · obtain rfl := Option.some.inj hstep
    exact h.handlerStep (pending_of_queue rfl (by simp))
      (fun t ht => Or.inl ht) rfl rfl rfl fun _ => Or.inl rfl
  · exact absurd hstep (by simp)

theorem cascades_step (s : State ν α) (a : Step ν α) (s' : State ν α) (h : Cascades s)
    (hstep : s.step g a = some s') : Cascades s' := by
  cases a with
  | enqueueAction srcNode srcEdge action sync =>
    exact Option.some.inj hstep ▸ h.enqueueAction srcNode srcEdge action sync
  | syncReturns sync => exact h.syncReturns hstep
  | wake => exact h.wake hstep
  | iterate =>
    unfold State.step at hstep
    dsimp only at hstep
    split at hstep
    · rename_i n hphase
      exact Option.some.inj hstep ▸ h.iterate hphase
    · exact absurd hstep (by simp)
  | post srcNode srcEdge action => exact h.post hstep
  | handlerReturns => exact h.handlerReturns hstep
  | handlerThrows error => exact h.handlerThrows hstep
  | leave => exact h.leave hstep
  | shutdown =>
    obtain rfl := Option.some.inj hstep
    exact ⟨h.pending_lt, h.waiting_lt, h.not_processing, h.cascade_over⟩

/-! ## The next action is always taken -/

/-- Steps that the action handler takes by itself when no handler throws. -/
def handlerSteps : List (Step ν α) := [.handlerReturns, .leave, .wake, .iterate]

/-- The first action is taken from the queue, or the action limit strikes and all are dropped. -/
def NextTaken (s s' : State ν α) : Prop :=
  (s'.queue = s.queue.tail ∧ s'.dropped = s.dropped) ∨
    (s'.queue = [] ∧ s'.dropped = s.dropped ++ s.queue)

theorem nextTaken_iterate (g : RfnocGraph ν) {e : Entry ν α} {rest : List (Entry ν α)}
    (hqueue : s.queue = e :: rest) (hrunning : s.shutdown = false) (n : ℕ) :
    NextTaken s (s.iterate g n) := by
  unfold State.iterate NextTaken
  rw [hqueue]
  dsimp only
  rw [hrunning, if_neg Bool.false_ne_true]
  split_ifs
  · exact Or.inr ⟨rfl, rfl⟩
  · exact Or.inl ⟨rfl, rfl⟩
  · split <;> exact Or.inl ⟨rfl, rfl⟩

theorem next_is_taken (g : RfnocGraph ν) (hterminated : s.phase = .terminated → s.shutdown = true)
    (hpending : s.queue ≠ []) (hrunning : s.shutdown = false) :
    ∃ steps, (∀ a ∈ steps, a ∈ handlerSteps) ∧
      ∃ s', Transition.run (State.step g) s steps = some s' ∧ NextTaken s s' := by
  obtain ⟨e, rest, hqueue⟩ := List.exists_cons_of_ne_nil hpending
  have hnotEmpty : s.queue.isEmpty = false := by
    rw [hqueue]
    rfl
  have hwake : ∀ t : State ν α, t = { s with phase := t.phase, processing := t.processing } →
      t.phase = .waiting → t.step g .wake = some { t with phase := .looping 0, processing := true }
      := by
    intro t ht hphase
    have hshutdown : t.shutdown = false := by
      rw [ht]
      exact hrunning
    have hempty : t.queue.isEmpty = false := by
      rw [ht]
      exact hnotEmpty
    change t.wake = _
    rw [State.wake, hphase]
    dsimp only
    rw [hshutdown, hempty]
    rfl
  cases hphase : s.phase with
  | waiting =>
    refine ⟨[.wake, .iterate], by simp [handlerSteps], _, ?_,
      nextTaken_iterate g (s := { s with phase := .looping 0, processing := true }) hqueue
        hrunning 0⟩
    rw [Transition.run_cons, hwake s rfl hphase]
    rfl
  | looping n =>
    refine ⟨[.iterate], by simp [handlerSteps], s.iterate g n, ?_,
      nextTaken_iterate g hqueue hrunning n⟩
    rw [Transition.run_cons, State.step, hphase]
    rfl
  | handling n current =>
    refine ⟨[.handlerReturns, .iterate], by simp [handlerSteps], _, ?_,
      nextTaken_iterate g (s := { s with phase := .looping n }) hqueue hrunning n⟩
    rw [Transition.run_cons, State.step, State.handlerReturns, hphase]
    rfl
  | leaving =>
    refine ⟨[.leave, .wake, .iterate], by simp [handlerSteps], _, ?_,
      nextTaken_iterate g (s := { s with phase := .looping 0, processing := true }) hqueue
        hrunning 0⟩
    rw [Transition.run_cons, State.step, State.leave, hphase]
    dsimp only [Option.bind_some]
    rw [Transition.run_cons, hwake _ rfl rfl]
    rfl
  | terminated => exact absurd (hrunning.symm.trans (hterminated hphase)) (by simp)

/-! ## What synchronous calls report -/

/-- A handler of the call's cascade threw before the call returned. -/
def CascadeThrew (r : SyncResult) : Prop :=
  ∃ t ∈ r.thrownBefore, t.call = r.sync.call ∧ t.byHandler = true

instance (r : SyncResult) : Decidable (CascadeThrew r) := by
  unfold CascadeThrew
  infer_instance

/-- What is expected of the queue: actions are delivered, each once and in order; while there are
any, the action handler takes the next one; a call that was made while nothing was pending reports
an exception if and only if a handler of its cascade threw; and when a call has returned, no more
comes of its cascade. -/
structure ActionsMeet (g : RfnocGraph ν) (s : State ν α) : Prop where
  delivers : Delivers g s
  next_taken : s.queue ≠ [] → s.shutdown = false →
    ∃ steps, (∀ a ∈ steps, a ∈ handlerSteps) ∧
      ∃ s', Transition.run (State.step g) s steps = some s' ∧ NextTaken s s'
  reports : ∀ r ∈ s.returned, r.sync.madeIdle = true →
    (r.reported.isSome = true ↔ CascadeThrew r)
  cascade_over : ∀ r ∈ s.returned, r.shutDown = false →
    ∀ t ∈ s.thrown, t.call = r.sync.call → t ∈ r.thrownBefore

theorem inv_of_run (hcommitted : g.releaseCount = 0) {steps : List (Step ν α)}
    (h : Transition.run (State.step g) {} steps = some s) : Inv g s :=
  Transition.run_invariant (fun s a s' => inv_step hcommitted s a s') inv_init h

theorem cascades_of_run {steps : List (Step ν α)}
    (h : Transition.run (State.step g) {} steps = some s) : Cascades s :=
  Transition.run_invariant (fun s a s' => cascades_step s a s') cascades_init h

theorem reports_iff {r : SyncResult} (hreported : r.reported = lastError r.thrownBefore) :
    (r.reported.isSome = true ↔ CascadeThrew r) ↔ CascadeThrew r ∨ r.thrownBefore = [] := by
  rw [hreported, isSome_lastError]
  constructor
  · intro hright
    by_cases hnone : r.thrownBefore = []
    · exact Or.inr hnone
    · exact Or.inl (hright.mp hnone)
  · rintro (hthrew | hnone)
    · refine iff_of_true ?_ hthrew
      obtain ⟨t, ht, -⟩ := hthrew
      exact List.ne_nil_of_mem ht
    · refine iff_of_false (not_not.mpr hnone) ?_
      rintro ⟨t, ht, -⟩
      rw [hnone] at ht
      exact absurd ht List.not_mem_nil

/-- **Actions and exceptions over whole runs**, in a committed graph: the queue does what is
expected of it if and only if, whenever a call that was made while nothing was pending returns, a
handler of its cascade has thrown, or nothing has come up at all since the graph was made. -/
theorem actionsMeet_iff (hcommitted : g.releaseCount = 0) {steps : List (Step ν α)}
    (h : Transition.run (State.step g) {} steps = some s) :
    ActionsMeet g s ↔ ∀ r ∈ s.returned, r.sync.madeIdle = true →
      (CascadeThrew r ∨ r.thrownBefore = []) := by
  have hinv : Inv g s := inv_of_run hcommitted h
  have hcascades : Cascades s := cascades_of_run h
  constructor
  · intro hmeet r hr hidle
    exact (reports_iff (hinv.reports.reported_eq r hr)).mp (hmeet.reports r hr hidle)
  · intro hcond
    refine ⟨hinv.delivers, next_is_taken g hinv.shutdown_of_terminated, fun r hr hidle => ?_,
      fun r hr hrunning => (hcascades.cascade_over r hr hrunning).2.2⟩
    exact (reports_iff (hinv.reports.reported_eq r hr)).mpr (hcond r hr hidle)

/-- A committed graph of one node. -/
def loneNode : RfnocGraph ℕ where
  vertices := [0]
  nodeMap := fun n => if n = 0 then some 0 else none
  releaseCount := 0

/-- The node posts an action to itself synchronously, and its handler throws. -/
def failingCascade : List (Step ℕ ℕ) :=
  [.enqueueAction 0 ⟨.user, 0⟩ 7 true, .wake, .iterate, .handlerThrows (.runtimeError "failed"),
    .leave, .syncReturns ⟨0, true⟩]

/-- The same, and its handler returns. -/
def goodCascade : List (Step ℕ ℕ) :=
  [.enqueueAction 0 ⟨.user, 0⟩ 8 true, .wake, .iterate, .handlerReturns, .iterate, .leave,
    .syncReturns ⟨1, true⟩]

theorem actionsMeet_iff_failingCascade : ∃ s,
    Transition.run (State.step loneNode) {} failingCascade = some s ∧
      (ActionsMeet loneNode s ↔ ∀ r ∈ s.returned, r.sync.madeIdle = true →
        (CascadeThrew r ∨ r.thrownBefore = [])) ∧
      (∀ r ∈ s.returned, r.sync.madeIdle = true → (CascadeThrew r ∨ r.thrownBefore = [])) ∧
      s.returned ≠ [] := by
  obtain ⟨s, hrun, hs⟩ := Option.map_eq_some_iff.mp (by decide +kernel :
    (Transition.run (State.step loneNode) {} failingCascade).map
      (fun s => decide ((∀ r ∈ s.returned, r.sync.madeIdle = true →
        (CascadeThrew r ∨ r.thrownBefore = [])) ∧ s.returned ≠ [])) = some true)
  have hcond := of_decide_eq_true hs
  exact ⟨s, hrun, actionsMeet_iff rfl hrun, hcond.1, hcond.2⟩

/-- An exception is reported again by a call whose cascade has no failure. -/
theorem good_cascade_reports : ¬ ∀ (g : RfnocGraph ℕ) (steps : List (Step ℕ ℕ)) (s : State ℕ ℕ),
    g.releaseCount = 0 → Transition.run (State.step g) {} steps = some s → ActionsMeet g s := by
  intro h
  obtain ⟨s, hrun, hs⟩ := Option.map_eq_some_iff.mp (by decide +kernel :
    (Transition.run (State.step loneNode) {} (failingCascade ++ goodCascade)).map
      (fun s => decide (∀ r ∈ s.returned, r.sync.madeIdle = true →
        (r.reported.isSome = true ↔ CascadeThrew r))) = some false)
  exact of_decide_eq_false hs (h loneNode _ s rfl hrun).reports

end Actions
end Rfnoc
end UhdHost
