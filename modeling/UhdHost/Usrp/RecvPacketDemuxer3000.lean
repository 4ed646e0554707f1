import Mathlib
import UhdHost.Library.Transition
import UhdHost.Usrp.RecvPacketDemuxer

/-!
# The receive packet demuxer with concurrent callers

`recv_packet_demuxer_3000` deals the packets of one transport out to streams, too, but its callers
run side by side.  The mutex is held while a caller looks into the queue of its stream, and again
while it puts the packet of another stream into that one's queue, but not in between, where it reads
the transport.

* `Kept`: the packets of a stream that came are those that were returned and those that wait, in
  this order.
* `kept_step`: a step keeps that unless it lets a packet overtake another one of its stream.
* `later_packet_returned_first`: what happens then.

A step is what is done under the mutex, or one receive of the transport.
-/

namespace UhdHost
namespace Usrp
namespace RecvPacketDemuxer

open RecvDemux (Packet extractSid)

/-! ## The callers and the demuxer -/

/-- `recv_packet_demuxer_3000` with its callers, what came from the transport, and what was returned
to a caller, with the stream that it asked for. -/
structure State (C : Type) where
  /-- `_queues`, where there is a queue -/
  queues : BitVec 32 → Option (List Packet)
  /-- The callers that have found the queue of their stream empty. -/
  looked : C → Option (BitVec 32)
  /-- The callers that hold a packet of another stream, in the order in which they received it. -/
  held : List (C × Packet)
  arrived : List Packet
  returned : List (BitVec 32 × Packet)

/-- The steps of `_internal_get_recv_buff`. -/
inductive Action (C : Type) where
  /-- Check the queue. -/
  | look (c : C) (sid : BitVec 32)
  /-- Receive from the transport, which has nothing in time if it is `none`. -/
  | receive (c : C) (p : Option Packet)
  /-- Put what is held into its queue. -/
  | push (c : C)

variable {C : Type}

/-- The demuxer with queues for the streams that are registered. -/
def init (registered : BitVec 32 → Bool) : State C where
  queues sid := if registered sid then some [] else none
  looked _ := none
  held := []
  arrived := []
  returned := []

/-- A step; a caller does not start anew before it has returned. -/
def step [DecidableEq C] (host : Endianness) (s : State C) : Action C → Option (State C)
  | .look c sid =>
    if s.looked c = none ∧ c ∉ s.held.map Prod.fst then
      match s.queues sid with
      | some (p :: queue) => some { s with
          queues := Function.update s.queues sid (some queue)
          returned := s.returned ++ [(sid, p)] }
      | _ => some { s with
          queues := Function.update s.queues sid (some [])
          looked := Function.update s.looked c (some sid) }
    else none
  | .receive c none =>
    if s.looked c = none then none else some { s with looked := Function.update s.looked c none }
  | .receive c (some p) =>
    match s.looked c with
    | none => none
    | some sid =>
      if extractSid host p = sid then some { s with
        looked := Function.update s.looked c none
        arrived := s.arrived ++ [p]
        returned := s.returned ++ [(sid, p)] }
      else some { s with
        looked := Function.update s.looked c none
        arrived := s.arrived ++ [p]
        held := s.held ++ [(c, p)] }
  | .push c =>
    match s.held.find? fun h => h.1 = c with
    | none => none
    | some h => some { s with
        held := s.held.eraseP fun h => h.1 = c
        queues :=
          match s.queues (extractSid host h.2) with
          | some queue => Function.update s.queues (extractSid host h.2) (some (queue ++ [h.2]))
          | none => s.queues }

/-! ## What is claimed -/

/-- The packets of a stream. -/
def ofStream (host : Endianness) (sid : BitVec 32) (ps : List Packet) : List Packet :=
  ps.filter fun p => extractSid host p = sid

/-- What was returned to the callers of a stream. -/
def State.returnedTo (s : State C) (sid : BitVec 32) : List Packet :=
  (s.returned.filter fun r => r.1 = sid).map Prod.snd

/-- What waits for the callers of a stream: first what is in the queue. -/
def State.waiting (host : Endianness) (s : State C) (sid : BitVec 32) : List Packet :=
  (s.queues sid).getD [] ++ ofStream host sid (s.held.map Prod.snd)

/-- The packets of a stream were returned once each, in the order in which they came, and those that
were not wait. -/
def DeliveredInOrder (host : Endianness) (s : State C) (sid : BitVec 32) : Prop :=
  ofStream host sid s.arrived = s.returnedTo sid ++ s.waiting host sid

/-- A packet of the own stream is received only while none of them waits, and one is put into its
queue only while no other caller has held one of the same stream for longer. -/
def NoOvertaking [DecidableEq C] (host : Endianness) (registered : BitVec 32 → Bool) (s : State C) :
    Action C → Prop
  | .receive c (some p) => s.looked c = some (extractSid host p) →
      registered (extractSid host p) = true → s.waiting host (extractSid host p) = []
  | .push c => ∀ h ∈ s.held.find? (fun h => h.1 = c), registered (extractSid host h.2) = true →
      ∀ b ∈ s.held.takeWhile (fun h => h.1 ≠ c), extractSid host b.2 ≠ extractSid host h.2
  | _ => True

/-! ## One more packet -/

variable {host : Endianness} {registered : BitVec 32 → Bool} {sid : BitVec 32} {s t : State C}

theorem ofStream_append (ps qs : List Packet) :
    ofStream host sid (ps ++ qs) = ofStream host sid ps ++ ofStream host sid qs :=
  List.filter_append ps qs

theorem ofStream_singleton_self {p : Packet} (h : extractSid host p = sid) :
    ofStream host sid [p] = [p] :=
  List.filter_cons_of_pos (decide_eq_true h)

theorem ofStream_singleton_of_ne {p : Packet} (h : extractSid host p ≠ sid) :
    ofStream host sid [p] = [] :=
  List.filter_cons_of_neg fun heq => h (of_decide_eq_true heq)

theorem filter_concat_self {p : Packet} (rs : List (BitVec 32 × Packet)) :
    ((rs ++ [(sid, p)]).filter fun r => r.1 = sid).map Prod.snd =
      (rs.filter fun r => r.1 = sid).map Prod.snd ++ [p] := by
  have hself : ([(sid, p)].filter fun r => r.1 = sid) = [(sid, p)] :=
    List.filter_cons_of_pos (decide_eq_true rfl)
  rw [List.filter_append, List.map_append, hself]
  rfl

theorem filter_concat_of_ne {sid' : BitVec 32} (h : sid' ≠ sid) {p : Packet}
    (rs : List (BitVec 32 × Packet)) :
    ((rs ++ [(sid', p)]).filter fun r => r.1 = sid).map Prod.snd =
      (rs.filter fun r => r.1 = sid).map Prod.snd := by
  have hother : ([(sid', p)].filter fun r => r.1 = sid) = [] :=
    List.filter_cons_of_neg fun heq => h (of_decide_eq_true heq)
  rw [List.filter_append, List.map_append, hother]
  exact List.append_nil _

/-! ## Every step -/

/-- There is a queue for the stream, and its packets were delivered in order. -/
def Kept (host : Endianness) (s : State C) (sid : BitVec 32) : Prop :=
  ∃ queue, s.queues sid = some queue ∧ ofStream host sid s.arrived =
    s.returnedTo sid ++ (queue ++ ofStream host sid (s.held.map Prod.snd))

theorem Kept.deliveredInOrder (h : Kept host s sid) : DeliveredInOrder host s sid := by
  obtain ⟨queue, hqueue, hinOrder⟩ := h
  rw [DeliveredInOrder, State.waiting, hqueue]
  exact hinOrder

theorem Kept.nothing_waits {queue : List Packet} (hqueue : s.queues sid = some queue)
    (h : s.waiting host sid = []) :
    queue = [] ∧ ofStream host sid (s.held.map Prod.snd) = [] := by
  rw [State.waiting, hqueue] at h
  exact List.append_eq_nil_iff.mp h

theorem kept_init (C : Type) (h : registered sid = true) :
    Kept host (init registered : State C) sid :=
  ⟨[], if_pos h, rfl⟩

variable [DecidableEq C] {c : C}

theorem kept_look {sid' : BitVec 32} (hs : Kept host s sid)
    (h : step host s (.look c sid') = some t) : Kept host t sid := by
  obtain ⟨queue, hqueue, hinOrder⟩ := hs
  rw [step] at h
  split_ifs at h
  rcases eq_or_ne sid' sid with rfl | hne
  · rw [hqueue] at h
    cases queue with
    | nil =>
      rw [← Option.some.inj h]
      exact ⟨[], Function.update_self _ _ _, hinOrder⟩
    | cons p queue =>
      rw [← Option.some.inj h]
      refine ⟨queue, Function.update_self _ _ _, hinOrder.trans ?_⟩
      show s.returnedTo sid' ++ ([p] ++ queue ++ _) =
        ((s.returned ++ [(sid', p)]).filter fun r => r.1 = sid').map Prod.snd ++ (queue ++ _)
      rw [filter_concat_self, List.append_assoc, List.append_assoc]
      rfl
  · split at h
    · rw [← Option.some.inj h]
      refine ⟨queue, (Function.update_of_ne hne.symm _ s.queues).trans hqueue, ?_⟩
      exact hinOrder.trans (congrArg (· ++ _) (filter_concat_of_ne hne s.returned).symm)
    · rw [← Option.some.inj h]
      exact ⟨queue, (Function.update_of_ne hne.symm _ s.queues).trans hqueue, hinOrder⟩

theorem kept_receive {p : Packet} (hs : Kept host s sid) (hreg : registered sid = true)
    (hgood : NoOvertaking host registered s (.receive c (some p)))
    (h : step host s (.receive c (some p)) = some t) : Kept host t sid := by
  obtain ⟨queue, hqueue, hinOrder⟩ := hs
  rw [step] at h
  cases hlooked : s.looked c with
  | none =>
    rw [hlooked] at h
    cases h
  | some sid' =>
    rw [hlooked] at h
    dsimp only at h
    split_ifs at h with hown
    · rw [← Option.some.inj h]
      refine ⟨queue, hqueue, ?_⟩
      show ofStream host sid (s.arrived ++ [p]) =
        ((s.returned ++ [(sid', p)]).filter fun r => r.1 = sid).map Prod.snd ++ _
      rw [ofStream_append, hinOrder]
      rcases eq_or_ne sid' sid with rfl | hne
      · -- nothing of the stream waits, and so this is the next packet
        have hnone := hgood (hlooked.trans (congrArg some hown.symm)) (hown ▸ hreg)
        rw [hown] at hnone
        obtain ⟨rfl, hheld⟩ := Kept.nothing_waits hqueue hnone
        rw [filter_concat_self, ofStream_singleton_self hown, hheld, List.append_nil,
          List.append_nil, List.append_nil]
        rfl
      · rw [filter_concat_of_ne hne, ofStream_singleton_of_ne (hown ▸ hne), List.append_nil]
        rfl
    · rw [← Option.some.inj h]
      refine ⟨queue, hqueue, ?_⟩
      show ofStream host sid (s.arrived ++ [p]) =
        s.returnedTo sid ++ (queue ++ ofStream host sid ((s.held ++ [(c, p)]).map Prod.snd))
      rw [List.map_append, ofStream_append, ofStream_append, hinOrder, List.append_assoc,
        List.append_assoc]
      rfl

theorem kept_push (hs : Kept host s sid) (hreg : registered sid = true)
    (hgood : NoOvertaking host registered s (.push c)) (h : step host s (.push c) = some t) :
    Kept host t sid := by
  obtain ⟨queue, hqueue, hinOrder⟩ := hs
  rw [step] at h
  cases hfind : s.held.find? fun h => h.1 = c with
  | none =>
    rw [hfind] at h
    cases h
  | some b =>
    rw [hfind] at h
    obtain ⟨hb, before, after, hheld, hbefore⟩ := List.find?_eq_some_iff_append.mp hfind
    have hneg : ∀ a ∈ before, ¬ (decide (a.1 = c) = true) := fun a ha =>
      Bool.eq_false_iff.mp (Bool.not_eq_true' _ ▸ hbefore a ha)
    have herase : (s.held.eraseP fun h => h.1 = c) = before ++ after := by
      rw [hheld, List.eraseP_append_right _ hneg]
      exact congrArg (before ++ ·) (List.eraseP_cons_of_pos hb)
    have hparts : ofStream host sid (s.held.map Prod.snd) =
        ofStream host sid (before.map Prod.snd) ++
          (ofStream host sid [b.2] ++ ofStream host sid (after.map Prod.snd)) := by
      rw [hheld, List.map_append, List.map_cons, ofStream_append, ← ofStream_append [b.2]]
      rfl
    have hrest : ofStream host sid ((before ++ after).map Prod.snd) =
        ofStream host sid (before.map Prod.snd) ++ ofStream host sid (after.map Prod.snd) := by
      rw [List.map_append, ofStream_append]
    rw [hparts] at hinOrder
    rw [← Option.some.inj h]
    rcases eq_or_ne (extractSid host b.2) sid with rfl | hne
    · -- none of those that were received before is of the stream
      have htake : s.held.takeWhile (fun h => h.1 ≠ c) = before := by
        have hpos : ∀ a ∈ before, (fun h : C × Packet => decide (h.1 ≠ c)) a = true :=
          fun a ha => decide_eq_true fun heq => hneg a ha (decide_eq_true heq)
        rw [hheld, List.takeWhile_append_of_pos hpos, List.takeWhile_cons_of_neg,
          List.append_nil]
        exact fun hne => of_decide_eq_true hne (of_decide_eq_true hb)
      have hnone : ofStream host (extractSid host b.2) (before.map Prod.snd) = [] := by
        refine List.filter_eq_nil_iff.mpr fun p hp hsame => ?_
        obtain ⟨a, ha, rfl⟩ := List.mem_map.mp hp
        exact hgood b hfind hreg a (htake ▸ ha) (of_decide_eq_true hsame)
      refine ⟨queue ++ [b.2], ?_, ?_⟩
      · dsimp only
        rw [hqueue]
        exact Function.update_self _ _ _
      · refine hinOrder.trans (congrArg (s.returnedTo _ ++ ·) ?_)
        dsimp only
        rw [herase, hrest, hnone, ofStream_singleton_self rfl, List.nil_append, List.nil_append,
          List.append_assoc]
    · refine ⟨queue, ?_, ?_⟩
      · dsimp only
        cases s.queues (extractSid host b.2) with
        | none => exact hqueue
        | some other => exact (Function.update_of_ne hne.symm _ s.queues).trans hqueue
      · refine hinOrder.trans (congrArg (s.returnedTo _ ++ ·) ?_)
        dsimp only
        rw [herase, hrest, ofStream_singleton_of_ne hne, List.nil_append]

theorem kept_step {a : Action C} (hs : Kept host s sid) (hreg : registered sid = true)
    (hgood : NoOvertaking host registered s a) (h : step host s a = some t) : Kept host t sid := by
  cases a with
  | look c sid' => exact kept_look hs h
  | receive c p =>
    cases p with
    | none =>
      rw [step] at h
      split_ifs at h
      exact Option.some.inj h ▸ hs
    | some p => exact kept_receive hs hreg hgood h
  | push c => exact kept_push hs hreg hgood h

/-- **In every run in which no packet overtakes another one** of its stream, the packets of every
registered stream are delivered in order. -/
theorem deliveredInOrder_of_run {actions : List (Action C)}
    (hgood : Transition.EveryStep (step host) (NoOvertaking host registered) (init registered)
      actions)
    (h : Transition.run (step host) (init registered) actions = some s)
    (hreg : registered sid = true) : DeliveredInOrder host s sid := by
  have hkept : Kept host s sid :=
    Transition.run_invariant_of_everyStep (fun _ _ _ hs hgood hstep =>
      kept_step hs hreg hgood hstep) (kept_init C hreg) hgood h
  exact hkept.deliveredInOrder

/-- A packet of a stream, with its number in place of the rest. -/
def packet (sid n : BitVec 32) : Packet := ⟨[n, sid], le_rfl⟩

/-- A packet of stream 1 is received for stream 0, put into its queue, and found there. -/
def storedFirst : List (Action Bool) :=
  [.look false 0, .receive false (some (packet 1 1)), .push false, .look true 1]

theorem deliveredInOrder_storedFirst :
    ∃ s : State Bool, Transition.run (step .little) (init fun _ => true) storedFirst = some s ∧
      DeliveredInOrder .little s 1 := by
  have hgood : Transition.EveryStep (step .little) (NoOvertaking .little fun _ => true)
      (init fun _ => true) storedFirst := by
    refine ⟨trivial, fun t ht => ?_⟩
    rw [← Option.some.inj ht]
    refine ⟨fun hlooked => absurd hlooked (by decide), fun u hu => ?_⟩
    rw [← Option.some.inj hu]
    refine ⟨fun h _ _ b hb => absurd hb ?_, fun v _ => ⟨trivial, fun _ _ => trivial⟩⟩
    exact List.not_mem_nil
  exact ⟨_, rfl, deliveredInOrder_of_run hgood rfl rfl⟩

/-- The packet of stream 1 is still held when the next one of that stream comes. -/
def overtaken : List (Action Bool) :=
  [.look false 0, .receive false (some (packet 1 1)), .look true 1,
    .receive true (some (packet 1 3)), .push false]

theorem later_packet_returned_first :
    ∃ s : State Bool, Transition.run (step .little) (init fun _ => true) overtaken = some s ∧
      s.arrived = [packet 1 1, packet 1 3] ∧ s.returned = [(1, packet 1 3)] ∧
      s.queues 1 = some [packet 1 1] ∧ ¬ DeliveredInOrder .little s 1 := by
  refine ⟨_, rfl, rfl, rfl, rfl, ?_⟩
  rw [DeliveredInOrder]
  decide

end RecvPacketDemuxer
end Usrp
end UhdHost
