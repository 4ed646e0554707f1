import Mathlib
import UhdHost.Transport.InlineRecvMux

/-!
# Where the frames of the multiplexer end

Three things are expected of the multiplexer: every frame taken from the link ends in exactly
one place, and with the client it is for; a client gets its frames in the order in which they
arrived; and no callback is called without a frame.

`FrameInv` carries the first two, and they hold in every run.  The third does not: after
`recv_flow_ctrl` has moved a frame into the queue of another client it goes on offering what
is no longer there, so a callback is called without a frame whenever any is left
(`QueuesLast` is the exact condition).
-/

namespace UhdHost
namespace Transport

open QueueFamily Transition

variable {κ : Type}

/-! ## What a dispatch does -/

/-- The places a dispatch can choose. -/
inductive DispatchPlace (call : MuxCall κ) (a : Arrival κ) (callbacks : List κ) :
    Place κ → Prop where
  | released : DispatchPlace call a callbacks .released
  | consumed (k : κ) (hk : k ∈ callbacks) : DispatchPlace call a callbacks (.consumed k)
  | queued (k : κ) (hk : k ∈ callbacks) (hne : call ≠ .recv k) :
      DispatchPlace call a callbacks (.queued k)
  | returned (k : κ) (hk : k ∈ callbacks) (hcall : call = .recv k) :
      DispatchPlace call a callbacks (.returned k)
  | destroyed (k : κ) (hk : k ∈ callbacks) (hcall : call = .flowCtrl k)
      (hkeep : a.answer k = .keep) : DispatchPlace call a callbacks (.destroyed k)

theorem DispatchPlace.cons {call : MuxCall κ} {a : Arrival κ} {callbacks : List κ}
    {p : Place κ} (h : DispatchPlace call a callbacks p) (rcvr : κ) :
    DispatchPlace call a (rcvr :: callbacks) p := by
  cases h with
  | released => exact .released
  | consumed k hk => exact .consumed k (List.mem_cons_of_mem _ hk)
  | queued k hk hne => exact .queued k (List.mem_cons_of_mem _ hk) hne
  | returned k hk hcall => exact .returned k (List.mem_cons_of_mem _ hk) hcall
  | destroyed k hk hcall hkeep => exact .destroyed k (List.mem_cons_of_mem _ hk) hcall hkeep

variable [DecidableEq κ]

theorem recvDispatch_owner (cb : κ) (a : Arrival κ) :
    ∀ l : List κ, (recvDispatch cb a l).place.owner = a.owner l
  | [] => rfl
  | rcvr :: rest => by
    rw [recvDispatch]
    cases h : a.answer rcvr with
    | notMine => rw [a.owner_cons_of_notMine h, ← recvDispatch_owner cb a rest]
    | consume => rw [a.owner_cons_of_accepts (by simp [h])]; rfl
    | keep =>
      rw [a.owner_cons_of_accepts (by simp [h])]
      by_cases hcb : rcvr = cb
      · rw [if_pos hcb]; rfl
      · rw [if_neg hcb]; rfl

theorem flowCtrlDispatch_owner (cb : κ) (a : Arrival κ) :
    ∀ l : List κ, (flowCtrlDispatch cb a l).place.owner = a.owner l
  | [] => rfl
  | rcvr :: rest => by
    rw [flowCtrlDispatch]
    cases h : a.answer rcvr with
    | notMine => rw [a.owner_cons_of_notMine h, ← flowCtrlDispatch_owner cb a rest]
    | consume => rw [a.owner_cons_of_accepts (by simp [h])]; rfl
    | keep =>
      rw [a.owner_cons_of_accepts (by simp [h])]
      by_cases hcb : rcvr = cb
      · rw [if_pos hcb]; rfl
      · rw [if_neg hcb]; rfl

theorem recvDispatch_place (cb : κ) (a : Arrival κ) :
    ∀ l : List κ, DispatchPlace (.recv cb) a l (recvDispatch cb a l).place
  | [] => .released
  | rcvr :: rest => by
    rw [recvDispatch]
    cases h : a.answer rcvr with
    | notMine => exact (recvDispatch_place cb a rest).cons rcvr
    | consume => exact .consumed rcvr (List.mem_cons_self ..)
    | keep =>
      by_cases hcb : rcvr = cb
      · rw [if_pos hcb]
        exact .returned rcvr (List.mem_cons_self ..) (hcb ▸ rfl)
      · rw [if_neg hcb]
        exact .queued rcvr (List.mem_cons_self ..) fun heq => hcb (MuxCall.recv.inj heq).symm

theorem flowCtrlDispatch_place (cb : κ) (a : Arrival κ) :
    ∀ l : List κ, DispatchPlace (.flowCtrl cb) a l (flowCtrlDispatch cb a l).place
  | [] => .released
  | rcvr :: rest => by
    rw [flowCtrlDispatch]
    cases h : a.answer rcvr with
    | notMine => exact (flowCtrlDispatch_place cb a rest).cons rcvr
    | consume => exact .consumed rcvr (List.mem_cons_self ..)
    | keep =>
      by_cases hcb : rcvr = cb
      · rw [if_pos hcb]
        exact .destroyed rcvr (List.mem_cons_self ..) (hcb ▸ rfl) h
      · rw [if_neg hcb]
        exact .queued rcvr (List.mem_cons_self ..) nofun

namespace InlineRecvMux

theorem dispatch_owner (call : MuxCall κ) (a : Arrival κ) (l : List κ) :
    (dispatch call a l).place.owner = a.owner l := by
  cases call with
  | recv cb => exact recvDispatch_owner cb a l
  | flowCtrl cb => exact flowCtrlDispatch_owner cb a l

theorem dispatch_place (call : MuxCall κ) (a : Arrival κ) (l : List κ) :
    DispatchPlace call a l (dispatch call a l).place := by
  cases call with
  | recv cb => exact recvDispatch_place cb a l
  | flowCtrl cb => exact flowCtrlDispatch_place cb a l

/-! ## Calls without a frame -/

/-- A frame that `recv_flow_ctrl` queues for another client than the caller is queued for the
client that was registered last.  Nothing is asked of the other steps. -/
def QueuesLast (m : InlineRecvMux κ) : MuxAction κ → Prop
  | .arrive a => ∀ cb, m.call = some (.flowCtrl cb) →
      ∀ before rcvr rest, m.callbacks = before ++ rcvr :: rest →
        (∀ k ∈ before, a.answer k = .notMine) → a.answer rcvr = .keep → rcvr ≠ cb → rest = []
  | _ => True

theorem offerNull_eq_nil (cb : κ) (a : Arrival κ) (l : List κ) :
    (offerNull cb a l).1 = [] ↔ l = [] := by
  cases l with
  | nil => simp [offerNull]
  | cons rcvr rest =>
    rw [offerNull]
    split_ifs <;> simp

theorem recvDispatch_nullCalls (cb : κ) (a : Arrival κ) :
    ∀ l : List κ, (recvDispatch cb a l).nullCalls = []
  | [] => rfl
  | rcvr :: rest => by
    rw [recvDispatch]
    cases a.answer rcvr with
    | notMine => exact recvDispatch_nullCalls cb a rest
    | consume => rfl
    | keep => by_cases hcb : rcvr = cb <;> simp [hcb]

theorem flowCtrlDispatch_nullCalls (cb : κ) (a : Arrival κ) :
    ∀ l : List κ, (flowCtrlDispatch cb a l).nullCalls = [] ↔
      ∀ before rcvr rest, l = before ++ rcvr :: rest →
        (∀ k ∈ before, a.answer k = .notMine) → a.answer rcvr = .keep → rcvr ≠ cb → rest = []
  | [] => by simp [flowCtrlDispatch]
  | k :: l => by
    have ih := flowCtrlDispatch_nullCalls cb a l
    rw [flowCtrlDispatch]
    cases h : a.answer k with
    | notMine =>
      rw [ih]
      constructor
      · intro hl before rcvr rest heq hbefore hkeep hne
        cases before with
        | nil =>
          rw [List.nil_append, List.cons.injEq] at heq
          rw [← heq.1, h] at hkeep
          cases hkeep
        | cons k' before =>
          rw [List.cons_append, List.cons.injEq] at heq
          exact hl before rcvr rest heq.2
            (fun x hx => hbefore x (List.mem_cons_of_mem _ hx)) hkeep hne
      · intro hl before rcvr rest heq hbefore hkeep hne
        refine hl (k :: before) rcvr rest (by rw [heq, List.cons_append]) ?_ hkeep hne
        exact List.forall_mem_cons.mpr ⟨h, hbefore⟩
    | consume =>
      refine iff_of_true rfl fun before rcvr rest heq hbefore hkeep _ => ?_
      cases before with
      | nil =>
        rw [List.nil_append, List.cons.injEq] at heq
        rw [← heq.1, h] at hkeep
        cases hkeep
      | cons k' before =>
        rw [List.cons_append, List.cons.injEq] at heq
        have hk := hbefore k' (List.mem_cons_self ..)
        rw [← heq.1, h] at hk
        cases hk
    | keep =>
      have hfirst : ∀ before rcvr rest, k :: l = before ++ rcvr :: rest →
          (∀ x ∈ before, a.answer x = .notMine) → k = rcvr ∧ l = rest := by
        intro before rcvr rest heq hbefore
        cases before with
        | nil => simpa using heq
        | cons k' before =>
          rw [List.cons_append, List.cons.injEq] at heq
          have hk := hbefore k' (List.mem_cons_self ..)
          rw [← heq.1, h] at hk
          cases hk
      by_cases hcb : k = cb
      · rw [if_pos hcb]
        refine iff_of_true rfl fun before rcvr rest heq hbefore _ hne => ?_
        exact absurd ((hfirst before rcvr rest heq hbefore).1.symm.trans hcb) hne
      · rw [if_neg hcb]
        refine (offerNull_eq_nil cb a l).trans ⟨fun hl before rcvr rest heq hbefore _ _ => ?_,
          fun hl => hl [] k l rfl (fun _ hx => absurd hx List.not_mem_nil) h hcb⟩
        exact (hfirst before rcvr rest heq hbefore).2 ▸ hl

theorem nullCalls_of_step {cfg : MuxConfig κ} {m m' : InlineRecvMux κ} {a : MuxAction κ}
    (h : step cfg m a = some m') :
    ∃ new, m'.nullCalls = m.nullCalls ++ new ∧ (new = [] ↔ QueuesLast m a) := by
  cases a with
  | arrive a =>
    simp only [step] at h
    cases hcall : m.call with
    | none => simp [hcall] at h
    | some call =>
      simp only [hcall] at h
      split_ifs at h with hroom
      rw [Option.some_inj] at h
      subst h
      refine ⟨(dispatch call a m.callbacks).nullCalls, rfl, ?_⟩
      cases call with
      | recv cb =>
        refine iff_of_true (recvDispatch_nullCalls cb a _) fun cb' hcb' => ?_
        cases hcall.symm.trans hcb'
      | flowCtrl cb =>
        rw [dispatch, flowCtrlDispatch_nullCalls]
        constructor
        · intro hl cb' hcb'
          obtain rfl : cb = cb' := by
            have heq := hcall.symm.trans hcb'
            simpa using heq
          exact hl
        · exact fun hl => hl cb hcall
  | connect cb =>
    simp only [step] at h
    split_ifs at h
    rw [Option.some_inj] at h
    exact ⟨[], by simp [← h], iff_of_true rfl trivial⟩
  | disconnect cb =>
    simp only [step] at h
    split_ifs at h
    rw [Option.some_inj] at h
    exact ⟨[], by simp [← h], iff_of_true rfl trivial⟩
  | recv cb =>
    simp only [step] at h
    split_ifs at h
    cases hq : m.queues cb with
    | nil =>
      simp only [hq, Option.some_inj] at h
      exact ⟨[], by simp [← h], iff_of_true rfl trivial⟩
    | cons frame rest =>
      simp only [hq, Option.some_inj] at h
      exact ⟨[], by simp [← h], iff_of_true rfl trivial⟩
  | flowCtrl cb =>
    simp only [step] at h
    split_ifs at h
    rw [Option.some_inj] at h
    exact ⟨[], by simp [← h], iff_of_true rfl trivial⟩
  | timeout =>
    simp only [step] at h
    split_ifs at h
    rw [Option.some_inj] at h
    exact ⟨[], by simp [← h], iff_of_true rfl trivial⟩
  | release frame =>
    simp only [step] at h
    split_ifs at h
    rw [Option.some_inj] at h
    exact ⟨[], by simp [← h], iff_of_true rfl trivial⟩

/-! ## Frames -/

/-- The queues with the client of each frame. -/
def tagged (q : κ → List ℕ) (k : κ) : List (Option κ × ℕ) := (q k).map fun f => (some k, f)

omit [DecidableEq κ] in
theorem tagged_eq_nil {q : κ → List ℕ} {k : κ} : tagged q k = [] ↔ q k = [] := List.map_eq_nil_iff

theorem tagged_update (q : κ → List ℕ) (k : κ) (v : List ℕ) :
    tagged (Function.update q k v) =
      Function.update (tagged q) k (v.map fun f => (some k, f)) := by
  funext k'
  by_cases hk : k' = k
  · subst hk
    simp [tagged]
  · simp [tagged, hk]

/-- Every frame that is somewhere, with the client of its place. -/
def placed (m : InlineRecvMux κ) : List (Option κ × ℕ) :=
  m.ended.map (fun e => (e.1.owner, e.2)) ++ pooled m.callbacks (tagged m.queues)

/-- The frames a client was given, in that order. -/
def returnedTo (m : InlineRecvMux κ) (k : κ) : List ℕ :=
  m.ended.filterMap fun e => if e.1 = .returned k then some e.2 else none

/-- Where every frame is, and in which order. -/
structure FrameInv (cfg : MuxConfig κ) (m : InlineRecvMux κ) : Prop where
  nodup : m.callbacks.Nodup
  unlisted : ∀ k, k ∉ m.callbacks → m.queues k = []
  recvCall : ∀ cb, m.call = some (.recv cb) → cb ∈ m.callbacks ∧ m.queues cb = []
  flowCtrlCall : ∀ cb, m.call = some (.flowCtrl cb) → cb ∈ m.callbacks ∧ cfg.sends cb = true
  placed : m.placed.Perm m.owners.zipIdx
  overwritten : m.overwritten = []
  destroyed : ∀ e ∈ m.ended, ∀ k, e.1 ≠ .destroyed k
  room : m.queued.length + m.held.length ≤ cfg.numRecvFrames
  ordered : ∀ k, (m.returnedTo k ++ m.queues k).Pairwise (· < ·)

theorem frameInv_init (cfg : MuxConfig κ) : FrameInv cfg {} where
  nodup := List.nodup_nil
  unlisted _ _ := rfl
  recvCall _ h := nomatch h
  flowCtrlCall _ h := nomatch h
  placed := List.Perm.refl _
  overwritten := rfl
  destroyed _ h := absurd h List.not_mem_nil
  room := Nat.zero_le _
  ordered _ := List.Pairwise.nil

variable {cfg : MuxConfig κ} {m : InlineRecvMux κ}

omit [DecidableEq κ] in
theorem mem_placed_of_mem_queues {k : κ} (hk : k ∈ m.callbacks) {f : ℕ} (hf : f ∈ m.queues k) :
    (some k, f) ∈ m.placed :=
  List.mem_append_right _ (mem_pooled.mpr ⟨k, hk, List.mem_map.mpr ⟨f, hf, rfl⟩⟩)

theorem mem_placed_of_mem_returnedTo {k : κ} {f : ℕ} (hf : f ∈ m.returnedTo k) :
    (some k, f) ∈ m.placed := by
  obtain ⟨⟨p, f'⟩, he, heq⟩ := List.mem_filterMap.mp hf
  by_cases hp : p = .returned k
  · rw [if_pos hp, Option.some_inj] at heq
    refine List.mem_append_left _ (List.mem_map.mpr ⟨(p, f'), he, ?_⟩)
    rw [hp, ← heq]
    rfl
  · rw [if_neg hp] at heq
    cases heq

theorem FrameInv.lt_of_mem (h : FrameInv cfg m) {k : κ} {f : ℕ}
    (hf : f ∈ m.returnedTo k ++ m.queues k) : f < m.owners.length := by
  have hmem : (some k, f) ∈ m.placed := by
    rcases List.mem_append.mp hf with hf | hf
    · exact mem_placed_of_mem_returnedTo hf
    · refine mem_placed_of_mem_queues ?_ hf
      by_contra hk
      rw [h.unlisted k hk] at hf
      exact absurd hf List.not_mem_nil
  have hlt := List.snd_lt_of_mem_zipIdx (h.placed.mem_iff.mp hmem)
  simpa using hlt

theorem queue_length_le {k : κ} (hk : k ∈ m.callbacks) :
    (m.queues k).length ≤ m.queued.length := by
  rw [queued, (pooled_perm hk m.queues).length_eq, List.length_append]
  omega

/-! ### Putting one frame somewhere -/

/-- The places where a frame can be put without losing another one or its order. -/
def Open (cfg : MuxConfig κ) (m : InlineRecvMux κ) : Place κ → Prop
  | .queued k => k ∈ m.callbacks ∧ (m.queues k).length < cfg.numRecvFrames
  | .returned k => m.queues k = []
  | _ => True

theorem callbacks_place (cfg : MuxConfig κ) (m : InlineRecvMux κ) (f : ℕ) (p : Place κ) :
    (m.place cfg f p).callbacks = m.callbacks := by
  cases p <;> rfl

theorem pushBack_of_lt {capacity : ℕ} {q : List ℕ} (h : q.length < capacity) (frame : ℕ) :
    pushBack capacity q frame = (q ++ [frame], []) := if_pos h

theorem placed_place (hnd : m.callbacks.Nodup) (f : ℕ) {p : Place κ} (hp : m.Open cfg p) :
    (m.place cfg f p).placed.Perm (m.placed ++ [(p.owner, f)]) := by
  have hended : ∀ l r : List (Option κ × ℕ), ∀ x, ((l ++ [x]) ++ r).Perm ((l ++ r) ++ [x]) :=
    fun l r x => by
      rw [List.append_assoc, List.append_assoc]
      exact List.perm_append_comm.append_left l
  cases p with
  | queued k =>
    simp only [place, placed, pushBack_of_lt hp.2]
    rw [tagged_update, List.append_assoc]
    refine List.Perm.append_left _ ?_
    rw [List.map_append]
    exact pooled_push hnd hp.1 (tagged m.queues) (some k, f)
  | returned k => simpa [place, placed, Place.owner] using hended _ _ (some k, f)
  | consumed k => simpa [place, placed, Place.owner] using hended _ _ (some k, f)
  | flushed k => simpa [place, placed, Place.owner] using hended _ _ (some k, f)
  | released => simpa [place, placed, Place.owner] using hended _ _ (none, f)
  | destroyed k => simpa [place, placed, Place.owner] using hended _ _ (some k, f)

theorem room_place (hnd : m.callbacks.Nodup) (f : ℕ) {p : Place κ} (hp : m.Open cfg p) :
    (m.place cfg f p).queued.length + (m.place cfg f p).held.length ≤
      m.queued.length + m.held.length + 1 := by
  cases p with
  | queued k =>
    simp only [place, queued, pushBack_of_lt hp.2]
    rw [(pooled_push hnd hp.1 m.queues f).length_eq, List.length_append, List.length_singleton]
    omega
  | returned k =>
    simp only [place, queued, List.length_append, List.length_singleton]
    omega
  | consumed k => exact Nat.le_succ _
  | flushed k => exact Nat.le_succ _
  | released => exact Nat.le_succ _
  | destroyed k => exact Nat.le_succ _

theorem overwritten_place (f : ℕ) {p : Place κ} (hp : m.Open cfg p) :
    (m.place cfg f p).overwritten = m.overwritten := by
  cases p with
  | queued k => simp only [place, pushBack_of_lt hp.2, List.append_nil]
  | _ => rfl

theorem sequence_place (f : ℕ) {p : Place κ} (hp : m.Open cfg p) (k : κ) :
    (m.place cfg f p).returnedTo k ++ (m.place cfg f p).queues k =
        m.returnedTo k ++ m.queues k ∨
      (m.place cfg f p).returnedTo k ++ (m.place cfg f p).queues k =
        (m.returnedTo k ++ m.queues k) ++ [f] := by
  cases p with
  | queued k' =>
    simp only [place, returnedTo, pushBack_of_lt hp.2]
    by_cases hk : k = k'
    · subst hk
      rw [Function.update_self]
      exact Or.inr (List.append_assoc ..).symm
    · rw [Function.update_of_ne hk]
      exact Or.inl rfl
  | returned k' =>
    by_cases hk : k' = k
    · subst hk
      refine Or.inr ?_
      have hq : m.queues k' = [] := hp
      simp [place, returnedTo, hq]
    · refine Or.inl ?_
      simp [place, returnedTo, hk]
  | consumed k' => exact Or.inl (by simp [place, returnedTo])
  | flushed k' => exact Or.inl (by simp [place, returnedTo])
  | released => exact Or.inl (by simp [place, returnedTo])
  | destroyed k' => exact Or.inl (by simp [place, returnedTo])

theorem queues_place (f : ℕ) {p : Place κ} (k : κ) (hk : p ≠ .queued k) :
    (m.place cfg f p).queues k = m.queues k := by
  cases p with
  | queued k' =>
    have hne : k ≠ k' := fun h => hk (h ▸ rfl)
    simp only [place, Function.update_of_ne hne]
  | _ => rfl

theorem mem_ended_place {f : ℕ} {p : Place κ} {e : Place κ × ℕ}
    (he : e ∈ (m.place cfg f p).ended) : e ∈ m.ended ∨ e.1 = p := by
  cases p with
  | queued k => exact Or.inl he
  | _ =>
    simp only [place, List.mem_append, List.mem_singleton] at he
    rcases he with he | rfl
    · exact Or.inl he
    · exact Or.inr rfl

/-! ### One step -/

theorem FrameInv.put (h : FrameInv cfg m) {p : Place κ} (hopen : m.Open cfg p)
    (hkept : ∀ k, p ≠ .destroyed k)
    (hroom : m.queued.length + m.held.length < cfg.numRecvFrames)
    {call : Option (MuxCall κ)} (hcall : ∀ c, call = some c → m.call = some c)
    (hself : ∀ cb, call = some (.recv cb) → p ≠ .queued cb) (nullCalls : List κ) :
    FrameInv cfg { m.place cfg m.owners.length p with
      owners := m.owners ++ [p.owner], nullCalls := nullCalls, call := call } := by
  have hcallbacks := callbacks_place cfg m m.owners.length p
  refine ⟨hcallbacks ▸ h.nodup, fun k hk => ?_, fun cb hcb => ?_, fun cb hcb => ?_, ?_,
    (overwritten_place _ hopen).trans h.overwritten, fun e he k => ?_,
    Nat.le_trans (room_place h.nodup _ hopen) hroom, fun k => ?_⟩
  · have hk : k ∉ m.callbacks := hcallbacks ▸ hk
    show (m.place cfg m.owners.length p).queues k = []
    rw [queues_place _ k ?_, h.unlisted k hk]
    rintro rfl
    exact hk hopen.1
  · obtain ⟨hmem, hempty⟩ := h.recvCall cb (hcall _ hcb)
    exact ⟨hcallbacks.symm ▸ hmem, (queues_place _ cb (hself cb hcb)).trans hempty⟩
  · obtain ⟨hmem, hsends⟩ := h.flowCtrlCall cb (hcall _ hcb)
    exact ⟨hcallbacks.symm ▸ hmem, hsends⟩
  · rw [List.zipIdx_append, List.zipIdx_singleton, Nat.zero_add]
    exact (placed_place h.nodup _ hopen).trans (h.placed.append_right _)
  · rcases mem_ended_place he with he | he
    · exact h.destroyed e he k
    · exact he ▸ hkept k
  · show ((m.place cfg m.owners.length p).returnedTo k ++
      (m.place cfg m.owners.length p).queues k).Pairwise _
    rcases sequence_place m.owners.length hopen k with hseq | hseq
    · exact hseq ▸ h.ordered k
    · rw [hseq, List.pairwise_append]
      refine ⟨h.ordered k, List.pairwise_singleton _ _, fun f hf f' hf' => ?_⟩
      rw [List.mem_singleton.mp hf']
      exact h.lt_of_mem hf

theorem FrameInv.arrive (h : FrameInv cfg m) {call : MuxCall κ} {a : Arrival κ}
    (hcall : m.call = some call) (hconf : a.Conforms cfg m.callbacks)
    (hroom : m.queued.length + m.held.length < cfg.numRecvFrames) :
    FrameInv cfg (m.arrive cfg call a) := by
  have hplace := dispatch_place call a m.callbacks
  unfold InlineRecvMux.arrive
  rw [← dispatch_owner call a m.callbacks]
  refine h.put ?_ (fun k hk => ?_) hroom (fun c hc => ?_) (fun cb hcb hq => ?_) _
  · generalize (dispatch call a m.callbacks).place = p at hplace
    cases hplace with
    | queued k hk _ =>
      have hlen := queue_length_le hk
      exact ⟨hk, by omega⟩
    | returned k _ hk => exact (h.recvCall k (hcall.trans (congrArg some hk))).2
    | _ => trivial
  · rw [hk] at hplace
    cases hplace with
    | destroyed _ hmem hflow hkeep =>
      obtain ⟨-, hsends⟩ := h.flowCtrlCall k (hcall.trans (congrArg some hflow))
      exact hconf k hmem hsends hkeep
  · split_ifs at hc
    rw [hcall, hc]
  · rw [hq] at hplace
    split_ifs at hcb
    cases hplace with
    | queued _ _ hne => exact hne (Option.some_inj.mp hcb)

theorem FrameInv.connect (h : FrameInv cfg m) {cb : κ} (hcall : m.call = none)
    (hcb : cb ∉ m.callbacks) :
    FrameInv cfg { m with
      callbacks := m.callbacks ++ [cb], queues := Function.update m.queues cb [] } := by
  have hqueues : Function.update m.queues cb [] = m.queues :=
    Function.update_eq_self_iff.mpr (h.unlisted cb hcb).symm
  have hpooled : pooled (m.callbacks ++ [cb]) (tagged m.queues) =
      pooled m.callbacks (tagged m.queues) := by
    rw [pooled, List.flatMap_append, List.flatMap_singleton,
      tagged_eq_nil.mpr (h.unlisted cb hcb), List.append_nil, pooled]
  rw [hqueues]
  refine { h with
    nodup := ?_
    unlisted := fun k hk => h.unlisted k fun hmem => hk (List.mem_append_left _ hmem)
    recvCall := fun cb' hcb' => absurd (hcb'.symm.trans hcall) (Option.some_ne_none _)
    flowCtrlCall := fun cb' hcb' => absurd (hcb'.symm.trans hcall) (Option.some_ne_none _)
    placed := ?_
    room := ?_ }
  · exact List.nodup_append.mpr ⟨h.nodup, List.nodup_singleton cb, fun k hk k' hk' heq =>
      hcb (by rwa [← List.mem_singleton.mp hk', ← heq])⟩
  · show (m.ended.map _ ++ pooled (m.callbacks ++ [cb]) (tagged m.queues)).Perm _
    rw [hpooled]
    exact h.placed
  · have hjoin := pooled_join hcb m.queues
    rw [hqueues] at hjoin
    show (pooled (m.callbacks ++ [cb]) m.queues).length + _ ≤ _
    rw [hjoin]
    exact h.room

theorem FrameInv.disconnect (h : FrameInv cfg m) {cb : κ} (hcall : m.call = none)
    (hcb : cb ∈ m.callbacks) :
    FrameInv cfg { m with
      callbacks := m.callbacks.erase cb
      queues := Function.update m.queues cb []
      ended := m.ended ++ (m.queues cb).map fun frame => (.flushed cb, frame) } := by
  refine { h with
    nodup := h.nodup.erase cb
    unlisted := fun k hk => ?_
    recvCall := fun cb' hcb' => absurd (hcb'.symm.trans hcall) (Option.some_ne_none _)
    flowCtrlCall := fun cb' hcb' => absurd (hcb'.symm.trans hcall) (Option.some_ne_none _)
    placed := ?_
    destroyed := fun e he k => ?_
    room := ?_
    ordered := fun k => ?_ }
  · by_cases hkcb : k = cb
    · rw [hkcb]
      exact Function.update_self ..
    · show Function.update m.queues cb [] k = []
      rw [Function.update_of_ne hkcb]
      exact h.unlisted k fun hmem => hk ((List.mem_erase_of_ne hkcb).mpr hmem)
  · refine List.Perm.trans ?_ h.placed
    simp only [InlineRecvMux.placed, tagged_update, List.map_append, List.map_map,
      List.map_nil, List.append_assoc]
    exact (pooled_clear h.nodup hcb (tagged m.queues)).symm.append_left _
  · rcases List.mem_append.mp he with he | he
    · exact h.destroyed e he k
    · obtain ⟨f, -, rfl⟩ := List.mem_map.mp he
      exact nofun
  · have hclear := (pooled_clear h.nodup hcb m.queues).length_eq
    rw [List.length_append] at hclear
    have hroom := h.room
    rw [queued] at hroom
    show (pooled (m.callbacks.erase cb) (Function.update m.queues cb [])).length +
      m.held.length ≤ _
    omega
  · have hreturned : (m.ended ++ (m.queues cb).map fun frame =>
        ((.flushed cb : Place κ), frame)).filterMap
        (fun e => if e.1 = .returned k then some e.2 else none) = m.returnedTo k := by
      rw [List.filterMap_append, returnedTo]
      simp
    show (_ ++ Function.update m.queues cb [] k).Pairwise _
    rw [returnedTo, hreturned]
    by_cases hkcb : k = cb
    · rw [hkcb, Function.update_self, List.append_nil]
      exact (List.pairwise_append.mp (h.ordered cb)).1
    · rw [Function.update_of_ne hkcb]
      exact h.ordered k

theorem FrameInv.pop (h : FrameInv cfg m) {cb : κ} (hcall : m.call = none)
    (hcb : cb ∈ m.callbacks) {frame : ℕ} {rest : List ℕ} (hq : m.queues cb = frame :: rest) :
    FrameInv cfg { m with
      queues := Function.update m.queues cb rest
      ended := m.ended ++ [(.returned cb, frame)]
      held := m.held ++ [frame] } := by
  refine { h with
    unlisted := fun k hk => ?_
    recvCall := fun cb' hcb' => absurd (hcb'.symm.trans hcall) (Option.some_ne_none _)
    placed := ?_
    destroyed := fun e he k => ?_
    room := ?_
    ordered := fun k => ?_ }
  · have hne : k ≠ cb := fun heq => hk (heq ▸ hcb)
    show Function.update m.queues cb rest k = []
    rw [Function.update_of_ne hne]
    exact h.unlisted k hk
  · refine List.Perm.trans ?_ h.placed
    have htagged : tagged m.queues cb = (some cb, frame) :: rest.map fun f => (some cb, f) := by
      rw [tagged, hq, List.map_cons]
    simp only [InlineRecvMux.placed, tagged_update, List.map_append, List.map_cons,
      List.map_nil, List.append_assoc, List.singleton_append]
    exact (pooled_pop h.nodup hcb htagged).symm.append_left _
  · rcases List.mem_append.mp he with he | he
    · exact h.destroyed e he k
    · rw [List.mem_singleton.mp he]
      exact nofun
  · have hpop := (pooled_pop h.nodup hcb hq).length_eq
    rw [List.length_cons] at hpop
    have hroom := h.room
    rw [queued] at hroom
    show (pooled m.callbacks (Function.update m.queues cb rest)).length +
      (m.held ++ [frame]).length ≤ _
    rw [List.length_append, List.length_singleton]
    omega
  · have hold := h.ordered k
    show (returnedTo _ k ++ Function.update m.queues cb rest k).Pairwise _
    by_cases hkcb : k = cb
    · subst hkcb
      rw [hq] at hold
      simpa [returnedTo] using hold
    · have hkcb' : cb ≠ k := fun heq => hkcb heq.symm
      rw [Function.update_of_ne hkcb]
      simpa [returnedTo, hkcb'] using hold

theorem FrameInv.step {a : MuxAction κ} {m' : InlineRecvMux κ} (h : FrameInv cfg m)
    (hstep : step cfg m a = some m') : FrameInv cfg m' := by
  cases a with
  | connect cb =>
    simp only [InlineRecvMux.step] at hstep
    split_ifs at hstep with hc
    rw [Option.some_inj] at hstep
    exact hstep ▸ h.connect hc.1 hc.2
  | disconnect cb =>
    simp only [InlineRecvMux.step] at hstep
    split_ifs at hstep with hc
    rw [Option.some_inj] at hstep
    exact hstep ▸ h.disconnect hc.1 hc.2
  | recv cb =>
    simp only [InlineRecvMux.step] at hstep
    split_ifs at hstep with hc
    cases hq : m.queues cb with
    | nil =>
      simp only [hq, Option.some_inj] at hstep
      subst hstep
      exact { h with
        recvCall := fun cb' hcb' => by
          obtain rfl : cb = cb' := by simpa using hcb'
          exact ⟨hc.2.1, hq⟩
        flowCtrlCall := fun cb' hcb' => nomatch hcb' }
    | cons frame rest =>
      simp only [hq, Option.some_inj] at hstep
      exact hstep ▸ h.pop hc.1 hc.2.1 hq
  | flowCtrl cb =>
    simp only [InlineRecvMux.step] at hstep
    split_ifs at hstep with hc
    rw [Option.some_inj] at hstep
    subst hstep
    exact { h with
      recvCall := fun cb' hcb' => nomatch hcb'
      flowCtrlCall := fun cb' hcb' => by
        obtain rfl : cb = cb' := by simpa using hcb'
        exact hc.2 }
  | arrive a =>
    simp only [InlineRecvMux.step] at hstep
    cases hcall : m.call with
    | none => simp [hcall] at hstep
    | some call =>
      simp only [hcall] at hstep
      split_ifs at hstep with hroom
      rw [Option.some_inj] at hstep
      exact hstep ▸ h.arrive hcall hroom.2 hroom.1
  | timeout =>
    simp only [InlineRecvMux.step] at hstep
    split_ifs at hstep
    rw [Option.some_inj] at hstep
    subst hstep
    exact { h with
      recvCall := fun cb' hcb' => nomatch hcb'
      flowCtrlCall := fun cb' hcb' => nomatch hcb' }
  | release frame =>
    simp only [InlineRecvMux.step] at hstep
    split_ifs at hstep
    rw [Option.some_inj] at hstep
    subst hstep
    exact { h with room := Nat.le_trans (Nat.add_le_add_left List.length_erase_le _) h.room }

/-! ## Whole runs -/

/-- **What the multiplexer does with its frames.**  In every run each frame taken from the
link is in exactly one place, with the client whose callback accepted it; no queue loses a
frame and none is dropped; every client is given its frames in the order in which they
arrived.  No callback is called without a frame exactly when every frame that
`recv_flow_ctrl` queues for another client is for the one that was registered last. -/
theorem frames_of_run (cfg : MuxConfig κ) (as : List (MuxAction κ)) (m : InlineRecvMux κ)
    (h : run (step cfg) {} as = some m) :
    m.placed.Perm m.owners.zipIdx ∧ m.overwritten = [] ∧
      (∀ e ∈ m.ended, ∀ k, e.1 ≠ .destroyed k) ∧
      (∀ k, (m.returnedTo k ++ m.queues k).Pairwise (· < ·)) ∧
      (m.nullCalls = [] ↔ EveryStep (step cfg) QueuesLast {} as) := by
  have hinv : FrameInv cfg m :=
    run_invariant (I := FrameInv cfg) (fun _ _ _ h => h.step) (frameInv_init cfg) h
  refine ⟨hinv.placed, hinv.overwritten, hinv.destroyed, hinv.ordered, ?_⟩
  obtain ⟨new, hnew, hgood⟩ := run_log_append 
    (fun _ _ _ => nullCalls_of_step) h
  rw [← hgood, hnew]
  exact Iff.of_eq (congrArg (· = []) (List.nil_append new))

/-! ## A data client and a control client -/

/-- Two clients of one link: `true` sends and waits for flow control, `false` receives. -/
def twoClients : MuxConfig Bool := ⟨2, id⟩

/-- A data frame for the receiving client. -/
def dataFrame : Arrival Bool where
  answer k := if k then .notMine else .keep

/-- The data frame arrives while the other client waits for flow control, and that one was
registered last: its callback is called without a frame. -/
theorem nullCall_of_data_frame : ∃ m, run (step twoClients) {}
    [.connect false, .connect true, .flowCtrl true, .arrive dataFrame] = some m ∧
      m.queues false = [0] ∧ m.nullCalls = [true] ∧ ¬ m.nullCalls = [] := by
  have hrun : (run (step twoClients) {} [.connect false, .connect true, .flowCtrl true,
      .arrive dataFrame]).map (fun m => (m.queues false, m.nullCalls)) =
      some ([0], [true]) := by decide
  obtain ⟨m, hrun, heq⟩ := Option.map_eq_some_iff.mp hrun
  rw [Prod.mk.injEq] at heq
  exact ⟨m, hrun, heq.1, heq.2, by rw [heq.2]; decide⟩

/-- Registered the other way round, the same frame does no harm, and the receiving client
gets it. -/
theorem queuesLast_of_data_frame : EveryStep (step twoClients) QueuesLast {}
    [.connect true, .connect false, .flowCtrl true, .arrive dataFrame, .timeout,
      .recv false] := by
  have hrun : (run (step twoClients) {} [.connect true, .connect false, .flowCtrl true,
      .arrive dataFrame, .timeout, .recv false]).map (fun m => m.nullCalls) =
      some [] := by decide
  obtain ⟨m, hrun, hnull⟩ := Option.map_eq_some_iff.mp hrun
  exact (frames_of_run twoClients _ m hrun).2.2.2.2.mp hnull

end InlineRecvMux
end Transport
end UhdHost
