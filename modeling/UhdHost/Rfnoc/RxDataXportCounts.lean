import UhdHost.Rfnoc.RxDataXport

/-!
# The counts of the receive transport

The received counts and the transferred counts wrap, and a resync moves both.  What the transport
relies on are their differences: received minus transferred is what is held, and transferred minus
what the last response said decides whether the next one is due (`CountsInv`).  Every callback keeps
both, also where it throws; `counts_of_run` says so for whole runs, and that a resync makes the
received counts those of the device.
-/

namespace UhdHost
namespace Rfnoc

open Stateful StreamBuffParams RxFlowCtrlState

variable {cfg : RxXportConfig}

namespace RxDataXport

variable {x : RxDataXport}

/-! ## What the callbacks keep -/

/-- Received minus transferred is what is held, and transferred minus what the last response said
is what was released, or reported as lost, since then. -/
structure CountsInv (cfg : RxXportConfig) (x : RxDataXport) : Prop where
  freq_eq : x.fcState.fcFreq = cfg.freq
  held_eq : x.fcState.recvCounts - x.fcState.xferCounts = total (x.held.map cfg.size)
  since_eq : x.fcState.xferCounts - x.fcState.lastFcRespCounts =
    total x.releasedSince + x.lostSince
  decisions_iff : ∀ d ∈ x.decisions, d.due = true ↔ Reaches cfg.freq (total d.released + d.lost)

theorem CountsInv.fcRespDue_iff (h : CountsInv cfg x) :
    x.fcState.fcRespDue = true ↔ Reaches cfg.freq (total x.releasedSince + x.lostSince) := by
  rw [RxFlowCtrlState.fcRespDue_iff, h.freq_eq, h.since_eq]

theorem CountsInv.sendFcResponse (h : CountsInv cfg x) (linkHasBuff : Bool) :
    CountsInv cfg (stateAfter (x.sendFcResponse linkHasBuff)) := by
  have hdecisions : ∀ d ∈ x.decisions ++
      [FcDecision.mk x.fcState.fcRespDue x.releasedSince x.lostSince],
      d.due = true ↔ Reaches cfg.freq (total d.released + d.lost) := by
    intro d hd
    rcases List.mem_append.mp hd with hd | hd
    · exact h.decisions_iff d hd
    · rw [List.mem_singleton.mp hd]
      exact h.fcRespDue_iff
  unfold RxDataXport.sendFcResponse
  dsimp only
  split_ifs
  · refine ⟨h.freq_eq, h.held_eq, ?_, hdecisions⟩
    change x.fcState.xferCounts - x.fcState.xferCounts = total [] + 0
    rw [sub_self, total_nil, add_zero]
  · exact ⟨h.freq_eq, h.held_eq, h.since_eq, hdecisions⟩
  · exact ⟨h.freq_eq, h.held_eq, h.since_eq, hdecisions⟩

theorem recvCounts_sendFcResponse (x : RxDataXport) (linkHasBuff : Bool) :
    (stateAfter (x.sendFcResponse linkHasBuff)).fcState.recvCounts = x.fcState.recvCounts := by
  unfold RxDataXport.sendFcResponse
  dsimp only
  split_ifs <;> rfl

theorem CountsInv.resync (h : CountsInv cfg x) (counts : StreamBuffParams) (size : ℕ) :
    CountsInv cfg (((x.resynchronize counts).dataReceived size).xferDone size) where
  freq_eq := (fcFreq_resynchronize x.fcState counts).trans h.freq_eq
  held_eq := by
    change (x.fcState.resynchronize counts).recvCounts + packet size -
      ((x.fcState.resynchronize counts).xferCounts + packet size) = _
    rw [recvCounts_resynchronize, xferCounts_resynchronize]
    refine Eq.trans ?_ h.held_eq
    abel
  since_eq := by
    change (x.fcState.resynchronize counts).xferCounts + packet size -
      (x.fcState.resynchronize counts).lastFcRespCounts =
        total (x.releasedSince ++ [size]) + (x.lostSince + (counts - x.fcState.recvCounts))
    rw [xferCounts_resynchronize, lastFcRespCounts_resynchronize, total_concat]
    have hsince := h.since_eq
    rw [sub_eq_iff_eq_add] at hsince
    rw [hsince]
    abel
  decisions_iff := h.decisions_iff

theorem CountsInv.data (h : CountsInv cfg x) (pkt : RxPacket) :
    CountsInv cfg { x.dataReceived (cfg.size pkt) with held := x.held ++ [pkt] } where
  freq_eq := h.freq_eq
  held_eq := by
    change x.fcState.recvCounts + packet (cfg.size pkt) - x.fcState.xferCounts =
      total ((x.held ++ [pkt]).map cfg.size)
    rw [List.map_append, List.map_singleton, total_concat, ← h.held_eq]
    abel
  since_eq := h.since_eq
  decisions_iff := h.decisions_iff

theorem CountsInv.recvPacket (h : CountsInv cfg x) (linkHasBuff : Bool) (pkt : RxPacket) :
    CountsInv cfg (x.recvPacket cfg linkHasBuff pkt) := by
  unfold RxDataXport.recvPacket RxDataXport.recvCallback
  by_cases hepid : pkt.dstEpid ≠ cfg.epid
  · rw [if_pos hepid]
    exact h
  rw [if_neg hepid]
  cases pkt.pktType with
  | mgmt => exact h
  | strs => exact h
  | ctrl => exact h
  | dataNoTs => exact h.data pkt
  | dataWithTs => exact h.data pkt
  | strc =>
    cases pkt.strc with
    | none => exact h
    | some strc =>
      dsimp only
      split_ifs
      · have hsent := (h.resync strc.counts (cfg.size pkt)).sendFcResponse linkHasBuff
        generalize hresult : (((x.resynchronize strc.counts).dataReceived (cfg.size pkt)).xferDone
          (cfg.size pkt)).sendFcResponse linkHasBuff = result at hsent ⊢
        cases result with
        | ok u x' => exact hsent
        | error e x' => exact hsent
      · exact h

theorem CountsInv.releaseRecvBuff (h : CountsInv cfg x) (linkHasBuff : Bool) {i : ℕ}
    {pkt : RxPacket} (hi : x.held[i]? = some pkt) :
    CountsInv cfg (x.releaseRecvBuff cfg linkHasBuff i pkt) := by
  have hreleased : CountsInv cfg (({ x with held := x.held.eraseIdx i } : RxDataXport).xferDone
      (cfg.size pkt)) := by
    refine ⟨h.freq_eq, ?_, ?_, h.decisions_iff⟩
    · change x.fcState.recvCounts - (x.fcState.xferCounts + packet (cfg.size pkt)) =
        total ((x.held.eraseIdx i).map cfg.size)
      have hsize : (x.held.map cfg.size)[i]? = some (cfg.size pkt) := by
        rw [List.getElem?_map, hi]
        rfl
      rw [← List.eraseIdx_map, total_eraseIdx hsize, ← h.held_eq]
      abel
    · change x.fcState.xferCounts + packet (cfg.size pkt) - x.fcState.lastFcRespCounts =
        total (x.releasedSince ++ [cfg.size pkt]) + x.lostSince
      have hsince := h.since_eq
      rw [sub_eq_iff_eq_add] at hsince
      rw [total_concat, hsince]
      abel
  exact hreleased.sendFcResponse linkHasBuff

end RxDataXport

/-! ## Runs -/

namespace RxXportSystem

open RxDataXport

theorem recvCounts_recvPacket {x : RxDataXport} {pkt : RxPacket}
    (hresync : isResync cfg pkt = true) (linkHasBuff : Bool) :
    ∃ strc, pkt.strc = some strc ∧ (x.recvPacket cfg linkHasBuff pkt).fcState.recvCounts =
      strc.counts + packet (cfg.size pkt) := by
  unfold isResync at hresync
  rw [Bool.and_eq_true, decide_eq_true_iff] at hresync
  obtain ⟨⟨hepid, htype⟩, hopCode⟩ := hresync
  cases hstrc : pkt.strc with
  | none =>
    rw [hstrc] at hopCode
    exact absurd hopCode Bool.false_ne_true
  | some strc =>
    rw [hstrc] at hopCode
    refine ⟨strc, rfl, ?_⟩
    unfold RxDataXport.recvPacket RxDataXport.recvCallback
    rw [if_neg (not_not.mpr hepid), htype, hstrc]
    dsimp only
    rw [if_pos (of_decide_eq_true hopCode)]
    have hcounts := recvCounts_sendFcResponse (((x.resynchronize strc.counts).dataReceived
      (cfg.size pkt)).xferDone (cfg.size pkt)) linkHasBuff
    have hset : (((x.resynchronize strc.counts).dataReceived (cfg.size pkt)).xferDone
        (cfg.size pkt)).fcState.recvCounts = strc.counts + packet (cfg.size pkt) := by
      change (x.fcState.resynchronize strc.counts).recvCounts + packet (cfg.size pkt) = _
      rw [recvCounts_resynchronize]
    rw [hset] at hcounts
    generalize (((x.resynchronize strc.counts).dataReceived (cfg.size pkt)).xferDone
      (cfg.size pkt)).sendFcResponse linkHasBuff = result at hcounts ⊢
    cases result with
    | ok u x' => exact hcounts
    | error e x' => exact hcounts

/-- The counts are right, a resync on the link tells what the device had counted before it, and
the resyncs that were handled have set the received counts to what the device had counted. -/
structure Inv (cfg : RxXportConfig) (s : RxXportSystem) : Prop where
  counts : CountsInv cfg s.xport
  inFlight_eq : ∀ f ∈ s.inFlight, isResync cfg f.packet = true → ∀ strc, f.packet.strc = some strc →
    strc.counts + packet (cfg.size f.packet) = f.sentCounts
  resyncs_eq : ∀ r ∈ s.resyncs, r.recvCounts = r.sentCounts

theorem inv_init (cfg : RxXportConfig) : Inv cfg (init cfg) where
  counts :=
    ⟨rfl, sub_self 0, (sub_self 0).trans (add_zero 0).symm, fun _ hd => absurd hd List.not_mem_nil⟩
  inFlight_eq := fun _ hf => absurd hf List.not_mem_nil
  resyncs_eq := fun _ hr => absurd hr List.not_mem_nil

theorem Inv.send {s : RxXportSystem} (h : Inv cfg s) {pkt : RxPacket}
    (hpkt : ∀ strc, pkt.strc = some strc → strc.counts = s.sentCounts) :
    Inv cfg (s.send cfg pkt) where
  counts := h.counts
  inFlight_eq := by
    intro f hf hresync strc hstrc
    rcases List.mem_append.mp hf with hf | hf
    · exact h.inFlight_eq f hf hresync strc hstrc
    · rw [List.mem_singleton.mp hf] at hstrc ⊢
      rw [hpkt strc hstrc]
      refine StreamBuffParams.ext ?_ ?_
      · exact (UInt64.ofNat_add ..).symm
      · exact (UInt32.ofNat_add ..).symm
  resyncs_eq := h.resyncs_eq

theorem inv_step (s : RxXportSystem) (a : RxXportStep) (s' : RxXportSystem) (h : Inv cfg s)
    (hstep : step cfg s a = some s') : Inv cfg s' := by
  cases a with
  | sendData length withTs =>
    obtain rfl := Option.some.inj hstep
    exact h.send fun strc hstrc => absurd hstrc (by simp)
  | sendStrc length opCode =>
    obtain rfl := Option.some.inj hstep
    refine h.send fun strc hstrc => ?_
    obtain rfl := Option.some.inj hstrc
    refine StreamBuffParams.ext rfl ?_
    change (UInt64.ofNat (s.sentPkts % 2 ^ 40)).toUInt32 = UInt32.ofNat s.sentPkts
    refine UInt32.toNat_inj.mp ?_
    simp
  | sendOther packet =>
    unfold step at hstep
    dsimp only at hstep
    split_ifs at hstep with hstream
    obtain rfl := Option.some.inj hstep
    refine ⟨h.counts, fun f hf hresync strc hstrc => ?_, h.resyncs_eq⟩
    rcases List.mem_append.mp hf with hf | hf
    · exact h.inFlight_eq f hf hresync strc hstrc
    · rw [List.mem_singleton.mp hf] at hresync
      unfold isResync at hresync
      rw [Bool.and_eq_true, decide_eq_true_iff] at hresync
      exact absurd ⟨hresync.1.1, Or.inl hresync.1.2⟩ hstream
  | lose i =>
    unfold step at hstep
    dsimp only at hstep
    split_ifs at hstep
    obtain rfl := Option.some.inj hstep
    exact ⟨h.counts, fun f hf => h.inFlight_eq f (List.mem_of_mem_eraseIdx hf), h.resyncs_eq⟩
  | deliver i linkHasBuff =>
    unfold step at hstep
    dsimp only at hstep
    cases hi : s.inFlight[i]? with
    | none =>
      rw [hi] at hstep
      exact absurd hstep (by simp)
    | some f =>
      rw [hi] at hstep
      obtain rfl := Option.some.inj hstep
      refine ⟨h.counts.recvPacket linkHasBuff f.packet,
        fun f hf => h.inFlight_eq f (List.mem_of_mem_eraseIdx hf), fun r hr => ?_⟩
      dsimp only at hr
      split_ifs at hr with hresync
      · rcases List.mem_append.mp hr with hr | hr
        · exact h.resyncs_eq r hr
        · rw [List.mem_singleton.mp hr]
          obtain ⟨strc, hstrc, hrecv⟩ := recvCounts_recvPacket hresync linkHasBuff
          exact hrecv.trans (h.inFlight_eq f (List.mem_of_getElem? hi) hresync strc hstrc)
      · exact h.resyncs_eq r hr
  | release i linkHasBuff =>
    unfold step at hstep
    dsimp only at hstep
    cases hi : s.xport.held[i]? with
    | none =>
      rw [hi] at hstep
      exact absurd hstep (by simp)
    | some pkt =>
      rw [hi] at hstep
      obtain rfl := Option.some.inj hstep
      exact ⟨h.counts.releaseRecvBuff linkHasBuff hi, h.inFlight_eq, h.resyncs_eq⟩

/-- **The counts after any steps.**  Received minus transferred is what is held; every resync has
set the received counts to what the device had counted; and a response is due, now and at each time
when the transport looked, exactly when what was released since the last response, with what resyncs
reported as lost since then, reaches the configured frequency. -/
theorem counts_of_run {steps : List RxXportStep} {s : RxXportSystem}
    (h : Transition.run (step cfg) (init cfg) steps = some s) :
    s.xport.fcState.recvCounts - s.xport.fcState.xferCounts =
        total (s.xport.held.map cfg.size) ∧
      (∀ r ∈ s.resyncs, r.recvCounts = r.sentCounts) ∧
      (s.xport.fcState.fcRespDue = true ↔
        Reaches cfg.freq (total s.xport.releasedSince + s.xport.lostSince)) ∧
      ∀ d ∈ s.xport.decisions, d.due = true ↔ Reaches cfg.freq (total d.released + d.lost) := by
  have hinv : Inv cfg s :=
    Transition.run_invariant (fun s a s' => inv_step s a s') (inv_init cfg) h
  exact ⟨hinv.counts.held_eq, hinv.resyncs_eq, hinv.counts.fcRespDue_iff,
    hinv.counts.decisions_iff⟩

/-- A transport that is to answer after 1000 bytes or 10 packets. -/
def lossyConfig : RxXportConfig := { epid := 1, chdrW := .w64, freq := ⟨1000, 10⟩ }

/-- A data packet is lost, and a resync tells so. -/
def lossyRun : List RxXportStep :=
  [.sendData 992 false, .lose 0, .sendStrc 24 .resync, .deliver 0 true]

theorem counts_of_run_lossy : ∃ s,
    Transition.run (step lossyConfig) (init lossyConfig) lossyRun = some s ∧
      s.xport.fcState.recvCounts = ⟨1016, 2⟩ ∧
      s.xport.fcState.recvCounts - s.xport.fcState.xferCounts =
        total (s.xport.held.map lossyConfig.size) ∧
      ∀ d ∈ s.xport.decisions,
        d.due = true ↔ Reaches lossyConfig.freq (total d.released + d.lost) := by
  obtain ⟨s, hrun, hs⟩ := Option.map_eq_some_iff.mp (by decide +kernel :
    (Transition.run (step lossyConfig) (init lossyConfig) lossyRun).map
      (fun s => s.xport.fcState.recvCounts) = some ⟨1016, 2⟩)
  have hcounts := counts_of_run hrun
  exact ⟨s, hrun, hs, hcounts.1, hcounts.2.2.2⟩

/-- What a resync reports as lost makes a response due, though only the resync was released. -/
theorem response_due_for_lost : ¬ ∀ (cfg : RxXportConfig) (steps : List RxXportStep)
    (s : RxXportSystem), Transition.run (step cfg) (init cfg) steps = some s →
      ∀ d ∈ s.xport.decisions, d.due = true ↔ Reaches cfg.freq (total d.released) := by
  intro h
  obtain ⟨s, hrun, hs⟩ := Option.map_eq_some_iff.mp (by decide +kernel :
    (Transition.run (step lossyConfig) (init lossyConfig) lossyRun).map
      (fun s => decide (∀ d ∈ s.xport.decisions,
        d.due = true ↔ Reaches lossyConfig.freq (total d.released))) = some false)
  exact of_decide_eq_false hs (h lossyConfig lossyRun s hrun)

end RxXportSystem

end Rfnoc
end UhdHost
