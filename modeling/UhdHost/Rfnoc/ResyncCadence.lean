import UhdHost.Rfnoc.TxDataXport

/-!
# How often a resync is sent

A transmit stream sends a flow control resync every time it has sent a buffer's worth of bytes.
`data_sent` decides by the difference between two byte counts: what was transferred, and what
was transferred at the last resync.

## What a reset leaves behind

`reset` clears the first count and not the second, and it does not clear a request that is
pending.  After a resync at `n` bytes a reset makes the unsigned difference wrap below zero, and
the init packet alone then looks like more than the capacity of the destination.  A stream is
`InCadence` while the difference is the number of bytes since the later of the last resync and
the last reset, and a request is pending exactly when that number has come to the capacity.

`inCadence_iff` says that a run of the transport stays in cadence exactly when each reset finds
nothing of an earlier resync (`FreshReset`).
-/

namespace UhdHost
namespace Rfnoc

open CreditWindow Transition

/-! ## One packet -/

namespace TxFlowCtrlState

variable {s : TxFlowCtrlState} {n p : ℕ}

/-- The difference that `data_sent` compares. -/
def bytesSinceResync (s : TxFlowCtrlState) : UInt64 := s.xferCounts.bytes - s.lastFcResyncBytes

theorem bytesSinceResync_dataSent (h : s.bytesSinceResync = UInt64.ofNat n) (p : ℕ) :
    (s.dataSent p).bytesSinceResync = UInt64.ofNat (n + p) := by
  have hstep : (s.dataSent p).bytesSinceResync = s.bytesSinceResync + UInt64.ofNat p := by
    show s.xferCounts.bytes + UInt64.ofNat p - s.lastFcResyncBytes = _
    rw [bytesSinceResync, sub_add_eq_add_sub]
  rw [hstep, h, UInt64.ofNat_add]

theorem fcResyncReq_dataSent (s : TxFlowCtrlState) (p : ℕ) :
    (s.dataSent p).fcResyncReq = true ↔
      s.destCapacity.bytes ≤ (s.dataSent p).bytesSinceResync ∨ s.fcResyncReq = true := by
  show (if s.xferCounts.bytes + UInt64.ofNat p - s.lastFcResyncBytes ≥ s.destCapacity.bytes
    then true else s.fcResyncReq) = true ↔ s.destCapacity.bytes ≤
      s.xferCounts.bytes + UInt64.ofNat p - s.lastFcResyncBytes ∨ s.fcResyncReq = true
  split_ifs with hle
  · exact ⟨fun _ => Or.inl hle, fun _ => rfl⟩
  · exact ⟨Or.inr, fun h => h.resolve_left hle⟩

theorem requested_iff_dataSent (h : s.bytesSinceResync = UInt64.ofNat n)
    (hpending : s.fcResyncReq = true → s.destCapacity.bytes.toNat ≤ n + p)
    (hroom : s.fcResyncReq = false → n + p < 2 ^ 64) :
    (s.dataSent p).fcResyncReq = true ↔ s.destCapacity.bytes.toNat ≤ n + p := by
  rw [fcResyncReq_dataSent, bytesSinceResync_dataSent h]
  by_cases hreq : s.fcResyncReq = true
  · exact ⟨fun _ => hpending hreq, fun _ => Or.inr hreq⟩
  · have hlt := hroom (Bool.eq_false_iff.mpr hreq)
    rw [UInt64.le_iff_toNat_le, UInt64.toNat_ofNat_of_lt' hlt]
    exact ⟨fun hle => hle.resolve_right hreq, Or.inl⟩

end TxFlowCtrlState

/-! ## Counting since the last resync or reset -/

/-- The transport, and how many bytes were sent since the later of the last resync and the last
reset.  Nothing is counted before the first packet. -/
structure CadenceXport where
  xport : TxDataXport
  sinceResync : Option ℕ := none

namespace CadenceXport

/-- A transport that has just been constructed. -/
def init (cfg : XportConfig) : CadenceXport := { xport := TxDataXport.init cfg }

/-- What the count is after an action. -/
def countAfter (cfg : XportConfig) (t : CadenceXport) : XportAction → Option ℕ
  | .release packetSize => some (t.sinceResync.getD 0 + roundPktSize cfg.chdrW packetSize)
  | .resync linkHasBuff =>
    if t.xport.fcState.fcResyncReq ∧ t.xport.fcState.destHasSpace maxStrcPacketSize ∧
        linkHasBuff then
      -- the resync packet is the first after the count starts again
      some (roundPktSize cfg.chdrW (strcLength cfg.chdrW))
    else t.sinceResync
  | .resendInit => some (roundPktSize cfg.chdrW (strcLength cfg.chdrW))
  | .getSendBuff | .free _ | .report _ _ | .deliver _ => t.sinceResync

/-- One step of the transport, with the count. -/
def step (cfg : XportConfig) (t : CadenceXport) (a : XportAction) : Option CadenceXport :=
  (TxDataXport.step cfg t.xport a).map fun xport => ⟨xport, t.countAfter cfg a⟩

/-- **In cadence.**  The difference is the number of bytes since the later of the last resync
and the last reset, and a resync is requested exactly when that is at least the capacity. -/
def InCadence (cfg : XportConfig) (t : CadenceXport) : Prop :=
  ∀ n, t.sinceResync = some n →
    t.xport.fcState.bytesSinceResync = UInt64.ofNat n ∧
      (t.xport.fcState.fcResyncReq = true ↔ cfg.capacity.toNat ≤ n)

/-- A reset finds no count of an earlier resync, and no pending request that the init packet
does not call for. -/
def FreshReset (cfg : XportConfig) (t : CadenceXport) : XportAction → Prop
  | .resendInit =>
    t.xport.fcState.lastFcResyncBytes = 0 ∧
      (t.xport.fcState.fcResyncReq = true →
        cfg.capacity.toNat ≤ roundPktSize cfg.chdrW (strcLength cfg.chdrW))
  | _ => True

instance decidableFreshReset (cfg : XportConfig) (t : CadenceXport) :
    (a : XportAction) → Decidable (FreshReset cfg t a)
  | .resendInit => inferInstanceAs (Decidable (_ ∧ _))
  | .getSendBuff | .release _ | .resync _ | .free _ | .report _ _ | .deliver _ => isTrue trivial

theorem exists_run {cfg : XportConfig} {as : List XportAction} {st st' : TxDataXport}
    (h : run (TxDataXport.step cfg) st as = some st') (t : CadenceXport) (ht : t.xport = st) :
    ∃ t', run (step cfg) t as = some t' ∧ t'.xport = st' := by
  induction as generalizing st t with
  | nil =>
    rw [run_nil, Option.some_inj] at h
    exact ⟨t, rfl, ht.trans h⟩
  | cons a as ih =>
    obtain ⟨mid, hmid, h⟩ := run_cons_eq_some.mp h
    have hstep : step cfg t a = some ⟨mid, t.countAfter cfg a⟩ := by
      rw [step, ht, hmid]
      rfl
    obtain ⟨t', hrun, hxport⟩ := ih h ⟨mid, t.countAfter cfg a⟩ rfl
    exact ⟨t', run_cons_eq_some.mpr ⟨_, hstep, hrun⟩, hxport⟩

/-! ## The invariant -/

/-- In cadence, with what the next packet needs. -/
structure CadenceInv (cfg : XportConfig) (t : CadenceXport) : Prop where
  capacity : t.xport.fcState.destCapacity.bytes = cfg.capacity
  difference : t.xport.fcState.bytesSinceResync = UInt64.ofNat (t.sinceResync.getD 0)
  pending : t.xport.fcState.fcResyncReq = true → cfg.capacity.toNat ≤ t.sinceResync.getD 0
  requested : ∀ n, t.sinceResync = some n → cfg.capacity.toNat ≤ n →
    t.xport.fcState.fcResyncReq = true

variable {cfg : XportConfig} {t t' : CadenceXport} {a : XportAction}

theorem cadenceInv_init (cfg : XportConfig) : CadenceInv cfg (init cfg) where
  capacity := rfl
  difference := sub_self (0 : UInt64)
  pending h := absurd h Bool.false_ne_true
  requested _ h := absurd h (Option.some_ne_none _).symm

theorem CadenceInv.inCadence (h : CadenceInv cfg t) : InCadence cfg t := by
  intro n hn
  have hdifference := h.difference
  have hpending := h.pending
  rw [hn, Option.getD_some] at hdifference hpending
  exact ⟨hdifference, hpending, h.requested n hn⟩

theorem CadenceInv.dataSent (s : TxFlowCtrlState) {n p : ℕ}
    (hcapacity : s.destCapacity.bytes = cfg.capacity)
    (hdifference : s.bytesSinceResync = UInt64.ofNat n)
    (hpending : s.fcResyncReq = true → cfg.capacity.toNat ≤ n + p)
    (hroom : s.fcResyncReq = false → n + p < 2 ^ 64) {t : CadenceXport}
    (hstate : t.xport.fcState = s.dataSent p) (hcount : t.sinceResync = some (n + p)) :
    CadenceInv cfg t := by
  rw [← hcapacity] at hpending
  have hrequested := TxFlowCtrlState.requested_iff_dataSent hdifference hpending hroom
  rw [hcapacity] at hrequested
  constructor
  · rw [hstate, TxFlowCtrlState.destCapacity_dataSent, hcapacity]
  · rw [hstate, hcount, Option.getD_some]
    exact TxFlowCtrlState.bytesSinceResync_dataSent hdifference p
  · rw [hstate, hcount, Option.getD_some]
    exact hrequested.mp
  · intro m hm hle
    rw [hcount, Option.some_inj] at hm
    rw [hstate]
    exact hrequested.mpr (hm ▸ hle)

theorem CadenceInv.of_untouched (h : CadenceInv cfg t)
    (hcapacity : t'.xport.fcState.destCapacity = t.xport.fcState.destCapacity)
    (hdifference : t'.xport.fcState.bytesSinceResync = t.xport.fcState.bytesSinceResync)
    (hreq : t'.xport.fcState.fcResyncReq = t.xport.fcState.fcResyncReq)
    (hcount : t'.sinceResync = t.sinceResync) : CadenceInv cfg t' := by
  constructor
  · rw [hcapacity, h.capacity]
  · rw [hdifference, hcount, h.difference]
  · rw [hreq, hcount]
    exact h.pending
  · rw [hreq, hcount]
    exact h.requested

theorem roundPktSize_mono (w : ChdrW) {m n : ℕ} (h : m ≤ n) :
    roundPktSize w m ≤ roundPktSize w n :=
  Nat.mul_le_mul_right _ (Nat.div_le_div_right (by omega))

theorem CadenceInv.step (h : CadenceInv cfg t) (hcap : cfg.capacity.toNat ≤ 2 ^ 63)
    (hframe : roundPktSize cfg.chdrW cfg.frameSize ≤ 2 ^ 63)
    (hstep : CadenceXport.step cfg t a = some t') (hgood : FreshReset cfg t a) :
    CadenceInv cfg t' := by
  have hstrc := roundPktSize_strcLength_le cfg.chdrW
  have hmax : maxStrcPacketSize = 128 := rfl
  obtain ⟨xport, hxport, hnext⟩ := Option.map_eq_some_iff.mp hstep
  subst hnext
  cases a with
  | getSendBuff =>
    simp only [TxDataXport.step] at hxport
    split_ifs at hxport <;> cases hxport
    · exact h.of_untouched rfl rfl rfl rfl
    · exact h.of_untouched rfl rfl rfl rfl
  | release packetSize =>
    simp only [TxDataXport.step] at hxport
    split_ifs at hxport with hhold
    cases hxport
    have hsize := roundPktSize_mono cfg.chdrW hhold.2
    refine CadenceInv.dataSent t.xport.fcState h.capacity h.difference
      (fun hreq => (h.pending hreq).trans (Nat.le_add_right ..)) ?_ rfl rfl
    -- without a request less than the capacity was sent
    intro hreq
    cases hcount : t.sinceResync with
    | none =>
      rw [Option.getD_none]
      omega
    | some n =>
      rw [Option.getD_some]
      have hlt : n < cfg.capacity.toNat := by
        by_contra hge
        rw [h.requested n hcount (Nat.not_lt.mp hge)] at hreq
        cases hreq
      omega
  | resync linkHasBuff =>
    simp only [TxDataXport.step] at hxport
    split_ifs at hxport with hcharged hreq <;> cases hxport
    · have hcleared : t.xport.fcState.clearFcResyncReqPending.bytesSinceResync =
          UInt64.ofNat 0 := sub_self t.xport.fcState.xferCounts.bytes
      refine CadenceInv.dataSent t.xport.fcState.clearFcResyncReqPending h.capacity hcleared
        (fun hfalse => absurd hfalse Bool.false_ne_true) (fun _ => ?_) rfl ?_
      · omega
      · rw [Nat.zero_add]
        exact if_pos hreq
    · exact h.of_untouched rfl rfl rfl (if_neg hreq)
  | resendInit =>
    obtain ⟨hlast, hpending⟩ := hgood
    simp only [TxDataXport.step] at hxport
    split_ifs at hxport
    cases hxport
    have hreset : t.xport.fcState.reset.bytesSinceResync = UInt64.ofNat 0 := by
      show 0 - t.xport.fcState.lastFcResyncBytes = UInt64.ofNat 0
      rw [hlast]
      exact sub_self 0
    refine CadenceInv.dataSent t.xport.fcState.reset h.capacity hreset (fun hreq => ?_)
      (fun _ => ?_) rfl ?_
    · rw [Nat.zero_add]
      exact hpending hreq
    · omega
    · rw [Nat.zero_add]
      rfl
  | free numBytes =>
    simp only [TxDataXport.step] at hxport
    split_ifs at hxport
    cases hxport
    exact h.of_untouched rfl rfl rfl rfl
  | report xferCountBytes xferCountPkts =>
    simp only [TxDataXport.step] at hxport
    split_ifs at hxport
    cases hxport
    exact h.of_untouched rfl rfl rfl rfl
  | deliver i =>
    simp only [TxDataXport.step] at hxport
    split at hxport <;> cases hxport
    exact h.of_untouched rfl rfl rfl rfl

theorem not_inCadence (hstep : CadenceXport.step cfg t a = some t') (hbad : ¬ FreshReset cfg t a) :
    ¬ InCadence cfg t' := by
  cases a with
  | resendInit =>
    obtain ⟨xport, hxport, hnext⟩ := Option.map_eq_some_iff.mp hstep
    subst hnext
    simp only [TxDataXport.step] at hxport
    split_ifs at hxport
    cases hxport
    intro hcadence
    obtain ⟨hdifference, hrequested⟩ := hcadence _ rfl
    refine hbad ⟨?_, fun hreq => ?_⟩
    · have hsub : (0 : UInt64) + UInt64.ofNat (roundPktSize cfg.chdrW (strcLength cfg.chdrW)) -
          t.xport.fcState.lastFcResyncBytes =
          UInt64.ofNat (roundPktSize cfg.chdrW (strcLength cfg.chdrW)) := hdifference
      rw [zero_add] at hsub
      exact sub_eq_self.mp hsub
    · refine hrequested.mp ?_
      exact (TxFlowCtrlState.fcResyncReq_dataSent t.xport.fcState.reset _).mpr (Or.inr hreq)
  | getSendBuff => exact absurd trivial hbad
  | release packetSize => exact absurd trivial hbad
  | resync linkHasBuff => exact absurd trivial hbad
  | free numBytes => exact absurd trivial hbad
  | report xferCountBytes xferCountPkts => exact absurd trivial hbad
  | deliver i => exact absurd trivial hbad

/-! ## Whole runs -/

/-- **The cadence of resyncs.**  Every state that a run comes through is in cadence exactly when
each reset of the run is fresh.  The capacity has 40 bits in a stream status packet, and a frame
has at most the length that 16 bits of the header can tell. -/
theorem inCadence_iff (cfg : XportConfig) (hcap : cfg.capacity.toNat < 2 ^ 40)
    (hframe : cfg.frameSize < 2 ^ 16) (as : List XportAction) (t : CadenceXport)
    (h : run (step cfg) (init cfg) as = some t) :
    (∀ bs u, bs <+: as → run (step cfg) (init cfg) bs = some u → InCadence cfg u) ↔
      EveryStep (step cfg) (FreshReset cfg) (init cfg) as := by
  have hround : roundPktSize cfg.chdrW cfg.frameSize ≤ 2 ^ 63 := by
    refine (roundPktSize_mono cfg.chdrW hframe.le).trans ?_
    cases cfg.chdrW <;> decide
  exact forall_prefix_iff_everyStep (I := CadenceInv cfg) (fun _ hinv => hinv.inCadence)
    (fun _ _ _ hinv hstep hgood => hinv.step (hcap.le.trans (by decide)) hround hstep hgood)
    (fun _ _ _ _ hstep hbad => not_inCadence hstep hbad) (cadenceInv_init cfg) h

/-! ## A reset after a resync -/

/-- A destination of two frames of 256 bytes. -/
private def twoLongFrames : XportConfig := ⟨.w64, 512, 256⟩

/-- The capacity is sent and freed, and a resync follows. -/
private def resyncedOnce : List XportAction :=
  [.resendInit, .resync true, .free 24, .report 24 1, .deliver 0,
    .getSendBuff, .release 256, .resync true, .free 256, .report 280 2, .deliver 1,
    .getSendBuff, .release 256, .free 256, .report 536 3, .deliver 2, .resync true]

/-- One init and one resync: the stream ends in cadence. -/
theorem inCadence_resyncedOnce : ∃ t, run (step twoLongFrames) (init twoLongFrames)
    resyncedOnce = some t ∧ InCadence twoLongFrames t := by
  have hrun : (run (step twoLongFrames) (init twoLongFrames) resyncedOnce).isSome = true := by
    decide +kernel
  obtain ⟨t, ht⟩ := Option.isSome_iff_exists.mp hrun
  have hfresh : EveryStep (step twoLongFrames) (FreshReset twoLongFrames) (init twoLongFrames)
      resyncedOnce := by decide +kernel
  exact ⟨t, ht, (inCadence_iff twoLongFrames (by decide) (by decide) resyncedOnce t ht).mpr
    hfresh resyncedOnce t List.prefix_rfl ht⟩

/-- **After the resync comes a reset.**  The init packet of 24 bytes requests another resync at
once, for a destination of 512 bytes. -/
theorem resync_requested_after_reset :
    ¬ ∀ (as : List XportAction) (t : CadenceXport),
      run (step twoLongFrames) (init twoLongFrames) as = some t → InCadence twoLongFrames t := by
  intro hall
  have hrun : (run (step twoLongFrames) (init twoLongFrames) (resyncedOnce ++ [.resendInit])).map
      (fun t => (t.sinceResync, t.xport.fcState.fcResyncReq)) = some (some 24, true) := by
    decide +kernel
  obtain ⟨t, ht, hcount⟩ := Option.map_eq_some_iff.mp hrun
  obtain ⟨hsince, hreq⟩ := Prod.mk.inj hcount
  have hle := ((hall _ t ht) 24 hsince).2.mp hreq
  exact absurd hle (by decide)

end CadenceXport
end Rfnoc
end UhdHost
