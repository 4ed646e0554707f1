import UhdHost.Library.Transition
import UhdHost.Rfnoc.TxFlowCtrlState

/-!
# The flow-controlled transmit transport

`chdr_tx_data_xport` of `uhdlib/rfnoc/chdr_tx_data_xport.hpp` together with the destination
it sends to.  One step is one of:

* `getSendBuff`: `wait_for_dest_ready` for a full frame, and the frame if there is room;
* `release`: the first part of `_send_callback`, which sends the packet and charges it;
* `resync`: the rest of `_send_callback`, which may add a resync packet;
* `resendInit`: `resend_init`, which resets the counts and sends an init packet through
  `_send_callback` without asking for room;
* `free`, `report`: the destination frees bytes of its buffer, and produces a stream status
  packet with the number of bytes it has freed;
* `deliver`: `_recv_callback` for one of the status packets produced so far.

## What a status packet says

A report never claims a byte that was not freed, counts whole CHDR words, and does not take
back what an earlier report claimed since the last init.  That it may claim less than was
freed covers an endpoint that does not count the init packet itself.

## Epochs

An init makes the destination flush its buffer and start counting from zero, and the host
waits for that (`INIT_WAIT_TIME`).  So amounts are counted from the last init, and a report
belongs to the epoch in which it was produced.  `sent`, `freed`, `acked`, `epoch`, `reports`
and `nextReport` are not members of the transport; they say what happened.
-/

namespace UhdHost
namespace Rfnoc

open CreditWindow Transition

/-- `chdr_w_t` -/
inductive ChdrW where
  | w64
  | w128
  | w256
  | w512
  deriving DecidableEq, Repr

/-- `_chdr_w_bytes` -/
def ChdrW.bytes : ChdrW → ℕ
  | .w64 => 8
  | .w128 => 16
  | .w256 => 32
  | .w512 => 64

theorem ChdrW.bytes_pos (w : ChdrW) : 0 < w.bytes := by cases w <;> decide

/-- `strc_payload::MAX_PACKET_SIZE` -/
def maxStrcPacketSize : ℕ := 128

/-- The length of a stream command packet: one CHDR word of header and the two 64-bit words
that `strc_payload::serialize` writes. -/
def strcLength (w : ChdrW) : ℕ := w.bytes + 2 * 8

/-- `_round_pkt_size` -/
def roundPktSize (w : ChdrW) (pktSizeBytes : ℕ) : ℕ := roundUp w.bytes pktSizeBytes

theorem roundPktSize_strcLength_le (w : ChdrW) :
    roundPktSize w (strcLength w) ≤ maxStrcPacketSize := by
  cases w <;> decide

/-- What a transport is constructed with. -/
structure XportConfig where
  chdrW : ChdrW
  /-- `_fc_params.buff_capacity.bytes` -/
  capacity : UInt64
  /-- `_frame_size` -/
  frameSize : ℕ
  deriving DecidableEq, Repr

/-- Where the client of the transport stands. -/
inductive XportPhase where
  | idle
  /-- Holding a frame that `get_send_buff` returned. -/
  | holding
  /-- Inside `_send_callback`, after the packet was charged. -/
  | charged
  deriving DecidableEq, Repr

/-- A stream status packet: when it was produced, `xfer_count_bytes` and `xfer_count_pkts`. -/
structure StrsReport where
  epoch : ℕ
  xferCountBytes : ℕ
  xferCountPkts : ℕ
  deriving DecidableEq, Repr

/-- The transport and its destination. -/
structure TxDataXport where
  fcState : TxFlowCtrlState
  phase : XportPhase := .idle
  /-- Bytes charged since the last init, in whole words. -/
  sent : ℕ := 0
  /-- How many of them the destination has freed. -/
  freed : ℕ := 0
  /-- What the last report delivered in this epoch said. -/
  acked : ℕ := 0
  epoch : ℕ := 0
  /-- The reports produced so far, oldest first. -/
  reports : List StrsReport := []
  /-- One more than the position of the newest report delivered so far. -/
  nextReport : ℕ := 0
  deriving DecidableEq, Repr

/-- What can happen next. -/
inductive XportAction where
  | getSendBuff
  | release (packetSize : ℕ)
  | resync (linkHasBuff : Bool)
  | resendInit
  | free (numBytes : ℕ)
  | report (xferCountBytes xferCountPkts : ℕ)
  | deliver (i : ℕ)
  deriving DecidableEq, Repr

namespace TxDataXport

/-- A transport that has just been constructed. -/
def init (cfg : XportConfig) : TxDataXport := { fcState := { destCapacity := ⟨cfg.capacity, 0⟩ } }

/-- Charge a packet of the given rounded size. -/
def charge (st : TxDataXport) (packetSizeRounded : ℕ) : TxDataXport :=
  { st with
    fcState := st.fcState.dataSent packetSizeRounded
    sent := st.sent + packetSizeRounded }

/-- `_recv_callback` for a stream status packet. -/
def recvCallback (st : TxDataXport) (strs : StrsReport) : TxDataXport :=
  { st with
    fcState := st.fcState.updateDestRecvCount
      ⟨UInt64.ofNat strs.xferCountBytes, UInt32.ofNat strs.xferCountPkts⟩
    acked := strs.xferCountBytes }

/-- One step. -/
def step (cfg : XportConfig) (st : TxDataXport) : XportAction → Option TxDataXport
  | .getSendBuff =>
    if st.phase = .idle then
      if st.fcState.destHasSpace cfg.frameSize then some { st with phase := .holding }
      else some st
    else none
  | .release packetSize =>
    if st.phase = .holding ∧ packetSize ≤ cfg.frameSize then
      some { st.charge (roundPktSize cfg.chdrW packetSize) with phase := .charged }
    else none
  | .resync linkHasBuff =>
    if st.phase = .charged then
      if st.fcState.fcResyncReq ∧ st.fcState.destHasSpace maxStrcPacketSize ∧ linkHasBuff then
        let cleared := { st with fcState := st.fcState.clearFcResyncReqPending }
        some { cleared.charge (roundPktSize cfg.chdrW (strcLength cfg.chdrW)) with
               phase := .idle }
      else
        -- nothing to do, no room, or `send_strc_resync` throws before anything changed
        some { st with phase := .idle }
    else none
  | .resendInit =>
    if st.phase = .idle then
      let cleared := { st with
        fcState := st.fcState.reset
        sent := 0
        freed := 0
        acked := 0
        epoch := st.epoch + 1 }
      some { cleared.charge (roundPktSize cfg.chdrW (strcLength cfg.chdrW)) with
             phase := .charged }
    else none
  | .free numBytes =>
    if cfg.chdrW.bytes ∣ numBytes ∧ st.freed + numBytes ≤ st.sent then
      some { st with freed := st.freed + numBytes }
    else none
  | .report xferCountBytes xferCountPkts =>
    if cfg.chdrW.bytes ∣ xferCountBytes ∧ xferCountBytes ≤ st.freed ∧
        ∀ r ∈ st.reports, r.epoch = st.epoch → r.xferCountBytes ≤ xferCountBytes then
      some { st with reports := st.reports ++ [⟨st.epoch, xferCountBytes, xferCountPkts⟩] }
    else none
  | .deliver i =>
    match st.reports[i]? with
    | some strs => some { st.recvCallback strs with nextReport := max st.nextReport (i + 1) }
    | none => none

/-- Bytes sent and not yet freed at the destination, in whole words. -/
def inFlight (st : TxDataXport) : ℕ := st.sent - st.freed

/-- Reports are delivered in the order in which they were produced, some of them never, and
none after the reset that follows its production. -/
def InOrder (st : TxDataXport) : XportAction → Prop
  | .deliver i => ∀ strs ∈ st.reports[i]?, strs.epoch = st.epoch ∧ st.nextReport ≤ i + 1
  | _ => True

instance decidableInOrder (st : TxDataXport) : (a : XportAction) → Decidable (InOrder st a)
  | .deliver i => inferInstanceAs (Decidable (∀ strs ∈ st.reports[i]?, _))
  | .getSendBuff | .release _ | .resync _ | .resendInit | .free _ | .report _ _ => isTrue trivial

/-! ## The invariant -/

/-- The counters hold a window of what was sent and what the host knows to be freed, and the
reports that may still be delivered in order do not take anything back. -/
structure WindowInv (cfg : XportConfig) (st : TxDataXport) : Prop where
  capacity : st.fcState.destCapacity.bytes = cfg.capacity
  freed_le : st.freed ≤ st.sent
  acked_le : st.acked ≤ st.freed
  holds : st.fcState.Holds ⟨st.sent, st.acked, acked_le.trans freed_le⟩
  bounded : st.sent - st.acked + (if st.phase = .holding then cfg.frameSize else 0) ≤
    cfg.capacity.toNat
  dvd_sent : cfg.chdrW.bytes ∣ st.sent
  dvd_acked : cfg.chdrW.bytes ∣ st.acked
  epochs : ∀ r ∈ st.reports, r.epoch ≤ st.epoch
  sound : ∀ r ∈ st.reports, r.epoch = st.epoch →
    r.xferCountBytes ≤ st.freed ∧ cfg.chdrW.bytes ∣ r.xferCountBytes
  sorted : ∀ (i j : ℕ) (r r' : StrsReport), i ≤ j → st.reports[i]? = some r → st.reports[j]? = some r' →
    r.epoch = st.epoch → r'.epoch = st.epoch → r.xferCountBytes ≤ r'.xferCountBytes
  known : st.acked = 0 ∨ ∃ r ∈ st.reports, r.epoch = st.epoch ∧ r.xferCountBytes = st.acked
  later : ∀ i r, st.nextReport ≤ i + 1 → st.reports[i]? = some r → r.epoch = st.epoch →
    st.acked ≤ r.xferCountBytes

theorem windowInv_init (cfg : XportConfig) : WindowInv cfg (init cfg) where
  capacity := rfl
  freed_le := le_rfl
  acked_le := le_rfl
  holds := represents_empty
  bounded := Nat.zero_le _
  dvd_sent := dvd_zero _
  dvd_acked := dvd_zero _
  epochs _ h := absurd h List.not_mem_nil
  sound _ h := absurd h List.not_mem_nil
  sorted _ _ _ _ _ h := nomatch h
  known := Or.inl rfl
  later _ _ _ h := nomatch h

variable {cfg : XportConfig} {st : TxDataXport}

theorem WindowInv.outstanding_le (h : WindowInv cfg st) :
    st.sent - st.acked ≤ st.fcState.destCapacity.bytes.toNat := by
  have hb := h.bounded
  rw [h.capacity]
  omega

theorem WindowInv.destHasSpace_iff (h : WindowInv cfg st) (n : ℕ) :
    st.fcState.destHasSpace n = true ↔ st.sent - st.acked + n ≤ cfg.capacity.toNat := by
  rw [h.holds.destHasSpace_iff h.outstanding_le, h.capacity]
  exact Iff.rfl

theorem WindowInv.charge (h : WindowInv cfg st) (hword : cfg.chdrW.bytes ∣ cfg.capacity.toNat)
    {n : ℕ} (hfits : st.sent - st.acked + n ≤ cfg.capacity.toNat) {phase : XportPhase}
    (hphase : phase ≠ .holding) :
    WindowInv cfg { st.charge (roundPktSize cfg.chdrW n) with phase := phase } where
  capacity := h.capacity
  freed_le := h.freed_le.trans (Nat.le_add_right ..)
  acked_le := h.acked_le
  holds := h.holds.dataSent _
  bounded := by
    have hroom : cfg.chdrW.bytes ∣ cfg.capacity.toNat - (st.sent - st.acked) :=
      Nat.dvd_sub hword (Nat.dvd_sub h.dvd_sent h.dvd_acked)
    have hround : roundPktSize cfg.chdrW n ≤ cfg.capacity.toNat - (st.sent - st.acked) :=
      roundUp_le_of_dvd cfg.chdrW.bytes_pos hroom (by omega)
    have hle := h.acked_le.trans h.freed_le
    show st.sent + roundPktSize cfg.chdrW n - st.acked +
      (if phase = .holding then cfg.frameSize else 0) ≤ _
    rw [if_neg hphase]
    omega
  dvd_sent := Nat.dvd_add h.dvd_sent (dvd_roundUp ..)
  dvd_acked := h.dvd_acked
  epochs := h.epochs
  sound := h.sound
  sorted := h.sorted
  known := h.known
  later := h.later

theorem WindowInv.setPhase (h : WindowInv cfg st) {phase : XportPhase}
    (hphase : phase = .holding → st.sent - st.acked + cfg.frameSize ≤ cfg.capacity.toNat) :
    WindowInv cfg { st with phase := phase } where
  capacity := h.capacity
  freed_le := h.freed_le
  acked_le := h.acked_le
  holds := h.holds
  bounded := by
    have hb := h.outstanding_le
    rw [h.capacity] at hb
    by_cases hp : phase = .holding
    · rw [if_pos hp]
      exact hphase hp
    · rw [if_neg hp]
      exact hb
  dvd_sent := h.dvd_sent
  dvd_acked := h.dvd_acked
  epochs := h.epochs
  sound := h.sound
  sorted := h.sorted
  known := h.known
  later := h.later

theorem WindowInv.reset (h : WindowInv cfg st) (hphase : st.phase = .idle) :
    WindowInv cfg { st with
      fcState := st.fcState.reset, sent := 0, freed := 0, acked := 0, epoch := st.epoch + 1 } where
  capacity := h.capacity
  freed_le := le_rfl
  acked_le := le_rfl
  holds := TxFlowCtrlState.holds_reset _
  bounded := by simp [hphase]
  dvd_sent := dvd_zero _
  dvd_acked := dvd_zero _
  epochs r hr := (h.epochs r hr).trans (Nat.le_succ _)
  sound r hr he := absurd (h.epochs r hr) (by simp only at he; omega)
  sorted i _ r _ _ hi _ he := absurd (h.epochs r (List.mem_of_getElem? hi))
    (by simp only at he; omega)
  known := Or.inl rfl
  later i r _ hi he := absurd (h.epochs r (List.mem_of_getElem? hi)) (by simp only at he; omega)

theorem WindowInv.free (h : WindowInv cfg st) {n : ℕ} (hn : st.freed + n ≤ st.sent) :
    WindowInv cfg { st with freed := st.freed + n } where
  capacity := h.capacity
  freed_le := hn
  acked_le := h.acked_le.trans (Nat.le_add_right ..)
  holds := h.holds
  bounded := h.bounded
  dvd_sent := h.dvd_sent
  dvd_acked := h.dvd_acked
  epochs := h.epochs
  sound r hr he := ⟨(h.sound r hr he).1.trans (Nat.le_add_right ..), (h.sound r hr he).2⟩
  sorted := h.sorted
  known := h.known
  later := h.later

theorem WindowInv.report (h : WindowInv cfg st) {r pkts : ℕ}
    (hword : cfg.chdrW.bytes ∣ r) (hr : r ≤ st.freed)
    (hlast : ∀ s ∈ st.reports, s.epoch = st.epoch → s.xferCountBytes ≤ r) :
    WindowInv cfg { st with reports := st.reports ++ [⟨st.epoch, r, pkts⟩] } where
  capacity := h.capacity
  freed_le := h.freed_le
  acked_le := h.acked_le
  holds := h.holds
  bounded := h.bounded
  dvd_sent := h.dvd_sent
  dvd_acked := h.dvd_acked
  epochs s hs := by
    rcases List.mem_append.mp hs with hs | hs
    · exact h.epochs s hs
    · rw [List.mem_singleton.mp hs]
  sound s hs he := by
    rcases List.mem_append.mp hs with hs | hs
    · exact h.sound s hs he
    · rw [List.mem_singleton.mp hs]
      exact ⟨hr, hword⟩
  sorted i j s s' hij hi hj he he' := by
    rcases getElem?_concat_eq_some.mp hi with hi | ⟨rfl, rfl⟩
    · rcases getElem?_concat_eq_some.mp hj with hj | ⟨rfl, rfl⟩
      · exact h.sorted i j s s' hij hi hj he he'
      · exact hlast s (List.mem_of_getElem? hi) he
    · rcases getElem?_concat_eq_some.mp hj with hj | ⟨-, rfl⟩
      · exact absurd (List.getElem?_eq_some_iff.mp hj).1 (Nat.not_lt.mpr hij)
      · exact le_rfl
  known := by
    rcases h.known with h0 | ⟨last, hmem, hlast⟩
    · exact Or.inl h0
    · exact Or.inr ⟨last, List.mem_append_left _ hmem, hlast⟩
  later i s hnext hi he := by
    rcases getElem?_concat_eq_some.mp hi with hi | ⟨rfl, rfl⟩
    · exact h.later i s hnext hi he
    · rcases h.known with h0 | ⟨last, hmem, hepoch, hacked⟩
      · exact h0 ▸ Nat.zero_le r
      · exact hacked ▸ hlast last hmem hepoch

theorem WindowInv.deliver (h : WindowInv cfg st) {i : ℕ} {strs : StrsReport}
    (hi : st.reports[i]? = some strs) (he : strs.epoch = st.epoch)
    (hnext : st.nextReport ≤ i + 1) :
    WindowInv cfg { st.recvCallback strs with nextReport := max st.nextReport (i + 1) } where
  capacity := h.capacity
  freed_le := h.freed_le
  acked_le := (h.sound strs (List.mem_of_getElem? hi) he).1
  holds := h.holds.updateDestRecvCount _ _ _
  bounded := by
    have hb := h.bounded
    have hacked := h.later i strs hnext hi he
    show st.sent - strs.xferCountBytes +
      (if st.phase = .holding then cfg.frameSize else 0) ≤ _
    omega
  dvd_sent := h.dvd_sent
  dvd_acked := (h.sound strs (List.mem_of_getElem? hi) he).2
  epochs := h.epochs
  sound := h.sound
  sorted := h.sorted
  known := Or.inr ⟨strs, List.mem_of_getElem? hi, he, rfl⟩
  later j r hj hget her := by
    have hij : i + 1 ≤ j + 1 := le_trans (le_max_right ..) hj
    exact h.sorted i j strs r (Nat.le_of_succ_le_succ hij) hi hget he her

/-- **One step keeps the window**, where reports are delivered in order.  The capacity must be
a whole number of words with room for an init packet. -/
theorem WindowInv.step {a : XportAction} {st' : TxDataXport} (h : WindowInv cfg st)
    (hword : cfg.chdrW.bytes ∣ cfg.capacity.toNat)
    (hstrc : roundPktSize cfg.chdrW (strcLength cfg.chdrW) ≤ cfg.capacity.toNat)
    (hgood : InOrder st a) (hstep : step cfg st a = some st') : WindowInv cfg st' := by
  have hroom : ∀ n, st.fcState.destHasSpace n = true →
      st.sent - st.acked + n ≤ cfg.capacity.toNat := fun n => (h.destHasSpace_iff n).mp
  cases a with
  | getSendBuff =>
    simp only [TxDataXport.step] at hstep
    split_ifs at hstep with hidle hspace <;> rw [Option.some_inj] at hstep <;> subst hstep
    · exact h.setPhase fun _ => hroom _ hspace
    · exact h
  | release packetSize =>
    simp only [TxDataXport.step] at hstep
    split_ifs at hstep with hhold
    rw [Option.some_inj] at hstep
    subst hstep
    have hb := h.bounded
    rw [if_pos hhold.1] at hb
    exact h.charge hword (by omega) (by decide)
  | resync linkHasBuff =>
    simp only [TxDataXport.step] at hstep
    split_ifs at hstep with hcharged hreq <;> rw [Option.some_inj] at hstep <;> subst hstep
    · have hsize := roundPktSize_strcLength_le cfg.chdrW
      have hle : strcLength cfg.chdrW ≤ maxStrcPacketSize := by
        cases cfg.chdrW <;> decide
      have hfits := hroom _ hreq.2.1
      have hcleared : WindowInv cfg
          { st with fcState := st.fcState.clearFcResyncReqPending } :=
        { h with holds := h.holds.clearFcResyncReqPending }
      exact hcleared.charge hword (by simp only; omega) (by decide)
    · exact h.setPhase fun hp => nomatch hp
  | resendInit =>
    simp only [TxDataXport.step] at hstep
    split_ifs at hstep with hidle
    rw [Option.some_inj] at hstep
    subst hstep
    have hle : strcLength cfg.chdrW ≤ cfg.capacity.toNat := by
      refine le_trans ?_ hstrc
      cases cfg.chdrW <;> decide
    exact (h.reset hidle).charge hword (by simp only; omega) (by decide)
  | free numBytes =>
    simp only [TxDataXport.step] at hstep
    split_ifs at hstep with hfree
    rw [Option.some_inj] at hstep
    subst hstep
    exact h.free hfree.2
  | report xferCountBytes xferCountPkts =>
    simp only [TxDataXport.step] at hstep
    split_ifs at hstep with hrep
    rw [Option.some_inj] at hstep
    subst hstep
    exact h.report hrep.1 hrep.2.1 hrep.2.2
  | deliver i =>
    simp only [TxDataXport.step] at hstep
    cases hget : st.reports[i]? with
    | none => simp [hget] at hstep
    | some strs =>
      simp only [hget, Option.some_inj] at hstep
      subst hstep
      obtain ⟨hepoch, hnext⟩ := hgood strs hget
      exact h.deliver hget hepoch hnext

/-- **The transmit window.**  As long as reports are delivered in the order in which they
were produced and none is delayed past a reset, the bytes in flight stay within the capacity
and the two unsigned subtractions of `dest_has_space` compute the true differences. -/
theorem inFlight_le_capacity (cfg : XportConfig)
    (hword : cfg.chdrW.bytes ∣ cfg.capacity.toNat)
    (hstrc : roundPktSize cfg.chdrW (strcLength cfg.chdrW) ≤ cfg.capacity.toNat)
    (as : List XportAction) (st : TxDataXport) (h : run (step cfg) (init cfg) as = some st)
    (hgood : EveryStep (step cfg) InOrder (init cfg) as) :
    st.inFlight ≤ cfg.capacity.toNat ∧
      st.acked ≤ st.freed ∧ st.freed ≤ st.sent ∧
      st.fcState.bufferFullness.toNat = st.sent - st.acked ∧
      st.fcState.spaceAvailable.toNat = cfg.capacity.toNat - (st.sent - st.acked) := by
  have hinv : WindowInv cfg st := run_invariant_of_everyStep (I := WindowInv cfg)
    (fun _ _ _ h => h.step hword hstrc) (windowInv_init cfg) hgood h
  have hle := hinv.outstanding_le
  have hexact := hinv.holds.exact hle
  rw [hinv.capacity] at hle hexact
  refine ⟨?_, hinv.acked_le, hinv.freed_le, hexact.1, hexact.2⟩
  have hacked := hinv.acked_le
  rw [inFlight]
  omega

/-! ## Reports out of order -/

/-- A destination of two frames. -/
def twoFrames : XportConfig := ⟨.w64, 64, 32⟩

/-- Fill the destination, which frees the frames one after the other and reports each. -/
def fillAndFree : List XportAction :=
  [.getSendBuff, .release 32, .resync true, .getSendBuff, .release 32, .resync true,
    .free 32, .report 32 1, .free 32, .report 64 2]

/-- Fill the destination again. -/
def fill : List XportAction :=
  [.getSendBuff, .release 32, .resync true, .getSendBuff, .release 32, .resync true]

/-- Both reports are delivered in order. -/
def orderedReports : List XportAction := fillAndFree ++ [.deliver 0, .deliver 1] ++ fill

/-- The older report is delivered after the newer one, when the destination is full again. -/
def overtakenReport : List XportAction :=
  fillAndFree ++ [.deliver 1] ++ fill ++ [.deliver 0, .getSendBuff, .release 32]

/-- The same reports in order: the destination is full again, and not more than full. -/
theorem inFlight_of_filled_again : ∃ st, run (step twoFrames) (init twoFrames)
    orderedReports = some st ∧ st.inFlight = 64 ∧ st.inFlight ≤ twoFrames.capacity.toNat := by
  have hrun : (run (step twoFrames) (init twoFrames) orderedReports).map inFlight =
      some 64 := by decide
  obtain ⟨st, hrun, hflight⟩ := Option.map_eq_some_iff.mp hrun
  exact ⟨st, hrun, hflight, (inFlight_le_capacity twoFrames (by decide) (by decide)
    orderedReports st hrun (by decide)).1⟩

/-- **A report that arrives late overruns the destination**: the fullness it leads to is more
than the capacity, the difference wraps, and a third frame goes out with two in flight. -/
theorem overrun_by_late_report : ∃ st, run (step twoFrames) (init twoFrames)
    overtakenReport = some st ∧
      st.inFlight = 96 ∧ twoFrames.capacity.toNat = 64 ∧
      ¬ st.inFlight ≤ twoFrames.capacity.toNat := by
  have hrun : (run (step twoFrames) (init twoFrames) overtakenReport).map inFlight =
      some 96 := by decide
  obtain ⟨st, hrun, hflight⟩ := Option.map_eq_some_iff.mp hrun
  refine ⟨st, hrun, hflight, rfl, ?_⟩
  rw [hflight]
  decide

end TxDataXport
end Rfnoc
end UhdHost
