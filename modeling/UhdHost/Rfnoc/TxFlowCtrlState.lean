import UhdHost.Library.CreditWindow

/-!
# Flow control state of a transmit stream

`tx_flow_ctrl_state` of `uhdlib/rfnoc/tx_flow_ctrl_state.hpp`, with `stream_buff_params_t`.
All counts are unsigned and wrap.  Only the byte counts decide anything; the packet counts
travel along in the resync packets.

`destHasSpace_iff` is the one fact about the arithmetic that the transport needs: as long as
the counters represent a window within the capacity, the check is the true one.
-/

namespace UhdHost
namespace Rfnoc

open CreditWindow

/-- `stream_buff_params_t` -/
structure StreamBuffParams where
  bytes : UInt64 := 0
  packets : UInt32 := 0
  deriving DecidableEq, Repr

/-- `tx_flow_ctrl_state` -/
structure TxFlowCtrlState where
  /-- `_xfer_counts`: counts for data sent -/
  xferCounts : StreamBuffParams := {}
  /-- `_recv_counts`: counts for data received by the destination -/
  recvCounts : StreamBuffParams := {}
  /-- `_dest_capacity`: buffer size at the destination -/
  destCapacity : StreamBuffParams
  /-- `_last_fc_resync_bytes` -/
  lastFcResyncBytes : UInt64 := 0
  /-- `_fc_resync_req` -/
  fcResyncReq : Bool := false
  deriving DecidableEq, Repr

namespace TxFlowCtrlState

/-- `update_dest_recv_count` -/
def updateDestRecvCount (s : TxFlowCtrlState) (recvCount : StreamBuffParams) :
    TxFlowCtrlState :=
  { s with recvCounts := recvCount }

/-- The unsigned difference `buffer_fullness` of `dest_has_space`. -/
def bufferFullness (s : TxFlowCtrlState) : UInt64 := s.xferCounts.bytes - s.recvCounts.bytes

/-- The unsigned difference `space_available` of `dest_has_space`. -/
def spaceAvailable (s : TxFlowCtrlState) : UInt64 := s.destCapacity.bytes - s.bufferFullness

/-- `dest_has_space` -/
def destHasSpace (s : TxFlowCtrlState) (packetSize : ℕ) : Bool :=
  packetSize ≤ s.spaceAvailable.toNat

/-- `data_sent` -/
def dataSent (s : TxFlowCtrlState) (packetSize : ℕ) : TxFlowCtrlState :=
  let xfer : StreamBuffParams :=
    ⟨s.xferCounts.bytes + UInt64.ofNat packetSize, s.xferCounts.packets + 1⟩
  { s with
    xferCounts := xfer
    fcResyncReq :=
      if xfer.bytes - s.lastFcResyncBytes ≥ s.destCapacity.bytes then true else s.fcResyncReq }

/-- `clear_fc_resync_req_pending` -/
def clearFcResyncReqPending (s : TxFlowCtrlState) : TxFlowCtrlState :=
  { s with fcResyncReq := false, lastFcResyncBytes := s.xferCounts.bytes }

/-- `reset`: the two counts.  The resync bookkeeping is left as it is. -/
def reset (s : TxFlowCtrlState) : TxFlowCtrlState :=
  { s with xferCounts := {}, recvCounts := {} }

/-- The two byte counts hold the amounts of a window. -/
def Holds (s : TxFlowCtrlState) (w : Window) : Prop :=
  Represents s.xferCounts.bytes s.recvCounts.bytes w

variable {s : TxFlowCtrlState} {w : Window}

theorem holds_reset (s : TxFlowCtrlState) : s.reset.Holds Window.empty := represents_empty

theorem Holds.dataSent (h : s.Holds w) (n : ℕ) : (s.dataSent n).Holds (w.send n) :=
  Represents.send h n

theorem Holds.updateDestRecvCount (h : s.Holds w) (r : ℕ) (packets : UInt32)
    (hr : r ≤ w.sent) :
    (s.updateDestRecvCount ⟨UInt64.ofNat r, packets⟩).Holds (w.ack r hr) :=
  Represents.ack h r hr

theorem Holds.clearFcResyncReqPending (h : s.Holds w) : s.clearFcResyncReqPending.Holds w := h

theorem Holds.exact (h : s.Holds w) (hle : w.outstanding ≤ s.destCapacity.bytes.toNat) :
    s.bufferFullness.toNat = w.outstanding ∧
      s.spaceAvailable.toNat = s.destCapacity.bytes.toNat - w.outstanding :=
  ⟨Represents.toNat_outstanding h
    (Nat.lt_of_le_of_lt hle s.destCapacity.bytes.toNat_lt), Represents.toNat_space h hle⟩

theorem Holds.destHasSpace_iff (h : s.Holds w)
    (hle : w.outstanding ≤ s.destCapacity.bytes.toNat) (n : ℕ) :
    s.destHasSpace n = true ↔ w.outstanding + n ≤ s.destCapacity.bytes.toNat := by
  rw [destHasSpace, decide_eq_true_iff, (h.exact hle).2]
  omega

@[simp] theorem destCapacity_dataSent (s : TxFlowCtrlState) (n : ℕ) :
    (s.dataSent n).destCapacity = s.destCapacity := rfl

@[simp] theorem destCapacity_reset (s : TxFlowCtrlState) :
    s.reset.destCapacity = s.destCapacity := rfl

@[simp] theorem destCapacity_updateDestRecvCount (s : TxFlowCtrlState) (r : StreamBuffParams) :
    (s.updateDestRecvCount r).destCapacity = s.destCapacity := rfl

@[simp] theorem destCapacity_clearFcResyncReqPending (s : TxFlowCtrlState) :
    s.clearFcResyncReqPending.destCapacity = s.destCapacity := rfl

end TxFlowCtrlState

end Rfnoc
end UhdHost
