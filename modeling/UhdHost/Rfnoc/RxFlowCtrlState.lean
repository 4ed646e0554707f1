import Mathlib
import UhdHost.Rfnoc.TxFlowCtrlState

/-!
# Flow control state of a receive stream

`rx_flow_ctrl_state` of `uhdlib/rfnoc/rx_flow_ctrl_state.hpp`.

Pairs of wrapping counts are added and subtracted component by component, which makes them a
commutative group, and what the operations of the class do to the differences of its counts are
identities in this group.
-/

namespace UhdHost
namespace Rfnoc

namespace StreamBuffParams

instance : Zero StreamBuffParams := ⟨{}⟩

instance : Add StreamBuffParams := ⟨fun a b => ⟨a.bytes + b.bytes, a.packets + b.packets⟩⟩

instance : Neg StreamBuffParams := ⟨fun a => ⟨-a.bytes, -a.packets⟩⟩

instance : Sub StreamBuffParams := ⟨fun a b => ⟨a.bytes - b.bytes, a.packets - b.packets⟩⟩

@[ext] theorem ext {a b : StreamBuffParams} (hbytes : a.bytes = b.bytes)
    (hpackets : a.packets = b.packets) : a = b := by
  cases a
  cases b
  subst hbytes hpackets
  rfl

@[simp] theorem bytes_zero : (0 : StreamBuffParams).bytes = 0 := rfl
@[simp] theorem packets_zero : (0 : StreamBuffParams).packets = 0 := rfl
@[simp] theorem bytes_add (a b : StreamBuffParams) : (a + b).bytes = a.bytes + b.bytes := rfl
@[simp] theorem packets_add (a b : StreamBuffParams) :
    (a + b).packets = a.packets + b.packets := rfl
@[simp] theorem bytes_neg (a : StreamBuffParams) : (-a).bytes = -a.bytes := rfl
@[simp] theorem packets_neg (a : StreamBuffParams) : (-a).packets = -a.packets := rfl
@[simp] theorem bytes_sub (a b : StreamBuffParams) : (a - b).bytes = a.bytes - b.bytes := rfl
@[simp] theorem packets_sub (a b : StreamBuffParams) :
    (a - b).packets = a.packets - b.packets := rfl

/-- Pairs of wrapping counts. -/
instance : AddCommGroup StreamBuffParams where
  add_assoc a b c := StreamBuffParams.ext (UInt64.add_assoc ..) (UInt32.add_assoc ..)
  zero_add a := StreamBuffParams.ext (UInt64.zero_add _) (UInt32.zero_add _)
  add_zero a := StreamBuffParams.ext (UInt64.add_zero _) (UInt32.add_zero _)
  add_comm a b := StreamBuffParams.ext (UInt64.add_comm ..) (UInt32.add_comm ..)
  neg_add_cancel a := StreamBuffParams.ext (UInt64.add_left_neg _) (UInt32.add_left_neg _)
  sub_eq_add_neg a b := StreamBuffParams.ext (UInt64.sub_eq_add_neg ..) (UInt32.sub_eq_add_neg ..)
  nsmul := nsmulRec
  zsmul := zsmulRec

/-- One packet of some size. -/
def packet (size : ℕ) : StreamBuffParams := ⟨UInt64.ofNat size, 1⟩

/-- All bytes and packets of packets of these sizes. -/
def total (sizes : List ℕ) : StreamBuffParams :=
  ⟨UInt64.ofNat sizes.sum, UInt32.ofNat sizes.length⟩

@[simp] theorem total_nil : total [] = 0 := rfl

theorem total_concat (sizes : List ℕ) (size : ℕ) :
    total (sizes ++ [size]) = total sizes + packet size := by
  refine StreamBuffParams.ext ?_ ?_
  · change UInt64.ofNat (sizes ++ [size]).sum = UInt64.ofNat sizes.sum + UInt64.ofNat size
    rw [List.sum_append, List.sum_singleton, UInt64.ofNat_add]
  · change UInt32.ofNat (sizes ++ [size]).length = UInt32.ofNat sizes.length + 1
    rw [List.length_append, List.length_singleton, UInt32.ofNat_add]
    rfl

theorem total_perm {sizes sizes' : List ℕ} (h : sizes.Perm sizes') : total sizes = total sizes' := by
  rw [total, total, h.sum_eq, h.length_eq]

theorem total_eraseIdx {sizes : List ℕ} {i size : ℕ} (hi : sizes[i]? = some size) :
    total (sizes.eraseIdx i) = total sizes - packet size := by
  obtain ⟨hlt, rfl⟩ := List.getElem?_eq_some_iff.mp hi
  have hperm : (sizes.eraseIdx i ++ [sizes[i]]).Perm sizes :=
    (List.perm_append_singleton ..).trans (List.getElem_cons_eraseIdx_perm hlt)
  rw [← total_perm hperm, total_concat, add_sub_cancel_right]

end StreamBuffParams

open StreamBuffParams

/-- `rx_flow_ctrl_state` -/
structure RxFlowCtrlState where
  /-- `_recv_counts`: counts for data received, including any data still in use -/
  recvCounts : StreamBuffParams := {}
  /-- `_xfer_counts`: counts for data read and whose buffer space is ok to reuse -/
  xferCounts : StreamBuffParams := {}
  /-- `_last_fc_resp_counts`: counts sent in last flow control response -/
  lastFcRespCounts : StreamBuffParams := {}
  /-- `_fc_freq`: frequency of flow control responses -/
  fcFreq : StreamBuffParams
  deriving DecidableEq, Repr

namespace RxFlowCtrlState

/-- `resynchronize` -/
def resynchronize (s : RxFlowCtrlState) (counts : StreamBuffParams) : RxFlowCtrlState :=
  if s.recvCounts.bytes ≠ counts.bytes ∨ s.recvCounts.packets ≠ counts.packets then
    { s with
      xferCounts :=
        ⟨s.xferCounts.bytes + (counts.bytes - s.recvCounts.bytes),
          s.xferCounts.packets + (counts.packets - s.recvCounts.packets)⟩
      recvCounts := counts }
  else s

/-- `data_received` -/
def dataReceived (s : RxFlowCtrlState) (bytes : ℕ) : RxFlowCtrlState :=
  { s with recvCounts := ⟨s.recvCounts.bytes + UInt64.ofNat bytes, s.recvCounts.packets + 1⟩ }

/-- `xfer_done` -/
def xferDone (s : RxFlowCtrlState) (bytes : ℕ) : RxFlowCtrlState :=
  { s with xferCounts := ⟨s.xferCounts.bytes + UInt64.ofNat bytes, s.xferCounts.packets + 1⟩ }

/-- The counts reach a frequency. -/
def Reaches (freq counts : StreamBuffParams) : Prop :=
  freq.bytes ≤ counts.bytes ∨ freq.packets ≤ counts.packets

instance (freq counts : StreamBuffParams) : Decidable (Reaches freq counts) := by
  unfold Reaches
  infer_instance

/-- `fc_resp_due` -/
def fcRespDue (s : RxFlowCtrlState) : Bool :=
  let accumCounts : StreamBuffParams :=
    ⟨s.xferCounts.bytes - s.lastFcRespCounts.bytes,
      s.xferCounts.packets - s.lastFcRespCounts.packets⟩
  decide (accumCounts.bytes ≥ s.fcFreq.bytes ∨ accumCounts.packets ≥ s.fcFreq.packets)

/-- `fc_resp_sent` -/
def fcRespSent (s : RxFlowCtrlState) : RxFlowCtrlState :=
  { s with lastFcRespCounts := s.xferCounts }

variable (s : RxFlowCtrlState)

@[simp] theorem recvCounts_resynchronize (counts : StreamBuffParams) :
    (s.resynchronize counts).recvCounts = counts := by
  unfold resynchronize
  split_ifs with h
  · rfl
  · rw [not_or, not_not, not_not] at h
    exact StreamBuffParams.ext h.1 h.2

@[simp] theorem xferCounts_resynchronize (counts : StreamBuffParams) :
    (s.resynchronize counts).xferCounts = s.xferCounts + (counts - s.recvCounts) := by
  unfold resynchronize
  split_ifs with h
  · rfl
  · rw [not_or, not_not, not_not] at h
    rw [← StreamBuffParams.ext h.1 h.2, sub_self, add_zero]

@[simp] theorem lastFcRespCounts_resynchronize (counts : StreamBuffParams) :
    (s.resynchronize counts).lastFcRespCounts = s.lastFcRespCounts := by
  unfold resynchronize
  split_ifs <;> rfl

@[simp] theorem fcFreq_resynchronize (counts : StreamBuffParams) :
    (s.resynchronize counts).fcFreq = s.fcFreq := by
  unfold resynchronize
  split_ifs <;> rfl

@[simp] theorem recvCounts_dataReceived (bytes : ℕ) :
    (s.dataReceived bytes).recvCounts = s.recvCounts + packet bytes := rfl

@[simp] theorem xferCounts_dataReceived (bytes : ℕ) :
    (s.dataReceived bytes).xferCounts = s.xferCounts := rfl

@[simp] theorem lastFcRespCounts_dataReceived (bytes : ℕ) :
    (s.dataReceived bytes).lastFcRespCounts = s.lastFcRespCounts := rfl

@[simp] theorem fcFreq_dataReceived (bytes : ℕ) : (s.dataReceived bytes).fcFreq = s.fcFreq := rfl

@[simp] theorem recvCounts_xferDone (bytes : ℕ) :
    (s.xferDone bytes).recvCounts = s.recvCounts := rfl

@[simp] theorem xferCounts_xferDone (bytes : ℕ) :
    (s.xferDone bytes).xferCounts = s.xferCounts + packet bytes := rfl

@[simp] theorem lastFcRespCounts_xferDone (bytes : ℕ) :
    (s.xferDone bytes).lastFcRespCounts = s.lastFcRespCounts := rfl

@[simp] theorem fcFreq_xferDone (bytes : ℕ) : (s.xferDone bytes).fcFreq = s.fcFreq := rfl

theorem fcRespDue_iff :
    s.fcRespDue = true ↔ Reaches s.fcFreq (s.xferCounts - s.lastFcRespCounts) := by
  unfold fcRespDue
  rw [decide_eq_true_iff]
  exact Iff.rfl

end RxFlowCtrlState

end Rfnoc
end UhdHost
