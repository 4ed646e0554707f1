import Mathlib.Data.UInt
import Mathlib.Tactic.Common

/-!
# Control payloads

The data of a control transaction: `ctrl_opcode_t`, `ctrl_status_t` and `ctrl_payload`
of `uhd/rfnoc/chdr_types.hpp`.  The wire format (`serialize`, `deserialize`) comes
later; the endpoint passes whole payloads to its send function and receives
whole payloads.
-/

namespace UhdHost
namespace Rfnoc

/-- `ctrl_status_t`: the transaction status carried by a response. -/
inductive CtrlStatus where
  /-- `CMD_OKAY`: transaction successful. -/
  | okay
  /-- `CMD_CMDERR`: the slave asserted a command error. -/
  | cmdErr
  /-- `CMD_TSERR`: the slave asserted a time stamp error. -/
  | tsErr
  /-- `CMD_WARNING`: the slave asserted a non-critical error. -/
  | warning
  deriving DecidableEq, Repr

/-- `ctrl_opcode_t`: the values of four bits, three of which have no name. -/
inductive CtrlOpcode where
  | sleep
  | write
  | read
  | readWrite
  | blockWrite
  | blockRead
  | poll
  | unnamed7
  | unnamed8
  | unnamed9
  | user1
  | user2
  | user3
  | user4
  | user5
  | user6
  deriving DecidableEq, Repr

/-- `ctrl_payload`.  The defaults are those of the class. -/
structure CtrlPayload where
  /-- Destination port of the transaction. -/
  dstPort : UInt16 := 0
  /-- Source port of the transaction. -/
  srcPort : UInt16 := 0
  /-- Sequence number, 8 bits. -/
  seqNum : UInt8 := 0
  /-- The timestamp, where the has-time flag is set. -/
  timestamp : Option UInt64 := none
  /-- Acknowledgment flag. -/
  isAck : Bool := false
  /-- Source endpoint ID. -/
  srcEpid : UInt16 := 0
  /-- Address of the transaction. -/
  address : UInt32 := 0
  /-- Data words. -/
  dataVtr : List UInt32 := [0]
  /-- Number of data words present in the packet. -/
  numData : ℕ := 1
  /-- Number of data words requested. -/
  reqSize : ℕ := 0
  /-- Byte-enable mask. -/
  byteEnable : UInt8 := 0xF
  /-- Operation code. -/
  opCode : CtrlOpcode := .sleep
  /-- Transaction status. -/
  status : CtrlStatus := .okay
  deriving DecidableEq, Repr

/-- `wanted_ack_key`: what the endpoint compares to tell which request a response
belongs to. -/
abbrev WantedAckKey := UInt8 × CtrlOpcode × UInt32

namespace CtrlPayload

/-- The sequence number, the operation code and the address of a payload. -/
def key (p : CtrlPayload) : WantedAckKey := (p.seqNum, p.opCode, p.address)

theorem key_eq_key_iff {p q : CtrlPayload} :
    p.key = q.key ↔ p.seqNum = q.seqNum ∧ p.opCode = q.opCode ∧ p.address = q.address := by
  simp [key]

/-- `get_payload_size`: the length of the payload in 32-bit words (two header words, two
words for a timestamp, the operation word and the data). -/
def getPayloadSize (p : CtrlPayload) : ℕ :=
  2 + (if p.timestamp.isSome then 2 else 0) + 1 + p.dataVtr.length

theorem three_le_getPayloadSize (p : CtrlPayload) : 3 ≤ p.getPayloadSize := by
  unfold getPayloadSize
  omega

end CtrlPayload

end Rfnoc
end UhdHost
