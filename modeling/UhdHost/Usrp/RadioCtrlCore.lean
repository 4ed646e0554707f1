import Mathlib.Data.List.Range
import Mathlib.Data.UInt
import UhdHost.Library.Transition

/-!
# The radio control core

`b200_radio_ctrl_core.cpp`: `poke32`, `peek32` and `peek64` send a request with a sequence number
and wait until there are few enough requests outstanding, a peek until there is none.  For each
request that is to be acknowledged one response is taken, and the sequence numbers are compared.

Requests are counted from zero; the sequence number of a request is its count in a `size_t`, of
which the packet has 12 bits.  The device answers in order, and it echoes the packet count.  One
step of the system is one of:

* `request`: a call begins and sends its packet, if there is a buffer for it;
* `take`: `wait_for_ack` takes the next response and compares;
* `finish`: `wait_for_ack` has nothing to wait for;
* `timeout`: `wait_for_ack` finds no response in time;
* `arrive`: a response arrives.

## Late responses

`wait_for_ack` pops the sequence number before it has the response.  Where it times out, nobody
waits for that response any more, but nobody throws it away either: when it arrives it is in
front of the responses to later requests, and is compared with their sequence numbers.
`rightResults_of_run` says what holds where no response arrives that late (`Timely`).

What `log` records is what the calls returned or threw.  That a response can end up in the dump
queue of the message task while the device is closed is left out.
-/

namespace UhdHost
namespace Usrp

open Transition

/-- The calls. -/
inductive RadioRequest where
  | poke32 (addr data : UInt32)
  | peek32 (addr : UInt32)
  | peek64 (addr : UInt32)
  deriving DecidableEq, Repr

/-- `SR_READBACK` -/
def srReadback : UInt32 := 32

/-- Whether `wait_for_ack` is called for the readback value. -/
def RadioRequest.readback : RadioRequest → Bool
  | .poke32 _ _ => false
  | .peek32 _ | .peek64 _ => true

/-- The address and the data that `send_pkt` is called with. -/
def RadioRequest.payload : RadioRequest → UInt32 × UInt32
  | .poke32 addr data => (addr / 4, data)
  | .peek32 addr | .peek64 addr => (srReadback, addr / 8)

/-- What a call makes of the readback value. -/
def RadioRequest.value (res : UInt64) : RadioRequest → UInt64
  | .poke32 _ _ => 0
  | .peek32 addr => if addr / 4 &&& 1 = 1 then res >>> 32 else res &&& 0xffffffff
  | .peek64 _ => res

/-- What the packet of a request has of its sequence number. -/
def packetCount (request : ℕ) : UInt64 := UInt64.ofNat request &&& 0xfff

/-- A response: the request it answers, and the readback value. -/
structure RadioResponse where
  request : ℕ
  data : UInt64
  deriving DecidableEq, Repr

/-- How a call ended. -/
inductive RadioResult where
  /-- "fifo ctrl timed out getting a send buffer" -/
  | noSendBuff
  /-- A poke returned. -/
  | done
  /-- A peek for a request returned a value from a response. -/
  | value (request : ℕ) (response : RadioResponse) (value : UInt64)
  /-- "no response packet", for a sequence number -/
  | noResponse (seqToAck : ℕ)
  /-- "packet parse error" for a sequence number, with the responses that were there, the one
  that was taken first -/
  | parseError (seqToAck : ℕ) (responses : List RadioResponse)
  /-- No sequence number was outstanding. -/
  | assertion
  deriving DecidableEq, Repr

/-- The core and its responses. -/
structure RadioCtrlCore where
  /-- `_seq_out`, before it is put into a `size_t` -/
  seqOut : ℕ := 0
  /-- `_outstanding_seqs` -/
  outstandingSeqs : List ℕ := []
  /-- The responses that arrived and were not taken yet. -/
  responses : List RadioResponse := []
  /-- One more than the request of the last response that arrived. -/
  answered : ℕ := 0
  /-- The call that is in `wait_for_ack`. -/
  call : Option RadioRequest := none
  /-- The packets that were sent: packet count, address and data. -/
  sent : List (UInt64 × UInt32 × UInt32) := []
  log : List RadioResult := []
  deriving DecidableEq, Repr

/-- What can happen next. -/
inductive RadioStep where
  | request (request : RadioRequest) (sendBuff : Bool)
  | take
  | finish
  | timeout
  | arrive (request : ℕ) (data : UInt64)
  deriving DecidableEq, Repr

namespace RadioCtrlCore

/-- The condition of the loop in `wait_for_ack`. -/
def Waits (respQueueSize : ℕ) (s : RadioCtrlCore) (call : RadioRequest) : Prop :=
  call.readback = true ∨ respQueueSize ≤ s.outstandingSeqs.length

instance (respQueueSize : ℕ) (s : RadioCtrlCore) (call : RadioRequest) :
    Decidable (Waits respQueueSize s call) := inferInstanceAs (Decidable (_ ∨ _))

/-- `send_pkt` -/
def sendPkt (s : RadioCtrlCore) (call : RadioRequest) : RadioCtrlCore :=
  { s with
    sent := s.sent ++ [(packetCount s.seqOut, call.payload)]
    outstandingSeqs := s.outstandingSeqs ++ [s.seqOut]
    seqOut := s.seqOut + 1
    call := some call }

/-- The call ends. -/
def ends (s : RadioCtrlCore) (r : RadioResult) : RadioCtrlCore :=
  { s with call := none, log := s.log ++ [r] }

/-- The rest of the body of the loop in `wait_for_ack`, with a response for a sequence number. -/
def check (s : RadioCtrlCore) (call : RadioRequest) (seqToAck : ℕ) (outstanding : List ℕ)
    (response : RadioResponse) (responses : List RadioResponse) : RadioCtrlCore :=
  let after := { s with outstandingSeqs := outstanding, responses := responses }
  if packetCount response.request = packetCount seqToAck then
    if call.readback = true ∧ outstanding = [] then
      after.ends (.value (s.seqOut - 1) response (call.value response.data))
    else after
  else after.ends (.parseError seqToAck s.responses)

/-- One step. -/
def step (respQueueSize : ℕ) (s : RadioCtrlCore) : RadioStep → Option RadioCtrlCore
  | .request request sendBuff =>
    if s.call = none then
      if sendBuff then some (s.sendPkt request) else some (s.ends .noSendBuff)
    else none
  | .take =>
    match s.call, s.outstandingSeqs, s.responses with
    | some call, seqToAck :: outstanding, response :: responses =>
      if Waits respQueueSize s call then
        some (s.check call seqToAck outstanding response responses)
      else none
    | some call, [], _ =>
      if Waits respQueueSize s call then some (s.ends .assertion) else none
    | _, _, _ => none
  | .finish =>
    match s.call with
    | some call => if Waits respQueueSize s call then none else some (s.ends .done)
    | none => none
  | .timeout =>
    match s.call, s.outstandingSeqs, s.responses with
    | some call, seqToAck :: outstanding, [] =>
      if Waits respQueueSize s call then
        some ({ s with outstandingSeqs := outstanding }.ends (.noResponse seqToAck))
      else none
    | _, _, _ => none
  | .arrive request data =>
    if s.answered ≤ request ∧ request < s.seqOut then
      some { s with responses := s.responses ++ [⟨request, data⟩], answered := request + 1 }
    else none

/-- A response arrives before its sequence number is given up. -/
def Timely (s : RadioCtrlCore) : RadioStep → Prop
  | .arrive request _ => request ∈ s.outstandingSeqs
  | _ => True

instance decidableTimely (s : RadioCtrlCore) : (a : RadioStep) → Decidable (Timely s a)
  | .arrive request _ => inferInstanceAs (Decidable (request ∈ s.outstandingSeqs))
  | .request _ _ | .take | .finish | .timeout => isTrue trivial

end RadioCtrlCore

/-- **What a call may return or throw.**  A peek returns the value of the response to its own
request.  Where a comparison fails, only responses to later requests are there: in an in-order
stream the own response is lost then, and no earlier request has to do with it. -/
def RadioResult.Right : RadioResult → Prop
  | .value request response _ => response.request = request
  | .parseError seqToAck responses => ∀ response ∈ responses, seqToAck < response.request
  | _ => True

namespace RadioCtrlCore

/-! ## The invariant -/

/-- From the oldest outstanding request on, all are outstanding, and the responses that are there
answer some of them, in order. -/
structure Orderly (s : RadioCtrlCore) : Prop where
  outstanding : ∃ oldest ≤ s.seqOut,
    s.outstandingSeqs = List.range' oldest (s.seqOut - oldest) ∧
      ∀ response ∈ s.responses, oldest ≤ response.request
  increasing : s.responses.Pairwise fun a b => a.request < b.request
  answered : ∀ response ∈ s.responses, response.request < s.answered
  answered_le : s.answered ≤ s.seqOut
  right : ∀ r ∈ s.log, r.Right

theorem orderly_init : Orderly {} where
  outstanding := ⟨0, le_rfl, rfl, fun _ h => absurd h List.not_mem_nil⟩
  increasing := List.Pairwise.nil
  answered _ h := absurd h List.not_mem_nil
  answered_le := le_rfl
  right _ h := absurd h List.not_mem_nil

variable {s t : RadioCtrlCore} {respQueueSize : ℕ} {a : RadioStep}

theorem Orderly.ends (h : Orderly s) {r : RadioResult} (hr : r.Right) : Orderly (s.ends r) where
  outstanding := h.outstanding
  increasing := h.increasing
  answered := h.answered
  answered_le := h.answered_le
  right r' hr' := by
    rcases List.mem_append.mp hr' with hold | hnew
    · exact h.right r' hold
    · rw [List.mem_singleton.mp hnew]
      exact hr

theorem Orderly.sendPkt (h : Orderly s) (call : RadioRequest) : Orderly (s.sendPkt call) where
  outstanding := by
    obtain ⟨oldest, hle, hseqs, hresponses⟩ := h.outstanding
    refine ⟨oldest, Nat.le_succ_of_le hle, ?_, hresponses⟩
    show s.outstandingSeqs ++ [s.seqOut] = List.range' oldest (s.seqOut + 1 - oldest)
    rw [hseqs, Nat.succ_sub hle, List.range'_1_concat, Nat.add_sub_cancel' hle]
  increasing := h.increasing
  answered := h.answered
  answered_le := Nat.le_succ_of_le h.answered_le
  right := h.right

theorem Orderly.popped (h : Orderly s) {seqToAck : ℕ} {outstanding : List ℕ}
    (hseqs : s.outstandingSeqs = seqToAck :: outstanding) {responses : List RadioResponse}
    (htail : responses = s.responses.tail) :
    Orderly { s with outstandingSeqs := outstanding, responses := responses } where
  outstanding := by
    subst htail
    obtain ⟨oldest, hle, hrange, hresponses⟩ := h.outstanding
    rw [hrange] at hseqs
    obtain ⟨n, hn⟩ : ∃ n, s.seqOut - oldest = n + 1 := by
      refine Nat.exists_eq_succ_of_ne_zero fun hzero => ?_
      rw [hzero] at hseqs
      cases hseqs
    rw [hn, List.range'_succ] at hseqs
    have hnext : oldest + 1 ≤ s.seqOut := by omega
    refine ⟨oldest + 1, hnext, ?_, fun response hresponse => ?_⟩
    · show outstanding = List.range' (oldest + 1) (s.seqOut - (oldest + 1))
      rw [← (List.cons.inj hseqs).2]
      congr 1
      omega
    · have hincreasing := h.increasing
      cases hqueue : s.responses with
      | nil =>
        rw [hqueue] at hresponse
        exact absurd hresponse List.not_mem_nil
      | cons first rest =>
        rw [hqueue] at hresponse hincreasing hresponses
        have hlt := (List.pairwise_cons.mp hincreasing).1 response hresponse
        exact (hresponses first List.mem_cons_self).trans_lt hlt
  increasing := by
    subst htail
    exact h.increasing.sublist (List.tail_sublist _)
  answered response hresponse := by
    subst htail
    exact h.answered response (List.mem_of_mem_tail hresponse)
  answered_le := h.answered_le
  right := h.right

theorem Orderly.check (h : Orderly s) {call : RadioRequest} {seqToAck : ℕ}
    {outstanding : List ℕ} {response : RadioResponse} {responses : List RadioResponse}
    (hseqs : s.outstandingSeqs = seqToAck :: outstanding)
    (hresponses : s.responses = response :: responses) :
    Orderly (s.check call seqToAck outstanding response responses) := by
  have hpopped : Orderly { s with outstandingSeqs := outstanding, responses := responses } :=
    h.popped hseqs (by rw [hresponses, List.tail_cons])
  obtain ⟨oldest, hle, hrange, hlate⟩ := h.outstanding
  rw [hrange] at hseqs
  obtain ⟨n, hn⟩ : ∃ n, s.seqOut - oldest = n + 1 := by
    refine Nat.exists_eq_succ_of_ne_zero fun hzero => ?_
    rw [hzero] at hseqs
    cases hseqs
  rw [hn, List.range'_succ] at hseqs
  obtain ⟨hoverdue, hrest⟩ := List.cons.inj hseqs
  have hfirst : oldest ≤ response.request :=
    hlate response (by rw [hresponses]; exact List.mem_cons_self)
  have hlast : response.request < s.seqOut :=
    (h.answered response (by rw [hresponses]; exact List.mem_cons_self)).trans_le h.answered_le
  rw [RadioCtrlCore.check]
  split_ifs with hcount hend
  · refine hpopped.ends ?_
    show response.request = s.seqOut - 1
    have hone : n = 0 := by
      have hlength := congrArg List.length hrest
      rw [hend.2, List.length_range'] at hlength
      exact hlength
    omega
  · exact hpopped
  · refine hpopped.ends fun other hother => ?_
    have hlate' : seqToAck ≤ other.request := hoverdue ▸ hlate other hother
    refine hlate'.lt_of_ne fun heq => hcount ?_
    -- the own response can only be the first one
    have hother_first : other = response := by
      rw [hresponses] at hother
      rcases List.mem_cons.mp hother with hother | hother
      · exact hother
      · have hincreasing := h.increasing
        rw [hresponses] at hincreasing
        have hlt := (List.pairwise_cons.mp hincreasing).1 other hother
        omega
    rw [← hother_first, heq]

theorem Orderly.step (h : Orderly s) (hgood : Timely s a)
    (hstep : RadioCtrlCore.step respQueueSize s a = some t) : Orderly t := by
  cases a with
  | request request sendBuff =>
    simp only [RadioCtrlCore.step] at hstep
    split_ifs at hstep
    · rw [← Option.some.inj hstep]
      exact h.sendPkt request
    · rw [← Option.some.inj hstep]
      exact h.ends trivial
  | take =>
    simp only [RadioCtrlCore.step] at hstep
    split at hstep
    · rename_i call seqToAck outstanding response responses _ hseqs hresponses
      split_ifs at hstep
      rw [← Option.some.inj hstep]
      exact h.check hseqs hresponses
    · split_ifs at hstep
      rw [← Option.some.inj hstep]
      exact h.ends trivial
    · cases hstep
  | finish =>
    simp only [RadioCtrlCore.step] at hstep
    split at hstep
    · split_ifs at hstep
      rw [← Option.some.inj hstep]
      exact h.ends trivial
    · cases hstep
  | timeout =>
    simp only [RadioCtrlCore.step] at hstep
    split at hstep
    · rename_i call seqToAck outstanding _ hseqs hresponses
      split_ifs at hstep
      rw [← Option.some.inj hstep]
      have hafter : Orderly { s with outstandingSeqs := outstanding } :=
        h.popped hseqs (by rw [hresponses, List.tail_nil])
      exact hafter.ends trivial
    · cases hstep
  | arrive request data =>
    simp only [RadioCtrlCore.step] at hstep
    split_ifs at hstep with horder
    rw [← Option.some.inj hstep]
    obtain ⟨oldest, hle, hrange, hlate⟩ := h.outstanding
    refine ⟨⟨oldest, hle, hrange, fun response hresponse => ?_⟩, ?_, fun response hresponse => ?_,
      horder.2, h.right⟩
    · rcases List.mem_append.mp hresponse with hold | hnew
      · exact hlate response hold
      · have hmem : request ∈ s.outstandingSeqs := hgood
        rw [hrange, List.mem_range'_1] at hmem
        rw [List.mem_singleton.mp hnew]
        exact hmem.1
    · refine List.pairwise_append.mpr ⟨h.increasing, List.pairwise_singleton _ _, ?_⟩
      intro old hold new hnew
      rw [List.mem_singleton.mp hnew]
      exact (h.answered old hold).trans_le horder.1
    · show response.request < request + 1
      rcases List.mem_append.mp hresponse with hold | hnew
      · exact ((h.answered response hold).trans_le horder.1).trans (Nat.lt_succ_self _)
      · rw [List.mem_singleton.mp hnew]
        exact Nat.lt_succ_self _

/-! ## Whole runs -/

/-- **Peeks and pokes.**  In every run in which no response arrives after its sequence number was
given up, every call ends right: a peek returns the value of the response to its own request,
also after the packet count has wrapped, and no request fails by the response to an earlier
one. -/
theorem rightResults_of_run (respQueueSize : ℕ) (steps : List RadioStep) (s : RadioCtrlCore)
    (h : run (step respQueueSize) {} steps = some s)
    (hgood : EveryStep (step respQueueSize) Timely {} steps) : ∀ r ∈ s.log, r.Right :=
  (run_invariant_of_everyStep (I := Orderly) (fun _ _ _ hinv hgood hstep => hinv.step hgood hstep)
    orderly_init hgood h).right

/-! ## A late response -/

/-- Two peeks that are answered in time. -/
private def answeredInTime : List RadioStep :=
  [.request (.peek64 0) true, .arrive 0 7, .take, .request (.peek64 8) true, .arrive 1 9, .take]

/-- The first peek times out, and its response arrives later. -/
private def answeredLate : List RadioStep :=
  [.request (.peek64 0) true, .timeout, .arrive 0 7, .request (.peek64 8) true, .arrive 1 9,
    .take]

/-- Each peek returns its own value. -/
theorem rightResults_answeredInTime : ∃ s, run (step 3) {} answeredInTime = some s ∧
    s.log = [.value 0 ⟨0, 7⟩ 7, .value 1 ⟨1, 9⟩ 9] ∧ ∀ r ∈ s.log, r.Right := by
  have hrun : (run (step 3) {} answeredInTime).map log =
      some [.value 0 ⟨0, 7⟩ 7, .value 1 ⟨1, 9⟩ 9] := by decide +kernel
  obtain ⟨s, hs, hlog⟩ := Option.map_eq_some_iff.mp hrun
  exact ⟨s, hs, hlog, rightResults_of_run 3 answeredInTime s hs (by decide +kernel)⟩

/-- **The second peek fails** although its own response is there: the late one is in front. -/
theorem late_response_fails_next :
    ¬ ∀ (steps : List RadioStep) (s : RadioCtrlCore),
      run (step 3) {} steps = some s → ∀ r ∈ s.log, r.Right := by
  intro hall
  have hrun : (run (step 3) {} answeredLate).map log =
      some [.noResponse 0, .parseError 1 [⟨0, 7⟩, ⟨1, 9⟩]] := by decide +kernel
  obtain ⟨s, hs, hlog⟩ := Option.map_eq_some_iff.mp hrun
  have hright := hall answeredLate s hs
  rw [hlog] at hright
  have hlater : 1 < 1 := hright (.parseError 1 [⟨0, 7⟩, ⟨1, 9⟩]) (by simp) ⟨1, 9⟩ (by simp)
  exact Nat.lt_irrefl 1 hlater

end RadioCtrlCore
end Usrp
end UhdHost
