import UhdHost.Rfnoc.CtrlPayload
import Mathlib.Data.Finset.Basic
import Mathlib.Data.Finset.Insert
import Mathlib.Data.Finset.Erase
import Mathlib.Algebra.BigOperators.Group.List.Basic

/-!
# The control port endpoint

`ctrlport_endpoint_impl` of `lib/rfnoc/ctrlport_endpoint.cpp`: the parts that handle
requests, responses and flow control.  The file models one critical section of the
endpoint's mutex at a time, as a function on `EndpointState`; how client threads and the
receiving thread take turns is `CtrlportSystem`.

## Origins

Every payload that sits in a queue of the endpoint is paired with an `origin`, the
identity of the request it belongs to.  The endpoint is written for an arbitrary type
`ι` of identities and so cannot look at one: the origins only record where a payload
came from, and erasing them gives the queues of the source.

## What is left out

Time is not modelled: a wait either ends because its condition holds or because it timed
out, and `_policy.timeout` only says when.  The custom register spaces, the log texts and
the clocks' frequencies play no part in the queues.
-/

namespace UhdHost
namespace Rfnoc

/-- `ASYNC_MESSAGE_SIZE`: the largest asynchronous message in 32-bit words. -/
def asyncMessageSize : UInt64 := 6

/-- `SEQ_NUM_MASK`: sequence numbers are 8 bits long. -/
def seqNumMask : ℕ := 0b11111111

/-- `DEFAULT_FORCE_ACKS`. -/
def defaultForceAcks : Bool := false

/-- `response_status_t`: the software status of a response. -/
inductive ResponseStatus where
  | valid
  | dropped
  | rtErr
  | sizeErr
  deriving DecidableEq, Repr

/-- The exceptions the endpoint throws, by class. -/
inductive CtrlErrorKind where
  | systemError
  | opTimeout
  | opFailed
  | opTimerr
  | opSeqerr
  | sendFailure
  deriving DecidableEq, Repr

/-- An exception: its class and the fixed part of its text. -/
structure CtrlError where
  kind : CtrlErrorKind
  what : String
  deriving DecidableEq, Repr

/-- A payload together with the identity of the request it belongs to. -/
structure Tagged (ι : Type) where
  origin : ι
  pyld : CtrlPayload
  deriving DecidableEq, Repr

/-- The constant members of an endpoint. -/
structure EndpointConfig where
  /-- `_my_epid` -/
  myEpid : UInt16
  /-- `_local_port` -/
  localPort : UInt16
  /-- `_buff_capacity`, in 32-bit words -/
  buffCapacity : UInt64
  /-- `_max_outstanding_async_msgs` -/
  maxOutstandingAsyncMsgs : UInt64
  deriving DecidableEq, Repr

/-- The members of an endpoint that change. -/
structure EndpointState (ι : Type) where
  /-- `_buff_occupied`: occupied words of the downstream buffer.  The words counted here
  are also held by `_req_queue`, in memory, so the `ssize_t` of the source is an integer. -/
  buffOccupied : ℤ := 0
  /-- `_policy.force_acks` -/
  forceAcks : Bool := defaultForceAcks
  /-- `_req_queue`: outstanding requests, oldest first -/
  reqQueue : List (Tagged ι) := []
  /-- `_resp_queue`: responses nobody has collected yet, oldest first -/
  respQueue : List (Tagged ι × ResponseStatus) := []
  /-- `_wanted_acks` -/
  wantedAcks : Finset WantedAckKey := ∅
  /-- `_ctrl_sent` -/
  ctrlSent : ℕ := 0
  /-- `_acks_rcvd` -/
  acksRcvd : ℕ := 0
  /-- `_async_rcvd` -/
  asyncRcvd : ℕ := 0
  /-- `_acks_sent` -/
  acksSent : ℕ := 0
  /-- `_ctrl_dropped` -/
  ctrlDropped : ℕ := 0
  /-- `_ctrl_out_of_seq` -/
  ctrlOutOfSeq : ℕ := 0

/-- `register_iface_stats`, as `get_stats` returns it. -/
structure RegisterIfaceStats where
  ctrlPacketsSent : ℕ
  ackPacketsReceived : ℕ
  asyncPacketsReceived : ℕ
  ackPacketsSent : ℕ
  ctrlDropped : ℕ
  ctrlOutOfSequence : ℕ
  bufferFullness : ℤ
  deriving DecidableEq, Repr

variable {ι : Type}

/-- `get_stats` -/
def getStats (s : EndpointState ι) : RegisterIfaceStats :=
  ⟨s.ctrlSent, s.acksRcvd, s.asyncRcvd, s.acksSent, s.ctrlDropped, s.ctrlOutOfSeq,
    s.buffOccupied⟩

/-- `set_policy("default", ..)`: the timeout is not modelled and `force_acks` is always
set to its default. -/
def setPolicy (s : EndpointState ι) : EndpointState ι :=
  { s with forceAcks := defaultForceAcks }

/-! ## Sending a request -/

/-- The arguments of `fire_request_packet`.  `timestamp` is `none` for `time_spec_t::ASAP`
and the converted tick count otherwise. -/
structure CtrlRequest where
  opCode : CtrlOpcode
  address : UInt32
  dataVtr : List UInt32 := []
  timestamp : Option UInt64 := none
  requireAck : Bool := true
  reqSize : ℕ := 0
  deriving DecidableEq, Repr

/-- The clock checks at the head of `fire_request_packet`. -/
def checkClocks (clientClkRunning timebaseClkRunning : Bool) (r : CtrlRequest) :
    Except CtrlError Unit :=
  if !clientClkRunning then
    .error ⟨.systemError, "Ctrlport client clock is not running"⟩
  else if r.timestamp.isSome && !timebaseClkRunning then
    .error ⟨.systemError, "Timebase clock is not running"⟩
  else .ok ()

/-- The control payload `fire_request_packet` assembles.  The sequence number is read from
`_ctrl_sent` here, before the flow control check. -/
def assemble (cfg : EndpointConfig) (s : EndpointState ι) (r : CtrlRequest) : CtrlPayload where
  dstPort := cfg.localPort
  srcPort := cfg.localPort
  seqNum := UInt8.ofNat (s.ctrlSent &&& seqNumMask)
  timestamp := r.timestamp
  isAck := false
  srcEpid := cfg.myEpid
  address := r.address
  dataVtr := r.dataVtr
  numData := r.dataVtr.length
  reqSize := r.reqSize
  byteEnable := 0xF
  opCode := r.opCode
  status := .okay

/-- What requests may occupy: the capacity less the room reserved for responses to
asynchronous messages, in the unsigned arithmetic of the source. -/
def requestLimit (cfg : EndpointConfig) : UInt64 :=
  cfg.buffCapacity - asyncMessageSize * cfg.maxOutstandingAsyncMsgs

/-- The predicate `buff_not_full` of `fire_request_packet`. -/
def buffNotFull (cfg : EndpointConfig) (s : EndpointState ι) (pyldSize : ℕ) : Bool :=
  s.buffOccupied + pyldSize ≤ (requestLimit cfg).toNat

/-- The rest of `fire_request_packet`, once the request fits: take the credits, queue the
request, note that its response is wanted, and hand it to the send function.  `sendOk` says
whether the send function returns or throws.  The handler of the exception takes back the
wanted key only. -/
def transmitRequest (s : EndpointState ι) (tx : Tagged ι) (requireAck sendOk : Bool) :
    EndpointState ι × Except CtrlError Bool :=
  let s₁ := { s with
    buffOccupied := s.buffOccupied + tx.pyld.getPayloadSize
    reqQueue := s.reqQueue ++ [tx] }
  let registerAck := requireAck || s₁.forceAcks
  let s₂ := if registerAck then { s₁ with wantedAcks := insert tx.pyld.key s₁.wantedAcks }
    else s₁
  if sendOk then
    ({ s₂ with ctrlSent := s₂.ctrlSent + 1 }, .ok registerAck)
  else
    (if registerAck then { s₂ with wantedAcks := s₂.wantedAcks.erase tx.pyld.key } else s₂,
      .error ⟨.sendFailure, "send function"⟩)

@[simp] theorem transmitRequest_reqQueue (s : EndpointState ι) (tx : Tagged ι)
    (requireAck sendOk : Bool) :
    (transmitRequest s tx requireAck sendOk).1.reqQueue = s.reqQueue ++ [tx] := by
  dsimp only [transmitRequest]
  split_ifs <;> rfl

@[simp] theorem transmitRequest_respQueue (s : EndpointState ι) (tx : Tagged ι)
    (requireAck sendOk : Bool) :
    (transmitRequest s tx requireAck sendOk).1.respQueue = s.respQueue := by
  dsimp only [transmitRequest]
  split_ifs <;> rfl

@[simp] theorem transmitRequest_buffOccupied (s : EndpointState ι) (tx : Tagged ι)
    (requireAck sendOk : Bool) :
    (transmitRequest s tx requireAck sendOk).1.buffOccupied =
      s.buffOccupied + tx.pyld.getPayloadSize := by
  dsimp only [transmitRequest]
  split_ifs <;> rfl

theorem transmitRequest_ctrlSent (s : EndpointState ι) (tx : Tagged ι)
    (requireAck sendOk : Bool) :
    (transmitRequest s tx requireAck sendOk).1.ctrlSent =
      s.ctrlSent + (if sendOk then 1 else 0) := by
  dsimp only [transmitRequest]
  split_ifs <;> rfl

/-! ## Receiving a response -/

/-- The size check of `process_correct_response`, by the kind of the request. -/
def responseStatus (req rx : CtrlPayload) : ResponseStatus :=
  match req.opCode with
  | .write | .blockWrite => if rx.dataVtr.isEmpty then .valid else .sizeErr
  | .read | .blockRead => if rx.dataVtr.length = req.reqSize then .valid else .sizeErr
  | .sleep => if rx.dataVtr.isEmpty then .valid else .sizeErr
  | .poll => if rx.dataVtr.length = 1 then .valid else .sizeErr
  | _ => if req.getPayloadSize = rx.getPayloadSize then .valid else .sizeErr

/-- Pass a response on to the client that waits for it, if one does.  (The other branch of
the source only logs.) -/
def pushResponse (s : EndpointState ι) (resp : Tagged ι) (status : ResponseStatus) :
    EndpointState ι :=
  if resp.pyld.key ∈ s.wantedAcks then
    { s with
      wantedAcks := s.wantedAcks.erase resp.pyld.key
      respQueue := s.respQueue ++ [(resp, status)] }
  else s

/-- `process_correct_response`, with the front `req` of the request queue and the rest of
the queue given: return the credits, pop the request and pass the response on. -/
def processCorrectResponse (s : EndpointState ι) (req : Tagged ι) (rest : List (Tagged ι))
    (rx : Tagged ι) : EndpointState ι :=
  pushResponse
    { s with
      buffOccupied := s.buffOccupied - req.pyld.getPayloadSize
      reqQueue := rest }
    rx (responseStatus req.pyld rx.pyld)

/-- `process_incorrect_response` and the `pop_front` that follows it: return the credits of
a request whose response was lost and pass a fabricated response on. -/
def processIncorrectResponse (s : EndpointState ι) (req : Tagged ι) (rest : List (Tagged ι)) :
    EndpointState ι :=
  let s' := pushResponse { s with buffOccupied := s.buffOccupied - req.pyld.getPayloadSize }
    { req with pyld := { req.pyld with isAck := true } } .dropped
  { s' with reqQueue := rest, ctrlDropped := s'.ctrlDropped + 1 }

/-- The `while` loop of `handle_recv` over the request queue (its third argument) and the
`process_correct_response` after it: drop every request in front of the one the response
belongs to, then process the response. -/
def dropUntilMatch (rx : Tagged ι) : EndpointState ι → List (Tagged ι) → EndpointState ι
  | s, [] => s
  | s, req :: rest =>
    if req.pyld.key = rx.pyld.key then processCorrectResponse s req rest rx
    else dropUntilMatch rx (processIncorrectResponse s req rest) rest

/-- `handle_recv` for a response. -/
def handleAck (s : EndpointState ι) (rx : Tagged ι) : EndpointState ι :=
  let s := { s with acksRcvd := s.acksRcvd + 1 }
  let seqNumDiff : UInt8 := match s.reqQueue with
    | [] => 1
    | req :: _ => rx.pyld.seqNum - req.pyld.seqNum
  if seqNumDiff = 0 then
    match s.reqQueue with
    | [] => s
    | req :: rest =>
      if req.pyld.opCode = rx.pyld.opCode ∧ req.pyld.address = rx.pyld.address then
        processCorrectResponse s req rest rx
      else { s with ctrlOutOfSeq := s.ctrlOutOfSeq + 1 }
  else
    match s.reqQueue.find? fun req => req.pyld.key = rx.pyld.key with
    | none => { s with ctrlOutOfSeq := s.ctrlOutOfSeq + 1 }
    | some _ => dropUntilMatch rx s s.reqQueue

/-! ### What a response can do

`handleAck_cases` says once what `handle_recv` does with a response: it is ignored, or the
request queue splits at the request it belongs to, every request in front is answered by a
fabricated response, and the request itself by the response that was received. -/

@[simp] theorem pushResponse_reqQueue (s : EndpointState ι) (resp : Tagged ι)
    (status : ResponseStatus) : (pushResponse s resp status).reqQueue = s.reqQueue := by
  unfold pushResponse
  split_ifs <;> rfl

@[simp] theorem pushResponse_buffOccupied (s : EndpointState ι) (resp : Tagged ι)
    (status : ResponseStatus) : (pushResponse s resp status).buffOccupied = s.buffOccupied := by
  unfold pushResponse
  split_ifs <;> rfl

@[simp] theorem pushResponse_ctrlSent (s : EndpointState ι) (resp : Tagged ι)
    (status : ResponseStatus) : (pushResponse s resp status).ctrlSent = s.ctrlSent := by
  unfold pushResponse
  split_ifs <;> rfl

theorem mem_respQueue_pushResponse {s : EndpointState ι} {resp : Tagged ι}
    {status : ResponseStatus} {e : Tagged ι × ResponseStatus}
    (h : e ∈ (pushResponse s resp status).respQueue) :
    e ∈ s.respQueue ∨ e = (resp, status) := by
  unfold pushResponse at h
  split_ifs at h
  · rw [List.mem_append, List.mem_singleton] at h
    exact h
  · exact Or.inl h

/-- The response fabricated for a request whose own response was lost. -/
def fabricated (req : Tagged ι) : Tagged ι × ResponseStatus :=
  ({ req with pyld := { req.pyld with isAck := true } }, .dropped)

/-- What is passed on when `rx` answers `req` with `dropped` in front of it. -/
def answers (dropped : List (Tagged ι)) (req rx : Tagged ι) :
    List (Tagged ι × ResponseStatus) :=
  dropped.map fabricated ++ [(rx, responseStatus req.pyld rx.pyld)]

/-- The words a list of requests occupies. -/
def occupiedBy (q : List (Tagged ι)) : ℕ := (q.map fun r => r.pyld.getPayloadSize).sum

@[simp] theorem occupiedBy_nil : occupiedBy ([] : List (Tagged ι)) = 0 := rfl

@[simp] theorem occupiedBy_cons (r : Tagged ι) (q : List (Tagged ι)) :
    occupiedBy (r :: q) = r.pyld.getPayloadSize + occupiedBy q := by
  rw [occupiedBy, List.map_cons, List.sum_cons, occupiedBy]

@[simp] theorem occupiedBy_append (q₁ q₂ : List (Tagged ι)) :
    occupiedBy (q₁ ++ q₂) = occupiedBy q₁ + occupiedBy q₂ := by
  rw [occupiedBy, List.map_append, List.sum_append, occupiedBy, occupiedBy]

/-- What handling `rx` does when the request queue is `dropped ++ req :: rest` and `req` is
the request that `rx` belongs to. -/
structure Answered (s s' : EndpointState ι) (dropped : List (Tagged ι)) (req : Tagged ι)
    (rest : List (Tagged ι)) (rx : Tagged ι) : Prop where
  /-- The popped requests leave the queue. -/
  reqQueue : s'.reqQueue = rest
  /-- The popped requests give back the credits they took. -/
  buffOccupied : s.buffOccupied = s'.buffOccupied + occupiedBy (dropped ++ [req])
  /-- Only answers to the popped requests are passed on. -/
  respQueue : ∀ e ∈ s'.respQueue, e ∈ s.respQueue ∨ e ∈ answers dropped req rx
  /-- Nothing is sent. -/
  ctrlSent : s'.ctrlSent = s.ctrlSent

theorem answered_processCorrectResponse (s : EndpointState ι) (req : Tagged ι)
    (rest : List (Tagged ι)) (rx : Tagged ι) :
    Answered s (processCorrectResponse s req rest rx) [] req rest rx where
  reqQueue := by rw [processCorrectResponse, pushResponse_reqQueue]
  buffOccupied := by simp [processCorrectResponse]
  respQueue e he := by
    rcases mem_respQueue_pushResponse he with h | h
    · exact Or.inl h
    · exact Or.inr (by simp [answers, h])
  ctrlSent := by rw [processCorrectResponse, pushResponse_ctrlSent]

theorem processIncorrectResponse_buffOccupied (s : EndpointState ι) (req : Tagged ι)
    (rest : List (Tagged ι)) : (processIncorrectResponse s req rest).buffOccupied =
      s.buffOccupied - req.pyld.getPayloadSize := by
  rw [processIncorrectResponse, pushResponse_buffOccupied]

theorem answered_dropUntilMatch {rx req : Tagged ι} (rest : List (Tagged ι))
    (hreq : req.pyld.key = rx.pyld.key) :
    ∀ (dropped : List (Tagged ι)) (s : EndpointState ι),
      (∀ d ∈ dropped, d.pyld.key ≠ rx.pyld.key) →
      Answered s (dropUntilMatch rx s (dropped ++ req :: rest)) dropped req rest rx
  | [], s, _ => by
    rw [List.nil_append, dropUntilMatch, if_pos hreq]
    exact answered_processCorrectResponse s req rest rx
  | d :: dropped, s, hd => by
    have hne : d.pyld.key ≠ rx.pyld.key := hd d (List.mem_cons_self ..)
    have ih := answered_dropUntilMatch rest hreq dropped
      (processIncorrectResponse s d (dropped ++ req :: rest))
      fun e he => hd e (List.mem_cons_of_mem d he)
    rw [List.cons_append, dropUntilMatch, if_neg hne]
    refine ⟨ih.reqQueue, ?_, fun e he => ?_, ?_⟩
    · have hocc := ih.buffOccupied
      rw [processIncorrectResponse_buffOccupied] at hocc
      rw [List.cons_append, occupiedBy_cons]
      push_cast
      omega
    · rcases ih.respQueue e he with h | h
      · rcases mem_respQueue_pushResponse h with h | h
        · exact Or.inl h
        · exact Or.inr (by simp [answers, fabricated, h])
      · refine Or.inr ?_
        rw [answers, List.map_cons, List.cons_append]
        exact List.mem_cons_of_mem _ h
    · rw [ih.ctrlSent, processIncorrectResponse, pushResponse_ctrlSent]

theorem handleAck_cases (s : EndpointState ι) (rx : Tagged ι) :
    ((handleAck s rx).reqQueue = s.reqQueue ∧
      (handleAck s rx).buffOccupied = s.buffOccupied ∧
      (handleAck s rx).respQueue = s.respQueue ∧ (handleAck s rx).ctrlSent = s.ctrlSent) ∨
    ∃ dropped req rest, s.reqQueue = dropped ++ req :: rest ∧ req.pyld.key = rx.pyld.key ∧
      Answered s (handleAck s rx) dropped req rest rx := by
  -- counting the response changes none of the fields the statement is about
  let s' : EndpointState ι := { s with acksRcvd := s.acksRcvd + 1 }
  have hcount : ∀ {t dropped req rest}, Answered s' t dropped req rest rx →
      Answered s t dropped req rest rx := fun h => ⟨h.1, h.2, h.3, h.4⟩
  cases hq : s.reqQueue with
  | nil =>
    refine Or.inl ?_
    simp [handleAck, hq]
  | cons req rest =>
    by_cases hseq : rx.pyld.seqNum - req.pyld.seqNum = 0
    · by_cases hop : req.pyld.opCode = rx.pyld.opCode ∧ req.pyld.address = rx.pyld.address
      · refine Or.inr ⟨[], req, rest, rfl, ?_, ?_⟩
        · exact CtrlPayload.key_eq_key_iff.mpr
            ⟨(sub_eq_zero.mp hseq).symm, hop.1, hop.2⟩
        · have h := answered_processCorrectResponse s' req rest rx
          simpa [handleAck, hq, hseq, hop, s'] using hcount h
      · refine Or.inl ?_
        simp [handleAck, hq, hseq, hop]
    · cases hfind : (req :: rest).find? fun r => decide (r.pyld.key = rx.pyld.key) with
      | none =>
        refine Or.inl ?_
        simp [handleAck, hq, hseq, hfind]
      | some r =>
        obtain ⟨hr, dropped, rest', hsplit, hdropped⟩ :=
          List.find?_eq_some_iff_append.mp hfind
        have hr : r.pyld.key = rx.pyld.key := by simpa using hr
        have hdropped : ∀ d ∈ dropped, d.pyld.key ≠ rx.pyld.key := by simpa using hdropped
        refine Or.inr ⟨dropped, r, rest', hsplit, hr, ?_⟩
        have h := answered_dropUntilMatch rest' hr dropped s' hdropped
        rw [← hsplit] at h
        simpa [handleAck, hq, hseq, hfind, s'] using hcount h

/-- The status `handle_recv` answers an asynchronous message with. -/
def asyncStatus (cfg : EndpointConfig) (validateAsyncMsg : UInt32 → List UInt32 → Bool)
    (rx : CtrlPayload) : CtrlStatus :=
  if rx.opCode ≠ .write ∧ rx.opCode ≠ .blockWrite then .cmdErr
  else if rx.dstPort ≠ cfg.localPort then .cmdErr
  else if rx.dataVtr.isEmpty then .cmdErr
  else if validateAsyncMsg rx.address rx.dataVtr then .okay
  else .cmdErr

/-- The response `handle_recv` sends to an asynchronous message. -/
def asyncResponse (cfg : EndpointConfig) (validateAsyncMsg : UInt32 → List UInt32 → Bool)
    (rx : CtrlPayload) : CtrlPayload :=
  { rx with
    isAck := true
    srcEpid := cfg.myEpid
    status := asyncStatus cfg validateAsyncMsg rx
    dataVtr := []
    numData := 0 }

/-- `handle_recv` for an asynchronous message: only counters change.  The handler of the
client is called where the second component is true. -/
def handleAsync (cfg : EndpointConfig) (validateAsyncMsg : UInt32 → List UInt32 → Bool)
    (s : EndpointState ι) (rx : CtrlPayload) (sendOk : Bool) : EndpointState ι × Bool :=
  let s := { s with asyncRcvd := s.asyncRcvd + 1 }
  if sendOk then
    ({ s with acksSent := s.acksSent + 1 }, asyncStatus cfg validateAsyncMsg rx = .okay)
  else (s, false)

/-! ## Collecting a response -/

/-- The loop of `wait_for_ack` over the response queue: take out the first response with
the key of the request. -/
def takeResponse (k : WantedAckKey) : List (Tagged ι × ResponseStatus) →
    Option ((Tagged ι × ResponseStatus) × List (Tagged ι × ResponseStatus))
  | [] => none
  | e :: es =>
    if e.1.pyld.key = k then some (e, es)
    else (takeResponse k es).map fun r => (r.1, e :: r.2)

theorem takeResponse_eq_some {k : WantedAckKey} :
    ∀ {q : List (Tagged ι × ResponseStatus)} {e rest}, takeResponse k q = some (e, rest) →
      e ∈ q ∧ e.1.pyld.key = k ∧ ∀ x ∈ rest, x ∈ q
  | [], _, _, h => nomatch h
  | x :: xs, e, rest, h => by
    rw [takeResponse] at h
    split_ifs at h with hx
    · rw [Option.some_inj, Prod.mk.injEq] at h
      obtain ⟨rfl, rfl⟩ := h
      exact ⟨List.mem_cons_self .., hx, fun y hy => List.mem_cons_of_mem _ hy⟩
    · obtain ⟨⟨e', rest'⟩, htake, heq⟩ := Option.map_eq_some_iff.mp h
      rw [Prod.mk.injEq] at heq
      obtain ⟨rfl, rfl⟩ := heq
      obtain ⟨he, hk, hrest⟩ := takeResponse_eq_some htake
      refine ⟨List.mem_cons_of_mem _ he, hk, fun y hy => ?_⟩
      rcases List.mem_cons.mp hy with rfl | hy
      · exact List.mem_cons_self ..
      · exact List.mem_cons_of_mem _ (hrest y hy)

/-- `validate_ack` -/
def validateAck (request rx : CtrlPayload) (status : ResponseStatus) :
    Except CtrlError CtrlPayload :=
  if rx.status = .cmdErr then
    .error ⟨.opFailed, "Control operation returned a failing status."⟩
  else if rx.status = .tsErr then
    .error ⟨.opTimerr, "Control operation returned a timestamp error."⟩
  else if ¬(request.opCode = .write ∨ request.opCode = .blockWrite ∨ request.opCode = .sleep) ∧
      rx.dataVtr.isEmpty then
    .error ⟨.opFailed, "Control operation returned a malformed response."⟩
  else if status = .dropped then
    .error ⟨.opSeqerr, "Response for a control transaction was dropped."⟩
  else if status = .rtErr then
    .error ⟨.opTimerr, "Control operation encountered a routing error."⟩
  else .ok rx

end Rfnoc
end UhdHost
