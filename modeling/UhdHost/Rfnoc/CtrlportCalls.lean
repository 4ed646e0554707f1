import UhdHost.Rfnoc.CtrlportResponses

/-!
# The calls of the control port endpoint

`poke32`, `peek32`, `poll32`, `sleep` and the chunks of `bulk_write32` and `bulk_read32`: which
request each of them fires, and what it makes of the response.

A response is classified twice.  `process_correct_response` compares its size with the request and
records the outcome; `validate_ack` looks at the status of the transaction, then whether there are
any data, and then whether the response was dropped, but never at the recorded size error.

* `AnswersRequest`: what is paired with a request, in every run (`answered_of_run`).
* `reported_iff`: when a call reports what happened as claimed.
-/

namespace UhdHost
namespace Rfnoc

open Transition

/-! ## The operations -/

/-- What is asked of the endpoint, one request each.  A bulk operation advances its address (`block`)
or not. -/
inductive Operation where
  | poke32 (addr data : UInt32)
  | bulkWrite32 (block : Bool) (addr : UInt32) (chunk : List UInt32)
  | peek32 (addr : UInt32)
  | bulkRead32 (block : Bool) (addr : UInt32) (chunkSize : ℕ)
  | poll32 (addr data mask timeoutTicks : UInt32)
  | sleep (ticks : UInt32)
  deriving DecidableEq

namespace Operation

/-- The request that an operation fires. -/
def request (timestamp : Option UInt64) (ack : Bool) : Operation → CtrlRequest
  | poke32 addr data =>
    { opCode := .write, address := addr, dataVtr := [data], timestamp := timestamp,
      requireAck := ack }
  | bulkWrite32 block addr chunk =>
    { opCode := if block then .blockWrite else .write, address := addr, dataVtr := chunk,
      timestamp := timestamp, requireAck := ack }
  | peek32 addr =>
    { opCode := .read, address := addr, timestamp := timestamp, reqSize := 1 }
  | bulkRead32 block addr chunkSize =>
    { opCode := if block then .blockRead else .read, address := addr, timestamp := timestamp,
      reqSize := chunkSize }
  | poll32 addr data mask timeoutTicks =>
    { opCode := .poll, address := addr, dataVtr := [data, mask, timeoutTicks],
      timestamp := timestamp, requireAck := ack }
  | sleep ticks =>
    { opCode := .sleep, address := 0, dataVtr := [ticks], requireAck := ack }

/-- How many words of data the answer to an operation has. -/
def answerSize : Operation → ℕ
  | peek32 _ => 1
  | bulkRead32 _ _ chunkSize => chunkSize
  | poll32 .. => 1
  | _ => 0

/-- Operations that read registers. -/
def isRead : Operation → Bool
  | peek32 _ => true
  | bulkRead32 .. => true
  | _ => false

/-- Those that read several. -/
def isBulkRead : Operation → Bool
  | bulkRead32 .. => true
  | _ => false

/-- A payload that an operation has sent. -/
def Sends (op : Operation) (tx : CtrlPayload) : Prop :=
  ∃ (cfg : EndpointConfig) (s : EndpointState ℕ) (timestamp : Option UInt64) (ack : Bool),
    tx = assemble cfg s (op.request timestamp ack)

end Operation

/-- How a call fails: with an exception of the endpoint, or a failed assertion. -/
inductive CallError where
  | ctrl (e : CtrlError)
  | assertionError (what : String)
  deriving DecidableEq

/-- What a call makes of what `wait_for_ack` yields: the words it returns. -/
def Operation.outcome (op : Operation) (r : Except CtrlError CtrlPayload) :
    Except CallError (List UInt32) :=
  match r with
  | .error e => .error (.ctrl e)
  | .ok response =>
    match op with
    | .poke32 .. => .ok []
    | .bulkWrite32 .. => .ok []
    | .sleep _ => .ok []
    | .peek32 _ =>
      if response.dataVtr.isEmpty then
        .error (.assertionError "not response.value().data_vtr.empty()")
      else .ok (response.dataVtr.take 1)
    | .poll32 .. =>
      if response.dataVtr.isEmpty then
        .error (.assertionError "not response.value().data_vtr.empty()")
      else .ok (response.dataVtr.take 1)
    | .bulkRead32 _ _ chunkSize =>
      if response.dataVtr.length = chunkSize then .ok response.dataVtr
      else .error (.assertionError "response.data_vtr.size() == chunk_size")

/-! ## What is claimed -/

/-- **What is claimed of a call**, for the response it was given. -/
structure Reported (op : Operation) (rx : CtrlPayload) (status : ResponseStatus)
    (outcome : Except CallError (List UInt32)) : Prop where
  /-- It returns for nothing but a response that was not dropped, says so, and has the right size. -/
  accepted : ∀ words, outcome = .ok words → (rx.status = .okay ∨ rx.status = .warning) ∧
    rx.dataVtr.length = op.answerSize ∧ status ≠ .dropped
  /-- A dropped response is a sequence error. -/
  dropped : status = .dropped → ∃ what, outcome = .error (.ctrl ⟨.opSeqerr, what⟩)
  /-- One of the wrong size is a failure. -/
  sized : status ≠ .dropped → rx.dataVtr.length ≠ op.answerSize → ∃ e, outcome = .error e

/-- **The condition.**  No response to a read is dropped; and no response has more data than the
operation requires, unless its status is an error, or the size is looked at again. -/
def Classified (op : Operation) (rx : CtrlPayload) (status : ResponseStatus) : Prop :=
  (status = .dropped → op.isRead = false) ∧
    (status ≠ .dropped → rx.dataVtr.length ≤ op.answerSize ∨ rx.status = .cmdErr ∨
      rx.status = .tsErr ∨ op.isBulkRead = true)

/-- A response that is paired with requests of a kind and a key: received and compared with such a
request, or fabricated for one. -/
def AnswersRequest (P : CtrlPayload → Prop) (k : WantedAckKey) (rx : CtrlPayload)
    (status : ResponseStatus) : Prop :=
  rx.key = k ∧ ∃ tx, P tx ∧ tx.key = k ∧
    (status = responseStatus tx rx ∨ rx = { tx with isAck := true } ∧ status = .dropped)

/-- A payload that some operation has sent. -/
def SentByOperation (tx : CtrlPayload) : Prop := ∃ op, Operation.Sends op tx

/-! ## One response -/

namespace Operation

/-- Operations whose answers have no data. -/
def isSilent (op : Operation) : Bool := op.answerSize == 0 && !op.isBulkRead

variable {op op' : Operation} {tx req : CtrlPayload}

theorem Sends.opCode (h : op.Sends tx) : tx.opCode = (op.request none false).opCode := by
  obtain ⟨cfg, s, timestamp, ack, rfl⟩ := h
  cases op <;> rfl

theorem Sends.status (h : op.Sends tx) : tx.status = .okay := by
  obtain ⟨cfg, s, timestamp, ack, rfl⟩ := h
  rfl

theorem Sends.dataVtr (h : op.Sends tx) : tx.dataVtr = (op.request none false).dataVtr := by
  obtain ⟨cfg, s, timestamp, ack, rfl⟩ := h
  cases op <;> rfl

theorem Sends.silent_iff (h : op.Sends tx) :
    (tx.opCode = .write ∨ tx.opCode = .blockWrite ∨ tx.opCode = .sleep) ↔ op.isSilent = true := by
  rw [h.opCode]
  cases op with
  | poke32 addr data => exact iff_of_true (Or.inl rfl) rfl
  | bulkWrite32 block addr chunk =>
    cases block
    · exact iff_of_true (Or.inl rfl) rfl
    · exact iff_of_true (Or.inr (Or.inl rfl)) rfl
  | peek32 addr => simp [request, isSilent, answerSize]
  | bulkRead32 block addr chunkSize => cases block <;> simp [request, isSilent, isBulkRead]
  | poll32 addr data mask timeoutTicks => simp [request, isSilent, answerSize]
  | sleep ticks => exact iff_of_true (Or.inr (Or.inr rfl)) rfl

theorem Sends.isEmpty_of_opCode (h : op.Sends req) (h' : op'.Sends tx)
    (hcode : tx.opCode = req.opCode) (hloud : op.isSilent = false) :
    tx.dataVtr.isEmpty = op.isRead := by
  have hcodes : (op'.request none false).opCode = (op.request none false).opCode := by
    rw [← h'.opCode, ← h.opCode, hcode]
  rw [h'.dataVtr]
  cases op with
  | poke32 addr data => cases hloud
  | bulkWrite32 block addr chunk => cases hloud
  | sleep ticks => cases hloud
  | peek32 addr =>
    cases op' with
    | peek32 addr' => rfl
    | bulkRead32 block' addr' chunkSize' => rfl
    | bulkWrite32 block' addr' chunk' => cases block' <;> cases hcodes
    | poke32 addr' data' => cases hcodes
    | poll32 addr' data' mask' ticks' => cases hcodes
    | sleep ticks' => cases hcodes
  | bulkRead32 block addr chunkSize =>
    cases op' with
    | peek32 addr' => rfl
    | bulkRead32 block' addr' chunkSize' => rfl
    | bulkWrite32 block' addr' chunk' => cases block <;> cases block' <;> cases hcodes
    | poke32 addr' data' => cases block <;> cases hcodes
    | poll32 addr' data' mask' ticks' => cases block <;> cases hcodes
    | sleep ticks' => cases block <;> cases hcodes
  | poll32 addr data mask ticks =>
    cases op' with
    | poll32 addr' data' mask' ticks' => rfl
    | peek32 addr' => cases hcodes
    | bulkRead32 block' addr' chunkSize' => cases block' <;> cases hcodes
    | bulkWrite32 block' addr' chunk' => cases block' <;> cases hcodes
    | poke32 addr' data' => cases hcodes
    | sleep ticks' => cases hcodes

end Operation

section Response

variable {op : Operation} {req rx : CtrlPayload} {status : ResponseStatus}

theorem responseStatus_cases (req rx : CtrlPayload) :
    responseStatus req rx = .valid ∨ responseStatus req rx = .sizeErr := by
  rw [responseStatus]
  split <;> split_ifs <;> simp

theorem validateAck_eq (hsends : op.Sends req) :
    validateAck req rx status
      = if rx.status = .cmdErr then
          .error ⟨.opFailed, "Control operation returned a failing status."⟩
        else if rx.status = .tsErr then
          .error ⟨.opTimerr, "Control operation returned a timestamp error."⟩
        else if op.isSilent = false ∧ rx.dataVtr.isEmpty = true then
          .error ⟨.opFailed, "Control operation returned a malformed response."⟩
        else if status = .dropped then
          .error ⟨.opSeqerr, "Response for a control transaction was dropped."⟩
        else if status = .rtErr then
          .error ⟨.opTimerr, "Control operation encountered a routing error."⟩
        else .ok rx := by
  simp only [validateAck, hsends.silent_iff, Bool.not_eq_true]

theorem validateAck_received (rx : CtrlPayload) (hsends : op.Sends req) (hne : status ≠ .dropped)
    (hrt : status ≠ .rtErr) :
    (∃ e, validateAck req rx status = .error e) ∧ (rx.status = .cmdErr ∨ rx.status = .tsErr ∨
        op.isSilent = false ∧ rx.dataVtr = []) ∨
      validateAck req rx status = .ok rx ∧ (rx.status = .okay ∨ rx.status = .warning) ∧
        (op.isSilent = true ∨ rx.dataVtr ≠ []) := by
  rw [validateAck_eq hsends]
  by_cases hcmd : rx.status = .cmdErr
  · rw [if_pos hcmd]
    exact Or.inl ⟨⟨_, rfl⟩, Or.inl hcmd⟩
  by_cases hts : rx.status = .tsErr
  · rw [if_neg hcmd, if_pos hts]
    exact Or.inl ⟨⟨_, rfl⟩, Or.inr (Or.inl hts)⟩
  have hfine : rx.status = .okay ∨ rx.status = .warning := by
    cases hstatus : rx.status with
    | okay => exact Or.inl rfl
    | warning => exact Or.inr rfl
    | cmdErr => exact absurd hstatus hcmd
    | tsErr => exact absurd hstatus hts
  rw [if_neg hcmd, if_neg hts]
  by_cases hempty : op.isSilent = false ∧ rx.dataVtr.isEmpty = true
  · rw [if_pos hempty]
    exact Or.inl ⟨⟨_, rfl⟩, Or.inr (Or.inr ⟨hempty.1, List.isEmpty_iff.mp hempty.2⟩)⟩
  · rw [if_neg hempty, if_neg hne, if_neg hrt]
    refine Or.inr ⟨rfl, hfine, ?_⟩
    by_cases hsilent : op.isSilent = true
    · exact Or.inl hsilent
    · refine Or.inr fun hnil => hempty ⟨?_, List.isEmpty_iff.mpr hnil⟩
      exact Bool.not_eq_true _ ▸ hsilent

theorem validateAck_dropped (hsends : op.Sends req) (hokay : rx.status = .okay) :
    validateAck req rx .dropped
      = if op.isSilent = false ∧ rx.dataVtr.isEmpty = true then
          .error ⟨.opFailed, "Control operation returned a malformed response."⟩
        else .error ⟨.opSeqerr, "Response for a control transaction was dropped."⟩ := by
  rw [validateAck_eq hsends, hokay]
  rfl

theorem reported_dropped_iff (hsends : op.Sends req)
    (hanswers : AnswersRequest SentByOperation req.key rx .dropped) :
    Reported op rx .dropped (op.outcome (validateAck req rx .dropped)) ↔ op.isRead = false := by
  obtain ⟨-, tx, ⟨op', hsends'⟩, hkey, hreceived | ⟨hrx, -⟩⟩ := hanswers
  · rcases responseStatus_cases tx rx with h | h
    · rw [h] at hreceived
      cases hreceived
    · rw [h] at hreceived
      cases hreceived
  · have hokay : rx.status = .okay := by rw [hrx]; exact hsends'.status
    have hdata : rx.dataVtr = tx.dataVtr := by rw [hrx]
    have hcode : tx.opCode = req.opCode := (CtrlPayload.key_eq_key_iff.mp hkey).2.1
    rw [validateAck_dropped hsends hokay, hdata]
    by_cases hsilent : op.isSilent = false
    · rw [hsends.isEmpty_of_opCode hsends' hcode hsilent]
      by_cases hread : op.isRead = true
      · rw [if_pos ⟨hsilent, hread⟩]
        refine iff_of_false (fun h => ?_) (by rw [hread]; exact Bool.noConfusion)
        obtain ⟨what, hwhat⟩ := h.dropped rfl
        rw [Operation.outcome] at hwhat
        cases hwhat
      · rw [if_neg fun hboth => hread hboth.2]
        refine iff_of_true ⟨fun words h => ?_, fun _ => ⟨_, rfl⟩, fun h => absurd rfl h⟩
          (Bool.not_eq_true _ ▸ hread)
        rw [Operation.outcome] at h
        cases h
    · rw [if_neg fun hboth => hsilent hboth.1]
      refine iff_of_true ⟨fun words h => ?_, fun _ => ⟨_, rfl⟩, fun h => absurd rfl h⟩ ?_
      · rw [Operation.outcome] at h
        cases h
      · cases op with
        | peek32 addr => exact absurd rfl hsilent
        | bulkRead32 block addr chunkSize =>
          refine absurd ?_ hsilent
          rw [Operation.isSilent, Operation.isBulkRead, Bool.not_true, Bool.and_false]
        | poke32 addr data => rfl
        | bulkWrite32 block addr chunk => rfl
        | poll32 addr data mask ticks => rfl
        | sleep ticks => rfl

theorem outcome_ok_iff (op : Operation) (rx : CtrlPayload) (hdata : op.isSilent = true ∨ rx.dataVtr ≠ []) :
    (∃ words, op.outcome (.ok rx) = .ok words) ↔
      op.isBulkRead = false ∨ rx.dataVtr.length = op.answerSize := by
  cases op with
  | poke32 addr data => exact iff_of_true ⟨_, rfl⟩ (Or.inl rfl)
  | bulkWrite32 block addr chunk => exact iff_of_true ⟨_, rfl⟩ (Or.inl rfl)
  | sleep ticks => exact iff_of_true ⟨_, rfl⟩ (Or.inl rfl)
  | peek32 addr =>
    have hne : rx.dataVtr ≠ [] := hdata.resolve_left Bool.noConfusion
    refine iff_of_true ⟨rx.dataVtr.take 1, ?_⟩ (Or.inl rfl)
    rw [Operation.outcome, if_neg fun hempty => hne (List.isEmpty_iff.mp hempty)]
  | poll32 addr data mask ticks =>
    have hne : rx.dataVtr ≠ [] := hdata.resolve_left Bool.noConfusion
    refine iff_of_true ⟨rx.dataVtr.take 1, ?_⟩ (Or.inl rfl)
    rw [Operation.outcome, if_neg fun hempty => hne (List.isEmpty_iff.mp hempty)]
  | bulkRead32 block addr chunkSize =>
    rw [Operation.outcome]
    constructor
    · rintro ⟨words, hwords⟩
      split_ifs at hwords with hlength
      exact Or.inr hlength
    · rintro (hbulk | hlength)
      · cases hbulk
      · exact ⟨rx.dataVtr, if_pos hlength⟩

theorem reported_received_iff (hsends : op.Sends req) (hne : status ≠ .dropped)
    (hrt : status ≠ .rtErr) :
    Reported op rx status (op.outcome (validateAck req rx status)) ↔
      rx.dataVtr.length ≤ op.answerSize ∨ rx.status = .cmdErr ∨ rx.status = .tsErr ∨
        op.isBulkRead = true := by
  rcases validateAck_received rx hsends hne hrt with ⟨⟨e, he⟩, hwhy⟩ | ⟨hok, hfine, hdata⟩
  · rw [he]
    refine iff_of_true ⟨fun words h => ?_, fun h => absurd h hne, fun _ _ => ⟨_, rfl⟩⟩ ?_
    · rw [Operation.outcome] at h
      cases h
    · rcases hwhy with hcmd | hts | ⟨-, hnil⟩
      · exact Or.inr (Or.inl hcmd)
      · exact Or.inr (Or.inr (Or.inl hts))
      · rw [hnil]
        exact Or.inl (Nat.zero_le _)
  · rw [hok]
    have hnoError : ¬ (rx.status = .cmdErr ∨ rx.status = .tsErr) := by
      rcases hfine with h | h <;> rw [h] <;> simp
    constructor
    · intro h
      by_cases hbulk : op.isBulkRead = true
      · exact Or.inr (Or.inr (Or.inr hbulk))
      · obtain ⟨words, hwords⟩ := (outcome_ok_iff op rx hdata).mpr (Or.inl (Bool.not_eq_true _ ▸ hbulk))
        exact Or.inl (h.accepted words hwords).2.1.le
    · intro hcond
      have hsize : (∃ words, op.outcome (.ok rx) = .ok words) → rx.dataVtr.length = op.answerSize := by
        intro hreturns
        rcases (outcome_ok_iff op rx hdata).mp hreturns with hbulk | hlength
        · have hle : rx.dataVtr.length ≤ op.answerSize := by
            rcases hcond with hle | hcmd | hts | hbulk'
            · exact hle
            · exact absurd (Or.inl hcmd) hnoError
            · exact absurd (Or.inr hts) hnoError
            · rw [hbulk'] at hbulk
              cases hbulk
          refine le_antisymm hle ?_
          -- With data at all, there are as many words as required.
          rcases hdata with hsilent | hnonempty
          · rw [Operation.isSilent, Bool.and_eq_true, beq_iff_eq] at hsilent
            rw [hsilent.1]
            exact Nat.zero_le _
          · have hpos : 0 < rx.dataVtr.length := List.length_pos_of_ne_nil hnonempty
            cases op with
            | bulkRead32 block addr chunkSize => cases hbulk
            | poke32 addr data => exact Nat.zero_le _
            | bulkWrite32 block addr chunk => exact Nat.zero_le _
            | peek32 addr => exact hpos
            | poll32 addr data mask ticks => exact hpos
            | sleep ticks => exact Nat.zero_le _
        · exact hlength
      refine ⟨fun words hwords => ⟨hfine, hsize ⟨words, hwords⟩, hne⟩, fun h => absurd h hne,
        fun _ hwrong => ?_⟩
      cases houtcome : op.outcome (.ok rx) with
      | error e => exact ⟨e, rfl⟩
      | ok words => exact absurd (hsize ⟨words, houtcome⟩) hwrong

theorem reported_answer_iff (hsends : op.Sends req)
    (hanswers : AnswersRequest SentByOperation req.key rx status) :
    Reported op rx status (op.outcome (validateAck req rx status)) ↔ Classified op rx status := by
  rw [Classified]
  by_cases hdropped : status = .dropped
  · subst hdropped
    rw [reported_dropped_iff hsends hanswers]
    exact ⟨fun h => ⟨fun _ => h, fun hne => absurd rfl hne⟩, fun h => h.1 rfl⟩
  · have hrt : status ≠ .rtErr := by
      obtain ⟨-, tx, -, -, hreceived | ⟨-, hdropped'⟩⟩ := hanswers
      · rcases responseStatus_cases tx rx with h | h
        · rw [hreceived, h]
          exact ResponseStatus.noConfusion
        · rw [hreceived, h]
          exact ResponseStatus.noConfusion
      · exact absurd hdropped' hdropped
    rw [reported_received_iff hsends hdropped hrt]
    exact ⟨fun h => ⟨fun heq => absurd heq hdropped, fun _ => h⟩, fun h => h.2 hdropped⟩

end Response

theorem AnswersRequest.mono {P Q : CtrlPayload → Prop} {k : WantedAckKey} {rx : CtrlPayload}
    {status : ResponseStatus} (h : AnswersRequest P k rx status) (hPQ : ∀ tx, P tx → Q tx) :
    AnswersRequest Q k rx status := by
  obtain ⟨hkey, tx, hP, htx, hor⟩ := h
  exact ⟨hkey, tx, hPQ tx hP, htx, hor⟩

/-! ## Runs -/

namespace CtrlportSystem

/-- A payload that was issued. -/
def WasIssued (sys : CtrlportSystem) (tx : CtrlPayload) : Prop := ∃ e ∈ sys.issued, e.pyld = tx

/-- **What is paired with the requests**, in every reachable state. -/
structure PairInv (sys : CtrlportSystem) : Prop where
  queued : ∀ r ∈ sys.ep.reqQueue, sys.WasIssued r.pyld
  resp : ∀ e ∈ sys.ep.respQueue, AnswersRequest sys.WasIssued e.1.pyld.key e.1.pyld e.2
  returned : ∀ r ∈ sys.returned, ∃ req, sys.issued[r.request]? = some req ∧
    AnswersRequest sys.WasIssued req.pyld.key r.response.pyld r.status ∧
    r.result = validateAck req.pyld r.response.pyld r.status

theorem pairInv_init : PairInv {} :=
  ⟨fun _ h => absurd h List.not_mem_nil, fun _ h => absurd h List.not_mem_nil,
    fun _ h => absurd h List.not_mem_nil⟩

theorem answersRequest_of_mem_answers {P : CtrlPayload → Prop} {dropped : List (Tagged ℕ)}
    {req rx : Tagged ℕ} {e : Tagged ℕ × ResponseStatus} (hdropped : ∀ d ∈ dropped, P d.pyld)
    (hreq : P req.pyld) (hkey : req.pyld.key = rx.pyld.key) (he : e ∈ answers dropped req rx) :
    AnswersRequest P e.1.pyld.key e.1.pyld e.2 := by
  rw [answers, List.mem_append, List.mem_map, List.mem_singleton] at he
  rcases he with ⟨d, hd, rfl⟩ | rfl
  · exact ⟨rfl, d.pyld, hdropped d hd, rfl, Or.inr ⟨rfl, rfl⟩⟩
  · exact ⟨rfl, req.pyld, hreq, hkey, Or.inl rfl⟩

theorem PairInv.step {cfg : EndpointConfig} {sys sys' : CtrlportSystem} {a : CtrlportAction}
    (h : PairInv sys) (hstep : step cfg sys a = some sys') : PairInv sys' := by
  cases step_outcome hstep with
  | quiet _ _ hq =>
    have hissued : sys'.WasIssued = sys.WasIssued := by
      unfold WasIssued
      rw [hq.issued]
    refine ⟨fun r hr => ?_, fun e he => ?_, fun r hr => ?_⟩
    · rw [hissued]
      exact h.queued r (hq.reqQueue ▸ hr)
    · rw [hissued]
      exact h.resp e (hq.respQueue ▸ he)
    · rw [hissued, hq.issued]
      exact h.returned r (hq.returned ▸ hr)
  | issue thread tx requireAck sendOk _ _ _ _ hs =>
    subst hs
    have hold : ∀ p, sys.WasIssued p → (sys.issue thread tx requireAck sendOk).WasIssued p := by
      rintro p ⟨e, he, rfl⟩
      refine ⟨e, ?_, rfl⟩
      rw [issue_issued]
      exact List.mem_append_left _ he
    refine ⟨fun r hr => ?_, fun e he => ?_, fun r hr => ?_⟩
    · rw [issue_reqQueue, List.mem_append, List.mem_singleton] at hr
      rcases hr with hr | rfl
      · exact hold _ (h.queued r hr)
      · refine ⟨⟨tx, sendOk⟩, ?_, rfl⟩
        rw [issue_issued]
        exact List.mem_append_right _ (List.mem_singleton.mpr rfl)
    · rw [issue_respQueue] at he
      exact (h.resp e he).mono hold
    · obtain ⟨req, hreq, hanswers, hresult⟩ := h.returned r hr
      refine ⟨req, ?_, hanswers.mono hold, hresult⟩
      rw [issue_issued, getElem?_concat_eq_some]
      exact Or.inl hreq
  | recv o rx e _ hissued _ hkey hs =>
    subst hs
    rcases handleAck_cases sys.ep ⟨o, rx⟩ with
      ⟨hreq, -, hresp, -⟩ | ⟨dropped, req, rest, hreq, hreqKey, hanswered⟩
    · exact ⟨fun r hr => h.queued r (hreq ▸ hr), fun e he => h.resp e (hresp ▸ he), h.returned⟩
    · have hmem : ∀ r, r ∈ dropped ∨ r = req ∨ r ∈ rest → sys.WasIssued r.pyld := by
        intro r hr
        refine h.queued r ?_
        rw [hreq, List.mem_append, List.mem_cons]
        exact hr
      refine ⟨fun r hr => ?_, fun e he => ?_, h.returned⟩
      · have hr' : r ∈ rest := hanswered.reqQueue ▸ hr
        exact hmem r (Or.inr (Or.inr hr'))
      · rcases hanswered.respQueue e he with he | he
        · exact h.resp e he
        · exact answersRequest_of_mem_answers (fun d hd => hmem d (Or.inl hd))
            (hmem req (Or.inr (Or.inl rfl))) hreqKey he
  | collect _ _ r req rest hc =>
    obtain ⟨hmem, hkey, hrest⟩ := takeResponse_eq_some hc.response
    have hissued : sys'.WasIssued = sys.WasIssued := by
      unfold WasIssued
      rw [hc.issued]
    refine ⟨fun r hr => ?_, fun e he => ?_, fun r' hr' => ?_⟩
    · rw [hissued]
      exact h.queued r (hc.reqQueue ▸ hr)
    · rw [hissued]
      exact h.resp e (hrest e (hc.respQueue ▸ he))
    rw [hissued, hc.issued]
    rw [hc.returned, List.mem_append, List.mem_singleton] at hr'
    rcases hr' with hr' | rfl
    · exact h.returned r' hr'
    · refine ⟨req, hc.request, ?_, hc.result⟩
      have hanswers := h.resp _ hmem
      rw [hkey] at hanswers
      exact hanswers

theorem pairInv_of_run {cfg : EndpointConfig} {actions : List CtrlportAction} {sys : CtrlportSystem}
    (h : run (step cfg) {} actions = some sys) : PairInv sys :=
  run_invariant (fun _ _ _ hs hstep => hs.step hstep) pairInv_init h

end CtrlportSystem

/-- **How the calls report their responses.**  In every run of clients, endpoint and network, where
requests are made by the operations only: what is claimed holds of a call exactly when its response
meets the condition. -/
theorem reported_iff (cfg : EndpointConfig) (actions : List CtrlportAction) (sys : CtrlportSystem)
    (hrun : run (CtrlportSystem.step cfg) {} actions = some sys)
    (hops : ∀ e ∈ sys.issued, SentByOperation e.pyld) (r : Returned) (hr : r ∈ sys.returned)
    (req : Issued) (hreq : sys.issued[r.request]? = some req) (op : Operation)
    (hop : op.Sends req.pyld) :
    Reported op r.response.pyld r.status (op.outcome r.result) ↔
      Classified op r.response.pyld r.status := by
  obtain ⟨req', hreq', hanswers, hresult⟩ := (CtrlportSystem.pairInv_of_run hrun).returned r hr
  rw [hreq, Option.some_inj] at hreq'
  subst hreq'
  rw [hresult]
  refine reported_answer_iff hop (hanswers.mono ?_)
  rintro tx ⟨e, he, rfl⟩
  exact hops e he

/-! ## Two peeks -/

/-- An endpoint with room for some requests. -/
def smallEndpoint : EndpointConfig := ⟨1, 0, 64, 1⟩

/-- One client peeks, and is answered with some words. -/
def peekAnswered (words : List UInt32) : List CtrlportAction :=
  [.fire 0 ((Operation.peek32 8).request none true) true true true,
    .recvAck 0 { assemble smallEndpoint ({} : EndpointState ℕ)
      ((Operation.peek32 8).request none true) with isAck := true, dataVtr := words },
    .collect 0 0]

/-- The one request of that run. -/
def peekIssued : Issued :=
  ⟨assemble smallEndpoint ({} : EndpointState ℕ) ((Operation.peek32 8).request none true), true⟩

theorem sends_peekIssued : (Operation.peek32 8).Sends peekIssued.pyld :=
  ⟨smallEndpoint, {}, none, true, rfl⟩

/-- Whether that is what is issued in that run, and what the client is given: its request, the size of the response,
and what `wait_for_ack` yields of it. -/
def peekSummary (words : List UInt32) :
    Option (Bool × List (ℕ × ℕ × List UInt32)) :=
  (run (CtrlportSystem.step smallEndpoint) {} (peekAnswered words)).map fun sys =>
    (decide (sys.issued = [peekIssued]), sys.returned.map fun r =>
      (r.request, r.response.pyld.dataVtr.length,
        (r.result.toOption.map fun rx => rx.dataVtr).getD []))

theorem exists_of_peekSummary {words : List UInt32} {size : ℕ} {data : List UInt32}
    (h : peekSummary words = some (true, [(0, size, data)])) :
    ∃ sys r, run (CtrlportSystem.step smallEndpoint) {} (peekAnswered words) = some sys ∧
      (∀ e ∈ sys.issued, SentByOperation e.pyld) ∧ r ∈ sys.returned ∧
      sys.issued[r.request]? = some peekIssued ∧ r.response.pyld.dataVtr.length = size ∧
      (r.result.toOption.map fun rx => rx.dataVtr).getD [] = data := by
  obtain ⟨sys, hrun, hsummary⟩ := Option.map_eq_some_iff.mp h
  rw [Prod.mk.injEq] at hsummary
  obtain ⟨hissued, hreturned⟩ := hsummary
  rw [decide_eq_true_iff] at hissued
  obtain ⟨r, rest, hreturns, hr, -⟩ := List.map_eq_cons_iff.mp hreturned
  rw [Prod.mk.injEq, Prod.mk.injEq] at hr
  obtain ⟨hrequest, hsize, hdata⟩ := hr
  refine ⟨sys, r, hrun, fun e he => ?_, ?_, ?_, hsize, hdata⟩
  · rw [hissued, List.mem_singleton] at he
    rw [he]
    exact ⟨_, sends_peekIssued⟩
  · rw [hreturns]
    exact List.mem_cons_self
  · rw [hrequest, hissued]
    rfl

/-- A peek that is answered with one word. -/
theorem reported_peek : ∃ sys r,
    run (CtrlportSystem.step smallEndpoint) {} (peekAnswered [7]) = some sys ∧ r ∈ sys.returned ∧
      (Reported (.peek32 8) r.response.pyld r.status ((Operation.peek32 8).outcome r.result) ↔
        Classified (.peek32 8) r.response.pyld r.status) := by
  have hsummary : peekSummary [7] = some (true, [(0, 1, [7])]) := by decide +kernel
  obtain ⟨sys, r, hrun, hops, hr, hreq, -, -⟩ := exists_of_peekSummary hsummary
  exact ⟨sys, r, hrun, hr, reported_iff smallEndpoint (peekAnswered [7]) sys hrun hops r hr
    peekIssued hreq (.peek32 8) sends_peekIssued⟩

/-- A peek that is answered with two words returns the first of them. -/
theorem size_error_ignored : ¬ ∀ (cfg : EndpointConfig) (actions : List CtrlportAction)
    (sys : CtrlportSystem), run (CtrlportSystem.step cfg) {} actions = some sys →
    (∀ e ∈ sys.issued, SentByOperation e.pyld) → ∀ r ∈ sys.returned, ∀ req,
    sys.issued[r.request]? = some req → ∀ op : Operation, op.Sends req.pyld →
    Reported op r.response.pyld r.status (op.outcome r.result) := by
  intro hall
  have hsummary : peekSummary [7, 9] = some (true, [(0, 2, [7, 9])]) := by
    decide +kernel
  obtain ⟨sys, r, hrun, hops, hr, hreq, hsize, hdata⟩ := exists_of_peekSummary hsummary
  have hreported := hall smallEndpoint (peekAnswered [7, 9]) sys hrun hops r hr peekIssued hreq
    (.peek32 8) sends_peekIssued
  cases hres : r.result with
  | error e =>
    rw [hres] at hdata
    cases hdata
  | ok rx =>
    rw [hres] at hdata hreported
    have hrx : rx.dataVtr = [7, 9] := hdata
    have hwords : (Operation.peek32 8).outcome (.ok rx) = .ok [7] := by
      rw [Operation.outcome, hrx]
      rfl
    have hone : r.response.pyld.dataVtr.length = 1 := (hreported.accepted _ hwords).2.1
    rw [hsize] at hone
    exact absurd hone (by decide)

end Rfnoc
end UhdHost
