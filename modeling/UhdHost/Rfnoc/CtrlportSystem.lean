import UhdHost.Library.Transition
import UhdHost.Rfnoc.CtrlportEndpoint
import Mathlib.Logic.Function.Basic

/-!
# Clients, the endpoint and the network

Any number of client threads call into one endpoint while the receiving thread delivers
responses.  `step` is one critical section of the endpoint's mutex:

* `fire` enters `fire_request_packet`.  The payload is assembled; if it fits, the request is
  queued and handed to the send function before the lock is given up, otherwise the client
  blocks on `_buff_free_cond` with the assembled payload in its hands.
* `resume` is a blocked client that finds room, `buffTimeout` one that gives up.
* `recvAck` delivers a response.  The network may delay, drop, duplicate and reorder
  responses, so a response to any request transmitted so far may arrive at any time and any
  number of times; what it must do is echo the sequence number, the operation code and the
  address of the request it was generated for.
* `collect` enters `wait_for_ack` for one of the client's own requests, `wake` looks again
  after a notification, `ackTimeout` gives up.

Every blocking and block access of the interface (`poke32`, `peek32`, `poll32`, `sleep`,
`bulk_write32`, `bulk_read32`) is a sequence of `fire` and `collect` of one client.
-/

namespace UhdHost
namespace Rfnoc

open Transition

/-- Where a client thread stands. -/
inductive ClientMode where
  /-- Outside the endpoint. -/
  | idle
  /-- Waiting on `_buff_free_cond` inside `fire_request_packet`, with the payload it has
  already assembled.  `sentBefore` is what `_ctrl_sent` was when it blocked. -/
  | blockedOnBuff (tx : CtrlPayload) (requireAck : Bool) (sentBefore : ℕ)
  /-- Waiting on `_resp_ready_cond` inside `wait_for_ack`, for the response to a request. -/
  | waitingForAck (request : ℕ)
  deriving DecidableEq, Repr

/-- A client thread. -/
structure Client where
  mode : ClientMode := .idle
  /-- The requests it has registered and not yet asked the response of. -/
  uncollected : List ℕ := []
  deriving DecidableEq, Repr

/-- A request that reached the request queue. -/
structure Issued where
  pyld : CtrlPayload
  /-- Whether the send function returned. -/
  transmitted : Bool
  deriving DecidableEq, Repr

/-- A wait that ended with a response. -/
structure Returned where
  /-- The request the client waited for. -/
  request : ℕ
  /-- The response it was given, with the request that was generated for. -/
  response : Tagged ℕ
  status : ResponseStatus
  /-- What the client sees: the response or an error. -/
  result : Except CtrlError CtrlPayload

/-- The endpoint, its clients and what happened so far.  A request is identified by its
position in `issued`. -/
structure CtrlportSystem where
  ep : EndpointState ℕ := {}
  client : ℕ → Client := fun _ => {}
  issued : List Issued := []
  returned : List Returned := []

/-- What can happen next.  `thread` is the client that moves. -/
inductive CtrlportAction where
  | fire (thread : ℕ) (request : CtrlRequest) (clientClkRunning timebaseClkRunning : Bool)
      (sendOk : Bool)
  | resume (thread : ℕ) (sendOk : Bool)
  | buffTimeout (thread : ℕ)
  | recvAck (origin : ℕ) (rx : CtrlPayload)
  | recvAsync (rx : CtrlPayload) (validateAsyncMsg : UInt32 → List UInt32 → Bool)
      (sendOk : Bool)
  | setPolicy
  | collect (thread : ℕ) (request : ℕ)
  | wake (thread : ℕ)
  | ackTimeout (thread : ℕ)

/-- The send function throws if the action gets as far as calling it. -/
def CtrlportAction.sendFails : CtrlportAction → Bool
  | .fire _ _ _ _ sendOk => !sendOk
  | .resume _ sendOk => !sendOk
  | _ => false

/-- The client can still be given a response to a request. -/
def Client.Awaits (c : Client) (request : ℕ) : Prop :=
  request ∈ c.uncollected ∨ c.mode = .waitingForAck request

namespace CtrlportSystem

/-- The payloads the send function accepted, in order. -/
def transmitted (sys : CtrlportSystem) : List CtrlPayload :=
  (sys.issued.filter fun e => e.transmitted).map fun e => e.pyld

/-- Give a client thread a new state. -/
def setClient (sys : CtrlportSystem) (thread : ℕ) (c : Client) : CtrlportSystem :=
  { sys with client := Function.update sys.client thread c }

/-- Give a client thread a new mode. -/
def setMode (sys : CtrlportSystem) (thread : ℕ) (mode : ClientMode) : CtrlportSystem :=
  sys.setClient thread { sys.client thread with mode := mode }

/-- The end of `fire_request_packet`: the request is queued and handed to the send
function. -/
def issue (sys : CtrlportSystem) (thread : ℕ) (tx : CtrlPayload) (requireAck sendOk : Bool) :
    CtrlportSystem :=
  let r := transmitRequest sys.ep ⟨sys.issued.length, tx⟩ requireAck sendOk
  let registered := match r.2 with
    | .ok registerAck => registerAck
    | .error _ => false
  let uncollected := (sys.client thread).uncollected ++
    (if registered then [sys.issued.length] else [])
  { sys with
    ep := r.1
    issued := sys.issued ++ [⟨tx, sendOk⟩]
    client := Function.update sys.client thread ⟨.idle, uncollected⟩ }

/-- One pass of the loop of `wait_for_ack` for a request: return the response if it is
there, wait otherwise. -/
def tryCollect (sys : CtrlportSystem) (thread request : ℕ) (req : CtrlPayload) :
    CtrlportSystem :=
  match takeResponse req.key sys.ep.respQueue with
  | some ((resp, status), rest) =>
    { sys.setMode thread .idle with
      ep := { sys.ep with respQueue := rest }
      returned := sys.returned ++
        [⟨request, resp, status, validateAck req resp.pyld status⟩] }
  | none => sys.setMode thread (.waitingForAck request)

/-- One critical section. -/
def step (cfg : EndpointConfig) (sys : CtrlportSystem) : CtrlportAction → Option CtrlportSystem
  | .fire thread request clientClkRunning timebaseClkRunning sendOk =>
    if (sys.client thread).mode = .idle then
      match checkClocks clientClkRunning timebaseClkRunning request with
      | .error _ => some sys
      | .ok () =>
        let tx := assemble cfg sys.ep request
        if buffNotFull cfg sys.ep tx.getPayloadSize then
          some (sys.issue thread tx request.requireAck sendOk)
        else some (sys.setMode thread (.blockedOnBuff tx request.requireAck sys.ep.ctrlSent))
    else none
  | .resume thread sendOk =>
    match (sys.client thread).mode with
    | .blockedOnBuff tx requireAck _ =>
      if buffNotFull cfg sys.ep tx.getPayloadSize then
        some (sys.issue thread tx requireAck sendOk)
      else none
    | _ => none
  | .buffTimeout thread =>
    match (sys.client thread).mode with
    | .blockedOnBuff tx _ _ =>
      if buffNotFull cfg sys.ep tx.getPayloadSize then none
      else some (sys.setMode thread .idle)
    | _ => none
  | .recvAck origin rx =>
    match sys.issued[origin]? with
    | some e =>
      if e.transmitted ∧ rx.isAck ∧ rx.key = e.pyld.key then
        some { sys with ep := handleAck sys.ep ⟨origin, rx⟩ }
      else none
    | none => none
  | .recvAsync rx validateAsyncMsg sendOk =>
    if rx.isAck then none
    else some { sys with ep := (handleAsync cfg validateAsyncMsg sys.ep rx sendOk).1 }
  | .setPolicy => some { sys with ep := Rfnoc.setPolicy sys.ep }
  | .collect thread request =>
    if (sys.client thread).mode = .idle ∧ request ∈ (sys.client thread).uncollected then
      match sys.issued[request]? with
      | some e =>
        let uncollected := (sys.client thread).uncollected.erase request
        some ((sys.setClient thread ⟨.idle, uncollected⟩).tryCollect thread request e.pyld)
      | none => none
    else none
  | .wake thread =>
    match (sys.client thread).mode with
    | .waitingForAck request =>
      match sys.issued[request]? with
      | some e => some (sys.tryCollect thread request e.pyld)
      | none => none
    | _ => none
  | .ackTimeout thread =>
    match (sys.client thread).mode with
    | .waitingForAck _ => some (sys.setMode thread .idle)
    | _ => none

/-! ## What a step can do -/

/-- The payload an action hands to the send function, if it gets that far. -/
def issuing (cfg : EndpointConfig) (sys : CtrlportSystem) : CtrlportAction → Option CtrlPayload
  | .fire thread request clientClkRunning timebaseClkRunning _ =>
    if (sys.client thread).mode = .idle ∧
        (checkClocks clientClkRunning timebaseClkRunning request).isOk ∧
        buffNotFull cfg sys.ep (assemble cfg sys.ep request).getPayloadSize then
      some (assemble cfg sys.ep request)
    else none
  | .resume thread _ =>
    match (sys.client thread).mode with
    | .blockedOnBuff tx _ _ => if buffNotFull cfg sys.ep tx.getPayloadSize then some tx else none
    | _ => none
  | _ => none

/-- Nothing but the counters of the endpoint and the modes of the clients differs. -/
structure Quiet (sys sys' : CtrlportSystem) : Prop where
  reqQueue : sys'.ep.reqQueue = sys.ep.reqQueue
  respQueue : sys'.ep.respQueue = sys.ep.respQueue
  buffOccupied : sys'.ep.buffOccupied = sys.ep.buffOccupied
  ctrlSent : sys'.ep.ctrlSent = sys.ep.ctrlSent
  issued : sys'.issued = sys.issued
  returned : sys'.returned = sys.returned

theorem quiet_setClient (sys : CtrlportSystem) (thread : ℕ) (c : Client) :
    Quiet sys (sys.setClient thread c) := ⟨rfl, rfl, rfl, rfl, rfl, rfl⟩

theorem Quiet.trans {sys₁ sys₂ sys₃ : CtrlportSystem} (h : Quiet sys₁ sys₂)
    (h' : Quiet sys₂ sys₃) : Quiet sys₁ sys₃ :=
  ⟨h'.1.trans h.1, h'.2.trans h.2, h'.3.trans h.3, h'.4.trans h.4, h'.5.trans h.5,
    h'.6.trans h.6⟩

/-- A client was given a response to its request. -/
structure Collected (sys sys' : CtrlportSystem) (r : Returned) (req : Issued)
    (rest : List (Tagged ℕ × ResponseStatus)) : Prop where
  request : sys.issued[r.request]? = some req
  awaited : ∃ thread, (sys.client thread).Awaits r.request
  response : takeResponse req.pyld.key sys.ep.respQueue = some ((r.response, r.status), rest)
  result : r.result = validateAck req.pyld r.response.pyld r.status
  reqQueue : sys'.ep.reqQueue = sys.ep.reqQueue
  respQueue : sys'.ep.respQueue = rest
  buffOccupied : sys'.ep.buffOccupied = sys.ep.buffOccupied
  ctrlSent : sys'.ep.ctrlSent = sys.ep.ctrlSent
  issued : sys'.issued = sys.issued
  returned : sys'.returned = sys.returned ++ [r]

theorem tryCollect_cases {sys sys₀ : CtrlportSystem} (hsys : Quiet sys₀ sys)
    (thread request : ℕ) {e : Issued} (he : sys₀.issued[request]? = some e)
    (hawaited : (sys₀.client thread).Awaits request) :
    Quiet sys₀ (sys.tryCollect thread request e.pyld) ∨
      ∃ r rest, Collected sys₀ (sys.tryCollect thread request e.pyld) r e rest := by
  unfold tryCollect
  cases htake : takeResponse e.pyld.key sys.ep.respQueue with
  | none => exact Or.inl (hsys.trans (quiet_setClient ..))
  | some r =>
    obtain ⟨⟨resp, status⟩, rest⟩ := r
    refine Or.inr ⟨⟨request, resp, status, validateAck e.pyld resp.pyld status⟩, rest, ?_⟩
    rw [hsys.respQueue] at htake
    exact ⟨he, ⟨thread, hawaited⟩, htake, rfl, hsys.reqQueue, rfl, hsys.buffOccupied,
      hsys.ctrlSent, hsys.issued, congrArg (· ++ _) hsys.returned⟩

/-- What a step can do: issue one request that fits, deliver one response, hand one response
to a client, or leave the queues alone. -/
inductive StepOutcome (cfg : EndpointConfig) (sys : CtrlportSystem) (a : CtrlportAction)
    (sys' : CtrlportSystem) : Prop where
  | quiet (hissuing : issuing cfg sys a = none) (hack : ∀ o rx, a ≠ .recvAck o rx)
      (h : Quiet sys sys')
  | issue (thread : ℕ) (tx : CtrlPayload) (requireAck sendOk : Bool)
      (hissuing : issuing cfg sys a = some tx) (hack : ∀ o rx, a ≠ .recvAck o rx)
      (hsend : a.sendFails = !sendOk) (hfits : buffNotFull cfg sys.ep tx.getPayloadSize = true)
      (h : sys' = sys.issue thread tx requireAck sendOk)
  | recv (o : ℕ) (rx : CtrlPayload) (e : Issued) (ha : a = .recvAck o rx)
      (hissued : sys.issued[o]? = some e) (htransmitted : e.transmitted = true)
      (hkey : rx.key = e.pyld.key)
      (h : sys' = { sys with ep := handleAck sys.ep ⟨o, rx⟩ })
  | collect (hissuing : issuing cfg sys a = none) (hack : ∀ o rx, a ≠ .recvAck o rx)
      (r : Returned) (req : Issued) (rest : List (Tagged ℕ × ResponseStatus))
      (h : Collected sys sys' r req rest)

/-- The state a step may give a client: blocked only with a payload it has just assembled,
and awaiting only what it awaited before or the request that is being issued. -/
structure ClientStep (cfg : EndpointConfig) (sys : CtrlportSystem) (a : CtrlportAction)
    (thread : ℕ) (c : Client) : Prop where
  blocked : ∀ tx requireAck sentBefore, c.mode = .blockedOnBuff tx requireAck sentBefore →
    (∃ r, tx = assemble cfg sys.ep r) ∧ sentBefore = sys.ep.ctrlSent
  awaits : ∀ request, c.Awaits request → (sys.client thread).Awaits request ∨
    request = sys.issued.length ∧ (issuing cfg sys a).isSome

/-- What a step does to the clients: nothing, or one of them moves. -/
def ClientsMove (cfg : EndpointConfig) (sys : CtrlportSystem) (a : CtrlportAction)
    (sys' : CtrlportSystem) : Prop :=
  sys'.client = sys.client ∨ ∃ thread c, sys'.client = Function.update sys.client thread c ∧
    ClientStep cfg sys a thread c

theorem clientStep_idle {cfg : EndpointConfig} {sys : CtrlportSystem} {a : CtrlportAction}
    (thread : ℕ) : ClientStep cfg sys a thread { sys.client thread with mode := .idle } where
  blocked _ _ _ := nofun
  awaits _ hr := Or.inl (Or.inl (hr.resolve_right nofun))

theorem clientStep_issue {cfg : EndpointConfig} {sys : CtrlportSystem} {a : CtrlportAction}
    {tx : CtrlPayload} (hissuing : issuing cfg sys a = some tx) (thread : ℕ)
    (registered : Bool) : ClientStep cfg sys a thread ⟨.idle, (sys.client thread).uncollected ++
      (if registered then [sys.issued.length] else [])⟩ where
  blocked _ _ _ := nofun
  awaits request hr := by
    have hr := hr.resolve_right nofun
    rw [List.mem_append] at hr
    rcases hr with hr | hr
    · exact Or.inl (Or.inl hr)
    · refine Or.inr ⟨?_, by rw [hissuing]; rfl⟩
      cases registered with
      | false => exact absurd hr (by simp)
      | true => exact List.mem_singleton.mp hr

theorem step_of_tryCollect {cfg : EndpointConfig} {sys sys₀ sys' : CtrlportSystem}
    {a : CtrlportAction} {thread request : ℕ} {e : Issued} {c : Client}
    (hissuing : issuing cfg sys a = none) (hack : ∀ o rx, a ≠ .recvAck o rx)
    (hsys₀ : sys₀ = sys.setClient thread c)
    (huncollected : ∀ q ∈ c.uncollected, (sys.client thread).Awaits q)
    (he : sys.issued[request]? = some e) (hawaited : (sys.client thread).Awaits request)
    (h : sys₀.tryCollect thread request e.pyld = sys') :
    StepOutcome cfg sys a sys' ∧ ClientsMove cfg sys a sys' := by
  subst h hsys₀
  refine ⟨?_, ?_⟩
  · rcases tryCollect_cases (quiet_setClient ..) thread request he hawaited with
      hc | ⟨r, rest, hc⟩
    · exact .quiet hissuing hack hc
    · exact .collect hissuing hack r e rest hc
  · refine Or.inr ?_
    unfold tryCollect
    cases takeResponse e.pyld.key (sys.setClient thread c).ep.respQueue with
    | none =>
      refine ⟨thread, ⟨.waitingForAck request, c.uncollected⟩, ?_, fun _ _ _ => nofun, ?_⟩
      · simp [setMode, setClient]
      · rintro q (hq | hq)
        · exact Or.inl (huncollected q hq)
        · exact Or.inl (ClientMode.waitingForAck.inj hq ▸ hawaited)
    | some r =>
      refine ⟨thread, ⟨.idle, c.uncollected⟩, ?_, fun _ _ _ => nofun, ?_⟩
      · simp [setMode, setClient]
      · exact fun q hq => Or.inl (huncollected q (hq.resolve_right nofun))

theorem step_cases {cfg : EndpointConfig} {sys sys' : CtrlportSystem} {a : CtrlportAction}
    (h : step cfg sys a = some sys') :
    StepOutcome cfg sys a sys' ∧ ClientsMove cfg sys a sys' := by
  cases a with
  | fire thread request clientClkRunning timebaseClkRunning sendOk =>
    have hack : ∀ o rx, CtrlportAction.fire thread request clientClkRunning timebaseClkRunning
        sendOk ≠ .recvAck o rx := fun _ _ => nofun
    have hidle : (sys.client thread).mode = .idle := by
      by_contra hidle
      simp [step, hidle] at h
    simp only [step, if_pos hidle] at h
    cases hclk : checkClocks clientClkRunning timebaseClkRunning request with
    | error err =>
      simp only [hclk, Option.some_inj] at h
      subst h
      exact ⟨.quiet (by simp [issuing, hclk, Except.isOk, Except.toBool]) hack
        ⟨rfl, rfl, rfl, rfl, rfl, rfl⟩, Or.inl rfl⟩
    | ok u =>
      simp only [hclk] at h
      split_ifs at h with hfits <;> rw [Option.some_inj] at h <;> subst h
      · have hissuing : issuing cfg sys (.fire thread request clientClkRunning
            timebaseClkRunning sendOk) = some (assemble cfg sys.ep request) := by
          simp [issuing, hidle, hclk, hfits, Except.isOk, Except.toBool]
        exact ⟨.issue thread (assemble cfg sys.ep request) request.requireAck sendOk hissuing
          hack rfl hfits rfl, Or.inr ⟨thread, _, rfl, clientStep_issue hissuing thread _⟩⟩
      · refine ⟨.quiet (by simp [issuing, hfits]) hack (quiet_setClient ..),
          Or.inr ⟨thread, _, rfl, fun tx requireAck sentBefore hc => ?_, ?_⟩⟩
        · rw [ClientMode.blockedOnBuff.injEq] at hc
          exact ⟨⟨request, hc.1.symm⟩, hc.2.2.symm⟩
        · exact fun q hq => Or.inl (Or.inl (hq.resolve_right nofun))
  | resume thread sendOk =>
    simp only [step] at h
    cases hmode : (sys.client thread).mode with
    | idle => simp [hmode] at h
    | waitingForAck request => simp [hmode] at h
    | blockedOnBuff tx requireAck sentBefore =>
      simp only [hmode] at h
      split_ifs at h with hfits
      rw [Option.some_inj] at h
      subst h
      have hissuing : issuing cfg sys (.resume thread sendOk) = some tx := by
        simp [issuing, hmode, hfits]
      exact ⟨.issue thread tx requireAck sendOk hissuing (fun _ _ => nofun) rfl hfits rfl,
        Or.inr ⟨thread, _, rfl, clientStep_issue hissuing thread _⟩⟩
  | buffTimeout thread =>
    simp only [step] at h
    cases hmode : (sys.client thread).mode with
    | idle => simp [hmode] at h
    | waitingForAck request => simp [hmode] at h
    | blockedOnBuff tx requireAck sentBefore =>
      simp only [hmode] at h
      split_ifs at h with hfits
      rw [Option.some_inj] at h
      subst h
      exact ⟨.quiet rfl (fun _ _ => nofun) (quiet_setClient ..),
        Or.inr ⟨thread, _, rfl, clientStep_idle thread⟩⟩
  | recvAck origin rx =>
    simp only [step] at h
    cases he : sys.issued[origin]? with
    | none => simp [he] at h
    | some e =>
      simp only [he] at h
      split_ifs at h with hgen
      rw [Option.some_inj] at h
      exact ⟨.recv origin rx e rfl he hgen.1 hgen.2.2 h.symm, Or.inl (h ▸ rfl)⟩
  | recvAsync rx validateAsyncMsg sendOk =>
    simp only [step] at h
    split_ifs at h with hack
    rw [Option.some_inj] at h
    subst h
    refine ⟨.quiet rfl (fun _ _ => nofun) ?_, Or.inl rfl⟩
    cases sendOk <;> exact ⟨rfl, rfl, rfl, rfl, rfl, rfl⟩
  | setPolicy =>
    simp only [step, Option.some_inj] at h
    subst h
    exact ⟨.quiet rfl (fun _ _ => nofun) ⟨rfl, rfl, rfl, rfl, rfl, rfl⟩, Or.inl rfl⟩
  | collect thread request =>
    simp only [step] at h
    split_ifs at h with hidle
    cases he : sys.issued[request]? with
    | none => simp [he] at h
    | some e =>
      simp only [he, Option.some_inj] at h
      exact step_of_tryCollect rfl (fun _ _ => nofun) rfl
        (fun q hq => Or.inl (List.mem_of_mem_erase hq)) he (Or.inl hidle.2) h
  | wake thread =>
    simp only [step] at h
    cases hmode : (sys.client thread).mode with
    | idle => simp [hmode] at h
    | blockedOnBuff tx requireAck sentBefore => simp [hmode] at h
    | waitingForAck request =>
      cases he : sys.issued[request]? with
      | none => simp [hmode, he] at h
      | some e =>
        simp only [hmode, he, Option.some_inj] at h
        have hsys : sys = sys.setClient thread (sys.client thread) := by simp [setClient]
        exact step_of_tryCollect rfl (fun _ _ => nofun) hsys (fun q hq => Or.inl hq) he
          (Or.inr hmode) h
  | ackTimeout thread =>
    simp only [step] at h
    cases hmode : (sys.client thread).mode with
    | idle => simp [hmode] at h
    | blockedOnBuff tx requireAck sentBefore => simp [hmode] at h
    | waitingForAck request =>
      simp only [hmode, Option.some_inj] at h
      subst h
      exact ⟨.quiet rfl (fun _ _ => nofun) (quiet_setClient ..),
        Or.inr ⟨thread, _, rfl, clientStep_idle thread⟩⟩

theorem step_outcome {cfg : EndpointConfig} {sys sys' : CtrlportSystem} {a : CtrlportAction}
    (h : step cfg sys a = some sys') : StepOutcome cfg sys a sys' := (step_cases h).1

theorem clientsMove_of_step {cfg : EndpointConfig} {sys sys' : CtrlportSystem}
    {a : CtrlportAction} (h : step cfg sys a = some sys') : ClientsMove cfg sys a sys' :=
  (step_cases h).2

@[simp] theorem issue_reqQueue (sys : CtrlportSystem) (thread : ℕ) (tx : CtrlPayload)
    (requireAck sendOk : Bool) : (sys.issue thread tx requireAck sendOk).ep.reqQueue =
      sys.ep.reqQueue ++ [⟨sys.issued.length, tx⟩] := by
  rw [issue, transmitRequest_reqQueue]

@[simp] theorem issue_respQueue (sys : CtrlportSystem) (thread : ℕ) (tx : CtrlPayload)
    (requireAck sendOk : Bool) :
    (sys.issue thread tx requireAck sendOk).ep.respQueue = sys.ep.respQueue := by
  rw [issue, transmitRequest_respQueue]

@[simp] theorem issue_buffOccupied (sys : CtrlportSystem) (thread : ℕ) (tx : CtrlPayload)
    (requireAck sendOk : Bool) : (sys.issue thread tx requireAck sendOk).ep.buffOccupied =
      sys.ep.buffOccupied + tx.getPayloadSize := by
  rw [issue, transmitRequest_buffOccupied]

theorem issue_ctrlSent (sys : CtrlportSystem) (thread : ℕ) (tx : CtrlPayload)
    (requireAck sendOk : Bool) : (sys.issue thread tx requireAck sendOk).ep.ctrlSent =
      sys.ep.ctrlSent + (if sendOk then 1 else 0) := by
  rw [issue, transmitRequest_ctrlSent]

@[simp] theorem issue_issued (sys : CtrlportSystem) (thread : ℕ) (tx : CtrlPayload)
    (requireAck sendOk : Bool) :
    (sys.issue thread tx requireAck sendOk).issued = sys.issued ++ [⟨tx, sendOk⟩] := rfl

/-- The states the endpoint can get into. -/
def Reachable (cfg : EndpointConfig) (sys : CtrlportSystem) : Prop :=
  ∃ as, run (step cfg) {} as = some sys

end CtrlportSystem
end Rfnoc
end UhdHost
