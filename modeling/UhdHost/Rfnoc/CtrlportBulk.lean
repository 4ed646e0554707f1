import UhdHost.Library.Stateful
import UhdHost.Rfnoc.BulkChunks

/-!
# Bulk accesses

`bulk_write32` and `bulk_read32` against an endpoint whose requests are all answered, in order.
A bulk read fires all its requests before it collects any response, so responses arrive while
requests are fired and wait in the response queue, among those of earlier calls.

## Arrivals

`BulkWorld.arrivals` says how many responses arrive each time before the call takes the mutex, and
is arbitrary.  A wait on a condition variable lets responses arrive until the condition holds, and
times out when there are none to come.

## Origins

A request of the call has its position as origin, and requests of earlier calls have none.
-/

namespace UhdHost
namespace Rfnoc

open Stateful
open CtrlPayload (maxDataWords)

/-- What a bulk access runs against. -/
structure BulkEnv where
  cfg : EndpointConfig
  clientClkRunning : Bool := true
  timebaseClkRunning : Bool := true
  /-- What the device answers a request with. -/
  answer : Tagged (Option ℕ) → CtrlPayload

/-- The endpoint during a bulk access. -/
structure BulkWorld where
  ep : EndpointState (Option ℕ) := {}
  /-- What the access has handed to the send function. -/
  issued : List (CtrlRequest × CtrlPayload) := []
  arrivals : List ℕ := []

/-- The device answers every request, and a read with as many words as it asks for. -/
structure BulkEnv.Answers (env : BulkEnv) : Prop where
  key : ∀ r, (env.answer r).key = r.pyld.key
  status : ∀ r, (env.answer r).status = .okay ∨ (env.answer r).status = .warning
  size : ∀ r, r.pyld.opCode = .read ∨ r.pyld.opCode = .blockRead →
    (env.answer r).dataVtr.length = r.pyld.reqSize

namespace BulkEnv

/-- The response to the oldest outstanding request arrives. -/
def arrive (env : BulkEnv) (ep : EndpointState (Option ℕ)) : EndpointState (Option ℕ) :=
  match ep.reqQueue with
  | [] => ep
  | r :: _ => handleAck ep ⟨r.origin, env.answer r⟩

/-- Wait on a condition variable.  Responses arrive as long as what is waited for is not there. -/
def waitFor {α : Type} (env : BulkEnv) (look : EndpointState (Option ℕ) → Option α) :
    ℕ → EndpointState (Option ℕ) → Option (α × EndpointState (Option ℕ))
  | 0, ep => (look ep).map fun a => (a, ep)
  | toCome + 1, ep =>
    match look ep with
    | some a => some (a, ep)
    | none => env.waitFor look toCome (env.arrive ep)

/-- The world in which the mutex is taken, after responses have arrived. -/
def locked (env : BulkEnv) (w : BulkWorld) : BulkWorld :=
  { w with
    ep := env.arrive^[w.arrivals.headD 0] w.ep
    arrivals := w.arrivals.tail }

/-- The state in which there is room for a payload, once there is. -/
def roomFor (env : BulkEnv) (ep : EndpointState (Option ℕ)) (tx : CtrlPayload) :
    Option (PUnit × EndpointState (Option ℕ)) :=
  env.waitFor (fun ep => if buffNotFull env.cfg ep tx.getPayloadSize then some PUnit.unit else none)
    ep.reqQueue.length ep

/-- The end of `fire_request_packet`. -/
def transmit (w : BulkWorld) (r : CtrlRequest) (tx : CtrlPayload) :
    BulkWorld × Except CtrlError Bool :=
  let sent := transmitRequest w.ep ⟨some w.issued.length, tx⟩ r.requireAck true
  ({ w with ep := sent.1, issued := w.issued ++ [(r, tx)] }, sent.2)

/-- `fire_request_packet` -/
def fireRequestPacket (env : BulkEnv) (r : CtrlRequest) :
    EStateM CallError BulkWorld (CtrlPayload × Bool) := do
  orThrow ((checkClocks env.clientClkRunning env.timebaseClkRunning r).mapError .ctrl)
  modify env.locked
  let w ← get
  let tx := assemble env.cfg w.ep r
  match env.roomFor w.ep tx with
  | none =>
    throw (.ctrl ⟨.opTimeout,
      "Control operation timed out waiting for space in command buffer"⟩)
  | some found =>
    let sent := transmit { w with ep := found.2 } r tx
    set sent.1
    let registered ← orThrow (sent.2.mapError .ctrl)
    return (tx, registered)

/-- `collect_ack_response` -/
def collectAckResponse (env : BulkEnv) (request : CtrlPayload) :
    EStateM CallError BulkWorld (Except CtrlError CtrlPayload) := do
  modify env.locked
  let w ← get
  match env.waitFor (fun ep => takeResponse request.key ep.respQueue) w.ep.reqQueue.length w.ep with
  | none => throw (.ctrl ⟨.opTimeout, "Control operation timed out waiting for ACK."⟩)
  | some found =>
    set { w with ep := { found.2 with respQueue := found.1.2 } }
    return validateAck request found.1.1.1.pyld found.1.1.2

/-- What `bulk_write32` does with a chunk: `send_request_packet`. -/
def sendWrite (env : BulkEnv) (block : Bool) (baseAddr : UInt32) (data : List UInt32)
    (timestamp : Option UInt64) (ack : Bool) (offset : ℕ) : EStateM CallError BulkWorld PUnit := do
  let fired ← env.fireRequestPacket (writeRequest block baseAddr data timestamp ack offset)
  onlyIf (fired.2 = true) do
    let response ← env.collectAckResponse fired.1
    let _ ← orThrow (response.mapError .ctrl)

/-- `bulk_write32` -/
def bulkWrite32 (env : BulkEnv) (block : Bool) (baseAddr : UInt32) (data : List UInt32)
    (timestamp : Option UInt64) (ack : Bool) : EStateM CallError BulkWorld PUnit :=
  (bulkOffsets data.length 0).forM (env.sendWrite block baseAddr data timestamp ack)

/-- What `bulk_read32` does with a chunk first: the request is fired and kept with the size of the
chunk. -/
def fireRead (env : BulkEnv) (block : Bool) (baseAddr : UInt32) (length : ℕ)
    (timestamp : Option UInt64) (offset : ℕ) : EStateM CallError BulkWorld (CtrlPayload × ℕ) := do
  let fired ← env.fireRequestPacket (readRequest block baseAddr length timestamp offset)
  return (fired.1, chunkSize length offset)

/-- What it does then: the response is collected, its size checked and its words appended. -/
def collectRead (env : BulkEnv) (block : Bool) (baseAddr : UInt32) (result : List UInt32)
    (request : CtrlPayload × ℕ) : EStateM CallError BulkWorld (List UInt32) := do
  let response ← env.collectAckResponse request.1
  let words ← orThrow ((Operation.bulkRead32 block baseAddr request.2).outcome response)
  return result ++ words

/-- `bulk_read32` -/
def bulkRead32 (env : BulkEnv) (block : Bool) (baseAddr : UInt32) (length : ℕ)
    (timestamp : Option UInt64) : EStateM CallError BulkWorld (List UInt32) := do
  let requests ← (bulkOffsets length 0).mapM (env.fireRead block baseAddr length timestamp)
  requests.foldlM (env.collectRead block baseAddr) []

end BulkEnv

/-! ## What is claimed -/

/-- A request of the access. -/
def isOwn (t : Tagged (Option ℕ)) : Bool := t.origin.isSome

/-- What the access has handed to the send function, with its origins. -/
def BulkWorld.own (w : BulkWorld) : List (Tagged (Option ℕ)) :=
  w.issued.mapIdx fun i e => ⟨some i, e.2⟩

/-- Payloads were assembled of the requests. -/
def BulkWorld.Assembled (env : BulkEnv) (w : BulkWorld) : Prop :=
  ∀ e ∈ w.issued, ∃ ep : EndpointState (Option ℕ), e.2 = assemble env.cfg ep e.1

/-- **A bulk read returns** what the device has answered to its requests, in their order, and that
is as many words as asked for. -/
def BulkEnv.ReadsWords (env : BulkEnv) (block : Bool) (baseAddr : UInt32) (length : ℕ)
    (timestamp : Option UInt64) (w : BulkWorld) : Prop :=
  ∃ words w', Returns (env.bulkRead32 block baseAddr length timestamp) w words w' ∧
    words = w'.own.flatMap (fun r => (env.answer r).dataVtr) ∧ words.length = length

/-- **The condition** for one request: its key is that of no outstanding request, and of no
response to an earlier call that nobody has collected. -/
def Unused (ep : EndpointState (Option ℕ)) (k : WantedAckKey) : Prop :=
  (∀ r ∈ ep.reqQueue, r.pyld.key ≠ k) ∧
    ∀ e ∈ ep.respQueue, isOwn e.1 = false → e.1.pyld.key ≠ k

instance (ep : EndpointState (Option ℕ)) (k : WantedAckKey) : Decidable (Unused ep k) :=
  inferInstanceAs (Decidable (_ ∧ _))

/-- **The condition** for requests that are fired one after the other. -/
def BulkEnv.KeysUnused (env : BulkEnv) : List CtrlRequest → BulkWorld → Prop
  | [], _ => True
  | r :: rs, w =>
    match env.roomFor (env.locked w).ep (assemble env.cfg (env.locked w).ep r) with
    | none => True
    | some found =>
      Unused found.2 (assemble env.cfg (env.locked w).ep r).key ∧
        env.KeysUnused rs (BulkEnv.transmit { env.locked w with ep := found.2 } r
          (assemble env.cfg (env.locked w).ep r)).1

instance BulkEnv.decidableKeysUnused (env : BulkEnv) :
    (rs : List CtrlRequest) → (w : BulkWorld) → Decidable (env.KeysUnused rs w)
  | [], _ => isTrue trivial
  | r :: rs, w =>
    match hroom : env.roomFor (env.locked w).ep (assemble env.cfg (env.locked w).ep r) with
    | none => isTrue (by rw [BulkEnv.KeysUnused, hroom]; trivial)
    | some found =>
      have := env.decidableKeysUnused rs (BulkEnv.transmit { env.locked w with ep := found.2 } r
        (assemble env.cfg (env.locked w).ep r)).1
      decidable_of_iff (Unused found.2 (assemble env.cfg (env.locked w).ep r).key ∧
        env.KeysUnused rs (BulkEnv.transmit { env.locked w with ep := found.2 } r
          (assemble env.cfg (env.locked w).ep r)).1) (by rw [BulkEnv.KeysUnused, hroom])

/-- What `fire_request_packet` asks of a request: that the clocks it needs run, and that it fits an
empty buffer. -/
structure BulkEnv.Accepts (env : BulkEnv) (r : CtrlRequest) : Prop where
  clocks : checkClocks env.clientClkRunning env.timebaseClkRunning r = .ok ()
  fits : (assemble env.cfg ({} : EndpointState ℕ) r).getPayloadSize ≤ (requestLimit env.cfg).toNat

/-- The credits of the outstanding requests are taken. -/
def Credited (ep : EndpointState (Option ℕ)) : Prop := ep.buffOccupied = occupiedBy ep.reqQueue

/-- An endpoint before a bulk access. -/
structure BulkWorld.Start (w : BulkWorld) : Prop where
  credits : Credited w.ep
  forceAcks : w.ep.forceAcks = defaultForceAcks
  requests : ∀ r ∈ w.ep.reqQueue, isOwn r = false
  responses : ∀ e ∈ w.ep.respQueue, isOwn e.1 = false
  issued : w.issued = []

/-- No read of an earlier call is outstanding, and no response to one is left. -/
def NoReadLeft (ep : EndpointState (Option ℕ)) : Prop :=
  (∀ r ∈ ep.reqQueue, isOwn r = false → r.pyld.opCode ≠ .read ∧ r.pyld.opCode ≠ .blockRead) ∧
    ∀ e ∈ ep.respQueue, isOwn e.1 = false → e.1.pyld.opCode ≠ .read ∧ e.1.pyld.opCode ≠ .blockRead

/-! ## Arrivals -/

section Arrivals

variable {env : BulkEnv} {ep ep' : EndpointState (Option ℕ)}

theorem BulkEnv.arrive_cons (henv : env.Answers) {r : Tagged (Option ℕ)}
    {rest : List (Tagged (Option ℕ))} (hq : ep.reqQueue = r :: rest) :
    env.arrive ep = processCorrectResponse { ep with acksRcvd := ep.acksRcvd + 1 } r rest
      ⟨r.origin, env.answer r⟩ := by
  obtain ⟨hseq, hop, haddress⟩ := CtrlPayload.key_eq_key_iff.mp (henv.key r)
  rw [BulkEnv.arrive, hq]
  simp only [handleAck, hq]
  rw [if_pos (by rw [hseq, sub_self]), if_pos ⟨hop.symm, haddress.symm⟩]

theorem pushResponse_cases {ι : Type} (s : EndpointState ι) (resp : Tagged ι)
    (status : ResponseStatus) :
    resp.pyld.key ∈ s.wantedAcks ∧
        (pushResponse s resp status).respQueue = s.respQueue ++ [(resp, status)] ∧
        (pushResponse s resp status).wantedAcks = s.wantedAcks.erase resp.pyld.key ∨
      resp.pyld.key ∉ s.wantedAcks ∧ (pushResponse s resp status).respQueue = s.respQueue ∧
        (pushResponse s resp status).wantedAcks = s.wantedAcks := by
  by_cases hwanted : resp.pyld.key ∈ s.wantedAcks
  · rw [pushResponse, if_pos hwanted]
    exact Or.inl ⟨hwanted, rfl, rfl⟩
  · rw [pushResponse, if_neg hwanted]
    exact Or.inr ⟨hwanted, rfl, rfl⟩

/-- **What an arrival does.**  The oldest request is answered, and its answer passed on if it is
wanted. -/
structure Arrived (env : BulkEnv) (ep : EndpointState (Option ℕ)) (r : Tagged (Option ℕ))
    (rest : List (Tagged (Option ℕ))) (ep' : EndpointState (Option ℕ)) : Prop where
  reqQueue : ep'.reqQueue = rest
  buffOccupied : ep'.buffOccupied = ep.buffOccupied - r.pyld.getPayloadSize
  ctrlSent : ep'.ctrlSent = ep.ctrlSent
  forceAcks : ep'.forceAcks = ep.forceAcks
  passed : r.pyld.key ∈ ep.wantedAcks ∧
      ep'.respQueue = ep.respQueue ++
        [(⟨r.origin, env.answer r⟩, responseStatus r.pyld (env.answer r))] ∧
      ep'.wantedAcks = ep.wantedAcks.erase r.pyld.key ∨
    r.pyld.key ∉ ep.wantedAcks ∧ ep'.respQueue = ep.respQueue ∧ ep'.wantedAcks = ep.wantedAcks

theorem BulkEnv.arrived (henv : env.Answers) {r : Tagged (Option ℕ)}
    {rest : List (Tagged (Option ℕ))} (hq : ep.reqQueue = r :: rest) :
    Arrived env ep r rest (env.arrive ep) := by
  rw [env.arrive_cons henv hq, processCorrectResponse]
  refine ⟨pushResponse_reqQueue .., pushResponse_buffOccupied .., pushResponse_ctrlSent .., ?_, ?_⟩
  · rw [pushResponse]
    split_ifs
    · rfl
    · rfl
  · have hcases := pushResponse_cases
      { ep with
        acksRcvd := ep.acksRcvd + 1
        buffOccupied := ep.buffOccupied - r.pyld.getPayloadSize
        reqQueue := rest }
      ⟨r.origin, env.answer r⟩ (responseStatus r.pyld (env.answer r))
    have hkey : (⟨r.origin, env.answer r⟩ : Tagged (Option ℕ)).pyld.key = r.pyld.key := henv.key r
    rw [hkey] at hcases
    exact hcases

/-- What every arrival keeps. -/
def BulkEnv.Kept (env : BulkEnv) (I : EndpointState (Option ℕ) → Prop) : Prop :=
  ∀ ep, I ep → I (env.arrive ep)

theorem BulkEnv.kept_of_arrived (henv : env.Answers) {I : EndpointState (Option ℕ) → Prop}
    (h : ∀ ep r rest ep', I ep → ep.reqQueue = r :: rest → Arrived env ep r rest ep' → I ep') :
    env.Kept I := by
  intro ep hI
  rcases hq : ep.reqQueue with - | ⟨r, rest⟩
  · rw [BulkEnv.arrive, hq]
    exact hI
  · exact h ep r rest _ hI hq (env.arrived henv hq)

theorem BulkEnv.Kept.iterate {I : EndpointState (Option ℕ) → Prop} (hI : env.Kept I) (n : ℕ)
    (h : I ep) : I (env.arrive^[n] ep) := by
  induction n generalizing ep with
  | zero => exact h
  | succ n ih =>
    rw [Function.iterate_succ_apply]
    exact ih (hI ep h)

theorem BulkEnv.Kept.waitFor {α : Type} {I : EndpointState (Option ℕ) → Prop} (hI : env.Kept I)
    {look : EndpointState (Option ℕ) → Option α} {n : ℕ} {a : α} (h : I ep)
    (hwait : env.waitFor look n ep = some (a, ep')) : I ep' ∧ look ep' = some a := by
  induction n generalizing ep with
  | zero =>
    rw [BulkEnv.waitFor, Option.map_eq_some_iff] at hwait
    obtain ⟨b, hlook, heq⟩ := hwait
    obtain ⟨rfl, rfl⟩ := Prod.mk.inj heq
    exact ⟨h, hlook⟩
  | succ n ih =>
    rw [BulkEnv.waitFor] at hwait
    rcases hlook : look ep with - | b
    · rw [hlook] at hwait
      exact ih (hI ep h) hwait
    · rw [hlook] at hwait
      obtain ⟨rfl, rfl⟩ := Prod.mk.inj (Option.some.inj hwait)
      exact ⟨h, hlook⟩

theorem BulkEnv.exists_waitFor {α : Type} (henv : env.Answers)
    {I : EndpointState (Option ℕ) → Prop} (hI : env.Kept I)
    (look : EndpointState (Option ℕ) → Option α)
    (hlast : ∀ ep, I ep → ep.reqQueue = [] → (look ep).isSome = true) {n : ℕ} (h : I ep)
    (hn : ep.reqQueue.length ≤ n) :
    ∃ a ep', env.waitFor look n ep = some (a, ep') := by
  induction n generalizing ep with
  | zero =>
    obtain ⟨a, ha⟩ := Option.isSome_iff_exists.mp
      (hlast ep h (List.length_eq_zero_iff.mp (Nat.le_zero.mp hn)))
    exact ⟨a, ep, by rw [BulkEnv.waitFor, ha, Option.map_some]⟩
  | succ n ih =>
    rw [BulkEnv.waitFor]
    rcases hlook : look ep with - | b
    · refine ih (hI ep h) ?_
      rcases hq : ep.reqQueue with - | ⟨r, rest⟩
      · rw [BulkEnv.arrive, hq, hq]
        exact Nat.zero_le n
      · rw [(env.arrived henv hq).reqQueue]
        rw [hq, List.length_cons] at hn
        exact Nat.le_of_succ_le_succ hn
    · exact ⟨b, ep, rfl⟩

theorem kept_credited (henv : env.Answers) : env.Kept Credited := by
  refine env.kept_of_arrived henv fun ep r rest ep' hI hq harrived => ?_
  rw [Credited, hq, occupiedBy_cons] at hI
  rw [Credited, harrived.buffOccupied, harrived.reqQueue, hI]
  push_cast
  ring

end Arrivals

/-! ## Firing -/

section Firing

variable {env : BulkEnv} {ep : EndpointState (Option ℕ)} {w : BulkWorld} {r : CtrlRequest}

theorem kept_forceAcks (henv : env.Answers) (b : Bool) : env.Kept fun ep => ep.forceAcks = b :=
  env.kept_of_arrived henv fun _ _ _ _ hI _ harrived => harrived.forceAcks.trans hI

theorem BulkEnv.transmit_ep (w : BulkWorld) (r : CtrlRequest) (tx : CtrlPayload) :
    (BulkEnv.transmit w r tx).1.ep =
      (transmitRequest w.ep ⟨some w.issued.length, tx⟩ r.requireAck true).1 := rfl

theorem BulkEnv.transmit_issued (w : BulkWorld) (r : CtrlRequest) (tx : CtrlPayload) :
    (BulkEnv.transmit w r tx).1.issued = w.issued ++ [(r, tx)] := rfl

theorem credited_transmit (hcredited : Credited w.ep) (r : CtrlRequest) (tx : CtrlPayload) :
    Credited (BulkEnv.transmit w r tx).1.ep := by
  rw [Credited] at hcredited
  rw [Credited, BulkEnv.transmit_ep, transmitRequest_buffOccupied, transmitRequest_reqQueue,
    occupiedBy_append, occupiedBy_cons, occupiedBy_nil, hcredited]
  push_cast
  ring

theorem own_transmit (w : BulkWorld) (r : CtrlRequest) (tx : CtrlPayload) :
    (BulkEnv.transmit w r tx).1.own = w.own ++ [⟨some w.issued.length, tx⟩] := by
  rw [BulkWorld.own, BulkEnv.transmit_issued, List.mapIdx_concat, BulkWorld.own]

theorem BulkEnv.fire_spec (henv : env.Answers) (hcredited : Credited w.ep)
    (haccepts : env.Accepts r) : ∃ ep,
      env.roomFor (env.locked w).ep (assemble env.cfg (env.locked w).ep r) =
        some (PUnit.unit, ep) ∧
      (∀ I, env.Kept I → I w.ep → I ep) ∧
      env.fireRequestPacket r w =
        .ok (assemble env.cfg (env.locked w).ep r, r.requireAck || ep.forceAcks)
          (BulkEnv.transmit { env.locked w with ep := ep } r
            (assemble env.cfg (env.locked w).ep r)).1 := by
  have hlocked : ∀ I, env.Kept I → I w.ep → I (env.locked w).ep := fun I hI h => hI.iterate _ h
  obtain ⟨u, ep, hroom⟩ := env.exists_waitFor henv (kept_credited henv)
    (fun ep => if buffNotFull env.cfg ep
      (assemble env.cfg (env.locked w).ep r).getPayloadSize then some PUnit.unit else none)
    (fun ep hI hq => by
      -- an empty buffer has room for the request
      rw [Credited, hq] at hI
      have hfits : buffNotFull env.cfg ep
          (assemble env.cfg (env.locked w).ep r).getPayloadSize = true := by
        rw [buffNotFull, decide_eq_true_iff, hI]
        have hsize : (assemble env.cfg (env.locked w).ep r).getPayloadSize ≤
            (requestLimit env.cfg).toNat := haccepts.fits
        rw [occupiedBy_nil, Nat.cast_zero, zero_add]
        exact_mod_cast hsize
      rw [if_pos hfits]
      rfl)
    (hlocked _ (kept_credited henv) hcredited) (Nat.le_refl _)
  have hfire : env.fireRequestPacket r w =
      (match env.roomFor (env.locked w).ep (assemble env.cfg (env.locked w).ep r) with
        | none => throw (CallError.ctrl ⟨.opTimeout,
            "Control operation timed out waiting for space in command buffer"⟩)
        | some found => (do
          let sent := BulkEnv.transmit { env.locked w with ep := found.2 } r
            (assemble env.cfg (env.locked w).ep r)
          set sent.1
          let registered ← orThrow (sent.2.mapError .ctrl)
          return (assemble env.cfg (env.locked w).ep r, registered) :
            EStateM CallError BulkWorld (CtrlPayload × Bool))) (env.locked w) := by
    rw [BulkEnv.fireRequestPacket, haccepts.clocks]
    rfl
  have hroom' : env.roomFor (env.locked w).ep (assemble env.cfg (env.locked w).ep r) =
      some (PUnit.unit, ep) := hroom
  refine ⟨ep, hroom', fun I hI h => (hI.waitFor (hlocked I hI h) hroom).1, ?_⟩
  rw [hfire, hroom']
  rfl

end Firing

/-! ## Requests in flight -/

/-- The response that a read of the access is passed on with. -/
def BulkEnv.answered (env : BulkEnv) (r : Tagged (Option ℕ)) :
    Tagged (Option ℕ) × ResponseStatus := (⟨r.origin, env.answer r⟩, .valid)

/-- A read of the access. -/
structure OwnRead (r : Tagged (Option ℕ)) : Prop where
  own : isOwn r = true
  opCode : r.pyld.opCode = .read ∨ r.pyld.opCode = .blockRead
  size : 1 ≤ r.pyld.reqSize

/-- **Reads in flight**, oldest first: the responses to the first of them are queued, the others
are outstanding and their responses wanted, and nothing else has their keys. -/
structure Flight (env : BulkEnv) (own : List (Tagged (Option ℕ)))
    (ep : EndpointState (Option ℕ)) : Prop where
  queued : ∃ answered, own = answered ++ ep.reqQueue.filter isOwn ∧
    ep.respQueue.filter (fun e => isOwn e.1) = answered.map env.answered
  wanted : ∀ r ∈ ep.reqQueue, isOwn r = true → r.pyld.key ∈ ep.wantedAcks
  distinct : ep.reqQueue.Pairwise fun r r' =>
    isOwn r = true ∨ isOwn r' = true → r.pyld.key ≠ r'.pyld.key
  requests : ∀ q ∈ ep.reqQueue, isOwn q = false → ∀ r ∈ own, q.pyld.key ≠ r.pyld.key
  responses : ∀ e ∈ ep.respQueue, isOwn e.1 = false → ∀ r ∈ own, e.1.pyld.key ≠ r.pyld.key
  reads : ∀ r ∈ own, OwnRead r

section InFlight

variable {env : BulkEnv} {own : List (Tagged (Option ℕ))} {ep ep' : EndpointState (Option ℕ)}
  {w : BulkWorld}

theorem responseStatus_ownRead (henv : env.Answers) {r : Tagged (Option ℕ)} (hr : OwnRead r) :
    responseStatus r.pyld (env.answer r) = .valid := by
  have hsize := henv.size r hr.opCode
  rcases hr.opCode with hop | hop
  · simp only [responseStatus, hop, hsize, if_true]
  · simp only [responseStatus, hop, hsize, if_true]

theorem Flight.arrived (henv : env.Answers) (h : Flight env own ep) {r : Tagged (Option ℕ)}
    {rest : List (Tagged (Option ℕ))} (hq : ep.reqQueue = r :: rest)
    (harrived : Arrived env ep r rest ep') : Flight env own ep' := by
  obtain ⟨answered, hown, hqueue⟩ := h.queued
  have hdistinct := h.distinct
  have hwanted := h.wanted
  have hrequests := h.requests
  rw [hq] at hown hdistinct hwanted hrequests
  rw [List.pairwise_cons] at hdistinct
  -- the reads that are still outstanding have other keys
  have hstill : ∀ r' ∈ rest, isOwn r' = true → r'.pyld.key ∈ ep'.wantedAcks := by
    intro r' hr' hisOwn
    have hwas := hwanted r' (List.mem_cons_of_mem _ hr') hisOwn
    rcases harrived.passed with ⟨-, -, hacks⟩ | ⟨-, -, hacks⟩
    · rw [hacks, Finset.mem_erase]
      exact ⟨fun heq => hdistinct.1 r' hr' (Or.inr hisOwn) heq.symm, hwas⟩
    · rw [hacks]
      exact hwas
  refine ⟨?_, by rw [harrived.reqQueue]; exact hstill, by rw [harrived.reqQueue]; exact hdistinct.2,
    ?_, fun e he hforeign => ?_, h.reads⟩
  · by_cases hr : isOwn r = true
    · have hread : OwnRead r := h.reads r (by
        rw [hown, List.filter_cons_of_pos hr]
        exact List.mem_append_right _ List.mem_cons_self)
      rcases harrived.passed with ⟨-, hresp, -⟩ | ⟨hunwanted, -, -⟩
      · refine ⟨answered ++ [r], ?_, ?_⟩
        · rw [hown, List.filter_cons_of_pos hr, harrived.reqQueue, List.append_assoc,
            List.singleton_append]
        · rw [hresp, List.filter_append, hqueue, List.map_append, List.map_singleton,
            List.filter_cons_of_pos (by exact hr), List.filter_nil, responseStatus_ownRead henv hread,
            BulkEnv.answered]
      · exact absurd (hwanted r List.mem_cons_self hr) hunwanted
    · refine ⟨answered, ?_, ?_⟩
      · rw [hown, List.filter_cons_of_neg hr, harrived.reqQueue]
      · rcases harrived.passed with ⟨-, hresp, -⟩ | ⟨-, hresp, -⟩
        · rw [hresp, List.filter_append, hqueue, List.filter_cons_of_neg (by exact hr),
            List.filter_nil, List.append_nil]
        · rw [hresp, hqueue]
  · rw [harrived.reqQueue]
    exact fun q hq' => hrequests q (List.mem_cons_of_mem _ hq')
  · rcases harrived.passed with ⟨-, hresp, -⟩ | ⟨-, hresp, -⟩
    · rw [hresp, List.mem_append, List.mem_singleton] at he
      rcases he with he | rfl
      · exact h.responses e he hforeign
      · have hkey : (env.answer r).key = r.pyld.key := henv.key r
        rw [hkey]
        exact hrequests r List.mem_cons_self hforeign
    · rw [hresp] at he
      exact h.responses e he hforeign

theorem kept_flight (henv : env.Answers) (own : List (Tagged (Option ℕ))) :
    env.Kept (Flight env own) :=
  env.kept_of_arrived henv fun _ _ _ _ hI hq harrived => hI.arrived henv hq harrived

theorem Flight.transmit (h : Flight env own ep) {r : Tagged (Option ℕ)} (hread : OwnRead r)
    (hunused : Unused ep r.pyld.key) :
    Flight env (own ++ [r]) (transmitRequest ep r true true).1 := by
  obtain ⟨answered, hown, hqueue⟩ := h.queued
  have hacks : (transmitRequest ep r true true).1.wantedAcks =
      insert r.pyld.key ep.wantedAcks := rfl
  refine ⟨⟨answered, ?_, ?_⟩, fun r' hr' hisOwn => ?_, ?_, fun q hq hforeign r' hr' => ?_,
    fun e he hforeign r' hr' => ?_, fun r' hr' => ?_⟩
  · rw [transmitRequest_reqQueue, List.filter_append, List.filter_cons_of_pos hread.own,
      List.filter_nil, hown, List.append_assoc]
  · rw [transmitRequest_respQueue]
    exact hqueue
  · rw [transmitRequest_reqQueue, List.mem_append, List.mem_singleton] at hr'
    rw [hacks]
    rcases hr' with hr' | rfl
    · exact Finset.mem_insert_of_mem (h.wanted r' hr' hisOwn)
    · exact Finset.mem_insert_self ..
  · rw [transmitRequest_reqQueue, List.pairwise_append]
    refine ⟨h.distinct, List.pairwise_singleton .., fun r' hr' r'' hr'' _ => ?_⟩
    rw [List.mem_singleton.mp hr'']
    exact hunused.1 r' hr'
  · rw [transmitRequest_reqQueue, List.mem_append, List.mem_singleton] at hq
    rcases hq with hq | rfl
    · rcases List.mem_append.mp hr' with hr' | hr'
      · exact h.requests q hq hforeign r' hr'
      · rw [List.mem_singleton.mp hr']
        exact hunused.1 q hq
    · rw [hread.own] at hforeign
      cases hforeign
  · rw [transmitRequest_respQueue] at he
    rcases List.mem_append.mp hr' with hr' | hr'
    · exact h.responses e he hforeign r' hr'
    · rw [List.mem_singleton.mp hr']
      exact hunused.2 e he hforeign
  · rcases List.mem_append.mp hr' with hr' | hr'
    · exact h.reads r' hr'
    · rw [List.mem_singleton.mp hr']
      exact hread

/-! ## Collecting -/

theorem takeResponse_of_filter {k : WantedAckKey} {e : Tagged (Option ℕ) × ResponseStatus}
    {es : List (Tagged (Option ℕ) × ResponseStatus)} (hkey : e.1.pyld.key = k) :
    ∀ q : List (Tagged (Option ℕ) × ResponseStatus), q.filter (fun e => isOwn e.1) = e :: es →
      (∀ x ∈ q, isOwn x.1 = false → x.1.pyld.key ≠ k) →
      ∃ rest, takeResponse k q = some (e, rest) ∧ rest.filter (fun e => isOwn e.1) = es
  | [], hfilter, _ => by cases hfilter
  | x :: q, hfilter, hforeign => by
    by_cases hx : isOwn x.1 = true
    · rw [List.filter_cons_of_pos (by exact hx)] at hfilter
      obtain ⟨rfl, rfl⟩ := List.cons.inj hfilter
      exact ⟨q, by rw [takeResponse, if_pos hkey], rfl⟩
    · rw [List.filter_cons_of_neg (by exact hx)] at hfilter
      obtain ⟨rest, htake, hrest⟩ := takeResponse_of_filter hkey q hfilter
        fun y hy => hforeign y (List.mem_cons_of_mem _ hy)
      refine ⟨x :: rest, ?_, ?_⟩
      · rw [takeResponse, if_neg (hforeign x List.mem_cons_self (Bool.not_eq_true _ ▸ hx)), htake,
          Option.map_some]
      · rw [List.filter_cons_of_neg (by exact hx)]
        exact hrest

theorem takeResponse_of_filter_nil {k : WantedAckKey} :
    ∀ q : List (Tagged (Option ℕ) × ResponseStatus), q.filter (fun e => isOwn e.1) = [] →
      (∀ x ∈ q, isOwn x.1 = false → x.1.pyld.key ≠ k) → takeResponse k q = none
  | [], _, _ => rfl
  | x :: q, hfilter, hforeign => by
    have hx : ¬ isOwn x.1 = true := fun hx => by
      rw [List.filter_cons_of_pos (by exact hx)] at hfilter
      cases hfilter
    rw [List.filter_cons_of_neg (by exact hx)] at hfilter
    rw [takeResponse, if_neg (hforeign x List.mem_cons_self (Bool.not_eq_true _ ▸ hx)),
      takeResponse_of_filter_nil q hfilter fun y hy => hforeign y (List.mem_cons_of_mem _ hy),
      Option.map_none]

theorem Flight.take {r : Tagged (Option ℕ)} (henv : env.Answers) (h : Flight env (r :: own) ep)
    {found : (Tagged (Option ℕ) × ResponseStatus) × List (Tagged (Option ℕ) × ResponseStatus)}
    (hfound : takeResponse r.pyld.key ep.respQueue = some found) :
    found.1 = env.answered r ∧ Flight env own { ep with respQueue := found.2 } := by
  obtain ⟨answered, hown, hqueue⟩ := h.queued
  have hforeign : ∀ x ∈ ep.respQueue, isOwn x.1 = false → x.1.pyld.key ≠ r.pyld.key :=
    fun x hx hx' => h.responses x hx hx' r List.mem_cons_self
  cases answered with
  | nil =>
    rw [takeResponse_of_filter_nil _ hqueue hforeign] at hfound
    cases hfound
  | cons r' answered =>
    obtain ⟨rfl, hrest⟩ := List.cons.inj hown
    obtain ⟨rest, htake, hfilter⟩ := takeResponse_of_filter (henv.key r) _ hqueue hforeign
    rw [htake, Option.some_inj] at hfound
    subst hfound
    obtain ⟨-, -, hsub⟩ := takeResponse_eq_some htake
    refine ⟨rfl, ⟨answered, hrest, hfilter⟩, h.wanted, h.distinct, fun q hq hq' r' hr' => ?_,
      fun e he he' r' hr' => ?_, fun r' hr' => ?_⟩
    · exact h.requests q hq hq' r' (List.mem_cons_of_mem _ hr')
    · exact h.responses e (hsub e he) he' r' (List.mem_cons_of_mem _ hr')
    · exact h.reads r' (List.mem_cons_of_mem _ hr')

theorem Flight.isSome_take {r : Tagged (Option ℕ)} (henv : env.Answers)
    (h : Flight env (r :: own) ep) (hq : ep.reqQueue = []) :
    (takeResponse r.pyld.key ep.respQueue).isSome = true := by
  obtain ⟨answered, hown, hqueue⟩ := h.queued
  rw [hq, List.filter_nil, List.append_nil] at hown
  rw [← hown, List.map_cons] at hqueue
  obtain ⟨rest, htake, -⟩ := takeResponse_of_filter (henv.key r) _ hqueue
    fun x hx hx' => h.responses x hx hx' r List.mem_cons_self
  rw [htake]
  rfl

theorem Flight.collect {r : Tagged (Option ℕ)} (henv : env.Answers)
    (h : Flight env (r :: own) w.ep) : ∃ w',
      env.collectAckResponse r.pyld w = .ok (validateAck r.pyld (env.answer r) .valid) w' ∧
        Flight env own w'.ep ∧ w'.issued = w.issued := by
  have hkept := kept_flight henv (r :: own)
  have hlocked : Flight env (r :: own) (env.locked w).ep := hkept.iterate _ h
  obtain ⟨found, ep', hwait⟩ := env.exists_waitFor henv hkept
    (fun ep => takeResponse r.pyld.key ep.respQueue)
    (fun ep hI hq => hI.isSome_take henv hq) hlocked (Nat.le_refl _)
  obtain ⟨hflight, hfound⟩ := hkept.waitFor hlocked hwait
  obtain ⟨hanswer, hrest⟩ := hflight.take henv hfound
  refine ⟨{ env.locked w with ep := { ep' with respQueue := found.2 } }, ?_, hrest, rfl⟩
  have hcollect : env.collectAckResponse r.pyld w =
      (match env.waitFor (fun ep => takeResponse r.pyld.key ep.respQueue)
          (env.locked w).ep.reqQueue.length (env.locked w).ep with
        | none => throw (CallError.ctrl ⟨.opTimeout, "Control operation timed out waiting for ACK."⟩)
        | some found => (do
          set { env.locked w with ep := { found.2 with respQueue := found.1.2 } }
          return validateAck r.pyld found.1.1.1.pyld found.1.1.2 :
            EStateM CallError BulkWorld (Except CtrlError CtrlPayload))) (env.locked w) := rfl
  rw [hcollect, hwait]
  dsimp only
  rw [hanswer]
  rfl

theorem validateAck_ownRead (henv : env.Answers) {r : Tagged (Option ℕ)} (hr : OwnRead r) :
    validateAck r.pyld (env.answer r) .valid = .ok (env.answer r) := by
  have hsize := henv.size r hr.opCode
  have hdata : (env.answer r).dataVtr.isEmpty = false := by
    rw [List.isEmpty_eq_false_iff, ← List.length_pos_iff, hsize]
    exact hr.size
  have hfine : (env.answer r).status ≠ .cmdErr ∧ (env.answer r).status ≠ .tsErr := by
    rcases henv.status r with h | h
    · rw [h]
      exact ⟨CtrlStatus.noConfusion, CtrlStatus.noConfusion⟩
    · rw [h]
      exact ⟨CtrlStatus.noConfusion, CtrlStatus.noConfusion⟩
  rw [validateAck, if_neg hfine.1, if_neg hfine.2, if_neg (by rw [hdata]; simp),
    if_neg ResponseStatus.noConfusion, if_neg ResponseStatus.noConfusion]

theorem Flight.collectAll (henv : env.Answers) (block : Bool) (baseAddr : UInt32)
    (h : Flight env own w.ep) (result : List UInt32) : ∃ w',
      (own.map fun r => (r.pyld, r.pyld.reqSize)).foldlM (env.collectRead block baseAddr) result w =
          .ok (result ++ own.flatMap fun r => (env.answer r).dataVtr) w' ∧
        w'.issued = w.issued := by
  induction own generalizing w result with
  | nil =>
    refine ⟨w, ?_, rfl⟩
    rw [List.flatMap_nil, List.append_nil]
    rfl
  | cons r own ih =>
    have hread := h.reads r List.mem_cons_self
    obtain ⟨w₁, hcollect, hflight, hissued₁⟩ := h.collect henv
    rw [validateAck_ownRead henv hread] at hcollect
    have hone : env.collectRead block baseAddr result (r.pyld, r.pyld.reqSize) w =
        .ok (result ++ (env.answer r).dataVtr) w₁ := by
      have houtcome : (Operation.bulkRead32 block baseAddr r.pyld.reqSize).outcome
          (.ok (env.answer r)) = .ok (env.answer r).dataVtr :=
        if_pos (henv.size r hread.opCode)
      rw [BulkEnv.collectRead, bind_of_ok hcollect, houtcome]
      rfl
    obtain ⟨w', hrest, hissued⟩ := ih hflight (result ++ (env.answer r).dataVtr)
    refine ⟨w', ?_, hissued.trans hissued₁⟩
    rw [List.map_cons, List.foldlM_cons, bind_of_ok hone, hrest, List.flatMap_cons,
      List.append_assoc]

end InFlight

/-! ## Keys that are used twice -/

/-- **A response too few** will come: fewer responses with a key are queued or wanted than reads
with that key wait. -/
def Short (k : WantedAckKey) (own : List (Tagged (Option ℕ))) (ep : EndpointState (Option ℕ)) :
    Prop :=
  (ep.respQueue.countP fun e => e.1.pyld.key = k) + (if k ∈ ep.wantedAcks then 1 else 0) <
    own.countP fun r => r.pyld.key = k

section Short

variable {env : BulkEnv} {k : WantedAckKey} {own : List (Tagged (Option ℕ))}
  {ep : EndpointState (Option ℕ)} {w w' : BulkWorld}

theorem kept_short (henv : env.Answers) (k : WantedAckKey) (own : List (Tagged (Option ℕ))) :
    env.Kept (Short k own) := by
  refine env.kept_of_arrived henv fun ep r rest ep' hI hq harrived => ?_
  rw [Short] at hI
  refine Nat.lt_of_le_of_lt ?_ hI
  rcases harrived.passed with ⟨hwanted, hresp, hacks⟩ | ⟨-, hresp, hacks⟩
  · rw [hresp, hacks, List.countP_append, List.countP_singleton]
    by_cases hk : r.pyld.key = k
    · -- what was wanted is queued now
      subst hk
      rw [if_neg (Finset.notMem_erase _ _), if_pos hwanted]
      split_ifs
      · exact Nat.le_refl _
      · omega
    · have hnew : ¬ decide ((env.answer r).key = k) = true := by
        rw [henv.key r, decide_eq_true_iff]
        exact hk
      rw [if_neg hnew, Nat.add_zero]
      have herase : k ∈ ep.wantedAcks.erase r.pyld.key ↔ k ∈ ep.wantedAcks := by
        rw [Finset.mem_erase]
        exact and_iff_right (Ne.symm hk)
      simp only [herase]
      exact Nat.le_refl _
  · rw [hresp, hacks]

theorem Short.transmit (h : Short k own ep) (r : Tagged (Option ℕ)) :
    Short k (own ++ [r]) (transmitRequest ep r true true).1 := by
  have hacks : (transmitRequest ep r true true).1.wantedAcks =
      insert r.pyld.key ep.wantedAcks := rfl
  rw [Short] at h ⊢
  rw [transmitRequest_respQueue, hacks, List.countP_append, List.countP_singleton]
  by_cases hk : r.pyld.key = k
  · rw [if_pos (decide_eq_true hk), if_pos (by rw [← hk]; exact Finset.mem_insert_self ..)]
    omega
  · have hinsert : k ∈ insert r.pyld.key ep.wantedAcks ↔ k ∈ ep.wantedAcks := by
      rw [Finset.mem_insert]
      exact or_iff_right (Ne.symm hk)
    simp only [hinsert, decide_eq_true_iff, if_neg hk, Nat.add_zero]
    exact h

theorem countP_takeResponse {k k' : WantedAckKey} :
    ∀ {q : List (Tagged (Option ℕ) × ResponseStatus)}
      {found : (Tagged (Option ℕ) × ResponseStatus) × List (Tagged (Option ℕ) × ResponseStatus)},
      takeResponse k' q = some found →
      (q.countP fun e => e.1.pyld.key = k) =
        (found.2.countP fun e => e.1.pyld.key = k) + if k' = k then 1 else 0
  | [], _, h => by cases h
  | x :: q, _, h => by
    rw [takeResponse] at h
    split_ifs at h with hx
    · obtain rfl := Option.some.inj h
      rw [List.countP_cons, hx]
      simp only [decide_eq_true_iff]
    · obtain ⟨found, htake, rfl⟩ := Option.map_eq_some_iff.mp h
      rw [List.countP_cons, List.countP_cons, countP_takeResponse (k := k) htake]
      omega

theorem Short.take {r : Tagged (Option ℕ)} (h : Short k (r :: own) ep)
    {found : (Tagged (Option ℕ) × ResponseStatus) × List (Tagged (Option ℕ) × ResponseStatus)}
    (hfound : takeResponse r.pyld.key ep.respQueue = some found) :
    Short k own { ep with respQueue := found.2 } := by
  rw [Short, List.countP_cons, countP_takeResponse hfound] at h
  rw [Short]
  simp only [decide_eq_true_iff] at h
  show (found.2.countP fun e => e.1.pyld.key = k) + (if k ∈ ep.wantedAcks then 1 else 0) < _
  omega

theorem Flight.short_transmit (henv : env.Answers) (h : Flight env own ep) {r : Tagged (Option ℕ)} (hread : OwnRead r)
    (hleft : NoReadLeft ep) (hused : ¬ Unused ep r.pyld.key) :
    Short r.pyld.key (own ++ [r]) (transmitRequest ep r true true).1 := by
  have hnotRead : ∀ q : CtrlPayload, q.opCode ≠ .read ∧ q.opCode ≠ .blockRead →
      q.key ≠ r.pyld.key := by
    intro q hq heq
    have hop := (CtrlPayload.key_eq_key_iff.mp heq).2.1
    rcases hread.opCode with hr | hr
    · exact hq.1 (hop.trans hr)
    · exact hq.2 (hop.trans hr)
  -- the key is that of a read of the access
  obtain ⟨q, hq, hkey⟩ : ∃ q ∈ ep.reqQueue, q.pyld.key = r.pyld.key := by
    by_contra hnone
    push Not at hnone
    exact hused ⟨hnone, fun e he hforeign => hnotRead _ (hleft.2 e he hforeign)⟩
  have hown : isOwn q = true := by
    by_contra hforeign
    exact hnotRead _ (hleft.1 q hq (Bool.not_eq_true _ ▸ hforeign)) hkey
  obtain ⟨answered, hsplit, hqueue⟩ := h.queued
  have hmem : q ∈ ep.reqQueue.filter isOwn := List.mem_filter.mpr ⟨hq, hown⟩
  have hpending : 0 < (ep.reqQueue.filter isOwn).countP fun r' => r'.pyld.key = r.pyld.key :=
    List.countP_pos_iff.mpr ⟨q, hmem, decide_eq_true hkey⟩
  have hqueued : (ep.respQueue.countP fun e => e.1.pyld.key = r.pyld.key) =
      answered.countP fun r' => r'.pyld.key = r.pyld.key := by
    have howned : ∀ e ∈ ep.respQueue, e.1.pyld.key = r.pyld.key → isOwn e.1 = true := by
      intro e he hekey
      by_contra hforeign
      refine h.responses e he (Bool.not_eq_true _ ▸ hforeign) q ?_ (hekey.trans hkey.symm)
      rw [hsplit]
      exact List.mem_append_right _ hmem
    calc (ep.respQueue.countP fun e => e.1.pyld.key = r.pyld.key)
        = (ep.respQueue.filter fun e => isOwn e.1).countP
            fun e => e.1.pyld.key = r.pyld.key := by
          rw [List.countP_filter]
          refine List.countP_congr fun e he => ?_
          rw [Bool.and_eq_true, decide_eq_true_iff]
          exact ⟨fun hekey => ⟨hekey, howned e he hekey⟩, fun hboth => hboth.1⟩
      _ = answered.countP fun r' => r'.pyld.key = r.pyld.key := by
          rw [hqueue, List.countP_map]
          refine List.countP_congr fun r' _ => ?_
          have hanswer : (env.answered r').1.pyld.key = r'.pyld.key := henv.key r'
          rw [Function.comp_apply, hanswer]
  have hacks : (transmitRequest ep r true true).1.wantedAcks =
      insert r.pyld.key ep.wantedAcks := rfl
  rw [Short, transmitRequest_respQueue, hacks, if_pos (Finset.mem_insert_self ..), hqueued, hsplit,
    List.countP_append, List.countP_append, List.countP_singleton, if_pos (decide_eq_true rfl)]
  omega

end Short

/-! ## Runs of a bulk read -/

section Reads

variable {env : BulkEnv} {w w' : BulkWorld} {block : Bool} {baseAddr : UInt32} {length : ℕ}
  {timestamp : Option UInt64}

theorem kept_noReadLeft (henv : env.Answers) : env.Kept NoReadLeft := by
  refine env.kept_of_arrived henv fun ep r rest ep' hI hq harrived => ⟨fun q hmem => ?_,
    fun e he hforeign => ?_⟩
  · rw [harrived.reqQueue] at hmem
    exact hI.1 q (by rw [hq]; exact List.mem_cons_of_mem _ hmem)
  · rcases harrived.passed with ⟨-, hresp, -⟩ | ⟨-, hresp, -⟩
    · rw [hresp, List.mem_append, List.mem_singleton] at he
      rcases he with he | rfl
      · exact hI.2 e he hforeign
      · have hop : (env.answer r).opCode = r.pyld.opCode :=
          (CtrlPayload.key_eq_key_iff.mp (henv.key r)).2.1
        rw [hop]
        exact hI.1 r (by rw [hq]; exact List.mem_cons_self) hforeign
    · rw [hresp] at he
      exact hI.2 e he hforeign

theorem NoReadLeft.transmit {ep : EndpointState (Option ℕ)} (h : NoReadLeft ep)
    {r : Tagged (Option ℕ)} (hown : isOwn r = true) :
    NoReadLeft (transmitRequest ep r true true).1 := by
  refine ⟨fun q hq hforeign => ?_, by rw [transmitRequest_respQueue]; exact h.2⟩
  rw [transmitRequest_reqQueue, List.mem_append, List.mem_singleton] at hq
  rcases hq with hq | rfl
  · exact h.1 q hq hforeign
  · rw [hown] at hforeign
    cases hforeign

/-- Reads in flight, with nothing of earlier calls in the way. -/
structure InFlight (env : BulkEnv) (w : BulkWorld) : Prop where
  flight : Flight env w.own w.ep
  noReadLeft : NoReadLeft w.ep

theorem ownRead_readRequest (cfg : EndpointConfig) (ep : EndpointState (Option ℕ)) {i offset : ℕ}
    (hoffset : offset < length) :
    OwnRead ⟨some i, assemble cfg ep (readRequest block baseAddr length timestamp offset)⟩ := by
  refine ⟨rfl, ?_, (chunkSize_bounds hoffset).1⟩
  cases block
  · exact Or.inl rfl
  · exact Or.inr rfl

/-- **Requests were handed over**, and what became of the reads in flight. -/
structure FiredReads (env : BulkEnv) (rs : List CtrlRequest) (new : List (Tagged (Option ℕ)))
    (w w' : BulkWorld) : Prop where
  credited : Credited w'.ep
  issued : w'.issued.map Prod.fst = w.issued.map Prod.fst ++ rs
  assembled : w.Assembled env → w'.Assembled env
  own : w'.own = w.own ++ new
  sizes : new.map (fun r => r.pyld.reqSize) = rs.map fun r => r.reqSize
  /-- With unused keys, they are in flight. -/
  unused : ∀ rest, env.KeysUnused (rs ++ rest) w → Flight env w.own w.ep →
    Flight env w'.own w'.ep ∧ env.KeysUnused rest w'
  /-- A response too few stays one too few. -/
  short : ∀ k, Short k w.own w.ep → Short k w'.own w'.ep
  /-- Otherwise there will be a response too few. -/
  used : InFlight env w → InFlight env w' ∧ (∀ rest, env.KeysUnused rest w' →
    env.KeysUnused (rs ++ rest) w) ∨ ∃ k, Short k w'.own w'.ep

theorem BulkEnv.fireRead_spec (henv : env.Answers) (hcredited : Credited w.ep) {offset : ℕ}
    (hoffset : offset < length)
    (haccepts : env.Accepts (readRequest block baseAddr length timestamp offset)) :
    ∃ w' r, env.fireRead block baseAddr length timestamp offset w =
        .ok (r.pyld, r.pyld.reqSize) w' ∧
      FiredReads env [readRequest block baseAddr length timestamp offset] [r] w w' := by
  obtain ⟨ep, hroom, hkept, hfire⟩ := env.fire_spec henv hcredited haccepts
  set request := readRequest block baseAddr length timestamp offset with hrequest
  set tx := assemble env.cfg (env.locked w).ep request with htx
  set w₁ : BulkWorld := { env.locked w with ep := ep } with hw₁
  have hread : OwnRead ⟨some w.issued.length, tx⟩ := ownRead_readRequest _ _ hoffset
  have hep : (BulkEnv.transmit w₁ request tx).1.ep =
      (transmitRequest ep ⟨some w.issued.length, tx⟩ true true).1 := rfl
  have hown : (BulkEnv.transmit w₁ request tx).1.own =
      w.own ++ [⟨some w.issued.length, tx⟩] := own_transmit w₁ request tx
  have hkeys : ∀ rest, env.KeysUnused (request :: rest) w ↔ Unused ep tx.key ∧
      env.KeysUnused rest (BulkEnv.transmit w₁ request tx).1 := by
    intro rest
    rw [BulkEnv.KeysUnused, hroom]
  refine ⟨(BulkEnv.transmit w₁ request tx).1, ⟨some w.issued.length, tx⟩, ?_, ?_, ?_, ?_, hown,
    rfl, fun rest hunused hflight => ?_, fun k hshort => ?_, fun hin => ?_⟩
  · rw [BulkEnv.fireRead, ← hrequest, bind_of_ok hfire]
    rfl
  · exact credited_transmit (w := w₁) (hkept _ (kept_credited henv) hcredited) request tx
  · rw [BulkEnv.transmit_issued, List.map_append, List.map_singleton]
    rfl
  · intro hassembled e he
    rw [BulkEnv.transmit_issued, List.mem_append, List.mem_singleton] at he
    rcases he with he | rfl
    · exact hassembled e he
    · exact ⟨(env.locked w).ep, htx⟩
  · obtain ⟨hkey, hrest⟩ := (hkeys rest).mp hunused
    rw [hep, hown]
    exact ⟨(hkept _ (kept_flight henv _) hflight).transmit hread hkey, hrest⟩
  · rw [hep, hown]
    exact (hkept _ (kept_short henv k _) hshort).transmit _
  · have hflight := hkept _ (kept_flight henv _) hin.flight
    have hleft := hkept _ (kept_noReadLeft henv) hin.noReadLeft
    by_cases hkey : Unused ep tx.key
    · refine Or.inl ⟨⟨?_, ?_⟩, fun rest hrest => (hkeys rest).mpr ⟨hkey, hrest⟩⟩
      · rw [hep, hown]
        exact hflight.transmit hread hkey
      · rw [hep]
        exact hleft.transmit rfl
    · refine Or.inr ⟨tx.key, ?_⟩
      rw [hep, hown]
      exact hflight.short_transmit henv hread hleft hkey

theorem FiredReads.refl (hcredited : Credited w.ep) : FiredReads env [] [] w w where
  credited := hcredited
  issued := (List.append_nil _).symm
  assembled h := h
  own := (List.append_nil _).symm
  sizes := rfl
  unused _ hunused hflight := ⟨hflight, hunused⟩
  short _ h := h
  used h := Or.inl ⟨h, fun _ hrest => hrest⟩

theorem FiredReads.trans {w'' : BulkWorld} {rs rs' : List CtrlRequest}
    {new new' : List (Tagged (Option ℕ))} (h : FiredReads env rs new w w')
    (h' : FiredReads env rs' new' w' w'') :
    FiredReads env (rs ++ rs') (new ++ new') w w'' where
  credited := h'.credited
  issued := by rw [h'.issued, h.issued, List.append_assoc]
  assembled hw := h'.assembled (h.assembled hw)
  own := by rw [h'.own, h.own, List.append_assoc]
  sizes := by rw [List.map_append, List.map_append, h.sizes, h'.sizes]
  unused rest hunused hflight := by
    rw [List.append_assoc] at hunused
    obtain ⟨hflight', hunused'⟩ := h.unused _ hunused hflight
    exact h'.unused rest hunused' hflight'
  short k hshort := h'.short k (h.short k hshort)
  used hin := by
    rcases h.used hin with ⟨hin', hkeys⟩ | ⟨k, hshort⟩
    · rcases h'.used hin' with ⟨hin'', hkeys'⟩ | hshort
      · refine Or.inl ⟨hin'', fun rest hrest => ?_⟩
        rw [List.append_assoc]
        exact hkeys _ (hkeys' rest hrest)
      · exact Or.inr hshort
    · exact Or.inr ⟨k, h'.short k hshort⟩

theorem BulkEnv.fireReads_spec (henv : env.Answers) (offsets : List ℕ) (hcredited : Credited w.ep)
    (hoffsets : ∀ x ∈ offsets, x < length)
    (haccepts : ∀ x ∈ offsets, env.Accepts (readRequest block baseAddr length timestamp x)) :
    ∃ w' new, offsets.mapM (env.fireRead block baseAddr length timestamp) w =
        .ok (new.map fun r => (r.pyld, r.pyld.reqSize)) w' ∧
      FiredReads env (offsets.map (readRequest block baseAddr length timestamp)) new w w' := by
  induction offsets generalizing w with
  | nil => exact ⟨w, [], rfl, FiredReads.refl hcredited⟩
  | cons x offsets ih =>
    obtain ⟨w₁, r, hone, hfired⟩ := env.fireRead_spec henv hcredited
      (hoffsets x List.mem_cons_self) (haccepts x List.mem_cons_self)
    obtain ⟨w', new, hrest, hfired'⟩ := ih hfired.credited
      (fun y hy => hoffsets y (List.mem_cons_of_mem _ hy))
      (fun y hy => haccepts y (List.mem_cons_of_mem _ hy))
    refine ⟨w', r :: new, ?_, hfired.trans hfired'⟩
    rw [List.mapM_cons, bind_of_ok hone, bind_of_ok hrest]
    rfl

theorem BulkWorld.Start.flight (h : w.Start) : Flight env w.own w.ep := by
  have hown : w.own = [] := by rw [BulkWorld.own, h.issued, List.mapIdx_nil]
  have hnone : ∀ r ∈ w.ep.reqQueue, ¬ isOwn r = true := fun r hr => by
    rw [h.requests r hr]
    exact Bool.noConfusion
  rw [hown]
  refine ⟨⟨[], ?_, ?_⟩, fun r hr hisOwn => absurd hisOwn (hnone r hr), ?_,
    fun q hq hforeign r hr => absurd hr List.not_mem_nil,
    fun e he hforeign r hr => absurd hr List.not_mem_nil,
    fun r hr => absurd hr List.not_mem_nil⟩
  · rw [List.nil_append, List.filter_eq_nil_iff.mpr hnone]
  · rw [List.map_nil, List.filter_eq_nil_iff]
    intro e he
    rw [h.responses e he]
    exact Bool.noConfusion
  · refine List.pairwise_of_forall_mem_list fun r hr r' hr' hor => ?_
    rcases hor with hisOwn | hisOwn
    · exact absurd hisOwn (hnone r hr)
    · exact absurd hisOwn (hnone r' hr')

/-! ### Collecting too much -/

theorem BulkEnv.collectAckResponse_eq (env : BulkEnv) (request : CtrlPayload) (w : BulkWorld) :
    env.collectAckResponse request w =
      match env.waitFor (fun ep => takeResponse request.key ep.respQueue)
          (env.locked w).ep.reqQueue.length (env.locked w).ep with
      | none => .error (.ctrl ⟨.opTimeout, "Control operation timed out waiting for ACK."⟩)
          (env.locked w)
      | some found => .ok (validateAck request found.1.1.1.pyld found.1.1.2)
          { env.locked w with ep := { found.2 with respQueue := found.1.2 } } := by
  change (match env.waitFor (fun ep => takeResponse request.key ep.respQueue)
      (env.locked w).ep.reqQueue.length (env.locked w).ep with
    | none => throw (CallError.ctrl ⟨.opTimeout, "Control operation timed out waiting for ACK."⟩)
    | some found => (do
      set { env.locked w with ep := { found.2 with respQueue := found.1.2 } }
      return validateAck request found.1.1.1.pyld found.1.1.2 :
        EStateM CallError BulkWorld (Except CtrlError CtrlPayload))) (env.locked w) = _
  rcases env.waitFor (fun ep => takeResponse request.key ep.respQueue)
      (env.locked w).ep.reqQueue.length (env.locked w).ep with - | found
  · rfl
  · rfl

theorem short_of_collect (henv : env.Answers) {k : WantedAckKey} {own : List (Tagged (Option ℕ))}
    {r : Tagged (Option ℕ)} (h : Short k (r :: own) w.ep) {response : Except CtrlError CtrlPayload}
    (hcollect : Returns (env.collectAckResponse r.pyld) w response w') : Short k own w'.ep := by
  have hkept := kept_short henv k (r :: own)
  rw [Returns, env.collectAckResponse_eq] at hcollect
  rcases hwait : env.waitFor (fun ep => takeResponse r.pyld.key ep.respQueue)
      (env.locked w).ep.reqQueue.length (env.locked w).ep with - | ⟨found, ep⟩
  · rw [hwait] at hcollect
    cases hcollect
  · rw [hwait] at hcollect
    injection hcollect with _ hw'
    obtain ⟨hshort, hfound⟩ := hkept.waitFor (hkept.iterate _ h) hwait
    rw [← hw']
    exact hshort.take hfound

theorem not_returns_of_short (henv : env.Answers) {k : WantedAckKey}
    {own : List (Tagged (Option ℕ))} (h : Short k own w.ep) {result words : List UInt32}
    (hloop : Returns ((own.map fun r => (r.pyld, r.pyld.reqSize)).foldlM
      (env.collectRead block baseAddr) result) w words w') : False := by
  induction own generalizing w result with
  | nil =>
    rw [Short, List.countP_nil] at h
    exact Nat.not_lt_zero _ h
  | cons r own ih =>
    rw [List.map_cons, List.foldlM_cons, returns_bind] at hloop
    obtain ⟨result₁, w₁, hone, hrest⟩ := hloop
    rw [BulkEnv.collectRead, returns_bind] at hone
    obtain ⟨response, w₂, hcollect, hchecked⟩ := hone
    rw [returns_bind] at hchecked
    obtain ⟨read, w₃, hthrow, hpure⟩ := hchecked
    obtain ⟨-, rfl⟩ := returns_orThrow.mp hthrow
    obtain ⟨-, rfl⟩ := returns_pure.mp hpure
    exact ih (short_of_collect henv h hcollect) hrest

/-! ### Bulk reads -/

theorem issued_collectAckResponse (env : BulkEnv) (request : CtrlPayload) (w : BulkWorld) :
    (stateAfter (env.collectAckResponse request w)).issued = w.issued := by
  rw [env.collectAckResponse_eq]
  rcases env.waitFor (fun ep => takeResponse request.key ep.respQueue)
      (env.locked w).ep.reqQueue.length (env.locked w).ep with - | found
  · rfl
  · rfl

theorem issued_bind {α β : Type} {x : EStateM CallError BulkWorld α}
    {f : α → EStateM CallError BulkWorld β} (hf : ∀ a w, (stateAfter (f a w)).issued = w.issued)
    (w : BulkWorld) : (stateAfter ((x >>= f) w)).issued = (stateAfter (x w)).issued := by
  rcases hx : x w with ⟨a, w'⟩ | ⟨e, w'⟩
  · rw [bind_of_ok hx, hf]
    rfl
  · rw [bind_of_error hx]
    rfl

theorem issued_orThrow {α : Type} (x : Except CallError α) (w : BulkWorld) :
    (stateAfter ((orThrow x : EStateM CallError BulkWorld α) w)).issued = w.issued := by
  cases x with
  | ok a => rfl
  | error e => rfl

theorem issued_collectRead (env : BulkEnv) (block : Bool) (baseAddr : UInt32)
    (result : List UInt32) (request : CtrlPayload × ℕ) (w : BulkWorld) :
    (stateAfter (env.collectRead block baseAddr result request w)).issued = w.issued := by
  rw [BulkEnv.collectRead, issued_bind, issued_collectAckResponse]
  intro response w₁
  rw [issued_bind, issued_orThrow]
  intro words w₂
  rfl

theorem issued_collectReads (env : BulkEnv) (block : Bool) (baseAddr : UInt32)
    (requests : List (CtrlPayload × ℕ)) (result : List UInt32) (w : BulkWorld) :
    (stateAfter (requests.foldlM (env.collectRead block baseAddr) result w)).issued = w.issued := by
  induction requests generalizing result w with
  | nil => rfl
  | cons request requests ih =>
    rw [List.foldlM_cons, issued_bind, issued_collectRead]
    intro result₁ w₁
    exact ih result₁ w₁

theorem BulkEnv.bulkRead32_spec (henv : env.Answers) (hw : w.Start)
    (haccepts : ∀ r ∈ readRequests block baseAddr length timestamp, env.Accepts r) :
    ((stateAfter (env.bulkRead32 block baseAddr length timestamp w)).Assembled env ∧
        ReadChunks block baseAddr length timestamp
          ((stateAfter (env.bulkRead32 block baseAddr length timestamp w)).issued.map Prod.fst)) ∧
      (env.KeysUnused (readRequests block baseAddr length timestamp) w →
        env.ReadsWords block baseAddr length timestamp w) ∧
      (NoReadLeft w.ep → env.ReadsWords block baseAddr length timestamp w →
        env.KeysUnused (readRequests block baseAddr length timestamp) w) := by
  unfold readRequests at haccepts ⊢
  obtain ⟨w₁, new, hloop, hfired⟩ := env.fireReads_spec henv (bulkOffsets length 0) hw.credits
    (fun x hx => mem_bulkOffsets hx) (fun x hx => haccepts _ (List.mem_map_of_mem hx))
  have hread : env.bulkRead32 block baseAddr length timestamp w =
      (new.map fun r => (r.pyld, r.pyld.reqSize)).foldlM (env.collectRead block baseAddr) [] w₁ := by
    rw [BulkEnv.bulkRead32, bind_of_ok hloop]
  have hown₀ : w.own = [] := by rw [BulkWorld.own, hw.issued, List.mapIdx_nil]
  have hown : w₁.own = new := by rw [hfired.own, hown₀, List.nil_append]
  have hissued : (stateAfter (env.bulkRead32 block baseAddr length timestamp w)).issued =
      w₁.issued := by
    rw [hread, issued_collectReads]
  have hfirst : w₁.issued.map Prod.fst =
      (bulkOffsets length 0).map (readRequest block baseAddr length timestamp) := by
    rw [hfired.issued, hw.issued, List.map_nil, List.nil_append]
  refine ⟨⟨?_, ?_⟩, fun hunused => ?_, fun hleft hreads => ?_⟩
  · have hassembled : w₁.Assembled env := hfired.assembled fun e he => by
      rw [hw.issued] at he
      cases he
    rw [BulkWorld.Assembled, hissued]
    exact hassembled
  · rw [hissued, hfirst]
    exact readChunks block baseAddr length timestamp
  · rw [← List.append_nil ((bulkOffsets length 0).map _)] at hunused
    obtain ⟨hflight, -⟩ := hfired.unused [] hunused hw.flight
    rw [hown] at hflight
    obtain ⟨w', hcollected, hissued'⟩ := hflight.collectAll henv block baseAddr []
    refine ⟨new.flatMap fun r => (env.answer r).dataVtr, w', ?_, ?_, ?_⟩
    · rw [Returns, hread, hcollected, List.nil_append]
    · rw [BulkWorld.own, hissued', ← BulkWorld.own, hown]
    · -- every read is answered with as many words as its chunk has
      calc (new.flatMap fun r => (env.answer r).dataVtr).length
          = (new.map fun r => r.pyld.reqSize).sum := by
            rw [List.length_flatMap]
            refine congrArg List.sum (List.map_congr_left fun r hr => ?_)
            exact henv.size r (hflight.reads r hr).opCode
        _ = ((bulkOffsets length 0).map (chunkSize length)).sum := by
            rw [hfired.sizes, List.map_map]
            rfl
        _ = length := (sum_chunkSizes length 0).trans (Nat.sub_zero length)
  · obtain ⟨words, w', hreturns, -, -⟩ := hreads
    rw [Returns, hread] at hreturns
    rcases hfired.used ⟨hw.flight, hleft⟩ with ⟨-, hkeys⟩ | ⟨k, hshort⟩
    · have hall := hkeys [] trivial
      rw [List.append_nil] at hall
      exact hall
    · rw [hown] at hshort
      exact (not_returns_of_short henv hshort hreturns).elim

end Reads

/-! ## Runs of a bulk write -/

section Writes

variable {env : BulkEnv} {w : BulkWorld} {block : Bool} {baseAddr : UInt32} {data : List UInt32}
  {timestamp : Option UInt64} {ack : Bool}

theorem BulkEnv.sendWrite_spec (henv : env.Answers) (hcredited : Credited w.ep)
    (hforce : w.ep.forceAcks = defaultForceAcks) {offset : ℕ}
    (haccepts : env.Accepts (writeRequest block baseAddr data timestamp ack offset)) :
    (∃ ep : EndpointState (Option ℕ),
        (stateAfter (env.sendWrite block baseAddr data timestamp ack offset w)).issued =
          w.issued ++ [(writeRequest block baseAddr data timestamp ack offset,
            assemble env.cfg ep (writeRequest block baseAddr data timestamp ack offset))]) ∧
      ((writeRequest block baseAddr data timestamp ack offset).requireAck = false →
        ∃ w', env.sendWrite block baseAddr data timestamp ack offset w = .ok PUnit.unit w' ∧
          Credited w'.ep ∧ w'.ep.forceAcks = defaultForceAcks) := by
  obtain ⟨ep, -, hkept, hfire⟩ := env.fire_spec henv hcredited haccepts
  have hforce' : ep.forceAcks = defaultForceAcks := hkept _ (kept_forceAcks henv _) hforce
  set r := writeRequest block baseAddr data timestamp ack offset with hr
  refine ⟨⟨(env.locked w).ep, ?_⟩, fun hack => ?_⟩
  · rw [BulkEnv.sendWrite, ← hr, issued_bind, hfire]
    · rfl
    · intro fired w₁
      rw [onlyIf]
      split_ifs
      · rw [issued_bind, issued_collectAckResponse]
        intro response w₂
        rw [issued_bind, issued_orThrow]
        intro _ w₃
        rfl
      · rfl
  · refine ⟨(BulkEnv.transmit { env.locked w with ep := ep } r
        (assemble env.cfg (env.locked w).ep r)).1, ?_,
      credited_transmit (w := { env.locked w with ep := ep })
        (hkept _ (kept_credited henv) hcredited) r _, ?_⟩
    · rw [BulkEnv.sendWrite, ← hr, bind_of_ok hfire, onlyIf, if_neg]
      · rfl
      · rw [hack, hforce']
        exact Bool.noConfusion
    · rw [BulkEnv.transmit_ep, transmitRequest, hack, hforce']
      rfl

theorem BulkEnv.sendWrites_spec (henv : env.Answers) (offsets : List ℕ)
    (hcredited : Credited w.ep) (hforce : w.ep.forceAcks = defaultForceAcks)
    (haccepts : ∀ x ∈ offsets, env.Accepts (writeRequest block baseAddr data timestamp ack x))
    (hacks : ∀ x ∈ offsets.dropLast,
      (writeRequest block baseAddr data timestamp ack x).requireAck = false)
    (hassembled : w.Assembled env) :
    (stateAfter (offsets.forM (env.sendWrite block baseAddr data timestamp ack) w)).Assembled
        env ∧
      (stateAfter (offsets.forM (env.sendWrite block baseAddr data timestamp ack) w)).issued.map
          Prod.fst =
        w.issued.map Prod.fst ++ offsets.map (writeRequest block baseAddr data timestamp ack) := by
  induction offsets generalizing w with
  | nil => exact ⟨hassembled, (List.append_nil _).symm⟩
  | cons x offsets ih =>
    obtain ⟨⟨ep, hissued⟩, hquiet⟩ := env.sendWrite_spec henv hcredited hforce
      (haccepts x List.mem_cons_self)
    have hassembled' : (stateAfter (env.sendWrite block baseAddr data timestamp ack x w)).Assembled
        env := by
      intro e he
      rw [hissued, List.mem_append, List.mem_singleton] at he
      rcases he with he | rfl
      · exact hassembled e he
      · exact ⟨ep, rfl⟩
    cases offsets with
    | nil =>
      have hloop : (stateAfter ([x].forM (env.sendWrite block baseAddr data timestamp ack) w)).issued =
          (stateAfter (env.sendWrite block baseAddr data timestamp ack x w)).issued :=
        issued_bind (fun _ _ => rfl) w
      rw [BulkWorld.Assembled, hloop, hissued, List.map_append]
      rw [BulkWorld.Assembled, hissued] at hassembled'
      exact ⟨hassembled', rfl⟩
    | cons y offsets =>
      rw [List.dropLast_cons_cons] at hacks
      obtain ⟨w₁, hone, hcredited₁, hforce₁⟩ := hquiet (hacks x List.mem_cons_self)
      rw [hone] at hissued hassembled'
      have hrest := ih hcredited₁ hforce₁ (fun z hz => haccepts z (List.mem_cons_of_mem _ hz))
        (fun z hz => hacks z (List.mem_cons_of_mem _ hz)) hassembled'
      have hloop : (x :: y :: offsets).forM (env.sendWrite block baseAddr data timestamp ack) w =
          (y :: offsets).forM (env.sendWrite block baseAddr data timestamp ack) w₁ :=
        bind_of_ok hone _
      have hissued₁ : w₁.issued.map Prod.fst = w.issued.map Prod.fst ++
          [writeRequest block baseAddr data timestamp ack x] := by
        have hone' : w₁.issued = _ := hissued
        rw [hone', List.map_append]
        rfl
      rw [hloop]
      refine ⟨hrest.1, ?_⟩
      rw [hrest.2, hissued₁, List.append_assoc]
      rfl

theorem BulkEnv.bulkWrite32_spec (henv : env.Answers) (hw : w.Start)
    (haccepts : ∀ r ∈ writeRequests block baseAddr data timestamp ack, env.Accepts r) :
    (stateAfter (env.bulkWrite32 block baseAddr data timestamp ack w)).Assembled env ∧
      WriteChunks block baseAddr data timestamp ack
        ((stateAfter (env.bulkWrite32 block baseAddr data timestamp ack w)).issued.map
          Prod.fst) := by
  have hchunks := writeChunks block baseAddr data timestamp ack
  unfold writeRequests at haccepts hchunks
  have hacks : ∀ x ∈ (bulkOffsets data.length 0).dropLast,
      (writeRequest block baseAddr data timestamp ack x).requireAck = false := by
    intro x hx
    obtain ⟨i, hi⟩ := List.getElem?_of_mem hx
    rw [List.getElem?_dropLast] at hi
    split_ifs at hi with hlast
    rw [hchunks.ack i _ (by rw [List.getElem?_map, hi, Option.map_some]), List.length_map,
      decide_eq_false (by omega), Bool.false_and]
  have hassembled : w.Assembled env := fun e he => by
    rw [hw.issued] at he
    cases he
  obtain ⟨hassembled', hissued⟩ := env.sendWrites_spec henv (bulkOffsets data.length 0) hw.credits
    hw.forceAcks (fun x hx => haccepts _ (List.mem_map_of_mem hx)) hacks hassembled
  refine ⟨hassembled', ?_⟩
  rw [BulkEnv.bulkWrite32, hissued, hw.issued, List.map_nil, List.nil_append]
  exact hchunks

end Writes

/-! ## Bulk accesses -/

/-- **Bulk accesses.**  The requests of both are those of the chunks; and a bulk read returns the
words that the device has answered its requests with, as many as asked for, exactly if no request
is fired with the key of an outstanding one.

That this is enough holds with anything left over from earlier calls, as long as it does not have
the key either.  That it is needed is for an endpoint without left over reads: what is left over
may have the right words by chance. -/
theorem bulkAccesses_iff {env : BulkEnv} (henv : env.Answers) {w : BulkWorld} (hw : w.Start)
    (block : Bool) (baseAddr : UInt32) (timestamp : Option UInt64) :
    (∀ data ack, (∀ r ∈ writeRequests block baseAddr data timestamp ack, env.Accepts r) →
        (stateAfter (env.bulkWrite32 block baseAddr data timestamp ack w)).Assembled env ∧
          WriteChunks block baseAddr data timestamp ack
            ((stateAfter (env.bulkWrite32 block baseAddr data timestamp ack w)).issued.map
              Prod.fst)) ∧
      ∀ length, (∀ r ∈ readRequests block baseAddr length timestamp, env.Accepts r) →
        ((stateAfter (env.bulkRead32 block baseAddr length timestamp w)).Assembled env ∧
            ReadChunks block baseAddr length timestamp
              ((stateAfter (env.bulkRead32 block baseAddr length timestamp w)).issued.map
                Prod.fst)) ∧
          (env.KeysUnused (readRequests block baseAddr length timestamp) w →
            env.ReadsWords block baseAddr length timestamp w) ∧
          (NoReadLeft w.ep → env.ReadsWords block baseAddr length timestamp w →
            env.KeysUnused (readRequests block baseAddr length timestamp) w) :=
  ⟨fun _ _ haccepts => env.bulkWrite32_spec henv hw haccepts,
    fun _ haccepts => env.bulkRead32_spec henv hw haccepts⟩

theorem BulkEnv.accepts_of_limit {env : BulkEnv} (hclient : env.clientClkRunning = true)
    (htimebase : env.timebaseClkRunning = true) (hlimit : 20 ≤ (requestLimit env.cfg).toNat)
    {r : CtrlRequest} (hdata : r.dataVtr.length ≤ maxDataWords) : env.Accepts r where
  clocks := by
    rw [checkClocks, hclient, htimebase, Bool.not_true, Bool.and_false]
    rfl
  fits := by
    rw [maxDataWords] at hdata
    show 2 + (if r.timestamp.isSome then 2 else 0) + 1 + r.dataVtr.length ≤ _
    split_ifs
    · omega
    · omega

theorem BulkEnv.accepts_writeRequests {env : BulkEnv} (hclient : env.clientClkRunning = true)
    (htimebase : env.timebaseClkRunning = true) (hlimit : 20 ≤ (requestLimit env.cfg).toNat)
    (block : Bool) (baseAddr : UInt32) (data : List UInt32) (timestamp : Option UInt64)
    (ack : Bool) : ∀ r ∈ writeRequests block baseAddr data timestamp ack, env.Accepts r :=
  fun r hr => env.accepts_of_limit hclient htimebase hlimit
    ((writeChunks block baseAddr data timestamp ack).size r hr).2

theorem BulkEnv.accepts_readRequests {env : BulkEnv} (hclient : env.clientClkRunning = true)
    (htimebase : env.timebaseClkRunning = true) (hlimit : 20 ≤ (requestLimit env.cfg).toNat)
    (block : Bool) (baseAddr : UInt32) (length : ℕ) (timestamp : Option UInt64) :
    ∀ r ∈ readRequests block baseAddr length timestamp, env.Accepts r := fun r hr => by
  refine env.accepts_of_limit hclient htimebase hlimit ?_
  rw [((readChunks block baseAddr length timestamp).bare r hr).1]
  exact Nat.zero_le _

/-- A device whose registers all hold a seven, behind a buffer of 1024 words. -/
def sevens : BulkEnv where
  cfg := ⟨1, 0, 1024, 1⟩
  answer r :=
    { r.pyld with
      isAck := true
      status := .okay
      dataVtr := List.replicate r.pyld.reqSize 7 }

theorem answers_sevens : sevens.Answers where
  key _ := rfl
  status _ := Or.inl rfl
  size _ _ := List.length_replicate

theorem start_arrivals (arrivals : List ℕ) : ({ arrivals := arrivals } : BulkWorld).Start where
  credits := rfl
  forceAcks := rfl
  requests _ h := absurd h List.not_mem_nil
  responses _ h := absurd h List.not_mem_nil
  issued := rfl

theorem readRequests_thirtyOne : readRequests true 16 31 none =
    [0, 15, 30].map (readRequest true 16 31 none) := by
  rw [readRequests, ← Nat.mul_zero maxDataWords,
    bulkOffsets_eq_map 0 (by decide : 31 ≤ maxDataWords * (0 + 3)) (by decide)]
  rfl

/-- Two words in excess of a packet are written, and one in excess of two packets is read while
responses arrive. -/
theorem bulkAccesses_sevens :
    WriteChunks true 16 (List.replicate 17 5) none true
        ((stateAfter (sevens.bulkWrite32 true 16 (List.replicate 17 5) none true
          { arrivals := [0, 1] })).issued.map Prod.fst) ∧
      sevens.ReadsWords true 16 31 none { arrivals := [0, 1] } := by
  obtain ⟨hwrite, hread⟩ := bulkAccesses_iff answers_sevens (start_arrivals [0, 1]) true 16 none
  refine ⟨(hwrite (List.replicate 17 5) true (sevens.accepts_writeRequests rfl rfl (by decide)
      true 16 (List.replicate 17 5) none true)).2,
    (hread 31 (sevens.accepts_readRequests rfl rfl (by decide) true 16 31 none)).2.1 ?_⟩
  rw [readRequests_thirtyOne]
  decide +kernel

/-- The offsets of the first 256 chunks. -/
def fullOffsets : List ℕ := (List.range 256).map fun j => maxDataWords * j

theorem readRequests_long : readRequests false 8 3841 none =
    fullOffsets.map (readRequest false 8 3841 none) ++ [readRequest false 8 3841 none 3840] := by
  have hoffsets : bulkOffsets 3841 (maxDataWords * 0) = fullOffsets ++ [3840] := by
    rw [bulkOffsets_eq_map 0 (by decide : 3841 ≤ maxDataWords * (0 + 257))
      (fun j hj => by rw [maxDataWords]; omega), ← List.range_eq_range', List.range_succ,
      List.map_append]
    rfl
  rw [readRequests, ← Nat.mul_zero maxDataWords, hoffsets, List.map_append, List.map_singleton]

theorem not_keysUnused_last : ¬ sevens.KeysUnused [readRequest false 8 3841 none 3840]
    (stateAfter (fullOffsets.mapM (sevens.fireRead false 8 3841 none) {})) := by
  decide +kernel

/-- A read of 257 chunks at one address times out: only one response with the key of the first and
the last is passed on. -/
theorem burst_read_times_out : ¬ ∀ (env : BulkEnv) (w : BulkWorld) (block : Bool)
    (baseAddr : UInt32) (length : ℕ) (timestamp : Option UInt64), env.Answers → w.Start →
    NoReadLeft w.ep → (∀ r ∈ readRequests block baseAddr length timestamp, env.Accepts r) →
    env.ReadsWords block baseAddr length timestamp w := by
  intro hall
  have haccepts := sevens.accepts_readRequests rfl rfl (by decide) false 8 3841 none
  have hstart := start_arrivals []
  have hleft : NoReadLeft ({ arrivals := [] } : BulkWorld).ep :=
    ⟨fun _ h => absurd h List.not_mem_nil, fun _ h => absurd h List.not_mem_nil⟩
  have hkeys := (sevens.bulkRead32_spec answers_sevens hstart haccepts).2.2 hleft
    (hall sevens _ false 8 3841 none answers_sevens hstart hleft haccepts)
  obtain ⟨w, new, hloop, hfired⟩ : ∃ w' new,
      fullOffsets.mapM (sevens.fireRead false 8 3841 none) { arrivals := [] } =
        .ok (new.map fun r => (r.pyld, r.pyld.reqSize)) w' ∧
      FiredReads sevens (fullOffsets.map (readRequest false 8 3841 none)) new { arrivals := [] } w' := by
    refine sevens.fireReads_spec answers_sevens fullOffsets hstart.credits (fun x hx => ?_)
      fun x hx => haccepts _ ?_
    · obtain ⟨j, hj, rfl⟩ := List.mem_map.mp hx
      rw [List.mem_range] at hj
      rw [maxDataWords]
      omega
    · rw [readRequests_long]
      exact List.mem_append_left _ (List.mem_map_of_mem hx)
  rw [readRequests_long] at hkeys
  have hlast := (hfired.unused _ hkeys hstart.flight).2
  have hnot := not_keysUnused_last
  rw [hloop] at hnot
  exact hnot hlast

end Rfnoc
end UhdHost
