import UhdHost.Rfnoc.CtrlportSystem

/-!
# Which request a response belongs to

The endpoint tells responses apart by sequence number, operation code and address.  The
sequence number has 8 bits, so after 256 requests the same key comes around again, and a
response that was delayed for that long is taken for the response to the newer request.

## What holds always, and what holds while keys distinguish

Whatever happens, a client is only ever given a response that carries the key of its request
and was generated for a request with that key.  That the two requests are the same one needs
the key to be unused when a request is issued with it (`InUse`) and no response to be
delivered for anything but the latest request with its key (`KeysDistinguish`).

Both results are about the entries of the two queues and what they say about their origins,
so both are carried by one invariant, `Origins`, which is stated for an arbitrary relation
between origins and keys.
-/

namespace UhdHost
namespace Rfnoc

open Transition

/-- Every entry of the two queues has an origin that is related to its key. -/
structure Origins {ι : Type} (Q : ι → WantedAckKey → Prop) (s : EndpointState ι) : Prop where
  req : ∀ r ∈ s.reqQueue, Q r.origin r.pyld.key
  resp : ∀ e ∈ s.respQueue, Q e.1.origin e.1.pyld.key

theorem Origins.handleAck {ι : Type} {Q : ι → WantedAckKey → Prop} {s : EndpointState ι}
    (h : Origins Q s) {rx : Tagged ι} (hrx : Q rx.origin rx.pyld.key) :
    Origins Q (handleAck s rx) := by
  rcases handleAck_cases s rx with ⟨hreq, -, hresp, -⟩ | ⟨dropped, req, rest, hreq, -, ha⟩
  · exact ⟨by rw [hreq]; exact h.req, by rw [hresp]; exact h.resp⟩
  · have hmem : ∀ r, r ∈ dropped ∨ r ∈ rest → r ∈ s.reqQueue := by
      rintro r (hr | hr) <;> rw [hreq]
      · exact List.mem_append_left _ hr
      · exact List.mem_append_right _ (List.mem_cons_of_mem _ hr)
    refine ⟨fun r hr => ?_, fun e he => ?_⟩
    · rw [ha.reqQueue] at hr
      exact h.req r (hmem r (Or.inr hr))
    · rcases ha.respQueue e he with he | he
      · exact h.resp e he
      · rw [answers, List.mem_append, List.mem_map, List.mem_singleton] at he
        rcases he with ⟨r, hr, rfl⟩ | rfl
        · exact h.req r (hmem r (Or.inl hr))
        · exact hrx

theorem Origins.mono {ι : Type} {Q Q' : ι → WantedAckKey → Prop} {s s' : EndpointState ι}
    (h : Origins Q s) (hreq : s'.reqQueue = s.reqQueue)
    (hresp : ∀ e ∈ s'.respQueue, e ∈ s.respQueue) (hQ : ∀ o k, Q o k → Q' o k) :
    Origins Q' s' :=
  ⟨fun r hr => hQ _ _ (h.req r (hreq ▸ hr)), fun e he => hQ _ _ (h.resp e (hresp e he))⟩

namespace CtrlportSystem

/-- Request `i` was issued with the key. -/
def IssuedWith (sys : CtrlportSystem) (i : ℕ) (k : WantedAckKey) : Prop :=
  ∃ e, sys.issued[i]? = some e ∧ e.pyld.key = k

/-- Request `i` is the latest one that was issued with the key. -/
def LatestWith (sys : CtrlportSystem) (i : ℕ) (k : WantedAckKey) : Prop :=
  sys.IssuedWith i k ∧ ∀ j, sys.IssuedWith j k → j ≤ i

theorem LatestWith.unique {sys : CtrlportSystem} {i j : ℕ} {k : WantedAckKey}
    (hi : sys.LatestWith i k) (hj : sys.LatestWith j k) : i = j :=
  Nat.le_antisymm (hj.2 i hi.1) (hi.2 j hj.1)

theorem issuedWith_issue {sys : CtrlportSystem} {thread : ℕ} {tx : CtrlPayload}
    {requireAck sendOk : Bool} {i : ℕ} {k : WantedAckKey} :
    (sys.issue thread tx requireAck sendOk).IssuedWith i k ↔
      sys.IssuedWith i k ∨ i = sys.issued.length ∧ tx.key = k := by
  unfold IssuedWith
  rw [issue_issued]
  simp only [getElem?_concat_eq_some]
  constructor
  · rintro ⟨e, he | ⟨hi, rfl⟩, hk⟩
    · exact Or.inl ⟨e, he, hk⟩
    · exact Or.inr ⟨hi, hk⟩
  · rintro (⟨e, he, hk⟩ | ⟨hi, hk⟩)
    · exact ⟨e, Or.inl he, hk⟩
    · exact ⟨⟨tx, sendOk⟩, Or.inr ⟨hi, rfl⟩, hk⟩

theorem latestWith_issue_self (sys : CtrlportSystem) (thread : ℕ) (tx : CtrlPayload)
    (requireAck sendOk : Bool) :
    (sys.issue thread tx requireAck sendOk).LatestWith sys.issued.length tx.key := by
  refine ⟨issuedWith_issue.mpr (Or.inr ⟨rfl, rfl⟩), fun j hj => ?_⟩
  rcases issuedWith_issue.mp hj with ⟨e, he, -⟩ | ⟨rfl, -⟩
  · exact (List.getElem?_eq_some_iff.mp he).1.le
  · exact le_rfl

theorem LatestWith.issue {sys : CtrlportSystem} {i : ℕ} {k : WantedAckKey}
    (h : sys.LatestWith i k) {thread : ℕ} {tx : CtrlPayload} {requireAck sendOk : Bool}
    (hk : tx.key ≠ k) : (sys.issue thread tx requireAck sendOk).LatestWith i k := by
  refine ⟨issuedWith_issue.mpr (Or.inl h.1), fun j hj => ?_⟩
  rcases issuedWith_issue.mp hj with hj | ⟨-, hj⟩
  · exact h.2 j hj
  · exact absurd hj hk

/-! ## What holds in every reachable state -/

/-- The two queues hold responses to requests that were issued, and so do the answers given
to clients. -/
structure KeyInv (sys : CtrlportSystem) : Prop where
  queues : Origins sys.IssuedWith sys.ep
  returned : ∀ r ∈ sys.returned, sys.IssuedWith r.request r.response.pyld.key ∧
    sys.IssuedWith r.response.origin r.response.pyld.key

theorem keyInv_init : KeyInv {} :=
  ⟨⟨fun _ h => absurd h List.not_mem_nil, fun _ h => absurd h List.not_mem_nil⟩,
    fun _ h => absurd h List.not_mem_nil⟩

theorem KeyInv.step {cfg : EndpointConfig} {sys sys' : CtrlportSystem} {a : CtrlportAction}
    (h : KeyInv sys) (hstep : step cfg sys a = some sys') : KeyInv sys' := by
  cases step_outcome hstep with
  | quiet _ _ hq =>
    have hissued : ∀ i k, sys.IssuedWith i k → sys'.IssuedWith i k := fun i k => by
      unfold IssuedWith
      rw [hq.issued]
      exact id
    refine ⟨h.queues.mono hq.reqQueue (fun e he => hq.respQueue ▸ he) hissued, fun r hr => ?_⟩
    rw [hq.returned] at hr
    exact ⟨hissued _ _ (h.returned r hr).1, hissued _ _ (h.returned r hr).2⟩
  | issue thread tx requireAck sendOk _ _ _ _ hs =>
    subst hs
    have hold : ∀ i k, sys.IssuedWith i k →
        (sys.issue thread tx requireAck sendOk).IssuedWith i k :=
      fun i k hi => issuedWith_issue.mpr (Or.inl hi)
    refine ⟨⟨fun r hr => ?_, fun e he => ?_⟩, fun r hr => ?_⟩
    · rw [issue_reqQueue, List.mem_append, List.mem_singleton] at hr
      rcases hr with hr | rfl
      · exact hold _ _ (h.queues.req r hr)
      · exact issuedWith_issue.mpr (Or.inr ⟨rfl, rfl⟩)
    · rw [issue_respQueue] at he
      exact hold _ _ (h.queues.resp e he)
    · exact ⟨hold _ _ (h.returned r hr).1, hold _ _ (h.returned r hr).2⟩
  | recv o rx e _ hissued _ hkey hs =>
    subst hs
    exact ⟨h.queues.handleAck ⟨e, hissued, hkey.symm⟩, h.returned⟩
  | collect _ _ r req rest hc =>
    obtain ⟨hmem, hkey, hrest⟩ := takeResponse_eq_some hc.response
    have hissued : sys'.IssuedWith = sys.IssuedWith := by
      unfold IssuedWith
      rw [hc.issued]
    refine ⟨h.queues.mono hc.reqQueue (fun e he => hrest e (hc.respQueue ▸ he))
      (fun i k hi => hissued ▸ hi), fun r' hr' => ?_⟩
    rw [hissued]
    rw [hc.returned, List.mem_append, List.mem_singleton] at hr'
    rcases hr' with hr' | rfl
    · exact h.returned r' hr'
    · exact ⟨⟨req, hc.request, hkey.symm⟩, h.queues.resp _ hmem⟩

/-! ## What holds while keys distinguish -/

/-- A key is in use: an outstanding request has it, or a response nobody has collected, or a
request that a client can still be given a response to. -/
def InUse (sys : CtrlportSystem) (k : WantedAckKey) : Prop :=
  (∃ r ∈ sys.ep.reqQueue, r.pyld.key = k) ∨ (∃ e ∈ sys.ep.respQueue, e.1.pyld.key = k) ∨
    ∃ thread request, (sys.client thread).Awaits request ∧ sys.IssuedWith request k

/-- The action neither issues a request whose key is in use nor delivers a response for any
but the latest request with its key. -/
def KeysDistinguish (cfg : EndpointConfig) (sys : CtrlportSystem) (a : CtrlportAction) : Prop :=
  (∀ tx, issuing cfg sys a = some tx → ¬ sys.InUse tx.key) ∧
    ∀ o rx, a = .recvAck o rx → ∀ j, sys.IssuedWith j rx.key → j ≤ o

/-- What is queued or awaited belongs to the latest request with its key, and every answer
given to a client is its own. -/
structure OwnInv (sys : CtrlportSystem) : Prop where
  queues : Origins sys.LatestWith sys.ep
  awaited : ∀ thread request k, (sys.client thread).Awaits request →
    sys.IssuedWith request k → sys.LatestWith request k
  issued : ∀ thread request, (sys.client thread).Awaits request →
    request < sys.issued.length
  returned : ∀ r ∈ sys.returned, r.response.origin = r.request

theorem not_awaits_init (thread request : ℕ) :
    ¬ (({} : CtrlportSystem).client thread).Awaits request :=
  fun h => h.elim (fun h => absurd h List.not_mem_nil) fun h => ClientMode.noConfusion h

theorem ownInv_init : OwnInv {} where
  queues := ⟨fun _ h => absurd h List.not_mem_nil, fun _ h => absurd h List.not_mem_nil⟩
  awaited thread request _ h := absurd h (not_awaits_init thread request)
  issued thread request h := absurd h (not_awaits_init thread request)
  returned _ h := absurd h List.not_mem_nil

theorem awaits_of_step {cfg : EndpointConfig} {sys sys' : CtrlportSystem} {a : CtrlportAction}
    (h : step cfg sys a = some sys') {thread request : ℕ}
    (hawaits : (sys'.client thread).Awaits request) :
    (sys.client thread).Awaits request ∨
      request = sys.issued.length ∧ (issuing cfg sys a).isSome := by
  rcases clientsMove_of_step h with hclient | ⟨thread', c, hclient, hc⟩
  · exact Or.inl (hclient ▸ hawaits)
  · rw [hclient] at hawaits
    by_cases hthread : thread = thread'
    · subst hthread
      rw [Function.update_self] at hawaits
      exact hc.awaits request hawaits
    · rw [Function.update_of_ne hthread] at hawaits
      exact Or.inl hawaits

theorem OwnInv.of_issued_eq {cfg : EndpointConfig} {sys sys' : CtrlportSystem}
    {a : CtrlportAction} (h : OwnInv sys) (hstep : step cfg sys a = some sys')
    (hnone : issuing cfg sys a = none) (hissued : sys'.issued = sys.issued)
    (hqueues : Origins sys.LatestWith sys'.ep)
    (hreturned : ∀ r ∈ sys'.returned, r.response.origin = r.request) : OwnInv sys' := by
  have hwith : sys'.IssuedWith = sys.IssuedWith := by
    unfold IssuedWith
    rw [hissued]
  have hlatest : sys'.LatestWith = sys.LatestWith := by
    unfold LatestWith
    rw [hwith]
  have hawaits : ∀ thread request, (sys'.client thread).Awaits request →
      (sys.client thread).Awaits request := fun thread request hr =>
    (awaits_of_step hstep hr).resolve_right fun hnew => by simp [hnone] at hnew
  refine ⟨hlatest ▸ hqueues, fun thread request k hr hk => ?_, fun thread request hr => ?_,
    hreturned⟩
  · rw [hlatest]
    exact h.awaited thread request k (hawaits thread request hr) (hwith ▸ hk)
  · rw [hissued]
    exact h.issued thread request (hawaits thread request hr)

theorem OwnInv.issue {cfg : EndpointConfig} {sys : CtrlportSystem} {a : CtrlportAction}
    (h : OwnInv sys) {thread : ℕ} {tx : CtrlPayload} {requireAck sendOk : Bool}
    (hunused : ¬ sys.InUse tx.key)
    (hstep : step cfg sys a = some (sys.issue thread tx requireAck sendOk)) :
    OwnInv (sys.issue thread tx requireAck sendOk) where
  queues := by
    refine ⟨fun r hr => ?_, fun e he => ?_⟩
    · rw [issue_reqQueue, List.mem_append, List.mem_singleton] at hr
      rcases hr with hr | rfl
      · exact (h.queues.req r hr).issue fun hk => hunused (Or.inl ⟨r, hr, hk.symm⟩)
      · exact latestWith_issue_self ..
    · rw [issue_respQueue] at he
      exact (h.queues.resp e he).issue fun hk => hunused (Or.inr (Or.inl ⟨e, he, hk.symm⟩))
  awaited thread' request k hr hk := by
    rcases awaits_of_step hstep hr with hr | ⟨rfl, -⟩
    · have hlt := h.issued thread' request hr
      have hk : sys.IssuedWith request k :=
        (issuedWith_issue.mp hk).resolve_right fun hnew => absurd hnew.1 (by omega)
      exact (h.awaited thread' request k hr hk).issue fun htx =>
        hunused (Or.inr (Or.inr ⟨thread', request, hr, htx ▸ hk⟩))
    · rcases issuedWith_issue.mp hk with ⟨e, he, -⟩ | ⟨-, rfl⟩
      · exact absurd (List.getElem?_eq_some_iff.mp he).1 (Nat.lt_irrefl _)
      · exact latestWith_issue_self ..
  issued thread' request hr := by
    rw [issue_issued, List.length_append, List.length_singleton]
    rcases awaits_of_step hstep hr with hr | ⟨rfl, -⟩
    · have hlt := h.issued thread' request hr
      omega
    · exact Nat.lt_succ_self _
  returned := h.returned

theorem OwnInv.step {cfg : EndpointConfig} {sys sys' : CtrlportSystem} {a : CtrlportAction}
    (h : OwnInv sys) (hgood : KeysDistinguish cfg sys a)
    (hstep : step cfg sys a = some sys') : OwnInv sys' := by
  cases step_outcome hstep with
  | quiet hnone _ hq =>
    refine h.of_issued_eq hstep hnone hq.issued ?_ (hq.returned ▸ h.returned)
    exact h.queues.mono hq.reqQueue (fun e he => hq.respQueue ▸ he) fun _ _ => id
  | issue thread tx requireAck sendOk hissuing _ _ _ hs =>
    subst hs
    exact h.issue (hgood.1 tx hissuing) hstep
  | recv o rx e ha hissued _ hkey hs =>
    subst hs
    refine h.of_issued_eq hstep (by rw [ha]; rfl) rfl ?_ h.returned
    exact h.queues.handleAck ⟨⟨e, hissued, hkey.symm⟩, hgood.2 o rx ha⟩
  | collect hnone _ r req rest hc =>
    obtain ⟨hmem, hkey, hrest⟩ := takeResponse_eq_some hc.response
    refine h.of_issued_eq hstep hnone hc.issued ?_ fun r' hr' => ?_
    · exact h.queues.mono hc.reqQueue (fun e he => hrest e (hc.respQueue ▸ he)) fun _ _ => id
    · rw [hc.returned, List.mem_append, List.mem_singleton] at hr'
      rcases hr' with hr' | rfl
      · exact h.returned r' hr'
      · -- the request and the origin of the response are both the latest with one key
        obtain ⟨thread, hawaits⟩ := hc.awaited
        have hreq := h.awaited thread r'.request _ hawaits ⟨req, hc.request, hkey.symm⟩
        exact (h.queues.resp _ hmem).unique hreq

/-- **Responses and requests.**  A client is only given a response that carries the key of
its request and was generated for a request with that key; and that is the client's own
request, as long as keys distinguish. -/
theorem response_of_returned (cfg : EndpointConfig) (as : List CtrlportAction)
    (sys : CtrlportSystem) (h : run (step cfg) {} as = some sys) :
    (∀ r ∈ sys.returned, sys.IssuedWith r.request r.response.pyld.key ∧
      sys.IssuedWith r.response.origin r.response.pyld.key) ∧
    (EveryStep (step cfg) (KeysDistinguish cfg) {} as →
      ∀ r ∈ sys.returned, r.response.origin = r.request) := by
  refine ⟨?_, fun hgood => ?_⟩
  · exact (run_invariant (I := KeyInv) (fun _ _ _ => KeyInv.step) keyInv_init h).returned
  · exact (run_invariant_of_everyStep (I := OwnInv) (fun _ _ _ => OwnInv.step) ownInv_init
      hgood h).returned

/-! ## A response that is 256 requests late -/

/-- A register read. -/
def peek : CtrlRequest := { opCode := .read, address := 4, reqSize := 1 }

/-- A response to `peek` with a sequence number and the word that was read. -/
def peekAck (seqNum : UInt8) (word : UInt32) : CtrlPayload :=
  { seqNum := seqNum, isAck := true, opCode := .read, address := 4, dataVtr := [word] }

/-- One read whose response arrives and is collected. -/
theorem response_of_one_peek : ∃ sys, run (step ⟨1, 2, 1024, 1⟩) {}
    [.fire 0 peek true true true, .recvAck 0 (peekAck 0 5), .collect 0 0] = some sys ∧
      sys.returned.length = 1 ∧ ∀ r ∈ sys.returned, r.response.origin = r.request := by
  have hlen : (run (step ⟨1, 2, 1024, 1⟩) {} [.fire 0 peek true true true,
      .recvAck 0 (peekAck 0 5), .collect 0 0]).map (fun sys => sys.returned.length) =
      some 1 := by decide
  obtain ⟨sys, hrun, hlen⟩ := Option.map_eq_some_iff.mp hlen
  refine ⟨sys, hrun, hlen, (response_of_returned _ _ sys hrun).2 ?_⟩
  refine ⟨⟨fun tx _ => ?_, fun _ _ => nofun⟩, fun sys₁ h₁ => ⟨⟨fun tx htx => ?_, ?_⟩,
    fun sys₂ _ => ⟨⟨fun tx htx => ?_, fun _ _ => nofun⟩, fun _ _ => trivial⟩⟩⟩
  · rintro (⟨r, hr, -⟩ | ⟨e, he, -⟩ | ⟨thread, request, hr, -⟩)
    · exact absurd hr List.not_mem_nil
    · exact absurd he List.not_mem_nil
    · exact not_awaits_init thread request hr
  · cases htx
  · rintro o rx ha j ⟨e, he, -⟩
    rw [CtrlportAction.recvAck.injEq] at ha
    have hissued : (step ⟨1, 2, 1024, 1⟩ {} (.fire 0 peek true true true)).map
        (fun sys => sys.issued.length) = some 1 := by decide
    rw [h₁, Option.map_some, Option.some_inj] at hissued
    have hlt := (List.getElem?_eq_some_iff.mp he).1
    omega
  · cases htx

/-- A register write without a wanted response, and the response to it. -/
def writeNoAck (i : ℕ) : List CtrlportAction :=
  [.fire 0 { opCode := .write, address := 8, dataVtr := [7], requireAck := false } true true true,
    .recvAck i { seqNum := UInt8.ofNat i, isAck := true, opCode := .write, address := 8,
                 dataVtr := [] }]

/-- One read, whose response is collected; 255 writes; and the same read again, to which the
network delivers a second copy of the first response. -/
def lateDuplicate : List CtrlportAction :=
  [.fire 0 peek true true true, .recvAck 0 (peekAck 0 5), .collect 0 0] ++
    (List.range 255).flatMap (fun i => writeNoAck (i + 1)) ++
    [.fire 0 peek true true true, .recvAck 0 (peekAck 0 5), .collect 0 256]

/-- **A response from 256 requests ago** is returned for the newest request. -/
theorem late_response_returned :
    ∃ sys, run (step ⟨1, 2, 1024, 1⟩) {} lateDuplicate = some sys ∧
      ∃ r ∈ sys.returned, r.request = 256 ∧ r.response.origin = 0 := by
  have hret : (run (step ⟨1, 2, 1024, 1⟩) {} lateDuplicate).map
      (fun sys => sys.returned.map fun r => (r.request, r.response.origin)) =
      some [(0, 0), (256, 0)] := by decide +kernel
  obtain ⟨sys, hrun, hret⟩ := Option.map_eq_some_iff.mp hret
  have hmem : (256, 0) ∈ sys.returned.map fun r => (r.request, r.response.origin) := by
    rw [hret]
    decide
  obtain ⟨r, hr, heq⟩ := List.mem_map.mp hmem
  rw [Prod.mk.injEq] at heq
  exact ⟨sys, hrun, r, hr, heq.1, heq.2⟩

end CtrlportSystem
end Rfnoc
end UhdHost
