import UhdHost.Rfnoc.CtrlportSystem

/-!
# Flow control of the control port endpoint

The endpoint may have at most `buff_capacity` words outstanding, less the room kept for
responses to asynchronous messages.  Credits are taken where a request is queued and given
back where a response pops requests from the queue, along two different paths.

`CreditInv` is the invariant that ties the two together: what counts as occupied is what
the queued requests occupy, and that stays within the limit.  A send function that throws
does not break it, because the request it failed to send stays in the queue and keeps its
credits; `not_restores_of_sendFails` is the other side of that coin.
-/

namespace UhdHost
namespace Rfnoc

open Transition

namespace CtrlportSystem

/-! ## The credit invariant -/

/-- The occupied words are those of the outstanding requests, within the limit. -/
structure CreditInv (cfg : EndpointConfig) (sys : CtrlportSystem) : Prop where
  occupied : sys.ep.buffOccupied = occupiedBy sys.ep.reqQueue
  limit : sys.ep.buffOccupied ≤ (requestLimit cfg).toNat

theorem creditInv_init (cfg : EndpointConfig) : CreditInv cfg {} :=
  ⟨rfl, Int.natCast_nonneg _⟩

theorem CreditInv.issue {cfg : EndpointConfig} {sys : CtrlportSystem} (h : CreditInv cfg sys)
    (thread : ℕ) (tx : CtrlPayload) (requireAck sendOk : Bool)
    (hfits : buffNotFull cfg sys.ep tx.getPayloadSize = true) :
    CreditInv cfg (sys.issue thread tx requireAck sendOk) where
  occupied := by
    rw [issue_buffOccupied, issue_reqQueue, h.occupied, occupiedBy_append, occupiedBy_cons,
      occupiedBy_nil]
    push_cast
    rw [add_zero]
  limit := by
    rw [issue_buffOccupied]
    simpa [buffNotFull] using hfits

theorem CreditInv.recv {cfg : EndpointConfig} {sys : CtrlportSystem} (h : CreditInv cfg sys)
    (rx : Tagged ℕ) : CreditInv cfg { sys with ep := handleAck sys.ep rx } := by
  rcases handleAck_cases sys.ep rx with ⟨hq, hocc, -, -⟩ | ⟨dropped, req, rest, hq, -, ha⟩
  · exact ⟨by rw [hocc, hq, h.occupied], by rw [hocc]; exact h.limit⟩
  · have hocc := ha.buffOccupied
    have hsplit : occupiedBy sys.ep.reqQueue =
        occupiedBy (dropped ++ [req]) + occupiedBy rest := by
      rw [hq, ← occupiedBy_append, List.append_assoc, List.singleton_append]
    have hold := h.occupied
    have hlim := h.limit
    refine ⟨?_, ?_⟩
    · show (handleAck sys.ep rx).buffOccupied = occupiedBy (handleAck sys.ep rx).reqQueue
      rw [ha.reqQueue]
      omega
    · show (handleAck sys.ep rx).buffOccupied ≤ _
      omega

theorem CreditInv.step {cfg : EndpointConfig} {sys sys' : CtrlportSystem} {a : CtrlportAction}
    (h : CreditInv cfg sys) (hstep : step cfg sys a = some sys') : CreditInv cfg sys' := by
  cases step_outcome hstep with
  | quiet _ _ hq =>
    exact ⟨by rw [hq.buffOccupied, hq.reqQueue, h.occupied], by rw [hq.buffOccupied]; exact h.limit⟩
  | issue thread tx requireAck sendOk _ _ _ hfits hs => exact hs ▸ h.issue _ _ _ _ hfits
  | recv o rx e _ _ _ _ hs => exact hs ▸ h.recv ⟨o, rx⟩
  | collect _ _ r req rest hc =>
    exact ⟨by rw [hc.buffOccupied, hc.reqQueue, h.occupied], by rw [hc.buffOccupied]; exact h.limit⟩

theorem creditInv_of_reachable {cfg : EndpointConfig} {sys : CtrlportSystem}
    (h : Reachable cfg sys) : CreditInv cfg sys := by
  obtain ⟨as, has⟩ := h
  exact run_invariant (fun _ _ _ => CreditInv.step) (creditInv_init cfg) has

theorem exists_credit_move {cfg : EndpointConfig} {sys sys' : CtrlportSystem}
    {a : CtrlportAction} (hstep : step cfg sys a = some sys') :
    ∃ entered popped, sys.ep.reqQueue ++ entered = popped ++ sys'.ep.reqQueue ∧
      sys'.ep.buffOccupied = sys.ep.buffOccupied + occupiedBy entered - occupiedBy popped := by
  cases step_outcome hstep with
  | quiet _ _ hq => exact ⟨[], [], by simp [hq.reqQueue], by simp [hq.buffOccupied]⟩
  | issue thread tx requireAck sendOk _ _ _ _ hs =>
    subst hs
    exact ⟨[⟨sys.issued.length, tx⟩], [], by simp, by simp⟩
  | recv o rx e _ _ _ _ hs =>
    subst hs
    rcases handleAck_cases sys.ep ⟨o, rx⟩ with ⟨hq, hocc, -, -⟩ | ⟨dropped, req, rest, hq, -, ha⟩
    · exact ⟨[], [], by simp [hq], by simp [hocc]⟩
    · refine ⟨[], dropped ++ [req], by simp [ha.reqQueue, hq], ?_⟩
      have hocc := ha.buffOccupied
      rw [occupiedBy_nil]
      show (handleAck sys.ep ⟨o, rx⟩).buffOccupied = _
      omega
  | collect _ _ r req rest hc => exact ⟨[], [], by simp [hc.reqQueue], by simp [hc.buffOccupied]⟩

theorem requestLimit_toNat {cfg : EndpointConfig}
    (hcap : asyncMessageSize.toNat * cfg.maxOutstandingAsyncMsgs.toNat ≤ cfg.buffCapacity.toNat) :
    (requestLimit cfg).toNat =
      cfg.buffCapacity.toNat - asyncMessageSize.toNat * cfg.maxOutstandingAsyncMsgs.toNat := by
  have hlt : asyncMessageSize.toNat * cfg.maxOutstandingAsyncMsgs.toNat < 2 ^ 64 :=
    Nat.lt_of_le_of_lt hcap cfg.buffCapacity.toNat_lt
  have hmul : (asyncMessageSize * cfg.maxOutstandingAsyncMsgs).toNat =
      asyncMessageSize.toNat * cfg.maxOutstandingAsyncMsgs.toNat := by
    rw [UInt64.toNat_mul, Nat.mod_eq_of_lt hlt]
  rw [requestLimit, UInt64.toNat_sub_of_le, hmul]
  exact UInt64.le_iff_toNat_le.mpr (hmul ▸ hcap)

/-! ## A send function that throws -/

/-- What the handler of the exception would have to restore: the request queue, the
occupancy, the wanted responses and the counter of sent requests. -/
structure Restores {ι : Type} (s s' : EndpointState ι) : Prop where
  reqQueue : s'.reqQueue = s.reqQueue
  buffOccupied : s'.buffOccupied = s.buffOccupied
  wantedAcks : s'.wantedAcks = s.wantedAcks
  ctrlSent : s'.ctrlSent = s.ctrlSent

/-- **No failed request is undone.**  Whatever the state and the request, after a send
function that throws nothing was transmitted, yet the request is in the queue and holds its
credits, and the statistics show it. -/
theorem not_restores_of_sendFails (cfg : EndpointConfig) (sys sys' : CtrlportSystem)
    (a : CtrlportAction) (tx : CtrlPayload) (hissuing : issuing cfg sys a = some tx)
    (hfails : a.sendFails = true) (h : step cfg sys a = some sys') :
    transmitted sys' = transmitted sys ∧ ¬ Restores sys.ep sys'.ep ∧
      getStats sys'.ep ≠ getStats sys.ep := by
  cases step_outcome h with
  | quiet hnone _ _ => exact absurd (hnone ▸ hissuing) (by simp)
  | collect hnone _ _ _ _ _ => exact absurd (hnone ▸ hissuing) (by simp)
  | recv o rx e ha _ _ _ _ => simp [ha, issuing] at hissuing
  | issue thread tx' requireAck sendOk _ _ hsend _ hs =>
    subst hs
    have hsend : sendOk = false := by simpa [hfails] using hsend.symm
    have hsize : 3 ≤ tx'.getPayloadSize := tx'.three_le_getPayloadSize
    refine ⟨?_, fun hr => ?_, fun hstats => ?_⟩
    · simp [transmitted, hsend]
    · simpa using hr.reqQueue
    · have hocc := congrArg RegisterIfaceStats.bufferFullness hstats
      simp only [getStats, issue_buffOccupied] at hocc
      omega

/-- A register write from the initial state whose send function throws: the request stays,
with its four words. -/
theorem not_restores_of_failing_poke :
    let cfg : EndpointConfig := ⟨1, 2, 16, 1⟩
    let a : CtrlportAction :=
      .fire 0 { opCode := .write, address := 8, dataVtr := [7] } true true false
    ∃ sys', step cfg {} a = some sys' ∧ sys'.ep.reqQueue.length = 1 ∧
      sys'.ep.buffOccupied = 4 ∧ ¬ Restores ({} : CtrlportSystem).ep sys'.ep := by
  intro cfg a
  have hstate : (step cfg {} a).map (fun sys => (sys.ep.reqQueue.length, sys.ep.buffOccupied)) =
      some (1, 4) := by decide
  obtain ⟨sys', hstep, hstate⟩ := Option.map_eq_some_iff.mp hstate
  rw [Prod.mk.injEq] at hstate
  refine ⟨sys', hstep, hstate.1, hstate.2, fun hr => ?_⟩
  have hlen := congrArg List.length hr.reqQueue
  rw [hstate.1] at hlen
  exact absurd hlen (by decide)

/-- The same call: every hypothesis holds of it. -/
theorem getStats_ne_of_failing_poke :
    let cfg : EndpointConfig := ⟨1, 2, 16, 1⟩
    let poke : CtrlRequest := { opCode := .write, address := 8, dataVtr := [7] }
    ∃ sys', step cfg {} (.fire 0 poke true true false) = some sys' ∧
      getStats sys'.ep ≠ getStats ({} : CtrlportSystem).ep := by
  intro cfg poke
  have hstep : (step cfg {} (.fire 0 poke true true false)).isSome = true := by decide
  obtain ⟨sys', hstep⟩ := Option.isSome_iff_exists.mp hstep
  exact ⟨sys', hstep, (not_restores_of_sendFails cfg {} sys' (.fire 0 poke true true false)
    (assemble cfg ({} : EndpointState ℕ) poke) (by decide) (by decide) hstep).2.2⟩

end CtrlportSystem
end Rfnoc
end UhdHost
