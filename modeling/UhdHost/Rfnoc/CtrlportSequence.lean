import UhdHost.Rfnoc.CtrlportSystem

/-!
# Sequence numbers of the transmitted requests

A request takes its sequence number from `_ctrl_sent` when its payload is assembled, and
`_ctrl_sent` advances when the send function returns.  In between lies the wait for room in
the downstream buffer, which gives up the lock: whoever transmits during that wait takes the
same number.

## The exact condition

The numbers are right as long as every client that resumes from the wait finds `_ctrl_sent`
where it left it, up to multiples of the 256 numbers there are (`ResumesInTurn`).
`seqNum_transmitted_iff` says that this is not only enough but also needed, and
`seqNum_reused` is a run of two clients in which it fails.
-/

namespace UhdHost
namespace Rfnoc

open Transition

theorem seqNum_assemble {ι : Type} (cfg : EndpointConfig) (s : EndpointState ι)
    (r : CtrlRequest) : (assemble cfg s r).seqNum.toNat = s.ctrlSent % 256 := by
  have hmask : s.ctrlSent &&& seqNumMask = s.ctrlSent % 256 :=
    Nat.and_two_pow_sub_one_eq_mod s.ctrlSent 8
  rw [assemble, hmask, UInt8.toNat_ofNat', Nat.mod_mod]

namespace CtrlportSystem

/-- A client that resumes from the wait finds `_ctrl_sent`, modulo 256, as it was when the
client blocked.  Only a send that succeeds counts. -/
def ResumesInTurn (sys : CtrlportSystem) : CtrlportAction → Prop
  | .resume thread true => ∀ tx requireAck sentBefore,
      (sys.client thread).mode = .blockedOnBuff tx requireAck sentBefore →
      sys.ep.ctrlSent % 256 = sentBefore % 256
  | _ => True

/-- `_ctrl_sent` counts the transmitted requests, and a blocked client holds the number that
was current when it blocked. -/
structure SeqInv (sys : CtrlportSystem) : Prop where
  sent : sys.ep.ctrlSent = (transmitted sys).length
  blocked : ∀ thread tx requireAck sentBefore,
    (sys.client thread).mode = .blockedOnBuff tx requireAck sentBefore →
    tx.seqNum.toNat = sentBefore % 256

theorem seqInv_init : SeqInv {} := ⟨rfl, fun _ _ _ _ h => nomatch h⟩

/-! ## What a step does to the log and to the blocked clients -/

theorem transmitted_issue (sys : CtrlportSystem) (thread : ℕ) (tx : CtrlPayload)
    (requireAck sendOk : Bool) : transmitted (sys.issue thread tx requireAck sendOk) =
      transmitted sys ++ (if sendOk then [tx] else []) := by
  cases sendOk <;> simp [transmitted]

theorem transmitted_of_step {cfg : EndpointConfig} {sys sys' : CtrlportSystem}
    {a : CtrlportAction} (h : step cfg sys a = some sys') :
    (transmitted sys' = transmitted sys ∧ sys'.ep.ctrlSent = sys.ep.ctrlSent ∧
        (issuing cfg sys a = none ∨ a.sendFails = true)) ∨
      ∃ tx, issuing cfg sys a = some tx ∧ a.sendFails = false ∧
        transmitted sys' = transmitted sys ++ [tx] ∧
        sys'.ep.ctrlSent = sys.ep.ctrlSent + 1 := by
  cases step_outcome h with
  | quiet hissuing _ hq =>
    exact Or.inl ⟨by rw [transmitted, transmitted, hq.issued], hq.ctrlSent, Or.inl hissuing⟩
  | issue thread tx requireAck sendOk hissuing _ hsend _ hs =>
    subst hs
    cases sendOk with
    | false => exact Or.inl ⟨by simp [transmitted_issue], by simp [issue_ctrlSent], Or.inr hsend⟩
    | true =>
      exact Or.inr ⟨tx, hissuing, hsend, by simp [transmitted_issue], by simp [issue_ctrlSent]⟩
  | recv o rx e ha _ _ _ hs =>
    subst hs
    refine Or.inl ⟨rfl, ?_, Or.inl (by rw [ha]; rfl)⟩
    rcases handleAck_cases sys.ep ⟨o, rx⟩ with ⟨-, -, -, hsent⟩ | ⟨_, _, _, -, -, ha⟩
    · exact hsent
    · exact ha.ctrlSent
  | collect hissuing _ r req rest hc =>
    exact Or.inl ⟨by rw [transmitted, transmitted, hc.issued], hc.ctrlSent, Or.inl hissuing⟩

theorem transmitted_prefix_of_step (cfg : EndpointConfig) (sys : CtrlportSystem)
    (a : CtrlportAction) (sys' : CtrlportSystem) (h : step cfg sys a = some sys') :
    transmitted sys <+: transmitted sys' := by
  rcases transmitted_of_step h with ⟨hlog, -⟩ | ⟨tx, -, -, hlog, -⟩
  · rw [hlog]
  · exact hlog ▸ List.prefix_append ..

theorem issuing_cases {cfg : EndpointConfig} {sys : CtrlportSystem} {a : CtrlportAction}
    {tx : CtrlPayload} (h : issuing cfg sys a = some tx) :
    (∃ thread r clk timebase sendOk, a = .fire thread r clk timebase sendOk ∧
        tx = assemble cfg sys.ep r) ∨
      ∃ thread sendOk requireAck sentBefore, a = .resume thread sendOk ∧
        (sys.client thread).mode = .blockedOnBuff tx requireAck sentBefore := by
  cases a with
  | fire thread r clk timebase sendOk =>
    simp only [issuing] at h
    split_ifs at h
    rw [Option.some_inj] at h
    exact Or.inl ⟨thread, r, clk, timebase, sendOk, rfl, h.symm⟩
  | resume thread sendOk =>
    simp only [issuing] at h
    cases hmode : (sys.client thread).mode with
    | idle => simp [hmode] at h
    | waitingForAck request => simp [hmode] at h
    | blockedOnBuff tx' requireAck sentBefore =>
      simp only [hmode] at h
      split_ifs at h
      rw [Option.some_inj] at h
      subst h
      exact Or.inr ⟨thread, sendOk, requireAck, sentBefore, rfl, hmode⟩
  | _ => simp [issuing] at h

theorem issuing_of_resume {cfg : EndpointConfig} {sys sys' : CtrlportSystem} {thread : ℕ}
    {sendOk : Bool} (h : step cfg sys (.resume thread sendOk) = some sys') :
    ∃ tx, issuing cfg sys (.resume thread sendOk) = some tx := by
  simp only [step] at h
  simp only [issuing]
  cases hmode : (sys.client thread).mode with
  | idle => simp [hmode] at h
  | waitingForAck request => simp [hmode] at h
  | blockedOnBuff tx requireAck sentBefore =>
    simp only [hmode] at h
    split_ifs at h with hfits
    exact ⟨tx, by simp [hfits]⟩

theorem blockedOnBuff_of_step {cfg : EndpointConfig} {sys sys' : CtrlportSystem}
    {a : CtrlportAction} (h : step cfg sys a = some sys') {thread : ℕ} {tx : CtrlPayload}
    {requireAck : Bool} {sentBefore : ℕ}
    (hmode : (sys'.client thread).mode = .blockedOnBuff tx requireAck sentBefore) :
    (sys.client thread).mode = .blockedOnBuff tx requireAck sentBefore ∨
      (∃ r, tx = assemble cfg sys.ep r) ∧ sentBefore = sys.ep.ctrlSent := by
  rcases clientsMove_of_step h with hclient | ⟨thread', c, hclient, hc⟩
  · exact Or.inl (hclient ▸ hmode)
  · rw [hclient] at hmode
    by_cases hthread : thread = thread'
    · subst hthread
      rw [Function.update_self] at hmode
      exact Or.inr (hc.blocked tx requireAck sentBefore hmode)
    · rw [Function.update_of_ne hthread] at hmode
      exact Or.inl hmode

theorem SeqInv.step {cfg : EndpointConfig} {sys sys' : CtrlportSystem} {a : CtrlportAction}
    (hinv : SeqInv sys) (h : step cfg sys a = some sys') : SeqInv sys' where
  sent := by
    rcases transmitted_of_step h with ⟨hlog, hsent, -⟩ | ⟨tx, -, -, hlog, hsent⟩
    · rw [hlog, hsent, hinv.sent]
    · rw [hlog, hsent, hinv.sent, List.length_append, List.length_singleton]
  blocked thread tx requireAck sentBefore hmode := by
    rcases blockedOnBuff_of_step h hmode with hmode | ⟨⟨r, rfl⟩, rfl⟩
    · exact hinv.blocked thread tx requireAck sentBefore hmode
    · exact seqNum_assemble cfg sys.ep r

theorem resumesInTurn_iff {cfg : EndpointConfig} {sys sys' : CtrlportSystem}
    {a : CtrlportAction} (hinv : SeqInv sys) (h : step cfg sys a = some sys') :
    ResumesInTurn sys a ↔ ∀ i tx, (transmitted sys).length ≤ i →
      (transmitted sys')[i]? = some tx → tx.seqNum.toNat = i % 256 := by
  rcases transmitted_of_step h with ⟨hlog, -, hnone⟩ | ⟨tx, hissuing, hsend, hlog, -⟩
  · refine ⟨fun _ i tx hi htx => ?_, fun _ => ?_⟩
    · rw [hlog, List.getElem?_eq_none hi] at htx
      cases htx
    · -- a client that resumes and whose send succeeds does transmit
      match a, hnone with
      | .resume thread true, hnone =>
        obtain ⟨tx, hissuing⟩ := issuing_of_resume h
        rcases hnone with hnone | hfails
        · exact absurd (hnone ▸ hissuing) (by simp)
        · cases hfails
      | .resume thread false, _ => trivial
      | .fire .., _ => trivial
      | .buffTimeout _, _ => trivial
      | .recvAck .., _ => trivial
      | .recvAsync .., _ => trivial
      | .setPolicy, _ => trivial
      | .collect .., _ => trivial
      | .wake _, _ => trivial
      | .ackTimeout _, _ => trivial
  · have hnew : (∀ i x, (transmitted sys).length ≤ i → (transmitted sys')[i]? = some x →
        x.seqNum.toNat = i % 256) ↔ tx.seqNum.toNat = (transmitted sys).length % 256 := by
      rw [hlog]
      refine ⟨fun hall => hall _ tx le_rfl (by simp), fun htx i x hi hx => ?_⟩
      rcases getElem?_concat_eq_some.mp hx with hx | ⟨rfl, rfl⟩
      · exact absurd (List.getElem?_eq_some_iff.mp hx).1 (Nat.not_lt.mpr hi)
      · exact htx
    rw [hnew, ← hinv.sent]
    rcases issuing_cases hissuing with ⟨thread, r, clk, timebase, sendOk, rfl, rfl⟩ |
      ⟨thread, sendOk, requireAck, sentBefore, rfl, hmode⟩
    · exact ⟨fun _ => seqNum_assemble cfg sys.ep r, fun _ => trivial⟩
    · obtain rfl : sendOk = true := by simpa [CtrlportAction.sendFails] using hsend
      have hblocked := hinv.blocked thread tx requireAck sentBefore hmode
      constructor
      · intro hturn
        rw [hblocked, hturn tx requireAck sentBefore hmode]
      · intro htx tx' requireAck' sentBefore' hmode'
        rw [hmode, ClientMode.blockedOnBuff.injEq] at hmode'
        rw [← hmode'.2.2, ← hblocked, htx]

/-! ## Whole runs -/

/-- **The sequence numbers of a run.**  The `i`-th transmitted request carries `i` modulo
256, for every `i`, exactly when every client that resumes does so in turn. -/
theorem seqNum_transmitted_iff (cfg : EndpointConfig) (as : List CtrlportAction)
    (sys : CtrlportSystem) (h : run (step cfg) {} as = some sys) :
    (∀ i tx, (transmitted sys)[i]? = some tx → tx.seqNum.toNat = i % 256) ↔
      EveryStep (step cfg) ResumesInTurn {} as := by
  rw [← run_log_iff_everyStep (I := SeqInv) (P := fun i tx => tx.seqNum.toNat = i % 256)
    (fun _ _ _ => SeqInv.step) (transmitted_prefix_of_step cfg)
    (fun _ _ _ => resumesInTurn_iff) seqInv_init h]
  exact ⟨fun hall i tx _ => hall i tx, fun hall i tx => hall i tx (Nat.zero_le i)⟩

/-! ## Two clients -/

/-- A register write of one word, four words on the wire. -/
def poke : CtrlRequest := { opCode := .write, address := 8, dataVtr := [7] }

/-- A block write of four words, seven words on the wire. -/
def blockPoke : CtrlRequest := { opCode := .blockWrite, address := 16, dataVtr := [1, 2, 3, 4] }

/-- The response to `poke` with a sequence number. -/
def pokeAck (seqNum : UInt8) : CtrlPayload :=
  { seqNum := seqNum, isAck := true, opCode := .write, address := 8, dataVtr := [] }

/-- A client blocks with a large request, another one transmits a small request that still
fits, and the first one resumes. -/
def overtaken : List CtrlportAction :=
  [.fire 0 poke true true true, .fire 1 blockPoke true true true, .fire 2 poke true true true,
    .recvAck 0 (pokeAck 0), .recvAck 1 (pokeAck 1), .resume 1 true]

/-- **A sequence number that is used twice**: the second and the third request of this run
both carry 1. -/
theorem seqNum_reused : ∃ sys, run (step ⟨1, 2, 16, 1⟩) {} overtaken = some sys ∧
    (transmitted sys).map (fun tx => tx.seqNum) = [0, 1, 1] ∧
    ¬ ∀ i tx, (transmitted sys)[i]? = some tx → tx.seqNum.toNat = i % 256 := by
  have hseq : (run (step ⟨1, 2, 16, 1⟩) {} overtaken).map
      (fun sys => (transmitted sys).map fun tx => tx.seqNum) = some [0, 1, 1] := by decide
  obtain ⟨sys, hrun, hseq⟩ := Option.map_eq_some_iff.mp hseq
  refine ⟨sys, hrun, hseq, fun hall => ?_⟩
  have hget : ((transmitted sys).map fun tx => tx.seqNum)[2]? = some 1 := by rw [hseq]; rfl
  rw [List.getElem?_map, Option.map_eq_some_iff] at hget
  obtain ⟨tx, htx, hone⟩ := hget
  have hbad := hall 2 tx htx
  rw [hone] at hbad
  exact absurd hbad (by decide)

/-- Nothing is transmitted while the client is blocked: it resumes in turn. -/
theorem everyStep_of_undisturbed_wait : EveryStep (step ⟨1, 2, 16, 1⟩) ResumesInTurn {}
    [.fire 0 poke true true true, .fire 1 blockPoke true true true, .recvAck 0 (pokeAck 0),
      .resume 1 true] := by
  have hseq : (run (step ⟨1, 2, 16, 1⟩) {} [.fire 0 poke true true true,
      .fire 1 blockPoke true true true, .recvAck 0 (pokeAck 0), .resume 1 true]).map
      (fun sys => (transmitted sys).map fun tx => tx.seqNum) = some [0, 1] := by decide
  obtain ⟨sys, hrun, hseq⟩ := Option.map_eq_some_iff.mp hseq
  refine (seqNum_transmitted_iff _ _ sys hrun).mp fun i tx htx => ?_
  have hget : ((transmitted sys).map fun tx => tx.seqNum)[i]? = some tx.seqNum := by
    rw [List.getElem?_map, htx, Option.map_some]
  rw [hseq] at hget
  match i, hget with
  | 0, hget => rw [← Option.some_inj.mp hget]; rfl
  | 1, hget => rw [← Option.some_inj.mp hget]; rfl

end CtrlportSystem
end Rfnoc
end UhdHost
