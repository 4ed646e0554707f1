import UhdHost.Transport.TxBurstStart

/-!
# End-of-vector positions that are not valid

`send` takes the end-of-vector positions of its metadata one at a time, and checks each of them when
its turn comes.  By then the segments before it are sent, and the cached metadata is consumed.  The
positions after the last sample are not looked at.

So a list is rejected before anything was done only where its first position is not valid
(`rejected_iff`): past the first, a packet was sent, or the call has ended without an exception
(`sendLoop_of_first`).
-/

namespace UhdHost
namespace Transport
namespace TxStreamer

variable {κ α β : Type} {cfg : TxStreamerConfig κ α β} {call : TxSendCall κ α}
  {st : TxSendLoop κ β}

/-- The end-of-vector positions are not valid somewhere. -/
def EovInvalid (call : TxSendCall κ α) : Prop :=
  ¬ call.metadata.eovPositions.Pairwise (· < ·) ∨
    ∃ p ∈ call.metadata.eovPositions, call.nsampsPerBuff < p

/-- **What is claimed**: the call throws, and neither sends a packet nor consumes the cached
metadata. -/
def Rejected (cfg : TxStreamerConfig κ α β) (s : TxStreamer κ β) (call : TxSendCall κ α) : Prop :=
  ∃ e, (send cfg s call).2 = .error e ∧ (send cfg s call).1.sent = s.sent ∧
    (send cfg s call).1.metadataCache = s.metadataCache

/-- **The condition**: no sequence error is pending, and a channel is not connected, or nothing is
cached and the first position is not valid. -/
def RejectedAtOnce (cfg : TxStreamerConfig κ α β) (s : TxStreamer κ β)
    (call : TxSendCall κ α) : Prop :=
  call.sequenceError = false ∧
    (cfg.allChansConnected = false ∨
      ¬ Caches call ∧ s.metadataCache = none ∧
        ∃ p positions, call.metadata.eovPositions = p :: positions ∧
          (p = 0 ∨ call.nsampsPerBuff < p))

/-! ## What is sent stays sent -/

theorem sendFragments_grows (call : TxSendCall κ α) (numFragments : ℕ) (st : TxSendLoop κ β) :
    st.sent <+: (sendFragments cfg call numFragments st).1.sent := by
  induction numFragments generalizing st with
  | zero => exact List.prefix_rfl
  | succ numFragments ih =>
    rw [sendFragments]
    split
    · exact List.prefix_rfl
    · rename_i packet _
      have hnext : ∀ next : TxSendLoop κ β, next.sent = st.sent ++ [packet] →
          st.sent <+: (sendFragments cfg call numFragments next).1.sent := by
        intro next hsent
        have hgrows := ih next
        rw [hsent] at hgrows
        exact (List.prefix_append st.sent [packet]).trans hgrows
      dsimp only
      split_ifs
      · exact List.prefix_append _ _
      · exact hnext _ rfl

theorem sendSegment_grows (call : TxSendCall κ α) (eobOnLastPacket : Bool) (nsampsToSend : ℕ)
    (eov : Bool) (st : TxSendLoop κ β) :
    st.sent <+: (sendSegment cfg call eobOnLastPacket nsampsToSend eov st).1.sent ∧
      ((sendSegment cfg call eobOnLastPacket nsampsToSend eov st).2 = none →
        (sendSegment cfg call eobOnLastPacket nsampsToSend eov st).1.sent ≠ []) := by
  rw [sendSegment]
  split_ifs
  · split
    · exact ⟨List.prefix_rfl, fun h => absurd h (Option.some_ne_none 0)⟩
    · exact ⟨List.prefix_append _ _, fun h => absurd h (Option.some_ne_none 0)⟩
  · dsimp only
    split
    · exact ⟨List.prefix_rfl, fun h => absurd h (Option.some_ne_none _)⟩
    · exact ⟨List.prefix_append _ _, fun _ => List.append_ne_nil_of_right_ne_nil _
        (List.cons_ne_nil _ _)⟩
  · have hfragments := @sendFragments_grows κ α β cfg call ((nsampsToSend - 1) / cfg.spp)
      { st with metadata := { st.metadata with endOfBurst := false } }
    dsimp only
    split
    · rename_i hsent
      rw [hsent] at hfragments
      exact ⟨hfragments, fun h => absurd h (Option.some_ne_none _)⟩
    · rename_i last hsent
      rw [hsent] at hfragments
      split
      · exact ⟨hfragments, fun h => absurd h (Option.some_ne_none _)⟩
      · exact ⟨hfragments.trans (List.prefix_append _ _), fun _ =>
          List.append_ne_nil_of_right_ne_nil _ (List.cons_ne_nil _ _)⟩

theorem sendLoop_grows (call : TxSendCall κ α) (eobOnLastPacket : Bool) (eovPositions : List ℕ)
    (lastEovPosition : ℕ) (st : TxSendLoop κ β) :
    st.sent <+: (sendLoop cfg call eobOnLastPacket eovPositions lastEovPosition st).1.sent := by
  induction eovPositions generalizing st lastEovPosition with
  | nil =>
    have hsegment := (@sendSegment_grows κ α β cfg call eobOnLastPacket st.remaining false st).1
    rw [sendLoop]
    split
    all_goals
      rename_i hsent
      rw [hsent] at hsegment
      exact hsegment
  | cons position positions ih =>
    have hsegment := (@sendSegment_grows κ α β cfg call eobOnLastPacket
      (position - lastEovPosition) true st).1
    rw [sendLoop]
    split_ifs
    · exact List.prefix_rfl
    · exact List.prefix_rfl
    · split
      · rename_i hsent
        rw [hsent] at hsegment
        exact hsegment
      · rename_i hsent
        rw [hsent] at hsegment
        split_ifs
        · exact hsegment.trans (ih _ _)
        · exact hsegment

/-! ## The first position -/

theorem sendLoop_of_first_invalid (call : TxSendCall κ α) (eobOnLastPacket : Bool) {p : ℕ}
    (positions : List ℕ) (st : TxSendLoop κ β) (h : p = 0 ∨ call.nsampsPerBuff < p) :
    ∃ e, sendLoop cfg call eobOnLastPacket (p :: positions) 0 st = (st, .error e) := by
  rw [sendLoop]
  split_ifs with hfirst hwithin
  · exact ⟨_, rfl⟩
  · exact ⟨_, rfl⟩
  · rcases h with rfl | h
    · exact absurd (le_refl 0) hfirst
    · exact absurd h hwithin

theorem sendLoop_of_first (call : TxSendCall κ α) (eobOnLastPacket : Bool) {p : ℕ}
    (positions : List ℕ) (st : TxSendLoop κ β) (hp : p ≠ 0) (hwithin : p ≤ call.nsampsPerBuff) :
    (∃ n, (sendLoop cfg call eobOnLastPacket (p :: positions) 0 st).2 = .ok n) ∨
      (sendLoop cfg call eobOnLastPacket (p :: positions) 0 st).1.sent ≠ [] := by
  have hsegment := (@sendSegment_grows κ α β cfg call eobOnLastPacket (p - 0) true st).2
  rw [sendLoop, if_neg (fun h => hp (Nat.le_zero.mp h)), if_neg (Nat.not_lt_of_le hwithin)]
  split
  · exact Or.inl ⟨_, rfl⟩
  · rename_i next hsent
    rw [hsent] at hsegment
    right
    split_ifs
    · intro hnil
      have hgrows := @sendLoop_grows κ α β cfg call eobOnLastPacket positions next.total next
      rw [hnil, List.prefix_nil] at hgrows
      exact hsegment rfl hgrows
    · exact hsegment rfl

/-! ## The call -/

theorem send_of_loop (s : TxStreamer κ β) (hpending : call.sequenceError = false)
    (hconnected : cfg.allChansConnected = true) (hcaches : ¬ Caches call) :
    send cfg s call =
      ({ metadataCache := none
         sent := s.sent ++ (sendLoop cfg call (call.metadata.check s.metadataCache).endOfBurst
          (call.metadata.check s.metadataCache).eovPositions 0
          { metadata := call.metadata.check s.metadataCache
            remaining := call.nsampsPerBuff }).1.sent },
        (sendLoop cfg call (call.metadata.check s.metadataCache).endOfBurst
          (call.metadata.check s.metadataCache).eovPositions 0
          { metadata := call.metadata.check s.metadataCache
            remaining := call.nsampsPerBuff }).2) := by
  have hnot : ¬ (call.nsampsPerBuff = 0 ∧ call.metadata.startOfBurst = true) := hcaches
  rw [send, if_neg (ne_true_of_eq_false hpending), if_neg (by rw [hconnected]; decide),
    if_neg hnot]

theorem rejected_iff_first (s : TxStreamer κ β) (hpending : call.sequenceError = false)
    (hconnected : cfg.allChansConnected = true) (hcaches : ¬ Caches call) {p : ℕ}
    {positions : List ℕ} (hpositions : call.metadata.eovPositions = p :: positions) :
    Rejected cfg s call ↔ s.metadataCache = none ∧ (p = 0 ∨ call.nsampsPerBuff < p) := by
  rw [Rejected, send_of_loop s hpending hconnected hcaches,
    TxMetadata.eovPositions_check, hpositions]
  by_cases hfirst : p = 0 ∨ call.nsampsPerBuff < p
  · obtain ⟨e, he⟩ := @sendLoop_of_first_invalid κ α β cfg call
      (call.metadata.check s.metadataCache).endOfBurst p positions
      { metadata := call.metadata.check s.metadataCache
        remaining := call.nsampsPerBuff } hfirst
    rw [he]
    constructor
    · rintro ⟨-, -, -, hcache⟩
      exact ⟨hcache.symm, hfirst⟩
    · rintro ⟨hcache, -⟩
      exact ⟨e, rfl, List.append_nil _, hcache.symm⟩
  · refine iff_of_false ?_ fun h => hfirst h.2
    rw [not_or, Nat.not_lt] at hfirst
    rintro ⟨e, he, hsent, -⟩
    rcases @sendLoop_of_first κ α β cfg call (call.metadata.check s.metadataCache).endOfBurst p
      positions { metadata := call.metadata.check s.metadataCache
                  remaining := call.nsampsPerBuff } hfirst.1 hfirst.2 with ⟨n, hn⟩ | hne
    · rw [hn] at he
      cases he
    · exact hne (List.self_eq_append_right.mp hsent.symm)

theorem not_rejected_of_ok {s : TxStreamer κ β} {n : ℕ} (h : (send cfg s call).2 = .ok n) :
    ¬ Rejected cfg s call := by
  rintro ⟨e, he, -⟩
  rw [h] at he
  cases he

/-- **A list that is not valid is rejected** with nothing sent and nothing consumed exactly under
the condition. -/
theorem rejected_iff (cfg : TxStreamerConfig κ α β) (s : TxStreamer κ β) (call : TxSendCall κ α)
    (h : EovInvalid call) : Rejected cfg s call ↔ RejectedAtOnce cfg s call := by
  cases hpending : call.sequenceError with
  | true =>
    refine iff_of_false (not_rejected_of_ok (n := 0) ?_) fun hcond => ?_
    · rw [send, if_pos hpending]
    · exact Bool.noConfusion (hpending.symm.trans hcond.1)
  | false =>
    cases hconnected : cfg.allChansConnected with
    | false =>
      refine iff_of_true ?_ ⟨hpending, Or.inl hconnected⟩
      rw [Rejected, send, if_neg (ne_true_of_eq_false hpending), if_pos hconnected]
      exact ⟨_, rfl, rfl, rfl⟩
    | true =>
      have hloop : RejectedAtOnce cfg s call ↔ ¬ Caches call ∧ s.metadataCache = none ∧
          ∃ p positions, call.metadata.eovPositions = p :: positions ∧
            (p = 0 ∨ call.nsampsPerBuff < p) := by
        rw [RejectedAtOnce, and_iff_right hpending, or_iff_right]
        rw [hconnected]
        exact Bool.noConfusion
      rw [hloop]
      by_cases hcaches : Caches call
      · refine iff_of_false (not_rejected_of_ok (n := 0) ?_) fun hcond => hcond.1 hcaches
        have hboth : call.nsampsPerBuff = 0 ∧ call.metadata.startOfBurst = true := hcaches
        rw [send, if_neg (ne_true_of_eq_false hpending), if_neg (by rw [hconnected]; decide),
          if_pos hboth]
      · cases hpositions : call.metadata.eovPositions with
        | nil =>
          rcases h with hpair | ⟨p, hp, -⟩
          · rw [hpositions] at hpair
            exact absurd List.Pairwise.nil hpair
          · rw [hpositions] at hp
            exact absurd hp List.not_mem_nil
        | cons p positions =>
          rw [rejected_iff_first s hpending hconnected hcaches hpositions]
          constructor
          · rintro ⟨hcache, hfirst⟩
            exact ⟨hcaches, hcache, p, positions, rfl, hfirst⟩
          · rintro ⟨-, hcache, q, rest, hq, hfirst⟩
            obtain ⟨rfl, -⟩ := List.cons.inj hq
            exact ⟨hcache, hfirst⟩

/-- A streamer with one channel, which sends packets of up to 100 samples. -/
def oneChannel : TxStreamerConfig Unit ℕ (List ℕ) where
  spp := 100
  bytesPerItem := 4
  conv := fun _ samples => samples
  zero := 0

/-- A call for 100 samples. -/
def hundredSamples (eovPositions : List ℕ) : TxSendCall Unit ℕ where
  buffs := fun _ i => i
  nsampsPerBuff := 100
  metadata := { eovPositions }

/-- A position behind the samples, before another. -/
theorem rejected_behindSamples : Rejected oneChannel {} (hundredSamples [101, 50]) := by
  refine (rejected_iff oneChannel {} (hundredSamples [101, 50])
    (Or.inr ⟨101, List.mem_cons_self, by decide⟩)).mpr ⟨rfl, Or.inr ⟨?_, rfl, 101, [50], rfl,
      Or.inr (by decide)⟩⟩
  rintro ⟨hzero, -⟩
  exact absurd hzero (by decide)

/-- **A position before the one before it.**  A packet is sent, and then the second position throws. -/
theorem not_rejected_decreasing :
    ¬ (EovInvalid (hundredSamples [50, 25]) → Rejected oneChannel {} (hundredSamples [50, 25])) := by
  intro h
  have hinvalid : EovInvalid (hundredSamples [50, 25]) := Or.inl (by decide)
  obtain ⟨e, -, hsent, -⟩ := h hinvalid
  have hlength := congrArg List.length hsent
  revert hlength
  decide +kernel

end TxStreamer
end Transport
end UhdHost
