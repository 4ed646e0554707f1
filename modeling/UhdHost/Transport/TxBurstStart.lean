import UhdHost.Transport.TxStreamer

/-!
# The start of a burst that was cached

A call of `send` without samples that starts a burst transmits nothing.  Its metadata is cached,
and `tx_metadata_cache` says that it is applied on the next call that has samples to send.  That
call may meet a full transmit path and return zero, and the application calls again.

## Where the cached metadata is lost

`_metadata_cache.check` consumes the cached metadata before it is known whether there is a
buffer for any packet.  A call that times out before its first packet has already merged it into
its own copy, and the copy is gone when the call returns.  The next attempt finds no cached
metadata and goes out with what the application passes again (`sent_afterTimeout`).  Only an
attempt that ends at a pending sequence error comes before the cache is looked at.

The first packet of a call is sent with the metadata that the loops start with
(`sendLoop_first`), so nothing is lost within a call.
-/

namespace UhdHost
namespace Transport
namespace TxStreamer

variable {κ α β : Type}

/-- A packet carries the flag and the time of metadata. -/
structure CarriesStart (cfg : TxStreamerConfig κ α β) (metadata : TxMetadata)
    (packet : TxPacket κ β) : Prop where
  startOfBurst : packet.startOfBurst = metadata.startOfBurst
  hasTsf : packet.info.hasTsf = metadata.hasTimeSpec
  tsf : packet.info.tsf = if metadata.hasTimeSpec then
      (metadata.timeSpec.toTicks cfg.tickRate % 2 ^ 64).toNat
    else 0

/-- **While a call runs.**  Nothing was sent yet, and the metadata in the loops starts as the
call's, or the first packet of the call carries that start. -/
def StartKept (cfg : TxStreamerConfig κ α β) (start : TxMetadata) (st : TxSendLoop κ β) : Prop :=
  (st.sent = [] ∧ st.metadata.startOfBurst = start.startOfBurst ∧
    st.metadata.hasTimeSpec = start.hasTimeSpec ∧ st.metadata.timeSpec = start.timeSpec) ∨
  ∃ packet rest, st.sent = packet :: rest ∧ CarriesStart cfg start packet

variable {cfg : TxStreamerConfig κ α β} {call : TxSendCall κ α} {start : TxMetadata}
  {st : TxSendLoop κ β}

/-! ## The first packet of a call -/

theorem carriesStart_sendOnePacket {buffs : κ → ℕ → α} {offset nsamps : ℕ}
    {metadata : TxMetadata} {eov available : Bool} {packet : TxPacket κ β}
    (h : sendOnePacket cfg buffs offset nsamps metadata eov available = some packet) :
    CarriesStart cfg metadata packet := by
  rw [sendOnePacket] at h
  split_ifs at h
  rw [← Option.some.inj h]
  exact ⟨rfl, rfl, rfl⟩

theorem StartKept.concat (h : StartKept cfg start st) {metadata : TxMetadata}
    {packet : TxPacket κ β} (hpacket : CarriesStart cfg metadata packet)
    (hsob : metadata.startOfBurst = st.metadata.startOfBurst)
    (hhas : metadata.hasTimeSpec = st.metadata.hasTimeSpec)
    (htime : metadata.timeSpec = st.metadata.timeSpec) {next : TxSendLoop κ β}
    (hnext : next.sent = st.sent ++ [packet]) : StartKept cfg start next := by
  right
  rcases h with ⟨hnone, hs, hh, ht⟩ | ⟨first, rest, hsent, hfirst⟩
  · refine ⟨packet, [], by rw [hnext, hnone, List.nil_append], ?_, ?_, ?_⟩
    · rw [hpacket.startOfBurst, hsob, hs]
    · rw [hpacket.hasTsf, hhas, hh]
    · rw [hpacket.tsf, hhas, hh, htime, ht]
  · exact ⟨first, rest ++ [packet], by rw [hnext, hsent, List.cons_append], hfirst⟩

theorem StartKept.withEob (h : StartKept cfg start st) (eob : Bool) :
    StartKept cfg start { st with metadata := { st.metadata with endOfBurst := eob } } := h

theorem sendFragments_first (call : TxSendCall κ α) (numFragments : ℕ)
    (h : StartKept cfg start st) :
    StartKept cfg start (sendFragments cfg call numFragments st).1 := by
  induction numFragments generalizing st with
  | zero => exact h
  | succ numFragments ih =>
    rw [sendFragments]
    split
    · exact h
    · rename_i packet hpacket
      have hnext : StartKept cfg start { st with
          metadata := { st.metadata.advance cfg.spp cfg.sampRate with startOfBurst := false }
          remaining := st.remaining - cfg.spp
          total := st.total + cfg.spp
          sent := st.sent ++ [packet] } :=
        h.concat (carriesStart_sendOnePacket hpacket) rfl rfl rfl rfl
      dsimp only
      split_ifs
      · exact hnext
      · exact ih hnext

theorem sendSegment_first (call : TxSendCall κ α) (eobOnLastPacket : Bool) (nsampsToSend : ℕ)
    (eov : Bool) (h : StartKept cfg start st) :
    StartKept cfg start (sendSegment cfg call eobOnLastPacket nsampsToSend eov st).1 := by
  rw [sendSegment]
  split_ifs
  · split
    · exact h
    · rename_i packet hpacket
      exact h.concat (carriesStart_sendOnePacket hpacket) rfl rfl rfl rfl
  · dsimp only
    split
    · exact h
    · rename_i packet hpacket
      exact h.concat (carriesStart_sendOnePacket hpacket) rfl rfl rfl rfl
  · have hfragments := sendFragments_first call ((nsampsToSend - 1) / cfg.spp)
      (h.withEob false)
    dsimp only
    split
    · rename_i hsent
      rw [hsent] at hfragments
      exact hfragments
    · rename_i last hsent
      rw [hsent] at hfragments
      split
      · exact hfragments
      · rename_i packet hpacket
        exact StartKept.concat hfragments (carriesStart_sendOnePacket hpacket) rfl rfl rfl rfl

theorem sendLoop_first (call : TxSendCall κ α) (eobOnLastPacket : Bool)
    (eovPositions : List ℕ) (lastEovPosition : ℕ) (h : StartKept cfg start st) :
    StartKept cfg start (sendLoop cfg call eobOnLastPacket eovPositions lastEovPosition st).1 := by
  induction eovPositions generalizing st lastEovPosition with
  | nil =>
    have hsegment := sendSegment_first call eobOnLastPacket st.remaining false h
    rw [sendLoop]
    split
    all_goals
      rename_i hsent
      rw [hsent] at hsegment
      exact hsegment
  | cons position positions ih =>
    have hsegment := sendSegment_first call eobOnLastPacket
      (position - lastEovPosition) true h
    rw [sendLoop]
    split_ifs
    · exact h
    · exact h
    · split
      · rename_i hsent
        rw [hsent] at hsegment
        exact hsegment
      · rename_i hsent
        rw [hsent] at hsegment
        split_ifs
        · exact ih _ hsegment
        · exact hsegment

/-! ## One call -/

/-- The call is the one that caches its metadata. -/
def Caches (call : TxSendCall κ α) : Prop :=
  call.nsampsPerBuff = 0 ∧ call.metadata.startOfBurst = true

instance (call : TxSendCall κ α) : Decidable (Caches call) :=
  inferInstanceAs (Decidable (_ ∧ _))

theorem send_of_sequenceError (cfg : TxStreamerConfig κ α β) (s : TxStreamer κ β)
    (h : call.sequenceError = true) : (send cfg s call).1 = s := by
  rw [send, if_pos h]

theorem send_of_caches (s : TxStreamer κ β) (hpending : call.sequenceError = false)
    (hconnected : cfg.allChansConnected = true) (h : Caches call) :
    (send cfg s call).1 = { s with metadataCache := some call.metadata } := by
  have hcaches : call.nsampsPerBuff = 0 ∧ call.metadata.startOfBurst = true := h
  rw [send, if_neg (ne_true_of_eq_false hpending), if_neg (by rw [hconnected]; decide),
    if_pos hcaches]

theorem metadataCache_send (s : TxStreamer κ β) (hpending : call.sequenceError = false)
    (hconnected : cfg.allChansConnected = true) (h : ¬ Caches call) :
    (send cfg s call).1.metadataCache = none := by
  have hcaches : ¬ (call.nsampsPerBuff = 0 ∧ call.metadata.startOfBurst = true) := h
  rw [send, if_neg (ne_true_of_eq_false hpending), if_neg (by rw [hconnected]; decide),
    if_neg hcaches]

theorem carriesStart_of_send (call : TxSendCall κ α) (s : TxStreamer κ β) {packet : TxPacket κ β}
    {rest : List (TxPacket κ β)} (h : (send cfg s call).1.sent = s.sent ++ packet :: rest) :
    call.sequenceError = false ∧ cfg.allChansConnected = true ∧ ¬ Caches call ∧
      CarriesStart cfg (call.metadata.check s.metadataCache) packet := by
  have hnil : ∀ t : TxStreamer κ β, t.sent = s.sent → t.sent ≠ s.sent ++ packet :: rest := by
    intro t ht hsent
    rw [ht] at hsent
    exact List.cons_ne_nil _ _ (List.self_eq_append_right.mp hsent)
  rw [send] at h
  split_ifs at h with hseq hconnected hcaches
  · exact absurd h (hnil _ rfl)
  · exact absurd h (hnil _ rfl)
  · exact absurd h (hnil _ rfl)
  · refine ⟨Bool.eq_false_iff.mpr hseq, Bool.not_eq_false _ ▸ hconnected, hcaches, ?_⟩
    have hstart : StartKept cfg (call.metadata.check s.metadataCache)
        ({ metadata := call.metadata.check s.metadataCache
           remaining := call.nsampsPerBuff } : TxSendLoop κ β) := Or.inl ⟨rfl, rfl, rfl, rfl⟩
    have hkept := sendLoop_first call (call.metadata.check s.metadataCache).endOfBurst
      (call.metadata.check s.metadataCache).eovPositions 0 hstart
    have hsent := List.append_cancel_left h
    rcases hkept with ⟨hnone, -⟩ | ⟨first, others, hfirst, hcarries⟩
    · rw [hnone] at hsent
      exact absurd hsent.symm (List.cons_ne_nil _ _)
    · rw [hfirst] at hsent
      rw [← (List.cons.inj hsent).1]
      exact hcarries

/-! ## Attempts with the same arguments -/

/-- Two calls are passed the same arguments. -/
structure SameArguments (call other : TxSendCall κ α) : Prop where
  buffs : other.buffs = call.buffs
  nsampsPerBuff : other.nsampsPerBuff = call.nsampsPerBuff
  metadata : other.metadata = call.metadata

theorem sendAll_append (calls more : List (TxSendCall κ α)) (s : TxStreamer κ β) :
    (sendAll cfg s (calls ++ more)).1 = (sendAll cfg (sendAll cfg s calls).1 more).1 := by
  induction calls generalizing s with
  | nil => rfl
  | cons call calls ih => exact ih (send cfg s call).1

theorem sendAll_pending {attempts : List (TxSendCall κ α)} {s : TxStreamer κ β}
    (h : ∀ attempt ∈ attempts, attempt.sequenceError = true) :
    (sendAll cfg s attempts).1 = s := by
  induction attempts with
  | nil => rfl
  | cons attempt attempts ih =>
    have hsend := send_of_sequenceError cfg s (h attempt List.mem_cons_self)
    show (sendAll cfg (send cfg s attempt).1 attempts).1 = s
    rw [hsend]
    exact ih fun a ha => h a (List.mem_cons_of_mem _ ha)

theorem metadataCache_sendAll {attempts : List (TxSendCall κ α)} {s : TxStreamer κ β}
    (hconnected : cfg.allChansConnected = true)
    (hcaches : ∀ attempt ∈ attempts, ¬ Caches attempt)
    (h : s.metadataCache = none ∨ ∃ attempt ∈ attempts, attempt.sequenceError = false) :
    (sendAll cfg s attempts).1.metadataCache = none := by
  induction attempts generalizing s with
  | nil =>
    rcases h with h | ⟨attempt, hattempt, -⟩
    · exact h
    · exact absurd hattempt List.not_mem_nil
  | cons attempt attempts ih =>
    have hnext : (send cfg s attempt).1.metadataCache = none ∨
        ∃ other ∈ attempts, other.sequenceError = false := by
      by_cases hseq : attempt.sequenceError = true
      · rw [send_of_sequenceError cfg s hseq]
        rcases h with h | ⟨other, hother, hfalse⟩
        · exact Or.inl h
        · rcases List.mem_cons.mp hother with rfl | hother
          · rw [hseq] at hfalse
            cases hfalse
          · exact Or.inr ⟨other, hother, hfalse⟩
      · exact Or.inl (metadataCache_send s (Bool.eq_false_iff.mpr hseq) hconnected
          (hcaches attempt List.mem_cons_self))
    exact ih (fun a ha => hcaches a (List.mem_cons_of_mem _ ha)) hnext

theorem carriesStart_check_iff {metadata cached : TxMetadata} {packet : TxPacket κ β}
    (hcached : cached.startOfBurst = true) (h : CarriesStart cfg metadata packet) :
    CarriesStart cfg (metadata.check (some cached)) packet ↔
      metadata.startOfBurst = true ∧
        (metadata.hasTimeSpec = true ∨ cached.hasTimeSpec = false) := by
  have hstart : (metadata.check (some cached)).startOfBurst = true := hcached
  constructor
  · intro hc
    refine ⟨by rw [← h.startOfBurst, hc.startOfBurst, hstart], ?_⟩
    by_cases htime : metadata.hasTimeSpec = true
    · exact Or.inl htime
    · have hhas : (metadata.check (some cached)).hasTimeSpec = cached.hasTimeSpec := by
        rw [TxMetadata.check]
        dsimp only
        rw [if_neg htime]
      right
      rw [← hhas, ← hc.hasTsf, h.hasTsf]
      exact Bool.eq_false_iff.mpr htime
  · rintro ⟨hsob, htime⟩
    by_cases hown : metadata.hasTimeSpec = true
    · have hcheck : (metadata.check (some cached)).hasTimeSpec = metadata.hasTimeSpec ∧
          (metadata.check (some cached)).timeSpec = metadata.timeSpec := by
        rw [TxMetadata.check]
        dsimp only
        rw [if_pos hown]
        exact ⟨rfl, rfl⟩
      exact ⟨by rw [h.startOfBurst, hsob, hstart], by rw [h.hasTsf, hcheck.1],
        by rw [h.tsf, hcheck.1, hcheck.2]⟩
    · have hnone := htime.resolve_left hown
      have hcheck : (metadata.check (some cached)).hasTimeSpec = false := by
        rw [TxMetadata.check]
        dsimp only
        rw [if_neg hown]
        exact hnone
      have hown := Bool.eq_false_iff.mpr hown
      exact ⟨by rw [h.startOfBurst, hsob, hstart], by rw [h.hasTsf, hcheck, hown],
        by rw [h.tsf, hcheck, hown, if_neg Bool.false_ne_true, if_neg Bool.false_ne_true]⟩

/-- **The first packet after a burst was started.**  A call without samples starts a burst, some
attempts of a call transmit nothing, and one more attempt transmits.  Its first packet carries
the cached flag and time (the call's own time, where it names one) exactly when no attempt
before it came as far as the cache, or the call has the flag and the time itself. -/
theorem carriesStart_iff (cfg : TxStreamerConfig κ α β) (s : TxStreamer κ β)
    (start call : TxSendCall κ α) (attempts : List (TxSendCall κ α)) (last : TxSendCall κ α)
    (hstart : Caches start) (hpending : start.sequenceError = false)
    (hsame : ∀ attempt ∈ attempts ++ [last], SameArguments call attempt)
    (hnone : (sendAll cfg s (start :: attempts)).1.sent = s.sent)
    (packet : TxPacket κ β) (rest : List (TxPacket κ β))
    (hsent : (sendAll cfg s (start :: attempts ++ [last])).1.sent = s.sent ++ packet :: rest) :
    CarriesStart cfg (call.metadata.check (some start.metadata)) packet ↔
      (∀ attempt ∈ attempts, attempt.sequenceError = true) ∨
        (call.metadata.startOfBurst = true ∧
          (call.metadata.hasTimeSpec = true ∨ start.metadata.hasTimeSpec = false)) := by
  have hlast := hsame last (List.mem_append_right _ List.mem_cons_self)
  rw [sendAll_append] at hsent
  rw [← hnone] at hsent
  have hfirst := carriesStart_of_send last _ hsent
  obtain ⟨-, hconnected, hcaches, hcarries⟩ := hfirst
  rw [hlast.metadata] at hcarries
  -- what the start leaves behind
  have hcached := send_of_caches s hpending hconnected hstart
  have hattempts : (sendAll cfg s (start :: attempts)).1 =
      (sendAll cfg { s with metadataCache := some start.metadata } attempts).1 := by
    show (sendAll cfg (send cfg s start).1 attempts).1 = _
    rw [hcached]
  rw [hattempts] at hcarries
  by_cases hall : ∀ attempt ∈ attempts, attempt.sequenceError = true
  · rw [sendAll_pending hall] at hcarries
    exact ⟨fun _ => Or.inl hall, fun _ => hcarries⟩
  · have hlost : ∃ attempt ∈ attempts, attempt.sequenceError = false := by
      by_contra hno
      refine hall fun attempt hattempt => ?_
      by_contra hfalse
      exact hno ⟨attempt, hattempt, Bool.eq_false_iff.mpr hfalse⟩
    have hnot : ∀ attempt ∈ attempts, ¬ Caches attempt := by
      intro attempt hattempt hc
      have ha := hsame attempt (List.mem_append_left _ hattempt)
      refine hcaches ⟨?_, ?_⟩
      · rw [hlast.nsampsPerBuff, ← ha.nsampsPerBuff, hc.1]
      · rw [hlast.metadata, ← ha.metadata, hc.2]
    rw [metadataCache_sendAll hconnected hnot (Or.inr hlost)] at hcarries
    have hcarries : CarriesStart cfg call.metadata packet := hcarries
    rw [carriesStart_check_iff hstart.2 hcarries]
    exact ⟨Or.inr, fun h => h.resolve_left hall⟩

/-! ## One retry -/

/-- One channel of bytes. -/
private def burstConfig : TxStreamerConfig Unit ℕ (List ℕ) where
  spp := 10
  bytesPerItem := 1
  conv _ samples := samples
  zero := 0

/-- A burst is to start five seconds on. -/
private def burstStart : TxSendCall Unit ℕ where
  buffs _ i := i
  nsampsPerBuff := 0
  metadata := { hasTimeSpec := true, timeSpec := TimeSpec.ofSecs 5, startOfBurst := true }

/-- Three samples, which are sent or meet a full transmit path. -/
private def burstSamples (available : Bool) : TxSendCall Unit ℕ where
  buffs _ i := i
  nsampsPerBuff := 3
  metadata := {}
  buffsAvailable _ := available

/-- Without a timeout the three samples go out with the start. -/
theorem carriesStart_at_once :
    ∃ packet, (sendAll burstConfig {} ([burstStart] ++ [burstSamples true])).1.sent = [packet] ∧
      CarriesStart burstConfig ((burstSamples true).metadata.check (some burstStart.metadata))
        packet := by
  refine ⟨_, rfl, (carriesStart_iff burstConfig {} burstStart (burstSamples true) []
    (burstSamples true) ⟨rfl, rfl⟩ rfl ?_ rfl _ [] rfl).mpr (Or.inl ?_)⟩
  · intro attempt hattempt
    rw [List.mem_singleton.mp hattempt]
    exact ⟨rfl, rfl, rfl⟩
  · intro attempt hattempt
    exact absurd hattempt List.not_mem_nil

/-- **After one timeout.**  The retry sends its packet without the flag and without the time. -/
theorem retry_without_start :
    ¬ ∀ (s : TxStreamer Unit (List ℕ)) (start call : TxSendCall Unit ℕ)
        (attempts : List (TxSendCall Unit ℕ)) (last : TxSendCall Unit ℕ),
      Caches start → start.sequenceError = false →
      (∀ attempt ∈ attempts ++ [last], SameArguments call attempt) →
      (sendAll burstConfig s (start :: attempts)).1.sent = s.sent →
      ∀ packet rest,
        (sendAll burstConfig s (start :: attempts ++ [last])).1.sent = s.sent ++ packet :: rest →
        CarriesStart burstConfig (call.metadata.check (some start.metadata)) packet := by
  intro hall
  have hcarries := hall {} burstStart (burstSamples true) [burstSamples false]
    (burstSamples true) ⟨rfl, rfl⟩ rfl (by
      intro attempt hattempt
      rcases List.mem_cons.mp hattempt with rfl | hattempt
      · exact ⟨rfl, rfl, rfl⟩
      · rw [List.mem_singleton.mp hattempt]
        exact ⟨rfl, rfl, rfl⟩) rfl _ [] rfl
  have hflag : false = true := hcarries.startOfBurst
  exact Bool.false_ne_true hflag

end TxStreamer
end Transport
end UhdHost
