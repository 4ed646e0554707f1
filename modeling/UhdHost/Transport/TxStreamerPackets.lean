import UhdHost.Transport.TxStreamer

/-!
# What a call of `send` sends

`wantedPacket` is the packet that should carry the samples `off` to `off + len` of a call, read
off the metadata of the call alone.  The loops of `send` keep `SendLoopInv`: what was sent so
far is what `Cuts.cut` makes with `wantedPacket` of the lengths so far, and the metadata, which
the loops change in place, is that of the next sample.

A segment adds the lengths of its chunks (`sendSegment_eq`), and the end-of-vector positions
are exactly the ends of the segments but perhaps the last (`sendLoop_eq`).

Metadata that was cached replaces the flag for the end of the burst by its own, also where the
two differ.  `CallSent` says what a call sends of its own flag only where they agree.
-/

namespace UhdHost
namespace Transport

open Cuts

variable {κ α β : Type}

/-- The end-of-vector positions of a call increase and are within its samples. -/
structure TxSendCall.Valid (call : TxSendCall κ α) : Prop where
  increasing : call.metadata.eovPositions.Pairwise (· < ·)
  within : ∀ p ∈ call.metadata.eovPositions, 0 < p ∧ p ≤ call.nsampsPerBuff

/-- No timeout and no sequence error occurs. -/
structure TxSendCall.Undisturbed (call : TxSendCall κ α) : Prop where
  sequenceError : call.sequenceError = false
  buffsAvailable : ∀ n, call.buffsAvailable n = true
  sequenceErrorAfter : ∀ n, call.sequenceErrorAfter n = false

/-- What a call leaves in the cache. -/
def TxSendCall.cached (call : TxSendCall κ α) : Option TxMetadata :=
  if call.nsampsPerBuff = 0 ∧ call.metadata.startOfBurst = true then some call.metadata else none

namespace TxStreamer

/-- The time stamp for what comes after so many samples. -/
def tsfAfter (cfg : TxStreamerConfig κ α β) (metadata : TxMetadata) (off : ℕ) : ℕ :=
  ((TimeSpec.ofSecs (metadata.timeSpec.realSecs + off / cfg.sampRate)).toTicks cfg.tickRate
    % 2 ^ 64).toNat

/-- The packet for so many samples of a call, with the metadata that applies to the call. -/
def wantedPacket (cfg : TxStreamerConfig κ α β) (call : TxSendCall κ α) (metadata : TxMetadata)
    (off len : ℕ) : TxPacket κ β where
  info :=
    { eob := metadata.endOfBurst && off + len == call.nsampsPerBuff
      eov := decide (off + len ∈ call.metadata.eovPositions)
      hasTsf := metadata.hasTimeSpec
      tsf := if metadata.hasTimeSpec then tsfAfter cfg metadata off else 0
      payloadBytes := len * cfg.bytesPerItem }
  startOfBurst := metadata.startOfBurst && off == 0
  nsamps := len
  payload := fun k => cfg.conv k (samples call.buffs k off len)

/-- The packet with one sample of zero. -/
def zeroPacket (cfg : TxStreamerConfig κ α β) (metadata : TxMetadata) : TxPacket κ β where
  info := packetInfo cfg 1 metadata false
  startOfBurst := metadata.startOfBurst
  nsamps := 1
  payload := fun k => cfg.conv k [cfg.zero]

/-! ## The invariant of the loops -/

/-- The metadata in the loops is that of the sample at `off`. -/
structure MetadataAt (cfg : TxStreamerConfig κ α β) (start : TxMetadata) (off : ℕ)
    (metadata : TxMetadata) : Prop where
  hasTimeSpec : metadata.hasTimeSpec = start.hasTimeSpec
  time : metadata.hasTimeSpec = true →
    metadata.timeSpec.realSecs = start.timeSpec.realSecs + off / cfg.sampRate
  startOfBurst : metadata.startOfBurst = (start.startOfBurst && off == 0)

/-- What was sent so far are the wanted packets of the given lengths. -/
structure SendLoopInv (cfg : TxStreamerConfig κ α β) (call : TxSendCall κ α)
    (start : TxMetadata) (lens : List ℕ) (st : TxSendLoop κ β) : Prop where
  sent : st.sent = cut (wantedPacket cfg call start) 0 lens
  total : st.total = lens.sum
  remaining : st.total + st.remaining = call.nsampsPerBuff
  bounds : ∀ len ∈ lens, 0 < len ∧ len ≤ cfg.spp
  metadata : 0 < st.remaining → MetadataAt cfg start st.total st.metadata
  /-- A position that was passed is the end of a packet. -/
  ends : ∀ p ∈ call.metadata.eovPositions, p ≤ st.total →
    ∃ i ≤ lens.length, (lens.take i).sum = p

variable {cfg : TxStreamerConfig κ α β} {call : TxSendCall κ α} {start metadata : TxMetadata}
  {off n : ℕ} {lens : List ℕ} {st : TxSendLoop κ β}

theorem metadataAt_start : MetadataAt cfg start 0 start where
  hasTimeSpec := rfl
  time _ := by rw [Nat.cast_zero, zero_div, add_zero]
  startOfBurst := by rw [beq_self_eq_true, Bool.and_true]

theorem MetadataAt.withEob (h : MetadataAt cfg start off metadata) (eob : Bool) :
    MetadataAt cfg start off { metadata with endOfBurst := eob } :=
  ⟨h.hasTimeSpec, h.time, h.startOfBurst⟩

theorem MetadataAt.advance (h : MetadataAt cfg start off metadata) (hn : 0 < n)
    {next : TxMetadata} (hhas : next.hasTimeSpec = metadata.hasTimeSpec)
    (hspec : next.timeSpec = metadata.timeSpec) (hsob : next.startOfBurst = false) :
    MetadataAt cfg start (off + n) (next.advance n cfg.sampRate) := by
  have hsob : next.startOfBurst = (start.startOfBurst && off + n == 0) := by
    rw [hsob, beq_eq_false_iff_ne.mpr (by omega), Bool.and_false]
  rw [TxMetadata.advance]
  split_ifs with htime
  · refine ⟨hhas.trans h.hasTimeSpec, fun _ => ?_, hsob⟩
    show (next.timeSpec + TimeSpec.fromTicks n cfg.sampRate).realSecs = _
    rw [hspec, TimeSpec.realSecs_add, TimeSpec.realSecs_fromTicks, h.time (hhas ▸ htime)]
    push_cast
    ring
  · exact ⟨hhas.trans h.hasTimeSpec, fun hh => absurd hh htime, hsob⟩

theorem advance_clear_startOfBurst (metadata : TxMetadata) (n : ℕ) (rate : ℚ) :
    { metadata.advance n rate with startOfBurst := false } =
      { metadata with startOfBurst := false }.advance n rate := by
  rw [TxMetadata.advance, TxMetadata.advance]
  split_ifs <;> rfl

theorem sendOnePacket_eq (call : TxSendCall κ α) (h : MetadataAt cfg start off metadata)
    (n : ℕ) {eov : Bool}
    (heob : metadata.endOfBurst = (start.endOfBurst && off + n == call.nsampsPerBuff))
    (heov : eov = decide (off + n ∈ call.metadata.eovPositions)) :
    sendOnePacket cfg call.buffs off n metadata eov true =
      some (wantedPacket cfg call start off n) := by
  have htsf : packetInfo cfg n metadata eov = (wantedPacket cfg call start off n).info := by
    rw [packetInfo, wantedPacket, heob, heov, TxPacketInfo.mk.injEq]
    refine ⟨rfl, rfl, h.hasTimeSpec, ?_, rfl⟩
    rw [← h.hasTimeSpec]
    split_ifs with htime
    · have hspec : metadata.timeSpec =
          TimeSpec.ofSecs (start.timeSpec.realSecs + off / cfg.sampRate) :=
        TimeSpec.ext_of_realSecs (by rw [TimeSpec.realSecs_ofSecs, h.time htime])
      rw [tsfAfter, ← hspec]
    · rfl
  rw [sendOnePacket, if_pos rfl, htsf, h.startOfBurst]
  rfl

theorem SendLoopInv.ends_concat (h : SendLoopInv cfg call start lens st)
    (hinside : ∀ p ∈ call.metadata.eovPositions, st.total < p → st.total + n ≤ p) :
    ∀ p ∈ call.metadata.eovPositions, p ≤ st.total + n →
      ∃ i ≤ (lens ++ [n]).length, ((lens ++ [n]).take i).sum = p := by
  intro p hp hle
  by_cases hpassed : p ≤ st.total
  · obtain ⟨i, hi, hsum⟩ := h.ends p hp hpassed
    refine ⟨i, Nat.le_trans hi (by rw [List.length_append]; exact Nat.le_add_right ..), ?_⟩
    rwa [List.take_append_of_le_length hi]
  · refine ⟨(lens ++ [n]).length, Nat.le_refl _, ?_⟩
    have := hinside p hp (Nat.not_le.mp hpassed)
    rw [List.take_length, List.sum_append, List.sum_singleton, ← h.total]
    omega

theorem SendLoopInv.concat (h : SendLoopInv cfg call start lens st) (hn : 0 < n)
    (hspp : n ≤ cfg.spp) (hle : n ≤ st.remaining)
    (hinside : ∀ p ∈ call.metadata.eovPositions, st.total < p → st.total + n ≤ p)
    {metadata : TxMetadata}
    (hmetadata : 0 < st.remaining - n → MetadataAt cfg start (st.total + n) metadata) :
    SendLoopInv cfg call start (lens ++ [n])
      { metadata := metadata
        remaining := st.remaining - n
        total := st.total + n
        sent := st.sent ++ [wantedPacket cfg call start st.total n] } where
  sent := by rw [cut_concat, ← h.sent, Nat.zero_add, ← h.total]
  total := by rw [List.sum_append, List.sum_singleton, ← h.total]
  remaining := by
    have := h.remaining
    show st.total + n + (st.remaining - n) = call.nsampsPerBuff
    omega
  bounds len hlen := by
    rcases List.mem_append.mp hlen with hlen | hlen
    · exact h.bounds len hlen
    · rw [List.mem_singleton.mp hlen]
      exact ⟨hn, hspp⟩
  metadata := hmetadata
  ends := h.ends_concat hinside

theorem SendLoopInv.segmentSent (h : SendLoopInv cfg call start lens st) (hn : 0 < n)
    (hspp : n ≤ cfg.spp) (hle : n ≤ st.remaining)
    (hinside : ∀ p ∈ call.metadata.eovPositions, st.total < p → st.total + n ≤ p)
    (metadata : TxMetadata) (hhas : metadata.hasTimeSpec = st.metadata.hasTimeSpec)
    (hspec : metadata.timeSpec = st.metadata.timeSpec) (hsob : metadata.startOfBurst = false) :
    SendLoopInv cfg call start (lens ++ [n])
      (segmentSent cfg { st with metadata := metadata } n
        (wantedPacket cfg call start st.total n)) := by
  refine h.concat hn hspp hle hinside fun hpos => ?_
  rw [if_pos hpos]
  exact (h.metadata (by omega)).advance hn hhas hspec hsob

/-! ## Segments -/

theorem sendFragments_eq (hquiet : call.Undisturbed) (hspp : 0 < cfg.spp) (numFragments : ℕ)
    {lens : List ℕ} {st : TxSendLoop κ β} (h : SendLoopInv cfg call start lens st)
    (heob : st.metadata.endOfBurst = false) (hlt : numFragments * cfg.spp < st.remaining)
    (hinside : ∀ p ∈ call.metadata.eovPositions, st.total < p →
      st.total + numFragments * cfg.spp < p) :
    ∃ st', sendFragments cfg call numFragments st = (st', true) ∧
      SendLoopInv cfg call start (lens ++ List.replicate numFragments cfg.spp) st' ∧
      st'.total = st.total + numFragments * cfg.spp := by
  induction numFragments generalizing lens st with
  | zero =>
    rw [List.replicate_zero, List.append_nil, Nat.zero_mul, Nat.add_zero]
    exact ⟨st, rfl, h, rfl⟩
  | succ m ih =>
    rw [Nat.succ_mul] at hlt hinside
    have hmetadata := h.metadata (by omega)
    have hrem := h.remaining
    have hmem : st.total + cfg.spp ∉ call.metadata.eovPositions := fun hp =>
      absurd (hinside _ hp (by omega)) (by omega)
    have hpacket := sendOnePacket_eq call hmetadata cfg.spp
      (by rw [heob, beq_eq_false_iff_ne.mpr (by omega), Bool.and_false])
      (decide_eq_false hmem).symm
    have hnextMetadata : MetadataAt cfg start (st.total + cfg.spp)
        { st.metadata.advance cfg.spp cfg.sampRate with startOfBurst := false } := by
      rw [advance_clear_startOfBurst]
      exact hmetadata.advance hspp rfl rfl rfl
    have hnext := h.concat (n := cfg.spp) hspp (Nat.le_refl _) (by omega)
      (fun p hp hlt => by have := hinside p hp hlt; omega) fun _ => hnextMetadata
    obtain ⟨st', hst', hinv, htotal⟩ := ih hnext
      (by
        show (TxMetadata.advance st.metadata cfg.spp cfg.sampRate).endOfBurst = false
        rw [TxMetadata.advance]
        split_ifs <;> exact heob)
      (by
        show m * cfg.spp < st.remaining - cfg.spp
        omega)
      (fun p hp hlt => by
        have hlt : st.total + cfg.spp < p := hlt
        have := hinside p hp (by omega)
        show st.total + cfg.spp + m * cfg.spp < p
        omega)
    refine ⟨st', ?_, ?_, ?_⟩
    · rw [sendFragments, hquiet.buffsAvailable, hpacket]
      simp only [hquiet.sequenceErrorAfter, Bool.false_eq_true, if_false]
      exact hst'
    · rwa [List.append_assoc, List.singleton_append, ← List.replicate_succ] at hinv
    · rw [htotal, Nat.succ_mul]
      show st.total + cfg.spp + m * cfg.spp = _
      omega

theorem sendSegment_eq (hquiet : call.Undisturbed) (hspp : 0 < cfg.spp) {eov : Bool} {len : ℕ}
    (h : SendLoopInv cfg call start lens st) (hlen : 0 < len) (hle : len ≤ st.remaining)
    (hinside : ∀ p ∈ call.metadata.eovPositions, st.total < p → st.total + len ≤ p)
    (heov : eov = decide (st.total + len ∈ call.metadata.eovPositions)) :
    ∃ st', sendSegment cfg call start.endOfBurst len eov st = (st', none) ∧
      SendLoopInv cfg call start (lens ++ chunkLengths cfg.spp len) st' ∧
      st'.total = st.total + len := by
  have hmetadata := h.metadata (by omega)
  have hrem := h.remaining
  by_cases hfits : len ≤ cfg.spp
  · -- one packet
    have heob : (len == st.remaining) = (st.total + len == call.nsampsPerBuff) := by
      rw [Bool.eq_iff_iff, beq_iff_eq, beq_iff_eq]
      omega
    have hpacket := sendOnePacket_eq call
      (hmetadata.withEob (start.endOfBurst && len == st.remaining)) len (by rw [heob]) heov
    have hchunks : chunkLengths cfg.spp len = [len] := by
      rw [chunkLengths, Nat.div_eq_of_lt (by omega), Nat.mod_eq_of_lt (by omega),
        Nat.sub_add_cancel hlen]
      rfl
    refine ⟨_, ?_, hchunks.symm ▸ h.segmentSent hlen hfits hle hinside
      { st.metadata with
        endOfBurst := start.endOfBurst && len == st.remaining, startOfBurst := false }
      rfl rfl rfl, rfl⟩
    rw [sendSegment, if_neg (Nat.pos_iff_ne_zero.mp hlen), if_pos hfits, hquiet.buffsAvailable]
    simp only [hpacket]
  · -- fragments, and the rest
    have hsplit := Nat.div_add_mod' (len - 1) cfg.spp
    have hmod := Nat.mod_lt (len - 1) hspp
    have hdiv : 0 < (len - 1) / cfg.spp := Nat.div_pos (by omega) hspp
    have hfirst : SendLoopInv cfg call start lens
        { st with metadata := { st.metadata with endOfBurst := false } } :=
      { h with metadata := fun hpos => (h.metadata hpos).withEob false }
    obtain ⟨st', hst', hinv, htotal⟩ := sendFragments_eq hquiet hspp ((len - 1) / cfg.spp) hfirst
      rfl
      (by
        show (len - 1) / cfg.spp * cfg.spp < st.remaining
        omega)
      (fun p hp hlt => by
        have hlt : st.total < p := hlt
        have := hinside p hp hlt
        show st.total + (len - 1) / cfg.spp * cfg.spp < p
        omega)
    have htotal : st'.total = st.total + (len - 1) / cfg.spp * cfg.spp := htotal
    have hrem' := hinv.remaining
    have hend : st'.total + ((len - 1) % cfg.spp + 1) = st.total + len := by omega
    have hpos : 0 < st'.remaining := by omega
    have hmetadata' := hinv.metadata hpos
    have htotalPos : 0 < st'.total := by
      have := Nat.mul_pos hdiv hspp
      omega
    have hsob : st'.metadata.startOfBurst = false := by
      rw [hmetadata'.startOfBurst, beq_eq_false_iff_ne.mpr (by omega), Bool.and_false]
    have heob : ((len - 1) % cfg.spp + 1 == st'.remaining) =
        (st'.total + ((len - 1) % cfg.spp + 1) == call.nsampsPerBuff) := by
      rw [Bool.eq_iff_iff, beq_iff_eq, beq_iff_eq]
      omega
    have hpacket := sendOnePacket_eq call
      (hmetadata'.withEob (start.endOfBurst && (len - 1) % cfg.spp + 1 == st'.remaining))
      ((len - 1) % cfg.spp + 1) (by rw [heob]) (hend.symm ▸ heov)
    have hlast := hinv.segmentSent (Nat.succ_pos ((len - 1) % cfg.spp)) hmod (by omega)
      (fun p hp hlt => by
        have := hinside p hp (by omega)
        omega)
      { st'.metadata with
        endOfBurst := start.endOfBurst && (len - 1) % cfg.spp + 1 == st'.remaining }
      rfl rfl hsob
    rw [List.append_assoc] at hlast
    refine ⟨_, ?_, hlast, hend⟩
    rw [sendSegment, if_neg (Nat.pos_iff_ne_zero.mp hlen), if_neg hfits]
    simp only [hst', hquiet.buffsAvailable, hpacket]

theorem sendLoop_eq (hquiet : call.Undisturbed) (hvalid : call.Valid) (hspp : 0 < cfg.spp)
    {eovPositions : List ℕ} {lens : List ℕ} {st : TxSendLoop κ β}
    (h : SendLoopInv cfg call start lens st) (hpos : 0 < st.remaining)
    (hleft : ∀ p, p ∈ eovPositions ↔ p ∈ call.metadata.eovPositions ∧ st.total < p)
    (hincreasing : eovPositions.Pairwise (· < ·)) :
    ∃ lens' st', sendLoop cfg call start.endOfBurst eovPositions st.total st =
        (st', .ok call.nsampsPerBuff) ∧
      SendLoopInv cfg call start lens' st' ∧ st'.total = call.nsampsPerBuff := by
  have hrem := h.remaining
  induction eovPositions generalizing lens st with
  | nil =>
    -- no position is left: one more segment
    have hnone : ∀ p ∈ call.metadata.eovPositions, ¬ st.total < p := fun p hp hlt =>
      absurd ((hleft p).mpr ⟨hp, hlt⟩) List.not_mem_nil
    obtain ⟨st', hst', hinv, htotal⟩ := sendSegment_eq hquiet hspp h hpos (Nat.le_refl _)
      (fun p hp hlt => absurd hlt (hnone p hp))
      (decide_eq_false fun hp => hnone _ hp (by omega)).symm
    rw [hrem] at htotal
    refine ⟨_, st', ?_, hinv, htotal⟩
    rw [sendLoop, hst', ← htotal]
  | cons next eovPositions ih =>
    obtain ⟨hnext, hlt⟩ := (hleft next).mp List.mem_cons_self
    obtain ⟨hfirst, hrest⟩ := List.pairwise_cons.mp hincreasing
    have hwithin := (hvalid.within next hnext).2
    obtain ⟨st', hst', hinv, htotal⟩ := sendSegment_eq hquiet hspp h
      (Nat.sub_pos_of_lt hlt) (by omega)
      (fun p hp hlt => by
        rcases List.mem_cons.mp ((hleft p).mpr ⟨hp, hlt⟩) with rfl | hp
        · omega
        · have := hfirst p hp
          omega)
      (decide_eq_true (by rwa [Nat.add_sub_cancel' (Nat.le_of_lt hlt)])).symm
    rw [Nat.add_sub_cancel' (Nat.le_of_lt hlt)] at htotal
    have hrem' := hinv.remaining
    rw [sendLoop, if_neg (Nat.not_le.mpr hlt), if_neg (Nat.not_lt.mpr hwithin)]
    simp only [hst']
    by_cases hpos' : 0 < st'.remaining
    · rw [if_pos hpos']
      refine ih hinv hpos' (fun p => ⟨fun hp => ?_, fun hp => ?_⟩) hrest hrem'
      · exact ⟨((hleft p).mp (List.mem_cons_of_mem _ hp)).1, htotal ▸ hfirst p hp⟩
      · rcases List.mem_cons.mp ((hleft p).mpr ⟨hp.1, by omega⟩) with rfl | hp'
        · omega
        · exact hp'
    · have hall : st'.total = call.nsampsPerBuff := by omega
      rw [if_neg hpos', hall]
      exact ⟨_, st', rfl, hinv, hall⟩

/-! ## Calls -/

/-- The packets of a call with samples, with the number of samples in each. -/
structure SamplesSent (cfg : TxStreamerConfig κ α β) (cached : Option TxMetadata)
    (call : TxSendCall κ α) (lens : List ℕ) (ps : List (TxPacket κ β)) : Prop where
  length : ps.length = lens.length
  sum : lens.sum = call.nsampsPerBuff
  bounds : ∀ len ∈ lens, 0 < len ∧ len ≤ cfg.spp
  /-- The samples of the caller in order. -/
  payload : ∀ i p, ps[i]? = some p → lens[i]? = some p.nsamps ∧
    p.info.payloadBytes = p.nsamps * cfg.bytesPerItem ∧
    p.payload = fun k => cfg.conv k (samples call.buffs k (lens.take i).sum p.nsamps)
  eov : ∀ i p, ps[i]? = some p →
    (p.info.eov = true ↔ (lens.take (i + 1)).sum ∈ call.metadata.eovPositions)
  /-- Every position is the end of a packet. -/
  eovPositions : ∀ q ∈ call.metadata.eovPositions, ∃ i < ps.length, (lens.take (i + 1)).sum = q
  eobLast : ∀ i p, ps[i]? = some p → p.info.eob = true → i + 1 = ps.length
  eob : (∀ m, cached = some m → m.endOfBurst = call.metadata.endOfBurst) →
    ∀ i p, ps[i]? = some p →
      (p.info.eob = true ↔ call.metadata.endOfBurst = true ∧ i + 1 = ps.length)
  startOfBurst : ∀ i p, ps[i]? = some p →
    (p.startOfBurst = true ↔ (cached ≠ none ∨ call.metadata.startOfBurst = true) ∧ i = 0)
  tsf : ∀ i p, ps[i]? = some p →
    p.info.hasTsf = (call.metadata.check cached).hasTimeSpec ∧
      (p.info.hasTsf = true →
        p.info.tsf = tsfAfter cfg (call.metadata.check cached) (lens.take i).sum)

/-- The packet of a call without samples that does not start a burst. -/
structure NothingSent (cfg : TxStreamerConfig κ α β) (cached : Option TxMetadata)
    (call : TxSendCall κ α) (p : TxPacket κ β) : Prop where
  payload : p.nsamps = 1 ∧ p.info.payloadBytes = cfg.bytesPerItem ∧
    p.payload = fun k => cfg.conv k [cfg.zero]
  eov : p.info.eov = false
  eob : (∀ m, cached = some m → m.endOfBurst = call.metadata.endOfBurst) →
    p.info.eob = call.metadata.endOfBurst
  startOfBurst : p.startOfBurst = true ↔ cached ≠ none
  tsf : p.info.hasTsf = (call.metadata.check cached).hasTimeSpec ∧
    (p.info.hasTsf = true → p.info.tsf = tsfAfter cfg (call.metadata.check cached) 0)

/-- What a call sends. -/
def CallSent (cfg : TxStreamerConfig κ α β) (cached : Option TxMetadata)
    (call : TxSendCall κ α) (ps : List (TxPacket κ β)) : Prop :=
  if call.nsampsPerBuff = 0 then
    if call.metadata.startOfBurst = true then ps = []
    else ∃ p, ps = [p] ∧ NothingSent cfg cached call p
  else ∃ lens, SamplesSent cfg cached call lens ps

/-- What one call after the other sends. -/
def SentInTurn (cfg : TxStreamerConfig κ α β) :
    Option TxMetadata → List (TxSendCall κ α) → List (List (TxPacket κ β)) → Prop
  | _, [], pss => pss = []
  | cached, call :: calls, pss => ∃ ps rest, pss = ps :: rest ∧
      CallSent cfg cached call ps ∧ SentInTurn cfg call.cached calls rest

theorem endOfBurst_check {cached : Option TxMetadata} {metadata : TxMetadata}
    (h : ∀ m, cached = some m → m.endOfBurst = metadata.endOfBurst) :
    (metadata.check cached).endOfBurst = metadata.endOfBurst := by
  cases cached with
  | none => rfl
  | some m => exact h m rfl

theorem startOfBurst_check {cached : Option TxMetadata}
    (h : ∀ m, cached = some m → m.startOfBurst = true) (metadata : TxMetadata) :
    (metadata.check cached).startOfBurst = true ↔
      cached ≠ none ∨ metadata.startOfBurst = true := by
  cases cached with
  | none => exact ⟨Or.inr, fun hs => hs.resolve_left fun hne => hne rfl⟩
  | some m => exact iff_of_true (h m rfl) (Or.inl nofun)

theorem SendLoopInv.samplesSent (hvalid : call.Valid) {cached : Option TxMetadata}
    (hcached : ∀ m, cached = some m → m.startOfBurst = true)
    (h : SendLoopInv cfg call (call.metadata.check cached) lens st)
    (htotal : st.total = call.nsampsPerBuff) : SamplesSent cfg cached call lens st.sent := by
  have hsum : lens.sum = call.nsampsPerBuff := h.total.symm.trans htotal
  have hlength : st.sent.length = lens.length := by rw [h.sent, length_cut]
  have hposLens : ∀ len ∈ lens, 0 < len := fun len hlen => (h.bounds len hlen).1
  have hat : ∀ i p, st.sent[i]? = some p → ∃ len, lens[i]? = some len ∧
      wantedPacket cfg call (call.metadata.check cached) (lens.take i).sum len = p := by
    intro i p hp
    rw [h.sent, getElem?_cut, Option.map_eq_some_iff] at hp
    obtain ⟨len, hlen, hp⟩ := hp
    rw [Nat.zero_add] at hp
    exact ⟨len, hlen, hp⟩
  have hlast : ∀ i len, lens[i]? = some len →
      ((lens.take i).sum + len = call.nsampsPerBuff ↔ i + 1 = st.sent.length) := by
    intro i len hlen
    rw [← sum_take_succ_of_getElem? hlen, ← hsum, hlength]
    exact sum_take_eq_sum_iff hposLens (List.getElem?_eq_some_iff.mp hlen).1
  refine ⟨hlength, hsum, h.bounds, ?_, ?_, ?_, ?_, ?_, ?_, ?_⟩
  · intro i p hp
    obtain ⟨len, hlen, rfl⟩ := hat i p hp
    exact ⟨hlen, rfl, rfl⟩
  · intro i p hp
    obtain ⟨len, hlen, rfl⟩ := hat i p hp
    rw [sum_take_succ_of_getElem? hlen]
    exact decide_eq_true_iff
  · intro q hq
    obtain ⟨hqpos, hqle⟩ := hvalid.within q hq
    obtain ⟨i, hi, hiq⟩ := h.ends q hq (htotal ▸ hqle)
    cases i with
    | zero =>
      rw [List.take_zero, List.sum_nil] at hiq
      omega
    | succ i => exact ⟨i, hlength ▸ hi, hiq⟩
  · intro i p hp heob
    obtain ⟨len, hlen, rfl⟩ := hat i p hp
    rw [wantedPacket, Bool.and_eq_true, beq_iff_eq] at heob
    exact (hlast i len hlen).mp heob.2
  · intro hagrees i p hp
    obtain ⟨len, hlen, rfl⟩ := hat i p hp
    rw [wantedPacket, Bool.and_eq_true, beq_iff_eq, hlast i len hlen, endOfBurst_check hagrees]
  · intro i p hp
    obtain ⟨len, hlen, rfl⟩ := hat i p hp
    rw [wantedPacket, Bool.and_eq_true, beq_iff_eq, startOfBurst_check hcached,
      sum_take_eq_zero_iff hposLens (Nat.le_of_lt (List.getElem?_eq_some_iff.mp hlen).1)]
  · intro i p hp
    obtain ⟨len, hlen, rfl⟩ := hat i p hp
    exact ⟨rfl, fun htime => if_pos htime⟩

theorem send_of_no_samples {s : TxStreamer κ β} (hconnected : cfg.allChansConnected = true)
    (hquiet : call.Undisturbed) (hvalid : call.Valid)
    (hcached : ∀ m, s.metadataCache = some m → m.startOfBurst = true)
    (hzero : call.nsampsPerBuff = 0) (hsob : call.metadata.startOfBurst = false) :
    ∃ p, send cfg s call = ({ metadataCache := none, sent := s.sent ++ [p] }, .ok 0) ∧
      NothingSent cfg s.metadataCache call p := by
  have hnone : call.metadata.eovPositions = [] := by
    rcases hpos : call.metadata.eovPositions with - | ⟨p, ps⟩
    · rfl
    · have := hvalid.within p (by rw [hpos]; exact List.mem_cons_self)
      omega
  have hmetadata : MetadataAt cfg (call.metadata.check s.metadataCache) 0
      (call.metadata.check s.metadataCache) := metadataAt_start
  have hloop : sendLoop cfg call (call.metadata.check s.metadataCache).endOfBurst [] 0
      { metadata := call.metadata.check s.metadataCache, remaining := 0 } =
      ({ metadata := call.metadata.check s.metadataCache
         remaining := 0
         sent := [zeroPacket cfg (call.metadata.check s.metadataCache)] }, .ok 0) := by
    rw [sendLoop, sendSegment, if_pos rfl, hquiet.buffsAvailable]
    rfl
  refine ⟨zeroPacket cfg (call.metadata.check s.metadataCache), ?_, ?_⟩
  · rw [send, hquiet.sequenceError, hconnected, hsob, if_neg Bool.false_ne_true, if_neg nofun,
      if_neg fun h => nomatch h.2]
    simp only [TxMetadata.eovPositions_check, hnone, hzero, hloop]
  · refine ⟨⟨rfl, Nat.one_mul _, rfl⟩, rfl, endOfBurst_check, ?_, rfl, fun htime => ?_⟩
    · refine (startOfBurst_check hcached _).trans ⟨fun hs => ?_, Or.inl⟩
      exact hs.resolve_right (by rw [hsob]; exact Bool.false_ne_true)
    · refine (if_pos htime).trans ?_
      rw [tsfAfter, ← TimeSpec.ext_of_realSecs ((hmetadata.time htime).trans
        (TimeSpec.realSecs_ofSecs _).symm)]

theorem send_eq {s : TxStreamer κ β} (hspp : 0 < cfg.spp)
    (hconnected : cfg.allChansConnected = true) (hquiet : call.Undisturbed)
    (hvalid : call.Valid) (hcached : ∀ m, s.metadataCache = some m → m.startOfBurst = true) :
    ∃ ps, send cfg s call =
        ({ metadataCache := call.cached, sent := s.sent ++ ps }, .ok call.nsampsPerBuff) ∧
      CallSent cfg s.metadataCache call ps := by
  by_cases hzero : call.nsampsPerBuff = 0
  · cases hsob : call.metadata.startOfBurst with
    | true =>
      refine ⟨[], ?_, by rw [CallSent, if_pos hzero, if_pos hsob]⟩
      rw [send, hquiet.sequenceError, hconnected, TxSendCall.cached, hzero, hsob,
        List.append_nil]
      rfl
    | false =>
      obtain ⟨p, hsend, hp⟩ := send_of_no_samples hconnected hquiet hvalid hcached hzero hsob
      refine ⟨[p], ?_, ?_⟩
      · rw [hsend, TxSendCall.cached, hsob, hzero]
        rfl
      · rw [CallSent, if_pos hzero, if_neg (by rw [hsob]; exact Bool.false_ne_true)]
        exact ⟨p, rfl, hp⟩
  · have hfirst : SendLoopInv cfg call (call.metadata.check s.metadataCache) []
        { metadata := call.metadata.check s.metadataCache, remaining := call.nsampsPerBuff } :=
      { sent := rfl
        total := rfl
        remaining := Nat.zero_add _
        bounds := fun len hlen => absurd hlen List.not_mem_nil
        metadata := fun _ => metadataAt_start
        ends := fun p _ hle => ⟨0, Nat.le_refl _, (Nat.le_zero.mp hle).symm⟩ }
    obtain ⟨lens, st, hloop, hinv, htotal⟩ := sendLoop_eq hquiet hvalid hspp hfirst
      (Nat.pos_of_ne_zero hzero)
      (fun p => ⟨fun hp => ⟨hp, (hvalid.within p hp).1⟩, And.left⟩) hvalid.increasing
    refine ⟨st.sent, ?_, ?_⟩
    · rw [send, hquiet.sequenceError, hconnected, if_neg Bool.false_ne_true,
        if_neg nofun, if_neg fun h => hzero h.1, TxSendCall.cached, if_neg fun h => hzero h.1]
      simp only [TxMetadata.eovPositions_check, hloop]
    · rw [CallSent, if_neg hzero]
      exact ⟨lens, hinv.samplesSent hvalid hcached htotal⟩

theorem startOfBurst_cached {m : TxMetadata} (h : call.cached = some m) :
    m.startOfBurst = true := by
  rw [TxSendCall.cached] at h
  split_ifs at h with hcond
  rw [Option.some_inj] at h
  exact h ▸ hcond.2

/-! ## One call after the other -/

theorem sendAll_eq (hspp : 0 < cfg.spp) (hconnected : cfg.allChansConnected = true)
    {calls : List (TxSendCall κ α)} (hvalid : ∀ call ∈ calls, call.Valid)
    (hquiet : ∀ call ∈ calls, call.Undisturbed) {s : TxStreamer κ β}
    (hcached : ∀ m, s.metadataCache = some m → m.startOfBurst = true) :
    ∃ pss, (sendAll cfg s calls).1.sent = s.sent ++ pss.flatten ∧
      (sendAll cfg s calls).2 = calls.map (fun call => .ok call.nsampsPerBuff) ∧
      SentInTurn cfg s.metadataCache calls pss := by
  induction calls generalizing s with
  | nil => exact ⟨[], (List.append_nil _).symm, rfl, rfl⟩
  | cons call calls ih =>
    obtain ⟨hv, hvs⟩ := List.forall_mem_cons.mp hvalid
    obtain ⟨hq, hqs⟩ := List.forall_mem_cons.mp hquiet
    obtain ⟨ps, hsend, hps⟩ := send_eq hspp hconnected hq hv hcached
    obtain ⟨pss, hsent, hresults, hturn⟩ := ih hvs hqs
      (s := { metadataCache := call.cached, sent := s.sent ++ ps })
      fun m hm => startOfBurst_cached hm
    refine ⟨ps :: pss, ?_, ?_, ps, pss, rfl, hps, hturn⟩
    · rw [sendAll, hsend]
      exact hsent.trans (by rw [List.flatten_cons, List.append_assoc])
    · rw [sendAll, hsend, List.map_cons]
      exact congrArg _ hresults

/-- **Whatever is sent call by call**, each call sends its packets in turn and returns the
number of its samples. -/
theorem sentInTurn_of_sendAll (hspp : 0 < cfg.spp) (hconnected : cfg.allChansConnected = true)
    {calls : List (TxSendCall κ α)} (hvalid : ∀ call ∈ calls, call.Valid)
    (hquiet : ∀ call ∈ calls, call.Undisturbed) :
    ∃ pss, (sendAll cfg {} calls).1.sent = pss.flatten ∧
      (sendAll cfg {} calls).2 = calls.map (fun call => .ok call.nsampsPerBuff) ∧
      SentInTurn cfg none calls pss :=
  sendAll_eq hspp hconnected hvalid hquiet fun _ h => nomatch h

/-- One channel, two samples to a packet, samples sent as they are. -/
def twoToAPacket : TxStreamerConfig Unit ℕ (List ℕ) where
  spp := 2
  bytesPerItem := 4
  conv := fun _ xs => xs
  zero := 0

/-- A call with the samples `0`, `1`, and so on. -/
def countingCall (nsamps : ℕ) (metadata : TxMetadata) : TxSendCall Unit ℕ where
  buffs := fun _ i => i
  nsampsPerBuff := nsamps
  metadata := metadata

/-- A burst is started without samples, sent, and ended without samples. -/
def burst : List (TxSendCall Unit ℕ) :=
  [countingCall 0 { startOfBurst := true },
    countingCall 7 { eovPositions := [3, 4] },
    countingCall 0 { endOfBurst := true }]

theorem sentInTurn_of_burst : ∃ pss,
    (sendAll twoToAPacket {} burst).1.sent = pss.flatten ∧
      (sendAll twoToAPacket {} burst).2 = [.ok 0, .ok 7, .ok 0] ∧
      SentInTurn twoToAPacket none burst pss :=
  sentInTurn_of_sendAll (by decide) rfl
    (List.forall_mem_cons.mpr ⟨⟨by decide, by decide⟩, List.forall_mem_cons.mpr
      ⟨⟨by decide, by decide⟩, List.forall_mem_cons.mpr ⟨⟨by decide, by decide⟩,
        List.forall_mem_nil _⟩⟩⟩)
    (List.forall_mem_cons.mpr ⟨⟨rfl, fun _ => rfl, fun _ => rfl⟩, List.forall_mem_cons.mpr
      ⟨⟨rfl, fun _ => rfl, fun _ => rfl⟩, List.forall_mem_cons.mpr
        ⟨⟨rfl, fun _ => rfl, fun _ => rfl⟩, List.forall_mem_nil _⟩⟩⟩)

example : ((sendAll twoToAPacket {} burst).1.sent.map fun p =>
    (p.payload (), p.info.eov, p.info.eob, p.startOfBurst)) =
    [([0, 1], false, false, true), ([2], true, false, false), ([3], true, false, false),
      ([4, 5], false, false, false), ([6], false, false, false), ([0], false, true, false)] := by
  decide

/-- The packet that ends a burst without samples carries one that the caller did not send. -/
theorem sample_of_empty_call :
    (countingCall 0 { endOfBurst := true }).Valid ∧
      (countingCall 0 { endOfBurst := true }).Undisturbed ∧
      (send twoToAPacket {} (countingCall 0 { endOfBurst := true })).1.sent.flatMap
          (fun p => p.payload ()) ≠
        samples (countingCall 0 { endOfBurst := true }).buffs () 0 0 :=
  ⟨⟨by decide, by decide⟩, ⟨rfl, fun _ => rfl, fun _ => rfl⟩, by decide⟩

end TxStreamer
end Transport
end UhdHost
