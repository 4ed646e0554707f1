import UhdHost.Library.Transition
import UhdHost.Transport.VrtIfPacket
import UhdHost.Types.Metadata

/-!
# The send packet handler

`send_packet_handler` of `transport/super_send_packet_handler.hpp`, which streams to the devices
that speak VRT: a call of `send` becomes one packet, or as many as are needed if there are more
samples than one packet may have.  The info of a packet is made of the metadata of the call.  A call
without samples that starts a burst sends nothing; its metadata is cached and applies to the next
call that has samples.

## Where one packet and many disagree

A call that fits into a packet takes the end of the burst from the metadata that was cached.  A call
that does not takes it from its own metadata, as it should, but takes the time of every packet but
the first from its own metadata too, also where it has no time and the cached one applies.

## What is left out

That a timeout on one channel leaves the buffers of the channels before it for the next packet, the
words that the header packer writes (`Vrt.ifHdrPack`), and the rounding of floating point numbers.
Whether every channel yields a buffer is part of the call, by the number of packets it has sent.
-/

namespace UhdHost
namespace Transport

open Vrt

/-- How the handler is configured. -/
structure SendPacketHandlerConfig (α β : Type) where
  /-- The number of channels. -/
  size : ℕ
  /-- `_has_tlr` -/
  hasTlr : Bool := true
  /-- `_tick_rate` -/
  tickRate : ℚ
  /-- `_samp_rate` -/
  sampRate : ℚ
  /-- `_max_samples_per_packet` -/
  maxSamplesPerPacket : ℕ
  /-- `_num_inputs` -/
  numInputs : ℕ := 1
  /-- `_bytes_per_otw_item` -/
  bytesPerOtwItem : ℕ
  /-- Whether `SSPH_DONT_PAD_TO_ONE` is not defined. -/
  padToOne : Bool := true
  /-- The stream ID of a channel, where it has one. -/
  sid : ℕ → Option (BitVec 32) := fun _ => none
  /-- `_converter`, of the samples of each input -/
  conv : List (List α) → β
  /-- The sample that `_zero_buffs` point to. -/
  zero : α

/-- A call of `send`. -/
structure SendCall (α : Type) where
  buffs : ℕ → ℕ → α
  nsampsPerBuff : ℕ
  metadata : TxMetadata
  /-- Every channel yields a buffer, after so many packets. -/
  buffsAvailable : ℕ → Bool := fun _ => true

/-- What is sent on all channels at once. -/
structure SentPacket (β : Type) where
  /-- The info that the channels share. -/
  info : IfPacketInfo
  nsamps : ℕ
  /-- What each channel packs and sends. -/
  chans : List (IfPacketInfo × β)

/-- `send_packet_handler`, what changes -/
structure SendPacketHandler where
  /-- `_next_packet_seq` -/
  nextPacketSeq : ℕ := 0
  /-- `_metadata_cache`, while `_cached_metadata` is set -/
  metadataCache : Option TxMetadata := none
  deriving DecidableEq

/-- The variables of the loop in `send`. -/
structure SendLoop (β : Type) where
  handler : SendPacketHandler
  info : IfPacketInfo
  /-- `total_num_samps_sent` -/
  total : ℕ := 0
  sent : List (SentPacket β) := []

namespace SendPacketHandler

variable {α β : Type}

/-- `to_ticks`, as it is written to `tsf` -/
def ticks (cfg : SendPacketHandlerConfig α β) (timeSpec : TimeSpec) : BitVec 64 :=
  BitVec.ofInt 64 (timeSpec.toTicks cfg.tickRate)

/-- The metadata of a call, as an info. -/
def callInfo (cfg : SendPacketHandlerConfig α β) (metadata : TxMetadata) : IfPacketInfo where
  hasTlr := cfg.hasTlr
  hasTsf := metadata.hasTimeSpec
  tsf := ticks cfg metadata.timeSpec
  sob := metadata.startOfBurst
  eob := metadata.endOfBurst

/-- Cached metadata is applied. -/
def applyCache (cfg : SendPacketHandlerConfig α β) (metadata cached : TxMetadata)
    (info : IfPacketInfo) : IfPacketInfo :=
  let timed :=
    if metadata.hasTimeSpec then info
    else { info with hasTsf := cached.hasTimeSpec, tsf := ticks cfg cached.timeSpec }
  { timed with sob := cached.startOfBurst, eob := cached.endOfBurst }

/-- `send_one_packet`, where every channel yields a buffer. -/
def sendOnePacket (cfg : SendPacketHandlerConfig α β) (h : SendPacketHandler)
    (buffs : ℕ → ℕ → α) (nsamps : ℕ) (info : IfPacketInfo) (offset : ℕ) :
    SendPacketHandler × SentPacket β :=
  let numPayloadBytes := nsamps * cfg.numInputs * cfg.bytesPerOtwItem
  let info := { info with
    numPayloadBytes := numPayloadBytes
    numPayloadWords32 := (numPayloadBytes + 3) / 4
    packetCount := h.nextPacketSeq }
  ({ h with nextPacketSeq := h.nextPacketSeq + 1 },
    { info := info
      nsamps := nsamps
      chans := (List.range cfg.size).map fun index =>
        ({ info with hasSid := (cfg.sid index).isSome, sid := (cfg.sid index).getD 0 },
          cfg.conv ((List.range cfg.numInputs).map fun i =>
            (List.range nsamps).map fun j => buffs (index * cfg.numInputs + i) (offset + j))) })

/-- The loop over the fragments but the last.  False where the call ends with it. -/
def sendFragments (cfg : SendPacketHandlerConfig α β) (call : SendCall α) :
    ℕ → SendLoop β → SendLoop β × Bool
  | 0, st => (st, true)
  | numFragments + 1, st =>
    if call.buffsAvailable st.sent.length then
      let (handler, packet) := sendOnePacket cfg st.handler call.buffs cfg.maxSamplesPerPacket
        st.info st.total
      let total := st.total + cfg.maxSamplesPerPacket
      sendFragments cfg call numFragments
        { handler := handler
          info := { st.info with
            tsf := ticks cfg (call.metadata.timeSpec + TimeSpec.fromTicks total cfg.sampRate)
            sob := false }
          total := total
          sent := st.sent ++ [packet] }
    else (st, false)

/-- A call that fits into one packet, or needs none. -/
def sendSingle (cfg : SendPacketHandlerConfig α β) (h : SendPacketHandler) (call : SendCall α)
    (info : IfPacketInfo) : SendPacketHandler × List (SentPacket β) × ℕ :=
  if cfg.padToOne = true ∧ call.nsampsPerBuff = 0 ∧ call.metadata.startOfBurst = true then
    ({ h with metadataCache := some call.metadata }, [], 0)
  else if call.buffsAvailable 0 then
    let (handler, packet) :=
      if cfg.padToOne = true ∧ call.nsampsPerBuff = 0 then
        sendOnePacket cfg h (fun _ _ => cfg.zero) 1 info 0
      else sendOnePacket cfg h call.buffs call.nsampsPerBuff info 0
    (handler, [packet], call.nsampsPerBuff)
  else (h, [], 0)

/-- A call that needs several packets. -/
def sendMany (cfg : SendPacketHandlerConfig α β) (h : SendPacketHandler) (call : SendCall α)
    (info : IfPacketInfo) : SendPacketHandler × List (SentPacket β) × ℕ :=
  let numFragments := (call.nsampsPerBuff - 1) / cfg.maxSamplesPerPacket
  let finalLength := (call.nsampsPerBuff - 1) % cfg.maxSamplesPerPacket + 1
  match sendFragments cfg call numFragments
      { handler := h, info := { info with eob := false } } with
  | (st, false) => (st.handler, st.sent, st.total)
  | (st, true) =>
    if call.buffsAvailable st.sent.length then
      let (handler, packet) := sendOnePacket cfg st.handler call.buffs finalLength
        { st.info with eob := call.metadata.endOfBurst } st.total
      (handler, st.sent ++ [packet], st.total + finalLength)
    else (st.handler, st.sent, st.total)

/-- `send`: the packets, and the number that is returned.  It does not return if it divides by
zero. -/
def send (cfg : SendPacketHandlerConfig α β) (h : SendPacketHandler) (call : SendCall α) :
    Option (SendPacketHandler × List (SentPacket β) × ℕ) :=
  let info := callInfo cfg call.metadata
  let (h, info) :=
    match h.metadataCache with
    | none => (h, info)
    | some cached =>
      if call.nsampsPerBuff ≠ 0 then
        ({ h with metadataCache := none }, applyCache cfg call.metadata cached info)
      else (h, info)
  if call.nsampsPerBuff ≤ cfg.maxSamplesPerPacket then some (sendSingle cfg h call info)
  else if cfg.maxSamplesPerPacket = 0 then none
  else some (sendMany cfg h call info)

/-! ## What a call should send -/

/-- A call, the metadata that was cached when it was made, and what it has sent. -/
structure SendRecord (α β : Type) where
  cached : Option TxMetadata
  call : SendCall α
  sent : List (SentPacket β)

/-- The metadata that applies to a call: cached metadata gives the start of the burst, and the time
where the call has none. -/
def SendRecord.effective (r : SendRecord α β) : TxMetadata :=
  match r.cached with
  | none => r.call.metadata
  | some cached =>
    if r.call.nsampsPerBuff = 0 then r.call.metadata
    else
      { r.call.metadata with
        hasTimeSpec := r.call.metadata.hasTimeSpec || cached.hasTimeSpec
        timeSpec := if r.call.metadata.hasTimeSpec then r.call.metadata.timeSpec
          else cached.timeSpec
        startOfBurst := cached.startOfBurst }

/-- The samples that a call has sent before a packet. -/
def SendRecord.sentBefore (r : SendRecord α β) (k : ℕ) : ℕ :=
  ((r.sent.take k).map SentPacket.nsamps).sum

/-- **What every packet of a call should say**: the time of its first sample, the start of the burst
on the first packet, and its end on the last if the call asks for it. -/
structure SendRecord.Right (cfg : SendPacketHandlerConfig α β) (r : SendRecord α β) : Prop where
  hasTsf : ∀ (k : ℕ) (p : SentPacket β), r.sent[k]? = some p →
    p.info.hasTsf = r.effective.hasTimeSpec
  tsf : ∀ (k : ℕ) (p : SentPacket β), r.sent[k]? = some p → r.effective.hasTimeSpec = true →
    p.info.tsf = ticks cfg
      (r.effective.timeSpec + TimeSpec.fromTicks (r.sentBefore k) cfg.sampRate)
  sob : ∀ (k : ℕ) (p : SentPacket β), r.sent[k]? = some p →
    p.info.sob = (r.effective.startOfBurst && k == 0)
  eob : ∀ (k : ℕ) (p : SentPacket β), r.sent[k]? = some p →
    p.info.eob = (r.call.metadata.endOfBurst &&
      decide (r.call.nsampsPerBuff ≤ r.sentBefore k + p.nsamps))

/-- The handler, and the calls that were made. -/
structure SendHistory (α β : Type) where
  handler : SendPacketHandler := {}
  records : List (SendRecord α β) := []

/-- A call is made. -/
def sendStep (cfg : SendPacketHandlerConfig α β) (s : SendHistory α β) (call : SendCall α) :
    Option (SendHistory α β) :=
  (send cfg s.handler call).map fun (handler, sent, _) =>
    { handler := handler
      records := s.records ++ [⟨s.handler.metadataCache, call, sent⟩] }

/-- **The condition on a call**, where cached metadata applies to it.  If it fits into a packet, the
cached metadata has the same flag for the end of the burst.  If it does not, and a second packet
is sent, the time is that of the call, or there is none, or both times are the same ticks. -/
def AgreesWithCache (cfg : SendPacketHandlerConfig α β) (s : SendHistory α β)
    (call : SendCall α) : Prop :=
  ∀ cached, s.handler.metadataCache = some cached → call.nsampsPerBuff ≠ 0 →
    if call.nsampsPerBuff ≤ cfg.maxSamplesPerPacket then
      call.buffsAvailable 0 = true → cached.endOfBurst = call.metadata.endOfBurst
    else
      ∀ k, 0 < k → k * cfg.maxSamplesPerPacket < call.nsampsPerBuff →
        (∀ i ≤ k, call.buffsAvailable i = true) →
          call.metadata.hasTimeSpec = false → cached.hasTimeSpec = true →
            ticks cfg (call.metadata.timeSpec +
                TimeSpec.fromTicks (k * cfg.maxSamplesPerPacket : ℕ) cfg.sampRate) =
              ticks cfg (cached.timeSpec +
                TimeSpec.fromTicks (k * cfg.maxSamplesPerPacket : ℕ) cfg.sampRate)

/-! ## The fragments -/

/-- The info of packet `k` of a call that needs several, where the loop was begun with `info`. -/
structure InfoAt (cfg : SendPacketHandlerConfig α β) (call : SendCall α) (info : IfPacketInfo)
    (k : ℕ) (i : IfPacketInfo) : Prop where
  hasTsf : i.hasTsf = info.hasTsf
  tsf : i.tsf = if k = 0 then info.tsf else ticks cfg (call.metadata.timeSpec +
    TimeSpec.fromTicks (k * cfg.maxSamplesPerPacket : ℕ) cfg.sampRate)
  sob : i.sob = (info.sob && k == 0)
  eob : i.eob = info.eob

/-- What is known after some of the packets but the last are sent. -/
structure FragmentsInv (cfg : SendPacketHandlerConfig α β) (call : SendCall α)
    (info : IfPacketInfo) (st : SendLoop β) : Prop where
  sent : ∀ (k : ℕ) (p : SentPacket β), st.sent[k]? = some p →
    p.nsamps = cfg.maxSamplesPerPacket ∧ InfoAt cfg call info k p.info
  available : ∀ i < st.sent.length, call.buffsAvailable i = true
  total : st.total = st.sent.length * cfg.maxSamplesPerPacket
  next : InfoAt cfg call info st.sent.length st.info

variable {cfg : SendPacketHandlerConfig α β} {call : SendCall α} {info : IfPacketInfo}
  {st : SendLoop β}

theorem FragmentsInv.step (h : FragmentsInv cfg call info st)
    (havailable : call.buffsAvailable st.sent.length = true) :
    FragmentsInv cfg call info
      { handler := (sendOnePacket cfg st.handler call.buffs cfg.maxSamplesPerPacket st.info
          st.total).1
        info := { st.info with
          tsf := ticks cfg (call.metadata.timeSpec +
            TimeSpec.fromTicks (st.total + cfg.maxSamplesPerPacket : ℕ) cfg.sampRate)
          sob := false }
        total := st.total + cfg.maxSamplesPerPacket
        sent := st.sent ++ [(sendOnePacket cfg st.handler call.buffs cfg.maxSamplesPerPacket
          st.info st.total).2] } := by
  have hlength : ∀ p : SentPacket β, (st.sent ++ [p]).length = st.sent.length + 1 := by
    intro p
    rw [List.length_append, List.length_singleton]
  refine ⟨fun k p hk => ?_, fun i hi => ?_, ?_, ?_⟩
  · rcases Transition.getElem?_concat_eq_some.mp hk with hk | ⟨rfl, rfl⟩
    · exact h.sent k p hk
    · exact ⟨rfl, h.next.hasTsf, h.next.tsf, h.next.sob, h.next.eob⟩
  · dsimp only at hi
    rw [hlength] at hi
    rcases Nat.lt_succ_iff_lt_or_eq.mp hi with hi | rfl
    · exact h.available i hi
    · exact havailable
  · dsimp only
    rw [hlength, Nat.succ_mul, h.total]
  · dsimp only
    rw [hlength]
    refine ⟨h.next.hasTsf, ?_, ?_, h.next.eob⟩
    · rw [if_neg (Nat.succ_ne_zero _), h.total, Nat.succ_mul]
    · rw [beq_eq_false_iff_ne.mpr (Nat.succ_ne_zero _), Bool.and_false]

theorem FragmentsInv.loop (numFragments : ℕ) (h : FragmentsInv cfg call info st)
    {st' : SendLoop β} {all : Bool} (hloop : sendFragments cfg call numFragments st = (st', all)) :
    FragmentsInv cfg call info st' ∧
      (all = true → st'.sent.length = st.sent.length + numFragments) ∧
      (all = false → st'.sent.length < st.sent.length + numFragments ∧
        call.buffsAvailable st'.sent.length = false) := by
  induction numFragments generalizing st with
  | zero =>
    rw [sendFragments, Prod.mk.injEq] at hloop
    obtain ⟨rfl, rfl⟩ := hloop
    exact ⟨h, fun _ => rfl, fun hall => Bool.noConfusion hall⟩
  | succ numFragments ih =>
    rw [sendFragments] at hloop
    split_ifs at hloop with havailable
    · obtain ⟨hinv, hall, hsome⟩ := ih (h.step havailable) hloop
      have hlength : (st.sent ++ [(sendOnePacket cfg st.handler call.buffs
          cfg.maxSamplesPerPacket st.info st.total).2]).length + numFragments =
            st.sent.length + (numFragments + 1) := by
        rw [List.length_append, List.length_singleton, Nat.add_right_comm, Nat.add_assoc]
      exact ⟨hinv, fun h => (hall h).trans hlength, fun h => ⟨hlength ▸ (hsome h).1, (hsome h).2⟩⟩
    · rw [Prod.mk.injEq] at hloop
      obtain ⟨rfl, rfl⟩ := hloop
      exact ⟨h, fun hall => Bool.noConfusion hall, fun _ =>
        ⟨Nat.lt_add_of_pos_right (Nat.succ_pos _), Bool.eq_false_iff.mpr havailable⟩⟩

/-- What is to be said of packet `k` of a call that needs several, among the packets `sent`. -/
structure FragmentAt (cfg : SendPacketHandlerConfig α β) (call : SendCall α) (info : IfPacketInfo)
    (sent : List (SentPacket β)) (k : ℕ) (p : SentPacket β) : Prop where
  hasTsf : p.info.hasTsf = info.hasTsf
  tsf : p.info.tsf = if k = 0 then info.tsf else ticks cfg (call.metadata.timeSpec +
    TimeSpec.fromTicks (k * cfg.maxSamplesPerPacket : ℕ) cfg.sampRate)
  sob : p.info.sob = (info.sob && k == 0)
  eob : p.info.eob = (call.metadata.endOfBurst &&
    decide (call.nsampsPerBuff ≤ k * cfg.maxSamplesPerPacket + p.nsamps))
  before : ((sent.take k).map SentPacket.nsamps).sum = k * cfg.maxSamplesPerPacket

theorem FragmentsInv.sum_take (h : FragmentsInv cfg call info st) {k : ℕ}
    (hk : k ≤ st.sent.length) :
    ((st.sent.take k).map SentPacket.nsamps).sum = k * cfg.maxSamplesPerPacket := by
  have hall : (st.sent.take k).map SentPacket.nsamps =
      List.replicate k cfg.maxSamplesPerPacket := by
    refine List.eq_replicate_iff.mpr ⟨?_, fun n hn => ?_⟩
    · rw [List.length_map, List.length_take, Nat.min_eq_left hk]
    · obtain ⟨p, hp, rfl⟩ := List.mem_map.mp hn
      obtain ⟨i, hi⟩ := List.getElem?_of_mem (List.mem_of_mem_take hp)
      exact (h.sent i p hi).1
  rw [hall, List.sum_replicate, smul_eq_mul]

theorem FragmentsInv.fragmentAt (h : FragmentsInv cfg call { info with eob := false } st)
    (hfull : st.sent.length * cfg.maxSamplesPerPacket < call.nsampsPerBuff) {k : ℕ}
    {p : SentPacket β} (hk : st.sent[k]? = some p) :
    FragmentAt cfg call info st.sent k p := by
  obtain ⟨hnsamps, hat⟩ := h.sent k p hk
  have hlt : k < st.sent.length := (List.getElem?_eq_some_iff.mp hk).1
  have hmore : ¬ call.nsampsPerBuff ≤ k * cfg.maxSamplesPerPacket + p.nsamps := by
    rw [hnsamps, ← Nat.succ_mul]
    exact Nat.not_le.mpr (Nat.lt_of_le_of_lt (Nat.mul_le_mul_right _ hlt) hfull)
  refine ⟨hat.hasTsf, hat.tsf, hat.sob, ?_, h.sum_take (Nat.le_of_lt hlt)⟩
  rw [hat.eob, decide_eq_false hmore, Bool.and_false]

theorem FragmentsInv.lt_length_iff (h : FragmentsInv cfg call info st)
    (hfull : st.sent.length * cfg.maxSamplesPerPacket < call.nsampsPerBuff)
    (hnone : call.buffsAvailable st.sent.length = false) (k : ℕ) :
    k < st.sent.length ↔ k * cfg.maxSamplesPerPacket < call.nsampsPerBuff ∧
      ∀ i ≤ k, call.buffsAvailable i = true := by
  constructor
  · intro hk
    exact ⟨Nat.lt_of_le_of_lt (Nat.mul_le_mul_right _ (Nat.le_of_lt hk)) hfull,
      fun i hi => h.available i (Nat.lt_of_le_of_lt hi hk)⟩
  · rintro ⟨-, hall⟩
    by_contra hnot
    exact Bool.noConfusion (hnone.symm.trans (hall _ (Nat.not_lt.mp hnot)))

/-- **The packets of a call that needs several.**  All but the last are full, and the last ends the
burst if the call asks for it; packets are sent as long as there are buffers. -/
theorem sendMany_sent (cfg : SendPacketHandlerConfig α β) (h : SendPacketHandler)
    (call : SendCall α) (info : IfPacketInfo) (hmax : 0 < cfg.maxSamplesPerPacket)
    (hlt : cfg.maxSamplesPerPacket < call.nsampsPerBuff) {sent : List (SentPacket β)}
    (hsent : (sendMany cfg h call info).2.1 = sent) :
    (∀ (k : ℕ) (p : SentPacket β), sent[k]? = some p → FragmentAt cfg call info sent k p) ∧
      ∀ k, k < sent.length ↔ k * cfg.maxSamplesPerPacket < call.nsampsPerBuff ∧
        ∀ i ≤ k, call.buffsAvailable i = true := by
  have hparts := Nat.div_add_mod' (call.nsampsPerBuff - 1) cfg.maxSamplesPerPacket
  have hinit : FragmentsInv (β := β) cfg call { info with eob := false }
      { handler := h, info := { info with eob := false } } := by
    refine ⟨fun k p hk => ?_, fun i hi => absurd hi (Nat.not_lt_zero i), (Nat.zero_mul _).symm,
      ⟨rfl, rfl, (Bool.and_true _).symm, rfl⟩⟩
    rw [List.getElem?_nil] at hk
    cases hk
  rw [sendMany] at hsent
  cases hloop : sendFragments cfg call ((call.nsampsPerBuff - 1) / cfg.maxSamplesPerPacket)
      { handler := h, info := { info with eob := false } } with
  | mk st all =>
    obtain ⟨hinv, hall, hsome⟩ := hinit.loop _ hloop
    rw [hloop] at hsent
    cases all with
    | false =>
      dsimp only at hsent
      subst hsent
      obtain ⟨hfew, hnone⟩ := hsome rfl
      have hfull : st.sent.length * cfg.maxSamplesPerPacket < call.nsampsPerBuff := by
        have := Nat.mul_le_mul_right cfg.maxSamplesPerPacket (Nat.le_of_lt hfew)
        rw [List.length_nil, Nat.zero_add] at this
        omega
      exact ⟨fun k p hk => hinv.fragmentAt hfull hk, hinv.lt_length_iff hfull hnone⟩
    | true =>
      have hcount := hall rfl
      rw [List.length_nil, Nat.zero_add] at hcount
      have hfull : st.sent.length * cfg.maxSamplesPerPacket < call.nsampsPerBuff := by
        rw [hcount]
        omega
      dsimp only at hsent
      split_ifs at hsent with havailable
      · dsimp only at hsent
        subst hsent
        refine ⟨fun k p hk => ?_, fun k => ?_⟩
        · rcases Transition.getElem?_concat_eq_some.mp hk with hk | ⟨rfl, rfl⟩
          · have hat := hinv.fragmentAt hfull hk
            refine ⟨hat.hasTsf, hat.tsf, hat.sob, hat.eob, ?_⟩
            rw [List.take_append_of_le_length
              (Nat.le_of_lt (List.getElem?_eq_some_iff.mp hk).1)]
            exact hat.before
          · refine ⟨hinv.next.hasTsf, hinv.next.tsf, hinv.next.sob, ?_, ?_⟩
            · have hlast : call.nsampsPerBuff ≤ st.sent.length * cfg.maxSamplesPerPacket +
                  ((call.nsampsPerBuff - 1) % cfg.maxSamplesPerPacket + 1) := by
                rw [hcount]
                omega
              exact (Bool.and_true _).symm.trans (congrArg _ (decide_eq_true hlast).symm)
            · rw [List.take_append_of_le_length (Nat.le_refl _)]
              exact hinv.sum_take (Nat.le_refl _)
        · rw [List.length_append, List.length_singleton, hcount, Nat.lt_succ_iff,
            Nat.le_div_iff_mul_le hmax]
          constructor
          · intro hk
            refine ⟨by omega, fun i hi => ?_⟩
            have hle : i ≤ (call.nsampsPerBuff - 1) / cfg.maxSamplesPerPacket :=
              Nat.le_trans hi ((Nat.le_div_iff_mul_le hmax).mpr hk)
            rcases Nat.lt_or_eq_of_le (hcount ▸ hle) with hi | rfl
            · exact hinv.available i hi
            · exact havailable
          · rintro ⟨hk, -⟩
            omega
      · dsimp only at hsent
        subst hsent
        exact ⟨fun k p hk => hinv.fragmentAt hfull hk,
          hinv.lt_length_iff hfull (Bool.eq_false_iff.mpr havailable)⟩

/-! ## One call -/

/-- The info that a call starts with. -/
def startInfo (cfg : SendPacketHandlerConfig α β) (cached : Option TxMetadata)
    (call : SendCall α) : IfPacketInfo :=
  match cached with
  | none => callInfo cfg call.metadata
  | some cached =>
    if call.nsampsPerBuff ≠ 0 then
      applyCache cfg call.metadata cached (callInfo cfg call.metadata)
    else callInfo cfg call.metadata

theorem startInfo_effective (cfg : SendPacketHandlerConfig α β) (r : SendRecord α β) :
    (startInfo cfg r.cached r.call).hasTsf = r.effective.hasTimeSpec ∧
      (startInfo cfg r.cached r.call).tsf = ticks cfg r.effective.timeSpec ∧
      (startInfo cfg r.cached r.call).sob = r.effective.startOfBurst := by
  unfold startInfo SendRecord.effective
  cases r.cached with
  | none => exact ⟨rfl, rfl, rfl⟩
  | some cached =>
    by_cases hzero : r.call.nsampsPerBuff = 0
    · dsimp only
      rw [if_neg (not_not.mpr hzero), if_pos hzero]
      exact ⟨rfl, rfl, rfl⟩
    · dsimp only
      rw [if_pos hzero, if_neg hzero, applyCache]
      cases htime : r.call.metadata.hasTimeSpec with
      | false => exact ⟨rfl, rfl, rfl⟩
      | true => exact ⟨htime, rfl, rfl⟩

theorem sent_of_send {h h' : SendPacketHandler} {sent : List (SentPacket β)} {n : ℕ}
    (hsend : send cfg h call = some (h', sent, n)) :
    (call.nsampsPerBuff ≤ cfg.maxSamplesPerPacket ∧ ∃ g,
        (sendSingle cfg g call (startInfo cfg h.metadataCache call)).2.1 = sent) ∨
      (0 < cfg.maxSamplesPerPacket ∧ cfg.maxSamplesPerPacket < call.nsampsPerBuff ∧ ∃ g,
        (sendMany cfg g call (startInfo cfg h.metadataCache call)).2.1 = sent) := by
  have hdispatch : ∀ (g : SendPacketHandler) (info : IfPacketInfo),
      (if call.nsampsPerBuff ≤ cfg.maxSamplesPerPacket then some (sendSingle cfg g call info)
        else if cfg.maxSamplesPerPacket = 0 then none
        else some (sendMany cfg g call info)) = some (h', sent, n) →
      (call.nsampsPerBuff ≤ cfg.maxSamplesPerPacket ∧ ∃ g,
        (sendSingle cfg g call info).2.1 = sent) ∨
      (0 < cfg.maxSamplesPerPacket ∧ cfg.maxSamplesPerPacket < call.nsampsPerBuff ∧ ∃ g,
        (sendMany cfg g call info).2.1 = sent) := by
    intro g info hsend
    split_ifs at hsend with hle hzero
    · exact Or.inl ⟨hle, g, congrArg (fun x => x.2.1) (Option.some_inj.mp hsend)⟩
    · exact Or.inr ⟨Nat.pos_of_ne_zero hzero, Nat.not_le.mp hle, g,
        congrArg (fun x => x.2.1) (Option.some_inj.mp hsend)⟩
  rw [send] at hsend
  unfold startInfo
  cases hcache : h.metadataCache with
  | none =>
    rw [hcache] at hsend
    exact hdispatch _ _ hsend
  | some cached =>
    rw [hcache] at hsend
    by_cases hzero : call.nsampsPerBuff = 0
    · dsimp only at hsend ⊢
      rw [if_neg (not_not.mpr hzero)] at hsend ⊢
      exact hdispatch _ _ hsend
    · dsimp only at hsend ⊢
      rw [if_pos hzero] at hsend ⊢
      exact hdispatch _ _ hsend

theorem sendSingle_sent (h : SendPacketHandler) {sent : List (SentPacket β)}
    (hsent : (sendSingle cfg h call info).2.1 = sent) :
    (∀ (k : ℕ) (p : SentPacket β), sent[k]? = some p → k = 0 ∧ call.buffsAvailable 0 = true ∧
        call.nsampsPerBuff ≤ p.nsamps ∧ p.info.hasTsf = info.hasTsf ∧ p.info.tsf = info.tsf ∧
        p.info.sob = info.sob ∧ p.info.eob = info.eob) ∧
      (call.nsampsPerBuff ≠ 0 → call.buffsAvailable 0 = true → ∃ p, sent[0]? = some p) := by
  have hempty : ∀ (k : ℕ) (p : SentPacket β), ([] : List (SentPacket β))[k]? ≠ some p := by
    intro k p hk
    rw [List.getElem?_nil] at hk
    cases hk
  have hone : ∀ (q : SentPacket β) (k : ℕ) (p : SentPacket β),
      ([q] : List (SentPacket β))[k]? = some p → k = 0 ∧ p = q := by
    intro q k p hk
    rcases Transition.getElem?_concat_eq_some (l := []).mp hk with hk | ⟨rfl, rfl⟩
    · exact absurd hk (hempty k p)
    · exact ⟨rfl, rfl⟩
  rw [sendSingle] at hsent
  split_ifs at hsent with hcached havailable hpad
  · subst hsent
    exact ⟨fun k p hk => absurd hk (hempty k p), fun hnot => absurd hcached.2.1 hnot⟩
  · subst hsent
    refine ⟨fun k p hk => ?_, fun hnot => absurd hpad.2 hnot⟩
    obtain ⟨rfl, rfl⟩ := hone _ k p hk
    exact ⟨rfl, havailable, Nat.le_trans (Nat.le_of_eq hpad.2) (Nat.zero_le _), rfl, rfl, rfl, rfl⟩
  · subst hsent
    refine ⟨fun k p hk => ?_, fun _ _ => ⟨_, rfl⟩⟩
    obtain ⟨rfl, rfl⟩ := hone _ k p hk
    exact ⟨rfl, havailable, Nat.le_refl _, rfl, rfl, rfl, rfl⟩
  · subst hsent
    exact ⟨fun k p hk => absurd hk (hempty k p), fun _ hyes => absurd hyes havailable⟩

theorem add_fromTicks_zero (t : TimeSpec) (rate : ℚ) : t + TimeSpec.fromTicks (0 : ℕ) rate = t :=
  TimeSpec.ext_of_realSecs (by
    rw [TimeSpec.realSecs_add, TimeSpec.realSecs_fromTicks, Nat.cast_zero, Int.cast_zero,
      zero_div, add_zero])

theorem SendRecord.effective_of_cached {r : SendRecord α β} {cached : TxMetadata}
    (hcached : r.cached = some cached) (hnsamps : r.call.nsampsPerBuff ≠ 0) :
    r.effective.hasTimeSpec = (r.call.metadata.hasTimeSpec || cached.hasTimeSpec) ∧
      r.effective.timeSpec =
        if r.call.metadata.hasTimeSpec then r.call.metadata.timeSpec else cached.timeSpec := by
  rw [SendRecord.effective, hcached]
  dsimp only
  rw [if_neg hnsamps]
  exact ⟨rfl, rfl⟩

theorem startInfo_eob (cfg : SendPacketHandlerConfig α β) {cached : Option TxMetadata}
    (hnsamps : call.nsampsPerBuff ≠ 0) :
    (startInfo cfg cached call).eob = (cached.getD call.metadata).endOfBurst := by
  cases cached with
  | none => rfl
  | some cached =>
    show (if call.nsampsPerBuff ≠ 0 then
      applyCache cfg call.metadata cached (callInfo cfg call.metadata)
      else callInfo cfg call.metadata).eob = _
    rw [if_pos hnsamps]
    rfl

theorem startInfo_of_zero (cfg : SendPacketHandlerConfig α β) (cached : Option TxMetadata)
    (hnsamps : call.nsampsPerBuff = 0) : startInfo cfg cached call = callInfo cfg call.metadata := by
  cases cached with
  | none => rfl
  | some cached => exact if_neg (not_not.mpr hnsamps)

variable {h : SendPacketHandler} {sent : List (SentPacket β)}

theorem right_iff_of_single {g : SendPacketHandler}
    (hsent : (sendSingle cfg g call (startInfo cfg h.metadataCache call)).2.1 = sent) :
    SendRecord.Right cfg ⟨h.metadataCache, call, sent⟩ ↔
      ∀ cached, h.metadataCache = some cached → call.nsampsPerBuff ≠ 0 →
        call.buffsAvailable 0 = true → cached.endOfBurst = call.metadata.endOfBurst := by
  obtain ⟨hat, hsome⟩ := sendSingle_sent g hsent
  obtain ⟨hstartHas, hstartTsf, hstartSob⟩ :=
    startInfo_effective cfg (⟨h.metadataCache, call, sent⟩ : SendRecord α β)
  have hend : ∀ p : SentPacket β, call.nsampsPerBuff ≤ p.nsamps →
      (call.metadata.endOfBurst && decide (call.nsampsPerBuff ≤
        SendRecord.sentBefore ⟨h.metadataCache, call, sent⟩ 0 + p.nsamps)) =
          call.metadata.endOfBurst := by
    intro p hp
    have hall : call.nsampsPerBuff ≤
        SendRecord.sentBefore ⟨h.metadataCache, call, sent⟩ 0 + p.nsamps :=
      Nat.le_trans hp (Nat.le_add_left _ _)
    rw [decide_eq_true hall, Bool.and_true]
  constructor
  · intro hright cached hcached hnsamps havailable
    obtain ⟨p, hp⟩ := hsome hnsamps havailable
    obtain ⟨-, -, hlast, -, -, -, heob⟩ := hat 0 p hp
    rw [startInfo_eob cfg hnsamps, hcached, Option.getD_some] at heob
    have hends := hright.eob 0 p hp
    rw [hend p hlast, heob] at hends
    exact hends
  · intro hagree
    refine ⟨fun k p hk => ?_, fun k p hk _ => ?_, fun k p hk => ?_, fun k p hk => ?_⟩
    · obtain ⟨rfl, -, -, hhas, -⟩ := hat k p hk
      rw [hhas, hstartHas]
    · obtain ⟨rfl, -, -, -, htsf, -⟩ := hat k p hk
      rw [htsf, hstartTsf]
      exact congrArg (ticks cfg) (add_fromTicks_zero _ _).symm
    · obtain ⟨rfl, -, -, -, -, hsob, -⟩ := hat k p hk
      rw [hsob, hstartSob, beq_self_eq_true, Bool.and_true]
    · obtain ⟨rfl, havailable, hlast, -, -, -, heob⟩ := hat k p hk
      dsimp only
      rw [heob, hend p hlast]
      by_cases hnsamps : call.nsampsPerBuff = 0
      · rw [startInfo_of_zero cfg _ hnsamps]
        rfl
      · rw [startInfo_eob cfg hnsamps]
        cases hcached : h.metadataCache with
        | none => rfl
        | some cached => exact hagree cached hcached hnsamps havailable

theorem right_iff_of_many {g : SendPacketHandler} (hmax : 0 < cfg.maxSamplesPerPacket)
    (hlt : cfg.maxSamplesPerPacket < call.nsampsPerBuff)
    (hsent : (sendMany cfg g call (startInfo cfg h.metadataCache call)).2.1 = sent) :
    SendRecord.Right cfg ⟨h.metadataCache, call, sent⟩ ↔
      ∀ cached, h.metadataCache = some cached → call.nsampsPerBuff ≠ 0 →
        ∀ k, 0 < k → k * cfg.maxSamplesPerPacket < call.nsampsPerBuff →
          (∀ i ≤ k, call.buffsAvailable i = true) →
            call.metadata.hasTimeSpec = false → cached.hasTimeSpec = true →
              ticks cfg (call.metadata.timeSpec +
                  TimeSpec.fromTicks (k * cfg.maxSamplesPerPacket : ℕ) cfg.sampRate) =
                ticks cfg (cached.timeSpec +
                  TimeSpec.fromTicks (k * cfg.maxSamplesPerPacket : ℕ) cfg.sampRate) := by
  obtain ⟨hat, hlength⟩ := sendMany_sent cfg g call _ hmax hlt hsent
  have hnsamps : call.nsampsPerBuff ≠ 0 := Nat.ne_of_gt (Nat.lt_trans hmax hlt)
  obtain ⟨hstartHas, hstartTsf, hstartSob⟩ :=
    startInfo_effective cfg (⟨h.metadataCache, call, sent⟩ : SendRecord α β)
  constructor
  · intro hright cached hcached _ k hpos hk havailable htime hcachedTime
    obtain ⟨p, hp⟩ : ∃ p, sent[k]? = some p :=
      ⟨_, List.getElem?_eq_getElem ((hlength k).mpr ⟨hk, havailable⟩)⟩
    have hfragment := hat k p hp
    have htsf := hfragment.tsf
    rw [if_neg (Nat.ne_of_gt hpos)] at htsf
    obtain ⟨hhas, htimeSpec⟩ := SendRecord.effective_of_cached
      (r := (⟨h.metadataCache, call, sent⟩ : SendRecord α β)) hcached hnsamps
    have hgot := hright.tsf k p hp (by rw [hhas, hcachedTime, Bool.or_true])
    rw [htsf, SendRecord.sentBefore, hfragment.before, htimeSpec, htime] at hgot
    exact hgot
  · intro hagree
    refine ⟨fun k p hk => ?_, fun k p hk htime => ?_, fun k p hk => ?_, fun k p hk => ?_⟩
    · rw [(hat k p hk).hasTsf, hstartHas]
    · have hfragment := hat k p hk
      rw [hfragment.tsf, SendRecord.sentBefore, hfragment.before]
      by_cases hzero : k = 0
      · rw [if_pos hzero, hstartTsf, hzero, Nat.zero_mul, add_fromTicks_zero]
      · rw [if_neg hzero]
        cases hcached : h.metadataCache with
        | none => rfl
        | some cached =>
          obtain ⟨hhas, htimeSpec⟩ := SendRecord.effective_of_cached
            (r := (⟨some cached, call, sent⟩ : SendRecord α β)) rfl hnsamps
          rw [hcached, hhas] at htime
          rw [htimeSpec]
          obtain ⟨hlt, havailable⟩ := (hlength k).mp (List.getElem?_eq_some_iff.mp hk).1
          cases hown : call.metadata.hasTimeSpec with
          | true => rfl
          | false =>
            rw [hown, Bool.false_or] at htime
            exact hagree cached hcached hnsamps k (Nat.pos_of_ne_zero hzero) hlt havailable hown
              htime
    · rw [(hat k p hk).sob, hstartSob]
    · rw [(hat k p hk).eob, SendRecord.sentBefore, (hat k p hk).before]

theorem right_iff_agreesWithCache {s : SendHistory α β} {h' : SendPacketHandler} {n : ℕ}
    (hsend : send cfg s.handler call = some (h', sent, n)) :
    SendRecord.Right cfg ⟨s.handler.metadataCache, call, sent⟩ ↔ AgreesWithCache cfg s call := by
  rcases sent_of_send hsend with ⟨hle, g, hsingle⟩ | ⟨hmax, hlt, g, hmany⟩
  · rw [right_iff_of_single hsingle]
    refine forall₃_congr fun cached _ _ => ?_
    rw [if_pos hle]
  · rw [right_iff_of_many hmax hlt hmany]
    refine forall₃_congr fun cached _ _ => ?_
    rw [if_neg (Nat.not_le.mpr hlt)]

/-! ## Runs -/

theorem sendStep_records {s t : SendHistory α β} (hstep : sendStep cfg s call = some t) :
    ∃ h' sent n, send cfg s.handler call = some (h', sent, n) ∧
      t.records = s.records ++ [⟨s.handler.metadataCache, call, sent⟩] := by
  obtain ⟨⟨h', sent, n⟩, hsend, rfl⟩ := Option.map_eq_some_iff.mp hstep
  exact ⟨h', sent, n, hsend, rfl⟩

theorem records_grow (cfg : SendPacketHandlerConfig α β) :
    ∀ (s : SendHistory α β) (call : SendCall α) (t : SendHistory α β),
      sendStep cfg s call = some t → s.records <+: t.records := by
  intro s call t hstep
  obtain ⟨h', sent, n, -, hrecords⟩ := sendStep_records hstep
  exact hrecords ▸ List.prefix_append _ _

/-- **What is sent is right exactly if the cached metadata agrees.**  Every call of a run sends
packets with the right times and flags if and only if at every call the cached metadata agrees with
it: in the end of the burst where it fits into a packet, in the time where it does not. -/
theorem right_iff (cfg : SendPacketHandlerConfig α β) {calls : List (SendCall α)}
    {s : SendHistory α β} (hrun : Transition.run (sendStep cfg) {} calls = some s) :
    (∀ r ∈ s.records, r.Right cfg) ↔
      Transition.EveryStep (sendStep cfg) (AgreesWithCache cfg) {} calls := by
  rw [← Transition.run_log_iff_everyStep (P := fun _ r => SendRecord.Right cfg r)
    (I := fun _ => True) (fun _ _ _ _ _ => trivial) (records_grow cfg)
    (fun s call t _ hstep => ?_) trivial hrun]
  · constructor
    · intro hall i r _ hr
      exact hall r (List.mem_of_getElem? hr)
    · intro hall r hr
      obtain ⟨i, hi⟩ := List.getElem?_of_mem hr
      exact hall i r (Nat.zero_le i) hi
  · obtain ⟨h', sent, n, hsend, hrecords⟩ := sendStep_records hstep
    rw [← right_iff_agreesWithCache hsend, hrecords]
    constructor
    · intro hright i r hi hr
      rcases Transition.getElem?_concat_eq_some.mp hr with hr | ⟨-, rfl⟩
      · exact absurd (List.getElem?_eq_some_iff.mp hr).1 (Nat.not_lt.mpr hi)
      · exact hright
    · intro hall
      exact hall s.records.length _ (Nat.le_refl _)
        (Transition.getElem?_concat_eq_some.mpr (Or.inr ⟨rfl, rfl⟩))

/-- A burst of three samples, one in a packet, that is announced without samples and a time, and
has a time of its own. -/
theorem right_announced :
    ∃ s : SendHistory Unit Unit,
      Transition.run
        (sendStep
          { size := 1, tickRate := 1, sampRate := 1, maxSamplesPerPacket := 1,
            bytesPerOtwItem := 4, conv := fun _ => (), zero := () })
        {}
        [{ buffs := fun _ _ => (), nsampsPerBuff := 0,
            metadata := { hasTimeSpec := true, startOfBurst := true } },
          { buffs := fun _ _ => (), nsampsPerBuff := 3,
            metadata :=
              { hasTimeSpec := true, timeSpec := TimeSpec.ofSecs 1, endOfBurst := true } }] =
          some s ∧
      ∀ r ∈ s.records, r.Right
        { size := 1, tickRate := 1, sampRate := 1, maxSamplesPerPacket := 1,
          bytesPerOtwItem := 4, conv := fun _ => (), zero := () } := by
  refine Exists.imp (fun s hs => ⟨hs, (right_iff _ hs).mpr ?_⟩) (Option.isSome_iff_exists.mp rfl)
  refine ⟨fun cached hcached => ?_, fun t ht => ⟨fun cached _ _ => ?_, fun _ _ => trivial⟩⟩
  · cases hcached
  · rw [if_neg (by decide)]
    intro k _ _ _ hown
    cases hown

/-- A burst of one sample that is announced without samples: that it ends is not sent.  A burst of
two samples, one in a packet, that is announced with a time: the second packet has another. -/
theorem announced_and_not_right :
    (∃ s : SendHistory Unit Unit,
      Transition.run
        (sendStep
          { size := 1, tickRate := 1, sampRate := 1, maxSamplesPerPacket := 1,
            bytesPerOtwItem := 4, conv := fun _ => (), zero := () })
        {}
        [{ buffs := fun _ _ => (), nsampsPerBuff := 0, metadata := { startOfBurst := true } },
          { buffs := fun _ _ => (), nsampsPerBuff := 1, metadata := { endOfBurst := true } }] =
          some s ∧
      ¬ ∀ r ∈ s.records, r.Right
        { size := 1, tickRate := 1, sampRate := 1, maxSamplesPerPacket := 1,
          bytesPerOtwItem := 4, conv := fun _ => (), zero := () }) ∧
    ∃ s : SendHistory Unit Unit,
      Transition.run
        (sendStep
          { size := 1, tickRate := 1, sampRate := 1, maxSamplesPerPacket := 1,
            bytesPerOtwItem := 4, conv := fun _ => (), zero := () })
        {}
        [{ buffs := fun _ _ => (), nsampsPerBuff := 0,
            metadata :=
              { hasTimeSpec := true, timeSpec := TimeSpec.ofSecs 1, startOfBurst := true } },
          { buffs := fun _ _ => (), nsampsPerBuff := 2, metadata := {} }] = some s ∧
      ¬ ∀ r ∈ s.records, r.Right
        { size := 1, tickRate := 1, sampRate := 1, maxSamplesPerPacket := 1,
          bytesPerOtwItem := 4, conv := fun _ => (), zero := () } := by
  constructor
  · refine ⟨_, rfl, fun hall => ?_⟩
    have hright := hall _ (List.mem_append_right _ (List.mem_singleton_self _))
    have heob := hright.eob 0 _ rfl
    exact absurd heob (by decide)
  · refine ⟨_, rfl, fun hall => ?_⟩
    have hright := hall _ (List.mem_append_right _ (List.mem_singleton_self _))
    have htsf := hright.tsf 1 _ rfl rfl
    exact absurd htsf (by decide +kernel)

end SendPacketHandler
end Transport
end UhdHost
