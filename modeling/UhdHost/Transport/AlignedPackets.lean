import UhdHost.Transport.GetAlignedBuffs

/-!
# Packets that are in step

The packets of the channels are in step where the packets at one place carry the same timestamp,
as far as they carry one, and, with more than one channel, no timestamp goes back.  Then nothing
is released while packets are aligned: `getAlignedBuffs` either comes back with a packet of
every channel, which are the next ones, or runs into a timeout and has kept what it has
(`getAlignedBuffs_of_inStep`).

The loop restarts at most once in a call, when it meets the first packet with a timestamp, and
`alignMeasure` counts what is left.
-/

namespace UhdHost
namespace Transport

variable {δ : Type}

/-- The packets that are still to come. -/
def packetsOf (events : List (RxEvent δ)) : List (RxPacketInfo δ) :=
  events.filterMap fun
    | .packet info _ => some info
    | _ => none

/-- No bad packet and no sequence error. -/
def RxEvent.Sound : RxEvent δ → Prop
  | .timeout => True
  | .badPacket => False
  | .packet _ seqError => seqError = false

instance : (e : RxEvent δ) → Decidable e.Sound
  | .timeout => isTrue trivial
  | .badPacket => isFalse id
  | .packet _ seqError => inferInstanceAs (Decidable (seqError = false))

/-- The packets of a channel that were not released, the one that is held first. -/
def RxChannel.pending (ch : RxChannel δ) : List (RxPacketInfo δ) :=
  (if ch.frameBuff.isSome then [ch.info] else []) ++ packetsOf ch.events

/-- The timestamps of packets, in order. -/
def timestamps (packets : List (RxPacketInfo δ)) : List ℕ :=
  packets.filterMap fun info => if info.hasTsf then some info.tsf else none

/-- Packets at one place carry the same timestamp, and timestamps do not go back. -/
structure InStep (numChans : ℕ) (packets : ℕ → List (RxPacketInfo δ)) : Prop where
  tsf : ∀ c < numChans, ∀ d < numChans, ∀ (i : ℕ) (p q : RxPacketInfo δ),
    (packets c)[i]? = some p → (packets d)[i]? = some q → p.hasTsf = true → q.hasTsf = true → p.tsf = q.tsf
  forward : 1 < numChans → ∀ c < numChans, (timestamps (packets c)).Pairwise (· ≤ ·)

/-- The state between calls. -/
structure ChansInStep (numChans : ℕ) (chans : ℕ → RxChannel δ) : Prop where
  sound : ∀ c < numChans, ∀ e ∈ (chans c).events, e.Sound
  inStep : InStep numChans fun c => (chans c).pending
  prevTsf : 1 < numChans → ∀ c < numChans, ∀ t ∈ timestamps (chans c).pending,
    (chans c).prevTsf ≤ t

variable {numChans : ℕ} {chans : ℕ → RxChannel δ} {ch : RxChannel δ} {v : AlignVars}

theorem pending_of_isSome (h : ch.frameBuff.isSome = true) :
    ch.pending = ch.info :: packetsOf ch.events := by
  rw [RxChannel.pending, if_pos h]
  rfl

theorem pending_of_isNone (h : ch.frameBuff.isSome = false) :
    ch.pending = packetsOf ch.events := by
  rw [RxChannel.pending, if_neg (Bool.eq_false_iff.mp h), List.nil_append]

theorem pending_releaseRecvBuff (ch : RxChannel δ) :
    ch.releaseRecvBuff.pending = packetsOf ch.events :=
  pending_of_isNone rfl

theorem receive_of_sound (h : ∀ e ∈ ch.events, e.Sound) : ∃ ch', ch.receive = (ch', some false) ∧
    ch'.pending = ch.pending ∧ ch'.prevTsf = ch.prevTsf ∧ ∀ e ∈ ch'.events, e.Sound := by
  cases hheld : ch.frameBuff.isSome with
  | true => exact ⟨ch, by rw [RxChannel.receive, if_pos hheld], rfl, rfl, h⟩
  | false =>
    rw [RxChannel.receive, hheld, if_neg Bool.false_ne_true, pending_of_isNone hheld,
      RxChannel.getRecvBuff]
    rcases hevents : ch.events with - | ⟨e, events⟩
    · exact ⟨_, rfl, pending_of_isNone hheld, rfl, fun e he => absurd he List.not_mem_nil⟩
    · rw [hevents] at h
      have hrest : ∀ e ∈ events, e.Sound := fun e he => h e (List.mem_cons_of_mem _ he)
      have he := h e List.mem_cons_self
      cases e with
      | timeout => exact ⟨_, rfl, pending_of_isNone hheld, rfl, hrest⟩
      | badPacket => exact he.elim
      | packet info seqError =>
        obtain rfl : seqError = false := he
        exact ⟨_, rfl, pending_of_isSome rfl, rfl, hrest⟩

theorem InStep.of_map_eq {packets : ℕ → List (RxPacketInfo δ)}
    (h : ∀ c < numChans, ∀ d < numChans,
      (packets c).map RxPacketInfo.tsf = (packets d).map RxPacketInfo.tsf)
    (hforward : 1 < numChans →
      ∀ c < numChans, (timestamps (packets c)).Pairwise (· ≤ ·)) : InStep numChans packets where
  tsf c hc d hd i p q hp hq _ _ := by
    have heq := congrArg (fun l => l[i]?) (h c hc d hd)
    simp only [List.getElem?_map, hp, hq, Option.map_some, Option.some_inj] at heq
    exact heq
  forward := hforward

theorem InStep.tail {packets packets' : ℕ → List (RxPacketInfo δ)} (h : InStep numChans packets)
    (htail : ∀ c < numChans, packets' c = (packets c).tail) : InStep numChans packets' where
  tsf c hc d hd i p q hp hq := by
    rw [htail c hc, List.getElem?_tail] at hp
    rw [htail d hd, List.getElem?_tail] at hq
    exact h.tsf c hc d hd (i + 1) p q hp hq
  forward hmany c hc := by
    rw [htail c hc]
    refine (h.forward hmany c hc).sublist ?_
    exact (List.tail_sublist _).filterMap _

theorem ChansInStep.releaseAll (h : ChansInStep numChans chans)
    (hheld : ∀ c < numChans, (chans c).frameBuff.isSome = true) {chans' : ℕ → RxChannel δ}
    (hreleased : ∀ c < numChans, chans' c = (chans c).releaseRecvBuff) :
    ChansInStep numChans chans' := by
  have htail : ∀ c < numChans, (chans' c).pending = (chans c).pending.tail := fun c hc => by
    rw [hreleased c hc, pending_releaseRecvBuff, pending_of_isSome (hheld c hc), List.tail_cons]
  refine ⟨fun c hc => ?_, h.inStep.tail htail, fun hmany c hc t ht => ?_⟩
  · rw [hreleased c hc]
    exact h.sound c hc
  · rw [htail c hc] at ht
    rw [hreleased c hc]
    exact h.prevTsf hmany c hc t (((List.tail_sublist _).filterMap _).subset ht)

/-! ## The loop -/

/-- What the loop knows: the channels that are aligned hold a packet, and the time is that of
one of them. -/
structure AlignInv (numChans : ℕ) (v : AlignVars) (chans : ℕ → RxChannel δ) : Prop where
  held : ∀ i < numChans, v.channelsToAlign i = false → (chans i).frameBuff.isSome = true
  valid : v.timeValid = true → ∃ i < numChans, v.channelsToAlign i = false ∧
    (chans i).info.hasTsf = true ∧ (chans i).info.tsf = v.tsf
  invalid : v.timeValid = false → v.iterations = 0 ∧
    ∀ i < numChans, v.channelsToAlign i = false → (chans i).info.hasTsf = false

/-- The channels that are left, and all of them once more before the first timestamp. -/
def alignMeasure (numChans : ℕ) (v : AlignVars) : ℕ :=
  (List.range numChans).countP v.channelsToAlign + (if v.timeValid then 0 else numChans)

theorem countP_update {toAlign : ℕ → Bool} {chan : ℕ} (hchan : chan < numChans)
    (hto : toAlign chan = true) :
    (List.range numChans).countP (Function.update toAlign chan false) + 1 =
      (List.range numChans).countP toAlign := by
  have hperm := List.perm_cons_erase (List.mem_range.mpr hchan)
  rw [hperm.countP_eq, hperm.countP_eq toAlign, List.countP_cons_of_pos hto,
    List.countP_cons_of_neg (by rw [Function.update_self]; exact Bool.false_ne_true)]
  congr 1
  refine List.countP_congr fun i hi => ?_
  have hne : i ≠ chan := fun h => List.nodup_range.not_mem_erase (h ▸ hi)
  rw [Function.update_of_ne hne]

theorem countP_ne_lt {chan : ℕ} (hchan : chan < numChans) :
    (List.range numChans).countP (fun i => i != chan) < numChans := by
  have hperm := List.perm_cons_erase (List.mem_range.mpr hchan)
  rw [hperm.countP_eq, List.countP_cons_of_neg (by simp)]
  refine Nat.lt_of_le_of_lt List.countP_le_length ?_
  rw [List.length_erase_of_mem (List.mem_range.mpr hchan), List.length_range]
  omega

theorem head_pending (h : ch.frameBuff.isSome = true) : ch.pending[0]? = some ch.info := by
  rw [pending_of_isSome h]
  rfl

theorem ChansInStep.setPrevTsf (h : ChansInStep numChans chans) {chan : ℕ}
    (hchan : chan < numChans) (hheld : (chans chan).frameBuff.isSome = true)
    (htsf : (chans chan).info.hasTsf = true) :
    ChansInStep numChans (Function.update chans chan
      { chans chan with prevTsf := (chans chan).info.tsf }) := by
  have hpending : ∀ c, (Function.update chans chan
      { chans chan with prevTsf := (chans chan).info.tsf } c).pending = (chans c).pending := by
    intro c
    by_cases hc : c = chan
    · rw [hc, Function.update_self]
      rfl
    · rw [Function.update_of_ne hc]
  refine ⟨fun c hc => ?_, ?_, fun hmany c hc t ht => ?_⟩
  · by_cases hc' : c = chan
    · rw [hc', Function.update_self]
      exact h.sound chan hchan
    · rw [Function.update_of_ne hc']
      exact h.sound c hc
  · rw [funext hpending]
    exact h.inStep
  · rw [hpending] at ht
    by_cases hc' : c = chan
    · rw [hc'] at ht
      rw [hc', Function.update_self]
      have hforward := h.inStep.forward hmany chan hchan
      rw [pending_of_isSome hheld, timestamps, List.filterMap_cons, if_pos htsf] at hforward ht
      rcases List.mem_cons.mp ht with rfl | ht
      · exact Nat.le_refl _
      · exact (List.pairwise_cons.mp hforward).1 t ht
    · rw [Function.update_of_ne hc']
      exact h.prevTsf hmany c hc t ht

theorem ChansInStep.tsf_eq (h : ChansInStep numChans chans) {c d : ℕ} (hc : c < numChans)
    (hd : d < numChans) (hheldC : (chans c).frameBuff.isSome = true)
    (hheldD : (chans d).frameBuff.isSome = true) (htsfC : (chans c).info.hasTsf = true)
    (htsfD : (chans d).info.hasTsf = true) : (chans c).info.tsf = (chans d).info.tsf :=
  h.inStep.tsf c hc d hd 0 _ _ (head_pending hheldC) (head_pending hheldD) htsfC htsfD

theorem ChansInStep.prevTsf_le (h : ChansInStep numChans chans) (hmany : 1 < numChans) {c : ℕ}
    (hc : c < numChans) (hheld : (chans c).frameBuff.isSome = true)
    (htsf : (chans c).info.hasTsf = true) : (chans c).prevTsf ≤ (chans c).info.tsf := by
  refine h.prevTsf hmany c hc _ ?_
  rw [pending_of_isSome hheld, timestamps, List.filterMap_cons, if_pos htsf]
  exact List.mem_cons_self

theorem AlignInv.mark (h : AlignInv numChans v chans) {chan : ℕ} (hchan : chan < numChans)
    (hheld : (chans chan).frameBuff.isSome = true)
    (htsf : (chans chan).info.hasTsf = true → v.timeValid = true)
    {chans' : ℕ → RxChannel δ} (hsame : ∀ i, (chans' i).frameBuff = (chans i).frameBuff ∧
      (chans' i).info = (chans i).info) :
    AlignInv numChans
      { v with channelsToAlign := Function.update v.channelsToAlign chan false } chans' := by
  have hmarked : ∀ i, Function.update v.channelsToAlign chan false i = false →
      i = chan ∨ v.channelsToAlign i = false := by
    intro i hi
    by_cases hic : i = chan
    · exact Or.inl hic
    · rw [Function.update_of_ne hic] at hi
      exact Or.inr hi
  refine ⟨fun i hi hto => ?_, fun hvalid => ?_, fun hinvalid => ⟨?_, fun i hi hto => ?_⟩⟩
  · rw [(hsame i).1]
    rcases hmarked i hto with rfl | hto
    · exact hheld
    · exact h.held i hi hto
  · obtain ⟨i, hi, hto, hhas, heq⟩ := h.valid hvalid
    refine ⟨i, hi, ?_, by rw [(hsame i).2]; exact hhas, by rw [(hsame i).2]; exact heq⟩
    show Function.update v.channelsToAlign chan false i = false
    by_cases hic : i = chan
    · rw [hic, Function.update_self]
    · rw [Function.update_of_ne hic]
      exact hto
  · exact (h.invalid hinvalid).1
  · rw [(hsame i).2]
    rcases hmarked i hto with rfl | hto
    · exact Bool.eq_false_iff.mpr fun hhas => by
        rw [htsf hhas] at hinvalid
        cases hinvalid
    · exact (h.invalid hinvalid).2 i hi hto

/-- **The packet a channel holds is compared.**  It is in step, so either the channel is
aligned, or, at the first timestamp, the loop restarts; nothing is released. -/
theorem alignPacket_of_inStep (h : ChansInStep numChans chans) (hv : AlignInv numChans v chans)
    {chan : ℕ} (hchan : chan < numChans) (hto : v.channelsToAlign chan = true)
    (hheld : (chans chan).frameBuff.isSome = true) :
    ∃ v' chans', GetAlignedBuffs.alignPacket numChans v chans chan = some (v', chans') ∧
      ChansInStep numChans chans' ∧ AlignInv numChans v' chans' ∧
      alignMeasure numChans v' < alignMeasure numChans v ∧
      ∀ i, (chans' i).frameBuff = (chans i).frameBuff ∧ (chans' i).pending = (chans i).pending := by
  have hcount := countP_update hchan hto
  cases htsf : (chans chan).info.hasTsf with
  | false =>
    refine ⟨_, chans, ?_, h, hv.mark hchan hheld (fun hh => nomatch htsf.symm.trans hh)
      fun i => ⟨rfl, rfl⟩, ?_, fun i => ⟨rfl, rfl⟩⟩
    · rw [GetAlignedBuffs.alignPacket, htsf, if_neg Bool.false_ne_true]
    · simp only [alignMeasure]
      omega
  | true =>
    have hset : ∀ i, (Function.update chans chan
          { chans chan with prevTsf := (chans chan).info.tsf } i).frameBuff =
            (chans i).frameBuff ∧
        (Function.update chans chan
          { chans chan with prevTsf := (chans chan).info.tsf } i).info = (chans i).info ∧
        (Function.update chans chan
          { chans chan with prevTsf := (chans chan).info.tsf } i).pending =
            (chans i).pending := by
      intro i
      by_cases hi : i = chan
      · rw [hi, Function.update_self]
        exact ⟨rfl, rfl, rfl⟩
      · rw [Function.update_of_ne hi]
        exact ⟨rfl, rfl, rfl⟩
    have hinStep := h.setPrevTsf hchan hheld htsf
    cases hvalid : v.timeValid with
    | false =>
      -- the first timestamp: restart, and keep what has none
      obtain ⟨hiter, hnone⟩ := hv.invalid hvalid
      have hkeep : (fun i =>
          if i < numChans ∧ v.channelsToAlign i = false ∧ (Function.update chans chan
            { chans chan with prevTsf := (chans chan).info.tsf } i).info.hasTsf = true then
            (Function.update chans chan
              { chans chan with prevTsf := (chans chan).info.tsf } i).releaseRecvBuff
          else Function.update chans chan
            { chans chan with prevTsf := (chans chan).info.tsf } i) =
          Function.update chans chan { chans chan with prevTsf := (chans chan).info.tsf } := by
        refine funext fun i => if_neg ?_
        rintro ⟨hi, hto, hhas⟩
        rw [(hset i).2.1, hnone i hi hto] at hhas
        cases hhas
      refine ⟨{ channelsToAlign := fun i => i != chan
                timeValid := true
                tsf := (chans chan).info.tsf
                iterations := v.iterations + 1 }, _, ?_, hinStep, ?_, ?_,
        fun i => ⟨(hset i).1, (hset i).2.2⟩⟩
      · rw [GetAlignedBuffs.alignPacket, htsf, if_pos rfl, hvalid, Bool.false_and,
          if_pos (Or.inl rfl), if_neg (by rw [hiter]; decide), hkeep]
      · refine ⟨fun i _ hto => ?_, fun _ => ⟨chan, hchan, ?_, ?_, ?_⟩, fun hh => nomatch hh⟩
        · obtain rfl : i = chan := by simpa using hto
          rw [(hset i).1]
          exact hheld
        · simp
        · rw [(hset chan).2.1]
          exact htsf
        · rw [(hset chan).2.1]
      · have hlt := countP_ne_lt hchan
        simp only [alignMeasure, hvalid, if_true, Bool.false_eq_true, if_false]
        omega
    | true =>
      obtain ⟨i, hi, htoI, hhasI, heqI⟩ := hv.valid hvalid
      have hne : i ≠ chan := fun hic => by
        rw [hic, hto] at htoI
        cases htoI
      have htsfEq : (chans chan).info.tsf = v.tsf := by
        rw [← heqI]
        exact h.tsf_eq hchan hi hheld (hv.held i hi htoI) htsf hhasI
      have hprev := h.prevTsf_le (by omega) hchan hheld htsf
      have hforward : (decide ((chans chan).info.tsf < (chans chan).prevTsf)) = false :=
        decide_eq_false (Nat.not_lt.mpr hprev)
      refine ⟨{ v with channelsToAlign := Function.update v.channelsToAlign chan false }, _, ?_,
        hinStep, hv.mark hchan hheld (fun _ => hvalid) fun i => ⟨(hset i).1, (hset i).2.1⟩, ?_,
        fun i => ⟨(hset i).1, (hset i).2.2⟩⟩
      · rw [GetAlignedBuffs.alignPacket, htsf, if_pos rfl]
        simp only [hvalid, hforward, Bool.not_false, Bool.and_true]
        rw [if_neg (by simp [htsfEq]), if_pos htsfEq]
      · simp only [alignMeasure]
        omega

theorem AlignInv.receive (hv : AlignInv numChans v chans) {chan : ℕ}
    (hto : v.channelsToAlign chan = true) (ch : RxChannel δ) :
    AlignInv numChans v (Function.update chans chan ch) := by
  have hother : ∀ i, v.channelsToAlign i = false → Function.update chans chan ch i = chans i := by
    intro i hi
    refine Function.update_of_ne (fun hic => ?_) ..
    rw [hic, hto] at hi
    cases hi
  refine ⟨fun i hi hto' => ?_, fun hvalid => ?_, fun hinvalid => ?_⟩
  · rw [hother i hto']
    exact hv.held i hi hto'
  · obtain ⟨i, hi, htoI, hhas⟩ := hv.valid hvalid
    exact ⟨i, hi, htoI, by rw [hother i htoI]; exact hhas⟩
  · obtain ⟨hiter, hnone⟩ := hv.invalid hinvalid
    exact ⟨hiter, fun i hi htoI => by rw [hother i htoI]; exact hnone i hi htoI⟩

theorem ChansInStep.receive (h : ChansInStep numChans chans) {chan : ℕ} {ch : RxChannel δ}
    (hpending : ch.pending = (chans chan).pending) (hprev : ch.prevTsf = (chans chan).prevTsf)
    (hsound : ∀ e ∈ ch.events, e.Sound) :
    ChansInStep numChans (Function.update chans chan ch) := by
  have hpending' : ∀ c, (Function.update chans chan ch c).pending = (chans c).pending := by
    intro c
    by_cases hc : c = chan
    · rw [hc, Function.update_self, hpending]
    · rw [Function.update_of_ne hc]
  refine ⟨fun c hc => ?_, ?_, fun hmany c hc t ht => ?_⟩
  · by_cases hc' : c = chan
    · rw [hc', Function.update_self]
      exact hsound
    · rw [Function.update_of_ne hc']
      exact h.sound c hc
  · rw [funext hpending']
    exact h.inStep
  · rw [hpending'] at ht
    by_cases hc' : c = chan
    · rw [hc', Function.update_self, hprev]
      exact h.prevTsf hmany chan (hc' ▸ hc) t (hc' ▸ ht)
    · rw [Function.update_of_ne hc']
      exact h.prevTsf hmany c hc t ht

theorem loop_of_inStep (ignoreSeqErr : Bool) (fuel : ℕ) {v : AlignVars} {chans : ℕ → RxChannel δ}
    (h : ChansInStep numChans chans) (hv : AlignInv numChans v chans)
    (hfuel : alignMeasure numChans v < fuel) :
    ∃ chans' result, GetAlignedBuffs.loop ignoreSeqErr numChans fuel v chans =
        some (chans', result) ∧
      ChansInStep numChans chans' ∧ (∀ c, (chans' c).pending = (chans c).pending) ∧
      (result = .success ∧ (∀ c < numChans, (chans' c).frameBuff.isSome = true) ∨
        result = .timeout) := by
  induction fuel generalizing v chans with
  | zero => exact absurd hfuel (Nat.not_lt_zero _)
  | succ fuel ih =>
    rw [GetAlignedBuffs.loop]
    rcases hfind : (List.range numChans).find? v.channelsToAlign with - | chan
    · refine ⟨chans, .success, rfl, h, fun _ => rfl, Or.inl ⟨rfl, fun c hc => ?_⟩⟩
      refine hv.held c hc (Bool.eq_false_iff.mpr ?_)
      exact List.find?_eq_none.mp hfind c (List.mem_range.mpr hc)
    · have hto : v.channelsToAlign chan = true := List.find?_some hfind
      have hchan : chan < numChans := List.mem_range.mp (List.mem_of_find?_eq_some hfind)
      obtain ⟨ch, hreceive, hpending, hprev, hsound⟩ :=
        receive_of_sound (h.sound chan hchan)
      have hinStep := h.receive hpending hprev hsound
      have hpending' : ∀ c, (Function.update chans chan ch c).pending = (chans c).pending := by
        intro c
        by_cases hc : c = chan
        · rw [hc, Function.update_self, hpending]
        · rw [Function.update_of_ne hc]
      simp only [hreceive]
      cases hframe : ch.frameBuff with
      | none =>
        rw [if_pos Option.isNone_none]
        exact ⟨_, _, rfl, hinStep, hpending', Or.inr rfl⟩
      | some frame =>
        rw [if_neg (by rw [Option.isNone_some]; exact Bool.false_ne_true)]
        have hheld' : (Function.update chans chan ch chan).frameBuff.isSome = true := by
          rw [Function.update_self, hframe]
          rfl
        obtain ⟨v', chans', halign, hinStep', hv', hlt, hkept⟩ :=
          alignPacket_of_inStep hinStep (hv.receive hto ch) hchan hto hheld'
        simp only [halign, Bool.false_and, Bool.false_eq_true, if_false]
        obtain ⟨chans'', result, hloop, hinStep'', hpending'', hresult⟩ :=
          ih hinStep' hv' (by omega)
        exact ⟨chans'', result, hloop, hinStep'',
          fun c => (hpending'' c).trans ((hkept c).2.trans (hpending' c)), hresult⟩

theorem getAlignedBuffs_of_inStep (ignoreSeqErr : Bool) {fuel : ℕ}
    (h : ChansInStep numChans chans) (hfuel : 2 * numChans < fuel) :
    ∃ chans' result, GetAlignedBuffs.getAlignedBuffs ignoreSeqErr numChans fuel chans =
        some (chans', result) ∧
      ChansInStep numChans chans' ∧ (∀ c, (chans' c).pending = (chans c).pending) ∧
      (result = .success ∧ (∀ c < numChans, (chans' c).frameBuff.isSome = true) ∨
        result = .timeout) := by
  refine loop_of_inStep ignoreSeqErr fuel h ⟨?_, ?_, ?_⟩ ?_
  · exact fun _ _ hto => nomatch hto
  · exact fun hvalid => nomatch hvalid
  · exact fun _ => ⟨rfl, fun _ _ hto => nomatch hto⟩
  · have hle : (List.range numChans).countP (fun _ => true) ≤ numChans :=
      Nat.le_trans List.countP_le_length (Nat.le_of_eq List.length_range)
    simp only [alignMeasure, Bool.false_eq_true, if_false]
    omega

end Transport
end UhdHost
