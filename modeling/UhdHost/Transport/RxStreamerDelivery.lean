import UhdHost.Library.Transition
import UhdHost.Transport.AlignedPackets
import UhdHost.Transport.RxStreamer

/-!
# What calls of `recv` deliver

`unread` are the samples of a channel that were not returned yet: what is left of the packet at
hand, and the packets to come.  A call takes what it returns from the front of `unread`, on all
channels alike, and writes it to the front of the buffers of the caller (`recv_of_inStep`).
Over any run of calls, what was returned is the samples of the packets in order
(`delivered_of_run`).

The exception is a call for no samples while a packet is partly consumed.  It gets the packet
at hand once more and moves the pointers back to its beginning, while the count of what is left
of it stays: what comes next is the beginning of the packet again (`samples_repeated`).
-/

namespace UhdHost
namespace Transport

open Items Transition

variable {δ β : Type}

/-- The number of whole samples in a packet. -/
def RxStreamerConfig.sampleCount (cfg : RxStreamerConfig δ β) (info : RxPacketInfo δ) : ℕ :=
  info.payload.length / cfg.bytesPerItem

/-- The samples of a packet of a channel. -/
def RxStreamerConfig.payloadSamples (cfg : RxStreamerConfig δ β) (chan : ℕ)
    (info : RxPacketInfo δ) : List β :=
  items (cfg.conv chan) cfg.bytesPerItem info.payload (cfg.sampleCount info)

/-- Every packet holds a sample, and packets at one place hold equally many. -/
structure EvenlyFilled (cfg : RxStreamerConfig δ β) (packets : ℕ → List (RxPacketInfo δ)) :
    Prop where
  pos : ∀ c < cfg.numChans, ∀ p ∈ packets c, 0 < cfg.sampleCount p
  eq : ∀ c < cfg.numChans, ∀ d < cfg.numChans, ∀ (i : ℕ) (p q : RxPacketInfo δ),
    (packets c)[i]? = some p → (packets d)[i]? = some q → cfg.sampleCount p = cfg.sampleCount q

theorem EvenlyFilled.tail {cfg : RxStreamerConfig δ β}
    {packets packets' : ℕ → List (RxPacketInfo δ)} (h : EvenlyFilled cfg packets)
    (htail : ∀ c < cfg.numChans, packets' c = (packets c).tail) : EvenlyFilled cfg packets' where
  pos c hc p hp := by
    rw [htail c hc] at hp
    exact h.pos c hc p (List.mem_of_mem_tail hp)
  eq c hc d hd i p q hp hq := by
    rw [htail c hc, List.getElem?_tail] at hp
    rw [htail d hd, List.getElem?_tail] at hq
    exact h.eq c hc d hd (i + 1) p q hp hq

theorem EvenlyFilled.of_map_eq {cfg : RxStreamerConfig δ β}
    {packets : ℕ → List (RxPacketInfo δ)}
    (hpos : ∀ c < cfg.numChans, ∀ p ∈ packets c, 0 < cfg.sampleCount p)
    (h : ∀ c < cfg.numChans, ∀ d < cfg.numChans,
      (packets c).map cfg.sampleCount = (packets d).map cfg.sampleCount) :
    EvenlyFilled cfg packets where
  pos := hpos
  eq c hc d hd i p q hp hq := by
    have heq := congrArg (fun l => l[i]?) (h c hc d hd)
    simp only [List.getElem?_map, hp, hq, Option.map_some, Option.some_inj] at heq
    exact heq

namespace RxStreamer

/-- The samples of a channel that were not returned yet. -/
def unread (cfg : RxStreamerConfig δ β) (s : RxStreamer δ) (chan : ℕ) : List β :=
  if s.buffSampsRemaining = 0 then (s.chans chan).pending.flatMap (cfg.payloadSamples chan)
  else
    items (cfg.conv chan) cfg.bytesPerItem (s.inBuffs chan) s.buffSampsRemaining ++
      (packetsOf (s.chans chan).events).flatMap (cfg.payloadSamples chan)

/-- The state between calls. -/
structure DeliveryInv (cfg : RxStreamerConfig δ β) (s : RxStreamer δ) : Prop where
  chans : ChansInStep cfg.numChans s.chans
  filled : EvenlyFilled cfg fun c => (s.chans c).pending
  overrun : s.stoppedDueToOverrun = false
  lateCmd : s.stoppedDueToLateCmd = false
  errorCache : s.errorMetadataCache = none
  fragment : s.lastFragmentMetadata.errorCode = .none
  /-- A packet that is partly consumed is held on every channel. -/
  held : s.buffSampsRemaining ≠ 0 → ∀ c < cfg.numChans, (s.chans c).frameBuff.isSome = true

variable {cfg : RxStreamerConfig δ β} {s : RxStreamer δ} {fuel : ℕ}

theorem unread_of_eq_zero (h : s.buffSampsRemaining = 0) (chan : ℕ) :
    s.unread cfg chan = (s.chans chan).pending.flatMap (cfg.payloadSamples chan) := if_pos h

theorem unread_of_ne_zero (h : s.buffSampsRemaining ≠ 0) (chan : ℕ) :
    s.unread cfg chan =
      items (cfg.conv chan) cfg.bytesPerItem (s.inBuffs chan) s.buffSampsRemaining ++
        (packetsOf (s.chans chan).events).flatMap (cfg.payloadSamples chan) := if_neg h

/-! ## Getting packets -/

theorem getRecvBuffs_of_inStep (h : DeliveryInv cfg s) (hfuel : 2 * cfg.numChans < fuel)
    (eov : EovData) :
    ∃ chans', ChansInStep cfg.numChans chans' ∧
      (∀ c, (chans' c).pending = (s.chans c).pending) ∧
      (s.getRecvBuffs cfg fuel eov = some ({ s with chans := chans' }.alignedBuffs cfg eov) ∧
          (∀ c < cfg.numChans, (chans' c).frameBuff.isSome = true) ∨
        s.getRecvBuffs cfg fuel eov =
          some ({ s with chans := chans' }, { errorCode := .timeout }, eov, 0)) := by
  obtain ⟨chans₁, result₁, halign₁, hinStep₁, hpending₁, hresult₁⟩ :=
    getAlignedBuffs_of_inStep cfg.ignoreSeqErr h.chans hfuel
  rcases hresult₁ with ⟨rfl, hheld₁⟩ | rfl
  · refine ⟨chans₁, hinStep₁, hpending₁, Or.inl ⟨?_, hheld₁⟩⟩
    simp [getRecvBuffs, halign₁]
  · -- nothing without a timeout
    obtain ⟨chans₂, result₂, halign₂, hinStep₂, hpending₂, hresult₂⟩ :=
      getAlignedBuffs_of_inStep cfg.ignoreSeqErr hinStep₁ hfuel
    refine ⟨chans₂, hinStep₂, fun c => (hpending₂ c).trans (hpending₁ c), ?_⟩
    rcases hresult₂ with ⟨rfl, hheld₂⟩ | rfl
    · refine Or.inl ⟨?_, hheld₂⟩
      simp [getRecvBuffs, halign₁, halign₂, h.overrun]
    · refine Or.inr ?_
      simp [getRecvBuffs, halign₁, halign₂, h.overrun, h.lateCmd, setMetadataForError]

theorem alignedBuffs_of_held (h : DeliveryInv cfg s) (hchans : 0 < cfg.numChans)
    {chans' : ℕ → RxChannel δ}
    (hpending : ∀ c, (chans' c).pending = (s.chans c).pending)
    (hheld : ∀ c < cfg.numChans, (chans' c).frameBuff.isSome = true) (eov : EovData) :
    ∃ s' metadata eov' numSamps, { s with chans := chans' }.alignedBuffs cfg eov =
        (s', metadata, eov', numSamps) ∧
      metadata.errorCode = .none ∧ 0 < numSamps ∧
      s'.chans = chans' ∧ s'.stoppedDueToOverrun = false ∧ s'.stoppedDueToLateCmd = false ∧
      s'.errorMetadataCache = none ∧ s'.lastFragmentMetadata.errorCode = .none ∧
      s'.buffSampsRemaining = s.buffSampsRemaining ∧
      ∀ c < cfg.numChans, items (cfg.conv c) cfg.bytesPerItem (s'.inBuffs c) numSamps ++
        (packetsOf (chans' c).events).flatMap (cfg.payloadSamples c) =
          (s.chans c).pending.flatMap (cfg.payloadSamples c) := by
  have hhead : ∀ c < cfg.numChans, (s.chans c).pending = (chans' c).info ::
      packetsOf (chans' c).events := fun c hc => by
    rw [← hpending, pending_of_isSome (hheld c hc)]
  have hcount : ∀ c < cfg.numChans,
      cfg.sampleCount (chans' c).info = cfg.sampleCount (chans' 0).info := fun c hc =>
    h.filled.eq c hc 0 hchans 0 _ _ (by rw [hhead c hc]; rfl) (by rw [hhead 0 hchans]; rfl)
  refine ⟨_, _, _, _, rfl, rfl, ?_, rfl, h.overrun, h.lateCmd, h.errorCache,
    h.fragment, rfl, fun c hc => ?_⟩
  · refine h.filled.pos 0 hchans _ ?_
    rw [hhead 0 hchans]
    exact List.mem_cons_self
  · rw [hhead c hc, List.flatMap_cons, RxStreamerConfig.payloadSamples, hcount c hc]
    show items (cfg.conv c) cfg.bytesPerItem
      (if c < cfg.numChans then (chans' c).info.payload else s.inBuffs c) _ ++ _ = _
    rw [if_pos hc]
    rfl

/-! ## Converting samples -/

/-- In the middle of a call: of the samples that were unread when it began, the first `total`
are in the buffers of the caller, and the others are still unread. -/
structure Delivered (cfg : RxStreamerConfig δ β) (before : ℕ → List β) (s : RxStreamer δ)
    (buffs : RxBuffs β) (total : ℕ) : Prop where
  inv : DeliveryInv cfg s
  le : ∀ c < cfg.numChans, total ≤ (before c).length
  unread : ∀ c < cfg.numChans, s.unread cfg c = (before c).drop total
  written : ∀ c < cfg.numChans, ∀ i, buffs c i = if i < total then (before c)[i]? else none

variable {before : ℕ → List β}

theorem DeliveryInv.delivered (h : DeliveryInv cfg s) :
    Delivered cfg (s.unread cfg) s (fun _ _ => none) 0 :=
  ⟨h, fun _ _ => Nat.zero_le _, fun _ _ => rfl, fun _ _ i => (if_neg (Nat.not_lt_zero i)).symm⟩

theorem Delivered.of_unread_eq {buffs : RxBuffs β} {total : ℕ}
    (h : Delivered cfg before s buffs total) {s' : RxStreamer δ} (hinv : DeliveryInv cfg s')
    (hsame : ∀ c < cfg.numChans, s'.unread cfg c = s.unread cfg c) :
    Delivered cfg before s' buffs total :=
  ⟨hinv, h.le, fun c hc => (hsame c hc).trans (h.unread c hc), h.written⟩

theorem convertSamples_of_held (vars : RxVars β) {total : ℕ}
    (hd : Delivered cfg before s vars.buffs total) (hrem : s.buffSampsRemaining ≠ 0)
    (herror : vars.metadata.errorCode = .none) {nsamps : ℕ} (hn : 0 < nsamps) :
    ∃ s' vars' num, s.convertSamples cfg vars nsamps total = (s', vars', num) ∧
      Delivered cfg before s' vars'.buffs (total + num) ∧ 0 < num ∧ num ≤ nsamps ∧
      vars'.metadata.errorCode = .none := by
  have h := hd.inv
  have hfront : ∀ c < cfg.numChans,
      total + min nsamps s.buffSampsRemaining ≤ (before c).length := fun c hc => by
    have hlen := congrArg List.length (hd.unread c hc)
    have hle := hd.le c hc
    rw [unread_of_ne_zero hrem, List.length_append, length_items, List.length_drop] at hlen
    omega
  have hsplit : ∀ c m, m ≤ s.buffSampsRemaining → s.unread cfg c =
      items (cfg.conv c) cfg.bytesPerItem (s.inBuffs c) m ++
        (items (cfg.conv c) cfg.bytesPerItem ((s.inBuffs c).drop (m * cfg.bytesPerItem))
          (s.buffSampsRemaining - m) ++
        (packetsOf (s.chans c).events).flatMap (cfg.payloadSamples c)) := fun c m hm => by
    rw [unread_of_ne_zero hrem, ← List.append_assoc, ← items_add, Nat.add_sub_cancel' hm]
  have hdrop : ∀ c < cfg.numChans, ∀ m, (before c).drop (total + m) = (s.unread cfg c).drop m :=
    fun c hc m => by rw [hd.unread c hc, List.drop_drop]
  have hwritten : ∀ c < cfg.numChans, ∀ i,
      (s.convertToOutBuffs cfg vars.buffs total (min nsamps s.buffSampsRemaining)).2 c i =
        if i < total + min nsamps s.buffSampsRemaining then (before c)[i]? else none := by
    intro c hc i
    simp only [convertToOutBuffs, hc, true_and]
    split_ifs with hi hi' hi'
    · have hget : (before c)[i]? = (s.unread cfg c)[i - total]? := by
        rw [hd.unread c hc, List.getElem?_drop, Nat.add_sub_cancel' hi.1]
      rw [hget, hsplit c (min nsamps s.buffSampsRemaining) (Nat.min_le_right ..),
        List.getElem?_append_left (by rw [length_items]; omega)]
    · exact absurd hi.2 hi'
    · rw [hd.written c hc, if_pos (by omega)]
    · rw [hd.written c hc, if_neg (by omega)]
  by_cases hlast : s.buffSampsRemaining ≤ nsamps
  · -- the packets are used up
    have hmin : min nsamps s.buffSampsRemaining = s.buffSampsRemaining := Nat.min_eq_right hlast
    rw [hmin] at hwritten hfront
    have hreleased : ∀ c < cfg.numChans, (s.convertToOutBuffs cfg vars.buffs total
        s.buffSampsRemaining).1.chans c = (s.chans c).releaseRecvBuff := fun c hc =>
      if_pos ⟨hc, rfl⟩
    have htail : ∀ c < cfg.numChans, ((s.convertToOutBuffs cfg vars.buffs total
        s.buffSampsRemaining).1.chans c).pending = (s.chans c).pending.tail := fun c hc => by
      rw [hreleased c hc, pending_releaseRecvBuff, pending_of_isSome (h.held hrem c hc),
        List.tail_cons]
    rw [convertSamples, hmin]
    refine ⟨_, _, _, rfl, ⟨⟨h.chans.releaseAll (h.held hrem) hreleased, h.filled.tail htail,
      h.overrun, h.lateCmd, h.errorCache, ?_, fun hne => absurd (Nat.sub_self _) hne⟩, hfront,
      fun c hc => ?_, hwritten⟩, Nat.pos_of_ne_zero hrem, hlast, herror⟩
    · exact (congrArg RxMetadata.errorCode (if_neg fun hne => hne (Nat.sub_self _))).trans
        h.fragment
    rw [unread_of_eq_zero (Nat.sub_self _), hdrop c hc,
      hsplit c s.buffSampsRemaining (Nat.le_refl _), Nat.sub_self, items_zero, List.nil_append,
      List.drop_left' (length_items ..)]
    show ((s.convertToOutBuffs cfg vars.buffs total s.buffSampsRemaining).1.chans c).pending.flatMap
      (cfg.payloadSamples c) = _
    rw [hreleased c hc, pending_releaseRecvBuff]
  · have hmin : min nsamps s.buffSampsRemaining = nsamps := Nat.min_eq_left (by omega)
    rw [hmin] at hwritten hfront
    have hkept : (s.convertToOutBuffs cfg vars.buffs total nsamps).1.chans = s.chans :=
      funext fun c => if_neg fun hc => by omega
    rw [convertSamples, hmin]
    refine ⟨_, _, _, rfl, ⟨⟨hkept.symm ▸ h.chans, hkept.symm ▸ h.filled, h.overrun, h.lateCmd,
      h.errorCache, ?_, fun _ => hkept.symm ▸ h.held hrem⟩, hfront, fun c hc => ?_, hwritten⟩,
      hn, Nat.le_refl _, herror⟩
    · have hmore : s.buffSampsRemaining - nsamps ≠ 0 := by omega
      exact (congrArg RxMetadata.errorCode (if_pos hmore)).trans herror
    rw [unread_of_ne_zero (by show s.buffSampsRemaining - nsamps ≠ 0; omega), hdrop c hc,
      hsplit c nsamps (by omega), List.drop_left' (length_items ..)]
    show items _ _ (if c < cfg.numChans then (s.inBuffs c).drop (nsamps * cfg.bytesPerItem)
        else s.inBuffs c) (s.buffSampsRemaining - nsamps) ++
      (packetsOf ((s.convertToOutBuffs cfg vars.buffs total nsamps).1.chans c).events).flatMap
        (cfg.payloadSamples c) = _
    rw [if_pos hc, hkept]

/-! ## Receiving -/

theorem DeliveryInv.of_chans (h : DeliveryInv cfg s) {s' : RxStreamer δ}
    (hchans : ChansInStep cfg.numChans s'.chans)
    (hpending : ∀ c, (s'.chans c).pending = (s.chans c).pending)
    (hoverrun : s'.stoppedDueToOverrun = false) (hlateCmd : s'.stoppedDueToLateCmd = false)
    (hcache : s'.errorMetadataCache = none)
    (hfragment : s'.lastFragmentMetadata.errorCode = .none)
    (hheld : s'.buffSampsRemaining ≠ 0 → ∀ c < cfg.numChans,
      (s'.chans c).frameBuff.isSome = true) : DeliveryInv cfg s' :=
  ⟨hchans, (funext hpending : (fun c => (s'.chans c).pending) = fun c => (s.chans c).pending) ▸
    h.filled, hoverrun, hlateCmd, hcache, hfragment, hheld⟩

theorem recvOnePacket_of_inv {vars : RxVars β} {total nsamps : ℕ}
    (hd : Delivered cfg before s vars.buffs total) (hchans : 0 < cfg.numChans)
    (hfuel : 2 * cfg.numChans < fuel) (hgood : nsamps ≠ 0 ∨ s.buffSampsRemaining = 0) :
    ∃ s' vars' num, s.recvOnePacket cfg fuel vars nsamps total = some (s', vars', num) ∧
      Delivered cfg before s' vars'.buffs (total + num) ∧ num ≤ nsamps ∧
      (vars'.metadata.errorCode = .none ∧ (nsamps ≠ 0 → 0 < num) ∨
        vars'.metadata.errorCode = .timeout ∧ num = 0) := by
  have h := hd.inv
  by_cases hrem : s.buffSampsRemaining = 0
  · obtain ⟨chans', hinStep, hpending, hget | hget⟩ := getRecvBuffs_of_inStep h hfuel vars.eov
    · -- the next packets
      obtain ⟨hget, hheld⟩ := hget
      obtain ⟨s', metadata, eov', numSamps, haligned, herror, hpos, hchans', hoverrun, hlate,
        hcache, hfragment, hremaining, hitems⟩ := alignedBuffs_of_held h hchans hpending hheld vars.eov
      rw [haligned] at hget
      subst hchans'
      by_cases hn : nsamps = 0
      · refine ⟨s', { vars with
            metadata := metadata
            eov := eov'
            notes := s'.noteFetch vars.notes metadata total numSamps }, 0, ?_, ?_, Nat.zero_le _,
          Or.inl ⟨herror, fun hne => absurd hn hne⟩⟩
        · rw [recvOnePacket, if_pos hn, hget]
          simp [herror]
        · refine hd.of_unread_eq (h.of_chans hinStep hpending hoverrun hlate hcache hfragment
            fun hne => absurd (hremaining.trans hrem) hne) fun c _ => ?_
          rw [unread_of_eq_zero (hremaining.trans hrem), unread_of_eq_zero hrem, hpending]
      · have hready : Delivered cfg before
            { s' with buffSampsRemaining := numSamps, fragmentOffsetInSamps := 0 }
            vars.buffs total := by
          refine hd.of_unread_eq (h.of_chans hinStep hpending hoverrun hlate hcache hfragment
            fun _ => hheld) fun c hc => ?_
          rw [unread_of_ne_zero (Nat.pos_iff_ne_zero.mp hpos), unread_of_eq_zero hrem]
          exact hitems c hc
        obtain ⟨s'', vars'', num, hconvert, hdone, hnum, hle, herror'⟩ :=
          convertSamples_of_held { vars with
            metadata := metadata
            eov := eov'
            notes := s'.noteFetch vars.notes metadata total numSamps } hready
            (Nat.pos_iff_ne_zero.mp hpos) herror (Nat.pos_of_ne_zero hn)
        refine ⟨s'', vars'', num, ?_, hdone, hle, Or.inl ⟨herror', fun _ => hnum⟩⟩
        rw [recvOnePacket, if_neg hn, if_pos hrem, hget]
        simp only [Option.map_some, if_neg (Nat.pos_iff_ne_zero.mp hpos)]
        exact congrArg some hconvert
    · -- a timeout
      have hkept : Delivered cfg before { s with chans := chans' } vars.buffs total := by
        refine hd.of_unread_eq (h.of_chans hinStep hpending h.overrun h.lateCmd h.errorCache
          h.fragment
          fun hne => absurd hrem hne) fun c _ => ?_
        rw [unread_of_eq_zero (s := { s with chans := chans' }) hrem, unread_of_eq_zero hrem,
          hpending]
      by_cases hn : nsamps = 0
      · refine ⟨{ s with chans := chans' }, { vars with metadata := {} }, 0, ?_, hkept,
          Nat.zero_le _, Or.inl ⟨rfl, fun hne => absurd hn hne⟩⟩
        rw [recvOnePacket, if_pos hn, hget]
        rfl
      · refine ⟨{ s with chans := chans', buffSampsRemaining := 0, fragmentOffsetInSamps := 0 },
          { vars with metadata := { errorCode := .timeout }, eov := vars.eov }, 0, ?_, ?_,
          Nat.zero_le _, Or.inr ⟨rfl, rfl⟩⟩
        · rw [recvOnePacket, if_neg hn, if_pos hrem, hget]
          rfl
        · refine hd.of_unread_eq (h.of_chans hinStep hpending h.overrun h.lateCmd h.errorCache
          h.fragment
            fun hne => absurd rfl hne) fun c _ => ?_
          rw [unread_of_eq_zero rfl, unread_of_eq_zero hrem, hpending]
  · -- the rest of the packets at hand
    have hn : nsamps ≠ 0 := hgood.resolve_right hrem
    obtain ⟨s', vars', num, hconvert, hdone, hnum, hle, herror⟩ :=
      convertSamples_of_held { vars with metadata := { s.lastFragmentMetadata with
        timeSpec := s.lastFragmentMetadata.timeSpec + TimeSpec.fromTicks
          (s.fragmentOffsetInSamps - s.lastFragmentMetadata.fragmentOffset : ℕ)
            cfg.sampRate } } hd hrem h.fragment (Nat.pos_of_ne_zero hn)
    refine ⟨s', vars', num, ?_, hdone, hle, Or.inl ⟨herror, fun _ => hnum⟩⟩
    rw [recvOnePacket, if_neg hn, if_neg hrem]
    exact congrArg some hconvert

theorem recvLoop_of_inv (hchans : 0 < cfg.numChans) (hfuel : 2 * cfg.numChans < fuel)
    {nsamps : ℕ} (first : RxMetadata) (passes : ℕ) {s : RxStreamer δ} {vars : RxVars β}
    {total : ℕ} (hd : Delivered cfg before s vars.buffs total) (htotal : total ≤ nsamps)
    (hpasses : nsamps - total < passes) :
    ∃ s' r, recvLoop cfg nsamps fuel first passes s vars total = some (s', r) ∧
      Delivered cfg before s' r.buffs r.samps ∧ r.samps ≤ nsamps := by
  induction passes generalizing s vars total with
  | zero => exact absurd hpasses (Nat.not_lt_zero _)
  | succ passes ih =>
    rw [recvLoop]
    by_cases hfull : nsamps ≤ total
    · rw [if_pos hfull]
      exact ⟨_, _, rfl, hd, htotal⟩
    · rw [if_neg hfull]
      have hmore : nsamps - total ≠ 0 := by omega
      obtain ⟨s', vars', num, hrecv, hd', hnum, ⟨herror, hpos⟩ | ⟨herror, rfl⟩⟩ :=
        recvOnePacket_of_inv hd hchans hfuel (Or.inl hmore)
      · have hpos := hpos hmore
        have hle : total + num ≤ nsamps := by omega
        simp only [hrecv, herror, ne_eq, not_true_eq_false, if_false]
        split_ifs
        · exact ⟨_, _, rfl, hd', hle⟩
        · exact ⟨_, _, rfl, hd', hle⟩
        · exact ih hd' hle (by omega)
      · -- a timeout is not stored
        simp only [hrecv, herror, ne_eq, reduceCtorEq, not_false_eq_true, if_true, storeError,
          not_true_eq_false, if_false]
        exact ⟨_, _, rfl, hd', htotal⟩

theorem recv_of_inv (h : DeliveryInv cfg s) (hconnected : cfg.allChansConnected = true)
    (hchans : 0 < cfg.numChans) {call : RxRecvCall} (hfuel : 2 * cfg.numChans < fuel)
    (hcall : call.nsampsPerBuff < fuel)
    (hgood : call.nsampsPerBuff ≠ 0 ∨ s.buffSampsRemaining = 0) :
    ∃ s' r, s.recv cfg fuel call = some (s', .ok r) ∧
      Delivered cfg (s.unread cfg) s' r.buffs r.samps ∧ r.samps ≤ call.nsampsPerBuff := by
  have hfresh : Delivered cfg (s.unread cfg) s
      ({ eov := EovData.ofSize call.eovPositions } : RxVars β).buffs 0 := h.delivered
  obtain ⟨s', vars, num, hrecv, hd, hnum, -⟩ := recvOnePacket_of_inv hfresh hchans hfuel hgood
  rw [Nat.zero_add] at hd
  rw [recv, hconnected, if_neg nofun]
  simp only [h.errorCache, hrecv, Option.bind_some]
  split_ifs
  · exact ⟨_, _, rfl, hd, hnum⟩
  · obtain ⟨s'', r, hloop, hd', hsamps⟩ :=
      recvLoop_of_inv hchans hfuel vars.metadata fuel hd hnum (by omega)
    exact ⟨s'', r, by rw [hloop]; rfl, hd', hsamps⟩

/-! ## Runs -/

/-- A streamer and what its calls have returned and written. -/
structure Session (δ β : Type) where
  streamer : RxStreamer δ
  results : List (RxRecvResult β) := []

/-- One call; there is no next state after an exception. -/
def Session.step (cfg : RxStreamerConfig δ β) (fuel : ℕ) (t : Session δ β) (call : RxRecvCall) :
    Option (Session δ β) :=
  match t.streamer.recv cfg fuel call with
  | some (s, .ok r) => some { streamer := s, results := t.results ++ [r] }
  | _ => none

/-- The streamer before anything was received. -/
def Session.start (events : ℕ → List (RxEvent δ)) : Session δ β where
  streamer := { chans := fun chan => { events := events chan } }

/-- The samples that calls have returned on a channel, as they stand in the buffers. -/
def Session.returned (t : Session δ β) (chan : ℕ) : List (Option β) :=
  t.results.flatMap fun r => (List.range r.samps).map (r.buffs chan)

/-- The samples of a stream of packets. -/
def streamSamples (cfg : RxStreamerConfig δ β) (events : ℕ → List (RxEvent δ)) (chan : ℕ) :
    List β :=
  (packetsOf (events chan)).flatMap (cfg.payloadSamples chan)

/-- Streams of packets without errors that are in step and evenly filled. -/
structure GoodStreams (cfg : RxStreamerConfig δ β) (events : ℕ → List (RxEvent δ)) : Prop where
  sound : ∀ c < cfg.numChans, ∀ e ∈ events c, e.Sound
  inStep : InStep cfg.numChans fun c => packetsOf (events c)
  filled : EvenlyFilled cfg fun c => packetsOf (events c)

/-- A call does not ask for no samples while a packet is partly consumed. -/
def Session.Regular (t : Session δ β) (call : RxRecvCall) : Prop :=
  call.nsampsPerBuff = 0 → t.streamer.buffSampsRemaining = 0

instance (t : Session δ β) (call : RxRecvCall) : Decidable (t.Regular call) :=
  inferInstanceAs (Decidable (_ → _))

/-- What holds after every call. -/
structure Session.Inv (cfg : RxStreamerConfig δ β) (stream : ℕ → List β) (t : Session δ β) :
    Prop where
  inv : DeliveryInv cfg t.streamer
  samples : ∀ c < cfg.numChans,
    t.returned c ++ (t.streamer.unread cfg c).map some = (stream c).map some
  /-- Nothing is written beyond what is returned. -/
  beyond : ∀ r ∈ t.results, ∀ c < cfg.numChans, ∀ i, r.samps ≤ i → r.buffs c i = none

theorem deliveryInv_start {events : ℕ → List (RxEvent δ)} (h : GoodStreams cfg events) :
    DeliveryInv cfg (Session.start events : Session δ β).streamer where
  chans := ⟨h.sound, h.inStep, fun _ _ _ _ _ => Nat.zero_le _⟩
  filled := h.filled
  overrun := rfl
  lateCmd := rfl
  errorCache := rfl
  fragment := rfl
  held hne := absurd rfl hne

theorem map_range_of_written {buff : ℕ → Option β} {xs : List β} {n : ℕ} (hn : n ≤ xs.length)
    (h : ∀ i, buff i = if i < n then xs[i]? else none) :
    (List.range n).map buff = (xs.take n).map some := by
  refine List.ext_getElem? fun i => ?_
  rw [List.getElem?_map, List.getElem?_map, List.getElem?_take]
  by_cases hi : i < n
  · rw [List.getElem?_range hi, Option.map_some, h, if_pos hi,
      List.getElem?_eq_getElem (Nat.lt_of_lt_of_le hi hn)]
    rfl
  · rw [List.getElem?_eq_none (by rw [List.length_range]; omega), if_neg hi]
    rfl

theorem Session.Inv.step {stream : ℕ → List β} {t : Session δ β} (h : t.Inv cfg stream)
    (hconnected : cfg.allChansConnected = true) (hchans : 0 < cfg.numChans) {call : RxRecvCall}
    (hfuel : 2 * cfg.numChans < fuel) (hcall : call.nsampsPerBuff < fuel)
    (hgood : t.Regular call) :
    ∃ t' : Session δ β, t.step cfg fuel call = some t' ∧ t'.Inv cfg stream := by
  obtain ⟨s', r, hrecv, hd, -⟩ := recv_of_inv h.inv hconnected hchans hfuel hcall
    (by by_cases hn : call.nsampsPerBuff = 0
        · exact Or.inr (hgood hn)
        · exact Or.inl hn)
  refine ⟨{ streamer := s', results := t.results ++ [r] }, by rw [Session.step, hrecv], hd.inv,
    fun c hc => ?_, fun r' hr' c hc i hi => ?_⟩
  · rw [← h.samples c hc, hd.unread c hc, Session.returned, List.flatMap_append,
      List.flatMap_singleton, map_range_of_written (hd.le c hc) (hd.written c hc),
      List.append_assoc, ← List.map_append, List.take_append_drop]
    rfl
  · rcases List.mem_append.mp hr' with hr' | hr'
    · exact h.beyond r' hr' c hc i hi
    · rw [List.mem_singleton.mp hr'] at hi ⊢
      rw [hd.written c hc, if_neg (Nat.not_lt.mpr hi)]

theorem Session.Inv.run {stream : ℕ → List β} (hconnected : cfg.allChansConnected = true)
    (hchans : 0 < cfg.numChans) (hfuel : 2 * cfg.numChans < fuel) {calls : List RxRecvCall}
    (hcalls : ∀ call ∈ calls, call.nsampsPerBuff < fuel) {t : Session δ β}
    (h : t.Inv cfg stream) (hgood : EveryStep (Session.step cfg fuel) Session.Regular t calls) :
    ∃ t' : Session δ β, run (Session.step cfg fuel) t calls = some t' ∧ t'.Inv cfg stream := by
  induction calls generalizing t with
  | nil => exact ⟨t, rfl, h⟩
  | cons call calls ih =>
    obtain ⟨hcall, hcalls⟩ := List.forall_mem_cons.mp hcalls
    obtain ⟨u, hu, hinv⟩ := h.step hconnected hchans hfuel hcall hgood.1
    obtain ⟨t', ht', hinv'⟩ := ih hcalls hinv (hgood.2 u hu)
    exact ⟨t', by rw [run_cons, hu]; exact ht', hinv'⟩

/-- **What is delivered.**  Where no call asks for no samples while a packet is partly consumed,
every call returns, and on every channel the samples that were returned are the samples of the
packets in order, with what is left still to come. -/
theorem delivered_of_run (hconnected : cfg.allChansConnected = true) (hchans : 0 < cfg.numChans)
    {events : ℕ → List (RxEvent δ)} (hstreams : GoodStreams cfg events) {calls : List RxRecvCall}
    (hfuel : 2 * cfg.numChans < fuel) (hcalls : ∀ call ∈ calls, call.nsampsPerBuff < fuel)
    (hgood : EveryStep (Session.step cfg fuel) Session.Regular (Session.start events) calls) :
    ∃ t : Session δ β, run (Session.step cfg fuel) (Session.start events) calls = some t ∧
      (∀ c < cfg.numChans, t.returned c ++ (t.streamer.unread cfg c).map some =
        (streamSamples cfg events c).map some) ∧
      ∀ r ∈ t.results, ∀ c < cfg.numChans, ∀ i, r.samps ≤ i → r.buffs c i = none := by
  have hstart : (Session.start events : Session δ β).Inv cfg (streamSamples cfg events) :=
    ⟨deliveryInv_start hstreams, fun _ _ => rfl, fun _ hr => absurd hr List.not_mem_nil⟩
  obtain ⟨t, hrun, hinv⟩ := hstart.run hconnected hchans hfuel hcalls hgood
  exact ⟨t, hrun, hinv.samples, hinv.beyond⟩

/-- Two channels, one unit to a sample. -/
def twoChannels : RxStreamerConfig ℕ ℕ where
  numChans := 2
  bytesPerItem := 1
  conv := fun _ xs => xs.headD 0

/-- Two packets on each channel, the second one late on the second channel. -/
def twoPackets (chan : ℕ) : List (RxEvent ℕ) :=
  if chan = 0 then
    [.packet { hasTsf := true, tsf := 0, payload := [10, 11, 12, 13] } false,
      .packet { hasTsf := true, tsf := 4, payload := [14, 15] } false]
  else
    [.packet { hasTsf := true, tsf := 0, payload := [20, 21, 22, 23] } false, .timeout,
      .packet { hasTsf := true, tsf := 4, payload := [24, 25] } false]

theorem goodStreams_twoPackets : GoodStreams twoChannels twoPackets where
  sound := by decide
  inStep := InStep.of_map_eq (by decide) fun _ => by decide
  filled := EvenlyFilled.of_map_eq (by decide) (by decide)

/-- Calls for pieces that do not fit the packets, and for no samples before the first one. -/
def pieces : List RxRecvCall :=
  [{ nsampsPerBuff := 0 }, { nsampsPerBuff := 3 }, { nsampsPerBuff := 2 }, { nsampsPerBuff := 2 }]

theorem delivered_of_pieces : ∃ t : Session ℕ ℕ,
    run (Session.step twoChannels 10) (Session.start twoPackets) pieces = some t ∧
      (∀ c < 2, t.returned c ++ (t.streamer.unread twoChannels c).map some =
        (streamSamples twoChannels twoPackets c).map some) ∧
      ∀ r ∈ t.results, ∀ c < 2, ∀ i, r.samps ≤ i → r.buffs c i = none :=
  delivered_of_run rfl (by decide) goodStreams_twoPackets (by decide) (by decide) (by decide)

example : (run (Session.step twoChannels 10) (Session.start twoPackets) pieces).map
    (fun t => (t.results.map fun r => r.samps, t.returned 1)) =
    some ([0, 3, 2, 1], [some 20, some 21, some 22, some 23, some 24, some 25]) := by decide

/-- Half a packet, nothing, and half a packet. -/
def nothingInBetween : List RxRecvCall :=
  [{ nsampsPerBuff := 2 }, { nsampsPerBuff := 0 }, { nsampsPerBuff := 2 }]

/-- The call for no samples starts the packet over: the same samples are returned twice. -/
theorem samples_repeated : ∃ t : Session ℕ ℕ,
    run (Session.step twoChannels 10) (Session.start twoPackets) nothingInBetween = some t ∧
      GoodStreams twoChannels twoPackets ∧
      t.returned 0 = [some 10, some 11, some 10, some 11] ∧
      ¬ t.returned 0 <+: (streamSamples twoChannels twoPackets 0).map some := by
  obtain ⟨t, hrun, ht⟩ := Option.map_eq_some_iff.mp
    (by decide : (run (Session.step twoChannels 10) (Session.start twoPackets)
      nothingInBetween).map (fun t => t.returned 0) =
        some [some 10, some 11, some 10, some 11])
  refine ⟨t, hrun, goodStreams_twoPackets, ht, ?_⟩
  rw [ht]
  decide

end RxStreamer
end Transport
end UhdHost
