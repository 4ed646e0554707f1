import UhdHost.Transport.ReceivedFrames
import UhdHost.Transport.RxStreamerDelivery

/-!
# Runs of the receive streamer

What calls of `recv` do to the packets of the channels, whatever the transports deliver.

Getting packets (`getRecvBuffs_cases`) either comes back with a packet of every channel, with one
time, or with an error; and then something was taken off the channels, unless one of them has
nothing left.  What is done to a channel meanwhile is receiving, releasing and flushing
(`StreamRule`), so the frames of every channel are accounted for (`StreamerInv`).

The samples that are left of packets belong to packets that are still held on every channel, so a
call for no samples in between gets the same packets again.

`recv_rule` is the rule for a call: what every pass of `recv` preserves holds of what the call
returns.
-/

namespace UhdHost
namespace Transport

open GetAlignedBuffs Transition

variable {δ β : Type}

namespace RxStreamer

/-! ## Flushing -/

/-- What is done to a channel, when a channel is flushed too. -/
structure StreamRule (P : RxChannel δ → Prop) : Prop extends ChannelRule P where
  flush : ∀ ch, P ch → P (flush ch.releaseRecvBuff ch.events)

/-- What every rule for a channel carries over. -/
def Evolved (numChans : ℕ) (chans chans' : ℕ → RxChannel δ) : Prop :=
  ∀ P : ℕ → RxChannel δ → Prop, (∀ c, StreamRule (P c)) → (∀ c < numChans, P c (chans c)) →
    ∀ c < numChans, P c (chans' c)

theorem Evolved.refl (numChans : ℕ) (chans : ℕ → RxChannel δ) : Evolved numChans chans chans :=
  fun _ _ h => h

theorem Evolved.trans {numChans : ℕ} {chans chans' chans'' : ℕ → RxChannel δ}
    (h : Evolved numChans chans chans') (h' : Evolved numChans chans' chans'') :
    Evolved numChans chans chans'' := fun P hP hchans => h' P hP (h P hP hchans)

theorem evolved_of_getAlignedBuffs {ignoreSeqErr : Bool} {numChans fuel : ℕ}
    {chans chans' : ℕ → RxChannel δ} {result : AlignmentResult}
    (h : getAlignedBuffs ignoreSeqErr numChans fuel chans = some (chans', result)) :
    Evolved numChans chans chans' :=
  fun _ hP hchans => loop_channelwise (fun c => (hP c).toChannelRule) hchans h

theorem flush_tracks {stream : List (RxEvent δ)} (events : List (RxEvent δ)) {ch : RxChannel δ}
    (hnone : ch.frameBuff = none) (h : ({ ch with events := events } : RxChannel δ).Tracks stream) :
    (flush ch events).Tracks stream := by
  induction events generalizing ch with
  | nil => exact h
  | cons e events ih =>
    cases e with
    | timeout => exact ⟨h.toCome, h.frames, h.held⟩
    | badPacket => exact ⟨h.toCome, h.frames, h.held⟩
    | packet info seqError =>
      have hreceived := tracks_getRecvBuff h hnone rfl
      rw [flush]
      refine ih hnone ⟨hreceived.toCome, ?_, fun frame hframe => by cases hnone.symm.trans hframe⟩
      show ch.released ++ [ch.received] ++ ch.frameBuff.toList = List.range (ch.received + 1)
      rw [hnone, Option.toList_none, List.append_nil]
      exact hreceived.frames

theorem streamRule_tracks (stream : List (RxEvent δ)) :
    StreamRule (RxChannel.Tracks stream) where
  toChannelRule := channelRule_tracks stream
  flush _ h := flush_tracks _ rfl (tracks_releaseRecvBuff h)

theorem load_flush_le (events : List (RxEvent δ)) {ch : RxChannel δ}
    (hnone : ch.frameBuff = none) :
    load (flush ch events) ≤ load ({ ch with events := events } : RxChannel δ) := by
  induction events generalizing ch with
  | nil => exact Nat.le_refl _
  | cons e events ih =>
    have hrest : load ({ ch with events := events } : RxChannel δ) ≤
        load ({ ch with events := e :: events } : RxChannel δ) := by
      have hlen := length_packetsOf_cons e events
      simp only [load, RxChannel.pending, hnone, Option.isSome_none, Bool.false_eq_true, if_false,
        List.nil_append, List.length_cons]
      omega
    cases e with
    | timeout => exact hrest
    | badPacket => exact hrest
    | packet info seqError =>
      rw [flush]
      exact Nat.le_trans (ih (by exact hnone)) hrest

theorem streamRule_load_le (most : ℕ) : StreamRule fun ch : RxChannel δ => load ch ≤ most where
  toChannelRule := channelRule_load_le most
  flush ch h := ((load_flush_le ch.events rfl).trans (load_releaseRecvBuff_le ch)).trans h

theorem released_flush (events : List (RxEvent δ)) (ch : RxChannel δ) :
    ch.released.length ≤ (flush ch events).released.length := by
  induction events generalizing ch with
  | nil => exact Nat.le_refl _
  | cons e events ih =>
    cases e with
    | timeout => exact Nat.le_refl _
    | badPacket => exact Nat.le_refl _
    | packet info seqError =>
      refine Nat.le_trans ?_ (ih _)
      rw [List.length_append]
      exact Nat.le_add_right ..

theorem released_releaseRecvBuff_le (ch : RxChannel δ) :
    ch.released.length ≤ ch.releaseRecvBuff.released.length := by
  rw [RxChannel.releaseRecvBuff, List.length_append]
  exact Nat.le_add_right ..

theorem streamRule_released (least : ℕ) :
    StreamRule fun ch : RxChannel δ => least ≤ ch.released.length where
  receive _ _ _ h hreceive := by
    rw [receive_released hreceive]
    exact h
  release ch h := Nat.le_trans h (released_releaseRecvBuff_le ch)
  setPrevTsf _ h _ _ := h
  flush ch h := Nat.le_trans (Nat.le_trans h (released_releaseRecvBuff_le ch)) (released_flush _ _)

/-! ## Getting packets -/

variable {cfg : RxStreamerConfig δ β} {s s' : RxStreamer δ} {fuel : ℕ} {eov eov' : EovData}
  {metadata : RxMetadata} {numSamps : ℕ}

/-- **Getting packets.**  They come with one time, or there is an error, and something was taken
off the channels unless one of them has nothing left. -/
theorem getRecvBuffs_cases
    (h : s.getRecvBuffs cfg fuel eov = some (s', metadata, eov', numSamps)) :
    ∃ chans', Evolved cfg.numChans s.chans chans' ∧
      (AlignedSet cfg.numChans chans' ∧
          (s', metadata, eov', numSamps) = { s with chans := chans' }.alignedBuffs cfg eov ∨
        metadata.errorCode ≠ .none ∧ eov' = eov ∧ numSamps = 0 ∧ s'.chans = chans' ∧
          s'.buffSampsRemaining = s.buffSampsRemaining ∧
          s'.lastFragmentMetadata = s.lastFragmentMetadata ∧
          s'.errorMetadataCache = s.errorMetadataCache ∧
          (total cfg.numChans load chans' < total cfg.numChans load s.chans ∨
            ∃ c < cfg.numChans, load (chans' c) = 0)) := by
  obtain ⟨⟨chans, result⟩, haligned, hout⟩ := Option.map_eq_some_iff.mp h
  -- the last alignment, whichever it is
  obtain ⟨chans₁, hevolved₁, hle₁, hlast⟩ : ∃ chans₁, Evolved cfg.numChans s.chans chans₁ ∧
      total cfg.numChans load chans₁ ≤ total cfg.numChans load s.chans ∧
      getAlignedBuffs cfg.ignoreSeqErr cfg.numChans fuel chans₁ = some (chans, result) := by
    obtain ⟨⟨chans₁, result₁⟩, hfirst, hsecond⟩ := Option.bind_eq_some_iff.mp haligned
    dsimp only at hsecond
    split_ifs at hsecond
    · exact ⟨chans₁, evolved_of_getAlignedBuffs hfirst, (getAlignedBuffs_progress hfirst).1,
        hsecond⟩
    · obtain ⟨rfl, rfl⟩ := Prod.mk.inj (Option.some.inj hsecond)
      exact ⟨s.chans, Evolved.refl _ _, Nat.le_refl _, hfirst⟩
  have hevolved := hevolved₁.trans (evolved_of_getAlignedBuffs hlast)
  obtain ⟨hle, hprogress⟩ := getAlignedBuffs_progress hlast
  dsimp only at hout
  by_cases hsuccess : result = .success
  · subst hsuccess
    rw [if_neg (fun hc => by cases hc.1), if_neg (fun hc => by cases hc.1),
      if_neg (fun hc => hc rfl)] at hout
    exact ⟨chans, hevolved, Or.inl ⟨alignedSet_of_success hlast, hout.symm⟩⟩
  have hspent : total cfg.numChans load chans < total cfg.numChans load s.chans ∨
      ∃ c < cfg.numChans, load (chans c) = 0 := by
    rcases hprogress with hsuc | hlt | ⟨-, c, hc, hnone, hempty⟩
    · exact absurd hsuc hsuccess
    · exact Or.inl (Nat.lt_of_lt_of_le hlt hle₁)
    · refine Or.inr ⟨c, hc, ?_⟩
      rw [load, RxChannel.pending, hnone, hempty]
      rfl
  split_ifs at hout with hoverrun hlate
  · rw [Prod.mk.injEq, Prod.mk.injEq, Prod.mk.injEq] at hout
    obtain ⟨rfl, rfl, rfl, rfl⟩ := hout
    have hflushed : ∀ c < cfg.numChans, ({ s with chans := chans }.handleOverrun cfg).chans c =
        flush (chans c).releaseRecvBuff (chans c).events := fun c hc => if_pos hc
    have hloads : ∀ c < cfg.numChans,
        load (({ s with chans := chans }.handleOverrun cfg).chans c) ≤ load (chans c) := by
      intro c hc
      rw [hflushed c hc]
      exact (streamRule_load_le _).flush (chans c) (Nat.le_refl _)
    refine ⟨_, hevolved.trans fun P hP hchans c hc => ?_, Or.inr ⟨?_, rfl, rfl, rfl, rfl, rfl, rfl,
      ?_⟩⟩
    · exact (hflushed c hc).symm ▸ (hP c).flush _ (hchans c hc)
    · rw [LastReadTimeInfo.setNextPacketTime]
      split_ifs
      · exact fun h => by cases h
      · exact fun h => by cases h
    · rcases hspent with hlt | ⟨c, hc, hzero⟩
      · exact Or.inl (Nat.lt_of_le_of_lt (total_le hloads) hlt)
      · exact Or.inr ⟨c, hc, Nat.le_zero.mp (hzero ▸ hloads c hc)⟩
  · rw [Prod.mk.injEq, Prod.mk.injEq, Prod.mk.injEq] at hout
    obtain ⟨rfl, rfl, rfl, rfl⟩ := hout
    exact ⟨chans, hevolved, Or.inr ⟨fun h => (by cases h), rfl, rfl, rfl, rfl, rfl, rfl, hspent⟩⟩
  · rw [Prod.mk.injEq, Prod.mk.injEq, Prod.mk.injEq] at hout
    obtain ⟨rfl, rfl, rfl, rfl⟩ := hout
    refine ⟨chans, hevolved, Or.inr ⟨?_, rfl, rfl, rfl, rfl, rfl, rfl, hspent⟩⟩
    cases result with
    | success => exact absurd rfl hsuccess
    | timeout => exact fun h => by cases h
    | sequenceError =>
      rw [setMetadataForError, LastReadTimeInfo.setNextPacketTime]
      split_ifs
      · exact fun h => by cases h
      · exact fun h => by cases h
    | alignmentFailure => exact fun h => by cases h
    | badPacket => exact fun h => by cases h

theorem getRecvBuffs_of_alignedSet (hset : AlignedSet cfg.numChans s.chans)
    (h : s.getRecvBuffs cfg fuel eov = some (s', metadata, eov', numSamps)) :
    (s', metadata, eov', numSamps) = s.alignedBuffs cfg eov := by
  obtain ⟨⟨chans, result⟩, haligned, hout⟩ := Option.map_eq_some_iff.mp h
  obtain ⟨⟨chans₁, result₁⟩, hfirst, hsecond⟩ := Option.bind_eq_some_iff.mp haligned
  obtain ⟨rfl, rfl⟩ := getAlignedBuffs_of_alignedSet hset hfirst
  dsimp only at hsecond
  rw [if_neg (fun hc => by cases hc.1)] at hsecond
  obtain ⟨rfl, rfl⟩ := Prod.mk.inj (Option.some.inj hsecond)
  dsimp only at hout
  rw [if_neg (fun hc => by cases hc.1), if_neg (fun hc => by cases hc.1),
    if_neg (fun hc => hc rfl)] at hout
  exact hout.symm

theorem unaligned_of_error
    (h : s.getRecvBuffs cfg fuel eov = some (s', metadata, eov', numSamps))
    (herror : metadata.errorCode ≠ .none) : ¬ AlignedSet cfg.numChans s.chans := fun hset =>
  herror (congrArg (fun out => out.2.1.errorCode) (getRecvBuffs_of_alignedSet hset h))

/-! ## The state of a streamer -/

/-- The frames of every channel are accounted for, and what is left of packets belongs to packets
that are held. -/
structure StreamerInv (cfg : RxStreamerConfig δ β) (streams : ℕ → List (RxEvent δ))
    (s : RxStreamer δ) : Prop where
  tracks : ∀ c < cfg.numChans, (s.chans c).Tracks (streams c)
  atHand : s.buffSampsRemaining ≠ 0 → AlignedSet cfg.numChans s.chans ∧
    s.buffSampsRemaining ≤ cfg.sampleCount (s.chans 0).info
  fragment : s.lastFragmentMetadata.errorCode = .none

variable {streams : ℕ → List (RxEvent δ)}

theorem StreamerInv.of_evolved (h : StreamerInv cfg streams s)
    (hevolved : Evolved cfg.numChans s.chans s'.chans)
    (hatHand : s'.buffSampsRemaining ≠ 0 → AlignedSet cfg.numChans s'.chans ∧
      s'.buffSampsRemaining ≤ cfg.sampleCount (s'.chans 0).info)
    (hfragment : s'.lastFragmentMetadata.errorCode = .none) : StreamerInv cfg streams s' :=
  ⟨hevolved _ (fun c => streamRule_tracks (streams c)) h.tracks, hatHand, hfragment⟩

theorem streamerInv_start (cfg : RxStreamerConfig δ β) (streams : ℕ → List (RxEvent δ)) :
    StreamerInv cfg streams (Session.start streams : Session δ β).streamer where
  tracks c _ := tracks_start (streams c)
  atHand hne := absurd rfl hne
  fragment := rfl

/-! ## Converting -/

variable {vars vars' : RxVars β} {nsamps offset num : ℕ}

theorem convertSamples_spec
    (h : s.convertSamples cfg vars nsamps offset = (s', vars', num)) :
    num = min nsamps s.buffSampsRemaining ∧
      s'.buffSampsRemaining = s.buffSampsRemaining - num ∧
      (∀ c < cfg.numChans, s'.chans c =
        if s.buffSampsRemaining ≤ nsamps then (s.chans c).releaseRecvBuff else s.chans c) ∧
      s'.errorMetadataCache = s.errorMetadataCache ∧
      (s'.lastFragmentMetadata.errorCode = s.lastFragmentMetadata.errorCode ∨
        s'.lastFragmentMetadata.errorCode = vars.metadata.errorCode) ∧
      vars'.metadata.errorCode = vars.metadata.errorCode ∧
      vars'.metadata.endOfBurst = vars.metadata.endOfBurst ∧ vars'.eov = vars.eov ∧
      vars'.notes.fetches = vars.notes.fetches ∧
      vars'.notes.conversions = vars.notes.conversions ++
        [⟨offset, num, s.buffSampsRemaining - num, s.frames⟩] := by
  rw [convertSamples] at h
  obtain ⟨rfl, hrest⟩ := Prod.mk.inj h
  obtain ⟨rfl, rfl⟩ := Prod.mk.inj hrest
  refine ⟨rfl, rfl, fun c hc => ?_, rfl, ?_, rfl, rfl, rfl, rfl, rfl⟩
  · show (if c < cfg.numChans ∧ s.buffSampsRemaining = min nsamps s.buffSampsRemaining then
      (s.chans c).releaseRecvBuff else s.chans c) = _
    by_cases hle : s.buffSampsRemaining ≤ nsamps
    · rw [if_pos hle, if_pos ⟨hc, (Nat.min_eq_right hle).symm⟩]
    · rw [if_neg hle, if_neg fun hcond => by omega]
  · dsimp only
    split_ifs
    · exact Or.inr rfl
    · exact Or.inl rfl

theorem StreamerInv.convertSamples (h : StreamerInv cfg streams s) (hchans₀ : 0 < cfg.numChans)
    (herror : vars.metadata.errorCode = .none)
    (hconvert : s.convertSamples cfg vars nsamps offset = (s', vars', num)) :
    StreamerInv cfg streams s' := by
  obtain ⟨hnum, hremaining, hchans, -, hfragment, -⟩ := convertSamples_spec hconvert
  refine ⟨fun c hc => ?_, fun hne => ?_, ?_⟩
  · rw [hchans c hc]
    split_ifs
    · exact tracks_releaseRecvBuff (h.tracks c hc)
    · exact h.tracks c hc
  · have hkept : ¬ s.buffSampsRemaining ≤ nsamps := fun hle => by
      rw [hremaining, hnum, Nat.min_eq_right hle, Nat.sub_self] at hne
      exact hne rfl
    obtain ⟨hset, hle⟩ := h.atHand (by omega)
    have hsame : ∀ c < cfg.numChans, s'.chans c = s.chans c := fun c hc => by
      rw [hchans c hc, if_neg hkept]
    refine ⟨⟨fun c hc => by rw [hsame c hc]; exact hset.held c hc, ?_⟩, ?_⟩
    · obtain ⟨t, ht⟩ := hset.time
      exact ⟨t, fun c hc => by rw [hsame c hc]; exact ht c hc⟩
    · rw [hsame 0 hchans₀]
      omega
  · rcases hfragment with hold | hnew
    · rw [hold]
      exact h.fragment
    · rw [hnew]
      exact herror

/-! ## Passes of a call -/

/-- One of the packets at hand ends a vector. -/
def eovAtHand (cfg : RxStreamerConfig δ β) (s : RxStreamer δ) : Bool :=
  (List.range cfg.numChans).any fun c => (s.chans c).info.eov

/-- A packet of every channel was got. -/
structure Got (cfg : RxStreamerConfig δ β) (s : RxStreamer δ) (vars : RxVars β) (offset : ℕ)
    (s' : RxStreamer δ) (vars' : RxVars β) (numSamps : ℕ) : Prop where
  evolved : Evolved cfg.numChans s.chans s'.chans
  aligned : AlignedSet cfg.numChans s'.chans
  /-- Packets that were held are got again. -/
  again : AlignedSet cfg.numChans s.chans → s'.chans = s.chans
  count : numSamps = cfg.sampleCount (s'.chans 0).info
  cache : s'.errorMetadataCache = s.errorMetadataCache
  fragment : s'.lastFragmentMetadata = s.lastFragmentMetadata
  errorCode : vars'.metadata.errorCode = .none
  eov : vars'.eov = (if vars.eov.data && s'.eovAtHand cfg then
    vars.eov.pushBack (vars.eov.runningSampleCount + numSamps)
    else vars.eov).updateRunningSampleCount numSamps
  fetches : vars'.notes.fetches = vars.notes.fetches ++ [⟨offset, numSamps, s'.frames⟩]
  conversions : vars'.notes.conversions = vars.notes.conversions

/-- Getting packets has ended in an error. -/
structure Failed (cfg : RxStreamerConfig δ β) (s : RxStreamer δ) (vars : RxVars β)
    (s' : RxStreamer δ) (vars' : RxVars β) : Prop where
  evolved : Evolved cfg.numChans s.chans s'.chans
  /-- The packets of the channels were not there already. -/
  unaligned : ¬ AlignedSet cfg.numChans s.chans
  progress : total cfg.numChans load s'.chans < total cfg.numChans load s.chans ∨
    ∃ c < cfg.numChans, load (s'.chans c) = 0
  cache : s'.errorMetadataCache = s.errorMetadataCache
  fragment : s'.lastFragmentMetadata = s.lastFragmentMetadata
  eov : vars'.eov = vars.eov
  notes : vars'.notes = vars.notes

/-- **A pass of a call.** -/
inductive Pass (cfg : RxStreamerConfig δ β) (s : RxStreamer δ) (vars : RxVars β)
    (nsamps offset : ℕ) : RxStreamer δ → RxVars β → ℕ → Prop where
  /-- An error, which a call for no samples may not show. -/
  | error (s' : RxStreamer δ) (vars' : RxVars β) (hfailed : Failed cfg s vars s' vars')
      (hremaining : s'.buffSampsRemaining = s.buffSampsRemaining)
      (hshown : nsamps ≠ 0 → s.buffSampsRemaining = 0 ∧ vars'.metadata.errorCode ≠ .none) :
      Pass cfg s vars nsamps offset s' vars' 0
  /-- A call for no samples looks at the packets. -/
  | look (s' : RxStreamer δ) (vars' : RxVars β) (numSamps : ℕ) (hnsamps : nsamps = 0)
      (hgot : Got cfg s vars offset s' vars' numSamps)
      (hremaining : s'.buffSampsRemaining = s.buffSampsRemaining) :
      Pass cfg s vars nsamps offset s' vars' 0
  /-- The packets have no samples. -/
  | empty (s' : RxStreamer δ) (vars' : RxVars β) (hnsamps : nsamps ≠ 0)
      (hbefore : s.buffSampsRemaining = 0) (hgot : Got cfg s vars offset s' vars' 0)
      (hremaining : s'.buffSampsRemaining = 0) : Pass cfg s vars nsamps offset s' vars' 0
  /-- Samples of new packets are converted. -/
  | first (s₁ : RxStreamer δ) (vars₁ : RxVars β) (s' : RxStreamer δ) (vars' : RxVars β) (num : ℕ)
      (hnsamps : nsamps ≠ 0) (hbefore : s.buffSampsRemaining = 0)
      (hgot : Got cfg s vars offset s₁ vars₁ s₁.buffSampsRemaining)
      (hremaining : s₁.buffSampsRemaining ≠ 0)
      (hconvert : s₁.convertSamples cfg vars₁ nsamps offset = (s', vars', num)) :
      Pass cfg s vars nsamps offset s' vars' num
  /-- Samples that were left are converted. -/
  | rest (vars₁ : RxVars β) (s' : RxStreamer δ) (vars' : RxVars β) (num : ℕ)
      (hnsamps : nsamps ≠ 0) (hremaining : s.buffSampsRemaining ≠ 0) (heov : vars₁.eov = vars.eov)
      (hnotes : vars₁.notes = vars.notes)
      (herror : vars₁.metadata.errorCode = s.lastFragmentMetadata.errorCode)
      (hconvert : s.convertSamples cfg vars₁ nsamps offset = (s', vars', num)) :
      Pass cfg s vars nsamps offset s' vars' num

theorem got_of_alignedBuffs {chans' : ℕ → RxChannel δ}
    (hevolved : Evolved cfg.numChans s.chans chans') (hset : AlignedSet cfg.numChans chans')
    (hagain : AlignedSet cfg.numChans s.chans → chans' = s.chans)
    (hout : (s', metadata, eov', numSamps) = { s with chans := chans' }.alignedBuffs cfg vars.eov)
    (offset : ℕ) {s₁ : RxStreamer δ} (hchans : s₁.chans = s'.chans)
    (hcache : s₁.errorMetadataCache = s'.errorMetadataCache)
    (hfragment : s₁.lastFragmentMetadata = s'.lastFragmentMetadata)
    (hvars' : vars'.metadata.errorCode = metadata.errorCode ∧ vars'.eov = eov' ∧
      vars'.notes = s₁.noteFetch vars.notes metadata offset numSamps) :
    Got cfg s vars offset s₁ vars' numSamps := by
  rw [alignedBuffs, Prod.mk.injEq, Prod.mk.injEq, Prod.mk.injEq] at hout
  obtain ⟨rfl, rfl, rfl, rfl⟩ := hout
  obtain ⟨herror, heov, hnotes⟩ := hvars'
  have hchans : s₁.chans = chans' := hchans
  have hany : s₁.eovAtHand cfg = (List.range cfg.numChans).any fun c => (chans' c).info.eov := by
    rw [eovAtHand, hchans]
  refine ⟨hchans ▸ hevolved, hchans ▸ hset, fun h => hchans.trans (hagain h), by rw [hchans]; rfl,
    hcache, hfragment, herror, ?_, ?_, ?_⟩
  · rw [heov, hany]
  · rw [hnotes, noteFetch, if_pos rfl]
  · rw [hnotes, noteFetch, if_pos rfl]

theorem pass_of_recvOnePacket
    (h : s.recvOnePacket cfg fuel vars nsamps offset = some (s', vars', num)) :
    Pass cfg s vars nsamps offset s' vars' num := by
  rw [recvOnePacket] at h
  split_ifs at h with hn hrem
  · -- a call for no samples
    obtain ⟨⟨s₁, metadata, eov₁, n⟩, hget, hout⟩ := Option.map_eq_some_iff.mp h
    rw [Prod.mk.injEq, Prod.mk.injEq] at hout
    obtain ⟨rfl, rfl, rfl⟩ := hout
    obtain ⟨chans', hevolved, ⟨hset, hgot⟩ | ⟨herror, rfl, rfl, rfl, hremaining, hfragment, hcache,
      hprogress⟩⟩ := getRecvBuffs_cases hget
    · have hagain : AlignedSet cfg.numChans s.chans → chans' = s.chans := fun hbefore => by
        have heq := (getRecvBuffs_of_alignedSet hbefore hget).symm.trans hgot
        exact (congrArg (fun out => out.1.chans) heq).symm
      have hremaining : s₁.buffSampsRemaining = s.buffSampsRemaining :=
        congrArg (fun out => out.1.buffSampsRemaining) hgot
      have hnone : metadata.errorCode = .none := congrArg (fun out => out.2.1.errorCode) hgot
      refine Pass.look s₁ _ n hn (got_of_alignedBuffs hevolved hset hagain hgot offset rfl rfl rfl
        ⟨?_, rfl, rfl⟩) hremaining
      show (if _ then _ else _ : RxMetadata).errorCode = _
      rw [if_neg]
      rw [hnone]
      exact fun h => by cases h
    · refine Pass.error s₁ _ ⟨hevolved, unaligned_of_error hget herror, hprogress, hcache, hfragment, rfl, ?_⟩ hremaining
        fun hne => absurd hn hne
      exact if_neg herror
  · -- new packets
    obtain ⟨⟨s₁, metadata, eov₁, n⟩, hget, hout⟩ := Option.map_eq_some_iff.mp h
    dsimp only at hout
    obtain ⟨chans', hevolved, ⟨hset, hgot⟩ | ⟨herror, rfl, rfl, rfl, hremaining, hfragment, hcache,
      hprogress⟩⟩ := getRecvBuffs_cases hget
    · have hagain : AlignedSet cfg.numChans s.chans → chans' = s.chans := fun hbefore => by
        have heq := (getRecvBuffs_of_alignedSet hbefore hget).symm.trans hgot
        exact (congrArg (fun out => out.1.chans) heq).symm
      split_ifs at hout with hzero
      · rw [Prod.mk.injEq, Prod.mk.injEq] at hout
        obtain ⟨rfl, rfl, rfl⟩ := hout
        obtain rfl := hzero
        exact Pass.empty _ _ hn hrem (got_of_alignedBuffs hevolved hset hagain hgot offset rfl rfl
          rfl ⟨rfl, rfl, rfl⟩) rfl
      · exact Pass.first { s₁ with buffSampsRemaining := n, fragmentOffsetInSamps := 0 } _ s' vars'
          num hn hrem (got_of_alignedBuffs hevolved hset hagain hgot offset rfl rfl rfl
            ⟨rfl, rfl, rfl⟩) hzero hout
    · rw [if_pos rfl, Prod.mk.injEq, Prod.mk.injEq] at hout
      obtain ⟨rfl, rfl, rfl⟩ := hout
      exact Pass.error _ _ ⟨hevolved, unaligned_of_error hget herror, hprogress, hcache, hfragment, rfl, if_neg herror⟩ hrem.symm
        fun _ => ⟨hrem, herror⟩
  · -- the rest of the packets at hand
    have hconvert := Option.some.inj h
    dsimp only at hconvert
    refine Pass.rest _ s' vars' num hn hrem ?_ ?_ ?_ hconvert
    · rfl
    · rfl
    · rfl

theorem StreamerInv.got (h : StreamerInv cfg streams s) {s₁ : RxStreamer δ} {vars₁ : RxVars β}
    (hgot : Got cfg s vars offset s₁ vars₁ numSamps)
    (hremaining : s₁.buffSampsRemaining ≤ numSamps) : StreamerInv cfg streams s₁ :=
  h.of_evolved hgot.evolved (fun _ => ⟨hgot.aligned, by rw [← hgot.count]; exact hremaining⟩)
    (by rw [hgot.fragment]; exact h.fragment)

theorem StreamerInv.pass (h : StreamerInv cfg streams s) (hchans : 0 < cfg.numChans)
    (hpass : Pass cfg s vars nsamps offset s' vars' num) :
    StreamerInv cfg streams s' ∧ (num ≠ 0 → vars'.metadata.errorCode = .none) := by
  cases hpass with
  | error _ _ hfailed hremaining hshown =>
    refine ⟨h.of_evolved hfailed.evolved (fun hne => ?_)
      (by rw [hfailed.fragment]; exact h.fragment), fun hne => absurd rfl hne⟩
    exact absurd (h.atHand (hremaining ▸ hne)).1 hfailed.unaligned
  | look _ _ n hn hgot hremaining =>
    refine ⟨?_, fun hne => absurd rfl hne⟩
    by_cases hzero : s.buffSampsRemaining = 0
    · exact h.got hgot (by omega)
    · obtain ⟨hset, hle⟩ := h.atHand hzero
      refine h.got hgot ?_
      rw [hremaining, hgot.count, hgot.again hset]
      exact hle
  | empty _ _ hn hbefore hgot hremaining =>
    exact ⟨h.got hgot (by omega), fun hne => absurd rfl hne⟩
  | first s₁ vars₁ _ _ _ hn hbefore hgot hremaining hconvert =>
    refine ⟨(h.got hgot (Nat.le_refl _)).convertSamples hchans hgot.errorCode hconvert, fun _ => ?_⟩
    obtain ⟨-, -, -, -, -, herror, -⟩ := convertSamples_spec hconvert
    exact herror.trans hgot.errorCode
  | rest vars₁ _ _ _ hn hremaining heov hnotes herror hconvert =>
    refine ⟨h.convertSamples hchans (herror.trans h.fragment) hconvert, fun _ => ?_⟩
    obtain ⟨-, -, -, -, -, herror', -⟩ := convertSamples_spec hconvert
    exact herror'.trans (herror.trans h.fragment)

/-! ## Calls -/

/-- What every pass of a call preserves, of the streamer, the variables and the samples that were
returned. -/
structure CallRule (cfg : RxStreamerConfig δ β) (nsamps : ℕ)
    (I : RxStreamer δ → RxVars β → ℕ → Prop) : Prop where
  pass : ∀ s vars samps s' vars' num, I s vars samps → samps < nsamps →
    vars.eov.exhausted = false → Pass cfg s vars (nsamps - samps) samps s' vars' num →
      I s' vars' (samps + num) ∧ (num ≠ 0 → vars'.metadata.errorCode = .none)
  store : ∀ s vars samps metadata, I s vars samps → I (s.storeError metadata) vars samps

theorem recvLoop_rule {I : RxStreamer δ → RxVars β → ℕ → Prop} (hI : CallRule cfg nsamps I)
    {first : RxMetadata} {passes samps : ℕ} {r : RxRecvResult β} (h : I s vars samps)
    (hopen : vars.eov.exhausted = false)
    (hloop : recvLoop cfg nsamps fuel first passes s vars samps = some (s', r)) :
    ∃ vars', I s' vars' r.samps ∧ r.eovPositions = vars'.eov.positions ∧
      r.notes = vars'.notes := by
  induction passes generalizing s vars samps with
  | zero => cases hloop
  | succ passes ih =>
    rw [recvLoop] at hloop
    by_cases hfull : nsamps ≤ samps
    · rw [if_pos hfull] at hloop
      obtain ⟨rfl, rfl⟩ := Prod.mk.inj (Option.some.inj hloop)
      exact ⟨vars, h, rfl, rfl⟩
    rw [if_neg hfull] at hloop
    rcases hrecv : s.recvOnePacket cfg fuel vars (nsamps - samps) samps with - | ⟨s₁, vars₁, num⟩
    · rw [hrecv] at hloop
      cases hloop
    rw [hrecv] at hloop
    dsimp only at hloop
    obtain ⟨h₁, herror⟩ := hI.pass s vars samps s₁ vars₁ num h (Nat.lt_of_not_le hfull) hopen
      (pass_of_recvOnePacket hrecv)
    by_cases hbad : vars₁.metadata.errorCode ≠ .none
    · rw [if_pos hbad] at hloop
      obtain ⟨rfl, rfl⟩ := Prod.mk.inj (Option.some.inj hloop)
      have hzero : num = 0 := by
        by_contra hne
        exact hbad (herror hne)
      rw [hzero] at h₁
      exact ⟨vars₁, hI.store _ _ _ _ h₁, rfl, rfl⟩
    rw [if_neg hbad] at hloop
    split_ifs at hloop with heob hexhausted
    · obtain ⟨rfl, rfl⟩ := Prod.mk.inj (Option.some.inj hloop)
      exact ⟨vars₁, h₁, rfl, rfl⟩
    · obtain ⟨rfl, rfl⟩ := Prod.mk.inj (Option.some.inj hloop)
      exact ⟨vars₁, h₁, rfl, rfl⟩
    · exact ih h₁ (Bool.eq_false_iff.mpr hexhausted) hloop

theorem recv_rule {call : RxRecvCall} {I : RxStreamer δ → RxVars β → ℕ → Prop}
    (hI : CallRule cfg call.nsampsPerBuff I)
    (hfirst : ∀ s' vars' num,
      Pass cfg s { eov := EovData.ofSize call.eovPositions } call.nsampsPerBuff 0 s' vars' num →
        I s' vars' num)
    {r : RxRecvResult β} (hrecv : s.recv cfg fuel call = some (s', .ok r)) :
    (∃ metadata, s.errorMetadataCache = some metadata ∧
        s' = { s with errorMetadataCache := none } ∧ r = { samps := 0, metadata := metadata }) ∨
      ∃ vars', I s' vars' r.samps ∧ r.eovPositions = vars'.eov.positions ∧
        r.notes = vars'.notes := by
  rw [recv] at hrecv
  by_cases hconnected : cfg.allChansConnected = false
  · rw [if_pos hconnected] at hrecv
    cases (Prod.mk.inj (Option.some.inj hrecv)).2
  rw [if_neg hconnected] at hrecv
  rcases hcache : s.errorMetadataCache with - | metadata
  · simp only [hcache] at hrecv
    obtain ⟨⟨s₁, vars₁, num⟩, hone, hrest⟩ := Option.bind_eq_some_iff.mp hrecv
    have h₁ := hfirst s₁ vars₁ num (pass_of_recvOnePacket hone)
    refine Or.inr ?_
    dsimp only at hrest
    split_ifs at hrest with hdone
    · rw [Option.some_inj, Prod.mk.injEq, Except.ok.injEq] at hrest
      obtain ⟨rfl, rfl⟩ := hrest
      exact ⟨vars₁, h₁, rfl, rfl⟩
    · obtain ⟨⟨s₂, r₂⟩, hloop, hout⟩ := Option.map_eq_some_iff.mp hrest
      rw [Prod.mk.injEq, Except.ok.injEq] at hout
      obtain ⟨rfl, rfl⟩ := hout
      rw [Bool.not_eq_true, Bool.or_eq_false_iff, Bool.or_eq_false_iff] at hdone
      exact recvLoop_rule hI h₁ hdone.1.2 hloop
  · simp only [hcache] at hrecv
    rw [Option.some_inj, Prod.mk.injEq, Except.ok.injEq] at hrecv
    obtain ⟨rfl, rfl⟩ := hrecv
    exact Or.inl ⟨metadata, rfl, rfl, rfl⟩

/-! ## Sessions -/

/-- What happens to a streamer: a call, or it hears that the radios have stopped. -/
inductive StreamerAction where
  | recv (call : RxRecvCall)
  /-- `set_stopped_due_to_overrun` -/
  | stoppedDueToOverrun
  /-- `set_stopped_due_to_late_command` -/
  | stoppedDueToLateCmd
  deriving DecidableEq, Repr

/-- One action. -/
def Session.act (cfg : RxStreamerConfig δ β) (fuel : ℕ) (t : Session δ β) :
    StreamerAction → Option (Session δ β)
  | .recv call => t.step cfg fuel call
  | .stoppedDueToOverrun =>
    some { t with streamer := { t.streamer with stoppedDueToOverrun := true } }
  | .stoppedDueToLateCmd =>
    some { t with streamer := { t.streamer with stoppedDueToLateCmd := true } }

theorem step_eq_some {t t' : Session δ β} {call : RxRecvCall}
    (h : t.step cfg fuel call = some t') :
    ∃ s' r, t.streamer.recv cfg fuel call = some (s', .ok r) ∧
      t' = { streamer := s', results := t.results ++ [r] } := by
  rw [Session.step] at h
  rcases hrecv : t.streamer.recv cfg fuel call with - | ⟨s', e | r⟩
  · rw [hrecv] at h
    cases h
  · rw [hrecv] at h
    cases h
  · rw [hrecv] at h
    exact ⟨s', r, rfl, (Option.some.inj h).symm⟩

theorem StreamerInv.congr (h : StreamerInv cfg streams s) (hchans : s'.chans = s.chans)
    (hremaining : s'.buffSampsRemaining = s.buffSampsRemaining)
    (hfragment : s'.lastFragmentMetadata = s.lastFragmentMetadata) : StreamerInv cfg streams s' :=
  ⟨by rw [hchans]; exact h.tracks, by rw [hchans, hremaining]; exact h.atHand,
    by rw [hfragment]; exact h.fragment⟩

theorem storeError_same (s : RxStreamer δ) (metadata : RxMetadata) :
    (s.storeError metadata).chans = s.chans ∧
      (s.storeError metadata).buffSampsRemaining = s.buffSampsRemaining ∧
      (s.storeError metadata).lastFragmentMetadata = s.lastFragmentMetadata := by
  rw [storeError]
  split_ifs
  · exact ⟨rfl, rfl, rfl⟩
  · exact ⟨rfl, rfl, rfl⟩

theorem StreamerInv.storeError (h : StreamerInv cfg streams s) (metadata : RxMetadata) :
    StreamerInv cfg streams (s.storeError metadata) := by
  obtain ⟨hchans, hremaining, hfragment⟩ := storeError_same s metadata
  exact h.congr hchans hremaining hfragment

end RxStreamer
end Transport
end UhdHost
