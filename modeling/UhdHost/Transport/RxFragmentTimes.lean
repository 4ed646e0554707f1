import UhdHost.Transport.RxPayloadBounds

/-!
# The times of fragments

A call of `recv` returns the metadata of the first packet it converts from.  Where a packet was
read in part before, the metadata is that of the fragment before, and its time is advanced by the
samples between the two fragments: the difference of two offsets, divided by the sample rate.

`FragmentsTimed` is what carries this over fragments of any sizes: the metadata of the last
fragment has the time of the packet plus that of the samples before the fragment.  `Taken`
counts what was converted from each packet, so the offset of a fragment is the number of samples
of its packet that were returned before (`fragmentTimes_of_run`).
-/

namespace UhdHost
namespace Transport
namespace RxStreamer

open GetAlignedBuffs Transition

variable {δ β : Type}

/-- Metadata for samples of a packet, so many of whose samples were returned before, and of which
so many are returned in one piece. -/
structure FragmentMetadata (cfg : RxStreamerConfig δ β) (info : RxPacketInfo δ)
    (returned num : ℕ) (metadata : RxMetadata) : Prop where
  hasTimeSpec : metadata.hasTimeSpec = info.hasTsf
  timeSpec : metadata.timeSpec.realSecs =
    (TimeSpec.fromTicks info.tsf cfg.tickRate).realSecs + returned / cfg.sampRate
  fragmentOffset : metadata.fragmentOffset = returned
  moreFragments : metadata.moreFragments = true ↔ returned + num < cfg.sampleCount info

/-- **The last fragment.**  While samples of a packet are left, the offset and what is left make
up the packet, and the metadata of the last fragment has its time. -/
def FragmentsTimed (cfg : RxStreamerConfig δ β) (s : RxStreamer δ) : Prop :=
  s.buffSampsRemaining ≠ 0 →
    s.fragmentOffsetInSamps + s.buffSampsRemaining = cfg.sampleCount (s.chans 0).info ∧
      s.lastFragmentMetadata.fragmentOffset ≤ s.fragmentOffsetInSamps ∧
      s.lastFragmentMetadata.hasTimeSpec = (s.chans 0).info.hasTsf ∧
      s.lastFragmentMetadata.timeSpec.realSecs =
        (TimeSpec.fromTicks (s.chans 0).info.tsf cfg.tickRate).realSecs +
          s.lastFragmentMetadata.fragmentOffset / cfg.sampRate

variable {cfg : RxStreamerConfig δ β} {streams : ℕ → List (RxEvent δ)} {s s' : RxStreamer δ}
  {vars vars' : RxVars β} {nsamps offset num fuel : ℕ} {conversions : List RxConversion}

/-! ## One pass -/

theorem timed_convertSamples (hchans : 0 < cfg.numChans)
    (hcount : s.fragmentOffsetInSamps + s.buffSampsRemaining = cfg.sampleCount (s.chans 0).info)
    (hhas : vars.metadata.hasTimeSpec = (s.chans 0).info.hasTsf)
    (htime : vars.metadata.timeSpec.realSecs =
      (TimeSpec.fromTicks (s.chans 0).info.tsf cfg.tickRate).realSecs +
        s.fragmentOffsetInSamps / cfg.sampRate)
    (h : s.convertSamples cfg vars nsamps offset = (s', vars', num)) :
    FragmentsTimed cfg s' ∧
      FragmentMetadata cfg (s.chans 0).info s.fragmentOffsetInSamps num vars'.metadata := by
  obtain ⟨hnum, hleft, hsame, -⟩ := convertSamples_spec h
  have hmore : s.buffSampsRemaining - min nsamps s.buffSampsRemaining ≠ 0 ↔
      s.fragmentOffsetInSamps + min nsamps s.buffSampsRemaining <
        cfg.sampleCount (s.chans 0).info := by omega
  rw [convertSamples] at h
  obtain ⟨hstate, hrest⟩ := Prod.mk.inj h
  obtain ⟨rfl, rfl⟩ := Prod.mk.inj hrest
  refine ⟨fun hne => ?_, hhas, htime, rfl, ?_⟩
  · -- samples are left, so the packets are still held
    rw [hleft] at hne
    have hkept := hsame 0 hchans
    rw [if_neg (by omega)] at hkept
    have hoffset : s'.fragmentOffsetInSamps =
        s.fragmentOffsetInSamps + min nsamps s.buffSampsRemaining := by
      rw [← hstate]
      exact if_pos hne
    have hlast : s'.lastFragmentMetadata = { vars.metadata with
        moreFragments := s.buffSampsRemaining - min nsamps s.buffSampsRemaining != 0
        fragmentOffset := s.fragmentOffsetInSamps } := by
      rw [← hstate]
      exact if_pos hne
    rw [hkept, hoffset, hleft, hlast]
    exact ⟨by omega, Nat.le_add_right .., hhas, htime⟩
  · show (s.buffSampsRemaining - min nsamps s.buffSampsRemaining != 0) = true ↔ _
    rw [bne_iff_ne]
    exact hmore

theorem alignedBuffs_metadata {chans' : ℕ → RxChannel δ} {eov eov' : EovData}
    {metadata : RxMetadata}
    (h : (s', metadata, eov', num) = { s with chans := chans' }.alignedBuffs cfg eov) :
    s'.chans = chans' ∧ num = cfg.sampleCount (chans' 0).info ∧
      metadata.hasTimeSpec = (chans' 0).info.hasTsf ∧
      metadata.timeSpec = TimeSpec.fromTicks (chans' 0).info.tsf cfg.tickRate ∧
      s'.buffSampsRemaining = s.buffSampsRemaining ∧
      s'.fragmentOffsetInSamps = s.fragmentOffsetInSamps ∧
      s'.lastFragmentMetadata = s.lastFragmentMetadata := by
  rw [alignedBuffs, Prod.mk.injEq, Prod.mk.injEq, Prod.mk.injEq] at h
  obtain ⟨rfl, rfl, -, rfl⟩ := h
  exact ⟨rfl, rfl, rfl, rfl, rfl, rfl, rfl⟩

theorem FragmentsTimed.getRecvBuffs (h : FragmentsTimed cfg s) (hinv : StreamerInv cfg streams s)
    {eov eov' : EovData} {metadata : RxMetadata}
    (hget : s.getRecvBuffs cfg fuel eov = some (s', metadata, eov', num)) :
    FragmentsTimed cfg s' := by
  intro hne
  by_cases hremaining : s.buffSampsRemaining = 0
  · obtain ⟨chans', -, ⟨-, hout⟩ | ⟨-, -, -, -, hsame, -⟩⟩ := getRecvBuffs_cases hget
    · obtain ⟨-, -, -, -, hsame, -⟩ := alignedBuffs_metadata hout
      exact absurd (hsame.trans hremaining) hne
    · exact absurd (hsame.trans hremaining) hne
  · have hout := getRecvBuffs_of_alignedSet (hinv.atHand hremaining).1 hget
    obtain ⟨hchans, -, -, -, hleft, hoffset, hlast⟩ := alignedBuffs_metadata (s := s) hout
    rw [hchans, hleft, hoffset, hlast]
    exact h hremaining

/-- **The fragment that samples come from.**  The metadata is right for the packet of the first
channel, and so are its offset and its time for the packets that come with it. -/
structure FirstFragment (cfg : RxStreamerConfig δ β) (streams : ℕ → List (RxEvent δ))
    (before : List RxConversion) (k : RxConversion) (metadata : RxMetadata) : Prop where
  first : ∃ frame info, k.frames 0 = some frame ∧ (packetsOf (streams 0))[frame]? = some info ∧
    FragmentMetadata cfg info (converted before 0 (some frame)) k.numSamps metadata
  every : ∀ c < cfg.numChans, ∃ frame info, k.frames c = some frame ∧
    (packetsOf (streams c))[frame]? = some info ∧
    metadata.fragmentOffset = converted before c (some frame) ∧
    (metadata.hasTimeSpec = true → info.hasTsf = true → metadata.timeSpec.realSecs =
      (TimeSpec.fromTicks info.tsf cfg.tickRate).realSecs +
        converted before c (some frame) / cfg.sampRate)

theorem Taken.firstFragment (h : Taken cfg streams conversions s) (hchans : 0 < cfg.numChans)
    (hremaining : s.buffSampsRemaining ≠ 0)
    (hcount : s.fragmentOffsetInSamps + s.buffSampsRemaining = cfg.sampleCount (s.chans 0).info)
    {metadata : RxMetadata} {k : RxConversion} (hframes : k.frames = s.frames)
    (hmetadata : FragmentMetadata cfg (s.chans 0).info s.fragmentOffsetInSamps k.numSamps
      metadata) :
    FirstFragment cfg streams conversions k metadata := by
  obtain ⟨hset, -⟩ := h.inv.atHand hremaining
  have hchannel : ∀ c < cfg.numChans, ∃ frame, s.frames c = some frame ∧
      (packetsOf (streams c))[frame]? = some (s.chans c).info ∧
      converted conversions c (some frame) = s.fragmentOffsetInSamps := by
    intro c hc
    obtain ⟨frame, hframe⟩ := Option.isSome_iff_exists.mp (hset.held c hc)
    have hsame : s.frames c = some frame := hframe
    have hconverted := h.atHand hremaining c hc
    rw [h.inv.frameCount_frames hchans (hset.held 0 hchans), hsame] at hconverted
    exact ⟨frame, hsame, (h.inv.tracks c hc).held frame hframe, by omega⟩
  rw [← hframes] at hchannel
  refine ⟨?_, fun c hc => ?_⟩
  · obtain ⟨frame, hframe, hinfo, hoffset⟩ := hchannel 0 hchans
    rw [← hoffset] at hmetadata
    exact ⟨frame, (s.chans 0).info, hframe, hinfo, hmetadata⟩
  · obtain ⟨frame, hframe, hinfo, hoffset⟩ := hchannel c hc
    refine ⟨frame, (s.chans c).info, hframe, hinfo, ?_, fun hhas₀ hhas => ?_⟩
    · rw [hoffset, hmetadata.fragmentOffset]
    · -- packets that come together have one time
      obtain ⟨t, ht⟩ := hset.time
      rw [hmetadata.hasTimeSpec] at hhas₀
      rw [hmetadata.timeSpec, hoffset, (ht 0 hchans hhas₀).1, (ht c hc hhas).1]

theorem FragmentsTimed.recvOnePacket (h : FragmentsTimed cfg s) {before : List RxConversion}
    (htaken : Taken cfg streams (before ++ vars.notes.conversions) s) (hchans : 0 < cfg.numChans)
    (hpass : s.recvOnePacket cfg fuel vars nsamps offset = some (s', vars', num)) :
    FragmentsTimed cfg s' ∧ (num ≠ 0 → ∃ k,
      vars'.notes.conversions = vars.notes.conversions ++ [k] ∧ k.offset = offset ∧
        FirstFragment cfg streams (before ++ vars.notes.conversions) k vars'.metadata) := by
  rw [RxStreamer.recvOnePacket] at hpass
  split_ifs at hpass with hn hbefore
  · obtain ⟨⟨s₁, metadata, eov₁, n⟩, hget, hout⟩ := Option.map_eq_some_iff.mp hpass
    rw [Prod.mk.injEq, Prod.mk.injEq] at hout
    obtain ⟨rfl, -, rfl⟩ := hout
    exact ⟨h.getRecvBuffs htaken.inv hget, fun hne => absurd rfl hne⟩
  · -- new packets
    obtain ⟨⟨s₁, metadata, eov₁, n⟩, hget, hout⟩ := Option.map_eq_some_iff.mp hpass
    dsimp only at hout
    split_ifs at hout with hzero
    · rw [Prod.mk.injEq, Prod.mk.injEq] at hout
      obtain ⟨rfl, -, rfl⟩ := hout
      exact ⟨fun hne => absurd hzero hne, fun hne => absurd rfl hne⟩
    · obtain ⟨chans', hevolved, ⟨hset, haligned⟩ | ⟨-, -, hnone, -⟩⟩ := getRecvBuffs_cases hget
      · obtain ⟨hsame, hcount, hhas, htime, -, -, hlast⟩ := alignedBuffs_metadata haligned
        have herror : metadata.errorCode = .none :=
          congrArg (fun out => out.2.1.errorCode) haligned
        rw [← hsame] at hcount hhas htime hevolved
        have hready : Taken cfg streams (before ++ vars.notes.conversions)
            { s₁ with buffSampsRemaining := n, fragmentOffsetInSamps := 0 } :=
          htaken.evolve hchans hbefore hevolved
            (htaken.inv.of_evolved hevolved
              (fun _ => ⟨by rw [hsame]; exact hset, by rw [hcount]⟩)
              (by rw [hlast]; exact htaken.inv.fragment)) fun _ => hcount
        have hconvert := timed_convertSamples (s := { s₁ with
          buffSampsRemaining := n, fragmentOffsetInSamps := 0 }) hchans
          (by rw [Nat.zero_add]; exact hcount) hhas
          (by rw [Nat.cast_zero, zero_div, add_zero, htime]) hout
        obtain ⟨-, -, -, -, -, -, -, -, -, hnotes⟩ := convertSamples_spec hout
        have hnoted : (s₁.noteFetch vars.notes metadata offset n).conversions =
            vars.notes.conversions := by
          rw [noteFetch, if_pos herror]
        refine ⟨hconvert.1, fun _ => ⟨⟨offset, num, n - num, s₁.frames⟩, ?_, rfl,
          hready.firstFragment hchans hzero (by rw [Nat.zero_add]; exact hcount) rfl hconvert.2⟩⟩
        rw [← hnoted]
        exact hnotes
      · exact absurd hnone hzero
  · -- the rest of the packets at hand
    obtain ⟨hcount, hle, hhas, htime⟩ := h hbefore
    have hout := Option.some.inj hpass
    have hconvert := timed_convertSamples hchans hcount ?_ ?_ hout
    · obtain ⟨-, -, -, -, -, -, -, -, -, hnotes⟩ := convertSamples_spec hout
      exact ⟨hconvert.1, fun _ => ⟨⟨offset, num, s.buffSampsRemaining - num, s.frames⟩, hnotes, rfl,
        htaken.firstFragment hchans hbefore hcount rfl hconvert.2⟩⟩
    · exact hhas
    · show (s.lastFragmentMetadata.timeSpec + TimeSpec.fromTicks _ cfg.sampRate).realSecs = _
      rw [TimeSpec.realSecs_add, TimeSpec.realSecs_fromTicks, htime]
      push_cast [Nat.cast_sub hle]
      ring

/-! ## Calls -/

theorem FragmentsTimed.storeError (h : FragmentsTimed cfg s) (metadata : RxMetadata) :
    FragmentsTimed cfg (s.storeError metadata) := by
  rw [RxStreamer.storeError]
  split_ifs
  · exact h
  · exact h

theorem Pass.conversions_grow (hpass : Pass cfg s vars nsamps offset s' vars' num) :
    vars.notes.conversions <+: vars'.notes.conversions := by
  cases hpass with
  | error _ _ hfailed => rw [hfailed.notes]
  | look _ _ _ _ hgot => rw [hgot.conversions]
  | empty _ _ _ _ hgot => rw [hgot.conversions]
  | first s₁ vars₁ _ _ _ _ _ hgot _ hconvert =>
    obtain ⟨-, -, -, -, -, -, -, -, -, hnotes⟩ := convertSamples_spec hconvert
    rw [hnotes, hgot.conversions]
    exact List.prefix_append ..
  | rest vars₁ _ _ _ _ _ _ hsame _ hconvert =>
    obtain ⟨-, -, -, -, -, -, -, -, -, hnotes⟩ := convertSamples_spec hconvert
    rw [hnotes, hsame]
    exact List.prefix_append ..

theorem Pass.sum_conversions (hpass : Pass cfg s vars nsamps offset s' vars' num) :
    (vars'.notes.conversions.map RxConversion.numSamps).sum =
      (vars.notes.conversions.map RxConversion.numSamps).sum + num := by
  cases hpass with
  | error _ _ hfailed => rw [hfailed.notes, Nat.add_zero]
  | look _ _ _ _ hgot => rw [hgot.conversions, Nat.add_zero]
  | empty _ _ _ _ hgot => rw [hgot.conversions, Nat.add_zero]
  | first s₁ vars₁ _ _ _ _ _ hgot _ hconvert =>
    obtain ⟨-, -, -, -, -, -, -, -, -, hnotes⟩ := convertSamples_spec hconvert
    rw [hnotes, hgot.conversions, List.map_append, List.sum_append, List.map_singleton,
      List.sum_singleton]
  | rest vars₁ _ _ _ _ _ _ hsame _ hconvert =>
    obtain ⟨-, -, -, -, -, -, -, -, -, hnotes⟩ := convertSamples_spec hconvert
    rw [hnotes, hsame, List.map_append, List.sum_append, List.map_singleton, List.sum_singleton]

theorem sum_conversions_of_recv {call : RxRecvCall} {r : RxRecvResult β}
    (hinv : StreamerInv cfg streams s) (hchans : 0 < cfg.numChans)
    (hrecv : s.recv cfg fuel call = some (s', .ok r)) :
    r.samps = (r.notes.conversions.map RxConversion.numSamps).sum := by
  have hrule : CallRule cfg call.nsampsPerBuff fun s (vars : RxVars β) samps =>
      StreamerInv cfg streams s ∧
        samps = (vars.notes.conversions.map RxConversion.numSamps).sum := by
    refine ⟨fun s vars samps s' vars' num h _ _ hpass => ?_, fun s vars samps metadata h => ?_⟩
    · obtain ⟨hinv', herror⟩ := h.1.pass hchans hpass
      refine ⟨⟨hinv', ?_⟩, herror⟩
      rw [hpass.sum_conversions, h.2]
    · exact ⟨h.1.storeError metadata, h.2⟩
  rcases recv_rule hrule (fun s' vars' num hpass => ⟨(hinv.pass hchans hpass).1, by
    rw [hpass.sum_conversions]
    exact (Nat.zero_add num).symm⟩) hrecv with ⟨metadata, -, -, rfl⟩ | ⟨vars', h', -, hnotes⟩
  · rfl
  · rw [hnotes]
    exact h'.2

theorem samps_of_emptyPackets {first : RxMetadata} {passes : ℕ} {r : RxRecvResult β}
    (hset : AlignedSet cfg.numChans s.chans) (hempty : cfg.sampleCount (s.chans 0).info = 0)
    (hremaining : s.buffSampsRemaining = 0) (hopen : vars.eov.exhausted = false)
    (hloop : recvLoop cfg nsamps fuel first passes s vars 0 = some (s', r)) : r.samps = 0 := by
  have hrule : CallRule cfg nsamps fun s (_ : RxVars β) samps =>
      samps = 0 ∧ AlignedSet cfg.numChans s.chans ∧ cfg.sampleCount (s.chans 0).info = 0 ∧
        s.buffSampsRemaining = 0 := by
    refine ⟨fun s vars samps s' vars' num h hlt _ hpass => ?_, fun s vars samps metadata h => ?_⟩
    · obtain ⟨rfl, hset, hempty, hremaining⟩ := h
      cases hpass with
      | error _ _ hfailed => exact absurd hset hfailed.unaligned
      | look _ _ _ hn => exact absurd hn (by omega)
      | empty _ _ _ _ hgot hremaining' =>
        rw [hgot.again hset]
        exact ⟨⟨rfl, hset, hempty, hremaining'⟩, fun hne => absurd rfl hne⟩
      | first s₁ _ _ _ _ _ _ hgot hne =>
        rw [hgot.count, hgot.again hset] at hne
        exact absurd hempty hne
      | rest _ _ _ _ _ hne => exact absurd hremaining hne
    · obtain ⟨hchans, hsame, -⟩ := storeError_same s metadata
      rw [hchans, hsame]
      exact h
  obtain ⟨-, hsamps, -, -⟩ := recvLoop_rule hrule ⟨rfl, hset, hempty, hremaining⟩ hopen hloop
  exact hsamps.1

theorem samps_of_firstPass {first : RxMetadata} {passes : ℕ} {r : RxRecvResult β}
    (hpass : Pass cfg s vars nsamps 0 s' vars' 0) (herror : vars'.metadata.errorCode = .none)
    (hopen : vars'.eov.exhausted = false) {s'' : RxStreamer δ}
    (hloop : recvLoop cfg nsamps fuel first passes s' vars' 0 = some (s'', r)) : r.samps = 0 := by
  by_cases hn : nsamps = 0
  · cases passes with
    | zero => cases hloop
    | succ passes =>
      rw [recvLoop, if_pos (Nat.le_of_eq hn)] at hloop
      obtain ⟨-, rfl⟩ := Prod.mk.inj (Option.some.inj hloop)
      rfl
  cases hpass with
  | error _ _ _ _ hshown => exact absurd herror (hshown hn).2
  | look _ _ _ hzero => exact absurd hzero hn
  | empty _ _ _ _ hgot hremaining =>
    exact samps_of_emptyPackets hgot.aligned hgot.count.symm hremaining hopen hloop
  | first s₁ _ _ _ _ _ _ _ hremaining hconvert =>
    have hnum := (convertSamples_spec hconvert).1
    omega
  | rest _ _ _ _ _ hremaining _ _ _ hconvert =>
    have hnum := (convertSamples_spec hconvert).1
    omega

theorem FragmentsTimed.recvLoop (h : FragmentsTimed cfg s) {before : List RxConversion}
    (htaken : Taken cfg streams (before ++ vars.notes.conversions) s) (hchans : 0 < cfg.numChans)
    {first : RxMetadata} {passes samps : ℕ} {r : RxRecvResult β}
    (hloop : RxStreamer.recvLoop cfg nsamps fuel first passes s vars samps = some (s', r)) :
    FragmentsTimed cfg s' ∧ vars.notes.conversions <+: r.notes.conversions ∧
      (r.metadata = first ∨ r.metadata = { first with endOfBurst := true }) := by
  induction passes generalizing s vars samps with
  | zero => cases hloop
  | succ passes ih =>
    rw [RxStreamer.recvLoop] at hloop
    by_cases hfull : nsamps ≤ samps
    · rw [if_pos hfull] at hloop
      obtain ⟨rfl, rfl⟩ := Prod.mk.inj (Option.some.inj hloop)
      exact ⟨h, List.prefix_refl _, Or.inl rfl⟩
    rw [if_neg hfull] at hloop
    rcases hrecv : s.recvOnePacket cfg fuel vars (nsamps - samps) samps with - | ⟨s₁, vars₁, num⟩
    · rw [hrecv] at hloop
      cases hloop
    rw [hrecv] at hloop
    dsimp only at hloop
    obtain ⟨h₁, -⟩ := h.recvOnePacket htaken hchans hrecv
    have hpass := pass_of_recvOnePacket hrecv
    have hgrown := hpass.conversions_grow
    split_ifs at hloop with hbad heob hexhausted
    · obtain ⟨rfl, rfl⟩ := Prod.mk.inj (Option.some.inj hloop)
      exact ⟨h₁.storeError _, hgrown, Or.inl rfl⟩
    · obtain ⟨rfl, rfl⟩ := Prod.mk.inj (Option.some.inj hloop)
      exact ⟨h₁, hgrown, Or.inr rfl⟩
    · obtain ⟨rfl, rfl⟩ := Prod.mk.inj (Option.some.inj hloop)
      exact ⟨h₁, hgrown, Or.inl rfl⟩
    · obtain ⟨h', hmore, hmetadata⟩ := ih h₁ (htaken.pass hchans hpass) hloop
      exact ⟨h', hgrown.trans hmore, hmetadata⟩

/-- A call returns the time of the fragment that its first sample comes from. -/
def FirstSampleTimed (cfg : RxStreamerConfig δ β) (streams : ℕ → List (RxEvent δ))
    (before : List RxConversion) (r : RxRecvResult β) : Prop :=
  r.samps ≠ 0 → ∃ k rest, r.notes.conversions = k :: rest ∧ k.offset = 0 ∧
    FirstFragment cfg streams before k r.metadata

theorem firstSampleTimed_of_pass {before : List RxConversion} {r : RxRecvResult β}
    {metadata : RxMetadata}
    (hfirst : ∃ k, vars.notes.conversions = [k] ∧ k.offset = 0 ∧
      FirstFragment cfg streams before k metadata)
    (hgrown : vars.notes.conversions <+: r.notes.conversions)
    (hmetadata : r.metadata = metadata ∨ r.metadata = { metadata with endOfBurst := true }) :
    FirstSampleTimed cfg streams before r := by
  obtain ⟨k, hnotes, hoffset, hk⟩ := hfirst
  obtain ⟨rest, hrest⟩ := hgrown
  rw [hnotes] at hrest
  refine fun _ => ⟨k, rest, hrest.symm, hoffset, ?_⟩
  rcases hmetadata with hsame | hsame
  · rw [hsame]
    exact hk
  · rw [hsame]
    obtain ⟨⟨frame, info, hframe, hinfo, hmetadata⟩, hevery⟩ := hk
    exact ⟨⟨frame, info, hframe, hinfo, hmetadata.hasTimeSpec, hmetadata.timeSpec,
      hmetadata.fragmentOffset, hmetadata.moreFragments⟩, hevery⟩

theorem FragmentsTimed.recv (h : FragmentsTimed cfg s) {before : List RxConversion}
    (htaken : Taken cfg streams before s) (hchans : 0 < cfg.numChans) {call : RxRecvCall}
    {r : RxRecvResult β} (hrecv : s.recv cfg fuel call = some (s', .ok r)) :
    FragmentsTimed cfg s' ∧ FirstSampleTimed cfg streams before r := by
  rw [RxStreamer.recv] at hrecv
  by_cases hconnected : cfg.allChansConnected = false
  · rw [if_pos hconnected] at hrecv
    cases (Prod.mk.inj (Option.some.inj hrecv)).2
  rw [if_neg hconnected] at hrecv
  rcases hcache : s.errorMetadataCache with - | metadata
  · simp only [hcache] at hrecv
    obtain ⟨⟨s₁, vars₁, num⟩, hone, hrest⟩ := Option.bind_eq_some_iff.mp hrecv
    have htaken₀ : Taken cfg streams
        (before ++ ({ eov := EovData.ofSize call.eovPositions } : RxVars β).notes.conversions)
        s := by
      rw [List.append_nil]
      exact htaken
    obtain ⟨h₁, hfirst⟩ := h.recvOnePacket htaken₀ hchans hone
    rw [List.append_nil] at hfirst
    have hpass := pass_of_recvOnePacket hone
    dsimp only at hrest
    split_ifs at hrest with hdone
    · rw [Option.some_inj, Prod.mk.injEq, Except.ok.injEq] at hrest
      obtain ⟨rfl, rfl⟩ := hrest
      exact ⟨h₁, fun hne => firstSampleTimed_of_pass (hfirst hne) (List.prefix_refl _)
        (Or.inl rfl) hne⟩
    · obtain ⟨⟨s₂, r₂⟩, hloop, hout⟩ := Option.map_eq_some_iff.mp hrest
      rw [Prod.mk.injEq, Except.ok.injEq] at hout
      obtain ⟨rfl, rfl⟩ := hout
      rw [Bool.not_eq_true, Bool.or_eq_false_iff, Bool.or_eq_false_iff] at hdone
      obtain ⟨h₂, hgrown, hmetadata⟩ := h₁.recvLoop (htaken₀.pass hchans hpass) hchans hloop
      refine ⟨h₂, fun hne => ?_⟩
      by_cases hnum : num = 0
      · -- the first packets had no samples, or none were asked for
        subst hnum
        exact absurd (samps_of_firstPass hpass (by simpa using hdone.2) hdone.1.2 hloop) hne
      · exact firstSampleTimed_of_pass (hfirst hnum) hgrown hmetadata hne
  · simp only [hcache] at hrecv
    rw [Option.some_inj, Prod.mk.injEq, Except.ok.injEq] at hrecv
    obtain ⟨rfl, rfl⟩ := hrecv
    exact ⟨h, fun hne => absurd rfl hne⟩

/-! ## Runs -/

/-- **The times that calls return.**  Whatever a call returns was converted, and its metadata is
that of the fragment which its first sample comes from, after what the calls before have
converted. -/
structure Session.FragmentTimes (cfg : RxStreamerConfig δ β) (streams : ℕ → List (RxEvent δ))
    (t : Session δ β) : Prop where
  samps : ∀ r ∈ t.results, r.samps = (r.notes.conversions.map RxConversion.numSamps).sum
  times : ∀ i r, t.results[i]? = some r →
    FirstSampleTimed cfg streams ((t.results.take i).flatMap fun r => r.notes.conversions) r

theorem Session.FragmentTimes.concat {t : Session δ β} (h : t.FragmentTimes cfg streams)
    {r : RxRecvResult β} (hsamps : r.samps = (r.notes.conversions.map RxConversion.numSamps).sum)
    (htimed : FirstSampleTimed cfg streams t.conversions r) :
    ({ streamer := s, results := t.results ++ [r] } : Session δ β).FragmentTimes cfg streams := by
  refine ⟨fun r' hr' => ?_, fun i r' hi => ?_⟩
  · rcases List.mem_append.mp hr' with hold | hnew
    · exact h.samps r' hold
    · rw [List.mem_singleton.mp hnew]
      exact hsamps
  · rcases Nat.lt_or_ge i t.results.length with hlt | hge
    · rw [List.getElem?_append_left hlt] at hi
      rw [List.take_append_of_le_length hlt.le]
      exact h.times i r' hi
    · have hlast : i = t.results.length := by
        have hbound := (List.getElem?_eq_some_iff.mp hi).1
        rw [List.length_append, List.length_singleton] at hbound
        omega
      subst hlast
      rw [List.getElem?_concat_length, Option.some_inj] at hi
      rw [← hi, List.take_left]
      exact htimed

/-- **In every run** of calls that read packets in fragments of any sizes, the metadata of a call
is that of the fragment which its first sample comes from. -/
theorem fragmentTimes_of_run (hchans : 0 < cfg.numChans) {actions : List StreamerAction}
    {t : Session δ β}
    (hrun : run (Session.act cfg fuel) (Session.start streams) actions = some t) :
    t.FragmentTimes cfg streams := by
  have hstart : (Session.start streams : Session δ β).FragmentTimes cfg streams :=
    ⟨fun r hr => absurd hr List.not_mem_nil, fun i r hi => by cases hi⟩
  have htimed : FragmentsTimed cfg (Session.start streams : Session δ β).streamer :=
    fun hne => absurd rfl hne
  refine (run_invariant (I := fun t : Session δ β => Taken cfg streams t.conversions t.streamer ∧
    FragmentsTimed cfg t.streamer ∧ t.FragmentTimes cfg streams) (fun t a t' h hact => ?_)
    (s := (Session.start streams : Session δ β)) ⟨taken_start cfg streams, htimed, hstart⟩ hrun).2.2
  obtain ⟨htaken, htimed, htimes⟩ := h
  cases a with
  | recv call =>
    obtain ⟨s', r, hrecv, rfl⟩ := step_eq_some hact
    have htaken' := htaken.recv hchans hrecv
    obtain ⟨htimed', hfirst⟩ := htimed.recv htaken hchans hrecv
    refine ⟨?_, htimed', htimes.concat (sum_conversions_of_recv htaken.inv hchans hrecv) hfirst⟩
    rw [Session.conversions, List.flatMap_append, List.flatMap_singleton]
    exact htaken'
  | stoppedDueToOverrun =>
    obtain rfl := Option.some.inj hact
    exact ⟨htaken.congr rfl rfl rfl, htimed, htimes.samps, htimes.times⟩
  | stoppedDueToLateCmd =>
    obtain rfl := Option.some.inj hact
    exact ⟨htaken.congr rfl rfl rfl, htimed, htimes.samps, htimes.times⟩

/-- Calls for pieces of a packet, and one that goes on to the next packet. -/
def fragments : List StreamerAction :=
  [.recv { nsampsPerBuff := 1 }, .recv { nsampsPerBuff := 2 }, .recv { nsampsPerBuff := 2 },
    .recv { nsampsPerBuff := 2 }]

theorem fragmentTimes_of_fragments : ∃ t : Session ℕ ℕ,
    run (Session.act twoChannels 10) (Session.start twoPackets) fragments = some t ∧
      t.FragmentTimes twoChannels twoPackets := by
  obtain ⟨t, hrun⟩ := Option.isSome_iff_exists.mp
    (by decide +kernel : (run (Session.act twoChannels 10) (Session.start twoPackets)
      fragments : Option (Session ℕ ℕ)).isSome = true)
  exact ⟨t, hrun, fragmentTimes_of_run (by decide) hrun⟩

example : (run (Session.act twoChannels 10) (Session.start twoPackets) fragments).map
    (fun t : Session ℕ ℕ => t.results.map fun r =>
      (r.samps, r.metadata.timeSpec.realSecs, r.metadata.fragmentOffset)) =
    some [(1, 0, 0), (2, 1, 1), (2, 3, 3), (1, 5, 1)] := by decide +kernel

end RxStreamer
end Transport
end UhdHost
