import UhdHost.Transport.RxStreamerRuns

/-!
# Samples taken from a packet

The number of samples in the packet of the first channel is what is converted from the packets of
all channels.  Over any run of calls (`Taken`): from every packet that was used up, as many
samples were converted as the packet of the first channel holds that came with it; from a packet
at hand, that number without what is left.

So every channel stays within the payload of its own packets, whatever the calls, exactly if
packets that come together never hold fewer samples than that of the first channel
(`withinPayload_iff`).
-/

namespace UhdHost
namespace Transport
namespace RxStreamer

open GetAlignedBuffs Transition

variable {δ β : Type}

/-- The number of samples that were converted from a frame of a channel. -/
def converted (conversions : List RxConversion) (c : ℕ) (frame : Option ℕ) : ℕ :=
  ((conversions.filter fun k => k.frames c = frame).map RxConversion.numSamps).sum

/-- The number of whole samples in a frame of a channel. -/
def frameCount (cfg : RxStreamerConfig δ β) (streams : ℕ → List (RxEvent δ)) (c : ℕ)
    (frame : Option ℕ) : ℕ :=
  (frame.bind fun f => (packetsOf (streams c))[f]?).elim 0 cfg.sampleCount

/-- What calls have converted. -/
def Session.conversions (t : Session δ β) : List RxConversion :=
  t.results.flatMap fun r => r.notes.conversions

/-- From every frame of a channel at most the samples that it holds were converted. -/
def Session.WithinPayload (cfg : RxStreamerConfig δ β) (streams : ℕ → List (RxEvent δ))
    (t : Session δ β) : Prop :=
  ∀ c < cfg.numChans, ∀ frame, converted t.conversions c (some frame) ≤
    frameCount cfg streams c (some frame)

/-- The packets that samples were converted from hold no fewer samples than that of the first
channel. -/
def Session.FirstIsShortest (cfg : RxStreamerConfig δ β) (streams : ℕ → List (RxEvent δ))
    (t : Session δ β) : Prop :=
  ∀ k ∈ t.conversions, ∀ c < cfg.numChans,
    frameCount cfg streams 0 (k.frames 0) ≤ frameCount cfg streams c (k.frames c)

/-- What was taken from packets. -/
structure Taken (cfg : RxStreamerConfig δ β) (streams : ℕ → List (RxEvent δ))
    (conversions : List RxConversion) (s : RxStreamer δ) : Prop where
  inv : StreamerInv cfg streams s
  /-- Packets that were converted from are used up or at hand. -/
  past : ∀ k ∈ conversions,
    (∀ c < cfg.numChans, ∃ frame, k.frames c = some frame ∧
      frame < (s.chans c).released.length ∧
      converted conversions c (some frame) = frameCount cfg streams 0 (k.frames 0)) ∨
    s.buffSampsRemaining ≠ 0 ∧ ∀ c < cfg.numChans, k.frames c = s.frames c
  atHand : s.buffSampsRemaining ≠ 0 → ∀ c < cfg.numChans,
    converted conversions c (s.frames c) + s.buffSampsRemaining =
      frameCount cfg streams 0 (s.frames 0)

variable {cfg : RxStreamerConfig δ β} {streams : ℕ → List (RxEvent δ)} {s s' : RxStreamer δ}
  {conversions : List RxConversion} {fuel : ℕ}

theorem converted_concat (conversions : List RxConversion) (k : RxConversion) (c : ℕ)
    (frame : Option ℕ) : converted (conversions ++ [k]) c frame =
      converted conversions c frame + if k.frames c = frame then k.numSamps else 0 := by
  rw [converted, converted, List.filter_append, List.map_append, List.sum_append]
  by_cases hk : k.frames c = frame
  · rw [if_pos hk, List.filter_cons_of_pos (by exact decide_eq_true hk)]
    rfl
  · rw [if_neg hk, List.filter_cons_of_neg (by rw [decide_eq_true_iff]; exact hk)]
    rfl

theorem converted_eq_zero {c : ℕ} {frame : Option ℕ}
    (h : ∀ k ∈ conversions, k.frames c ≠ frame) : converted conversions c frame = 0 := by
  rw [converted, List.filter_eq_nil_iff.mpr]
  · rfl
  · intro k hk
    rw [decide_eq_true_iff]
    exact h k hk

theorem StreamerInv.frames_eq (h : StreamerInv cfg streams s) {c : ℕ} (hc : c < cfg.numChans)
    (hheld : (s.chans c).frameBuff.isSome = true) :
    s.frames c = some (s.chans c).released.length := by
  obtain ⟨frame, hframe⟩ := Option.isSome_iff_exists.mp hheld
  rw [frames, hframe, ((h.tracks c hc).held_last hframe).2, List.length_range]

theorem StreamerInv.frameCount_frames (h : StreamerInv cfg streams s) {c : ℕ}
    (hc : c < cfg.numChans) (hheld : (s.chans c).frameBuff.isSome = true) :
    frameCount cfg streams c (s.frames c) = cfg.sampleCount (s.chans c).info := by
  obtain ⟨frame, hframe⟩ := Option.isSome_iff_exists.mp hheld
  rw [frameCount, frames, hframe, Option.bind_some, (h.tracks c hc).held frame hframe,
    Option.elim_some]

theorem taken_start (cfg : RxStreamerConfig δ β) (streams : ℕ → List (RxEvent δ)) :
    Taken cfg streams [] (Session.start streams : Session δ β).streamer where
  inv := streamerInv_start cfg streams
  past _ hk := absurd hk List.not_mem_nil
  atHand hne := absurd rfl hne

theorem Taken.congr (h : Taken cfg streams conversions s) (hchans : s'.chans = s.chans)
    (hremaining : s'.buffSampsRemaining = s.buffSampsRemaining)
    (hfragment : s'.lastFragmentMetadata = s.lastFragmentMetadata) :
    Taken cfg streams conversions s' := by
  have hframes : s'.frames = s.frames := funext fun c => by rw [frames, frames, hchans]
  refine ⟨h.inv.congr hchans hremaining hfragment, ?_, ?_⟩
  · rw [hchans, hremaining, hframes]
    exact h.past
  · rw [hremaining, hframes]
    exact h.atHand

theorem Taken.evolve (h : Taken cfg streams conversions s) (hchans : 0 < cfg.numChans)
    (hbefore : s.buffSampsRemaining = 0) (hevolved : Evolved cfg.numChans s.chans s'.chans)
    (hinv : StreamerInv cfg streams s')
    (hcount : s'.buffSampsRemaining ≠ 0 →
      s'.buffSampsRemaining = cfg.sampleCount (s'.chans 0).info) :
    Taken cfg streams conversions s' := by
  have hreleased : ∀ c < cfg.numChans,
      (s.chans c).released.length ≤ (s'.chans c).released.length :=
    hevolved (fun c ch => (s.chans c).released.length ≤ ch.released.length)
      (fun c => streamRule_released _) fun c _ => Nat.le_refl _
  have hpast : ∀ k ∈ conversions, ∀ c < cfg.numChans, ∃ frame, k.frames c = some frame ∧
      frame < (s'.chans c).released.length ∧
      converted conversions c (some frame) = frameCount cfg streams 0 (k.frames 0) := by
    intro k hk c hc
    rcases h.past k hk with hpast | ⟨hne, -⟩
    · obtain ⟨frame, hframe, hlt, hconverted⟩ := hpast c hc
      exact ⟨frame, hframe, Nat.lt_of_lt_of_le hlt (hreleased c hc), hconverted⟩
    · exact absurd hbefore hne
  refine ⟨hinv, fun k hk => Or.inl (hpast k hk), fun hne c hc => ?_⟩
  have hset := (hinv.atHand hne).1
  rw [hinv.frames_eq hc (hset.held c hc), converted_eq_zero, Nat.zero_add,
    hinv.frameCount_frames hchans (hset.held 0 hchans), hcount hne]
  intro k hk heq
  obtain ⟨frame, hframe, hlt, -⟩ := hpast k hk c hc
  rw [hframe, Option.some_inj] at heq
  omega

theorem Taken.convert (h : Taken cfg streams conversions s) (hchans₀ : 0 < cfg.numChans)
    (hremaining : s.buffSampsRemaining ≠ 0) {vars vars' : RxVars β} {nsamps offset num : ℕ}
    (herror : vars.metadata.errorCode = .none)
    (hconvert : s.convertSamples cfg vars nsamps offset = (s', vars', num)) :
    Taken cfg streams
      (conversions ++ [⟨offset, num, s.buffSampsRemaining - num, s.frames⟩]) s' := by
  have hinv := h.inv.convertSamples hchans₀ herror hconvert
  obtain ⟨hnum, hleft, hchans, -⟩ := convertSamples_spec hconvert
  have hset := (h.inv.atHand hremaining).1
  have hheld : ∀ c < cfg.numChans, s.frames c = some (s.chans c).released.length :=
    fun c hc => h.inv.frames_eq hc (hset.held c hc)
  have hatHand : ∀ c < cfg.numChans,
      converted (conversions ++ [⟨offset, num, s.buffSampsRemaining - num, s.frames⟩]) c
        (s.frames c) + s'.buffSampsRemaining = frameCount cfg streams 0 (s.frames 0) := by
    intro c hc
    have hbefore := h.atHand hremaining c hc
    have hle : num ≤ s.buffSampsRemaining := hnum ▸ Nat.min_le_right ..
    rw [converted_concat, if_pos rfl]
    show converted conversions c (s.frames c) + num + s'.buffSampsRemaining = _
    omega
  by_cases hlast : s.buffSampsRemaining ≤ nsamps
  · -- the packets are used up
    have hzero : s'.buffSampsRemaining = 0 := by omega
    have hreleased : ∀ c < cfg.numChans,
        (s'.chans c).released.length = (s.chans c).released.length + 1 := fun c hc => by
      rw [hchans c hc, if_pos hlast]
      exact length_released_of_held (hset.held c hc)
    have hused : ∀ k : RxConversion, (∀ c < cfg.numChans, k.frames c = s.frames c) →
        ∀ c < cfg.numChans, ∃ frame, k.frames c = some frame ∧
          frame < (s'.chans c).released.length ∧
          converted (conversions ++ [⟨offset, num, s.buffSampsRemaining - num, s.frames⟩]) c
            (some frame) = frameCount cfg streams 0 (k.frames 0) := by
      intro k hk c hc
      have hall := hatHand c hc
      rw [hheld c hc, hzero, Nat.add_zero] at hall
      exact ⟨_, (hk c hc).trans (hheld c hc), by rw [hreleased c hc]; exact Nat.lt_succ_self _,
        by rw [hall, hk 0 hchans₀]⟩
    refine ⟨hinv, fun k hk => Or.inl ?_, fun hne => absurd hzero hne⟩
    rcases List.mem_append.mp hk with hk | hk
    · rcases h.past k hk with hpast | ⟨-, hsame⟩
      · intro c hc
        obtain ⟨frame, hframe, hlt, hconverted⟩ := hpast c hc
        refine ⟨frame, hframe, by rw [hreleased c hc]; omega, ?_⟩
        rw [converted_concat, if_neg, Nat.add_zero, hconverted]
        show ¬ s.frames c = some frame
        rw [hheld c hc, Option.some_inj]
        omega
      · exact hused k hsame
    · rw [List.mem_singleton.mp hk]
      exact hused _ fun _ _ => rfl
  · have hmore : s'.buffSampsRemaining ≠ 0 := by omega
    have hsame : ∀ c < cfg.numChans, s'.chans c = s.chans c := fun c hc => by
      rw [hchans c hc, if_neg hlast]
    have hframes : ∀ c < cfg.numChans, s'.frames c = s.frames c := fun c hc => by
      rw [frames, frames, hsame c hc]
    refine ⟨hinv, fun k hk => ?_, fun _ c hc => ?_⟩
    · rcases List.mem_append.mp hk with hk | hk
      · rcases h.past k hk with hpast | ⟨-, hatHand'⟩
        · refine Or.inl fun c hc => ?_
          obtain ⟨frame, hframe, hlt, hconverted⟩ := hpast c hc
          refine ⟨frame, hframe, by rw [hsame c hc]; exact hlt, ?_⟩
          rw [converted_concat, if_neg, Nat.add_zero, hconverted]
          show ¬ s.frames c = some frame
          rw [hheld c hc, Option.some_inj]
          omega
        · exact Or.inr ⟨hmore, fun c hc => (hatHand' c hc).trans (hframes c hc).symm⟩
      · rw [List.mem_singleton.mp hk]
        exact Or.inr ⟨hmore, fun c hc => (hframes c hc).symm⟩
    · rw [hframes c hc, hframes 0 hchans₀]
      exact hatHand c hc

theorem Taken.pass {vars vars' : RxVars β} {nsamps offset num : ℕ} {before : List RxConversion}
    (h : Taken cfg streams (before ++ vars.notes.conversions) s) (hchans : 0 < cfg.numChans)
    (hpass : Pass cfg s vars nsamps offset s' vars' num) :
    Taken cfg streams (before ++ vars'.notes.conversions) s' := by
  have hinv := (h.inv.pass hchans hpass).1
  cases hpass with
  | error _ _ hfailed hremaining hshown =>
    have hbefore : s.buffSampsRemaining = 0 := by
      by_contra hne
      exact hfailed.unaligned (h.inv.atHand hne).1
    rw [hfailed.notes]
    exact h.evolve hchans hbefore hfailed.evolved hinv fun hne => absurd (hremaining.trans hbefore)
      hne
  | look _ _ n hn hgot hremaining =>
    rw [hgot.conversions]
    by_cases hbefore : s.buffSampsRemaining = 0
    · exact h.evolve hchans hbefore hgot.evolved hinv fun hne => absurd (hremaining.trans hbefore)
        hne
    · exact h.congr (hgot.again (h.inv.atHand hbefore).1) hremaining hgot.fragment
  | empty _ _ hn hbefore hgot hremaining =>
    rw [hgot.conversions]
    exact h.evolve hchans hbefore hgot.evolved hinv fun hne => absurd hremaining hne
  | first s₁ vars₁ _ _ _ hn hbefore hgot hremaining hconvert =>
    have hready : Taken cfg streams (before ++ vars₁.notes.conversions) s₁ := by
      rw [hgot.conversions]
      exact h.evolve hchans hbefore hgot.evolved (h.inv.got hgot (Nat.le_refl _)) fun _ => hgot.count
    obtain ⟨-, -, -, -, -, -, -, -, -, hnotes⟩ := convertSamples_spec hconvert
    rw [hnotes, ← List.append_assoc]
    exact hready.convert hchans hremaining hgot.errorCode hconvert
  | rest vars₁ _ _ _ hn hremaining heov hsame herror hconvert =>
    have hready : Taken cfg streams (before ++ vars₁.notes.conversions) s := by
      rw [hsame]
      exact h
    obtain ⟨-, -, -, -, -, -, -, -, -, hnotes⟩ := convertSamples_spec hconvert
    rw [hnotes, ← List.append_assoc]
    exact hready.convert hchans hremaining (herror.trans h.inv.fragment) hconvert

theorem Taken.recv {before : List RxConversion} (h : Taken cfg streams before s)
    (hchans : 0 < cfg.numChans) {call : RxRecvCall} {r : RxRecvResult β}
    (hrecv : s.recv cfg fuel call = some (s', .ok r)) :
    Taken cfg streams (before ++ r.notes.conversions) s' := by
  have hrule : CallRule cfg call.nsampsPerBuff fun s (vars : RxVars β) _ =>
      Taken cfg streams (before ++ vars.notes.conversions) s := by
    refine ⟨fun s vars samps s' vars' num h _ _ hpass =>
      ⟨h.pass hchans hpass, (h.inv.pass hchans hpass).2⟩, fun s vars samps metadata h => ?_⟩
    obtain ⟨hsame, hremaining, hfragment⟩ := storeError_same s metadata
    exact h.congr hsame hremaining hfragment
  have hstart : Taken cfg streams
      (before ++ ({ eov := EovData.ofSize call.eovPositions } : RxVars β).notes.conversions) s := by
    rw [List.append_nil]
    exact h
  rcases recv_rule hrule (fun _ _ _ hpass => hstart.pass hchans hpass) hrecv with
    ⟨metadata, -, rfl, rfl⟩ | ⟨vars', h', -, hnotes⟩
  · rw [List.append_nil]
    exact h.congr rfl rfl rfl
  · rw [hnotes]
    exact h'

theorem taken_of_run (hchans : 0 < cfg.numChans) {actions : List StreamerAction}
    {t : Session δ β}
    (hrun : run (Session.act cfg fuel) (Session.start streams) actions = some t) :
    Taken cfg streams t.conversions t.streamer := by
  have hstart : Taken cfg streams (Session.start streams : Session δ β).conversions
      (Session.start streams : Session δ β).streamer := taken_start cfg streams
  refine run_invariant (I := fun t : Session δ β => Taken cfg streams t.conversions t.streamer)
    (fun t a t' h hact => ?_) hstart hrun
  cases a with
  | recv call =>
    obtain ⟨s', r, hrecv, rfl⟩ := step_eq_some hact
    have h' := h.recv hchans hrecv
    rw [Session.conversions, List.flatMap_append, List.flatMap_singleton]
    exact h'
  | stoppedDueToOverrun =>
    obtain rfl := Option.some.inj hact
    exact h.congr rfl rfl rfl
  | stoppedDueToLateCmd =>
    obtain rfl := Option.some.inj hact
    exact h.congr rfl rfl rfl

/-! ## Using up packets -/

theorem connected_of_results {actions : List StreamerAction} {t : Session δ β}
    (hrun : run (Session.act cfg fuel) (Session.start streams) actions = some t)
    (hresults : t.results ≠ []) : cfg.allChansConnected = true := by
  by_contra hnot
  refine hresults (run_invariant (I := fun t : Session δ β => t.results = [])
    (fun t a t' h hact => ?_) rfl hrun)
  cases a with
  | recv call =>
    obtain ⟨s', r, hrecv, rfl⟩ := step_eq_some hact
    rw [RxStreamer.recv, if_pos (Bool.eq_false_iff.mpr hnot)] at hrecv
    cases (Prod.mk.inj (Option.some.inj hrecv)).2
  | stoppedDueToOverrun =>
    obtain rfl := Option.some.inj hact
    exact h
  | stoppedDueToLateCmd =>
    obtain rfl := Option.some.inj hact
    exact h

theorem recv_rest (fuel : ℕ) (hconnected : cfg.allChansConnected = true)
    (hcache : s.errorMetadataCache = none) (hremaining : s.buffSampsRemaining ≠ 0) : ∃ s' r,
      s.recv cfg fuel { nsampsPerBuff := s.buffSampsRemaining, onePacket := true } =
        some (s', .ok r) ∧ s'.buffSampsRemaining = 0 := by
  rw [RxStreamer.recv, if_neg (by rw [hconnected]; exact Bool.noConfusion)]
  simp only [hcache]
  rw [recvOnePacket, if_neg hremaining, if_neg hremaining]
  refine ⟨_, _, rfl, ?_⟩
  show s.buffSampsRemaining - min s.buffSampsRemaining s.buffSampsRemaining = 0
  rw [Nat.min_self, Nat.sub_self]

theorem exists_run_used_up {actions : List StreamerAction} {t : Session δ β}
    (hrun : run (Session.act cfg fuel) (Session.start streams) actions = some t)
    (hresults : t.results ≠ []) :
    ∃ more t', run (Session.act cfg fuel) (Session.start streams) (actions ++ more) = some t' ∧
      t.conversions ⊆ t'.conversions ∧ t'.streamer.buffSampsRemaining = 0 := by
  have hconnected := connected_of_results hrun hresults
  by_cases hremaining : t.streamer.buffSampsRemaining = 0
  · exact ⟨[], t, by rw [List.append_nil]; exact hrun, List.Subset.refl _, hremaining⟩
  have hkept : ∀ (s : RxStreamer δ) (r : RxRecvResult β), t.conversions ⊆
      (⟨s, t.results ++ [r]⟩ : Session δ β).conversions := fun s r => by
    rw [Session.conversions, Session.conversions, List.flatMap_append]
    exact List.subset_append_left ..
  -- the call that uses up the packets, where no error is stored
  have huse : ∀ u : Session δ β, u.streamer.buffSampsRemaining ≠ 0 →
      u.streamer.errorMetadataCache = none → ∃ call u', u.act cfg fuel (.recv call) = some u' ∧
        u.conversions ⊆ u'.conversions ∧ u'.streamer.buffSampsRemaining = 0 := by
    intro u hu hcache
    obtain ⟨s', r, hrecv, hzero⟩ := recv_rest fuel hconnected hcache hu
    refine ⟨_, ⟨s', u.results ++ [r]⟩, by rw [Session.act, Session.step, hrecv], ?_, hzero⟩
    rw [Session.conversions, Session.conversions, List.flatMap_append]
    exact List.subset_append_left ..
  rcases hcache : t.streamer.errorMetadataCache with - | metadata
  · obtain ⟨call, t', hact, hsub, hzero⟩ := huse t hremaining hcache
    refine ⟨[.recv call], t', run_append_eq_some.mpr ⟨t, hrun, ?_⟩, hsub, hzero⟩
    rw [run_cons, hact]
    rfl
  · -- the stored error comes first
    have hstored : t.act cfg fuel (.recv { nsampsPerBuff := 1 }) =
        some ⟨{ t.streamer with errorMetadataCache := none },
          t.results ++ [{ samps := 0, metadata := metadata }]⟩ := by
      rw [Session.act, Session.step, RxStreamer.recv, if_neg (by rw [hconnected]; exact Bool.noConfusion)]
      simp only [hcache]
    obtain ⟨call, t', hact, hsub, hzero⟩ := huse
      ⟨{ t.streamer with errorMetadataCache := none },
        t.results ++ [{ samps := 0, metadata := metadata }]⟩ hremaining rfl
    refine ⟨[.recv { nsampsPerBuff := 1 }, .recv call], t',
      run_append_eq_some.mpr ⟨t, hrun, ?_⟩, List.Subset.trans (hkept _ _) hsub, hzero⟩
    rw [run_cons, hstored, Option.bind_some, run_cons, hact]
    rfl

/-- **Channels stay within their payload**, whatever the calls, exactly if the packet of the
first channel is never longer than those that come with it. -/
theorem withinPayload_iff (cfg : RxStreamerConfig δ β) (hchans : 0 < cfg.numChans)
    (streams : ℕ → List (RxEvent δ)) :
    (∀ fuel actions t, run (Session.act cfg fuel) (Session.start streams) actions = some t →
        t.WithinPayload cfg streams) ↔
      ∀ fuel actions t, run (Session.act cfg fuel) (Session.start streams) actions = some t →
        t.FirstIsShortest cfg streams := by
  constructor
  · intro h fuel actions t hrun k hk c hc
    have hresults : t.results ≠ [] := fun hnil => by
      rw [Session.conversions, hnil] at hk
      exact absurd hk List.not_mem_nil
    obtain ⟨more, t', hrun', hsub, hzero⟩ := exists_run_used_up hrun hresults
    rcases (taken_of_run hchans hrun').past k (hsub hk) with hpast | ⟨hne, -⟩
    · obtain ⟨frame, hframe, -, hconverted⟩ := hpast c hc
      rw [← hconverted, hframe]
      exact h fuel _ t' hrun' c hc frame
    · exact absurd hzero hne
  · intro h fuel actions t hrun c hc frame
    have htaken := taken_of_run hchans hrun
    by_cases hnone : ∀ k ∈ t.conversions, k.frames c ≠ some frame
    · rw [converted_eq_zero hnone]
      exact Nat.zero_le _
    · push Not at hnone
      obtain ⟨k, hk, hframe⟩ := hnone
      have hshortest := h fuel actions t hrun k hk c hc
      rw [hframe] at hshortest
      refine Nat.le_trans ?_ hshortest
      rcases htaken.past k hk with hpast | ⟨hne, hsame⟩
      · obtain ⟨frame', hframe', -, hconverted⟩ := hpast c hc
        rw [hframe, Option.some_inj] at hframe'
        rw [hframe', hconverted]
      · have hatHand := htaken.atHand hne c hc
        rw [← hsame c hc, hframe, ← hsame 0 hchans] at hatHand
        omega

theorem withinPayload_iff_twoPackets :
    (∀ fuel actions t, run (Session.act twoChannels fuel) (Session.start twoPackets) actions =
        some t → t.WithinPayload twoChannels twoPackets) ↔
      ∀ fuel actions t, run (Session.act twoChannels fuel) (Session.start twoPackets) actions =
        some t → t.FirstIsShortest twoChannels twoPackets :=
  withinPayload_iff twoChannels (by decide) twoPackets

/-- Packets with one time, of four and of two samples. -/
def unevenPackets (chan : ℕ) : List (RxEvent ℕ) :=
  if chan = 0 then [.packet { hasTsf := true, tsf := 0, payload := [10, 11, 12, 13] } false]
  else [.packet { hasTsf := true, tsf := 0, payload := [20, 21] } false]

/-- Four samples are converted from a packet that holds two. -/
theorem payload_overrun : ∃ t : Session ℕ ℕ,
    run (Session.act twoChannels 10) (Session.start unevenPackets)
        [.recv { nsampsPerBuff := 4 }] = some t ∧
      converted t.conversions 1 (some 0) = 4 ∧
      frameCount twoChannels unevenPackets 1 (some 0) = 2 ∧
      ¬ t.WithinPayload twoChannels unevenPackets := by
  obtain ⟨t, hrun, ht⟩ := Option.map_eq_some_iff.mp
    (by decide +kernel : (run (Session.act twoChannels 10) (Session.start unevenPackets)
      [.recv { nsampsPerBuff := 4 }]).map
        (fun t : Session ℕ ℕ => converted t.conversions 1 (some 0)) = some 4)
  refine ⟨t, hrun, ht, by decide, fun hwithin => ?_⟩
  have hle := hwithin 1 (by decide) 0
  rw [ht] at hle
  exact absurd hle (by decide)

end RxStreamer
end Transport
end UhdHost
