import UhdHost.Transport.AlignedPackets

/-!
# The passes of the alignment

What one pass of the loop in `getAlignedBuffs` can do, whatever the packets are.

A pass looks at the first channel that is not aligned.  It receives a frame where none is held
(`receive_cases`) and compares the packet (`alignPacket_cases`): the channel is aligned, or the
alignment starts over with this packet, or the packet is behind and is released, or the
alignment fails.  `loop_cases` puts the two together with the ways a call ends.

Two rules carry invariants across a call.  `loop_rule` is for what holds of the variables and
all channels, `loop_channelwise` for what holds of each channel by itself.  The main instance of
the former is `Aligning`: the channels that are aligned hold a packet, and their timestamps
agree.
-/

namespace UhdHost
namespace Transport

variable {δ : Type}

/-! ## What a pass does -/

namespace AlignVars

/-- The channel is aligned. -/
def mark (v : AlignVars) (chan : ℕ) : AlignVars :=
  { v with channelsToAlign := Function.update v.channelsToAlign chan false }

/-- The alignment starts over with the packet of this channel. -/
def restart (v : AlignVars) (chan tsf : ℕ) : AlignVars where
  channelsToAlign := fun i => i != chan
  timeValid := true
  tsf := tsf
  iterations := v.iterations + 1

/-- The packet that a channel holds makes the alignment start over. -/
def Restarts (v : AlignVars) (ch : RxChannel δ) : Prop :=
  v.timeValid = false ∨ ch.info.tsf < ch.prevTsf ∨ v.tsf < ch.info.tsf

instance (v : AlignVars) (ch : RxChannel δ) : Decidable (v.Restarts ch) :=
  inferInstanceAs (Decidable (_ ∨ _ ∨ _))

/-- This is the channel that the next pass looks at. -/
def Examines (numChans : ℕ) (v : AlignVars) (chan : ℕ) : Prop :=
  (List.range numChans).find? v.channelsToAlign = some chan

variable {numChans chan : ℕ} {v : AlignVars}

theorem Examines.lt (h : v.Examines numChans chan) : chan < numChans :=
  List.mem_range.mp (List.mem_of_find?_eq_some h)

theorem Examines.toAlign (h : v.Examines numChans chan) :
    v.channelsToAlign chan = true := List.find?_some h

end AlignVars

namespace RxChannel

/-- The packet that is held is the one before from now on. -/
def setPrevTsf (ch : RxChannel δ) : RxChannel δ := { ch with prevTsf := ch.info.tsf }

end RxChannel

namespace GetAlignedBuffs

/-- The packets of the channels that were aligned are released, as far as they have a time. -/
def releaseAligned (numChans : ℕ) (v : AlignVars) (chans : ℕ → RxChannel δ) :
    ℕ → RxChannel δ := fun i =>
  if i < numChans ∧ v.channelsToAlign i = false ∧ (chans i).info.hasTsf = true then
    (chans i).releaseRecvBuff
  else chans i

variable {ignoreSeqErr : Bool} {numChans fuel chan : ℕ} {v v' : AlignVars}
  {chans chans' : ℕ → RxChannel δ} {ch : RxChannel δ} {result : AlignmentResult}

theorem receive_cases (ch : RxChannel δ) :
    (ch.frameBuff.isSome = true ∧ ch.receive = (ch, some false)) ∨
    (ch.frameBuff = none ∧ ch.events = [] ∧ ch.receive = ({ ch with info := {} }, some false)) ∨
    (∃ events, ch.frameBuff = none ∧ ch.events = .timeout :: events ∧
      ch.receive = ({ ch with events := events, info := {} }, some false)) ∨
    (∃ events, ch.frameBuff = none ∧ ch.events = .badPacket :: events ∧
      ch.receive = ({ ch with events := events }, none)) ∨
    ∃ info seqError events, ch.frameBuff = none ∧ ch.events = .packet info seqError :: events ∧
      ch.receive = ({ ch with
        events := events
        frameBuff := some ch.received
        info := info
        received := ch.received + 1 }, some seqError) := by
  by_cases hframe : ch.frameBuff = none
  · have hget : ch.receive = ch.getRecvBuff := by
      rw [RxChannel.receive, hframe, Option.isSome_none, if_neg Bool.false_ne_true]
    rw [hget, RxChannel.getRecvBuff]
    refine Or.inr ?_
    rcases ch.events with - | ⟨e, events⟩
    · exact Or.inl ⟨hframe, rfl, rfl⟩
    · cases e with
      | timeout => exact Or.inr (Or.inl ⟨events, hframe, rfl, rfl⟩)
      | badPacket => exact Or.inr (Or.inr (Or.inl ⟨events, hframe, rfl, rfl⟩))
      | packet info seqError =>
        exact Or.inr (Or.inr (Or.inr ⟨info, seqError, events, hframe, rfl, rfl⟩))
  · have hheld : ch.frameBuff.isSome = true := Option.isSome_iff_ne_none.mpr hframe
    exact Or.inl ⟨hheld, by rw [RxChannel.receive, if_pos hheld]⟩

/-- **Comparing.**  A packet without a time is aligned.  One with a time makes the alignment
start over or fail, or it has the time of the others, or it is behind and released. -/
theorem alignPacket_cases (numChans : ℕ) (v : AlignVars) (chans : ℕ → RxChannel δ) (chan : ℕ) :
    ((chans chan).info.hasTsf = false ∧
      alignPacket numChans v chans chan = some (v.mark chan, chans)) ∨
    (chans chan).info.hasTsf = true ∧
      (v.Restarts (chans chan) ∧
          (alignmentFailureThreshold < v.iterations ∧ alignPacket numChans v chans chan = none ∨
            v.iterations ≤ alignmentFailureThreshold ∧
            alignPacket numChans v chans chan =
              some (v.restart chan (chans chan).info.tsf, releaseAligned numChans v
                (Function.update chans chan (chans chan).setPrevTsf))) ∨
        v.timeValid = true ∧ (chans chan).prevTsf ≤ (chans chan).info.tsf ∧
          ((chans chan).info.tsf = v.tsf ∧
              alignPacket numChans v chans chan =
                some (v.mark chan, Function.update chans chan (chans chan).setPrevTsf) ∨
            (chans chan).info.tsf < v.tsf ∧
              alignPacket numChans v chans chan =
                some (v, Function.update chans chan (chans chan).setPrevTsf.releaseRecvBuff))) := by
  cases htsf : (chans chan).info.hasTsf with
  | false =>
    refine Or.inl ⟨rfl, ?_⟩
    rw [alignPacket, htsf, if_neg Bool.false_ne_true]
    rfl
  | true =>
    refine Or.inr ⟨rfl, ?_⟩
    rw [alignPacket, htsf, if_pos rfl]
    have hiff : ((v.timeValid && !(decide ((chans chan).info.tsf < (chans chan).prevTsf))) = false ∨
        v.tsf < (chans chan).info.tsf) ↔ v.Restarts (chans chan) := by
      rw [AlignVars.Restarts, Bool.and_eq_false_iff, Bool.not_eq_false', decide_eq_true_iff,
        or_assoc]
    by_cases hrestarts : v.Restarts (chans chan)
    · rw [if_pos (hiff.mpr hrestarts)]
      refine Or.inl ⟨hrestarts, ?_⟩
      by_cases hiter : alignmentFailureThreshold < v.iterations
      · exact Or.inl ⟨hiter, if_pos hiter⟩
      · exact Or.inr ⟨Nat.not_lt.mp hiter, if_neg hiter⟩
    · rw [if_neg (fun h => hrestarts (hiff.mp h))]
      obtain ⟨hvalid, hprev, hle⟩ : v.timeValid = true ∧
          (chans chan).prevTsf ≤ (chans chan).info.tsf ∧ (chans chan).info.tsf ≤ v.tsf := by
        refine ⟨?_, ?_, ?_⟩
        · exact Bool.of_not_eq_false fun h => hrestarts (Or.inl h)
        · exact Nat.not_lt.mp fun h => hrestarts (Or.inr (Or.inl h))
        · exact Nat.not_lt.mp fun h => hrestarts (Or.inr (Or.inr h))
      have htime : (v.timeValid && !(decide ((chans chan).info.tsf < (chans chan).prevTsf))) =
          v.timeValid := by
        rw [decide_eq_false (Nat.not_lt.mpr hprev), Bool.not_false, Bool.and_true]
      rw [htime]
      refine Or.inr ⟨hvalid, hprev, ?_⟩
      by_cases heq : (chans chan).info.tsf = v.tsf
      · exact Or.inl ⟨heq, if_pos heq⟩
      · refine Or.inr ⟨Nat.lt_of_le_of_ne hle heq, ?_⟩
        rw [if_neg heq, Function.update_self, Function.update_idem]
        rfl

/-- **One pass.**  Every channel is aligned and the call succeeds, or the first channel that is
not aligned ends the call or hands over to the next pass. -/
theorem loop_cases (h : loop ignoreSeqErr numChans (fuel + 1) v chans = some (chans', result)) :
    ((∀ c < numChans, v.channelsToAlign c = false) ∧ chans' = chans ∧ result = .success) ∨
    ∃ chan ch, v.Examines numChans chan ∧
      ((chans chan).receive = (ch, none) ∧ chans' = Function.update chans chan ch ∧
          result = .badPacket ∨
        ∃ seqError, (chans chan).receive = (ch, some seqError) ∧
          (ch.frameBuff = none ∧ chans' = Function.update chans chan ch ∧ result = .timeout ∨
            ch.frameBuff.isSome = true ∧
              (alignPacket numChans v (Function.update chans chan ch) chan = none ∧
                  chans' = Function.update chans chan ch.setPrevTsf ∧
                  result = .alignmentFailure ∨
                ∃ v₁ chans₁,
                  alignPacket numChans v (Function.update chans chan ch) chan =
                    some (v₁, chans₁) ∧
                  ((seqError && !ignoreSeqErr) = true ∧ chans' = chans₁ ∧
                      result = .sequenceError ∨
                    (seqError && !ignoreSeqErr) = false ∧
                      loop ignoreSeqErr numChans fuel v₁ chans₁ = some (chans', result))))) := by
  rw [loop] at h
  rcases hfind : (List.range numChans).find? v.channelsToAlign with - | chan
  · rw [hfind] at h
    obtain ⟨rfl, rfl⟩ := Prod.mk.inj (Option.some.inj h)
    exact Or.inl ⟨fun c hc => Bool.eq_false_iff.mpr
      (List.find?_eq_none.mp hfind c (List.mem_range.mpr hc)), rfl, rfl⟩
  · simp only [hfind] at h
    rcases hreceive : (chans chan).receive with ⟨ch, - | seqError⟩
    · simp only [hreceive] at h
      obtain ⟨rfl, rfl⟩ := Prod.mk.inj (Option.some.inj h)
      exact Or.inr ⟨chan, ch, hfind, Or.inl ⟨hreceive, rfl, rfl⟩⟩
    · simp only [hreceive] at h
      refine Or.inr ⟨chan, ch, hfind, Or.inr ⟨seqError, hreceive, ?_⟩⟩
      by_cases hframe : ch.frameBuff = none
      · rw [hframe, if_pos Option.isNone_none] at h
        obtain ⟨rfl, rfl⟩ := Prod.mk.inj (Option.some.inj h)
        exact Or.inl ⟨hframe, rfl, rfl⟩
      · have hheld : ch.frameBuff.isSome = true := Option.isSome_iff_ne_none.mpr hframe
        rw [if_neg (by simpa using hframe)] at h
        refine Or.inr ⟨hheld, ?_⟩
        rcases halign : alignPacket numChans v (Function.update chans chan ch) chan with
          - | ⟨v₁, chans₁⟩
        · simp only [halign] at h
          obtain ⟨rfl, rfl⟩ := Prod.mk.inj (Option.some.inj h)
          exact Or.inl ⟨rfl, rfl, rfl⟩
        · simp only [halign] at h
          refine Or.inr ⟨v₁, chans₁, rfl, ?_⟩
          cases hseq : seqError && !ignoreSeqErr with
          | true =>
            rw [hseq, if_pos rfl] at h
            obtain ⟨rfl, rfl⟩ := Prod.mk.inj (Option.some.inj h)
            exact Or.inl ⟨rfl, rfl, rfl⟩
          | false =>
            rw [hseq, if_neg Bool.false_ne_true] at h
            exact Or.inr ⟨rfl, h⟩

/-! ## Invariants of a call -/

/-- The packets that are compared in a call satisfy a condition with the variables. -/
def EveryPass (good : AlignVars → (ℕ → RxChannel δ) → ℕ → Prop) (ignoreSeqErr : Bool)
    (numChans : ℕ) : ℕ → AlignVars → (ℕ → RxChannel δ) → Prop
  | 0, _, _ => True
  | fuel + 1, v, chans =>
    ∀ chan, v.Examines numChans chan →
      ∀ ch seqError, (chans chan).receive = (ch, some seqError) → ch.frameBuff.isSome = true →
        good v (Function.update chans chan ch) chan ∧
        ∀ v' chans', alignPacket numChans v (Function.update chans chan ch) chan =
            some (v', chans') → (seqError && !ignoreSeqErr) = false →
          EveryPass good ignoreSeqErr numChans fuel v' chans'

/-- Where the condition can be decided, a call can be checked. -/
instance decidableEveryPass (good : AlignVars → (ℕ → RxChannel δ) → ℕ → Prop)
    [∀ v chans chan, Decidable (good v chans chan)] (ignoreSeqErr : Bool) (numChans : ℕ) :
    (fuel : ℕ) → (v : AlignVars) → (chans : ℕ → RxChannel δ) →
      Decidable (EveryPass good ignoreSeqErr numChans fuel v chans)
  | 0, _, _ => isTrue trivial
  | fuel + 1, v, chans =>
    match hfind : (List.range numChans).find? v.channelsToAlign with
    | none => isTrue fun _ hchan => nomatch hfind.symm.trans hchan
    | some chan =>
      match hreceive : (chans chan).receive with
      | (_, none) => isTrue fun _ hchan _ _ hgot _ => by
          obtain rfl := Option.some.inj (hfind.symm.trans hchan)
          cases (Prod.mk.inj (hreceive.symm.trans hgot)).2
      | (ch, some seqError) =>
        match halign : alignPacket numChans v (Function.update chans chan ch) chan with
        | none => decidable_of_iff
            (ch.frameBuff.isSome = true → good v (Function.update chans chan ch) chan) <| by
          constructor
          · intro h chan' hchan ch' seqError' hgot hheld
            obtain rfl := Option.some.inj (hfind.symm.trans hchan)
            obtain ⟨rfl, -⟩ := Prod.mk.inj (hreceive.symm.trans hgot)
            exact ⟨h hheld, fun _ _ halign' => nomatch halign.symm.trans halign'⟩
          · exact fun h hheld => (h chan hfind ch seqError hreceive hheld).1
        | some (v', chans') =>
          have := decidableEveryPass good ignoreSeqErr numChans fuel v' chans'
          decidable_of_iff (ch.frameBuff.isSome = true →
            good v (Function.update chans chan ch) chan ∧ ((seqError && !ignoreSeqErr) = false →
              EveryPass good ignoreSeqErr numChans fuel v' chans')) <| by
          constructor
          · intro h chan' hchan ch' seqError' hgot hheld
            obtain rfl := Option.some.inj (hfind.symm.trans hchan)
            obtain ⟨rfl, hseq⟩ := Prod.mk.inj (hreceive.symm.trans hgot)
            obtain rfl := Option.some.inj hseq
            refine ⟨(h hheld).1, fun v₁ chans₁ halign' hcont => ?_⟩
            obtain ⟨rfl, rfl⟩ := Prod.mk.inj (Option.some.inj (halign.symm.trans halign'))
            exact (h hheld).2 hcont
          · exact fun h hheld => ⟨(h chan hfind ch seqError hreceive hheld).1,
              (h chan hfind ch seqError hreceive hheld).2 v' chans' halign⟩

/-- What receiving and comparing preserve, where the packets that are compared satisfy a
condition. -/
structure PassRule (numChans : ℕ) (good : AlignVars → (ℕ → RxChannel δ) → ℕ → Prop)
    (I : AlignVars → (ℕ → RxChannel δ) → Prop) : Prop where
  receive : ∀ v chans chan ch r, I v chans → v.Examines numChans chan →
    (chans chan).receive = (ch, r) → I v (Function.update chans chan ch)
  align : ∀ v chans chan v' chans', I v chans → v.Examines numChans chan →
    (chans chan).frameBuff.isSome = true → good v chans chan →
    alignPacket numChans v chans chan = some (v', chans') → I v' chans'
  fail : ∀ v chans chan, I v chans → v.Examines numChans chan →
    (chans chan).frameBuff.isSome = true → (chans chan).info.hasTsf = true →
    I v (Function.update chans chan (chans chan).setPrevTsf)

/-- No condition. -/
def anyPass (_ : AlignVars) (_ : ℕ → RxChannel δ) (_ : ℕ) : Prop := True

theorem everyPass_of_invariant {good : AlignVars → (ℕ → RxChannel δ) → ℕ → Prop}
    {I : AlignVars → (ℕ → RxChannel δ) → Prop} (hI : PassRule numChans anyPass I)
    (hgood : ∀ v chans chan, I v chans → v.Examines numChans chan →
      (chans chan).frameBuff.isSome = true → good v chans chan)
    (fuel : ℕ) (h : I v chans) : EveryPass good ignoreSeqErr numChans fuel v chans := by
  induction fuel generalizing v chans with
  | zero => exact trivial
  | succ fuel ih =>
    intro chan hchan ch seqError hreceive hheld
    have hreceived := hI.receive v chans chan ch _ h hchan hreceive
    have hheld' : (Function.update chans chan ch chan).frameBuff.isSome = true := by
      rw [Function.update_self]
      exact hheld
    exact ⟨hgood v _ chan hreceived hchan hheld', fun v' chans' halign _ =>
      ih (hI.align v _ chan v' chans' hreceived hchan hheld' trivial halign)⟩

theorem everyPass_any (ignoreSeqErr : Bool) (numChans fuel : ℕ) (v : AlignVars)
    (chans : ℕ → RxChannel δ) : EveryPass anyPass ignoreSeqErr numChans fuel v chans :=
  everyPass_of_invariant (I := fun _ _ => True)
    ⟨fun _ _ _ _ _ _ _ _ => trivial, fun _ _ _ _ _ _ _ _ _ _ => trivial,
      fun _ _ _ _ _ _ _ => trivial⟩ (fun _ _ _ _ _ _ => trivial) fuel trivial

theorem PassRule.and {good : AlignVars → (ℕ → RxChannel δ) → ℕ → Prop}
    {I J : AlignVars → (ℕ → RxChannel δ) → Prop} (hI : PassRule numChans good I)
    (hJ : PassRule numChans good J) :
    PassRule numChans good fun v chans => I v chans ∧ J v chans where
  receive v chans chan ch r h hchan hreceive :=
    ⟨hI.receive v chans chan ch r h.1 hchan hreceive,
      hJ.receive v chans chan ch r h.2 hchan hreceive⟩
  align v chans chan v' chans' h hchan hheld hgood halign :=
    ⟨hI.align v chans chan v' chans' h.1 hchan hheld hgood halign,
      hJ.align v chans chan v' chans' h.2 hchan hheld hgood halign⟩
  fail v chans chan h hchan hheld htsf :=
    ⟨hI.fail v chans chan h.1 hchan hheld htsf, hJ.fail v chans chan h.2 hchan hheld htsf⟩

theorem loop_rule {good : AlignVars → (ℕ → RxChannel δ) → ℕ → Prop}
    {I : AlignVars → (ℕ → RxChannel δ) → Prop} (hI : PassRule numChans good I)
    (h : I v chans) (hgood : EveryPass good ignoreSeqErr numChans fuel v chans)
    (hloop : loop ignoreSeqErr numChans fuel v chans = some (chans', result)) :
    ∃ v', I v' chans' ∧ (result = .success → ∀ c < numChans, v'.channelsToAlign c = false) := by
  induction fuel generalizing v chans with
  | zero => cases hloop
  | succ fuel ih =>
    rcases loop_cases hloop with ⟨hall, rfl, rfl⟩ | ⟨chan, ch, hchan, hpass⟩
    · exact ⟨v, h, fun _ => hall⟩
    have hself : Function.update chans chan ch chan = ch := Function.update_self ..
    rcases hpass with ⟨hreceive, rfl, rfl⟩ | ⟨seqError, hreceive, hpass⟩
    · exact ⟨v, hI.receive v chans chan ch _ h hchan hreceive, nofun⟩
    have hreceived := hI.receive v chans chan ch _ h hchan hreceive
    rcases hpass with ⟨hnone, rfl, rfl⟩ | ⟨hheld, hpass⟩
    · exact ⟨v, hreceived, nofun⟩
    obtain ⟨hgood, hrest⟩ := hgood chan hchan ch seqError hreceive hheld
    have hheld' : (Function.update chans chan ch chan).frameBuff.isSome = true := by
      rw [hself]
      exact hheld
    rcases hpass with ⟨hnone, rfl, rfl⟩ | ⟨v₁, chans₁, halign, hpass⟩
    · have htsf : (Function.update chans chan ch chan).info.hasTsf = true := by
        rcases alignPacket_cases numChans v (Function.update chans chan ch) chan with
          ⟨-, hsome⟩ | ⟨htsf, -⟩
        · rw [hnone] at hsome
          cases hsome
        · exact htsf
      have hfail := hI.fail v _ chan hreceived hchan hheld' htsf
      rw [hself, Function.update_idem] at hfail
      exact ⟨v, hfail, nofun⟩
    have haligned := hI.align v _ chan v₁ chans₁ hreceived hchan hheld' hgood halign
    rcases hpass with ⟨-, rfl, rfl⟩ | ⟨hseq, hloop⟩
    · exact ⟨v₁, haligned, nofun⟩
    · exact ih haligned (hrest v₁ chans₁ halign hseq) hloop

/-- What the things that are done to a channel preserve. -/
structure ChannelRule (P : RxChannel δ → Prop) : Prop where
  receive : ∀ ch ch' r, P ch → ch.receive = (ch', r) → P ch'
  release : ∀ ch, P ch → P ch.releaseRecvBuff
  setPrevTsf : ∀ ch, P ch → ch.frameBuff.isSome = true → ch.info.hasTsf = true → P ch.setPrevTsf

theorem forall_update {P : ℕ → RxChannel δ → Prop} (h : ∀ c < numChans, P c (chans c))
    (hch : P chan ch) : ∀ c < numChans, P c (Function.update chans chan ch c) := by
  intro c hc
  by_cases hcc : c = chan
  · rw [hcc, Function.update_self]
    exact hch
  · rw [Function.update_of_ne hcc]
    exact h c hc

theorem forall_releaseAligned {P : ℕ → RxChannel δ → Prop} (h : ∀ c < numChans, P c (chans c))
    (hrelease : ∀ c ch, P c ch → P c ch.releaseRecvBuff) (v : AlignVars) :
    ∀ c < numChans, P c (releaseAligned numChans v chans c) := by
  intro c hc
  unfold releaseAligned
  split_ifs with hreleased
  · exact hrelease c _ (h c hc)
  · exact h c hc

theorem passRule_of_channelRule {P : ℕ → RxChannel δ → Prop}
    (hP : ∀ c, ChannelRule (P c)) :
    PassRule numChans anyPass fun _ chans => ∀ c < numChans, P c (chans c) where
  receive v chans chan ch r h hchan hreceive :=
    forall_update h ((hP chan).receive _ _ r (h chan hchan.lt) hreceive)
  fail v chans chan h hchan hheld htsf :=
    forall_update h ((hP chan).setPrevTsf _ (h chan hchan.lt) hheld htsf)
  align v chans chan v' chans' h hchan hheld _ halign := by
    have hrelease : ∀ c (ch : RxChannel δ), P c ch → P c ch.releaseRecvBuff :=
      fun c ch => (hP c).release ch
    rcases alignPacket_cases numChans v chans chan with
      ⟨-, hsome⟩ | ⟨htsf, ⟨-, ⟨-, hnone⟩ | ⟨-, hsome⟩⟩ | ⟨-, -, ⟨-, hsome⟩ | ⟨-, hsome⟩⟩⟩
    · obtain ⟨rfl, rfl⟩ := Prod.mk.inj (Option.some.inj (hsome.symm.trans halign))
      exact h
    · cases hnone.symm.trans halign
    all_goals
      have hset := (hP chan).setPrevTsf _ (h chan hchan.lt) hheld htsf
      obtain ⟨rfl, rfl⟩ := Prod.mk.inj (Option.some.inj (hsome.symm.trans halign))
    · exact forall_releaseAligned (forall_update h hset) hrelease v
    · exact forall_update h hset
    · exact forall_update h (hrelease chan _ hset)

theorem loop_channelwise {P : ℕ → RxChannel δ → Prop} (hP : ∀ c, ChannelRule (P c))
    (h : ∀ c < numChans, P c (chans c))
    (hloop : loop ignoreSeqErr numChans fuel v chans = some (chans', result)) :
    ∀ c < numChans, P c (chans' c) := by
  obtain ⟨-, h', -⟩ := loop_rule (passRule_of_channelRule hP) h
    (everyPass_any ignoreSeqErr numChans fuel v chans) hloop
  exact h'

/-! ## The channels that are aligned -/

/-- What the loop knows, whatever the packets are: the channels that are aligned hold a packet,
and where it has a time it is the time of the alignment. -/
structure Aligning (numChans : ℕ) (v : AlignVars) (chans : ℕ → RxChannel δ) : Prop
    extends AlignInv numChans v chans where
  agree : v.timeValid = true → ∀ i < numChans, v.channelsToAlign i = false →
    (chans i).info.hasTsf = true → (chans i).info.tsf = v.tsf ∧ (chans i).prevTsf = v.tsf

/-- A packet of every channel, with the same time as far as they have one. -/
structure AlignedSet (numChans : ℕ) (chans : ℕ → RxChannel δ) : Prop where
  held : ∀ c < numChans, (chans c).frameBuff.isSome = true
  time : ∃ t, ∀ c < numChans, (chans c).info.hasTsf = true →
    (chans c).info.tsf = t ∧ (chans c).prevTsf = t

theorem aligning_start (numChans : ℕ) (chans : ℕ → RxChannel δ) :
    Aligning numChans {} chans where
  held _ _ hto := nomatch hto
  valid hvalid := nomatch hvalid
  invalid _ := ⟨rfl, fun _ _ hto => nomatch hto⟩
  agree hvalid := nomatch hvalid

theorem Aligning.update (h : Aligning numChans v chans) (hto : v.channelsToAlign chan = true)
    (ch : RxChannel δ) : Aligning numChans v (Function.update chans chan ch) where
  toAlignInv := h.toAlignInv.receive hto ch
  agree hvalid i hi htoI := by
    have hne : i ≠ chan := fun hic => by
      rw [hic, hto] at htoI
      cases htoI
    rw [Function.update_of_ne hne]
    exact h.agree hvalid i hi htoI

theorem mark_toAlign {i : ℕ} (h : (v.mark chan).channelsToAlign i = false) :
    i = chan ∨ v.channelsToAlign i = false := by
  by_cases hic : i = chan
  · exact Or.inl hic
  · change Function.update v.channelsToAlign chan false i = false at h
    rw [Function.update_of_ne hic] at h
    exact Or.inr h

theorem restart_toAlign {tsf i : ℕ} (h : (v.restart chan tsf).channelsToAlign i = false) :
    i = chan := by
  simpa [AlignVars.restart] using h

theorem Aligning.restart (hchan : chan < numChans)
    (hheld : (chans chan).frameBuff.isSome = true) (htsf : (chans chan).info.hasTsf = true)
    (hprev : (chans chan).prevTsf = (chans chan).info.tsf) :
    Aligning numChans (v.restart chan (chans chan).info.tsf) chans where
  held i _ hto := by
    rw [restart_toAlign hto]
    exact hheld
  valid _ := by
    refine ⟨chan, hchan, ?_, htsf, rfl⟩
    show (chan != chan) = false
    rw [bne_self_eq_false]
  invalid hvalid := nomatch hvalid
  agree _ i _ hto _ := by
    rw [restart_toAlign hto]
    exact ⟨rfl, hprev⟩

theorem passRule_aligning : PassRule (δ := δ) numChans anyPass (Aligning numChans) where
  receive v chans chan ch _ h hchan _ := h.update hchan.toAlign ch
  fail v chans chan h hchan _ _ := h.update hchan.toAlign _
  align v chans chan v' chans' h hchan hheld _ halign := by
    have hself : Function.update chans chan (chans chan).setPrevTsf chan =
        (chans chan).setPrevTsf := Function.update_self ..
    have hset := h.update hchan.toAlign (chans chan).setPrevTsf
    have hkeep : ∀ i, (Function.update chans chan (chans chan).setPrevTsf i).frameBuff =
          (chans i).frameBuff ∧
        (Function.update chans chan (chans chan).setPrevTsf i).info = (chans i).info := by
      intro i
      by_cases hic : i = chan
      · rw [hic, hself]
        exact ⟨rfl, rfl⟩
      · rw [Function.update_of_ne hic]
        exact ⟨rfl, rfl⟩
    rcases alignPacket_cases numChans v chans chan with
      ⟨hnone, hsome⟩ | ⟨htsf, ⟨-, ⟨-, hnone⟩ | ⟨-, hsome⟩⟩ | ⟨hvalid, -, ⟨heq, hsome⟩ | ⟨-, hsome⟩⟩⟩
    · obtain ⟨rfl, rfl⟩ := Prod.mk.inj (Option.some.inj (hsome.symm.trans halign))
      refine ⟨h.toAlignInv.mark hchan.lt hheld (fun hh => nomatch hnone.symm.trans hh)
        fun i => ⟨rfl, rfl⟩, fun hvalid i hi hto hhas => ?_⟩
      rcases mark_toAlign hto with rfl | hto
      · cases hnone.symm.trans hhas
      · exact h.agree hvalid i hi hto hhas
    · cases hnone.symm.trans halign
    · obtain ⟨rfl, rfl⟩ := Prod.mk.inj (Option.some.inj (hsome.symm.trans halign))
      have hchan' : releaseAligned numChans v
          (Function.update chans chan (chans chan).setPrevTsf) chan = (chans chan).setPrevTsf := by
        rw [releaseAligned, if_neg, hself]
        rintro ⟨-, hto, -⟩
        rw [hchan.toAlign] at hto
        cases hto
      have hstart : Aligning numChans (v.restart chan (releaseAligned numChans v
          (Function.update chans chan (chans chan).setPrevTsf) chan).info.tsf)
            (releaseAligned numChans v
              (Function.update chans chan (chans chan).setPrevTsf)) :=
        Aligning.restart hchan.lt (by rw [hchan']; exact hheld) (by rw [hchan']; exact htsf)
          (by rw [hchan']; rfl)
      rw [hchan'] at hstart
      exact hstart
    · obtain ⟨rfl, rfl⟩ := Prod.mk.inj (Option.some.inj (hsome.symm.trans halign))
      refine ⟨h.toAlignInv.mark hchan.lt hheld (fun _ => hvalid) hkeep,
        fun hvalid' i hi hto hhas => ?_⟩
      rcases mark_toAlign hto with rfl | hto
      · rw [hself]
        exact ⟨heq, heq⟩
      · exact hset.agree hvalid' i hi hto hhas
    · obtain ⟨rfl, rfl⟩ := Prod.mk.inj (Option.some.inj (hsome.symm.trans halign))
      exact h.update hchan.toAlign _

theorem alignedSet_of_success
    (h : getAlignedBuffs ignoreSeqErr numChans fuel chans = some (chans', .success)) :
    AlignedSet numChans chans' := by
  obtain ⟨v, haligning, hall⟩ := loop_rule passRule_aligning (aligning_start numChans chans)
    (everyPass_any ignoreSeqErr numChans fuel {} chans) h
  have hall := hall rfl
  refine ⟨fun c hc => haligning.held c hc (hall c hc), v.tsf, fun c hc hhas => ?_⟩
  cases hvalid : v.timeValid with
  | true => exact haligning.agree hvalid c hc (hall c hc) hhas
  | false => cases ((haligning.invalid hvalid).2 c hc (hall c hc)).symm.trans hhas

theorem update_setPrevTsf_eq (h : (chans chan).prevTsf = (chans chan).info.tsf) :
    Function.update chans chan (chans chan).setPrevTsf = chans := by
  have hch : (chans chan).setPrevTsf = chans chan := by
    rw [RxChannel.setPrevTsf, ← h]
  rw [hch, Function.update_eq_self]

theorem loop_of_alignedSet (hset : AlignedSet numChans chans) (h : Aligning numChans v chans)
    (hloop : loop ignoreSeqErr numChans fuel v chans = some (chans', result)) :
    chans' = chans ∧ result = .success := by
  induction fuel generalizing v with
  | zero => cases hloop
  | succ fuel ih =>
    rcases loop_cases hloop with ⟨-, rfl, rfl⟩ | ⟨chan, ch, hchan, hpass⟩
    · exact ⟨rfl, rfl⟩
    have hheld := hset.held chan hchan.lt
    have hreceive : (chans chan).receive = (chans chan, some false) := by
      rw [RxChannel.receive, if_pos hheld]
    obtain ⟨t, htime⟩ := hset.time
    rcases hpass with ⟨hbad, -⟩ | ⟨seqError, hgot, hpass⟩
    · cases (Prod.mk.inj (hreceive.symm.trans hbad)).2
    obtain ⟨hch, hseq⟩ := Prod.mk.inj (hreceive.symm.trans hgot)
    rw [← hch, Function.update_eq_self] at hpass
    rw [← Option.some.inj hseq] at hpass
    rcases hpass with ⟨hnone, -⟩ | ⟨-, hpass⟩
    · rw [hnone] at hheld
      cases hheld
    -- whatever the packet is compared with, nothing is released
    obtain ⟨v₁, halign⟩ : ∃ v₁, alignPacket numChans v chans chan = some (v₁, chans) := by
      rcases alignPacket_cases numChans v chans chan with
        ⟨-, hsome⟩ | ⟨htsf, ⟨hrestarts, hcase⟩ | ⟨hvalid, -, ⟨-, hsome⟩ | ⟨hlt, -⟩⟩⟩
      · exact ⟨_, hsome⟩
      · obtain ⟨heq, hprev⟩ := htime chan hchan.lt htsf
        have hinvalid : v.timeValid = false := by
          rcases hrestarts with hinvalid | hback | hlater
          · exact hinvalid
          · omega
          · refine Bool.eq_false_iff.mpr fun hvalid => ?_
            obtain ⟨i, hi, -, hhas, htsfI⟩ := h.valid hvalid
            have heqI := (htime i hi hhas).1
            omega
        obtain ⟨hiter, hnone⟩ := h.invalid hinvalid
        rcases hcase with ⟨hlt, -⟩ | ⟨-, hsome⟩
        · rw [hiter] at hlt
          exact absurd hlt (by decide)
        · rw [update_setPrevTsf_eq (hprev.trans heq.symm)] at hsome
          refine ⟨_, hsome.trans (congrArg some (Prod.ext rfl (funext fun i => if_neg ?_)))⟩
          rintro ⟨hi, hto, hhas⟩
          cases (hnone i hi hto).symm.trans hhas
      · obtain ⟨heq, hprev⟩ := htime chan hchan.lt htsf
        rw [update_setPrevTsf_eq (hprev.trans heq.symm)] at hsome
        exact ⟨_, hsome⟩
      · obtain ⟨i, hi, -, hhas, htsfI⟩ := h.valid hvalid
        have heqI := (htime i hi hhas).1
        have heq := (htime chan hchan.lt htsf).1
        omega
    have hnext := passRule_aligning.align v chans chan v₁ chans h hchan hheld trivial halign
    rcases hpass with ⟨hnone, -⟩ | ⟨v₂, chans₂, halign', hpass⟩
    · cases hnone.symm.trans halign
    obtain ⟨rfl, rfl⟩ := Prod.mk.inj (Option.some.inj (halign.symm.trans halign'))
    rcases hpass with ⟨hseq', -⟩ | ⟨-, hloop⟩
    · cases hseq'
    · exact ih hnext hloop

theorem getAlignedBuffs_of_alignedSet (hset : AlignedSet numChans chans)
    (h : getAlignedBuffs ignoreSeqErr numChans fuel chans = some (chans', result)) :
    chans' = chans ∧ result = .success :=
  loop_of_alignedSet hset (aligning_start numChans chans) h

end GetAlignedBuffs
end Transport
end UhdHost
