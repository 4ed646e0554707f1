import Mathlib
import UhdHost.Transport.AlignmentPasses

/-!
# The frames of a channel

Every frame that a channel has received is released once or still held, and the packets that
come out of a channel are those of its stream, in order (`Tracks`).  This holds of whatever is
done to a channel: receiving, releasing, and the bookkeeping of the alignment
(`channelRule_tracks`).

The second part counts.  `total` adds up something over the channels, and a pass changes one
summand (`total_update`).  Receiving takes an event off one channel, and comparing only
releases; so a call of `getAlignedBuffs` ends (`getAlignedBuffs_ends`), and it either succeeds
or has taken something off the channels, unless one of them has nothing left
(`getAlignedBuffs_progress`).
-/

namespace UhdHost
namespace Transport

variable {δ : Type}

/-! ## The packets of a stream -/

/-- The channel has taken its frames from this stream. -/
structure RxChannel.Tracks (stream : List (RxEvent δ)) (ch : RxChannel δ) : Prop where
  toCome : packetsOf ch.events = (packetsOf stream).drop ch.received
  /-- Every frame was released once or is held. -/
  frames : ch.released ++ ch.frameBuff.toList = List.range ch.received
  held : ∀ frame, ch.frameBuff = some frame → (packetsOf stream)[frame]? = some ch.info

namespace RxChannel.Tracks

variable {stream : List (RxEvent δ)} {ch : RxChannel δ}

theorem held_last (h : ch.Tracks stream) {frame : ℕ} (hframe : ch.frameBuff = some frame) :
    ch.received = frame + 1 ∧ ch.released = List.range frame := by
  have hframes := h.frames
  rw [hframe, Option.toList_some] at hframes
  cases hreceived : ch.received with
  | zero =>
    rw [hreceived, List.range_zero] at hframes
    exact absurd hframes (by simp)
  | succ n =>
    rw [hreceived, List.range_succ] at hframes
    obtain ⟨hreleased, hlast⟩ := List.append_inj' hframes rfl
    obtain rfl : frame = n := by simpa using hlast
    exact ⟨rfl, hreleased⟩

theorem released_of_none (h : ch.Tracks stream) (hframe : ch.frameBuff = none) :
    ch.released = List.range ch.received := by
  have hframes := h.frames
  rwa [hframe, Option.toList_none, List.append_nil] at hframes

theorem pending_eq_drop (h : ch.Tracks stream) :
    ch.pending = (packetsOf stream).drop ch.released.length := by
  cases hframe : ch.frameBuff with
  | none =>
    rw [pending_of_isNone (by rw [hframe]; rfl), h.toCome, h.released_of_none hframe,
      List.length_range]
  | some frame =>
    obtain ⟨hreceived, hreleased⟩ := h.held_last hframe
    obtain ⟨hlt, hget⟩ := List.getElem?_eq_some_iff.mp (h.held frame hframe)
    rw [pending_of_isSome (by rw [hframe]; rfl), h.toCome, hreceived, hreleased,
      List.length_range, List.drop_eq_getElem_cons hlt, hget]

end RxChannel.Tracks

theorem tracks_start (stream : List (RxEvent δ)) :
    ({ events := stream } : RxChannel δ).Tracks stream where
  toCome := rfl
  frames := rfl
  held _ h := nomatch h

theorem tracks_releaseRecvBuff {stream : List (RxEvent δ)} {ch : RxChannel δ}
    (h : ch.Tracks stream) : ch.releaseRecvBuff.Tracks stream where
  toCome := h.toCome
  frames := (List.append_nil _).trans h.frames
  held _ hframe := nomatch hframe

theorem tracks_getRecvBuff {stream : List (RxEvent δ)} {ch : RxChannel δ} (h : ch.Tracks stream)
    (hnone : ch.frameBuff = none) {info : RxPacketInfo δ} {seqError : Bool}
    {events : List (RxEvent δ)} (hevents : ch.events = .packet info seqError :: events) :
    ({ ch with
      events := events
      frameBuff := some ch.received
      info := info
      received := ch.received + 1 } : RxChannel δ).Tracks stream := by
  have hdrop : info :: packetsOf events = (packetsOf stream).drop ch.received := by
    rw [← h.toCome, hevents]
    rfl
  refine ⟨?_, ?_, fun frame hframe => ?_⟩
  · show packetsOf events = (packetsOf stream).drop (ch.received + 1)
    rw [← List.tail_drop, ← hdrop, List.tail_cons]
  · show ch.released ++ [ch.received] = List.range (ch.received + 1)
    rw [h.released_of_none hnone, List.range_succ]
  · obtain rfl := Option.some.inj hframe
    rw [← List.head?_drop, ← hdrop, List.head?_cons]

theorem channelRule_tracks (stream : List (RxEvent δ)) :
    GetAlignedBuffs.ChannelRule (RxChannel.Tracks stream) where
  receive ch ch' r h hreceive := by
    rcases GetAlignedBuffs.receive_cases ch with ⟨-, hget⟩ | ⟨hnone, -, hget⟩ |
      ⟨events, hnone, hevents, hget⟩ | ⟨events, hnone, hevents, hget⟩ |
      ⟨info, seqError, events, hnone, hevents, hget⟩
    all_goals obtain ⟨rfl, rfl⟩ := Prod.mk.inj (hget.symm.trans hreceive)
    · exact h
    · exact ⟨h.toCome, h.frames, fun frame hframe => by cases hnone.symm.trans hframe⟩
    · refine ⟨?_, h.frames, fun frame hframe => by cases hnone.symm.trans hframe⟩
      rw [← h.toCome, hevents]
      rfl
    · refine ⟨?_, h.frames, fun frame hframe => by cases hnone.symm.trans hframe⟩
      rw [← h.toCome, hevents]
      rfl
    · exact tracks_getRecvBuff h hnone hevents
  release _ h := tracks_releaseRecvBuff h
  setPrevTsf _ h _ _ := ⟨h.toCome, h.frames, h.held⟩

/-! ## Counting over the channels -/

namespace GetAlignedBuffs

/-- Something added up over the channels. -/
def total (numChans : ℕ) (f : RxChannel δ → ℕ) (chans : ℕ → RxChannel δ) : ℕ :=
  ∑ c ∈ Finset.range numChans, f (chans c)

variable {ignoreSeqErr : Bool} {numChans fuel chan : ℕ} {v v' : AlignVars}
  {chans chans' : ℕ → RxChannel δ} {ch ch' : RxChannel δ} {result : AlignmentResult}

theorem total_update (f : RxChannel δ → ℕ) (chans : ℕ → RxChannel δ) (hchan : chan < numChans)
    (ch : RxChannel δ) : total numChans f (Function.update chans chan ch) + f (chans chan) =
      total numChans f chans + f ch := by
  have hmem : chan ∈ Finset.range numChans := Finset.mem_range.mpr hchan
  have hrest : ∑ c ∈ (Finset.range numChans).erase chan, f (Function.update chans chan ch c) =
      ∑ c ∈ (Finset.range numChans).erase chan, f (chans c) :=
    Finset.sum_congr rfl fun c hc => by rw [Function.update_of_ne (Finset.ne_of_mem_erase hc)]
  rw [total, total, ← Finset.add_sum_erase _ _ hmem, ← Finset.add_sum_erase _ (fun c => f (chans c))
    hmem, hrest, Function.update_self]
  omega

theorem total_update_of_eq {f : RxChannel δ → ℕ} (hchan : chan < numChans)
    (h : f ch = f (chans chan)) :
    total numChans f (Function.update chans chan ch) = total numChans f chans := by
  have hsum := total_update f chans hchan ch
  omega

theorem total_congr {f : RxChannel δ → ℕ} (h : ∀ c < numChans, f (chans' c) = f (chans c)) :
    total numChans f chans' = total numChans f chans :=
  Finset.sum_congr rfl fun c hc => h c (Finset.mem_range.mp hc)

theorem total_le {f : RxChannel δ → ℕ} (h : ∀ c < numChans, f (chans' c) ≤ f (chans c)) :
    total numChans f chans' ≤ total numChans f chans :=
  Finset.sum_le_sum fun c hc => h c (Finset.mem_range.mp hc)

theorem total_lt {f : RxChannel δ → ℕ} (h : ∀ c < numChans, f (chans' c) ≤ f (chans c))
    (hchan : chan < numChans) (hlt : f (chans' chan) < f (chans chan)) :
    total numChans f chans' < total numChans f chans :=
  Finset.sum_lt_sum (fun c hc => h c (Finset.mem_range.mp hc))
    ⟨chan, Finset.mem_range.mpr hchan, hlt⟩

/-- What a channel still has: packets that were not released, and events. -/
def load (ch : RxChannel δ) : ℕ := ch.pending.length + ch.events.length

theorem length_packetsOf_cons (e : RxEvent δ) (events : List (RxEvent δ)) :
    (packetsOf events).length ≤ (packetsOf (e :: events)).length := by
  cases e with
  | timeout => exact Nat.le_refl _
  | badPacket => exact Nat.le_refl _
  | packet info seqError => exact Nat.le_succ _

theorem load_receive {r : Option Bool} (h : ch.receive = (ch', r)) :
    ch'.pending = ch.pending ∧ (load ch' < load ch ∨
      r = some false ∧ ch'.events = ch.events ∧ ch'.frameBuff = ch.frameBuff ∧
        (ch.frameBuff.isSome = true ∧ ch' = ch ∨ ch.frameBuff = none ∧ ch.events = [])) := by
  rcases receive_cases ch with ⟨hheld, hget⟩ | ⟨hnone, hevents, hget⟩ |
    ⟨events, hnone, hevents, hget⟩ | ⟨events, hnone, hevents, hget⟩ |
    ⟨info, seqError, events, hnone, hevents, hget⟩
  all_goals obtain ⟨rfl, rfl⟩ := Prod.mk.inj (hget.symm.trans h)
  · exact ⟨rfl, Or.inr ⟨rfl, rfl, rfl, Or.inl ⟨hheld, rfl⟩⟩⟩
  · have hpending : ({ ch with info := {} } : RxChannel δ).pending = ch.pending := by
      simp [RxChannel.pending, hnone]
    exact ⟨hpending, Or.inr ⟨rfl, rfl, rfl, Or.inr ⟨hnone, hevents⟩⟩⟩
  all_goals
    refine ⟨by simp [RxChannel.pending, hnone, hevents, packetsOf], Or.inl ?_⟩
    simp [load, RxChannel.pending, hnone, hevents, packetsOf]

theorem load_releaseRecvBuff_le (ch : RxChannel δ) : load ch.releaseRecvBuff ≤ load ch := by
  rw [load, load, pending_releaseRecvBuff, RxChannel.pending, List.length_append]
  exact Nat.add_le_add_right (Nat.le_add_left ..) _

theorem load_releaseRecvBuff_lt (h : ch.frameBuff.isSome = true) :
    load ch.releaseRecvBuff < load ch := by
  rw [load, load, pending_releaseRecvBuff, pending_of_isSome h, List.length_cons]
  exact Nat.add_lt_add_right (Nat.lt_succ_self _) _

theorem load_setPrevTsf (ch : RxChannel δ) : load ch.setPrevTsf = load ch := rfl

theorem load_receive_le {r : Option Bool} (h : ch.receive = (ch', r)) : load ch' ≤ load ch := by
  obtain ⟨hpending, hlt | ⟨-, hevents, -⟩⟩ := load_receive h
  · exact Nat.le_of_lt hlt
  · rw [load, load, hpending, hevents]

theorem receive_released {r : Option Bool} (h : ch.receive = (ch', r)) :
    ch'.released = ch.released := by
  rcases receive_cases ch with ⟨-, hget⟩ | ⟨-, -, hget⟩ | ⟨_, -, -, hget⟩ | ⟨_, -, -, hget⟩ |
    ⟨_, _, _, -, -, hget⟩
  all_goals
    obtain ⟨rfl, -⟩ := Prod.mk.inj (hget.symm.trans h)
    rfl

theorem length_released_of_held (hheld : ch.frameBuff.isSome = true) :
    ch.releaseRecvBuff.released.length = ch.released.length + 1 := by
  obtain ⟨frame, hframe⟩ := Option.isSome_iff_exists.mp hheld
  rw [RxChannel.releaseRecvBuff, hframe, Option.toList_some, List.length_append,
    List.length_singleton]

theorem channelRule_load_le (most : ℕ) :
    ChannelRule fun ch : RxChannel δ => load ch ≤ most where
  receive _ _ _ h hreceive := (load_receive_le hreceive).trans h
  release ch h := (load_releaseRecvBuff_le ch).trans h
  setPrevTsf _ h _ _ := h

theorem total_load_releaseAligned_lt (h : Aligning numChans v chans) (hvalid : v.timeValid = true)
    (hto : v.channelsToAlign chan = true) (ch : RxChannel δ) (hload : load ch = load (chans chan)) :
    total numChans load (releaseAligned numChans v (Function.update chans chan ch)) <
      total numChans load chans := by
  obtain ⟨i, hi, htoI, hhas, -⟩ := h.valid hvalid
  have hne : i ≠ chan := fun hic => by
    rw [hic, hto] at htoI
    cases htoI
  have hupdate : ∀ c, load (Function.update chans chan ch c) = load (chans c) := by
    intro c
    by_cases hc : c = chan
    · rw [hc, Function.update_self, hload]
    · rw [Function.update_of_ne hc]
  refine total_lt (fun c _ => ?_) hi ?_
  · unfold releaseAligned
    split_ifs
    · exact (load_releaseRecvBuff_le _).trans_eq (hupdate c)
    · exact (hupdate c).le
  · have hheld := h.held i hi htoI
    rw [releaseAligned, Function.update_of_ne hne, if_pos ⟨hi, htoI, hhas⟩]
    exact load_releaseRecvBuff_lt hheld

theorem total_load_releaseAligned_le (numChans : ℕ) (v : AlignVars) (chans : ℕ → RxChannel δ) :
    total numChans load (releaseAligned numChans v chans) ≤ total numChans load chans := by
  refine total_le fun c _ => ?_
  unfold releaseAligned
  split_ifs
  · exact load_releaseRecvBuff_le _
  · exact Nat.le_refl _

/-! ## A call ends -/

/-- The passes that are left: the alignment starts over a bounded number of times, a pass aligns
a channel, or it releases a packet. -/
def alignBudget (numChans : ℕ) (v : AlignVars) (chans : ℕ → RxChannel δ) : ℕ :=
  (alignmentFailureThreshold + 1 - v.iterations) * (numChans + 1) +
    (List.range numChans).countP v.channelsToAlign +
    total numChans (fun ch => ch.pending.length) chans

theorem alignBudget_lt (hchan : v.Examines numChans chan)
    (hheld : (chans chan).frameBuff.isSome = true)
    (h : alignPacket numChans v chans chan = some (v', chans')) :
    alignBudget numChans v' chans' < alignBudget numChans v chans := by
  have hcount := countP_update hchan.lt hchan.toAlign
  have hmark : (List.range numChans).countP (v.mark chan).channelsToAlign + 1 =
      (List.range numChans).countP v.channelsToAlign := hcount
  have hset : total numChans (fun ch => ch.pending.length)
      (Function.update chans chan (chans chan).setPrevTsf) =
        total numChans (fun ch => ch.pending.length) chans := total_update_of_eq hchan.lt rfl
  rcases alignPacket_cases numChans v chans chan with
    ⟨-, hsome⟩ | ⟨-, ⟨-, ⟨-, hnone⟩ | ⟨hiter, hsome⟩⟩ | ⟨-, -, ⟨-, hsome⟩ | ⟨-, hsome⟩⟩⟩
  · obtain ⟨rfl, rfl⟩ := Prod.mk.inj (Option.some.inj (hsome.symm.trans h))
    simp only [alignBudget, AlignVars.mark] at hmark ⊢
    omega
  · cases hnone.symm.trans h
  · obtain ⟨rfl, rfl⟩ := Prod.mk.inj (Option.some.inj (hsome.symm.trans h))
    have hrestart := countP_ne_lt hchan.lt
    have hreleased : total numChans (fun ch => ch.pending.length) (releaseAligned numChans v
        (Function.update chans chan (chans chan).setPrevTsf)) ≤
          total numChans (fun ch => ch.pending.length) chans := by
      rw [← hset]
      refine total_le fun c _ => ?_
      unfold releaseAligned
      split_ifs
      · rw [pending_releaseRecvBuff, RxChannel.pending, List.length_append]
        exact Nat.le_add_left ..
      · exact Nat.le_refl _
    have hleft : alignmentFailureThreshold + 1 - v.iterations =
        (alignmentFailureThreshold + 1 - (v.iterations + 1)) + 1 := by omega
    simp only [alignBudget, AlignVars.restart]
    rw [hleft, Nat.add_mul, Nat.one_mul]
    omega
  · obtain ⟨rfl, rfl⟩ := Prod.mk.inj (Option.some.inj (hsome.symm.trans h))
    simp only [alignBudget, AlignVars.mark] at hmark ⊢
    omega
  · obtain ⟨rfl, rfl⟩ := Prod.mk.inj (Option.some.inj (hsome.symm.trans h))
    have hdropped := total_update (fun ch => ch.pending.length) chans hchan.lt
      (chans chan).setPrevTsf.releaseRecvBuff
    have hlt : (chans chan).setPrevTsf.releaseRecvBuff.pending.length <
        (chans chan).pending.length := by
      rw [pending_releaseRecvBuff, pending_of_isSome hheld, List.length_cons]
      exact Nat.lt_succ_self _
    simp only [alignBudget]
    omega

theorem loop_ends (ignoreSeqErr : Bool) (hfuel : alignBudget numChans v chans < fuel) :
    ∃ chans' result, loop ignoreSeqErr numChans fuel v chans = some (chans', result) := by
  induction fuel generalizing v chans with
  | zero => exact absurd hfuel (Nat.not_lt_zero _)
  | succ fuel ih =>
    rw [loop]
    rcases hfind : (List.range numChans).find? v.channelsToAlign with - | chan
    · exact ⟨_, _, rfl⟩
    have hchan : v.Examines numChans chan := hfind
    rcases hreceive : (chans chan).receive with ⟨ch, - | seqError⟩
    · simp only [hreceive]
      exact ⟨_, _, rfl⟩
    simp only [hreceive]
    by_cases hnone : ch.frameBuff.isNone
    · rw [if_pos hnone]
      exact ⟨_, _, rfl⟩
    rw [if_neg hnone]
    rcases halign : alignPacket numChans v (Function.update chans chan ch) chan with
      - | ⟨v₁, chans₁⟩
    · exact ⟨_, _, rfl⟩
    simp only []
    by_cases hseq : (seqError && !ignoreSeqErr) = true
    · rw [if_pos hseq]
      exact ⟨_, _, rfl⟩
    rw [if_neg hseq]
    have hheld : (Function.update chans chan ch chan).frameBuff.isSome = true := by
      rw [Function.update_self]
      simpa [Option.isSome_iff_ne_none] using hnone
    have hlt := alignBudget_lt hchan hheld halign
    have hsame : alignBudget numChans v (Function.update chans chan ch) =
        alignBudget numChans v chans := by
      rw [alignBudget, total_update_of_eq hchan.lt (congrArg List.length (load_receive hreceive).1)]
      rfl
    exact ih (by omega)

theorem getAlignedBuffs_ends (ignoreSeqErr : Bool) (numChans : ℕ) (chans : ℕ → RxChannel δ) :
    ∃ passes, ∀ fuel, passes < fuel →
      ∃ chans' result, getAlignedBuffs ignoreSeqErr numChans fuel chans = some (chans', result) :=
  ⟨alignBudget numChans {} chans, fun _ hfuel => loop_ends ignoreSeqErr hfuel⟩

/-! ## A call takes something -/

/-- The call has not added to the channels, and the alignment has not started over more often
than packets were released. -/
structure Spent (numChans most : ℕ) (v : AlignVars) (chans : ℕ → RxChannel δ) : Prop where
  le : total numChans load chans ≤ most
  iterations : total numChans load chans + v.iterations ≤ most + 1

theorem Spent.align {most : ℕ} (h : Spent numChans most v chans)
    (haligning : Aligning numChans v chans) (hchan : v.Examines numChans chan)
    (halign : alignPacket numChans v chans chan = some (v', chans')) :
    Spent numChans most v' chans' := by
  obtain ⟨hle, hiter⟩ := h
  have hset : total numChans load (Function.update chans chan (chans chan).setPrevTsf) =
      total numChans load chans := total_update_of_eq hchan.lt (load_setPrevTsf _)
  rcases alignPacket_cases numChans v chans chan with
    ⟨-, hsome⟩ | ⟨-, ⟨-, ⟨-, hnone⟩ | ⟨-, hsome⟩⟩ | ⟨-, -, ⟨-, hsome⟩ | ⟨-, hsome⟩⟩⟩
  · obtain ⟨rfl, rfl⟩ := Prod.mk.inj (Option.some.inj (hsome.symm.trans halign))
    exact ⟨hle, hiter⟩
  · cases hnone.symm.trans halign
  · obtain ⟨rfl, rfl⟩ := Prod.mk.inj (Option.some.inj (hsome.symm.trans halign))
    have hreleased := total_load_releaseAligned_le numChans v
      (Function.update chans chan (chans chan).setPrevTsf)
    rw [hset] at hreleased
    refine ⟨hreleased.trans hle, ?_⟩
    show total numChans load _ + (v.iterations + 1) ≤ most + 1
    cases hvalid : v.timeValid with
    | true =>
      have hlt := total_load_releaseAligned_lt haligning hvalid hchan.toAlign
        (chans chan).setPrevTsf (load_setPrevTsf _)
      omega
    | false =>
      rw [(haligning.invalid hvalid).1]
      omega
  · obtain ⟨rfl, rfl⟩ := Prod.mk.inj (Option.some.inj (hsome.symm.trans halign))
    exact ⟨hset.trans_le hle, by rw [hset]; exact hiter⟩
  · obtain ⟨rfl, rfl⟩ := Prod.mk.inj (Option.some.inj (hsome.symm.trans halign))
    have hdropped : total numChans load
        (Function.update chans chan (chans chan).setPrevTsf.releaseRecvBuff) ≤
          total numChans load chans := by
      refine total_le fun c _ => ?_
      by_cases hc : c = chan
      · rw [hc, Function.update_self]
        exact load_releaseRecvBuff_le _
      · rw [Function.update_of_ne hc]
    exact ⟨hdropped.trans hle, by omega⟩

theorem total_load_receive_le (hchan : chan < numChans) {r : Option Bool}
    (hreceive : (chans chan).receive = (ch, r)) :
    total numChans load (Function.update chans chan ch) ≤ total numChans load chans := by
  have hsum := total_update load chans hchan ch
  have hle := load_receive_le hreceive
  omega

theorem loop_progress {most : ℕ} (haligning : Aligning numChans v chans)
    (h : Spent numChans most v chans)
    (hloop : loop ignoreSeqErr numChans fuel v chans = some (chans', result)) :
    total numChans load chans' ≤ most ∧
      (result = .success ∨ total numChans load chans' < most ∨
        result = .timeout ∧ ∃ c < numChans, (chans' c).frameBuff = none ∧
          (chans' c).events = []) := by
  induction fuel generalizing v chans with
  | zero => cases hloop
  | succ fuel ih =>
    rcases loop_cases hloop with ⟨-, rfl, rfl⟩ | ⟨chan, ch, hchan, hpass⟩
    · exact ⟨h.le, Or.inl rfl⟩
    have hsum := total_update load chans hchan.lt ch
    have hle := h.le
    have hself : Function.update chans chan ch chan = ch := Function.update_self ..
    rcases hpass with ⟨hreceive, rfl, rfl⟩ | ⟨seqError, hreceive, hpass⟩
    · rcases (load_receive hreceive).2 with hlt | ⟨hr, -⟩
      · exact ⟨by omega, Or.inr (Or.inl (by omega))⟩
      · cases hr
    have hreceived := total_load_receive_le hchan.lt hreceive
    have hspent : Spent numChans most v (Function.update chans chan ch) :=
      ⟨hreceived.trans hle, by have := h.iterations; omega⟩
    have haligning' := haligning.update hchan.toAlign ch
    rcases hpass with ⟨hnone, rfl, rfl⟩ | ⟨hheld, hpass⟩
    · rcases (load_receive hreceive).2 with hlt | ⟨-, hevents, -, ⟨hheld, rfl⟩ | ⟨-, hempty⟩⟩
      · exact ⟨by omega, Or.inr (Or.inl (by omega))⟩
      · rw [hnone] at hheld
        cases hheld
      · refine ⟨hspent.le, Or.inr (Or.inr ⟨rfl, chan, hchan.lt, ?_, ?_⟩)⟩
        · rw [hself, hnone]
        · rw [hself, hevents, hempty]
    rcases hpass with ⟨hnone, rfl, rfl⟩ | ⟨v₁, chans₁, halign, hpass⟩
    · -- the alignment has failed: it has started over many times
      have hiter : alignmentFailureThreshold < v.iterations := by
        rcases alignPacket_cases numChans v (Function.update chans chan ch) chan with
          ⟨-, hsome⟩ | ⟨-, ⟨-, ⟨hiter, -⟩ | ⟨-, hsome⟩⟩ | ⟨-, -, ⟨-, hsome⟩ | ⟨-, hsome⟩⟩⟩
        · cases hnone.symm.trans hsome
        · exact hiter
        all_goals cases hnone.symm.trans hsome
      have hsame : total numChans load (Function.update chans chan ch.setPrevTsf) =
          total numChans load (Function.update chans chan ch) := by
        rw [← Function.update_idem (a := chan) ch ch.setPrevTsf chans]
        exact total_update_of_eq hchan.lt (by rw [hself]; exact load_setPrevTsf ch)
      have hspent' := hspent.iterations
      rw [alignmentFailureThreshold] at hiter
      rw [hsame]
      exact ⟨hspent.le, Or.inr (Or.inl (by omega))⟩
    have hspent₁ := hspent.align haligning' hchan halign
    rcases hpass with ⟨hseq, rfl, rfl⟩ | ⟨-, hloop⟩
    · -- the packet was received in this pass
      obtain rfl : seqError = true := (Bool.and_eq_true_iff.mp hseq).1
      rcases (load_receive hreceive).2 with hlt | ⟨hr, -⟩
      · have hfewer : Spent numChans (most - 1) v (Function.update chans chan ch) :=
          ⟨by omega, by have := h.iterations; omega⟩
        have hless := (hfewer.align haligning' hchan halign).le
        exact ⟨hspent₁.le, Or.inr (Or.inl (by omega))⟩
      · cases hr
    · exact ih (passRule_aligning.align v _ chan v₁ chans₁ haligning' hchan
        (by rw [hself]; exact hheld) trivial halign) hspent₁ hloop

theorem getAlignedBuffs_progress
    (h : getAlignedBuffs ignoreSeqErr numChans fuel chans = some (chans', result)) :
    total numChans load chans' ≤ total numChans load chans ∧
      (result = .success ∨ total numChans load chans' < total numChans load chans ∨
        result = .timeout ∧ ∃ c < numChans, (chans' c).frameBuff = none ∧
          (chans' c).events = []) :=
  loop_progress (aligning_start numChans chans) ⟨Nat.le_refl _, Nat.le_succ _⟩ h

end GetAlignedBuffs
end Transport
end UhdHost
