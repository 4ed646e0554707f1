import Mathlib.Data.Prod.Lex
import UhdHost.Transport.AlignedTimes

/-!
# Setting the device time back while streaming

Every channel delivers packets with increasing timestamps from before the change, and then
packets with the same increasing timestamps on all channels.  A packet that is behind the one
before on its channel makes the alignment start over.

The order in which packets were really taken is that of keys (`changeKey`): the side of the
change first, then the timestamp.  Comparing timestamps gets it right as long as the channels
that are compared are on the same side, or a packet from after the change starts the alignment
over with only packets from before aligned.  In a run in which every pass gets it right, nothing
from after the change is lost (`recovered_of_run`).  On one channel that is always so
(`everyPass_of_one_channel`).

It is not so where the channels go over to the new time one after the other: the first packet of
the second channel is behind its own channel too, and starting over releases the packet of the
first channel that it should be aligned with (`first_packet_lost`).
-/

namespace UhdHost
namespace Transport

open GetAlignedBuffs SortedStreams Transition

variable {δ : Type}

/-- The side of the change a packet is on, and its timestamp. -/
def changeKey (old : ℕ → List ℕ) (c frame : ℕ) (info : RxPacketInfo δ) : Bool ×ₗ ℕ :=
  toLex (decide ((old c).length ≤ frame), info.tsf)

/-- The timestamps on one side of the change. -/
def sideTimes (new : Bool) (keys : List (Bool ×ₗ ℕ)) : List ℕ :=
  (keys.filter fun k => (ofLex k).1 == new).map fun k => (ofLex k).2

/-- The device time is set back: on every channel there are timestamps from before, and the same
timestamps from after the change. -/
structure TimeChange (numChans : ℕ) (streams : ℕ → List (RxEvent δ)) (old : ℕ → List ℕ)
    (new : List ℕ) : Prop where
  timed : AllTimed numChans streams
  tsf : ∀ c < numChans, (packetsOf (streams c)).map RxPacketInfo.tsf = old c ++ new
  oldIncreasing : ∀ c < numChans, (old c).Pairwise (· < ·)
  newIncreasing : new.Pairwise (· < ·)

/-- What is promised of a run of so many calls: only packets from before the change that have no
partner are discarded. -/
structure Aligner.Recovered (numChans : ℕ) (streams : ℕ → List (RxEvent δ)) (old : ℕ → List ℕ)
    (new : List ℕ) (calls : ℕ) (a : Aligner δ) : Prop where
  sets : ∀ set ∈ a.sets, set.Aligned numChans streams
  /-- The packets of a set are on the same side of the change. -/
  sides : ∀ set ∈ a.sets, ∀ c < numChans, ∀ d < numChans, ∀ frameC frameD,
    set.frames c = some frameC → set.frames d = some frameD →
      ((old c).length ≤ frameC ↔ (old d).length ≤ frameD)
  /-- The new timestamps come out in order, and the others are still there. -/
  returned : ∀ c < numChans, sideTimes true (a.keys (changeKey old) numChans) ++
    sideTimes true ((a.chans c).keys (changeKey old c)) = new
  /-- After enough calls all of them have come out. -/
  eventually : total numChans load (Aligner.start streams).chans < calls →
    sideTimes true (a.keys (changeKey old) numChans) = new
  /-- An old timestamp that is on all channels has come out when it is gone from one. -/
  matched : ∀ t, (∀ c < numChans, t ∈ old c) → ∀ c < numChans,
    t ∉ sideTimes false ((a.chans c).keys (changeKey old c)) →
      t ∈ sideTimes false (a.keys (changeKey old) numChans)

/-! ## Keys in order -/

theorem mem_sideTimes {new : Bool} {keys : List (Bool ×ₗ ℕ)} {t : ℕ} :
    t ∈ sideTimes new keys ↔ toLex (new, t) ∈ keys := by
  rw [sideTimes, List.mem_map]
  constructor
  · rintro ⟨k, hk, rfl⟩
    obtain ⟨hk, hside⟩ := List.mem_filter.mp hk
    rw [← beq_iff_eq.mp hside]
    exact hk
  · intro hk
    exact ⟨toLex (new, t), List.mem_filter.mpr ⟨hk, beq_self_eq_true new⟩, rfl⟩

theorem keysFrom_append (key : ℕ → RxPacketInfo δ → Bool ×ₗ ℕ) (frame : ℕ)
    (ps qs : List (RxPacketInfo δ)) : keysFrom key frame (ps ++ qs) =
      keysFrom key frame ps ++ keysFrom key (frame + ps.length) qs := by
  induction ps generalizing frame with
  | nil => rfl
  | cons p ps ih =>
    have hnext : frame + 1 + ps.length = frame + (ps.length + 1) := by omega
    rw [List.cons_append, keysFrom, keysFrom, ih, List.length_cons, hnext]
    split_ifs
    · rfl
    · rfl

theorem keysFrom_side {old : ℕ → List ℕ} {c : ℕ} (new : Bool) (frame : ℕ)
    (ps : List (RxPacketInfo δ)) (htimed : ∀ p ∈ ps, p.hasTsf = true)
    (hside : ∀ i, frame ≤ i → i < frame + ps.length → decide ((old c).length ≤ i) = new) :
    keysFrom (changeKey old c) frame ps =
      (ps.map RxPacketInfo.tsf).map fun t => toLex (new, t) := by
  induction ps generalizing frame with
  | nil => rfl
  | cons p ps ih =>
    obtain ⟨hp, hps⟩ := List.forall_mem_cons.mp htimed
    have hfirst : changeKey old c frame p = toLex (new, p.tsf) := by
      rw [changeKey, hside frame (Nat.le_refl _) (by rw [List.length_cons]; omega)]
    rw [keysFrom, if_pos hp, hfirst, List.map_cons, List.map_cons,
      ih (frame + 1) hps fun i hi hlt => hside i (by omega) (by rw [List.length_cons]; omega)]

variable {ignoreSeqErr : Bool} {numChans fuel : ℕ} {chans : ℕ → RxChannel δ}
  {streams : ℕ → List (RxEvent δ)} {old : ℕ → List ℕ} {new : List ℕ} {a : Aligner δ}

theorem TimeChange.streamKeys_eq (h : TimeChange numChans streams old new) (c : Fin numChans) :
    streamKeys (changeKey old) numChans streams c =
      (old c).map (fun t => toLex (false, t)) ++ new.map fun t => toLex (true, t) := by
  have htsf := h.tsf c c.isLt
  have htimed := h.timed c c.isLt
  obtain ⟨before, after, hsplit, hbefore, hafter⟩ := List.map_eq_append_iff.mp htsf
  have hlen : before.length = (old c).length := by rw [← hbefore, List.length_map]
  rw [hsplit] at htimed
  rw [streamKeys, hsplit, keysFrom_append,
    keysFrom_side false 0 before (fun p hp => htimed p (List.mem_append_left _ hp))
      (fun i _ hi => decide_eq_false (by omega)),
    keysFrom_side true _ after (fun p hp => htimed p (List.mem_append_right _ hp))
      (fun i hi _ => decide_eq_true (by omega)), hbefore, hafter]

theorem TimeChange.sorted (h : TimeChange numChans streams old new) (c : Fin numChans) :
    (streamKeys (changeKey old) numChans streams c).Pairwise (· < ·) := by
  have hside : ∀ (side : Bool) (ts : List ℕ), ts.Pairwise (· < ·) →
      (ts.map fun t => toLex (side, t)).Pairwise (· < ·) := fun side ts hts =>
    hts.map _ fun s t hst => Prod.Lex.toLex_lt_toLex.mpr (Or.inr ⟨rfl, hst⟩)
  rw [h.streamKeys_eq c]
  refine List.pairwise_append.mpr ⟨hside false _ (h.oldIncreasing c c.isLt),
    hside true _ h.newIncreasing, fun k hk u hu => ?_⟩
  obtain ⟨s, -, rfl⟩ := List.mem_map.mp hk
  obtain ⟨t, -, rfl⟩ := List.mem_map.mp hu
  exact Prod.Lex.toLex_lt_toLex.mpr (Or.inl Bool.false_lt_true)

theorem TimeChange.filter_new (h : TimeChange numChans streams old new) (c : Fin numChans) :
    (streamKeys (changeKey old) numChans streams c).filter (fun k => (ofLex k).1 == true) =
      new.map fun t => toLex (true, t) := by
  rw [h.streamKeys_eq c, List.filter_append, List.filter_eq_nil_iff.mpr, List.nil_append,
    List.filter_eq_self.mpr]
  · intro k hk
    obtain ⟨t, -, rfl⟩ := List.mem_map.mp hk
    rfl
  · intro k hk
    obtain ⟨t, -, rfl⟩ := List.mem_map.mp hk
    exact Bool.false_ne_true

/-! ## Runs -/

/-- **Where every pass gets the order right, nothing from after the change is lost.** -/
theorem recovered_of_run (hchans : 0 < numChans) (h : TimeChange numChans streams old new)
    {calls : List ℕ}
    (hrun : run (Aligner.step ignoreSeqErr numChans) (Aligner.start streams) calls = some a)
    (hgood : EveryStep (Aligner.step ignoreSeqErr numChans)
      (fun a fuel => EveryPass (Agrees (changeKey old) numChans) ignoreSeqErr numChans fuel {}
        a.chans) (Aligner.start streams) calls) :
    a.Recovered numChans streams old new calls.length := by
  have hinv : a.Inv (changeKey old) numChans streams := Aligner.inv_run h.sorted hgood hrun
  have hreturned : ∀ c < numChans, sideTimes true (a.keys (changeKey old) numChans) ++
      sideTimes true ((a.chans c).keys (changeKey old c)) = new := by
    intro c hc
    have hkeys := filter_returned_append hinv.skipped (hinv.joined h.timed) h.sorted hinv.sub
      h.filter_new ⟨c, hc⟩
    have htimes := congrArg (List.map fun k => (ofLex k).2) hkeys
    rw [List.map_append, List.map_map] at htimes
    refine htimes.trans ?_
    exact (List.map_congr_left fun t _ => rfl).trans (List.map_id new)
  refine ⟨hinv.sets, fun set hset c hc d hd frameC frameD hframeC hframeD => ?_, hreturned,
    fun henough => ?_, fun t ht c hc hgone => ?_⟩
  · have htimed : ∀ i < numChans, (set.infos i).hasTsf = true := fun i hi => by
      obtain ⟨frame, -, hget⟩ := (hinv.sets set hset).packet i hi
      exact h.timed i hi _ (List.mem_of_getElem? hget)
    have hkeyC := hinv.same set hset c hc frameC hframeC (htimed c hc)
    have hkeyD := hinv.same set hset d hd frameD hframeD (htimed d hd)
    have hsides := congrArg (fun k : Bool ×ₗ ℕ => (ofLex k).1)
      (Option.some.inj (hkeyC.symm.trans hkeyD))
    exact decide_eq_decide.mp hsides
  · obtain ⟨c, hc, hzero⟩ := Aligner.exhausted_of_run hchans hrun henough
    have hall := hreturned c hc
    rwa [keys_of_load_eq_zero hzero, sideTimes, sideTimes, List.filter_nil, List.map_nil,
      List.append_nil] at hall
  · refine mem_sideTimes.mpr (hinv.skipped _ (fun i => ?_) ⟨c, hc⟩ fun hk => ?_)
    · rw [h.streamKeys_eq i]
      exact List.mem_append_left _ (List.mem_map.mpr ⟨t, ht i i.isLt, rfl⟩)
    · exact hgone (mem_sideTimes.mpr hk)

/-- The first channel has one more packet from before the change, and then a gap, in which the
second channel has gone over to the new time. -/
def setBackInGap (chan : ℕ) : List (RxEvent ℕ) :=
  if chan = 0 then [timed 50, timed 100, .timeout, timed 1, timed 2]
  else [timed 50, timed 1, timed 2]

theorem recovered_in_gap : ∃ a,
    run (Aligner.step false 2) (Aligner.start setBackInGap) (List.replicate 20 20) = some a ∧
      a.times 2 = [50, 1, 2] ∧
      a.Recovered 2 setBackInGap (fun c => if c = 0 then [50, 100] else [50]) [1, 2] 20 := by
  obtain ⟨a, hrun, htimes⟩ := Option.map_eq_some_iff.mp
    (by decide +kernel : (run (Aligner.step false 2) (Aligner.start setBackInGap)
      (List.replicate 20 20)).map (fun a => a.times 2) = some [50, 1, 2])
  exact ⟨a, hrun, htimes, recovered_of_run (by decide)
    ⟨by decide, by decide, by decide, by decide⟩ hrun (by decide +kernel)⟩

/-- Two channels that are in step all the time. -/
def setBackInStep (_chan : ℕ) : List (RxEvent ℕ) := [timed 100, timed 1, timed 2, timed 3]

/-- The first timestamp after the change is on both channels, and both have released its packet,
but it did not come out. -/
theorem first_packet_lost : ∃ a,
    run (Aligner.step false 2) (Aligner.start setBackInStep) (List.replicate 20 20) = some a ∧
      TimeChange 2 setBackInStep (fun _ => [100]) [1, 2, 3] ∧ a.times 2 = [100, 2, 3] ∧
      (a.chans 0).released = [0, 1, 2, 3] ∧ (a.chans 1).released = [0, 1, 2, 3] ∧
      ¬ a.Recovered 2 setBackInStep (fun _ => [100]) [1, 2, 3] 20 := by
  obtain ⟨a, hrun, ha⟩ := Option.map_eq_some_iff.mp
    (by decide +kernel : (run (Aligner.step false 2) (Aligner.start setBackInStep)
      (List.replicate 20 20)).map (fun a => (a.times 2, (a.chans 0).released,
        (a.chans 1).released, sideTimes true (a.keys (changeKey fun _ => [100]) 2))) =
          some ([100, 2, 3], [0, 1, 2, 3], [0, 1, 2, 3], [2, 3]))
  obtain ⟨htimes, hrest⟩ := Prod.mk.inj ha
  obtain ⟨hreleased₀, hrest⟩ := Prod.mk.inj hrest
  obtain ⟨hreleased₁, hnew⟩ := Prod.mk.inj hrest
  refine ⟨a, hrun, ⟨by decide, by decide, by decide, by decide⟩, htimes,
    hreleased₀, hreleased₁, fun hrecovered => ?_⟩
  have hall := hrecovered.eventually (by decide)
  rw [hnew] at hall
  exact absurd hall (by decide)

end Transport
end UhdHost
