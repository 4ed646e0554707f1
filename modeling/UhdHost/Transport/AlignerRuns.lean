import UhdHost.Library.SortedStreams
import UhdHost.Library.Transition
import UhdHost.Transport.ReceivedFrames

/-!
# Runs of alignments

An `Aligner` is what calls of `getAlignedBuffs` work on, with the sets of packets that they have
come back with; the packets of such a set are released before the next call.

The packets with a time get keys from a linear order that increase along each channel.  The keys
say in which order packets were really taken; where timestamps never go back they are the
timestamps themselves.  `Agrees` says that a pass, which compares timestamps, gets the order of
the keys right.  Where all passes do, the aligner joins the streams (`Aligner.Inv`): no key that
is on all channels is skipped, and where every packet has a time they come out in order.
-/

namespace UhdHost
namespace Transport

open GetAlignedBuffs SortedStreams Transition

variable {δ : Type} {κ : Type}

/-! ## Sets of packets -/

/-- The packets of all channels that a call comes back with. -/
structure PacketSet (δ : Type) where
  frames : ℕ → Option ℕ
  infos : ℕ → RxPacketInfo δ

/-- The channels, and what calls have come back with. -/
structure Aligner (δ : Type) where
  chans : ℕ → RxChannel δ
  sets : List (PacketSet δ) := []
  results : List AlignmentResult := []

/-- The channels before anything was received. -/
def Aligner.start (streams : ℕ → List (RxEvent δ)) : Aligner δ where
  chans := fun c => { events := streams c }

/-- The packets that the channels hold. -/
def packetSet (chans : ℕ → RxChannel δ) : PacketSet δ where
  frames := fun c => (chans c).frameBuff
  infos := fun c => (chans c).info

/-- The packets that the channels hold are released. -/
def releaseAll (numChans : ℕ) (chans : ℕ → RxChannel δ) : ℕ → RxChannel δ := fun c =>
  if c < numChans then (chans c).releaseRecvBuff else chans c

/-- A call, with the passes it may take.  What it comes back with is released. -/
def Aligner.step (ignoreSeqErr : Bool) (numChans : ℕ) (a : Aligner δ) (fuel : ℕ) :
    Option (Aligner δ) :=
  (getAlignedBuffs ignoreSeqErr numChans fuel a.chans).map fun (chans, result) =>
    if result = .success then
      { chans := releaseAll numChans chans
        sets := a.sets ++ [packetSet chans]
        results := a.results ++ [result] }
    else { chans := chans, sets := a.sets, results := a.results ++ [result] }

theorem Aligner.step_cases {ignoreSeqErr : Bool} {numChans fuel : ℕ} {a a' : Aligner δ}
    (h : a.step ignoreSeqErr numChans fuel = some a') :
    ∃ chans result, getAlignedBuffs ignoreSeqErr numChans fuel a.chans = some (chans, result) ∧
      (result = .success ∧
          a' = ⟨releaseAll numChans chans, a.sets ++ [packetSet chans], a.results ++ [result]⟩ ∨
        result ≠ .success ∧ a' = ⟨chans, a.sets, a.results ++ [result]⟩) := by
  obtain ⟨⟨chans, result⟩, hcall, rfl⟩ := Option.map_eq_some_iff.mp h
  refine ⟨chans, result, hcall, ?_⟩
  by_cases hsuccess : result = .success
  · exact Or.inl ⟨hsuccess, if_pos hsuccess⟩
  · exact Or.inr ⟨hsuccess, if_neg hsuccess⟩

theorem Aligner.step_ends {ignoreSeqErr : Bool} {numChans : ℕ} (a : Aligner δ) :
    ∃ passes, ∀ fuel, passes < fuel → ∃ a', a.step ignoreSeqErr numChans fuel = some a' := by
  obtain ⟨passes, hpasses⟩ := getAlignedBuffs_ends ignoreSeqErr numChans a.chans
  refine ⟨passes, fun fuel hfuel => ?_⟩
  obtain ⟨chans, result, hcall⟩ := hpasses fuel hfuel
  exact ⟨_, by rw [Aligner.step, hcall, Option.map_some]⟩

theorem releaseAll_of_lt {numChans c : ℕ} (hc : c < numChans) (chans : ℕ → RxChannel δ) :
    releaseAll numChans chans c = (chans c).releaseRecvBuff := if_pos hc

/-- The key of a set of packets is that of the first packet with a time. -/
def PacketSet.key (key : ℕ → ℕ → RxPacketInfo δ → κ) (numChans : ℕ) (set : PacketSet δ) :
    Option κ :=
  ((List.range numChans).find? fun c => (set.infos c).hasTsf).bind fun c =>
    (set.frames c).map fun frame => key c frame (set.infos c)

/-- The keys of the sets that calls have come back with. -/
def Aligner.keys (key : ℕ → ℕ → RxPacketInfo δ → κ) (numChans : ℕ) (a : Aligner δ) : List κ :=
  a.sets.filterMap (PacketSet.key key numChans)

/-- One packet of every channel, and the packets that have a time have the same one. -/
structure PacketSet.Aligned (numChans : ℕ) (streams : ℕ → List (RxEvent δ)) (set : PacketSet δ) :
    Prop where
  packet : ∀ c < numChans, ∃ frame, set.frames c = some frame ∧
    (packetsOf (streams c))[frame]? = some (set.infos c)
  time : ∀ c < numChans, ∀ d < numChans, (set.infos c).hasTsf = true →
    (set.infos d).hasTsf = true → (set.infos c).tsf = (set.infos d).tsf

/-! ## Keys -/

/-- The keys of the packets that have a time, of which the first one is in this frame. -/
def keysFrom (key : ℕ → RxPacketInfo δ → κ) : ℕ → List (RxPacketInfo δ) → List κ
  | _, [] => []
  | frame, p :: ps =>
    if p.hasTsf = true then key frame p :: keysFrom key (frame + 1) ps
    else keysFrom key (frame + 1) ps

/-- The keys of the packets that were not released. -/
def RxChannel.keys (key : ℕ → RxPacketInfo δ → κ) (ch : RxChannel δ) : List κ :=
  keysFrom key ch.released.length ch.pending

/-- The key of the packet that is held. -/
def RxChannel.key (key : ℕ → RxPacketInfo δ → κ) (ch : RxChannel δ) : κ :=
  key ch.released.length ch.info

section Keys

variable {key : ℕ → RxPacketInfo δ → κ} {ch ch' : RxChannel δ}

theorem keysFrom_drop_suffix (key : ℕ → RxPacketInfo δ → κ) (n frame : ℕ)
    (ps : List (RxPacketInfo δ)) : keysFrom key (frame + n) (ps.drop n) <:+ keysFrom key frame ps := by
  induction n generalizing frame ps with
  | zero => exact List.suffix_rfl
  | succ n ih =>
    cases ps with
    | nil => exact List.suffix_rfl
    | cons p ps =>
      have hrest := ih (frame + 1) ps
      rw [Nat.add_assoc, Nat.add_comm 1 n] at hrest
      rw [List.drop_succ_cons, keysFrom]
      split_ifs
      · exact hrest.trans (List.suffix_cons ..)
      · exact hrest

theorem RxChannel.Tracks.keys_suffix {stream : List (RxEvent δ)} (h : ch.Tracks stream)
    (key : ℕ → RxPacketInfo δ → κ) : ch.keys key <:+ keysFrom key 0 (packetsOf stream) := by
  have hsuffix := keysFrom_drop_suffix key ch.released.length 0 (packetsOf stream)
  rwa [Nat.zero_add, ← h.pending_eq_drop] at hsuffix

theorem keys_receive {r : Option Bool} (h : ch.receive = (ch', r)) : ch'.keys key = ch.keys key := by
  rw [RxChannel.keys, RxChannel.keys, receive_released h, (load_receive h).1]

theorem keys_setPrevTsf (key : ℕ → RxPacketInfo δ → κ) (ch : RxChannel δ) :
    ch.setPrevTsf.keys key = ch.keys key := rfl

theorem keys_of_held (hheld : ch.frameBuff.isSome = true) (htsf : ch.info.hasTsf = true) :
    ch.keys key = ch.key key :: ch.releaseRecvBuff.keys key := by
  rw [RxChannel.keys, RxChannel.keys, pending_of_isSome hheld, keysFrom, if_pos htsf,
    length_released_of_held hheld, pending_releaseRecvBuff]
  rfl

theorem keys_of_held_untimed (hheld : ch.frameBuff.isSome = true)
    (htsf : ch.info.hasTsf = false) : ch.keys key = ch.releaseRecvBuff.keys key := by
  rw [RxChannel.keys, RxChannel.keys, pending_of_isSome hheld, keysFrom,
    if_neg (Bool.eq_false_iff.mp htsf), length_released_of_held hheld, pending_releaseRecvBuff]

end Keys

/-! ## Passes that get the order right -/

variable {key : ℕ → ℕ → RxPacketInfo δ → κ} {ignoreSeqErr : Bool} {numChans fuel chan : ℕ}
  {v v' : AlignVars} {chans chans' : ℕ → RxChannel δ} {result : AlignmentResult}
  {all start : Fin numChans → List κ} {returned : List κ}

/-- During a call: the aligned channels hold packets with the same key, keys were only taken off
the channels, and none was skipped. -/
structure Joining (key : ℕ → ℕ → RxPacketInfo δ → κ) (all start : Fin numChans → List κ)
    (returned : List κ) (v : AlignVars) (chans : ℕ → RxChannel δ) : Prop where
  aligning : Aligning numChans v chans
  same : ∀ i < numChans, ∀ j < numChans, v.channelsToAlign i = false →
    v.channelsToAlign j = false → (chans i).info.hasTsf = true → (chans j).info.hasTsf = true →
    (chans i).key (key i) = (chans j).key (key j)
  sub : ∀ c : Fin numChans, ((chans c).keys (key c)).Sublist (start c)
  skipped : NothingSkipped all (fun c : Fin numChans => (chans c).keys (key c)) returned

theorem Joining.update (h : Joining key all start returned v chans)
    (hto : v.channelsToAlign chan = true) {ch : RxChannel δ}
    (hkeys : ch.keys (key chan) = (chans chan).keys (key chan)) :
    Joining key all start returned v (Function.update chans chan ch) := by
  have hne : ∀ i, v.channelsToAlign i = false → i ≠ chan := fun i hi hic => by
    rw [hic, hto] at hi
    cases hi
  have hsame : ∀ c, (Function.update chans chan ch c).keys (key c) = (chans c).keys (key c) := by
    intro c
    by_cases hc : c = chan
    · rw [hc, Function.update_self, hkeys]
    · rw [Function.update_of_ne hc]
  refine ⟨h.aligning.update hto ch, fun i hi j hj htoI htoJ => ?_, fun c => ?_, ?_⟩
  · rw [Function.update_of_ne (hne i htoI), Function.update_of_ne (hne j htoJ)]
    exact h.same i hi j hj htoI htoJ
  · rw [hsame]
    exact h.sub c
  · rw [funext fun c : Fin numChans => hsame c]
    exact h.skipped

variable [LinearOrder κ]

/-- **A pass gets the order right**: the alignment starts over exactly if the packet comes after
those of the aligned channels, and the packet is released exactly if it comes before them. -/
def Agrees (key : ℕ → ℕ → RxPacketInfo δ → κ) (numChans : ℕ) (v : AlignVars)
    (chans : ℕ → RxChannel δ) (chan : ℕ) : Prop :=
  (chans chan).info.hasTsf = true → ∀ i < numChans, v.channelsToAlign i = false →
    (chans i).info.hasTsf = true →
      if v.Restarts (chans chan) then (chans i).key (key i) < (chans chan).key (key chan)
      else if (chans chan).info.tsf = v.tsf then
        (chans i).key (key i) = (chans chan).key (key chan)
      else (chans chan).key (key chan) < (chans i).key (key i)

instance (key : ℕ → ℕ → RxPacketInfo δ → κ) (numChans : ℕ) (v : AlignVars)
    (chans : ℕ → RxChannel δ) (chan : ℕ) : Decidable (Agrees key numChans v chans chan) :=
  inferInstanceAs (Decidable (_ → ∀ i < numChans, _ → _ → _))

theorem not_mem_keys_of_lt (hsorted : ∀ c : Fin numChans, (start c).Pairwise (· < ·))
    (h : Joining key all start returned v chans) {j : ℕ} (hj : j < numChans)
    (hheld : (chans j).frameBuff.isSome = true) (htsf : (chans j).info.hasTsf = true) {k : κ}
    (hlt : k < (chans j).key (key j)) : k ∉ (chans j).keys (key j) := by
  have hpairwise := (hsorted ⟨j, hj⟩).sublist (h.sub ⟨j, hj⟩)
  rw [keys_of_held hheld htsf] at hpairwise ⊢
  exact not_mem_of_lt_head hpairwise hlt

/-- **Keys are dropped only where another channel is past them.** -/
theorem passRule_joining (hsorted : ∀ c : Fin numChans, (start c).Pairwise (· < ·)) :
    PassRule numChans (Agrees key numChans) (Joining key all start returned) where
  receive v chans chan ch _ h hchan hreceive := h.update hchan.toAlign (keys_receive hreceive)
  fail v chans chan h hchan _ _ := h.update hchan.toAlign (keys_setPrevTsf ..)
  align v chans chan v' chans' h hchan hheld hagrees halign := by
    have haligning := passRule_aligning.align v chans chan v' chans' h.aligning hchan hheld trivial
      halign
    have hself : Function.update chans chan (chans chan).setPrevTsf chan =
        (chans chan).setPrevTsf := Function.update_self ..
    have hset := h.update hchan.toAlign (keys_setPrevTsf (key chan) (chans chan))
    have hinfo : ∀ i, (Function.update chans chan (chans chan).setPrevTsf i).info =
          (chans i).info ∧
        (Function.update chans chan (chans chan).setPrevTsf i).key (key i) =
          (chans i).key (key i) := by
      intro i
      by_cases hic : i = chan
      · rw [hic, hself]
        exact ⟨rfl, rfl⟩
      · rw [Function.update_of_ne hic]
        exact ⟨rfl, rfl⟩
    rcases alignPacket_cases numChans v chans chan with
      ⟨hnone, hsome⟩ | ⟨htsf, ⟨hrestarts, ⟨-, hnone⟩ | ⟨-, hsome⟩⟩ |
        ⟨hvalid, hprev, ⟨heq, hsome⟩ | ⟨hlt, hsome⟩⟩⟩
    · -- a packet without a time
      obtain ⟨rfl, rfl⟩ := Prod.mk.inj (Option.some.inj (hsome.symm.trans halign))
      refine ⟨haligning, fun i hi j hj htoI htoJ hhasI hhasJ => ?_, h.sub, h.skipped⟩
      rcases mark_toAlign htoI with rfl | htoI
      · cases hnone.symm.trans hhasI
      · rcases mark_toAlign htoJ with rfl | htoJ
        · cases hnone.symm.trans hhasJ
        · exact h.same i hi j hj htoI htoJ hhasI hhasJ
    · cases hnone.symm.trans halign
    · -- the aligned packets are behind this one
      obtain ⟨rfl, rfl⟩ := Prod.mk.inj (Option.some.inj (hsome.symm.trans halign))
      have hcase : ∀ c : Fin numChans,
          (releaseAligned numChans v (Function.update chans chan (chans chan).setPrevTsf) c).keys
              (key c) = (chans c).keys (key c) ∨
          (chans c).key (key c) < (chans chan).key (key chan) ∧
            (chans c).keys (key c) = (chans c).key (key c) ::
              (releaseAligned numChans v
                (Function.update chans chan (chans chan).setPrevTsf) c).keys (key c) := by
        intro c
        by_cases hreleased : (c : ℕ) < numChans ∧ v.channelsToAlign c = false ∧
            (Function.update chans chan (chans chan).setPrevTsf c).info.hasTsf = true
        · have hne : (c : ℕ) ≠ chan := fun hc => by
            rw [hc, hchan.toAlign] at hreleased
            cases hreleased.2.1
          rw [releaseAligned, if_pos hreleased]
          obtain ⟨hc, htoC, hhas⟩ := hreleased
          rw [Function.update_of_ne hne] at hhas ⊢
          have hbehind := hagrees htsf c hc htoC hhas
          rw [if_pos hrestarts] at hbehind
          exact Or.inr ⟨hbehind, keys_of_held (h.aligning.held c hc htoC) hhas⟩
        · rw [releaseAligned, if_neg hreleased]
          refine Or.inl ?_
          by_cases hc : (c : ℕ) = chan
          · rw [hc, hself, keys_setPrevTsf]
          · rw [Function.update_of_ne hc]
      refine ⟨haligning, fun i _ j _ htoI htoJ _ _ => ?_, fun c => ?_, ?_⟩
      · rw [restart_toAlign htoI, restart_toAlign htoJ]
      · rcases hcase c with hkept | ⟨-, hdropped⟩
        · rw [hkept]
          exact h.sub c
        · refine List.Sublist.trans ?_ (h.sub c)
          rw [hdropped]
          exact List.sublist_cons_self ..
      · refine h.skipped.of_dropped (List.Subset.refl _) fun c k hk hgone => ?_
        rcases hcase c with hkept | ⟨hbehind, hdropped⟩
        · rw [hkept] at hgone
          exact absurd hk hgone
        · rw [hdropped] at hk
          rcases List.mem_cons.mp hk with rfl | hk
          · exact Or.inr ⟨⟨chan, hchan.lt⟩,
              not_mem_keys_of_lt hsorted h hchan.lt hheld htsf hbehind⟩
          · exact absurd hk hgone
    · -- the packet is one of the set
      obtain ⟨rfl, rfl⟩ := Prod.mk.inj (Option.some.inj (hsome.symm.trans halign))
      have hnot : ¬ v.Restarts (chans chan) := by
        rintro (hinvalid | hback | hlater)
        · cases hvalid.symm.trans hinvalid
        · omega
        · omega
      have hequal : ∀ i < numChans, v.channelsToAlign i = false →
          (chans i).info.hasTsf = true → (chans i).key (key i) = (chans chan).key (key chan) := by
        intro i hi htoI hhas
        have hagree := hagrees htsf i hi htoI hhas
        rwa [if_neg hnot, if_pos heq] at hagree
      refine ⟨haligning, fun i hi j hj htoI htoJ hhasI hhasJ => ?_, hset.sub, hset.skipped⟩
      rw [(hinfo i).1] at hhasI
      rw [(hinfo j).1] at hhasJ
      rw [(hinfo i).2, (hinfo j).2]
      rcases mark_toAlign htoI with hi' | hi'
      · rcases mark_toAlign htoJ with hj' | hj'
        · rw [hi', hj']
        · rw [hi']
          exact (hequal j hj hj' hhasJ).symm
      · rcases mark_toAlign htoJ with hj' | hj'
        · rw [hj']
          exact hequal i hi hi' hhasI
        · exact h.same i hi j hj hi' hj' hhasI hhasJ
    · -- the packet is behind the aligned ones
      obtain ⟨rfl, rfl⟩ := Prod.mk.inj (Option.some.inj (hsome.symm.trans halign))
      have hnot : ¬ v.Restarts (chans chan) := by
        rintro (hinvalid | hback | hlater)
        · cases hvalid.symm.trans hinvalid
        · omega
        · omega
      obtain ⟨d, hd, htoD, hhasD, -⟩ := h.aligning.valid hvalid
      have hbehind := hagrees htsf d hd htoD hhasD
      rw [if_neg hnot, if_neg (Nat.ne_of_lt hlt)] at hbehind
      have hdropped : (chans chan).keys (key chan) =
          (chans chan).key (key chan) :: (chans chan).releaseRecvBuff.keys (key chan) :=
        keys_of_held hheld htsf
      have hcase : ∀ c, (Function.update chans chan (chans chan).setPrevTsf.releaseRecvBuff c).keys
          (key c) = if c = chan then (chans chan).releaseRecvBuff.keys (key chan)
            else (chans c).keys (key c) := by
        intro c
        by_cases hc : c = chan
        · rw [hc, Function.update_self, if_pos rfl]
          rfl
        · rw [Function.update_of_ne hc, if_neg hc]
      refine ⟨haligning, ?_, fun c => ?_, ?_⟩
      · have hne : ∀ i, v.channelsToAlign i = false → i ≠ chan := fun i hi hic => by
          rw [hic, hchan.toAlign] at hi
          cases hi
        intro i hi j hj htoI htoJ
        rw [Function.update_of_ne (hne i htoI), Function.update_of_ne (hne j htoJ)]
        exact h.same i hi j hj htoI htoJ
      · rw [hcase]
        split_ifs with hc
        · refine List.Sublist.trans ?_ (h.sub c)
          rw [hc, hdropped]
          exact List.sublist_cons_self ..
        · exact h.sub c
      · refine h.skipped.of_dropped (List.Subset.refl _) fun c k hk hgone => ?_
        rw [hcase] at hgone
        split_ifs at hgone with hc
        · rw [hc, hdropped] at hk
          rcases List.mem_cons.mp hk with rfl | hk
          · exact Or.inr ⟨⟨d, hd⟩, not_mem_keys_of_lt hsorted h hd
              (h.aligning.held d hd htoD) hhasD hbehind⟩
          · exact absurd hk hgone
        · exact absurd hk hgone

/-! ## What holds after every call -/

/-- The keys of the streams. -/
def streamKeys (key : ℕ → ℕ → RxPacketInfo δ → κ) (numChans : ℕ)
    (streams : ℕ → List (RxEvent δ)) (c : Fin numChans) : List κ :=
  keysFrom (key c) 0 (packetsOf (streams c))

/-- Every packet has a time. -/
def AllTimed (numChans : ℕ) (streams : ℕ → List (RxEvent δ)) : Prop :=
  ∀ c < numChans, ∀ p ∈ packetsOf (streams c), p.hasTsf = true

instance (numChans : ℕ) (streams : ℕ → List (RxEvent δ)) :
    Decidable (AllTimed numChans streams) :=
  inferInstanceAs (Decidable (∀ c < numChans, ∀ p ∈ packetsOf (streams c), _))

/-- The aligner joins the streams. -/
structure Aligner.Inv (key : ℕ → ℕ → RxPacketInfo δ → κ) (numChans : ℕ)
    (streams : ℕ → List (RxEvent δ)) (a : Aligner δ) : Prop where
  tracks : ∀ c < numChans, (a.chans c).Tracks (streams c)
  sets : ∀ set ∈ a.sets, set.Aligned numChans streams
  /-- The packets of a set have one key. -/
  same : ∀ set ∈ a.sets, ∀ c < numChans, ∀ frame, set.frames c = some frame →
    (set.infos c).hasTsf = true → set.key key numChans = some (key c frame (set.infos c))
  skipped : NothingSkipped (streamKeys key numChans streams)
    (fun c : Fin numChans => (a.chans c).keys (key c)) (a.keys key numChans)
  joined : AllTimed numChans streams → Joined (streamKeys key numChans streams)
    (fun c : Fin numChans => (a.chans c).keys (key c)) (a.keys key numChans)

variable {streams : ℕ → List (RxEvent δ)} {a a' : Aligner δ}

theorem Aligner.inv_start (key : ℕ → ℕ → RxPacketInfo δ → κ) (numChans : ℕ)
    (streams : ℕ → List (RxEvent δ)) : (Aligner.start streams).Inv key numChans streams where
  tracks c _ := tracks_start (streams c)
  sets _ hset := absurd hset List.not_mem_nil
  same _ hset := absurd hset List.not_mem_nil
  skipped := nothingSkipped_start
  joined _ := joined_start

theorem Aligner.Inv.sub (h : a.Inv key numChans streams) (c : Fin numChans) :
    ((a.chans c).keys (key c)).Sublist (streamKeys key numChans streams c) :=
  ((h.tracks c c.isLt).keys_suffix (key c)).sublist

theorem aligned_of_alignedSet (hset : AlignedSet numChans chans)
    (htracks : ∀ c < numChans, (chans c).Tracks (streams c)) :
    (packetSet chans).Aligned numChans streams where
  packet c hc := by
    obtain ⟨frame, hframe⟩ := Option.isSome_iff_exists.mp (hset.held c hc)
    exact ⟨frame, hframe, (htracks c hc).held frame hframe⟩
  time c hc d hd hhasC hhasD := by
    obtain ⟨t, ht⟩ := hset.time
    exact (ht c hc hhasC).1.trans (ht d hd hhasD).1.symm

omit [LinearOrder κ] in
theorem key_of_alignedSet (key : ℕ → ℕ → RxPacketInfo δ → κ) (hset : AlignedSet numChans chans)
    (htracks : ∀ c < numChans, (chans c).Tracks (streams c)) :
    ((packetSet chans).key key numChans = none ∧
        ∀ c < numChans, (chans c).info.hasTsf = false) ∨
      ∃ c < numChans, (chans c).info.hasTsf = true ∧
        (packetSet chans).key key numChans = some ((chans c).key (key c)) := by
  simp only [PacketSet.key, packetSet]
  rcases hfind : (List.range numChans).find? fun c => (chans c).info.hasTsf with - | c
  · refine Or.inl ⟨by rw [Option.bind_none], fun c hc => ?_⟩
    exact Bool.eq_false_iff.mpr (List.find?_eq_none.mp hfind c (List.mem_range.mpr hc))
  · have hc : c < numChans := List.mem_range.mp (List.mem_of_find?_eq_some hfind)
    obtain ⟨frame, hframe⟩ := Option.isSome_iff_exists.mp (hset.held c hc)
    have hlast := ((htracks c hc).held_last hframe).2
    refine Or.inr ⟨c, hc, List.find?_some (p := fun c => (chans c).info.hasTsf) hfind, ?_⟩
    rw [Option.bind_some]
    simp only [hframe, Option.map_some, RxChannel.key, hlast, List.length_range]

theorem Aligner.Inv.step (h : a.Inv key numChans streams)
    (hsorted : ∀ c, (streamKeys key numChans streams c).Pairwise (· < ·))
    (hgood : EveryPass (Agrees key numChans) ignoreSeqErr numChans fuel {} a.chans)
    (hstep : a.step ignoreSeqErr numChans fuel = some a') : a'.Inv key numChans streams := by
  obtain ⟨chans, result, hcall, hresult⟩ := Aligner.step_cases hstep
  have htracks : ∀ c < numChans, (chans c).Tracks (streams c) :=
    loop_channelwise (fun c => channelRule_tracks (streams c)) h.tracks hcall
  have hstart : ∀ c : Fin numChans, ((a.chans c).keys (key c)).Pairwise (· < ·) :=
    fun c => (hsorted c).sublist (h.sub c)
  have hbegin : Joining key (streamKeys key numChans streams)
      (fun c => (a.chans c).keys (key c)) (a.keys key numChans) {} a.chans :=
    ⟨aligning_start numChans a.chans, fun _ _ _ _ hto => (nomatch hto),
      fun c => List.Sublist.refl _, h.skipped⟩
  obtain ⟨v, hjoining, hall⟩ := loop_rule (passRule_joining hstart) hbegin hgood hcall
  have hjoined : AllTimed numChans streams → Joined (streamKeys key numChans streams)
      (fun c : Fin numChans => (chans c).keys (key c)) (a.keys key numChans) :=
    fun htimed => (h.joined htimed).of_subset fun c => (hjoining.sub c).subset
  rcases hresult with ⟨rfl, rfl⟩ | ⟨-, rfl⟩
  swap
  · exact ⟨htracks, h.sets, h.same, hjoining.skipped, hjoined⟩
  have hall := hall rfl
  have hset : AlignedSet numChans chans := alignedSet_of_success hcall
  have hreleased : ∀ c : Fin numChans, (releaseAll numChans chans c).keys (key c) =
      (chans c).releaseRecvBuff.keys (key c) := fun c => by rw [releaseAll_of_lt c.isLt]
  have hkept : ∀ c : Fin numChans, (chans c).info.hasTsf = false →
      (chans c).releaseRecvBuff.keys (key c) = (chans c).keys (key c) :=
    fun c hnone => (keys_of_held_untimed (hset.held c c.isLt) hnone).symm
  have hkeys : (⟨releaseAll numChans chans, a.sets ++ [packetSet chans],
      a.results ++ [.success]⟩ : Aligner δ).keys key numChans =
        a.keys key numChans ++ ((packetSet chans).key key numChans).toList := by
    rw [Aligner.keys, List.filterMap_append]
    cases hkey : (packetSet chans).key key numChans with
    | none => rw [List.filterMap_cons, hkey]; rfl
    | some k => rw [List.filterMap_cons, hkey]; rfl
  refine ⟨fun c hc => ?_, fun set hmem => ?_, fun set hmem c hc frame hframe htsf => ?_, ?_,
    fun htimed => ?_⟩
  · show RxChannel.Tracks (streams c) (releaseAll numChans chans c)
    rw [releaseAll_of_lt hc]
    exact tracks_releaseRecvBuff (htracks c hc)
  · rcases List.mem_append.mp hmem with hmem | hmem
    · exact h.sets set hmem
    · rw [List.mem_singleton.mp hmem]
      exact aligned_of_alignedSet hset htracks
  · rcases List.mem_append.mp hmem with hmem | hmem
    · exact h.same set hmem c hc frame hframe htsf
    · obtain rfl := List.mem_singleton.mp hmem
      have hlast := ((htracks c hc).held_last hframe).2
      have hkey : (chans c).key (key c) = key c frame (chans c).info := by
        rw [RxChannel.key, hlast, List.length_range]
      rcases key_of_alignedSet key hset htracks with ⟨-, hnone⟩ | ⟨d, hd, hhas, hsome⟩
      · cases (hnone c hc).symm.trans htsf
      · rw [hsome, ← hjoining.same c hc d hd (hall c hc) (hall d hd) htsf hhas, hkey]
        rfl
  · rw [hkeys]
    simp only [hreleased]
    refine hjoining.skipped.of_dropped (List.subset_append_left ..) fun c k hk hgone => ?_
    cases htsf : (chans c).info.hasTsf with
    | false =>
      rw [hkept c htsf] at hgone
      exact absurd hk hgone
    | true =>
      rw [keys_of_held (hset.held c c.isLt) htsf] at hk
      rcases List.mem_cons.mp hk with rfl | hk
      · refine Or.inl (List.mem_append_right _ ?_)
        rcases key_of_alignedSet key hset htracks with ⟨-, hnone⟩ | ⟨d, hd, hhas, hkey⟩
        · cases (hnone c c.isLt).symm.trans htsf
        · rw [hkey, hjoining.same c c.isLt d hd (hall c c.isLt) (hall d hd) htsf hhas]
          exact List.mem_singleton_self _
      · exact absurd hk hgone
  · rw [hkeys]
    simp only [hreleased]
    rcases key_of_alignedSet key hset htracks with ⟨hkey, hnone⟩ | ⟨d, hd, hhas, hkey⟩
    · rw [hkey, Option.toList_none, List.append_nil, funext fun c => hkept c (hnone c c.isLt)]
      exact hjoined htimed
    · rw [hkey, Option.toList_some]
      have : Nonempty (Fin numChans) := ⟨⟨d, hd⟩⟩
      refine (hjoined htimed).take (fun c => ?_) (fun c => (hstart c).sublist (hjoining.sub c))
        fun c => ((hjoining.sub c).trans (h.sub c)).subset
      have htsf : (chans c).info.hasTsf = true := by
        obtain ⟨frame, hframe⟩ := Option.isSome_iff_exists.mp (hset.held c c.isLt)
        exact htimed c c.isLt _ (List.mem_of_getElem? ((htracks c c.isLt).held frame hframe))
      rw [keys_of_held (hset.held c c.isLt) htsf,
        hjoining.same c c.isLt d hd (hall c c.isLt) (hall d hd) htsf hhas]

theorem Aligner.inv_run {calls : List ℕ}
    (hsorted : ∀ c, (streamKeys key numChans streams c).Pairwise (· < ·))
    (hgood : EveryStep (Aligner.step ignoreSeqErr numChans)
      (fun a fuel => EveryPass (Agrees key numChans) ignoreSeqErr numChans fuel {} a.chans)
      (Aligner.start streams) calls)
    (hrun : run (Aligner.step ignoreSeqErr numChans) (Aligner.start streams) calls = some a) :
    a.Inv key numChans streams :=
  run_invariant_of_everyStep (fun _ _ _ h hgood hstep => h.step hsorted hgood hstep)
    (Aligner.inv_start key numChans streams) hgood hrun

/-! ## Enough calls -/

theorem load_releaseAll_le (chans : ℕ → RxChannel δ) {c : ℕ} (hc : c < numChans) :
    load (releaseAll numChans chans c) ≤ load (chans c) := by
  rw [releaseAll_of_lt hc]
  exact load_releaseRecvBuff_le _

theorem Aligner.load_step_le (hstep : a.step ignoreSeqErr numChans fuel = some a') :
    ∀ c < numChans, load (a'.chans c) ≤ load (a.chans c) := by
  obtain ⟨chans, result, hcall, hresult⟩ := Aligner.step_cases hstep
  have hle : ∀ c < numChans, load (chans c) ≤ load (a.chans c) :=
    loop_channelwise (P := fun c ch => load ch ≤ load (a.chans c))
      (fun c => channelRule_load_le _) (fun c _ => Nat.le_refl _) hcall
  intro c hc
  rcases hresult with ⟨-, rfl⟩ | ⟨-, rfl⟩
  · exact (load_releaseAll_le chans hc).trans (hle c hc)
  · exact hle c hc

theorem Aligner.step_progress (hchans : 0 < numChans)
    (hstep : a.step ignoreSeqErr numChans fuel = some a') :
    total numChans load a'.chans < total numChans load a.chans ∨
      ∃ c < numChans, load (a'.chans c) = 0 := by
  obtain ⟨chans, result, hcall, hresult⟩ := Aligner.step_cases hstep
  obtain ⟨hle, hprogress⟩ := getAlignedBuffs_progress hcall
  rcases hresult with ⟨rfl, rfl⟩ | ⟨hne, rfl⟩
  · refine Or.inl (Nat.lt_of_lt_of_le ?_ hle)
    refine total_lt (fun c hc => load_releaseAll_le chans hc) hchans ?_
    show load (releaseAll numChans chans 0) < load (chans 0)
    rw [releaseAll_of_lt hchans]
    exact load_releaseRecvBuff_lt ((alignedSet_of_success hcall).held 0 hchans)
  · rcases hprogress with rfl | hlt | ⟨-, c, hc, hnone, hempty⟩
    · exact absurd rfl hne
    · exact Or.inl hlt
    · refine Or.inr ⟨c, hc, ?_⟩
      rw [load, RxChannel.pending, hnone, hempty]
      rfl

theorem Aligner.exhausted_of_run (hchans : 0 < numChans) {calls : List ℕ}
    (hrun : run (Aligner.step ignoreSeqErr numChans) a calls = some a')
    (henough : total numChans load a.chans < calls.length) :
    ∃ c < numChans, load (a'.chans c) = 0 := by
  induction calls generalizing a with
  | nil => exact absurd henough (Nat.not_lt_zero _)
  | cons call calls ih =>
    obtain ⟨b, hb, hrun⟩ := run_cons_eq_some.mp hrun
    rcases Aligner.step_progress hchans hb with hlt | ⟨c, hc, hzero⟩
    · rw [List.length_cons] at henough
      exact ih hrun (by omega)
    · have hle : load (a'.chans c) ≤ 0 :=
        run_invariant (I := fun s : Aligner δ => load (s.chans c) ≤ 0)
          (fun s _ t hs hst => (Aligner.load_step_le hst c hc).trans hs) hzero.le hrun
      exact ⟨c, hc, Nat.le_zero.mp hle⟩

omit [LinearOrder κ] in
theorem keys_of_load_eq_zero {key : ℕ → RxPacketInfo δ → κ} {ch : RxChannel δ}
    (h : load ch = 0) : ch.keys key = [] := by
  have hpending : ch.pending = [] := List.length_eq_zero_iff.mp (by rw [load] at h; omega)
  rw [RxChannel.keys, hpending, keysFrom]

end Transport
end UhdHost
