import Mathlib
import UhdHost.Transport.RecvPacketHandler

/-!
# Packets that are read in fragments

What the receive packet handler of the older devices says of the time and the offset of a fragment.

A packet that is not read at once is read on by the next calls, and the set of buffers counts what
was read: in items, each of which has a sample of one output.  A call adds the count to the time and
returns it as the offset; the user counts samples of each output.  With one output the two are the
same.  An exception in the middle of the alignment leaves a set that is read though its metadata was
never set.

* `tracks_recvOnePacket`: the count of a set goes with what the record of the copies says.
* `timely_iff_everyStep`: what every call returns is right exactly if every call that returns meets
  a condition on the current set.
-/

namespace UhdHost
namespace Transport
namespace RecvHandler

open RecvPacketHandler

variable {n : ℕ}

/-! ## What was returned of a packet -/

/-- Nothing is copied. -/
def Quiet (events : List (Event n)) : Prop :=
  ∀ nsamps bytes sources, .copied nsamps bytes sources ∉ events

section Copies

variable [NeZero n]

/-- The samples of each output that were returned of a packet before this copy from it, where `acc`
were since the last copy from the beginning of a packet. -/
def already (acc : ℕ) (sources : Fin n → Source) : ℕ :=
  if (sources 0).copyBuff = some 0 then 0 else acc

/-- The samples of each output that were returned since the last copy from the beginning of a
packet, that copy included. -/
def taken (trace : List (Event n)) : ℕ :=
  trace.foldl (fun acc event =>
    match event with
    | .copied nsamps _ sources => already acc sources + nsamps
    | _ => acc) 0

theorem taken_append (trace : List (Event n)) {events : List (Event n)} (h : Quiet events) :
    taken (trace ++ events) = taken trace := by
  induction events using List.reverseRecOn with
  | nil => rw [List.append_nil]
  | append_singleton events event ih =>
    rw [← List.append_assoc, taken, List.foldl_append, ← taken, ih fun a b c hmem =>
      h a b c (List.mem_append_left _ hmem)]
    cases event with
    | copied nsamps bytes sources =>
      exact absurd (List.mem_append_right _ (List.mem_singleton_self _)) (h nsamps bytes sources)
    | fetched set index result info => rfl
    | failed code action => rfl
    | threw copied => rfl

theorem taken_copied (trace : List (Event n)) (nsamps bytes : ℕ) (sources : Fin n → Source) :
    taken (trace ++ [.copied nsamps bytes sources]) = already (taken trace) sources + nsamps := by
  rw [taken, List.foldl_append]
  rfl

end Copies

/-- Where the first copy among the events is from. -/
def firstCopy : List (Event n) → Option (Fin n → Source)
  | [] => none
  | .copied _ _ sources :: _ => some sources
  | _ :: events => firstCopy events

theorem firstCopy_append {events : List (Event n)} (h : Quiet events) (nsamps bytes : ℕ)
    (sources : Fin n → Source) (rest : List (Event n)) :
    firstCopy (events ++ .copied nsamps bytes sources :: rest) = some sources := by
  induction events with
  | nil => rfl
  | cons event events ih =>
    have hrest := ih fun a b c hmem => h a b c (List.mem_cons_of_mem _ hmem)
    cases event with
    | copied a b c => exact absurd List.mem_cons_self (h a b c)
    | fetched set index result info => exact hrest
    | failed code action => exact hrest
    | threw copied => exact hrest

/-! ## What is claimed -/

section Claim

variable [NeZero n]

/-- **What is claimed** of a call that takes a session from `s` to `t`: if it returns without an
error, and what it copied first is from a packet of the first channel, its time is that of the
packet and of the samples that were returned of it, and its offset is the number of those. -/
def Timely (cfg : Config) (s t : Session n) : Prop :=
  ∀ (got : ℕ × Metadata) (sources : Fin n → Source) (p : RecvPacket),
    t.returned = s.returned ++ [got] → got.2.errorCode = errorCodeNone →
    firstCopy (t.handler.trace.drop s.handler.trace.length) = some sources →
    (sources 0).buff = some (.packet p) →
    got.2.fragmentOffset = already (taken s.handler.trace) sources ∧
    got.2.timeSpec.realSecs = p.info.tsf.toNat / cfg.tickRate +
      (already (taken s.handler.trace) sources : ℚ) / cfg.sampRate

/-- The call returns metadata that an earlier call has left for it. -/
def ReturnsQueued (s : Session n) : Prop :=
  s.handler.queueErrorForNextCall = true ∧ s.handler.queueMetadata.errorCode ≠ errorCodeTimeout

/-- **The condition** on a call that returns: if it reads on in a set that holds a packet for the
first channel, there is one output, or nothing was read of the set; and the metadata of the set has
the time of the packet. -/
def ReadsOn (cfg : Config) (s : Session n) : Call → Prop
  | .flushAll => True
  | .recv _ _ _ =>
    ¬ ReturnsQueued s → s.handler.currInfo.dataBytesToCopy ≠ 0 →
      s.handler.currInfo.metadata.errorCode = errorCodeNone →
      ∀ p, (s.handler.currInfo.info 0).buff = some (.packet p) →
        (cfg.numOutputs = 1 ∨ s.handler.currInfo.fragmentOffsetInSamps = 0) ∧
        s.handler.currInfo.metadata.timeSpec.realSecs = p.info.tsf.toNat / cfg.tickRate

end Claim

/-! ## Sets of which nothing was read -/

/-- The info of a channel that holds a packet, so many bytes of which were read. -/
def HoldsAt (info : PerBufferInfo) (offset : ℕ) : Prop :=
  ∀ p, info.buff = some (.packet p) → info.copyBuff = some offset ∧ info.time = p.info.tsf.toNat

/-- Nothing was read of the set. -/
structure Unread [NeZero n] (s : BuffersInfo n) : Prop where
  offset : s.fragmentOffsetInSamps = 0
  holds : HoldsAt (s.info 0) 0

/-- The set holds nothing for the first channel, for which a packet is to be fetched. -/
structure Bare [NeZero n] (s : BuffersInfo n) : Prop where
  offset : s.fragmentOffsetInSamps = 0
  buff : (s.info 0).buff = none
  todo : s.indexesTodo 0 = true

section Sets

variable {info : PerBufferInfo} {offset : ℕ}

theorem holdsAt_of_none (h : info.buff = none) (offset : ℕ) : HoldsAt info offset := by
  intro p hp
  rw [h] at hp
  exact nomatch hp

theorem holdsAt_ofPacket (p : RecvPacket) : HoldsAt (.ofPacket p) 0 := by
  intro p' hp'
  cases hp'
  exact ⟨rfl, rfl⟩

theorem holdsAt_process {prev : PerBufferInfo} {xport : List Fetch} {packetCount : ℕ}
    (h : HoldsAt info 0) :
    HoldsAt (getAndProcessSinglePacket prev xport packetCount info).info 0 := by
  induction xport generalizing info with
  | nil => exact holdsAt_of_none rfl 0
  | cons fetch xport ih =>
    rcases fetch with _ | _ | b
    · exact holdsAt_of_none rfl 0
    · exact h
    · rcases b with _ | left | p
      · intro p hp
        exact nomatch hp
      · intro p hp
        exact nomatch hp
      · rw [getAndProcessSinglePacket]
        split_ifs with hack
        · exact ih (holdsAt_of_none rfl 0)
        · exact holdsAt_ofPacket p

variable [NeZero n] {s : BuffersInfo n}

theorem Bare.unread (h : Bare s) : Unread s := ⟨h.offset, holdsAt_of_none h.buff 0⟩

theorem bare_reset (s : BuffersInfo n) : Bare s.reset := ⟨rfl, rfl, rfl⟩

theorem bare_default : Bare ({} : BuffersInfo n) := ⟨rfl, rfl, rfl⟩

theorem Unread.setInfo (h : Unread s) (index : Fin n) (hinfo : index = 0 → HoldsAt info 0) :
    Unread (s.setInfo index info) where
  offset := h.offset
  holds := by
    by_cases hindex : (0 : Fin n) = index
    · rw [hindex, BuffersInfo.setInfo_self]
      exact hinfo hindex.symm
    · rw [BuffersInfo.setInfo_of_ne s hindex]
      exact h.holds

theorem Unread.alignmentCheck (h : Unread s) (index : Fin n) : Unread (s.alignmentCheck index) := by
  rw [BuffersInfo.alignmentCheck]
  split_ifs with hnew hsame
  · refine ⟨h.offset, ?_⟩
    dsimp only
    split_ifs
    · exact h.holds
    · exact holdsAt_of_none rfl 0
  · exact ⟨h.offset, h.holds⟩
  · exact h.setInfo index fun _ => holdsAt_of_none rfl 0

theorem Unread.restart (h : Unread s) (index : Fin n) : Unread (s.restart index) := by
  rw [BuffersInfo.restart]
  split_ifs
  · exact ⟨h.offset, h.holds⟩
  · exact h

end Sets

/-! ## The ring during the alignment -/

section Ring

variable [NeZero n] {h h' : RecvPacketHandler n} {cfg : Config}

/-- The ring while packets are fetched. -/
structure Fetching (h : RecvPacketHandler n) : Prop where
  curr : Unread h.currInfo
  next : Bare h.nextInfo
  other : Bare h.otherInfo

/-- The ring when the progress was saved in the next set. -/
structure Saved (h : RecvPacketHandler n) : Prop where
  curr : Bare h.currInfo
  next : Unread h.nextInfo
  other : Bare h.otherInfo

/-- The ring after the alignment. -/
structure Settled (h : RecvPacketHandler n) : Prop where
  curr : Unread h.currInfo
  next : Unread h.nextInfo
  other : Bare h.otherInfo

/-- The metadata of the set has the time of the packet that the first channel holds. -/
def Dated (cfg : Config) (s : BuffersInfo n) : Prop :=
  ∀ p, (s.info 0).buff = some (.packet p) →
    s.metadata.timeSpec.realSecs = p.info.tsf.toNat / cfg.tickRate

/-- More was recorded, but no copy. -/
def Extends (h h' : RecvPacketHandler n) : Prop :=
  ∃ events, h'.trace = h.trace ++ events ∧ Quiet events

/-- What the alignment comes to: the ring is settled, and the current set is dated, unless an
exception has ended it. -/
structure Ended (cfg : Config) (h : RecvPacketHandler n) (outcome : Outcome n Unit) : Prop where
  settled : Settled outcome.2
  dated : ∀ done, outcome.1 = .ok done → Dated cfg outcome.2.currInfo
  extends_ : Extends h outcome.2

theorem Saved.settled (hs : Saved h) : Settled h := ⟨hs.curr.unread, hs.next, hs.other⟩

theorem Bare.dated {s : BuffersInfo n} (hs : Bare s) : Dated cfg s := by
  intro p hp
  rw [hs.buff] at hp
  exact nomatch hp

omit [NeZero n] in
theorem quiet_nil : Quiet ([] : List (Event n)) := fun _ _ _ => List.not_mem_nil

omit [NeZero n] in
theorem quiet_append {events events' : List (Event n)} (h : Quiet events) (h' : Quiet events') :
    Quiet (events ++ events') := fun a b c hmem =>
  (List.mem_append.mp hmem).elim (h a b c) (h' a b c)

omit [NeZero n] in
theorem extends_refl (h : RecvPacketHandler n) : Extends h h :=
  ⟨[], (List.append_nil _).symm, quiet_nil⟩

omit [NeZero n] in
theorem Extends.trans {h'' : RecvPacketHandler n} (h₁ : Extends h h') (h₂ : Extends h' h'') :
    Extends h h'' := by
  obtain ⟨events, hevents, hquiet⟩ := h₁
  obtain ⟨events', hevents', hquiet'⟩ := h₂
  exact ⟨events ++ events', by rw [hevents', hevents, List.append_assoc],
    quiet_append hquiet hquiet'⟩

omit [NeZero n] in
theorem extends_fetch (h : RecvPacketHandler n) (index : Fin n) : Extends h (h.fetch index) :=
  ⟨_, rfl, fun _ _ _ hmem => nomatch List.mem_singleton.mp hmem⟩

omit [NeZero n] in
theorem extends_record_failed (h : RecvPacketHandler n) (code : ℕ) (action : OverflowAction) :
    Extends h (h.record (.failed code action)) :=
  ⟨_, rfl, fun _ _ _ hmem => nomatch List.mem_singleton.mp hmem⟩

omit [NeZero n] in
theorem extends_callOverflow (h : RecvPacketHandler n) (code : ℕ) :
    Extends h (h.callOverflow code) := by
  refine ⟨[.failed code h.overflowAction], ?_,
    fun _ _ _ hmem => nomatch List.mem_singleton.mp hmem⟩
  rw [callOverflow, handleOverflow_trace]
  rfl

theorem Fetching.fetch (hf : Fetching h) (index : Fin n) : Fetching (h.fetch index) where
  curr := hf.curr.setInfo index fun hindex => by
    subst hindex
    exact holdsAt_process hf.curr.holds
  next := hf.next
  other := hf.other

theorem Fetching.record_failed (hf : Fetching h) (code : ℕ) (action : OverflowAction) :
    Fetching (h.record (.failed code action)) := ⟨hf.curr, hf.next, hf.other⟩

theorem Fetching.swapWithError (hf : Fetching h) (code : ℕ) : Saved (h.swapWithError code) :=
  ⟨⟨hf.next.offset, hf.next.buff, hf.next.todo⟩, hf.curr, hf.other⟩

theorem Fetching.swapWithMessage (hf : Fetching h) (index : Fin n) :
    Saved (h.swapWithMessage cfg index) :=
  ⟨⟨hf.next.offset, hf.next.buff, hf.next.todo⟩, hf.curr, hf.other⟩

theorem Fetching.sequenceError (hf : Fetching h) (index : Fin n) :
    Saved (h.sequenceError cfg index) :=
  ⟨⟨hf.next.offset, hf.next.buff, hf.next.todo⟩, hf.curr.alignmentCheck index, hf.other⟩

theorem Saved.flushAll (hs : Saved h) : Saved h.flushAll :=
  ⟨bare_reset _, (bare_reset _).unread, hs.other⟩

theorem Saved.callOverflow (hs : Saved h) (code : ℕ) : Saved (h.callOverflow code) := by
  rw [RecvPacketHandler.callOverflow, handleOverflow]
  split_ifs
  · exact Saved.flushAll ⟨hs.curr, hs.next, hs.other⟩
  · exact ⟨hs.curr, hs.next, hs.other⟩

theorem Saved.record_failed (hs : Saved h) (code : ℕ) (action : OverflowAction) :
    Saved (h.record (.failed code action)) := ⟨hs.curr, hs.next, hs.other⟩

theorem Saved.withMetadata (hs : Saved h) (metadata : Metadata) : Saved (h.withMetadata metadata) :=
  ⟨⟨hs.curr.offset, hs.curr.buff, hs.curr.todo⟩, hs.next, hs.other⟩

theorem Saved.releaseMessage (hs : Saved h) (index : Fin n) : Saved (h.releaseMessage index) :=
  ⟨hs.curr, hs.next.setInfo index fun _ => holdsAt_of_none rfl 0, hs.other⟩

theorem Fetching.inlineMessage (cfg : Config) (hf : Fetching h) (index : Fin n) :
    Saved (h.inlineMessage cfg index).2 ∧ Extends h (h.inlineMessage cfg index).2 := by
  have hswap : Saved (h.swapWithMessage cfg index) := hf.swapWithMessage index
  have hextends : Extends h (h.swapWithMessage cfg index) := extends_refl h
  rw [RecvPacketHandler.inlineMessage]
  split_ifs with hcode hthrows
  · exact ⟨hswap.callOverflow _, hextends.trans (extends_callOverflow _ _)⟩
  · exact ⟨((hswap.callOverflow _).withMetadata _).releaseMessage index,
      hextends.trans (extends_callOverflow _ errorCodeOverflow)⟩
  · exact ⟨(hswap.record_failed _ _).releaseMessage index,
      hextends.trans (extends_record_failed _ _ _)⟩

theorem ended_of_saved {outcome : Outcome n Unit} (hs : Saved outcome.2)
    (hextends : Extends h outcome.2) : Ended cfg h outcome :=
  ⟨hs.settled, fun _ _ => hs.curr.dated, hextends⟩

theorem ended_pass (hf : Fetching h) :
    (∀ outcome, alignPass cfg h = .inl outcome → Ended cfg h outcome) ∧
      ∀ h', alignPass cfg h = .inr h' → Fetching h' ∧ Extends h h' := by
  rw [alignPass]
  rcases hfind : h.currInfo.findFirst with _ | index
  · refine ⟨fun outcome houtcome => ?_, fun h' hh' => by cases hh'⟩
    cases houtcome
    refine ⟨⟨⟨hf.curr.offset, hf.curr.holds⟩, hf.next.unread, hf.other⟩, fun _ _ p hp => ?_,
      extends_refl h⟩
    obtain ⟨-, htime⟩ := hf.curr.holds p hp
    have htimeSpec : (h.aligned cfg).currInfo.metadata.timeSpec =
        TimeSpec.fromTicks (h.currInfo.info 0).time cfg.tickRate := rfl
    rw [htimeSpec, TimeSpec.realSecs_fromTicks, htime, Int.cast_natCast]
  · have hfetch := hf.fetch index
    have hextends := extends_fetch h index
    simp only
    rcases hresult : (h.process index).result with thrown | packetType
    · refine ⟨fun outcome houtcome => ?_, fun h' hh' => by rcases thrown <;> cases hh'⟩
      have hthrown : ∀ e, Ended cfg h (.error e, h.fetch index) := fun e =>
        ⟨⟨hfetch.curr, hfetch.next.unread, hfetch.other⟩, (fun _ hdone => nomatch hdone), hextends⟩
      rcases thrown with _ | _ | _ | _
      · cases houtcome
        exact ended_of_saved ((hfetch.record_failed _ _).swapWithError _)
          (hextends.trans (extends_record_failed _ _ _))
      · cases houtcome
        exact hthrown _
      · cases houtcome
        exact hthrown _
      · cases houtcome
        exact hthrown _
    · rcases packetType with _ | _ | _ | _ | _
      · refine ⟨fun outcome houtcome => (by cases houtcome), fun h' hh' => ?_⟩
        cases hh'
        exact ⟨⟨hfetch.curr.alignmentCheck index, hfetch.next, hfetch.other⟩, hextends⟩
      · refine ⟨fun outcome houtcome => (by cases houtcome), fun h' hh' => ?_⟩
        cases hh'
        exact ⟨⟨(hfetch.curr.restart index).alignmentCheck index, hfetch.next, hfetch.other⟩,
          hextends⟩
      · refine ⟨fun outcome houtcome => ?_, fun h' hh' => by cases hh'⟩
        cases houtcome
        obtain ⟨hsaved, hmessage⟩ := hfetch.inlineMessage cfg index
        exact ended_of_saved hsaved (hextends.trans hmessage)
      · refine ⟨fun outcome houtcome => ?_, fun h' hh' => by cases hh'⟩
        cases houtcome
        exact ended_of_saved (hfetch.swapWithError _) hextends
      · refine ⟨fun outcome houtcome => ?_, fun h' hh' => by cases hh'⟩
        cases houtcome
        exact ended_of_saved (hfetch.sequenceError index)
          (hextends.trans (extends_record_failed _ _ _))

theorem Ended.of_extends {outcome : Outcome n Unit} (he : Ended cfg h' outcome)
    (hextends : Extends h h') : Ended cfg h outcome :=
  ⟨he.settled, he.dated, hextends.trans he.extends_⟩

theorem ended_alignLoop (remaining : ℕ) (hf : Fetching h) :
    Ended cfg h (alignLoop cfg remaining h) := by
  induction remaining generalizing h with
  | zero =>
    rw [alignLoop]
    obtain ⟨hends, hgoes⟩ : (∀ outcome, alignPass cfg h = .inl outcome → Ended cfg h outcome) ∧
      ∀ h', alignPass cfg h = .inr h' → Fetching h' ∧ Extends h h' := ended_pass hf
    rcases halign : alignPass cfg h with outcome | h'
    · exact hends outcome halign
    · obtain ⟨hf', hextends⟩ := hgoes h' halign
      exact ended_of_saved ((hf'.swapWithError errorCodeAlignment).callOverflow _)
        (hextends.trans (extends_callOverflow (h'.swapWithError errorCodeAlignment) _))
  | succ remaining ih =>
    rw [alignLoop]
    obtain ⟨hends, hgoes⟩ : (∀ outcome, alignPass cfg h = .inl outcome → Ended cfg h outcome) ∧
      ∀ h', alignPass cfg h = .inr h' → Fetching h' ∧ Extends h h' := ended_pass hf
    rcases halign : alignPass cfg h with outcome | h'
    · exact hends outcome halign
    · obtain ⟨hf', hextends⟩ := hgoes h' halign
      exact (ih hf').of_extends hextends

theorem ended_getAlignedBuffs (hnext : Unread h.nextInfo) (hother : Bare h.otherInfo) :
    Ended cfg h (getAlignedBuffs cfg h) := by
  rw [getAlignedBuffs]
  have hf : Fetching
      { h.increment with currInfo := h.increment.currInfo.withError errorCodeNone } :=
    ⟨⟨hnext.offset, hnext.holds⟩, hother, bare_reset h.prevInfo⟩
  exact (ended_alignLoop _ hf).of_extends ⟨[], (List.append_nil _).symm, quiet_nil⟩

end Ring

/-! ## The count of a set -/

section Counts

variable [NeZero n] {h h' : RecvPacketHandler n} {cfg : Config}

/-- **The count of the current set goes with the record.**  If it holds a packet for the first
channel, the packet is read on where the count says; and unless the count is zero, it is what was
returned of the packet, with one output, and more than that with several. -/
structure Counted (cfg : Config) (h : RecvPacketHandler n) : Prop where
  copyBuff : ∀ p, (h.currInfo.info 0).buff = some (.packet p) →
    (h.currInfo.info 0).copyBuff = some (h.currInfo.fragmentOffsetInSamps * cfg.bytesPerOtwItem)
  one : ∀ p, (h.currInfo.info 0).buff = some (.packet p) →
    h.currInfo.fragmentOffsetInSamps ≠ 0 → cfg.numOutputs = 1 →
      taken h.trace = h.currInfo.fragmentOffsetInSamps
  several : ∀ p, (h.currInfo.info 0).buff = some (.packet p) →
    h.currInfo.fragmentOffsetInSamps ≠ 0 → cfg.numOutputs ≠ 1 →
      taken h.trace < h.currInfo.fragmentOffsetInSamps

/-- The ring between two packets. -/
structure Tracks (cfg : Config) (h : RecvPacketHandler n) : Prop where
  curr : Counted cfg h
  next : Unread h.nextInfo
  other : Bare h.otherInfo

theorem counted_of_unread (hu : Unread h.currInfo) : Counted cfg h where
  copyBuff p hp := by
    rw [hu.offset, Nat.zero_mul]
    exact (hu.holds p hp).1
  one _ _ hoffset _ := absurd hu.offset hoffset
  several _ _ hoffset _ := absurd hu.offset hoffset

theorem Settled.tracks (hs : Settled h) : Tracks cfg h :=
  ⟨counted_of_unread hs.curr, hs.next, hs.other⟩

theorem Tracks.record_threw (ht : Tracks cfg h) (copied : ℕ) :
    Tracks cfg (h.record (.threw copied)) := by
  have htaken : taken (h.record (.threw copied)).trace = taken h.trace :=
    taken_append _ fun _ _ _ hmem => nomatch List.mem_singleton.mp hmem
  refine ⟨⟨ht.curr.copyBuff, fun p hp hoffset hone => ?_, fun p hp hoffset hseveral => ?_⟩,
    ht.next, ht.other⟩
  · rw [htaken]
    exact ht.curr.one p hp hoffset hone
  · rw [htaken]
    exact ht.curr.several p hp hoffset hseveral

theorem tracks_flushAll (ht : Tracks cfg h) : Tracks cfg h.flushAll :=
  ⟨counted_of_unread (bare_reset _).unread, (bare_reset _).unread, ht.other⟩

theorem tracks_start (xports : Fin n → List Fetch) (actions : List OverflowAction) :
    Tracks cfg (start xports actions).handler :=
  ⟨counted_of_unread bare_default.unread, bare_default.unread, bare_default⟩

theorem Counted.already_iff (hc : Counted cfg h) {p : RecvPacket}
    (hp : (h.currInfo.info 0).buff = some (.packet p)) :
    h.currInfo.fragmentOffsetInSamps = already (taken h.trace) h.source ↔
      cfg.numOutputs = 1 ∨ h.currInfo.fragmentOffsetInSamps = 0 := by
  have hcopyBuff : (h.source 0).copyBuff =
      some (h.currInfo.fragmentOffsetInSamps * cfg.bytesPerOtwItem) := hc.copyBuff p hp
  rw [already, hcopyBuff]
  by_cases hoffset : h.currInfo.fragmentOffsetInSamps = 0
  · rw [hoffset, Nat.zero_mul, if_pos rfl]
    exact ⟨fun _ => Or.inr rfl, fun _ => rfl⟩
  · have hne : h.currInfo.fragmentOffsetInSamps * cfg.bytesPerOtwItem ≠ 0 :=
      Nat.mul_ne_zero hoffset cfg.bytesPerOtwItem_pos.ne'
    rw [if_neg fun heq => hne (Option.some.inj heq)]
    by_cases hone : cfg.numOutputs = 1
    · exact ⟨fun _ => Or.inl hone, fun _ => (hc.one p hp hoffset hone).symm⟩
    · refine ⟨fun heq => absurd heq (hc.several p hp hoffset hone).ne', fun hor => ?_⟩
      exact absurd hor (not_or.mpr ⟨hone, hoffset⟩)

theorem Counted.convertToOutBuff (hc : Counted cfg h) (nsamps : ℕ) :
    Counted cfg (h.convertToOutBuff cfg nsamps) := by
  have hheld : ∀ p, ((h.convertToOutBuff cfg nsamps).currInfo.info 0).buff = some (.packet p) →
      (h.currInfo.info 0).buff = some (.packet p) := by
    intro p hp
    simp only [RecvPacketHandler.convertToOutBuff] at hp
    split_ifs at hp with hall
    exact hp
  have htaken : taken (h.convertToOutBuff cfg nsamps).trace =
      already (taken h.trace) h.source + nsamps / cfg.numOutputs := taken_copied _ _ _ _
  have hoffset' : (h.convertToOutBuff cfg nsamps).currInfo.fragmentOffsetInSamps =
      h.currInfo.fragmentOffsetInSamps + nsamps := rfl
  refine ⟨fun p hp => ?_, fun p hp _ hone => ?_, fun p hp hne hseveral => ?_⟩
  · have hcopyBuff : ((h.convertToOutBuff cfg nsamps).currInfo.info 0).copyBuff =
        (h.currInfo.info 0).copyBuff.map (· + nsamps * cfg.bytesPerOtwItem) := rfl
    rw [hcopyBuff, hc.copyBuff p (hheld p hp), hoffset', Nat.add_mul]
    rfl
  · rw [htaken, hoffset', hone, Nat.div_one, ← (hc.already_iff (hheld p hp)).mpr (Or.inl hone)]
  · have htwo : 1 < cfg.numOutputs := lt_of_le_of_ne cfg.numOutputs_pos (Ne.symm hseveral)
    rw [htaken, hoffset']
    rw [hoffset'] at hne
    by_cases hoffset : h.currInfo.fragmentOffsetInSamps = 0
    · rw [← (hc.already_iff (hheld p hp)).mpr (Or.inr hoffset), hoffset]
      rw [hoffset, Nat.zero_add] at hne
      exact Nat.add_lt_add_left (Nat.div_lt_self (Nat.pos_of_ne_zero hne) htwo) 0
    · have hcopyBuff : (h.source 0).copyBuff ≠ some 0 := by
        intro hzero
        have hat : (h.source 0).copyBuff =
          some (h.currInfo.fragmentOffsetInSamps * cfg.bytesPerOtwItem) :=
          hc.copyBuff p (hheld p hp)
        rw [hat, Option.some_inj] at hzero
        exact Nat.mul_ne_zero hoffset cfg.bytesPerOtwItem_pos.ne' hzero
      rw [already, if_neg hcopyBuff]
      exact Nat.add_lt_add_of_lt_of_le (hc.several p (hheld p hp) hoffset hseveral)
        (Nat.div_le_self _ _)

theorem Tracks.convertToOutBuff (ht : Tracks cfg h) (nsamps : ℕ) :
    Tracks cfg (h.convertToOutBuff cfg nsamps) :=
  ⟨ht.curr.convertToOutBuff nsamps, ht.next, ht.other⟩

/-! ## A packet -/

/-- The handler that a packet is copied from: the one that the call begins with, in the middle of a
set, and else the one that the alignment has left. -/
structure CopiesFrom (cfg : Config) (h ready : RecvPacketHandler n) : Prop where
  tracks : Tracks cfg ready
  extends_ : Extends h ready
  readsOn : h.currInfo.dataBytesToCopy ≠ 0 → ready = h
  aligned : h.currInfo.dataBytesToCopy = 0 →
    ready.currInfo.fragmentOffsetInSamps = 0 ∧ Dated cfg ready.currInfo

theorem recvOnePacket_cases (nsampsPerBuff : ℕ) (ht : Tracks cfg h) :
    (∃ thrown h', recvOnePacket cfg nsampsPerBuff h = (.error thrown, h') ∧ Tracks cfg h' ∧
        Extends h h') ∨
      ∃ ready, CopiesFrom cfg h ready ∧
        recvOnePacket cfg nsampsPerBuff h = copySamples cfg nsampsPerBuff ready := by
  rw [recvOnePacket]
  by_cases hdata : h.currInfo.dataBytesToCopy = 0
  · rw [if_pos hdata]
    have hended : Ended cfg h (getAlignedBuffs cfg h) := ended_getAlignedBuffs ht.next ht.other
    rcases houtcome : getAlignedBuffs cfg h with ⟨thrown | done, h'⟩
    · rw [houtcome] at hended
      exact Or.inl ⟨thrown, h', rfl, hended.settled.tracks, hended.extends_⟩
    · rw [houtcome] at hended
      exact Or.inr ⟨h', ⟨hended.settled.tracks, hended.extends_, fun hne => absurd hdata hne,
        fun _ => ⟨hended.settled.curr.offset, hended.dated done rfl⟩⟩, rfl⟩
  · rw [if_neg hdata]
    exact Or.inr ⟨h, ⟨ht, extends_refl h, fun _ => rfl, fun hzero => absurd hzero hdata⟩, rfl⟩

/-- A call leaves a handler that tracks, and has only recorded more. -/
structure Leaves (cfg : Config) (h h' : RecvPacketHandler n) : Prop where
  tracks : Tracks cfg h'
  extends_ : h.trace <+: h'.trace

theorem CopiesFrom.leaves {ready : RecvPacketHandler n} (hr : CopiesFrom cfg h ready)
    (nsampsPerBuff : ℕ) : Leaves cfg h (copySamples cfg nsampsPerBuff ready).2 := by
  obtain ⟨events, hevents, -⟩ := hr.extends_
  refine ⟨hr.tracks.convertToOutBuff _, (List.prefix_append h.trace events).trans ?_⟩
  rw [← hevents]
  exact List.prefix_append _ _

theorem tracks_recvOnePacket (nsampsPerBuff : ℕ) (ht : Tracks cfg h) :
    Leaves cfg h (recvOnePacket cfg nsampsPerBuff h).2 := by
  rcases recvOnePacket_cases nsampsPerBuff ht with
    ⟨thrown, h', heq, htracks, events, hevents, -⟩ | ⟨ready, hready, heq⟩
  · rw [heq]
    exact ⟨htracks, hevents ▸ List.prefix_append _ _⟩
  · rw [heq]
    exact hready.leaves nsampsPerBuff

/-! ## A call -/

/-- What follows the first packet of a call: more may be recorded, but the metadata that is returned
has the time, the offset and the error code of the first packet. -/
structure Continues (cfg : Config) (h : RecvPacketHandler n) (metadata : Metadata)
    (outcome : Outcome n (ℕ × Metadata)) : Prop where
  leaves : Leaves cfg h outcome.2
  timeSpec : ∀ got, outcome.1 = .ok got → got.2.timeSpec = metadata.timeSpec
  fragmentOffset : ∀ got, outcome.1 = .ok got → got.2.fragmentOffset = metadata.fragmentOffset
  errorCode : ∀ got, outcome.1 = .ok got → got.2.errorCode = metadata.errorCode

theorem leaves_refl (ht : Tracks cfg h) : Leaves cfg h h := ⟨ht, List.prefix_refl _⟩

theorem continues_error {thrown : Thrown} {metadata : Metadata} (hl : Leaves cfg h h') :
    Continues cfg h metadata (.error thrown, h') :=
  ⟨hl, (fun _ hgot => nomatch hgot), (fun _ hgot => nomatch hgot), (fun _ hgot => nomatch hgot)⟩

theorem continues_ok {nsamps : ℕ} {metadata returned : Metadata} (hl : Leaves cfg h h')
    (htime : returned.timeSpec = metadata.timeSpec)
    (hoffset : returned.fragmentOffset = metadata.fragmentOffset)
    (hcode : returned.errorCode = metadata.errorCode) :
    Continues cfg h metadata (.ok (nsamps, returned), h') := by
  refine ⟨hl, fun got hgot => ?_, fun got hgot => ?_, fun got hgot => ?_⟩
  · cases hgot
    exact htime
  · cases hgot
    exact hoffset
  · cases hgot
    exact hcode

theorem Continues.of_leaves {metadata : Metadata} {outcome : Outcome n (ℕ × Metadata)}
    (hc : Continues cfg h' metadata outcome) (hl : Leaves cfg h h') :
    Continues cfg h metadata outcome :=
  ⟨⟨hc.leaves.tracks, hl.extends_.trans hc.leaves.extends_⟩, hc.timeSpec, hc.fragmentOffset,
    hc.errorCode⟩

theorem Continues.of_metadata {metadata metadata' : Metadata} {outcome : Outcome n (ℕ × Metadata)}
    (hc : Continues cfg h metadata' outcome) (htime : metadata'.timeSpec = metadata.timeSpec)
    (hoffset : metadata'.fragmentOffset = metadata.fragmentOffset)
    (hcode : metadata'.errorCode = metadata.errorCode) : Continues cfg h metadata outcome :=
  ⟨hc.leaves, fun got hgot => (hc.timeSpec got hgot).trans htime,
    fun got hgot => (hc.fragmentOffset got hgot).trans hoffset,
    fun got hgot => (hc.errorCode got hgot).trans hcode⟩

theorem Leaves.record_threw (hl : Leaves cfg h h') (copied : ℕ) :
    Leaves cfg h (h'.record (.threw copied)) :=
  ⟨hl.tracks.record_threw copied, hl.extends_.trans (List.prefix_append _ _)⟩

theorem continues_recvLoop (nsampsPerBuff fuel : ℕ) :
    ∀ {h : RecvPacketHandler n} {accum : ℕ} {metadata : Metadata}
      {outcome : Outcome n (ℕ × Metadata)}, Tracks cfg h →
      recvLoop cfg nsampsPerBuff fuel accum metadata h = some outcome →
      Continues cfg h metadata outcome := by
  induction fuel with
  | zero => intro h accum metadata outcome _ hloop; exact nomatch hloop
  | succ fuel ih =>
    intro h accum metadata outcome ht hloop
    rw [recvLoop] at hloop
    split_ifs at hloop with hmore
    · have hpacket : Leaves cfg h (recvOnePacket cfg (nsampsPerBuff - accum) h).2 :=
        tracks_recvOnePacket _ ht
      rcases hone : recvOnePacket cfg (nsampsPerBuff - accum) h with
        ⟨thrown | ⟨nsamps, queued⟩, h'⟩
      · rw [hone] at hloop hpacket
        cases hloop
        exact continues_error (hpacket.record_threw accum)
      · rw [hone] at hloop hpacket
        simp only at hloop
        have hqueue : Leaves cfg h { h' with queueMetadata := queued } :=
          ⟨⟨⟨hpacket.tracks.curr.copyBuff, hpacket.tracks.curr.one, hpacket.tracks.curr.several⟩,
            hpacket.tracks.next, hpacket.tracks.other⟩, hpacket.extends_⟩
        split_ifs at hloop with herror hburst
        · cases hloop
          refine continues_ok ⟨⟨⟨hqueue.tracks.curr.copyBuff, hqueue.tracks.curr.one,
            hqueue.tracks.curr.several⟩, hqueue.tracks.next, hqueue.tracks.other⟩,
            hqueue.extends_⟩ rfl rfl rfl
        · cases hloop
          exact continues_ok hqueue rfl rfl rfl
        · exact ((ih hqueue.tracks hloop).of_leaves hqueue).of_metadata rfl rfl rfl
    · cases hloop
      exact continues_ok (leaves_refl ht) rfl rfl rfl

theorem recvPackets_cases {fuel nsampsPerBuff : ℕ} {onePacket : Bool}
    {outcome : Outcome n (ℕ × Metadata)} (ht : Tracks cfg h)
    (hcall : recvPackets cfg fuel nsampsPerBuff onePacket h = some outcome) :
    (∃ thrown h', outcome = (.error thrown, h') ∧ Leaves cfg h h') ∨
      ∃ ready, CopiesFrom cfg h ready ∧
        ∃ got, (copySamples cfg nsampsPerBuff ready).1 = .ok got ∧
          Continues cfg (copySamples cfg nsampsPerBuff ready).2 got.2 outcome := by
  rw [recvPackets] at hcall
  rcases recvOnePacket_cases nsampsPerBuff ht with
    ⟨thrown, h', heq, htracks, events, hevents, -⟩ | ⟨ready, hready, heq⟩
  · rw [heq] at hcall
    cases hcall
    refine Or.inl ⟨thrown, h'.record (.threw 0), rfl, Leaves.record_threw ⟨htracks, ?_⟩ 0⟩
    exact hevents ▸ List.prefix_append _ _
  · rw [heq, copySamples] at hcall
    refine Or.inr ⟨ready, hready, _, rfl, ?_⟩
    have htracks : Tracks cfg (copySamples cfg nsampsPerBuff ready).2 :=
      hready.tracks.convertToOutBuff _
    simp only at hcall
    split_ifs at hcall with hstop herror
    · cases hcall
      exact continues_ok (leaves_refl htracks) rfl rfl rfl
    · cases hcall
      exact continues_ok (leaves_refl htracks) rfl rfl rfl
    · exact continues_recvLoop _ _ htracks hcall

/-! ## The law -/

theorem claim_iff {ready : RecvPacketHandler n} {nsampsPerBuff : ℕ} {got got' : ℕ × Metadata}
    (hr : CopiesFrom cfg h ready) (hgot : (copySamples cfg nsampsPerBuff ready).1 = .ok got)
    (hc : Continues cfg (copySamples cfg nsampsPerBuff ready).2 got.2 (.ok got', h')) :
    (∀ sources p, got'.2.errorCode = errorCodeNone →
        firstCopy (h'.trace.drop h.trace.length) = some sources →
        (sources 0).buff = some (.packet p) →
        got'.2.fragmentOffset = already (taken h.trace) sources ∧
        got'.2.timeSpec.realSecs = p.info.tsf.toNat / cfg.tickRate +
          (already (taken h.trace) sources : ℚ) / cfg.sampRate) ↔
      (h.currInfo.dataBytesToCopy ≠ 0 → h.currInfo.metadata.errorCode = errorCodeNone →
        ∀ p, (h.currInfo.info 0).buff = some (.packet p) →
          (cfg.numOutputs = 1 ∨ h.currInfo.fragmentOffsetInSamps = 0) ∧
          h.currInfo.metadata.timeSpec.realSecs = p.info.tsf.toNat / cfg.tickRate) := by
  obtain ⟨events, hevents, hquiet⟩ := hr.extends_
  obtain ⟨rest, hrest⟩ := hc.leaves.extends_
  have hcopied : (copySamples cfg nsampsPerBuff ready).2.trace = ready.trace ++
      [.copied (nsampsToCopy cfg nsampsPerBuff ready / cfg.numOutputs)
        (nsampsToCopy cfg nsampsPerBuff ready * cfg.bytesPerOtwItem) ready.source] := rfl
  have hfirst : firstCopy (h'.trace.drop h.trace.length) = some ready.source := by
    rw [← hrest, hcopied, hevents, List.append_assoc, List.append_assoc, List.drop_left]
    exact firstCopy_append hquiet _ _ _ rest
  have htaken : taken ready.trace = taken h.trace := by rw [hevents, taken_append _ hquiet]
  have hoffset : got'.2.fragmentOffset = ready.currInfo.fragmentOffsetInSamps := by
    rw [hc.fragmentOffset got' rfl]
    cases hgot
    rfl
  have hcode : got'.2.errorCode = ready.currInfo.metadata.errorCode := by
    rw [hc.errorCode got' rfl]
    cases hgot
    rfl
  have htime : got'.2.timeSpec.realSecs = ready.currInfo.metadata.timeSpec.realSecs +
      (ready.currInfo.fragmentOffsetInSamps : ℚ) / cfg.sampRate := by
    rw [hc.timeSpec got' rfl]
    cases hgot
    rw [TimeSpec.realSecs_add, TimeSpec.realSecs_fromTicks, Int.cast_natCast]
  by_cases hdata : h.currInfo.dataBytesToCopy = 0
  · -- the packet was aligned just now, so that nothing was read of it
    obtain ⟨hzero, hdated⟩ := hr.aligned hdata
    refine ⟨fun _ hne => absurd hdata hne, fun _ sources p _ hsources hp => ?_⟩
    rw [hfirst, Option.some_inj] at hsources
    subst hsources
    have halready := (hr.tracks.curr.already_iff hp).mpr (Or.inr hzero)
    rw [htaken] at halready
    rw [hoffset, htime, ← halready, hdated p hp]
    exact ⟨rfl, rfl⟩
  · have hready : ready = h := hr.readsOn hdata
    subst hready
    refine ⟨fun hclaim _ hnone p hp => ?_, fun hcond sources p hnone hsources hp => ?_⟩
    · obtain ⟨hoff, hsecs⟩ := hclaim ready.source p (hcode.trans hnone) hfirst hp
      rw [hoffset] at hoff
      rw [htime, ← hoff] at hsecs
      exact ⟨(hr.tracks.curr.already_iff hp).mp hoff, add_right_cancel hsecs⟩
    · rw [hfirst, Option.some_inj] at hsources
      subst hsources
      obtain ⟨hor, hdated⟩ := hcond hdata (hcode ▸ hnone) p hp
      have halready := (hr.tracks.curr.already_iff hp).mpr hor
      rw [hoffset, htime, ← halready, hdated]
      exact ⟨rfl, rfl⟩

variable {s t : Session n}

omit [NeZero n] in
theorem ne_returned (returned : List (ℕ × Metadata)) (got : ℕ × Metadata) :
    returned ≠ returned ++ [got] :=
  fun heq => List.cons_ne_nil _ _ (List.self_eq_append_right.mp heq)

theorem timely_iff_of_recvPackets {fuel nsampsPerBuff : ℕ} {onePacket : Bool}
    {outcome : Outcome n (ℕ × Metadata)} (ht : Tracks cfg h)
    (hcall : recvPackets cfg fuel nsampsPerBuff onePacket h = some outcome)
    (htrace : h.trace = s.handler.trace) (hcurr : h.currInfo = s.handler.currInfo)
    (hqueued : ¬ ReturnsQueued s) :
    Tracks cfg (s.next outcome).handler ∧
      (Timely cfg s (s.next outcome) ↔ ((s.next outcome).returned ≠ s.returned →
        ReadsOn cfg s (.recv fuel nsampsPerBuff onePacket))) := by
  rcases recvPackets_cases ht hcall with
    ⟨thrown, h', rfl, hleaves⟩ | ⟨ready, hready, got, hgot, hcontinues⟩
  · refine ⟨hleaves.tracks, fun _ hne => absurd rfl hne, fun _ got sources p hreturned => ?_⟩
    exact absurd hreturned (ne_returned _ got)
  · rcases outcome with ⟨thrown | got', h'⟩
    · refine ⟨hcontinues.leaves.tracks, fun _ hne => absurd rfl hne,
        fun _ got sources p hreturned => ?_⟩
      exact absurd hreturned (ne_returned _ got)
    · refine ⟨hcontinues.leaves.tracks, ?_⟩
      have hclaim := claim_iff hready hgot hcontinues
      rw [htrace, hcurr] at hclaim
      refine ⟨fun htimely _ _ => hclaim.mp fun sources p => htimely got' sources p rfl,
        fun hcond got'' sources p hreturned => ?_⟩
      have heq : got' = got'' := by
        have hlast : s.returned ++ [got'] = s.returned ++ [got''] := hreturned
        rw [List.append_cancel_left_eq, List.singleton_inj] at hlast
        exact hlast
      subst heq
      exact hclaim.mpr (hcond (ne_returned _ got').symm hqueued) sources p

theorem timely_iff {call : Call} (ht : Tracks cfg s.handler) (hstep : step cfg s call = some t) :
    Tracks cfg t.handler ∧
      (Timely cfg s t ↔ (t.returned ≠ s.returned → ReadsOn cfg s call)) := by
  cases call with
  | flushAll =>
    cases hstep
    refine ⟨tracks_flushAll ht, fun _ hne => absurd rfl hne, fun _ got sources p hreturned => ?_⟩
    exact absurd hreturned (ne_returned _ got)
  | recv fuel nsampsPerBuff onePacket =>
    rw [step, recv] at hstep
    have hcleared : Tracks cfg { s.handler with queueErrorForNextCall := false } :=
      ⟨⟨ht.curr.copyBuff, ht.curr.one, ht.curr.several⟩, ht.next, ht.other⟩
    split_ifs at hstep with hqueue hcode
    · cases hstep
      refine ⟨hcleared, fun _ _ hqueued => absurd ⟨hqueue, hcode⟩ hqueued,
        fun _ got sources p _ _ hfirst => ?_⟩
      have hdrop : s.handler.trace.drop s.handler.trace.length = [] := List.drop_length
      rw [Session.next, hdrop] at hfirst
      exact nomatch hfirst
    · obtain ⟨outcome, hcall, rfl⟩ := Option.map_eq_some_iff.mp hstep
      exact timely_iff_of_recvPackets hcleared hcall rfl rfl fun hqueued => hcode hqueued.2
    · obtain ⟨outcome, hcall, rfl⟩ := Option.map_eq_some_iff.mp hstep
      exact timely_iff_of_recvPackets ht hcall rfl rfl fun hqueued => hqueue hqueued.1

/-- **Fragments are dated.**  In a run of calls from a handler that was just made, all that the
calls return is right, exactly if every call that returns meets the condition. -/
theorem timely_iff_everyStep (cfg : Config) (xports : Fin n → List Fetch)
    (actions : List OverflowAction) (calls : List Call) :
    Transition.EveryStep (step cfg)
        (fun s call => ∀ t, step cfg s call = some t → Timely cfg s t)
        (start xports actions) calls ↔
      Transition.EveryStep (step cfg)
        (fun s call => ∀ t, step cfg s call = some t → t.returned ≠ s.returned →
          ReadsOn cfg s call)
        (start xports actions) calls := by
  have hkeeps : ∀ (s : Session n) (call : Call) (t : Session n), Tracks cfg s.handler →
      (∀ u, step cfg s call = some u → u.returned ≠ s.returned → ReadsOn cfg s call) →
      step cfg s call = some t → Tracks cfg t.handler :=
    fun _ _ _ ht _ hstep => (timely_iff ht hstep).1
  refine Transition.everyStep_iff_of_good hkeeps (fun s call ht => ?_)
    (tracks_start xports actions) calls
  exact forall₂_congr fun t hstep => (timely_iff ht hstep).2

/-! ## A packet for two outputs -/

/-- A packet of eight words, and nothing after it. -/
def eightWords : RecvPacket where
  info := { numPayloadWords32 := 8, numPayloadBytes := 32, hasTsf := true, tsf := 100 }

theorem twoOutputs_bytesPerOtwItem_pos : 0 < 4 := by decide

/-- A channel that has two outputs. -/
def twoOutputs : Config where
  alignmentFailureThreshold := 1000
  numOutputs := 2
  bytesPerOtwItem := 4
  tickRate := 10
  sampRate := 1
  numOutputs_pos := Nat.two_pos
  bytesPerOtwItem_pos := twoOutputs_bytesPerOtwItem_pos

/-- The packet, read with room for one sample of each output twice: the second call returns the
offset two, and a time two samples late, where one sample of each output was returned. -/
theorem not_timely_twoOutputs :
    ¬ Transition.EveryStep (step twoOutputs)
        (fun s call => ∀ t, step twoOutputs s call = some t → Timely twoOutputs s t)
        (start (fun _ : Fin 1 => [.buffer (.packet eightWords)]) [])
        [.recv 10 1 true, .recv 10 1 true] := by
  rintro ⟨-, hrest⟩
  obtain ⟨hsecond, -⟩ := hrest _ rfl
  obtain ⟨hoffset, -⟩ := hsecond _ rfl _ _ _ rfl rfl rfl rfl
  revert hoffset
  decide

/-- The packet, read at once. -/
theorem timely_atOnce :
    Transition.EveryStep (step twoOutputs)
      (fun s call => ∀ t, step twoOutputs s call = some t → Timely twoOutputs s t)
      (start (fun _ : Fin 1 => [.buffer (.packet eightWords)]) []) [.recv 10 4 true] :=
  (timely_iff_everyStep twoOutputs _ [] [.recv 10 4 true]).mpr
    ⟨fun _ _ _ _ hdata => absurd rfl hdata, fun _ _ => trivial⟩

end Counts

end RecvHandler
end Transport
end UhdHost
