import Mathlib
import UhdHost.Transport.RecvHandlerFragments

/-!
# Whether a call returns

The loop of `recv` of the receive packet handler of the older devices goes on until it has the
samples that it was called for, or an error, or the end of a burst.  A set of buffers is read until
no bytes of it are left, in whole items.  Where fewer bytes than an item are left, nothing is
copied, and the loop goes on forever.

Otherwise each iteration either copies an item, or fetches a packet, or takes a set which an earlier
call has completed, or ends the loop: `pending` and the bytes of the current set decrease together.

* `advanced_getAlignedBuffs`: what the alignment does to the number of packets.
* `withQueue_recvOnePacket`: the queued metadata do not matter to a packet.
* `exists_recvLoop`: the loop ends, unless it comes to a broken set.
* `recvLoop_eq_none`: with room enough the loop does not end in a broken set.
* `returns_iff`: all calls return exactly if no call begins in a broken set.
-/

namespace UhdHost
namespace Transport
namespace RecvHandler

open RecvPacketHandler

variable {n : ℕ}

/-! ## The packets that are left -/

/-- How much the transports are going to yield. -/
def left (h : RecvPacketHandler n) : ℕ := ∑ i, (h.xports i).length

section Left

variable {prev info : PerBufferInfo} {xport : List Fetch} {packetCount : ℕ}

theorem length_getAndProcess_le :
    (getAndProcessSinglePacket prev xport packetCount info).xport.length ≤ xport.length := by
  induction xport generalizing info with
  | nil => exact le_rfl
  | cons fetch xport ih =>
    rcases fetch with _ | _ | b
    · exact Nat.le_succ _
    · exact Nat.le_succ _
    · rcases b with _ | left | p
      · exact Nat.le_succ _
      · exact Nat.le_succ _
      · rw [getAndProcessSinglePacket]
        split_ifs
        · exact ih.trans (Nat.le_succ _)
        · exact Nat.le_succ _

theorem length_getAndProcess_lt
    (h : (getAndProcessSinglePacket prev xport packetCount info).result ≠ .ok .timeoutError) :
    (getAndProcessSinglePacket prev xport packetCount info).xport.length < xport.length := by
  cases xport with
  | nil => exact absurd rfl h
  | cons fetch xport =>
    rcases fetch with _ | _ | b
    · exact Nat.lt_succ_self _
    · exact Nat.lt_succ_self _
    · rcases b with _ | left | p
      · exact Nat.lt_succ_self _
      · exact Nat.lt_succ_self _
      · rw [getAndProcessSinglePacket]
        split_ifs
        · exact Nat.lt_succ_of_le length_getAndProcess_le
        · exact Nat.lt_succ_self _

theorem length_flushXport_le (fuel : ℕ) :
    ∀ prev xport packetCount, (flushXport fuel prev xport packetCount).1.length ≤ xport.length := by
  induction fuel with
  | zero => exact fun _ _ _ => le_rfl
  | succ fuel ih =>
    intro prev xport packetCount
    rw [flushXport]
    split
    · exact length_getAndProcess_le
    · exact (ih _ _ _).trans length_getAndProcess_le

variable {h : RecvPacketHandler n} {cfg : Config}

theorem left_flushAll_le (h : RecvPacketHandler n) : left h.flushAll ≤ left h :=
  Finset.sum_le_sum fun _ _ => length_flushXport_le _ _ _ _

theorem left_callOverflow_le (h : RecvPacketHandler n) (code : ℕ) :
    left (h.callOverflow code) ≤ left h := by
  rw [RecvPacketHandler.callOverflow, handleOverflow]
  split_ifs
  · exact left_flushAll_le _
  · exact le_rfl

theorem left_inlineMessage_le (h : RecvPacketHandler n) (index : Fin n) :
    left (h.inlineMessage cfg index).2 ≤ left h := by
  rw [RecvPacketHandler.inlineMessage]
  split_ifs
  · exact left_callOverflow_le (h.swapWithMessage cfg index) _
  · exact left_callOverflow_le (h.swapWithMessage cfg index) _
  · exact le_rfl

theorem xports_fetch_self (h : RecvPacketHandler n) (index : Fin n) :
    (h.fetch index).xports index = (h.process index).xport := Function.update_self _ _ _

theorem length_xports_fetch_le (h : RecvPacketHandler n) (index i : Fin n) :
    ((h.fetch index).xports i).length ≤ (h.xports i).length := by
  by_cases hi : i = index
  · rw [hi, xports_fetch_self]
    exact length_getAndProcess_le
  · have hother : (h.fetch index).xports i = h.xports i := Function.update_of_ne hi _ _
    rw [hother]

theorem left_fetch_le (h : RecvPacketHandler n) (index : Fin n) : left (h.fetch index) ≤ left h :=
  Finset.sum_le_sum fun i _ => length_xports_fetch_le h index i

theorem left_fetch_lt {index : Fin n} (hresult : (h.process index).result ≠ .ok .timeoutError) :
    left (h.fetch index) < left h := by
  refine Finset.sum_lt_sum (fun i _ => length_xports_fetch_le h index i)
    ⟨index, Finset.mem_univ index, ?_⟩
  rw [xports_fetch_self]
  exact length_getAndProcess_lt hresult

end Left

/-! ## The alignment -/

section Alignment

variable [NeZero n] {h h' : RecvPacketHandler n} {cfg : Config}

/-- What the alignment does to the packets that are left: there are fewer, or it ends in an error,
or the set was complete before. -/
inductive Advanced (h h' : RecvPacketHandler n) : Prop where
  | fetched (hleft : left h' < left h)
  | failed (hleft : left h' ≤ left h) (herror : h'.currInfo.metadata.errorCode ≠ errorCodeNone)
  | complete (hleft : left h' = left h) (hcomplete : h.currInfo.findFirst = none)
      (hnext : h'.nextInfo = h.nextInfo)

omit [NeZero n] in
theorem Advanced.left_le (ha : Advanced h h') : left h' ≤ left h := by
  cases ha with
  | fetched hleft => exact hleft.le
  | failed hleft herror => exact hleft
  | complete hleft hcomplete hnext => exact hleft.le

theorem advanced_pass :
    (∀ h', alignPass cfg h = .inl (.ok (), h') → Advanced h h') ∧
      ∀ h', alignPass cfg h = .inr h' → left h' < left h := by
  rw [alignPass]
  rcases hfind : h.currInfo.findFirst with _ | index
  · refine ⟨fun h' hh' => ?_, fun h' hh' => by cases hh'⟩
    cases hh'
    exact .complete rfl hfind rfl
  · have hfetch : (h.process index).result ≠ .ok .timeoutError → left (h.fetch index) < left h :=
      left_fetch_lt
    simp only
    rcases hresult : (h.process index).result with thrown | packetType
    · rw [hresult] at hfetch
      refine ⟨fun h' hh' => ?_, fun h' hh' => by rcases thrown <;> cases hh'⟩
      rcases thrown with _ | _ | _ | _
      · cases hh'
        exact .fetched (hfetch fun heq => by cases heq)
      all_goals cases hh'
    · rw [hresult] at hfetch
      rcases packetType with _ | _ | _ | _ | _
      · refine ⟨fun h' hh' => (by cases hh'), fun h' hh' => ?_⟩
        cases hh'
        exact hfetch fun heq => by cases heq
      · refine ⟨fun h' hh' => (by cases hh'), fun h' hh' => ?_⟩
        cases hh'
        exact hfetch fun heq => by cases heq
      · refine ⟨fun h' hh' => ?_, fun h' hh' => by cases hh'⟩
        have hmessage : ((h.fetch index).inlineMessage cfg index).2 = h' :=
          congrArg Prod.snd (Sum.inl.inj hh')
        rw [← hmessage]
        exact .fetched ((left_inlineMessage_le _ index).trans_lt (hfetch fun heq => by cases heq))
      · refine ⟨fun h' hh' => ?_, fun h' hh' => by cases hh'⟩
        cases hh'
        exact .failed (left_fetch_le h index) (show errorCodeTimeout ≠ errorCodeNone by decide)
      · refine ⟨fun h' hh' => ?_, fun h' hh' => by cases hh'⟩
        cases hh'
        exact .fetched (hfetch fun heq => by cases heq)

theorem advanced_alignLoop (remaining : ℕ) :
    ∀ {h h' : RecvPacketHandler n}, alignLoop cfg remaining h = (.ok (), h') → Advanced h h' := by
  induction remaining with
  | zero =>
    intro h h' hloop
    rw [alignLoop] at hloop
    obtain ⟨hends, hgoes⟩ : (∀ h', alignPass cfg h = .inl (.ok (), h') → Advanced h h') ∧
      ∀ h', alignPass cfg h = .inr h' → left h' < left h := advanced_pass
    rcases halign : alignPass cfg h with outcome | h₁
    · rw [halign] at hloop
      exact hends h' (halign.trans (congrArg Sum.inl hloop))
    · rw [halign] at hloop
      have hfailure : h₁.alignmentFailure.2 = h' := congrArg Prod.snd hloop
      rw [← hfailure]
      exact .fetched ((left_callOverflow_le (h₁.swapWithError errorCodeAlignment) _).trans_lt
        (hgoes h₁ halign))
  | succ remaining ih =>
    intro h h' hloop
    rw [alignLoop] at hloop
    obtain ⟨hends, hgoes⟩ : (∀ h', alignPass cfg h = .inl (.ok (), h') → Advanced h h') ∧
      ∀ h', alignPass cfg h = .inr h' → left h' < left h := advanced_pass
    rcases halign : alignPass cfg h with outcome | h₁
    · rw [halign] at hloop
      exact hends h' (halign.trans (congrArg Sum.inl hloop))
    · rw [halign] at hloop
      exact .fetched ((ih hloop).left_le.trans_lt (hgoes h₁ halign))

/-- The packets that are left, and a next set that needs none. -/
def pending (h : RecvPacketHandler n) : ℕ :=
  2 * left h + if h.nextInfo.findFirst = none then 1 else 0

theorem Bare.findFirst_ne_none {s : BuffersInfo n} (hs : Bare s) : s.findFirst ≠ none := by
  intro hnone
  rw [BuffersInfo.findFirst, List.find?_eq_none] at hnone
  exact hnone 0 (List.mem_finRange 0) hs.todo

theorem pending_getAlignedBuffs (hother : Bare h.otherInfo)
    (halign : getAlignedBuffs cfg h = (.ok (), h')) :
    h'.currInfo.metadata.errorCode ≠ errorCodeNone ∨ pending h' < pending h := by
  have hadvanced : Advanced _ h' := advanced_alignLoop _ halign
  have hmost : pending h' ≤ 2 * left h' + 1 := by
    rw [pending]
    split_ifs <;> omega
  have hleast : 2 * left h ≤ pending h := Nat.le_add_right _ _
  cases hadvanced with
  | fetched hleft =>
    have hless : left h' < left h := hleft
    exact Or.inr (by omega)
  | failed hleft herror => exact Or.inl herror
  | complete hleft hcomplete hnext =>
    right
    have hequal : left h' = left h := hleft
    have hbare : h'.nextInfo.findFirst ≠ none := hnext ▸ hother.findFirst_ne_none
    have hdone : h.nextInfo.findFirst = none := hcomplete
    rw [pending, pending, if_neg hbare, if_pos hdone, hequal]
    exact Nat.lt_succ_self _

end Alignment

/-! ## Broken sets -/

section Loop

variable [NeZero n] {h h' : RecvPacketHandler n} {cfg : Config}

/-- The set is read to its end: what is left of it are whole items, unless it ends a burst or
carries an error. -/
def Whole (cfg : Config) (s : BuffersInfo n) : Prop :=
  cfg.bytesPerOtwItem ∣ s.dataBytesToCopy ∨ s.metadata.endOfBurst = true ∨
    s.metadata.errorCode ≠ errorCodeNone

omit [NeZero n] in
theorem nsampsToCopy_mul_le (nsampsPerBuff : ℕ) (h : RecvPacketHandler n) :
    nsampsToCopy cfg nsampsPerBuff h * cfg.bytesPerOtwItem ≤ h.currInfo.dataBytesToCopy :=
  (Nat.mul_le_mul_right _ (min_le_right _ _)).trans (Nat.div_mul_le_self _ _)

omit [NeZero n] in
theorem nsampsToCopy_pos {nsampsPerBuff : ℕ} (hroom : 0 < nsampsPerBuff)
    (hitem : cfg.bytesPerOtwItem ≤ h.currInfo.dataBytesToCopy) :
    0 < nsampsToCopy cfg nsampsPerBuff h :=
  lt_min (Nat.mul_pos hroom cfg.numOutputs_pos) (Nat.div_pos hitem cfg.bytesPerOtwItem_pos)

theorem recvOnePacket_ok {nsampsPerBuff : ℕ} {got : ℕ × Metadata}
    (hpacket : recvOnePacket cfg nsampsPerBuff h = (.ok got, h')) :
    ∃ ready, copySamples cfg nsampsPerBuff ready = (.ok got, h') ∧
      ((h.currInfo.dataBytesToCopy ≠ 0 ∧ ready = h) ∨
        (h.currInfo.dataBytesToCopy = 0 ∧ getAlignedBuffs cfg h = (.ok (), ready))) := by
  rw [recvOnePacket] at hpacket
  by_cases hdata : h.currInfo.dataBytesToCopy = 0
  · rw [if_pos hdata] at hpacket
    rcases halign : getAlignedBuffs cfg h with ⟨thrown | done, ready⟩
    · rw [halign] at hpacket
      cases hpacket
    · rw [halign] at hpacket
      exact ⟨ready, hpacket, Or.inr ⟨hdata, rfl⟩⟩
  · rw [if_neg hdata] at hpacket
    exact ⟨h, hpacket, Or.inl ⟨hdata, rfl⟩⟩

theorem recvOnePacket_decreases {nsampsPerBuff : ℕ} {got : ℕ × Metadata} (hroom : 0 < nsampsPerBuff)
    (hother : Bare h.otherInfo) (hwhole : Whole cfg h.currInfo)
    (hpacket : recvOnePacket cfg nsampsPerBuff h = (.ok got, h'))
    (herror : got.2.errorCode = errorCodeNone) (hburst : got.2.endOfBurst = false) :
    pending h' < pending h ∨
      pending h' = pending h ∧ h'.currInfo.dataBytesToCopy < h.currInfo.dataBytesToCopy := by
  obtain ⟨ready, hcopy, hready⟩ := recvOnePacket_ok hpacket
  cases hcopy
  rcases hready with ⟨hdata, rfl⟩ | ⟨hdata, halign⟩
  · right
    have hdvd : cfg.bytesPerOtwItem ∣ ready.currInfo.dataBytesToCopy := by
      rcases hwhole with hdvd | hends | hfailed
      · exact hdvd
      · exact absurd hends (Bool.eq_false_iff.mp hburst)
      · exact absurd herror hfailed
    have hpos : 0 < nsampsToCopy cfg nsampsPerBuff ready * cfg.bytesPerOtwItem :=
      Nat.mul_pos (nsampsToCopy_pos hroom (Nat.le_of_dvd (Nat.pos_of_ne_zero hdata) hdvd))
        cfg.bytesPerOtwItem_pos
    exact ⟨rfl, Nat.sub_lt (Nat.pos_of_ne_zero hdata) hpos⟩
  · left
    exact (pending_getAlignedBuffs hother halign).resolve_left fun hne => hne herror

theorem exists_recvLoop {P : RecvPacketHandler n → Prop} {nsampsPerBuff : ℕ}
    (hclosed : ∀ h m got h', P h → recvOnePacket cfg m h = (.ok got, h') →
      P { h' with queueMetadata := got.2 })
    (hbare : ∀ h, P h → Bare h.otherInfo) (hwhole : ∀ h, P h → Whole cfg h.currInfo)
    (accum : ℕ) (metadata : Metadata) (hP : P h) :
    ∃ fuel, recvLoop cfg nsampsPerBuff fuel accum metadata h ≠ none := by
  -- the induction is on what is pending, and then on the bytes of the current set
  induction hpending : pending h using Nat.strong_induction_on generalizing h accum metadata with
  | _ count ihPending =>
  induction hbytes : h.currInfo.dataBytesToCopy using Nat.strong_induction_on
    generalizing h accum metadata with
  | _ bytes ihBytes =>
  by_cases hmore : accum < nsampsPerBuff
  · rcases hpacket : recvOnePacket cfg (nsampsPerBuff - accum) h with
      ⟨thrown | ⟨nsamps, queued⟩, h'⟩
    · refine ⟨1, ?_⟩
      rw [recvLoop, if_pos hmore, hpacket]
      exact Option.some_ne_none _
    · by_cases herror : queued.errorCode = errorCodeNone
      · by_cases hburst : queued.endOfBurst = true
        · refine ⟨1, ?_⟩
          rw [recvLoop, if_pos hmore, hpacket]
          simp only
          rw [if_neg (not_not_intro herror), if_pos hburst]
          exact Option.some_ne_none _
        · have hP' : P { h' with queueMetadata := queued } := hclosed h _ _ h' hP hpacket
          have hgoes : ∃ fuel, recvLoop cfg nsampsPerBuff fuel (accum + nsamps)
              { metadata with endOfBurst := queued.endOfBurst }
              { h' with queueMetadata := queued } ≠ none := by
            rcases recvOnePacket_decreases (Nat.sub_pos_of_lt hmore) (hbare h hP)
              (hwhole h hP) hpacket herror (Bool.eq_false_iff.mpr hburst) with
              hless | ⟨hsame, hless⟩
            · exact ihPending (pending h') (hpending ▸ hless) _ _ hP' rfl
            · exact ihBytes h'.currInfo.dataBytesToCopy (hbytes ▸ hless) _ _ hP'
                (hsame.trans hpending) rfl
          obtain ⟨fuel, hloop⟩ := hgoes
          refine ⟨fuel + 1, ?_⟩
          rw [recvLoop, if_pos hmore, hpacket]
          simp only
          rw [if_neg (not_not_intro herror), if_neg hburst]
          exact hloop
      · refine ⟨1, ?_⟩
        rw [recvLoop, if_pos hmore, hpacket]
        simp only
        rw [if_pos herror]
        exact Option.some_ne_none _
  · refine ⟨1, ?_⟩
    rw [recvLoop, if_neg hmore]
    exact Option.some_ne_none _

theorem recvOnePacket_broken (nsampsPerBuff : ℕ) (hbroken : ¬ Whole cfg h.currInfo) :
    ∃ got h', recvOnePacket cfg nsampsPerBuff h = (.ok got, h') ∧
      got.2.errorCode = errorCodeNone ∧ got.2.endOfBurst = false ∧ ¬ Whole cfg h'.currInfo ∧
      got.1 + h'.currInfo.dataBytesToCopy ≤ h.currInfo.dataBytesToCopy := by
  obtain ⟨hdvd, hburst, herror⟩ : ¬ cfg.bytesPerOtwItem ∣ h.currInfo.dataBytesToCopy ∧
      ¬ h.currInfo.metadata.endOfBurst = true ∧
      ¬ h.currInfo.metadata.errorCode ≠ errorCodeNone := by
    rw [Whole, not_or, not_or] at hbroken
    exact hbroken
  have hdata : h.currInfo.dataBytesToCopy ≠ 0 := by
    intro hzero
    rw [hzero] at hdvd
    exact hdvd (dvd_zero _)
  have hle : nsampsToCopy cfg nsampsPerBuff h * cfg.bytesPerOtwItem ≤
      h.currInfo.dataBytesToCopy := nsampsToCopy_mul_le nsampsPerBuff h
  have hbytes : (copySamples cfg nsampsPerBuff h).2.currInfo.dataBytesToCopy =
      h.currInfo.dataBytesToCopy - nsampsToCopy cfg nsampsPerBuff h * cfg.bytesPerOtwItem := rfl
  have hpacket : recvOnePacket cfg nsampsPerBuff h = copySamples cfg nsampsPerBuff h := by
    rw [recvOnePacket, if_neg hdata]
  refine ⟨_, (copySamples cfg nsampsPerBuff h).2, hpacket, not_not.mp herror,
    Bool.eq_false_iff.mpr hburst, ?_, ?_⟩
  · rintro (hdvd' | hburst' | herror')
    · rw [hbytes] at hdvd'
      exact hdvd ((Nat.dvd_sub_iff_left hle (Nat.dvd_mul_left _ _)).mp hdvd')
    · exact hburst hburst'
    · exact herror herror'
  · rw [hbytes]
    have hdiv : nsampsToCopy cfg nsampsPerBuff h / cfg.numOutputs ≤
        nsampsToCopy cfg nsampsPerBuff h * cfg.bytesPerOtwItem :=
      (Nat.div_le_self _ _).trans (Nat.le_mul_of_pos_right _ cfg.bytesPerOtwItem_pos)
    exact (Nat.add_le_add_right hdiv _).trans_eq (Nat.add_sub_cancel' hle)

theorem recvLoop_eq_none {nsampsPerBuff : ℕ} (fuel : ℕ) :
    ∀ {h : RecvPacketHandler n} {accum : ℕ} {metadata : Metadata}, ¬ Whole cfg h.currInfo →
      accum + h.currInfo.dataBytesToCopy < nsampsPerBuff →
      recvLoop cfg nsampsPerBuff fuel accum metadata h = none := by
  induction fuel with
  | zero => exact fun _ _ => rfl
  | succ fuel ih =>
    intro h accum metadata hbroken hroom
    obtain ⟨⟨nsamps, queued⟩, h', hpacket, herror, hburst, hbroken', hle⟩ :=
      recvOnePacket_broken (nsampsPerBuff - accum) hbroken
    have hroom' : accum + nsamps + h'.currInfo.dataBytesToCopy < nsampsPerBuff := by
      rw [Nat.add_assoc]
      exact (Nat.add_le_add_left hle accum).trans_lt hroom
    have hgoes : ¬ queued.endOfBurst = true := Bool.eq_false_iff.mp hburst
    rw [recvLoop, if_pos ((Nat.le_add_right _ _).trans_lt hroom), hpacket]
    simp only
    rw [if_neg (not_not_intro herror), if_neg hgoes]
    exact ih hbroken' hroom'

end Loop

/-! ## The queued metadata -/

section Queue

variable [NeZero n] {h h' : RecvPacketHandler n} {cfg : Config}

/-- The handler with other queued metadata. -/
def withQueue (h : RecvPacketHandler n) (metadata : Metadata) (queued : Bool) :
    RecvPacketHandler n :=
  { h with queueMetadata := metadata, queueErrorForNextCall := queued }

variable (metadata : Metadata) (queued : Bool)

/-- An outcome with other queued metadata. -/
def outcomeWithQueue {α : Type} (outcome : Outcome n α) : Outcome n α :=
  (outcome.1, withQueue outcome.2 metadata queued)

omit [NeZero n] in
theorem withQueue_callOverflow (h : RecvPacketHandler n) (code : ℕ) :
    (withQueue h metadata queued).callOverflow code =
      withQueue (h.callOverflow code) metadata queued := by
  rw [RecvPacketHandler.callOverflow, RecvPacketHandler.callOverflow, handleOverflow,
    handleOverflow]
  split_ifs with hflush hflush' hflush'
  · rfl
  · exact absurd hflush hflush'
  · exact absurd hflush' hflush
  · rfl

omit [NeZero n] in
theorem withQueue_inlineMessage (h : RecvPacketHandler n) (index : Fin n) :
    (withQueue h metadata queued).inlineMessage cfg index =
      outcomeWithQueue metadata queued (h.inlineMessage cfg index) := by
  have hswap : (withQueue h metadata queued).swapWithMessage cfg index =
      withQueue (h.swapWithMessage cfg index) metadata queued := rfl
  have hcode : (withQueue h metadata queued).contextCode index = h.contextCode index := rfl
  have haction : (withQueue h metadata queued).overflowAction = h.overflowAction := rfl
  rw [RecvPacketHandler.inlineMessage, RecvPacketHandler.inlineMessage, hswap, hcode, haction,
    withQueue_callOverflow]
  split_ifs <;> rfl

theorem withQueue_alignPass (h : RecvPacketHandler n) :
    alignPass cfg (withQueue h metadata queued) =
      Sum.map (outcomeWithQueue metadata queued) (fun h' => withQueue h' metadata queued)
        (alignPass cfg h) := by
  have hcurr : (withQueue h metadata queued).currInfo = h.currInfo := rfl
  have hprocess : ∀ index,
      (withQueue h metadata queued).process index = h.process index := fun _ => rfl
  have hfetch : ∀ index, (withQueue h metadata queued).fetch index =
      withQueue (h.fetch index) metadata queued := fun _ => rfl
  rw [alignPass, alignPass, hcurr]
  rcases h.currInfo.findFirst with _ | index
  · rfl
  · simp only [hprocess, hfetch, withQueue_inlineMessage]
    rcases (h.process index).result with thrown | packetType
    · rcases thrown with _ | _ | _ | _ <;> rfl
    · rcases packetType with _ | _ | _ | _ | _ <;> rfl

theorem withQueue_alignLoop (remaining : ℕ) (h : RecvPacketHandler n) :
    alignLoop cfg remaining (withQueue h metadata queued) =
      outcomeWithQueue metadata queued (alignLoop cfg remaining h) := by
  induction remaining generalizing h with
  | zero =>
    rw [alignLoop, alignLoop, withQueue_alignPass]
    rcases alignPass cfg h with outcome | h'
    · rfl
    · exact Prod.ext rfl
        (withQueue_callOverflow metadata queued (h'.swapWithError errorCodeAlignment) _)
  | succ remaining ih =>
    rw [alignLoop, alignLoop, withQueue_alignPass]
    rcases alignPass cfg h with outcome | h'
    · rfl
    · exact ih h'

theorem withQueue_recvOnePacket (nsampsPerBuff : ℕ) (h : RecvPacketHandler n) :
    recvOnePacket cfg nsampsPerBuff (withQueue h metadata queued) =
      outcomeWithQueue metadata queued (recvOnePacket cfg nsampsPerBuff h) := by
  have hcurr : (withQueue h metadata queued).currInfo = h.currInfo := rfl
  have halign : getAlignedBuffs cfg (withQueue h metadata queued) =
      outcomeWithQueue metadata queued (getAlignedBuffs cfg h) :=
    withQueue_alignLoop metadata queued _
      { h.increment with currInfo := h.increment.currInfo.withError errorCodeNone }
  rw [recvOnePacket, recvOnePacket, hcurr, halign]
  split_ifs
  · rcases getAlignedBuffs cfg h with ⟨thrown | done, h'⟩
    · rfl
    · rfl
  · rfl

end Queue

/-! ## Calls -/

section Calls

variable [NeZero n] {cfg : Config} {xports : Fin n → List Fetch} {actions : List OverflowAction}
  {s t : Session n} {h h' : RecvPacketHandler n}

/-- A session that calls lead to from a handler that was just made. -/
def Reachable (cfg : Config) (xports : Fin n → List Fetch) (actions : List OverflowAction)
    (s : Session n) : Prop :=
  ∃ calls, Transition.run (step cfg) (start xports actions) calls = some s

/-- **What is claimed** of a call: it returns, or an exception ends it. -/
def Returns (cfg : Config) (s : Session n) (nsampsPerBuff : ℕ) (onePacket : Bool) : Prop :=
  ∃ fuel t, step cfg s (.recv fuel nsampsPerBuff onePacket) = some t

theorem Reachable.step {call : Call} (hs : Reachable cfg xports actions s)
    (hstep : step cfg s call = some t) : Reachable cfg xports actions t := by
  obtain ⟨calls, hrun⟩ := hs
  refine ⟨calls ++ [call], ?_⟩
  rw [Transition.run_append, hrun]
  exact Transition.run_cons_eq_some.mpr ⟨t, hstep, rfl⟩

theorem Reachable.tracks (hs : Reachable cfg xports actions s) : Tracks cfg s.handler := by
  obtain ⟨calls, hrun⟩ := hs
  exact Transition.run_invariant (I := fun s : Session n => Tracks cfg s.handler)
    (fun _ _ _ ht hstep => (timely_iff ht hstep).1) (tracks_start xports actions) hrun

theorem exists_cleared (hs : Reachable cfg xports actions s) :
    ∃ t, Reachable cfg xports actions t ∧
      t.handler = withQueue s.handler s.handler.queueMetadata t.handler.queueErrorForNextCall ∧
      ∀ fuel nsampsPerBuff onePacket, step cfg t (.recv fuel nsampsPerBuff onePacket) =
        (recvPackets cfg fuel nsampsPerBuff onePacket
          (withQueue s.handler s.handler.queueMetadata false)).map t.next := by
  by_cases hqueue : s.handler.queueErrorForNextCall = true
  · by_cases hcode : s.handler.queueMetadata.errorCode = errorCodeTimeout
    · refine ⟨s, hs, rfl, fun fuel nsampsPerBuff onePacket => ?_⟩
      rw [step, recv, if_pos hqueue, if_neg (not_not_intro hcode)]
      rfl
    · have hclear : step cfg s (.recv 0 0 true) = some
          (s.next (.ok (0, s.handler.queueMetadata),
            withQueue s.handler s.handler.queueMetadata false)) := by
        rw [step, recv, if_pos hqueue, if_pos hcode]
        rfl
      exact ⟨_, hs.step hclear, rfl, fun _ _ _ => rfl⟩
  · have hsame : withQueue s.handler s.handler.queueMetadata false = s.handler := by
      rw [← Bool.eq_false_iff.mpr hqueue]
      rfl
    refine ⟨s, hs, rfl, fun fuel nsampsPerBuff onePacket => ?_⟩
    rw [step, recv, if_neg hqueue, hsame]

/-- The handler is that of a reachable session, but for the queued metadata. -/
def Visited (cfg : Config) (xports : Fin n → List Fetch) (actions : List OverflowAction)
    (h : RecvPacketHandler n) : Prop :=
  ∃ s metadata queued, Reachable cfg xports actions s ∧ h = withQueue s.handler metadata queued

theorem visited_recvOnePacket {nsampsPerBuff : ℕ} {got : ℕ × Metadata}
    (hvisited : Visited cfg xports actions h)
    (hpacket : recvOnePacket cfg nsampsPerBuff h = (.ok got, h')) :
    Visited cfg xports actions { h' with queueMetadata := got.2 } := by
  obtain ⟨s, metadata, queued, hs, rfl⟩ := hvisited
  obtain ⟨t, ht, -, hcalls⟩ := exists_cleared hs
  rw [withQueue_recvOnePacket] at hpacket
  rcases hone : recvOnePacket cfg nsampsPerBuff s.handler with ⟨result, h₁⟩
  rw [hone] at hpacket
  cases hpacket
  have hcall : step cfg t (.recv 0 nsampsPerBuff true) =
      some (t.next (.ok got, withQueue h₁ s.handler.queueMetadata false)) := by
    rw [hcalls, recvPackets, withQueue_recvOnePacket, hone]
    rfl
  exact ⟨_, got.2, queued, ht.step hcall, rfl⟩

omit [NeZero n] in
theorem Visited.withQueue [NeZero n] (hvisited : Visited cfg xports actions h)
    (metadata : Metadata) (queued : Bool) :
    Visited cfg xports actions (withQueue h metadata queued) := by
  obtain ⟨s, _, _, hs, rfl⟩ := hvisited
  exact ⟨s, metadata, queued, hs, rfl⟩

theorem exists_recvPackets
    (hwhole : ∀ s, Reachable cfg xports actions s → Whole cfg s.handler.currInfo)
    (hvisited : Visited cfg xports actions h) (nsampsPerBuff : ℕ) (onePacket : Bool) :
    ∃ fuel outcome, recvPackets cfg fuel nsampsPerBuff onePacket h = some outcome := by
  rcases hpacket : recvOnePacket cfg nsampsPerBuff h with ⟨thrown | ⟨nsamps, metadata⟩, h'⟩
  · refine ⟨0, (.error thrown, h'.record (.threw 0)), ?_⟩
    rw [recvPackets, hpacket]
  · have hvisited' : Visited cfg xports actions h' :=
      (visited_recvOnePacket hvisited hpacket).withQueue h'.queueMetadata h'.queueErrorForNextCall
    have hwhole' : ∀ h, Visited cfg xports actions h → Whole cfg h.currInfo := by
      rintro h ⟨s, metadata, queued, hs, rfl⟩
      exact hwhole s hs
    have hbare : ∀ h, Visited cfg xports actions h → Bare h.otherInfo := by
      rintro h ⟨s, metadata, queued, hs, rfl⟩
      exact hs.tracks.other
    obtain ⟨fuel, hloop⟩ : ∃ fuel, recvLoop cfg nsampsPerBuff fuel nsamps metadata h' ≠ none :=
      exists_recvLoop (fun _ _ _ _ => visited_recvOnePacket) hbare hwhole' nsamps metadata hvisited'
    obtain ⟨outcome, hloop⟩ := Option.ne_none_iff_exists'.mp hloop
    by_cases hstop : (onePacket || metadata.endOfBurst) = true
    · refine ⟨0, (.ok (nsamps, metadata), h'), ?_⟩
      rw [recvPackets, hpacket]
      exact if_pos hstop
    · by_cases herror : metadata.errorCode ≠ errorCodeNone
      · refine ⟨0, (.ok (nsamps, metadata), h'), ?_⟩
        rw [recvPackets, hpacket]
        exact (if_neg hstop).trans (if_pos herror)
      · refine ⟨fuel, outcome, ?_⟩
        rw [recvPackets, hpacket]
        exact ((if_neg hstop).trans (if_neg herror)).trans hloop

theorem returns_of_whole
    (hwhole : ∀ s, Reachable cfg xports actions s → Whole cfg s.handler.currInfo)
    (hs : Reachable cfg xports actions s) (nsampsPerBuff : ℕ) (onePacket : Bool) :
    Returns cfg s nsampsPerBuff onePacket := by
  obtain ⟨fuel, outcome, hcall⟩ := exists_recvPackets hwhole
    ⟨s, s.handler.queueMetadata, false, hs, rfl⟩ nsampsPerBuff onePacket
  obtain ⟨fuel', outcome', hcall'⟩ := exists_recvPackets hwhole
    ⟨s, s.handler.queueMetadata, s.handler.queueErrorForNextCall, hs, rfl⟩ nsampsPerBuff onePacket
  by_cases hqueue : s.handler.queueErrorForNextCall = true
  · by_cases hcode : s.handler.queueMetadata.errorCode ≠ errorCodeTimeout
    · refine ⟨0, s.next (.ok (0, s.handler.queueMetadata),
        withQueue s.handler s.handler.queueMetadata false), ?_⟩
      rw [step, recv, if_pos hqueue, if_pos hcode]
      rfl
    · refine ⟨fuel, s.next outcome, ?_⟩
      rw [step, recv, if_pos hqueue, if_neg hcode]
      exact congrArg (Option.map s.next) hcall
  · refine ⟨fuel', s.next outcome', ?_⟩
    rw [step, recv, if_neg hqueue]
    exact congrArg (Option.map s.next) hcall'

theorem recvPackets_eq_none (hbroken : ¬ Whole cfg h.currInfo) {nsampsPerBuff : ℕ}
    (hroom : h.currInfo.dataBytesToCopy < nsampsPerBuff) (fuel : ℕ) :
    recvPackets cfg fuel nsampsPerBuff false h = none := by
  obtain ⟨⟨nsamps, metadata⟩, h', hpacket, herror, hburst, hbroken', hle⟩ :=
    recvOnePacket_broken nsampsPerBuff hbroken
  have hstop : ¬ (false || metadata.endOfBurst) = true := by
    rw [Bool.false_or]
    exact Bool.eq_false_iff.mp hburst
  rw [recvPackets, hpacket]
  exact ((if_neg hstop).trans (if_neg (not_not_intro herror))).trans
    (recvLoop_eq_none fuel hbroken' (hle.trans_lt hroom))

/-- **All calls return**, exactly if no call begins in a broken set. -/
theorem returns_iff (cfg : Config) (xports : Fin n → List Fetch) (actions : List OverflowAction) :
    (∀ s, Reachable cfg xports actions s → ∀ nsampsPerBuff onePacket,
        Returns cfg s nsampsPerBuff onePacket) ↔
      ∀ s, Reachable cfg xports actions s → Whole cfg s.handler.currInfo := by
  refine ⟨fun hreturns s hs => ?_, fun hwhole s hs => returns_of_whole hwhole hs⟩
  by_contra hbroken
  obtain ⟨t, ht, -, hcalls⟩ := exists_cleared hs
  obtain ⟨fuel, u, hcall⟩ := hreturns t ht (s.handler.currInfo.dataBytesToCopy + 1) false
  have hnone : recvPackets cfg fuel (s.handler.currInfo.dataBytesToCopy + 1) false
      (withQueue s.handler s.handler.queueMetadata false) = none :=
    recvPackets_eq_none (h := withQueue s.handler s.handler.queueMetadata false) hbroken
      (Nat.lt_succ_self _) fuel
  rw [hcalls, hnone] at hcall
  exact nomatch hcall

/-! ## Half an item -/

/-- A packet whose trailer marks two bytes of its one word as empty. -/
def halfItem : RecvPacket where
  info := { numPayloadWords32 := 1, numPayloadBytes := 2 }

/-- One channel and one output, with items of so many bytes. -/
def oneOutput (bytesPerOtwItem : ℕ) (hpos : 0 < bytesPerOtwItem) : Config where
  alignmentFailureThreshold := 1000
  numOutputs := 1
  bytesPerOtwItem := bytesPerOtwItem
  tickRate := 1
  sampRate := 1
  numOutputs_pos := by decide
  bytesPerOtwItem_pos := hpos

/-- **Half an item** has come, and nothing else: a call for three samples does not return. -/
theorem not_returns_halfItem :
    ¬ Returns (oneOutput 4 (by decide))
      (start (fun _ : Fin 1 => [.buffer (.packet halfItem)]) []) 3 false := by
  rintro ⟨fuel, t, hcall⟩
  let h := (recvOnePacket (oneOutput 4 (by decide)) 3
    (start (fun _ : Fin 1 => [.buffer (.packet halfItem)]) []).handler).2
  have hbroken : ¬ Whole (oneOutput 4 (by decide)) h.currInfo := by
    rintro (hdvd | hburst | herror)
    · exact absurd (show 4 ∣ 2 from hdvd) (by decide)
    · exact nomatch (show false = true from hburst)
    · exact herror rfl
  have hloop : ∀ metadata, recvLoop (oneOutput 4 (by decide)) 3 fuel 0 metadata h = none :=
    fun metadata => recvLoop_eq_none fuel hbroken (show 0 + 2 < 3 by decide)
  exact nomatch (congrArg (Option.map _) (hloop _)).symm.trans hcall

/-- With items of one byte, the call returns. -/
theorem returns_halfItem :
    Returns (oneOutput 1 (by decide))
      (start (fun _ : Fin 1 => [.buffer (.packet halfItem)]) []) 3 false :=
  (returns_iff (oneOutput 1 (by decide)) _ []).mpr (fun _ _ => Or.inl (one_dvd _)) _ ⟨[], rfl⟩ 3
    false

end Calls

end RecvHandler
end Transport
end UhdHost
