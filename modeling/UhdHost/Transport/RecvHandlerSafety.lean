import UhdHost.Transport.RecvPacketHandler

/-!
# What the older receive packet handler copies from

`data_bytes_to_copy` of the current set is taken from the first channel that has a packet of the time
of the set, as soon as it has one.  Nothing compares it with the packets that the other channels add
later, and an exception leaves the set behind as it is at that moment.

* `Filled`: the channels of a set that are done hold a packet each, with as many bytes left as
  are to be copied from it.  This is kept as long as no packet that is added to a set is shorter
  than the first one (`filled_alignmentCheck`).
* `holds_pass`: what an iteration of `get_aligned_buffs` makes of a ring whose next set is fresh.
* `sound_of_run`: whatever is called, in whatever order, nothing is copied from an absent buffer or
  from beyond the end of one, unless such a packet was added to a set or an exception was thrown
  while there was a packet in a set.
-/

namespace UhdHost
namespace Transport
namespace RecvHandler

open RecvPacketHandler

variable {n : ℕ}

/-! ## Buffers with something left -/

/-- A packet is held, and from where the next bytes are copied there are so many bytes left. -/
def Left (buff : Option RecvBuffer) (copyBuff : Option ℕ) (bytes : ℕ) : Prop :=
  ∃ p offset, buff = some (.packet p) ∧ copyBuff = some offset ∧
    offset + bytes ≤ p.info.numPayloadBytes

/-- **What is claimed of the current set**: there is something to copy only if every channel holds a
packet with so many bytes left. -/
def Ready (s : BuffersInfo n) : Prop :=
  s.dataBytesToCopy ≠ 0 → ∀ i, Left (s.info i).buff (s.info i).copyBuff s.dataBytesToCopy

/-- What is copied is there. -/
def Event.Reads : Event n → Prop
  | .copied _ bytes sources => bytes ≠ 0 → ∀ i, Left (sources i).buff (sources i).copyBuff bytes
  | _ => True

/-- The current set is as claimed, and nothing was copied from where nothing is. -/
def Sound (h : RecvPacketHandler n) : Prop :=
  Ready h.currInfo ∧ ∀ event ∈ h.trace, event.Reads

/-- **The condition.**  An exception other than that of a bad header comes only while the set has no
bytes to copy, and a packet that is added to a set is not shorter than its first one. -/
def Event.Safe : Event n → Prop
  | .fetched s _ (.error thrown) _ => thrown ≠ .valueError → s.dataBytesToCopy = 0
  | .fetched s _ (.ok packetType) info =>
    packetType ≠ .inlineMessage → packetType ≠ .timeoutError → s.alignmentTimeValid = true →
      info.time = s.alignmentTime → s.dataBytesToCopy ≤ info.ifpi.numPayloadBytes
  | _ => True

/-- The channels of a set that are done hold a packet each, with enough left. -/
structure Filled (s : BuffersInfo n) : Prop where
  todo_of_invalid : s.alignmentTimeValid = false → ∀ i, s.indexesTodo i = true
  data_of_invalid : s.alignmentTimeValid = false → s.dataBytesToCopy = 0
  left : ∀ i, s.indexesTodo i = false →
    Left (s.info i).buff (s.info i).copyBuff s.dataBytesToCopy

/-- A set that has just been reset, apart from its metadata. -/
structure Fresh (s : BuffersInfo n) : Prop where
  valid : s.alignmentTimeValid = false
  todo : ∀ i, s.indexesTodo i = true
  data : s.dataBytesToCopy = 0

section Sets

variable {s : BuffersInfo n}

theorem Fresh.filled (h : Fresh s) : Filled s where
  todo_of_invalid _ := h.todo
  data_of_invalid _ := h.data
  left i hi := absurd (hi.symm.trans (h.todo i)) Bool.false_ne_true

theorem Fresh.ready (h : Fresh s) : Ready s := fun hne => absurd h.data hne

theorem fresh_reset (s : BuffersInfo n) : Fresh s.reset := ⟨rfl, fun _ => rfl, rfl⟩

theorem fresh_default : Fresh ({} : BuffersInfo n) := ⟨rfl, fun _ => rfl, rfl⟩

theorem Left.mono {buff : Option RecvBuffer} {copyBuff : Option ℕ} {bytes bytes' : ℕ}
    (h : Left buff copyBuff bytes) (hle : bytes' ≤ bytes) : Left buff copyBuff bytes' := by
  obtain ⟨p, offset, hbuff, hcopy, hbytes⟩ := h
  exact ⟨p, offset, hbuff, hcopy, le_trans (Nat.add_le_add_left hle offset) hbytes⟩

theorem left_ofPacket (p : RecvPacket) {bytes : ℕ} (h : bytes ≤ p.info.numPayloadBytes) :
    Left (PerBufferInfo.ofPacket p).buff (PerBufferInfo.ofPacket p).copyBuff bytes :=
  ⟨p, 0, rfl, rfl, le_of_eq_of_le (Nat.zero_add bytes) h⟩

theorem Filled.setInfo (h : Filled s) {index : Fin n} (htodo : s.indexesTodo index = true)
    (info : PerBufferInfo) : Filled (s.setInfo index info) where
  todo_of_invalid := h.todo_of_invalid
  data_of_invalid := h.data_of_invalid
  left i hi := by
    have hne : i ≠ index := by
      rintro rfl
      exact absurd (hi.symm.trans htodo) Bool.false_ne_true
    rw [BuffersInfo.setInfo_of_ne s hne]
    exact h.left i hi

theorem Filled.congr {s' : BuffersInfo n} (h : Filled s) (hinfo : s'.info = s.info)
    (htodo : s'.indexesTodo = s.indexesTodo) (hvalid : s'.alignmentTimeValid = s.alignmentTimeValid)
    (hdata : s'.dataBytesToCopy = s.dataBytesToCopy) : Filled s' where
  todo_of_invalid := by
    rw [hvalid, htodo]
    exact h.todo_of_invalid
  data_of_invalid := by
    rw [hvalid, hdata]
    exact h.data_of_invalid
  left := by
    rw [htodo, hinfo, hdata]
    exact h.left

theorem filled_of_new {index : Fin n} {p : RecvPacket} (hp : s.info index = .ofPacket p)
    (hnew : s.alignmentTimeValid = true → s.alignmentTime < (s.info index).time) :
    Filled (s.alignmentCheck index) := by
  rw [BuffersInfo.alignmentCheck_of_new hnew]
  refine ⟨fun hvalid => Bool.noConfusion hvalid, fun hvalid => Bool.noConfusion hvalid, ?_⟩
  intro i hi
  have hi' : i = index := by simpa using hi
  simp only [hi', if_true, hp]
  exact left_ofPacket p le_rfl

theorem filled_alignmentCheck (h : Filled s) {index : Fin n} (htodo : s.indexesTodo index = true)
    {p : RecvPacket} (hp : s.info index = .ofPacket p)
    (hlong : s.alignmentTimeValid = true → (s.info index).time = s.alignmentTime →
      s.dataBytesToCopy ≤ p.info.numPayloadBytes) : Filled (s.alignmentCheck index) := by
  rcases hvalid : s.alignmentTimeValid with _ | _
  · exact filled_of_new hp fun hv => Bool.noConfusion (hvalid.symm.trans hv)
  · rcases lt_trichotomy (s.info index).time s.alignmentTime with hlt | heq | hgt
    · rw [BuffersInfo.alignmentCheck_of_old hvalid hlt]
      exact h.setInfo htodo _
    · rw [BuffersInfo.alignmentCheck_of_same hvalid heq]
      refine ⟨fun hinvalid => Bool.noConfusion (hvalid.symm.trans hinvalid),
        fun hinvalid => Bool.noConfusion (hvalid.symm.trans hinvalid), fun i hi => ?_⟩
      rcases Bool.and_eq_false_iff.mp hi with hdone | hindex
      · exact h.left i hdone
      · have hi' : i = index := by simpa using hindex
        rw [hi', hp]
        exact left_ofPacket p (hlong hvalid heq)
    · exact filled_of_new hp fun _ => hgt

theorem filled_restart (h : Filled s) {index : Fin n} (htodo : s.indexesTodo index = true)
    {p : RecvPacket} (hp : s.info index = .ofPacket p)
    (hlong : s.alignmentTimeValid = true → (s.info index).time = s.alignmentTime →
      s.dataBytesToCopy ≤ p.info.numPayloadBytes) :
    Filled ((s.restart index).alignmentCheck index) := by
  rw [BuffersInfo.restart_alignmentCheck]
  split_ifs with hsame
  · exact filled_alignmentCheck h htodo hp hlong
  · exact filled_of_new hp fun hvalid => Bool.noConfusion hvalid

theorem Filled.ready (h : Filled s) (hdone : s.findFirst = none) : Ready s := by
  intro _ i
  refine h.left i (Bool.eq_false_iff.mpr fun htodo => ?_)
  exact List.find?_eq_none.mp hdone i (List.mem_finRange i) htodo

end Sets

theorem todo_of_findFirst {s : BuffersInfo n} {index : Fin n} (h : s.findFirst = some index) :
    s.indexesTodo index = true :=
  List.find?_some h

theorem getAndProcess_ofPacket {prev : PerBufferInfo} {xport : List Fetch} {packetCount : ℕ}
    {info : PerBufferInfo} {packetType : PacketType}
    (h : (getAndProcessSinglePacket prev xport packetCount info).result = .ok packetType)
    (htype : packetType ≠ .timeoutError) :
    ∃ p, (getAndProcessSinglePacket prev xport packetCount info).info = .ofPacket p := by
  induction xport generalizing info with
  | nil => exact absurd (Except.ok.inj h).symm htype
  | cons f xport ih =>
    rcases f with _ | _ | b
    · exact absurd (Except.ok.inj h).symm htype
    · cases h
    · rcases b with _ | left | p
      · cases h
      · cases h
      · rw [getAndProcessSinglePacket] at h ⊢
        split_ifs at h ⊢ with hack
        · exact ih h
        · exact ⟨p, rfl⟩

/-! ## The ring -/

/-- The ring while a set is being filled. -/
structure Filling (h : RecvPacketHandler n) : Prop where
  curr : Filled h.currInfo
  next : Fresh h.nextInfo
  other : Fresh h.otherInfo
  reads : ∀ event ∈ h.trace, event.Reads

/-- The ring between two calls. -/
structure Holds (h : RecvPacketHandler n) : Prop where
  curr : Ready h.currInfo
  next : Filled h.nextInfo
  other : Fresh h.otherInfo
  reads : ∀ event ∈ h.trace, event.Reads

section Ring

variable {h : RecvPacketHandler n} {cfg : Config}

theorem reads_append {events : List (Event n)} {event : Event n}
    (h : ∀ event ∈ events, event.Reads) (hevent : event.Reads) :
    ∀ event' ∈ events ++ [event], event'.Reads := by
  intro event' hmem
  rcases List.mem_append.mp hmem with hmem | hmem
  · exact h event' hmem
  · rw [List.mem_singleton.mp hmem]
    exact hevent

theorem Holds.flushAll (hh : Holds h) : Holds h.flushAll where
  curr := (fresh_reset h.currInfo).ready
  next := (fresh_reset h.nextInfo).filled
  other := hh.other
  reads := hh.reads

theorem Holds.handleOverflow (hh : Holds h) : Holds h.handleOverflow := by
  rw [RecvPacketHandler.handleOverflow]
  split_ifs
  · exact Holds.flushAll ⟨hh.curr, hh.next, hh.other, hh.reads⟩
  · exact ⟨hh.curr, hh.next, hh.other, hh.reads⟩

theorem Holds.record_failed (hh : Holds h) (code : ℕ) (action : OverflowAction) :
    Holds (h.record (.failed code action)) :=
  ⟨hh.curr, hh.next, hh.other, reads_append hh.reads trivial⟩

theorem Filling.record_failed (hh : Filling h) (code : ℕ) (action : OverflowAction) :
    Filling (h.record (.failed code action)) :=
  ⟨hh.curr, hh.next, hh.other, reads_append hh.reads trivial⟩

theorem Filling.swapWithError (hh : Filling h) (code : ℕ) : Holds (h.swapWithError code) where
  curr := fun hne => absurd hh.next.data hne
  next := hh.curr
  other := hh.other
  reads := hh.reads

theorem Filling.fetch (hh : Filling h) {index : Fin n} (htodo : h.currInfo.indexesTodo index = true) :
    Filling (h.fetch index) where
  curr := hh.curr.setInfo htodo _
  next := hh.next
  other := hh.other
  reads := reads_append hh.reads trivial

theorem Holds.callOverflow (hh : Holds h) (code : ℕ) : Holds (h.callOverflow code) :=
  (hh.record_failed code _).handleOverflow

theorem Filling.swapWithMessage (hh : Filling h) (index : Fin n) :
    Holds (h.swapWithMessage cfg index) where
  curr := fun hne => absurd hh.next.data hne
  next := hh.curr
  other := hh.other
  reads := hh.reads

theorem todo_callOverflow {index : Fin n} (htodo : h.nextInfo.indexesTodo index = true)
    (code : ℕ) : (h.callOverflow code).nextInfo.indexesTodo index = true := by
  rw [callOverflow, RecvPacketHandler.handleOverflow]
  split_ifs
  · rfl
  · exact htodo

theorem Holds.releaseMessage (hh : Holds h) {index : Fin n}
    (htodo : h.nextInfo.indexesTodo index = true) : Holds (h.releaseMessage index) where
  curr := hh.curr
  next := hh.next.setInfo htodo _
  other := hh.other
  reads := hh.reads

theorem Holds.withMetadata (hh : Holds h) (metadata : Metadata) :
    Holds (h.withMetadata metadata) :=
  ⟨hh.curr, hh.next, hh.other, hh.reads⟩

theorem Filling.inlineMessage (hh : Filling h) {index : Fin n}
    (htodo : h.currInfo.indexesTodo index = true) : Holds (h.inlineMessage cfg index).2 := by
  have hswap : Holds (h.swapWithMessage cfg index) := hh.swapWithMessage index
  rw [RecvPacketHandler.inlineMessage]
  split_ifs with hcode hthrows
  · exact hswap.callOverflow _
  · exact ((hswap.callOverflow _).withMetadata _).releaseMessage (todo_callOverflow htodo _)
  · exact (hswap.record_failed _ _).releaseMessage htodo

theorem Filling.sequenceError (hh : Filling h) {index : Fin n}
    (hchecked : Filled (h.currInfo.alignmentCheck index)) : Holds (h.sequenceError cfg index) where
  curr := fun hne => absurd hh.next.data hne
  next := hchecked
  other := hh.other
  reads := reads_append hh.reads trivial

theorem Filling.alignmentFailure (hh : Filling h) : Holds h.alignmentFailure.2 :=
  (hh.swapWithError _).callOverflow _

/-! ## The loop -/

/-- What holds after a packet was fetched for a channel that is not done. -/
structure Fetched (h : RecvPacketHandler n) (index : Fin n) : Prop where
  filling : Filling (h.fetch index)
  safe : (Event.fetched h.currInfo index (h.process index).result (h.process index).info).Safe

theorem provided_fetch (hh : Provided Event.Safe Filling h) {index : Fin n}
    (htodo : h.currInfo.indexesTodo index = true) :
    Provided Event.Safe (fun _ => Fetched h index) (h.fetch index) := by
  intro hsafe
  have hbefore : Filling h := hh fun event hevent => hsafe event (List.mem_append_left _ hevent)
  exact ⟨hbefore.fetch htodo, hsafe _ (List.mem_append_right _ List.mem_cons_self)⟩

theorem Fetched.filled {index : Fin n} (hf : Fetched h index)
    (htodo : h.currInfo.indexesTodo index = true) {packetType : PacketType}
    (hresult : (h.process index).result = .ok packetType) (hdata : packetType ≠ .inlineMessage)
    (htimeout : packetType ≠ .timeoutError) :
    Filled ((h.fetch index).currInfo.alignmentCheck index) ∧
      Filled (((h.fetch index).currInfo.restart index).alignmentCheck index) := by
  obtain ⟨p, hp⟩ := getAndProcess_ofPacket hresult htimeout
  have hinfo : (h.fetch index).currInfo.info index = .ofPacket p := by
    rw [RecvPacketHandler.fetch, BuffersInfo.setInfo_self]
    exact hp
  have hsafe := hf.safe
  rw [hresult] at hsafe
  have hlong : (h.fetch index).currInfo.alignmentTimeValid = true →
      ((h.fetch index).currInfo.info index).time = (h.fetch index).currInfo.alignmentTime →
      (h.fetch index).currInfo.dataBytesToCopy ≤ p.info.numPayloadBytes := by
    intro hvalid htime
    have hinfo' : (h.process index).info = .ofPacket p := hp
    have hbytes := hsafe hdata htimeout hvalid
    rw [hinfo'] at hbytes
    rw [hinfo] at htime
    exact hbytes htime
  exact ⟨filled_alignmentCheck hf.filling.curr htodo hinfo hlong,
    filled_restart hf.filling.curr htodo hinfo hlong⟩

variable [NeZero n]

/-- **An iteration.**  If it ends the loop, the ring is as it should be between two calls; otherwise
the set is still being filled. -/
theorem holds_pass (hh : Provided Event.Safe Filling h) :
    (∀ outcome, alignPass cfg h = .inl outcome → Provided Event.Safe Holds outcome.2) ∧
      ∀ h', alignPass cfg h = .inr h' → Provided Event.Safe Filling h' := by
  rw [alignPass]
  rcases hfind : h.currInfo.findFirst with _ | index
  · refine ⟨fun outcome houtcome => ?_, fun h' hh' => by cases hh'⟩
    cases houtcome
    refine hh.of_subset (List.Subset.refl _) fun hf => ?_
    exact ⟨hf.curr.ready hfind, hf.next.filled, hf.other, hf.reads⟩
  · have htodo := todo_of_findFirst hfind
    have hfetch := provided_fetch hh htodo
    simp only
    rcases hresult : (h.process index).result with thrown | packetType
    · refine ⟨fun outcome houtcome => ?_, fun h' hh' => by rcases thrown <;> cases hh'⟩
      have hthrown : thrown ≠ .valueError → Provided Event.Safe Holds (h.fetch index) := by
        intro hne
        refine hfetch.of_subset (List.Subset.refl _) fun hf => ?_
        have hsafe := hf.safe
        rw [hresult] at hsafe
        have hzero : (h.fetch index).currInfo.dataBytesToCopy = 0 := hsafe hne
        exact ⟨fun hdata => absurd hzero hdata, hf.filling.next.filled, hf.filling.other,
          hf.filling.reads⟩
      rcases thrown with _ | _ | _ | _
      · cases houtcome
        refine hfetch.of_subset (List.subset_append_left _ _) fun hf => ?_
        exact (hf.filling.record_failed _ _).swapWithError _
      · cases houtcome
        exact hthrown (by decide)
      · cases houtcome
        exact hthrown (by decide)
      · cases houtcome
        exact hthrown (by decide)
    · rcases packetType with _ | _ | _ | _ | _
      · refine ⟨fun outcome houtcome => (by cases houtcome), fun h' hh' => ?_⟩
        cases hh'
        refine hfetch.of_subset (List.Subset.refl _) fun hf => ?_
        exact ⟨(hf.filled htodo hresult (by decide) (by decide)).1, hf.filling.next,
          hf.filling.other, hf.filling.reads⟩
      · refine ⟨fun outcome houtcome => (by cases houtcome), fun h' hh' => ?_⟩
        cases hh'
        refine hfetch.of_subset (List.Subset.refl _) fun hf => ?_
        exact ⟨(hf.filled htodo hresult (by decide) (by decide)).2, hf.filling.next,
          hf.filling.other, hf.filling.reads⟩
      · refine ⟨fun outcome houtcome => ?_, fun h' hh' => by cases hh'⟩
        cases houtcome
        exact hfetch.of_subset (subset_inlineMessage _ _ _) fun hf => hf.filling.inlineMessage htodo
      · refine ⟨fun outcome houtcome => ?_, fun h' hh' => by cases hh'⟩
        cases houtcome
        exact hfetch.of_subset (List.Subset.refl _) fun hf => hf.filling.swapWithError _
      · refine ⟨fun outcome houtcome => ?_, fun h' hh' => by cases hh'⟩
        cases houtcome
        refine hfetch.of_subset (List.subset_append_left _ _) fun hf => ?_
        exact hf.filling.sequenceError (hf.filled htodo hresult (by decide) (by decide)).1

theorem holds_alignLoop (remaining : ℕ) (hh : Provided Event.Safe Filling h) :
    Provided Event.Safe Holds (alignLoop cfg remaining h).2 := by
  induction remaining generalizing h with
  | zero =>
    rw [alignLoop]
    obtain ⟨hends, hgoes⟩ : (∀ outcome, alignPass cfg h = .inl outcome → Provided Event.Safe Holds outcome.2) ∧
        ∀ h', alignPass cfg h = .inr h' → Provided Event.Safe Filling h' := holds_pass hh
    rcases halign : alignPass cfg h with outcome | h'
    · exact hends outcome halign
    · exact (hgoes h' halign).of_subset (subset_alignmentFailure h')
        fun hf => hf.alignmentFailure
  | succ remaining ih =>
    rw [alignLoop]
    obtain ⟨hends, hgoes⟩ : (∀ outcome, alignPass cfg h = .inl outcome → Provided Event.Safe Holds outcome.2) ∧
        ∀ h', alignPass cfg h = .inr h' → Provided Event.Safe Filling h' := holds_pass hh
    rcases halign : alignPass cfg h with outcome | h'
    · exact hends outcome halign
    · exact ih (hgoes h' halign)

theorem holds_getAlignedBuffs (hh : Provided Event.Safe Holds h) :
    Provided Event.Safe Holds (getAlignedBuffs cfg h).2 := by
  rw [getAlignedBuffs]
  refine holds_alignLoop _ (hh.of_subset (List.Subset.refl _) fun hb => ?_)
  exact ⟨hb.next.congr rfl rfl rfl rfl, hb.other, fresh_reset _, hb.reads⟩

/-! ## The calls -/

omit [NeZero n] in
theorem nsampsToCopy_le (nsampsPerBuff : ℕ) (h : RecvPacketHandler n) :
    nsampsToCopy cfg nsampsPerBuff h * cfg.bytesPerOtwItem ≤ h.currInfo.dataBytesToCopy :=
  le_trans (Nat.mul_le_mul_right _ (Nat.min_le_right _ _)) (Nat.div_mul_le_self _ _)

omit [NeZero n] in
theorem Holds.convertToOutBuff (hh : Holds h) {nsamps : ℕ}
    (hle : nsamps * cfg.bytesPerOtwItem ≤ h.currInfo.dataBytesToCopy) :
    Holds (h.convertToOutBuff cfg nsamps) where
  curr := by
    intro hne i
    have hdata : h.currInfo.dataBytesToCopy - nsamps * cfg.bytesPerOtwItem ≠ 0 := hne
    obtain ⟨p, offset, hbuff, hcopy, hbytes⟩ := hh.curr (by omega) i
    refine ⟨p, offset + nsamps * cfg.bytesPerOtwItem, ?_, ?_, ?_⟩
    · exact (if_neg (by omega)).trans hbuff
    · exact congrArg (Option.map (· + nsamps * cfg.bytesPerOtwItem)) hcopy
    · have hsub : (h.convertToOutBuff cfg nsamps).currInfo.dataBytesToCopy =
          h.currInfo.dataBytesToCopy - nsamps * cfg.bytesPerOtwItem := rfl
      omega
  next := hh.next
  other := hh.other
  reads := by
    refine reads_append hh.reads fun hne i => ?_
    exact (hh.curr (by omega) i).mono hle

theorem holds_recvOnePacket (cfg : Config) (nsampsPerBuff : ℕ) (hh : Provided Event.Safe Holds h) :
    Provided Event.Safe Holds (h.recvOnePacket cfg nsampsPerBuff).2 := by
  have hgot : Provided Event.Safe Holds
      (if h.currInfo.dataBytesToCopy = 0 then h.getAlignedBuffs cfg else (.ok (), h)).2 := by
    split_ifs
    · exact holds_getAlignedBuffs hh
    · exact hh
  rw [recvOnePacket]
  revert hgot
  generalize (if h.currInfo.dataBytesToCopy = 0 then h.getAlignedBuffs cfg else (.ok (), h)) = got
  intro hgot
  rcases got with ⟨thrown | done, h'⟩
  · exact hgot
  · refine hgot.of_subset (List.subset_append_left _ _) fun hh' => ?_
    exact hh'.convertToOutBuff (nsampsToCopy_le nsampsPerBuff h')

omit [NeZero n] in
theorem provided_record_threw (hh : Provided Event.Safe Holds h) (copied : ℕ) :
    Provided Event.Safe Holds (h.record (.threw copied)) :=
  hh.of_subset (List.subset_append_left _ _) fun hb =>
    ⟨hb.curr, hb.next, hb.other, reads_append hb.reads trivial⟩

omit [NeZero n] in
theorem provided_congr {h' : RecvPacketHandler n} (hh : Provided Event.Safe Holds h)
    (hcurr : h'.currInfo = h.currInfo) (hnext : h'.nextInfo = h.nextInfo)
    (hother : h'.otherInfo = h.otherInfo) (htrace : h'.trace = h.trace) : Provided Event.Safe Holds h' := by
  intro hsafe
  rw [htrace] at hsafe
  obtain ⟨hc, hn, ho, hr⟩ := hh hsafe
  exact ⟨hcurr ▸ hc, hnext ▸ hn, hother ▸ ho, htrace ▸ hr⟩

theorem holds_recvLoop {nsampsPerBuff fuel accum : ℕ} {metadata : Metadata}
    {outcome : Outcome n (ℕ × Metadata)} (hh : Provided Event.Safe Holds h)
    (hrecv : recvLoop cfg nsampsPerBuff fuel accum metadata h = some outcome) :
    Provided Event.Safe Holds outcome.2 := by
  induction fuel generalizing h accum metadata with
  | zero => cases hrecv
  | succ fuel ih =>
    rw [recvLoop] at hrecv
    split_ifs at hrecv with hmore
    · have hpacket := holds_recvOnePacket cfg (nsampsPerBuff - accum) hh
      rcases hone : h.recvOnePacket cfg (nsampsPerBuff - accum) with ⟨thrown | ⟨nsamps, queued⟩, h'⟩
      · rw [hone] at hrecv hpacket
        cases hrecv
        exact provided_record_threw hpacket accum
      · rw [hone] at hrecv hpacket
        simp only at hrecv
        split_ifs at hrecv with herror hburst
        · cases hrecv
          exact provided_congr hpacket rfl rfl rfl rfl
        · cases hrecv
          exact provided_congr hpacket rfl rfl rfl rfl
        · refine ih ?_ hrecv
          exact provided_congr hpacket rfl rfl rfl rfl
    · cases hrecv
      exact hh

theorem holds_recvPackets {nsampsPerBuff fuel : ℕ} {onePacket : Bool}
    {outcome : Outcome n (ℕ × Metadata)} (hh : Provided Event.Safe Holds h)
    (hrecv : recvPackets cfg fuel nsampsPerBuff onePacket h = some outcome) :
    Provided Event.Safe Holds outcome.2 := by
  rw [recvPackets] at hrecv
  have hpacket := holds_recvOnePacket cfg nsampsPerBuff hh
  rcases hone : h.recvOnePacket cfg nsampsPerBuff with ⟨thrown | ⟨nsamps, metadata⟩, h'⟩
  · rw [hone] at hrecv hpacket
    cases hrecv
    exact provided_record_threw hpacket 0
  · rw [hone] at hrecv hpacket
    simp only at hrecv
    split_ifs at hrecv with hburst herror
    · cases hrecv
      exact hpacket
    · cases hrecv
      exact hpacket
    · exact holds_recvLoop hpacket hrecv

theorem holds_recv {nsampsPerBuff fuel : ℕ} {onePacket : Bool}
    {outcome : Outcome n (ℕ × Metadata)} (hh : Provided Event.Safe Holds h)
    (hrecv : recv cfg fuel nsampsPerBuff onePacket h = some outcome) :
    Provided Event.Safe Holds outcome.2 := by
  rw [recv] at hrecv
  split_ifs at hrecv with hqueued herror
  · cases hrecv
    exact provided_congr hh rfl rfl rfl rfl
  · refine holds_recvPackets ?_ hrecv
    exact provided_congr hh rfl rfl rfl rfl
  · exact holds_recvPackets hh hrecv

theorem holds_step {s t : Session n} {call : Call} (hh : Provided Event.Safe Holds s.handler)
    (hstep : step cfg s call = some t) : Provided Event.Safe Holds t.handler := by
  rcases call with ⟨fuel, nsampsPerBuff, onePacket⟩ | _
  · obtain ⟨outcome, hrecv, rfl⟩ := Option.map_eq_some_iff.mp hstep
    have hholds := holds_recv hh hrecv
    rcases outcome with ⟨thrown | result, h'⟩
    · exact hholds
    · exact hholds
  · cases hstep
    exact hh.of_subset (List.Subset.refl _) Holds.flushAll

end Ring

theorem holds_start (xports : Fin n → List Fetch) (overflowActions : List OverflowAction) :
    Holds (start xports overflowActions).handler :=
  ⟨fresh_default.ready, fresh_default.filled, fresh_default,
    fun _ hevent => absurd hevent List.not_mem_nil⟩

/-- **The current set, and what is copied, over whole runs.**  After any sequence of calls, over any
packets, errors and overflow handlers, there is something to copy only where every channel holds it,
and nothing was ever copied from where it is not, as long as no exception other than that of a bad
header came while a set had bytes to copy, and no packet was added to a set that is shorter than its
first one. -/
theorem sound_of_run [NeZero n] (cfg : Config) (xports : Fin n → List Fetch)
    (overflowActions : List OverflowAction) {calls : List Call} {t : Session n}
    (hrun : Transition.run (step cfg) (start xports overflowActions) calls = some t)
    (hsafe : ∀ event ∈ t.handler.trace, event.Safe) : Sound t.handler := by
  have hholds : Provided Event.Safe Holds t.handler :=
    Transition.run_invariant (fun s call s' hh hstep => holds_step hh hstep)
      (fun _ => holds_start xports overflowActions) hrun
  exact ⟨(hholds hsafe).curr, (hholds hsafe).reads⟩

instance (event : Event n) : Decidable event.Safe :=
  match event with
  | .fetched s _ (.error thrown) _ =>
    inferInstanceAs (Decidable (thrown ≠ .valueError → s.dataBytesToCopy = 0))
  | .fetched s _ (.ok packetType) info =>
    inferInstanceAs (Decidable (packetType ≠ .inlineMessage → packetType ≠ .timeoutError →
      s.alignmentTimeValid = true → info.time = s.alignmentTime →
        s.dataBytesToCopy ≤ info.ifpi.numPayloadBytes))
  | .failed _ _ => inferInstanceAs (Decidable True)
  | .copied _ _ _ => inferInstanceAs (Decidable True)
  | .threw _ => inferInstanceAs (Decidable True)

theorem plainConfig_bytesPerOtwItem_pos : 0 < 4 := by decide

/-- Samples of four bytes, one output, and a rate of a million. -/
def plainConfig : Config where
  alignmentFailureThreshold := 1000
  numOutputs := 1
  bytesPerOtwItem := 4
  tickRate := 1000000
  sampRate := 1000000
  numOutputs_pos := Nat.one_pos
  bytesPerOtwItem_pos := plainConfig_bytesPerOtwItem_pos

/-- A packet of a time, with so many samples. -/
def timedPacket (time : BitVec 64) (count nsamps : ℕ) : Fetch :=
  .buffer (.packet ⟨{
    linkType := .chdr, packetCount := count, hasTsf := true, tsf := time
    numPayloadWords32 := nsamps, numPayloadBytes := nsamps * 4 }, 0⟩)

/-- Two channels with a packet of the same time and length. -/
def twoPackets : Fin 2 → List Fetch := fun _ => [timedPacket 7 0 3]

theorem sound_twoPackets :
    ∃ t, Transition.run (step plainConfig) (start twoPackets []) [.recv 3 2 true, .flushAll] =
      some t ∧ Sound t.handler := by
  refine Exists.imp (fun t ht => ⟨ht, ?_⟩) (Option.isSome_iff_exists.mp rfl)
  refine sound_of_run plainConfig twoPackets [] ht ?_
  rw [Option.some_inj.mp ht.symm]
  decide

/-- Two channels, the second of which fails. -/
def secondThrows : Fin 2 → List Fetch := fun i =>
  if i.val = 0 then [timedPacket 7 0 3] else [.throws]

/-- **The set that is left behind.**  The first channel has a packet when the transport of the second
one throws.  Then there are bytes to copy and no packet on the second channel, and the next call
copies from there. -/
theorem copies_from_nowhere :
    ∃ t, Transition.run (step plainConfig) (start secondThrows []) [.recv 3 2 true] = some t ∧
      ¬ Ready t.handler.currInfo ∧
      ∃ t', step plainConfig t (.recv 3 2 true) = some t' ∧
        ¬ ∀ event ∈ t'.handler.trace, event.Reads := by
  refine ⟨_, rfl, fun h => ?_, _, rfl, fun h => ?_⟩
  · obtain ⟨p, offset, hbuff, -⟩ := h (by decide) 1
    cases hbuff
  · obtain ⟨p, offset, hbuff, -⟩ := h (.copied 2 8 _)
      (List.mem_append_right _ List.mem_cons_self) (by decide) 1
    cases hbuff

end RecvHandler
end Transport
end UhdHost
