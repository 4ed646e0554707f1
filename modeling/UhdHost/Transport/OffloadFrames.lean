import UhdHost.Transport.OffloadClient
import Mathlib.Data.List.Perm.Basic

/-!
# Where the frames of an offload client are

`OffloadInv` is the invariant of one client.  It ties four things together: the list of places
a frame can be in (`outside`), the counter of the service thread, the number of frames
reserved, and the shape of the queue back.  The counter is not exact while the service thread
is in the middle of something; `Work.uncounted` and `Work.overcounted` say by how much it is
off and in which direction.

That no queue overflows is a consequence.  A frame in a queue is a frame outside of the link,
there are never more of those than were reserved, and the queue back has room for one more
entry, which is the request to disconnect.
-/

namespace UhdHost
namespace Transport

/-! ## What the service thread is in the middle of -/

namespace Work

/-- The frame the service thread holds and no queue does. -/
def inHand : Work → List ℕ
  | .got frame | .toRelease frame false => [frame]
  | _ => []

/-- Entries at the head of the queue back whose frame was released already. -/
def stale : Work → ℕ
  | .released true | .popHead => 1
  | _ => 0

/-- Frames outside of the link that are not counted yet. -/
def uncounted : Work → ℕ
  | .got _ | .pushed => 1
  | _ => 0

/-- Frames on the link that are still counted. -/
def overcounted : Work → ℕ
  | .released _ => 1
  | .flushing count => count
  | _ => 0

/-- Whether the request to disconnect was taken. -/
def isFlushing : Work → Bool
  | .flushing _ => true
  | _ => false

end Work

namespace OffloadClient

/-- The frames in the queue back, stale ones included. -/
def toFrames (p : OffloadClient) : List ℕ := p.toOffloadThread.items.filterMap fun e => e.buff

/-- Whether the request to disconnect is in the queue back. -/
def disconnectQueued (p : OffloadClient) : Bool :=
  p.phase = .leaving && p.listed && !p.work.isFlushing

/-- The frames of the client that are not on the link: in the queue to the client, with the
client, in the queue back, or with the service thread. -/
def outside (p : OffloadClient) : List ℕ :=
  p.fromOffloadThread.items ++ p.held ++ p.toFrames.drop p.work.stale ++ p.work.inHand

/-- The invariant of one client. -/
structure OffloadInv (p : OffloadClient) : Prop where
  fromCapacity : p.phase ≠ .absent → p.fromOffloadThread.capacity = p.numFrames
  toCapacity : p.phase ≠ .absent → p.toOffloadThread.capacity = p.numFrames + 1
  fromWellFormed : p.phase ≠ .absent → p.fromOffloadThread.WellFormed
  toWellFormed : p.toOffloadThread.WellFormed
  /-- The queue back holds frames, and behind them the request to disconnect. -/
  shape : p.toOffloadThread.items = p.toFrames.map frameItem ++
    (if p.disconnectQueued then [disconnectItem] else [])
  /-- A frame that was peeked at is still at the head. -/
  peeked : ∀ frame, p.work = .toRelease frame true → p.toFrames.head? = some frame
  stale : p.work.stale ≤ p.toFrames.length
  /-- The service thread works for listed clients only. -/
  unlisted : p.listed = false → p.work = .idle ∧ p.outside = [] ∧ p.numFramesInUse = 0
  phases : p.listed = true → p.phase = .connected ∨ p.phase = .opened ∨ p.phase = .leaving
  listed : p.phase = .connected ∨ p.phase = .opened → p.listed = true
  connected : p.connected = p.listed
  flushing : p.work.isFlushing = true → p.phase = .leaving ∧ p.toFrames = []
  held : p.phase ≠ .opened → p.held = []
  clientCount : p.clientFramesInUse = p.held.length
  placed : (p.released ++ p.outside).Perm (List.range p.taken)
  balance : p.outside.length + p.work.overcounted = p.numFramesInUse + p.work.uncounted
  bound : p.numFramesInUse + p.work.uncounted + (if p.work = .popHead then 1 else 0) ≤ p.numFrames

theorem offloadInv_absent : OffloadInv {} where
  fromCapacity h := absurd rfl h
  toCapacity h := absurd rfl h
  fromWellFormed h := absurd rfl h
  toWellFormed := RingBuffer.wellFormed_empty Nat.one_pos _
  shape := rfl
  peeked _ h := nomatch h
  stale := Nat.zero_le _
  unlisted _ := ⟨rfl, rfl, rfl⟩
  phases h := nomatch h
  listed h := by rcases h with h | h <;> cases h
  connected := rfl
  flushing h := nomatch h
  held _ := rfl
  clientCount := rfl
  placed := List.Perm.refl _
  balance := rfl
  bound := Nat.zero_le _

theorem offloadInv_create (sends : Bool) {numFrames : ℕ} (h : 0 < numFrames) :
    OffloadInv (create sends numFrames) where
  fromCapacity _ := rfl
  toCapacity _ := rfl
  fromWellFormed _ := RingBuffer.wellFormed_empty h _
  toWellFormed := RingBuffer.wellFormed_empty (Nat.succ_pos _) _
  shape := rfl
  peeked _ h := nomatch h
  stale := Nat.zero_le _
  unlisted _ := ⟨rfl, rfl, rfl⟩
  phases h := nomatch h
  listed h := by rcases h with h | h <;> cases h
  connected := rfl
  flushing h := nomatch h
  held _ := rfl
  clientCount := rfl
  placed := List.Perm.refl _
  balance := rfl
  bound := Nat.zero_le _

variable {p : OffloadClient}

/-! ## What the invariant says about room and order -/

theorem length_outside (p : OffloadClient) :
    p.outside.length = p.fromOffloadThread.count + p.held.length +
      (p.toFrames.length - p.work.stale) + p.work.inHand.length := by
  rw [outside, List.length_append, List.length_append, List.length_append, List.length_drop,
    RingBuffer.length_items]

theorem OffloadInv.listed_eq_false (h : OffloadInv p) {phase : ClientPhase}
    (hphase : p.phase = phase)
    (hnot : phase ∉ [ClientPhase.connected, ClientPhase.opened, ClientPhase.leaving]) :
    p.listed = false := by
  by_contra hl
  refine hnot ?_
  rcases h.phases (Bool.not_eq_false _ ▸ hl) with hp | hp | hp <;> rw [← hphase, hp] <;> decide

theorem OffloadInv.outside_le (h : OffloadInv p) : p.outside.length ≤ p.numFrames := by
  have hbal := h.balance
  have hb := h.bound
  omega

theorem OffloadInv.count_to (h : OffloadInv p) :
    p.toOffloadThread.count = p.toFrames.length + (if p.disconnectQueued then 1 else 0) := by
  have hlen := congrArg List.length h.shape
  rw [RingBuffer.length_items, List.length_append, List.length_map] at hlen
  rw [hlen]
  split_ifs <;> rfl

theorem OffloadInv.shape_of_opened (h : OffloadInv p) (hphase : p.phase ≠ .leaving) :
    p.toOffloadThread.items = p.toFrames.map frameItem := by
  have hshape := h.shape
  rw [if_neg (by simp [disconnectQueued, hphase]), List.append_nil] at hshape
  exact hshape

theorem OffloadInv.toFrames_le (h : OffloadInv p) :
    p.toFrames.length + p.held.length ≤ p.numFrames := by
  have hlen := p.length_outside
  have hbal := h.balance
  have hb := h.bound
  have hstale := h.stale
  cases hwork : p.work with
  | released peeked => cases peeked <;> simp [hwork, Work.stale, Work.overcounted,
      Work.uncounted] at * <;> omega
  | popHead => simp [hwork, Work.stale, Work.overcounted, Work.uncounted] at *; omega
  | toRelease frame peeked => cases peeked <;> simp [hwork, Work.stale, Work.overcounted,
      Work.uncounted] at * <;> omega
  | _ => simp [hwork, Work.stale, Work.overcounted, Work.uncounted] at *; omega

theorem OffloadInv.count_placed (h : OffloadInv p) (f : ℕ) :
    p.released.count f + (p.fromOffloadThread.items.count f + p.held.count f +
      (p.toFrames.drop p.work.stale).count f + p.work.inHand.count f) =
      (List.range p.taken).count f := by
  have hcount := List.perm_iff_count.mp h.placed f
  rwa [List.count_append, outside, List.count_append, List.count_append,
    List.count_append] at hcount

theorem placed_of_count
    (h : ∀ f, p.released.count f + (p.fromOffloadThread.items.count f + p.held.count f +
      (p.toFrames.drop p.work.stale).count f + p.work.inHand.count f) =
      (List.range p.taken).count f) : (p.released ++ p.outside).Perm (List.range p.taken) := by
  refine List.perm_iff_count.mpr fun f => ?_
  rw [List.count_append, outside, List.count_append, List.count_append, List.count_append]
  exact h f

/-! ## The service thread -/

theorem OffloadInv.getFrame (h : OffloadInv p) (hlisted : p.listed = true)
    (hwork : p.work = .idle) (hroom : p.numFramesInUse < p.numFrames) :
    OffloadInv { p with taken := p.taken + 1, work := .got p.taken } := by
  have hbal := h.balance
  have hlen := p.length_outside
  rw [hwork] at hbal hlen
  refine { h with
    shape := ?_
    peeked := fun _ hp => nomatch hp
    stale := Nat.zero_le _
    unlisted := fun hl => nomatch hlisted.symm.trans hl
    flushing := fun hf => nomatch hf
    placed := placed_of_count fun f => ?_
    balance := ?_
    bound := ?_ }
  · have hshape := h.shape
    simp only [disconnectQueued, hwork] at hshape
    exact hshape
  · have hcount := h.count_placed f
    simp only [hwork, Work.stale, Work.inHand, List.count_nil] at hcount
    show p.released.count f + (p.fromOffloadThread.items.count f + p.held.count f +
      (p.toFrames.drop 0).count f + [p.taken].count f) = (List.range (p.taken + 1)).count f
    rw [List.range_succ, List.count_append]
    omega
  · rw [length_outside]
    simp only [Work.stale, Work.inHand, Work.uncounted, Work.overcounted, List.length_nil,
      List.length_singleton] at hbal hlen ⊢
    show p.fromOffloadThread.count + p.held.length + (p.toFrames.length - 0) + 1 + 0 = _
    omega
  · simp only [Work.uncounted]
    show p.numFramesInUse + 1 + 0 ≤ p.numFrames
    omega

theorem OffloadInv.of_work_ne_idle (h : OffloadInv p) (hwork : p.work ≠ .idle) :
    p.listed = true ∧ p.phase ≠ .absent := by
  have hlisted : p.listed = true := by
    by_contra hl
    exact hwork (h.unlisted (Bool.eq_false_iff.mpr hl)).1
  refine ⟨hlisted, fun habsent => ?_⟩
  rcases h.phases hlisted with hp | hp | hp <;> rw [habsent] at hp <;> cases hp

theorem OffloadInv.push (h : OffloadInv p) {frame : ℕ} (hwork : p.work = .got frame) :
    OffloadInv { p with
      fromOffloadThread := p.fromOffloadThread.push frame, work := .pushed } := by
  obtain ⟨hlisted, hphase⟩ := h.of_work_ne_idle (by rw [hwork]; exact nofun)
  have hlen := p.length_outside
  have hle := h.outside_le
  have hbal := h.balance
  have hroom : p.fromOffloadThread.count < p.fromOffloadThread.capacity := by
    rw [h.fromCapacity hphase]
    rw [hwork] at hlen
    simp only [Work.inHand, List.length_singleton] at hlen
    omega
  have hitems := RingBuffer.items_push (h.fromWellFormed hphase) hroom frame
  refine { h with
    fromCapacity := h.fromCapacity
    fromWellFormed := fun _ => (h.fromWellFormed hphase).push hroom frame
    shape := ?_
    peeked := fun _ hp => nomatch hp
    stale := Nat.zero_le _
    unlisted := fun hl => nomatch hlisted.symm.trans hl
    flushing := fun hf => nomatch hf
    placed := placed_of_count fun f => ?_
    balance := ?_
    bound := ?_ }
  · have hshape := h.shape
    simp only [disconnectQueued, hwork] at hshape
    exact hshape
  · have hcount := h.count_placed f
    simp only [hwork, Work.stale, Work.inHand] at hcount
    show p.released.count f + ((p.fromOffloadThread.push frame).items.count f +
      p.held.count f + (p.toFrames.drop 0).count f + ([] : List ℕ).count f) =
      (List.range p.taken).count f
    rw [hitems, List.count_append, List.count_nil]
    omega
  · rw [length_outside]
    rw [hwork] at hlen hbal
    simp only [Work.stale, Work.inHand, Work.uncounted, Work.overcounted, List.length_nil,
      List.length_singleton] at hbal hlen ⊢
    show p.fromOffloadThread.count + 1 + p.held.length + (p.toFrames.length - 0) + 0 + 0 = _
    omega
  · have hb := h.bound
    rw [hwork] at hb
    exact hb

theorem OffloadInv.countFrame (h : OffloadInv p) (hwork : p.work = .pushed) :
    OffloadInv { p with numFramesInUse := p.numFramesInUse + 1, work := .idle } := by
  obtain ⟨hlisted, -⟩ := h.of_work_ne_idle (by rw [hwork]; exact nofun)
  refine { h with
    shape := ?_
    peeked := fun _ hp => nomatch hp
    stale := Nat.zero_le _
    unlisted := fun hl => nomatch hlisted.symm.trans hl
    flushing := fun hf => nomatch hf
    placed := placed_of_count fun f => ?_
    balance := ?_
    bound := ?_ }
  · have hshape := h.shape
    simp only [disconnectQueued, hwork] at hshape
    exact hshape
  · have hcount := h.count_placed f
    simp only [hwork, Work.stale, Work.inHand] at hcount
    exact hcount
  · have hbal := h.balance
    rw [length_outside, hwork] at hbal
    rw [length_outside]
    exact hbal
  · have hb := h.bound
    rw [hwork] at hb
    exact hb

theorem OffloadInv.releaseFrame (h : OffloadInv p) {frame : ℕ} {peeked : Bool}
    (hwork : p.work = .toRelease frame peeked) :
    OffloadInv { p.release frame with work := .released peeked } := by
  obtain ⟨hlisted, -⟩ := h.of_work_ne_idle (by rw [hwork]; exact nofun)
  have hcounted : ∀ f, p.fromOffloadThread.items.count f + p.held.count f +
      (p.toFrames.drop p.work.stale).count f + p.work.inHand.count f =
      p.fromOffloadThread.items.count f + p.held.count f +
      (p.toFrames.drop (Work.released peeked).stale).count f + [frame].count f ∧
      p.toFrames.length - p.work.stale + p.work.inHand.length =
        p.toFrames.length - (Work.released peeked).stale + 1 ∧
      (Work.released peeked).stale ≤ p.toFrames.length := by
    intro f
    cases peeked with
    | false => simp [hwork, Work.stale, Work.inHand]
    | true =>
      obtain ⟨rest, hrest⟩ := List.head?_eq_some_iff.mp (h.peeked frame hwork)
      simp only [hwork, Work.stale, Work.inHand, hrest, List.drop_zero, List.drop_succ_cons,
        List.count_cons, List.count_nil, List.length_cons, List.length_nil]
      omega
  refine { h with
    shape := ?_
    peeked := fun _ hp => nomatch hp
    stale := (hcounted 0).2.2
    unlisted := fun hl => nomatch hlisted.symm.trans hl
    flushing := fun hf => nomatch hf
    placed := placed_of_count fun f => ?_
    balance := ?_
    bound := ?_ }
  · have hshape := h.shape
    simp only [disconnectQueued, hwork] at hshape
    exact hshape
  · have hcount := h.count_placed f
    rw [(hcounted f).1] at hcount
    show (p.released ++ [frame]).count f + (p.fromOffloadThread.items.count f +
      p.held.count f + (p.toFrames.drop (Work.released peeked).stale).count f +
      ([] : List ℕ).count f) = (List.range p.taken).count f
    rw [List.count_append, List.count_nil]
    omega
  · have hbal := h.balance
    have hlen := (hcounted 0).2.1
    rw [length_outside] at hbal ⊢
    rw [hwork] at hbal hlen
    simp only [Work.overcounted, Work.uncounted] at hbal ⊢
    show p.fromOffloadThread.count + p.held.length +
      (p.toFrames.length - (Work.released peeked).stale) + 0 + 1 = p.numFramesInUse + 0
    omega
  · have hb := h.bound
    rw [hwork] at hb
    exact hb

theorem OffloadInv.uncountFrame (h : OffloadInv p) {peeked : Bool}
    (hwork : p.work = .released peeked) :
    OffloadInv { p with
      numFramesInUse := p.numFramesInUse - 1, work := if peeked then .popHead else .idle } := by
  obtain ⟨hlisted, -⟩ := h.of_work_ne_idle (by rw [hwork]; exact nofun)
  have hshape := h.shape
  have hcount := h.count_placed
  have hbal := h.balance
  have hb := h.bound
  have hstale := h.stale
  simp only [disconnectQueued, hwork, Work.isFlushing] at hshape
  rw [hwork] at hstale hcount
  rw [length_outside, hwork] at hbal
  rw [hwork] at hb
  simp only [Work.overcounted, Work.uncounted] at hbal hb
  cases peeked with
  | false =>
    exact { h with
      shape := hshape
      peeked := fun _ hp => nomatch hp
      stale := Nat.zero_le _
      unlisted := fun hl => nomatch hlisted.symm.trans hl
      flushing := fun hf => nomatch hf
      placed := placed_of_count hcount
      balance := by
        rw [length_outside]
        simp only [Work.stale, Work.inHand, List.length_nil] at hbal
        show p.fromOffloadThread.count + p.held.length + (p.toFrames.length - 0) + 0 + 0 =
          p.numFramesInUse - 1 + 0
        omega
      bound := by
        show p.numFramesInUse - 1 + 0 + 0 ≤ p.numFrames
        omega }
  | true =>
    exact { h with
      shape := hshape
      peeked := fun _ hp => nomatch hp
      stale := hstale
      unlisted := fun hl => nomatch hlisted.symm.trans hl
      flushing := fun hf => nomatch hf
      placed := placed_of_count hcount
      balance := by
        rw [length_outside]
        simp only [Work.stale, Work.inHand, List.length_nil] at hbal
        show p.fromOffloadThread.count + p.held.length + (p.toFrames.length - 1) + 0 + 0 =
          p.numFramesInUse - 1 + 0
        omega
      bound := by
        show p.numFramesInUse - 1 + 0 + 1 ≤ p.numFrames
        omega }

theorem OffloadInv.head_cases (h : OffloadInv p) {item : ToOffload} {rest : List ToOffload}
    (hitems : p.toOffloadThread.items = item :: rest) :
    (∃ frame frames, item = frameItem frame ∧ p.toFrames = frame :: frames ∧
        rest.filterMap (fun e => e.buff) = frames ∧
        rest = frames.map frameItem ++ (if p.disconnectQueued then [disconnectItem] else [])) ∨
      (item = disconnectItem ∧ p.toFrames = [] ∧ rest = [] ∧ p.disconnectQueued = true) := by
  have hshape := h.shape
  rw [hitems] at hshape
  have hto : p.toFrames = (item :: rest).filterMap fun e => e.buff := by rw [toFrames, hitems]
  cases hframes : p.toFrames with
  | nil =>
    rw [hframes, List.map_nil, List.nil_append] at hshape
    by_cases hd : p.disconnectQueued = true
    · rw [if_pos hd, List.cons.injEq] at hshape
      exact Or.inr ⟨hshape.1, rfl, hshape.2, hd⟩
    · rw [if_neg hd] at hshape
      cases hshape
  | cons frame frames =>
    rw [hframes, List.map_cons, List.cons_append, List.cons.injEq] at hshape
    refine Or.inl ⟨frame, frames, hshape.1, rfl, ?_, hshape.2⟩
    rw [hframes, hshape.1] at hto
    simpa [frameItem] using hto.symm

theorem OffloadInv.popHead (h : OffloadInv p) (hwork : p.work = .popHead) {item : ToOffload}
    {rest : RingBuffer ToOffload} (hpop : p.toOffloadThread.pop = some (item, rest)) :
    OffloadInv { p with toOffloadThread := rest, work := .idle } := by
  obtain ⟨hlisted, hphase⟩ := h.of_work_ne_idle (by rw [hwork]; exact nofun)
  obtain ⟨hitems, hwell, hcap⟩ := RingBuffer.pop_eq_some h.toWellFormed hpop
  have hstale := h.stale
  have hbal := h.balance
  have hcount := h.count_placed
  have hb := h.bound
  rw [length_outside] at hbal
  rw [hwork] at hstale hbal hcount hb
  rcases h.head_cases hitems with ⟨frame, frames, -, hto, hfm, hrest⟩ | ⟨-, hto, -, -⟩
  · have hto' : toFrames { p with toOffloadThread := rest, work := .idle } = frames := hfm
    refine { h with
      toCapacity := fun _ => hcap.trans (h.toCapacity hphase)
      toWellFormed := hwell
      shape := ?_
      peeked := fun _ hp => nomatch hp
      stale := Nat.zero_le _
      unlisted := fun hl => nomatch hlisted.symm.trans hl
      flushing := fun hf => nomatch hf
      placed := placed_of_count fun f => ?_
      balance := ?_
      bound := ?_ }
    · rw [hto']
      simp only [disconnectQueued, hwork] at hrest
      exact hrest
    · have hcount := hcount f
      rw [hto] at hcount
      rw [hto']
      exact hcount
    · rw [hto] at hbal
      rw [length_outside, hto']
      simp only [Work.stale, Work.inHand, Work.uncounted, Work.overcounted, List.length_nil,
        List.length_cons] at hbal ⊢
      show p.fromOffloadThread.count + p.held.length + (frames.length - 0) + 0 + 0 =
        p.numFramesInUse + 0
      omega
    · have hb : p.numFramesInUse + 0 + 1 ≤ p.numFrames := hb
      show p.numFramesInUse + 0 + 0 ≤ p.numFrames
      omega
  · rw [hto] at hstale
    exact absurd hstale (by decide)

theorem OffloadInv.popFrame (h : OffloadInv p) (hlisted : p.listed = true)
    (hwork : p.work = .idle) {frame : ℕ} {rest : RingBuffer ToOffload}
    (hpop : p.toOffloadThread.pop = some (frameItem frame, rest)) :
    OffloadInv { p with toOffloadThread := rest, work := .toRelease frame false } := by
  obtain ⟨hitems, hwell, hcap⟩ := RingBuffer.pop_eq_some h.toWellFormed hpop
  have hbal := h.balance
  have hcount := h.count_placed
  have hb := h.bound
  rw [length_outside] at hbal
  rw [hwork] at hbal hcount hb
  rcases h.head_cases hitems with ⟨frame', frames, heq, hto, hfm, hrest⟩ | ⟨heq, -⟩
  · obtain rfl : frame = frame' := by simpa [frameItem] using heq
    have hto' : toFrames { p with toOffloadThread := rest, work := .toRelease frame false } =
        frames := hfm
    refine { h with
      toCapacity := fun hphase => hcap.trans (h.toCapacity hphase)
      toWellFormed := hwell
      shape := ?_
      peeked := fun _ hp => nomatch hp
      stale := Nat.zero_le _
      unlisted := fun hl => nomatch hlisted.symm.trans hl
      flushing := fun hf => nomatch hf
      placed := placed_of_count fun f => ?_
      balance := ?_
      bound := hb }
    · rw [hto']
      simp only [disconnectQueued, hwork] at hrest
      exact hrest
    · have hcount := hcount f
      rw [hto']
      rw [hto] at hcount
      simp only [Work.stale, Work.inHand, List.drop_zero, List.count_cons,
        List.count_nil] at hcount ⊢
      omega
    · rw [hto] at hbal
      rw [length_outside, hto']
      simp only [Work.stale, Work.inHand, Work.uncounted, Work.overcounted, List.length_nil,
        List.length_cons] at hbal ⊢
      show p.fromOffloadThread.count + p.held.length + (frames.length - 0) + 1 + 0 =
        p.numFramesInUse + 0
      omega
  · exact absurd heq (by simp [frameItem, disconnectItem])

theorem OffloadInv.popDisconnect (h : OffloadInv p) (hlisted : p.listed = true)
    (hwork : p.work = .idle) {item : ToOffload} (hbuff : item.buff = none)
    {rest : RingBuffer ToOffload} (hpop : p.toOffloadThread.pop = some (item, rest)) :
    OffloadInv { p with toOffloadThread := rest, work := .flushing 0 } := by
  obtain ⟨hitems, hwell, hcap⟩ := RingBuffer.pop_eq_some h.toWellFormed hpop
  have hbal := h.balance
  have hcount := h.count_placed
  have hb := h.bound
  rw [length_outside] at hbal
  rw [hwork] at hbal hcount hb
  rcases h.head_cases hitems with ⟨frame, _, heq, -⟩ | ⟨-, hto, hrest, hqueued⟩
  · exact absurd (heq ▸ hbuff) (by simp [frameItem])
  · have hphase : p.phase = .leaving := by
      simp only [disconnectQueued, Bool.and_eq_true, decide_eq_true_eq] at hqueued
      exact hqueued.1.1
    have hto' : toFrames { p with toOffloadThread := rest, work := .flushing 0 } = [] := by
      simp [toFrames, hrest]
    rw [hto] at hbal hcount
    refine { h with
      toCapacity := fun hphase => hcap.trans (h.toCapacity hphase)
      toWellFormed := hwell
      shape := ?_
      peeked := fun _ hp => nomatch hp
      stale := Nat.zero_le _
      unlisted := fun hl => nomatch hlisted.symm.trans hl
      flushing := fun _ => ⟨hphase, hto'⟩
      placed := placed_of_count fun f => ?_
      balance := ?_
      bound := hb }
    · rw [hto']
      simp [disconnectQueued, Work.isFlushing, hrest]
    · rw [hto']
      exact hcount f
    · rw [length_outside, hto']
      exact hbal

theorem OffloadInv.peekFrame (h : OffloadInv p) (hlisted : p.listed = true)
    (hwork : p.work = .idle) {frame : ℕ} {rest : List ToOffload}
    (hitems : p.toOffloadThread.items = frameItem frame :: rest) :
    OffloadInv { p with work := .toRelease frame true } := by
  have hhead : p.toFrames.head? = some frame := by
    rw [toFrames, hitems]
    rfl
  refine { h with
    shape := ?_
    peeked := fun f hp => ?_
    stale := Nat.zero_le _
    unlisted := fun hl => nomatch hlisted.symm.trans hl
    flushing := fun hf => nomatch hf
    placed := placed_of_count fun f => ?_
    balance := ?_
    bound := ?_ }
  · have hshape := h.shape
    simp only [disconnectQueued, hwork] at hshape
    exact hshape
  · rw [Work.toRelease.injEq] at hp
    exact hp.1 ▸ hhead
  · have hcount := h.count_placed f
    rw [hwork] at hcount
    exact hcount
  · have hbal := h.balance
    rw [length_outside, hwork] at hbal
    rw [length_outside]
    exact hbal
  · have hb := h.bound
    rw [hwork] at hb
    exact hb

theorem OffloadInv.flushFrame (h : OffloadInv p) {count : ℕ} (hwork : p.work = .flushing count)
    {frame : ℕ} {rest : RingBuffer ℕ} (hpop : p.fromOffloadThread.pop = some (frame, rest)) :
    OffloadInv { p.release frame with
      fromOffloadThread := rest, work := .flushing (count + 1) } := by
  obtain ⟨hlisted, hphase⟩ := h.of_work_ne_idle (by rw [hwork]; exact nofun)
  obtain ⟨hitems, hwell, hcap⟩ := RingBuffer.pop_eq_some (h.fromWellFormed hphase) hpop
  have hlen := congrArg List.length hitems
  rw [RingBuffer.length_items, List.length_cons, RingBuffer.length_items] at hlen
  have hbal := h.balance
  rw [length_outside, hwork] at hbal
  refine { h with
    fromCapacity := fun _ => hcap.trans (h.fromCapacity hphase)
    fromWellFormed := fun _ => hwell
    shape := ?_
    peeked := fun _ hp => nomatch hp
    stale := Nat.zero_le _
    unlisted := fun hl => nomatch hlisted.symm.trans hl
    flushing := fun _ => h.flushing (by rw [hwork]; rfl)
    placed := placed_of_count fun f => ?_
    balance := ?_
    bound := ?_ }
  · have hshape := h.shape
    simp only [disconnectQueued, hwork] at hshape
    exact hshape
  · have hcount := h.count_placed f
    rw [hwork, hitems, List.count_cons] at hcount
    show (p.released ++ [frame]).count f + (rest.items.count f + p.held.count f +
      (p.toFrames.drop 0).count f + ([] : List ℕ).count f) = (List.range p.taken).count f
    rw [List.count_append, List.count_cons]
    simp only [Work.stale, Work.inHand, List.count_nil] at hcount ⊢
    omega
  · rw [length_outside]
    simp only [Work.stale, Work.inHand, Work.uncounted, Work.overcounted,
      List.length_nil] at hbal ⊢
    show rest.count + p.held.length + (p.toFrames.length - 0) + 0 + (count + 1) =
      p.numFramesInUse + 0
    omega
  · have hb := h.bound
    rw [hwork] at hb
    exact hb

theorem OffloadInv.flushed (h : OffloadInv p) {count : ℕ} (hwork : p.work = .flushing count)
    (hpop : p.fromOffloadThread.pop = none) :
    OffloadInv { p with
      numFramesInUse := p.numFramesInUse - count
      connected := false, listed := false, work := .idle } := by
  obtain ⟨hleaving, hto⟩ := h.flushing (by rw [hwork]; rfl)
  have hheld : p.held = [] := h.held (by rw [hleaving]; exact nofun)
  have hitems := RingBuffer.pop_eq_none.mp hpop
  have hbal := h.balance
  have houtside : p.outside = [] := by
    rw [outside, hitems, hheld, hto, hwork]
    rfl
  rw [houtside, hwork] at hbal
  simp only [Work.overcounted, Work.uncounted, List.length_nil] at hbal
  have hzero : p.numFramesInUse - count = 0 := by omega
  have hempty : outside { p with
      numFramesInUse := p.numFramesInUse - count
      connected := false, listed := false, work := .idle } = [] := by
    show p.fromOffloadThread.items ++ p.held ++ p.toFrames.drop 0 ++ [] = []
    rw [hitems, hheld, hto]
    rfl
  have hplaced := h.placed
  rw [houtside] at hplaced
  refine { h with
    shape := ?_
    peeked := fun _ hp => nomatch hp
    stale := Nat.zero_le _
    unlisted := fun _ => ⟨rfl, hempty, hzero⟩
    phases := fun hl => nomatch hl
    listed := fun hp => ?_
    connected := rfl
    flushing := fun hf => nomatch hf
    placed := ?_
    balance := ?_
    bound := ?_ }
  · have hshape := h.shape
    simp only [disconnectQueued, hwork, Work.isFlushing, Bool.not_true, Bool.and_false] at hshape
    show p.toOffloadThread.items = p.toFrames.map frameItem ++
      (if (decide (p.phase = .leaving) && false && !false) = true then [disconnectItem] else [])
    rw [Bool.and_false, Bool.false_and]
    exact hshape
  · have hp : p.phase = .connected ∨ p.phase = .opened := hp
    rw [hleaving] at hp
    rcases hp with hp | hp <;> cases hp
  · rw [hempty]
    exact hplaced
  · rw [hempty]
    show 0 + 0 = p.numFramesInUse - count + 0
    omega
  · show p.numFramesInUse - count + 0 + 0 ≤ p.numFrames
    omega

/-! ## The client -/

theorem OffloadInv.connect (h : OffloadInv p) (hphase : p.phase = .requested) :
    OffloadInv { p with
      listed := true, connected := true, numFramesInUse := 0, phase := .connected } := by
  have hunlisted : p.listed = false := h.listed_eq_false hphase (by decide)
  obtain ⟨hwork, houtside, hcount⟩ := h.unlisted hunlisted
  have hb := h.bound
  have hbal := h.balance
  rw [hcount] at hb hbal
  have habsent : p.phase ≠ .absent := by rw [hphase]; exact nofun
  have hnot : p.phase ≠ .leaving := by rw [hphase]; exact nofun
  exact { h with
    fromCapacity := fun _ => h.fromCapacity habsent
    toCapacity := fun _ => h.toCapacity habsent
    fromWellFormed := fun _ => h.fromWellFormed habsent
    shape := (h.shape_of_opened hnot).trans (List.append_nil _).symm
    unlisted := fun hl => nomatch hl
    phases := fun _ => Or.inl rfl
    listed := fun _ => rfl
    connected := rfl
    flushing := fun hf => absurd (h.flushing hf).1 hnot
    held := fun _ => h.held (by rw [hphase]; exact nofun)
    balance := hbal
    bound := hb }

theorem OffloadInv.open (h : OffloadInv p) (hphase : p.phase = .connected) :
    OffloadInv { p with phase := .opened } := by
  have hnot : p.phase ≠ .leaving := by rw [hphase]; exact nofun
  have habsent : p.phase ≠ .absent := by rw [hphase]; exact nofun
  exact { h with
    fromCapacity := fun _ => h.fromCapacity habsent
    toCapacity := fun _ => h.toCapacity habsent
    fromWellFormed := fun _ => h.fromWellFormed habsent
    shape := (h.shape_of_opened hnot).trans (List.append_nil _).symm
    phases := fun _ => Or.inr (Or.inl rfl)
    listed := fun _ => h.listed (Or.inl hphase)
    flushing := fun hf => absurd (h.flushing hf).1 hnot
    held := fun hp => absurd rfl hp }

theorem OffloadInv.getBuff (h : OffloadInv p) (hphase : p.phase = .opened) {frame : ℕ}
    {rest : RingBuffer ℕ} (hpop : p.fromOffloadThread.pop = some (frame, rest)) :
    OffloadInv { p with
      fromOffloadThread := rest
      held := p.held ++ [frame]
      clientFramesInUse := p.clientFramesInUse + 1 } := by
  have habsent : p.phase ≠ .absent := by rw [hphase]; exact nofun
  obtain ⟨hitems, hwell, hcap⟩ := RingBuffer.pop_eq_some (h.fromWellFormed habsent) hpop
  have hlen := congrArg List.length hitems
  rw [RingBuffer.length_items, List.length_cons, RingBuffer.length_items] at hlen
  have hbal := h.balance
  rw [length_outside] at hbal
  have houtside : outside { p with
      fromOffloadThread := rest
      held := p.held ++ [frame]
      clientFramesInUse := p.clientFramesInUse + 1 } =
      rest.items ++ (p.held ++ [frame]) ++ p.toFrames.drop p.work.stale ++ p.work.inHand := rfl
  refine { h with
    fromCapacity := fun _ => hcap.trans (h.fromCapacity habsent)
    fromWellFormed := fun _ => hwell
    unlisted := fun hl => ?_
    held := fun hp => absurd hphase hp
    clientCount := ?_
    placed := placed_of_count fun f => ?_
    balance := ?_ }
  · have hempty := (h.unlisted hl).2.1
    rw [outside, hitems] at hempty
    cases hempty
  · rw [h.clientCount, List.length_append, List.length_singleton]
  · have hcount := h.count_placed f
    rw [hitems, List.count_cons] at hcount
    show p.released.count f + (rest.items.count f + (p.held ++ [frame]).count f +
      (p.toFrames.drop p.work.stale).count f + p.work.inHand.count f) =
      (List.range p.taken).count f
    rw [List.count_append, List.count_cons, List.count_nil]
    omega
  · rw [houtside]
    simp only [List.length_append, List.length_drop, RingBuffer.length_items,
      List.length_singleton]
    show rest.count + (p.held.length + 1) + (p.toFrames.length - p.work.stale) +
      p.work.inHand.length + p.work.overcounted = p.numFramesInUse + p.work.uncounted
    omega

theorem OffloadInv.releaseBuff (h : OffloadInv p) (hphase : p.phase = .opened) {frame : ℕ}
    (hframe : frame ∈ p.held) :
    OffloadInv { p with
      toOffloadThread := p.toOffloadThread.push (frameItem frame)
      held := p.held.erase frame
      clientFramesInUse := p.clientFramesInUse - 1 } := by
  have habsent : p.phase ≠ .absent := by rw [hphase]; exact nofun
  have hnot : p.phase ≠ .leaving := by rw [hphase]; exact nofun
  have hqueued : p.disconnectQueued = false := by simp [disconnectQueued, hphase]
  have hlen : 0 < p.held.length := List.length_pos_of_mem hframe
  have herase := List.length_erase_of_mem hframe
  have hto := h.toFrames_le
  have hroom : p.toOffloadThread.count < p.toOffloadThread.capacity := by
    rw [h.toCapacity habsent, h.count_to, hqueued]
    simp only [Bool.false_eq_true, if_false]
    omega
  have hitems := RingBuffer.items_push h.toWellFormed hroom (frameItem frame)
  have hframes : toFrames { p with
      toOffloadThread := p.toOffloadThread.push (frameItem frame)
      held := p.held.erase frame
      clientFramesInUse := p.clientFramesInUse - 1 } = p.toFrames ++ [frame] := by
    show (p.toOffloadThread.push (frameItem frame)).items.filterMap (fun e => e.buff) = _
    rw [hitems, List.filterMap_append]
    rfl
  have hdrop : (p.toFrames ++ [frame]).drop p.work.stale =
      p.toFrames.drop p.work.stale ++ [frame] :=
    List.drop_append_of_le_length h.stale
  have hbal := h.balance
  rw [length_outside] at hbal
  refine { h with
    toCapacity := fun _ => h.toCapacity habsent
    toWellFormed := h.toWellFormed.push hroom _
    shape := ?_
    peeked := fun f hp => ?_
    stale := ?_
    unlisted := fun hl => ?_
    flushing := fun hf => absurd (h.flushing hf).1 hnot
    held := fun hp => absurd hphase hp
    clientCount := ?_
    placed := placed_of_count fun f => ?_
    balance := ?_ }
  · rw [hframes]
    show (p.toOffloadThread.push (frameItem frame)).items = _ ++
      (if p.disconnectQueued = true then [disconnectItem] else [])
    rw [hitems, h.shape_of_opened hnot, hqueued, List.map_append,
      if_neg Bool.false_ne_true, List.append_nil]
    rfl
  · rw [hframes, List.head?_append, h.peeked f hp]
    rfl
  · rw [hframes, List.length_append]
    exact Nat.le_trans h.stale (Nat.le_add_right ..)
  · have hempty := (h.unlisted hl).2.1
    have hheld : p.held = [] := by
      rw [outside] at hempty
      simp only [List.append_eq_nil_iff] at hempty
      exact hempty.1.1.2
    rw [hheld] at hframe
    exact absurd hframe List.not_mem_nil
  · show p.clientFramesInUse - 1 = (p.held.erase frame).length
    rw [h.clientCount, herase]
  · have hcount := h.count_placed f
    have hperm := (List.perm_cons_erase hframe).count_eq f
    rw [List.count_cons] at hperm
    rw [hframes]
    show p.released.count f + (p.fromOffloadThread.items.count f +
      (p.held.erase frame).count f + ((p.toFrames ++ [frame]).drop p.work.stale).count f +
      p.work.inHand.count f) = (List.range p.taken).count f
    rw [hdrop, List.count_append, List.count_cons, List.count_nil]
    omega
  · rw [length_outside, hframes]
    have hstale := h.stale
    show p.fromOffloadThread.count + (p.held.erase frame).length +
      ((p.toFrames ++ [frame]).length - p.work.stale) + p.work.inHand.length +
      p.work.overcounted = p.numFramesInUse + p.work.uncounted
    rw [List.length_append, List.length_singleton]
    omega

theorem OffloadInv.disconnect (h : OffloadInv p) (hphase : p.phase = .opened)
    (hcount : p.clientFramesInUse = 0) :
    OffloadInv { p with
      toOffloadThread := p.toOffloadThread.push disconnectItem, phase := .leaving } := by
  have habsent : p.phase ≠ .absent := by rw [hphase]; exact nofun
  have hnot : p.phase ≠ .leaving := by rw [hphase]; exact nofun
  have hqueued : p.disconnectQueued = false := by simp [disconnectQueued, hphase]
  have hlisted : p.listed = true := h.listed (Or.inr hphase)
  have hheld : p.held = [] := List.length_eq_zero_iff.mp (h.clientCount ▸ hcount)
  have hto := h.toFrames_le
  have hroom : p.toOffloadThread.count < p.toOffloadThread.capacity := by
    rw [h.toCapacity habsent, h.count_to, hqueued]
    simp only [Bool.false_eq_true, if_false]
    omega
  have hitems := RingBuffer.items_push h.toWellFormed hroom disconnectItem
  have hframes : toFrames { p with
      toOffloadThread := p.toOffloadThread.push disconnectItem, phase := .leaving } =
      p.toFrames := by
    show (p.toOffloadThread.push disconnectItem).items.filterMap (fun e => e.buff) = _
    rw [hitems, List.filterMap_append]
    exact List.append_nil _
  have hflush : p.work.isFlushing = false := by
    by_contra hf
    exact hnot (h.flushing (Bool.not_eq_false _ ▸ hf)).1
  have houtside : outside { p with
      toOffloadThread := p.toOffloadThread.push disconnectItem, phase := .leaving } =
      p.outside := by
    rw [outside, hframes]
    rfl
  refine { h with
    fromCapacity := fun _ => h.fromCapacity habsent
    fromWellFormed := fun _ => h.fromWellFormed habsent
    toCapacity := fun _ => h.toCapacity habsent
    toWellFormed := h.toWellFormed.push hroom _
    shape := ?_
    peeked := fun f hp => hframes.symm ▸ h.peeked f hp
    stale := hframes.symm ▸ h.stale
    unlisted := fun hl => nomatch hlisted.symm.trans hl
    phases := fun _ => Or.inr (Or.inr rfl)
    listed := fun _ => hlisted
    flushing := fun hf => nomatch hflush.symm.trans hf
    held := fun _ => hheld
    placed := houtside.symm ▸ h.placed
    balance := houtside.symm ▸ h.balance }
  rw [hframes]
  show (p.toOffloadThread.push disconnectItem).items = p.toFrames.map frameItem ++
    (if (decide (ClientPhase.leaving = .leaving) && p.listed && !p.work.isFlushing) = true
      then [disconnectItem] else [])
  rw [hitems, h.shape_of_opened hnot, hlisted, hflush]
  rfl

theorem OffloadInv.close (h : OffloadInv p) (hphase : p.phase = .leaving)
    (hconnected : p.connected = false) : OffloadInv { p with phase := .closed } := by
  have habsent : p.phase ≠ .absent := by rw [hphase]; exact nofun
  have hlisted : p.listed = false := h.connected.symm.trans hconnected
  have hshape := h.shape
  refine { h with
    fromCapacity := fun _ => h.fromCapacity habsent
    fromWellFormed := fun _ => h.fromWellFormed habsent
    toCapacity := fun _ => h.toCapacity habsent
    shape := ?_
    phases := fun hl => nomatch hlisted.symm.trans hl
    listed := fun hp => by rcases hp with hp | hp <;> cases hp
    flushing := fun hf => ?_
    held := fun _ => h.held (by rw [hphase]; exact nofun) }
  · rw [disconnectQueued, hlisted, Bool.and_false, Bool.false_and] at hshape
    exact hshape
  · rw [(h.unlisted hlisted).1] at hf
    cases hf

/-! ## Steps and runs -/

theorem OffloadInv.takeRecvRequest (h : OffloadInv p) (hlisted : p.listed = true)
    (hwork : p.work = .idle) : OffloadInv p.takeRecvRequest := by
  rw [OffloadClient.takeRecvRequest]
  rcases hpop : p.toOffloadThread.pop with - | ⟨item, rest⟩
  · exact h
  · obtain ⟨hitems, -, -⟩ := RingBuffer.pop_eq_some h.toWellFormed hpop
    rcases h.head_cases hitems with ⟨frame, -, rfl, -⟩ | ⟨rfl, -⟩
    · exact h.popFrame hlisted hwork hpop
    · exact h.popDisconnect hlisted hwork rfl hpop

theorem OffloadInv.takeSendRequest (h : OffloadInv p) (hlisted : p.listed = true)
    (hwork : p.work = .idle) (destReady : Bool) : OffloadInv (p.takeSendRequest destReady) := by
  rw [OffloadClient.takeSendRequest, RingBuffer.peek_eq_head? h.toWellFormed]
  rcases hitems : p.toOffloadThread.items with - | ⟨item, rest⟩
  · exact h
  · rcases h.head_cases hitems with ⟨frame, -, rfl, -⟩ | ⟨rfl, -⟩
    · cases destReady with
      | false => exact h
      | true => exact h.peekFrame hlisted hwork hitems
    · rcases hpop : p.toOffloadThread.pop with - | ⟨item, rest⟩
      · exact h
      · obtain ⟨hitems', -, -⟩ := RingBuffer.pop_eq_some h.toWellFormed hpop
        rw [hitems, List.cons.injEq] at hitems'
        exact h.popDisconnect hlisted hwork (hitems'.1 ▸ rfl) hpop

theorem OffloadInv.proceed (h : OffloadInv p) {p' : OffloadClient}
    (hstep : p.proceed p.work = some p') : OffloadInv p' := by
  cases hwork : p.work with
  | idle =>
    rw [hwork] at hstep
    cases hstep
  | got frame =>
    rw [hwork, OffloadClient.proceed, Option.some_inj] at hstep
    exact hstep ▸ h.push hwork
  | pushed =>
    rw [hwork, OffloadClient.proceed, Option.some_inj] at hstep
    exact hstep ▸ h.countFrame hwork
  | toRelease frame peeked =>
    rw [hwork, OffloadClient.proceed, Option.some_inj] at hstep
    exact hstep ▸ h.releaseFrame hwork
  | released peeked =>
    rw [hwork, OffloadClient.proceed, Option.some_inj] at hstep
    exact hstep ▸ h.uncountFrame hwork
  | popHead =>
    rw [hwork, OffloadClient.proceed] at hstep
    rcases hpop : p.toOffloadThread.pop with - | ⟨item, rest⟩
    · -- the released entry is still in the queue
      have hstale := h.stale
      rw [hwork, OffloadClient.toFrames, RingBuffer.pop_eq_none.mp hpop] at hstale
      exact absurd hstale (by decide)
    · rw [hpop, Option.some_inj] at hstep
      exact hstep ▸ h.popHead hwork hpop
  | flushing count =>
    rw [hwork, OffloadClient.proceed] at hstep
    rcases hpop : p.fromOffloadThread.pop with - | ⟨frame, rest⟩
    · rw [hpop, Option.some_inj] at hstep
      exact hstep ▸ h.flushed hwork hpop
    · rw [hpop, Option.some_inj] at hstep
      exact hstep ▸ h.flushFrame hwork hpop

theorem OffloadInv.step (h : OffloadInv p) {a : OffloadAction} {p' : OffloadClient}
    (hstep : p.step a = some p') : OffloadInv p' := by
  cases a with
  | create sends numFrames =>
    rw [OffloadClient.step] at hstep
    split_ifs at hstep with hcond
    rw [Option.some_inj] at hstep
    exact hstep ▸ offloadInv_create sends hcond.2
  | connect =>
    rw [OffloadClient.step] at hstep
    split_ifs at hstep with hcond
    rw [Option.some_inj] at hstep
    exact hstep ▸ h.connect hcond
  | opened =>
    rw [OffloadClient.step] at hstep
    split_ifs at hstep with hcond
    rw [Option.some_inj] at hstep
    exact hstep ▸ h.open hcond.1
  | getFrame linkHasFrame =>
    rw [OffloadClient.step] at hstep
    split_ifs at hstep with hcond hroom
    · rw [Option.some_inj] at hstep
      exact hstep ▸ h.getFrame hcond.1 hcond.2 hroom.1
    · rw [Option.some_inj] at hstep
      exact hstep ▸ h
  | takeRequest destReady =>
    rw [OffloadClient.step] at hstep
    split_ifs at hstep with hcond hsends
    · rw [Option.some_inj] at hstep
      exact hstep ▸ h.takeSendRequest hcond.1 hcond.2 destReady
    · rw [Option.some_inj] at hstep
      exact hstep ▸ h.takeRecvRequest hcond.1 hcond.2
  | proceed => exact h.proceed hstep
  | getBuff =>
    rw [OffloadClient.step] at hstep
    split_ifs at hstep with hcond
    rcases hpop : p.fromOffloadThread.pop with - | ⟨frame, rest⟩
    · rw [hpop, Option.some_inj] at hstep
      exact hstep ▸ h
    · rw [hpop, Option.some_inj] at hstep
      exact hstep ▸ h.getBuff hcond hpop
  | releaseBuff frame =>
    rw [OffloadClient.step] at hstep
    split_ifs at hstep with hcond
    rw [Option.some_inj] at hstep
    exact hstep ▸ h.releaseBuff hcond.1 hcond.2
  | disconnect =>
    rw [OffloadClient.step] at hstep
    split_ifs at hstep with hcond
    rw [Option.some_inj] at hstep
    exact hstep ▸ h.disconnect hcond.1 hcond.2
  | disconnected =>
    rw [OffloadClient.step] at hstep
    split_ifs at hstep with hcond
    rw [Option.some_inj] at hstep
    exact hstep ▸ h.close hcond.1 hcond.2

theorem step_frame {p' : OffloadClient} {a : OffloadAction} (hstep : p.step a = some p')
    (hrequest : a.ofRequest = false) :
    p'.numFrames = p.numFrames ∧ (p'.listed = true → p.listed = true) := by
  cases a with
  | create sends numFrames => cases hrequest
  | connect => cases hrequest
  | proceed =>
    cases hwork : p.work <;> rw [step, hwork, proceed] at hstep
    case idle => cases hstep
    case popHead | flushing =>
      split at hstep <;> rw [Option.some_inj] at hstep <;> subst hstep
      · exact ⟨rfl, id⟩
      · exact ⟨rfl, fun h => by first | exact h | exact nomatch h⟩
    all_goals
      rw [Option.some_inj] at hstep
      subst hstep
      exact ⟨rfl, id⟩
  | takeRequest destReady =>
    rw [step] at hstep
    split_ifs at hstep with hcond hsends <;> rw [Option.some_inj] at hstep <;> subst hstep
    · rw [takeSendRequest]
      repeat' split
      all_goals exact ⟨rfl, id⟩
    · rw [takeRecvRequest]
      repeat' split
      all_goals exact ⟨rfl, id⟩
  | getBuff =>
    rw [step] at hstep
    split_ifs at hstep
    split at hstep <;> rw [Option.some_inj] at hstep <;> subst hstep <;> exact ⟨rfl, id⟩
  | _ =>
    rw [step] at hstep
    split_ifs at hstep <;> rw [Option.some_inj] at hstep <;> subst hstep <;> exact ⟨rfl, id⟩

/-! ## What the invariant is for -/

/-- No queue of a client is overfull, every frame that was taken from the link is in one place,
and the counters are right. -/
structure FramesAccounted (p : OffloadClient) : Prop where
  from_le : p.fromOffloadThread.count ≤ p.fromOffloadThread.capacity
  to_le : p.toOffloadThread.count ≤ p.toOffloadThread.capacity
  /-- Released once, or in one of the places outside of the link. -/
  placed : (p.released ++ p.outside).Perm (List.range p.taken)
  /-- The counter of the service thread, also in the middle of something. -/
  balance : p.outside.length + p.work.overcounted = p.numFramesInUse + p.work.uncounted
  idle : p.work = .idle → p.numFramesInUse = p.outside.length
  client : p.clientFramesInUse = p.held.length
  /-- After the client has disconnected, every frame is back. -/
  closed : p.phase = .closed →
    p.released.Perm (List.range p.taken) ∧ p.outside = [] ∧ p.numFramesInUse = 0

theorem OffloadInv.framesAccounted (h : OffloadInv p) : FramesAccounted p where
  from_le := by
    by_cases habsent : p.phase = .absent
    · -- a client that was not created has taken no frame
      have hunlisted : p.listed = false := h.listed_eq_false habsent (by decide)
      have hlen := p.length_outside
      rw [(h.unlisted hunlisted).2.1, List.length_nil] at hlen
      omega
    · exact (h.fromWellFormed habsent).count_le
  to_le := h.toWellFormed.count_le
  placed := h.placed
  balance := h.balance
  idle hwork := by
    have hbal := h.balance
    rw [hwork] at hbal
    exact hbal.symm
  client := h.clientCount
  closed hclosed := by
    have hunlisted : p.listed = false := h.listed_eq_false hclosed (by decide)
    obtain ⟨-, houtside, hcount⟩ := h.unlisted hunlisted
    have hplaced := h.placed
    rw [houtside, List.append_nil] at hplaced
    exact ⟨hplaced, houtside, hcount⟩

end OffloadClient
end Transport
end UhdHost
