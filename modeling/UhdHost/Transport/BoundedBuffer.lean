import Mathlib.Data.List.Basic
import Mathlib.Order.Basic
import Mathlib.Tactic.Common
import UhdHost.Library.Transition

/-!
# The bounded buffer

`bounded_buffer_detail` of `uhd/transport/bounded_buffer.ipp`: a queue of limited capacity between
any number of threads that push and pop.  A call is one section under the mutex, unless it waits:
then the thread sleeps on a condition variable, and looks at the buffer again when it is notified,
when its time is over, or for no reason.  Which thread `notify_one` wakes is up to the run.

* `BoundedBuffer.fifo_of_run`: whatever the threads do, what was pushed comes out once and in
  order, and no thread is left asleep for want of a notification.
-/

namespace UhdHost
namespace Transport

open Transition

/-- A thread that waits, to push `elem` or to pop. -/
structure Waiter (β : Type) where
  elem : β
  /-- `push_with_timed_wait`, `pop_with_timed_wait` -/
  timed : Bool
  deriving DecidableEq

/-- `bounded_buffer_detail`, with the threads that wait. -/
structure BoundedBuffer (α : Type) where
  /-- `_buffer`, the oldest element first -/
  buffer : List α := []
  /-- Asleep on `_empty_cond`. -/
  emptyCond : List (Waiter Unit) := []
  /-- Notified there, and waiting for the mutex. -/
  emptyWoken : List (Waiter Unit) := []
  /-- Asleep on `_full_cond`. -/
  fullCond : List (Waiter α) := []
  fullWoken : List (Waiter α) := []
  /-- All that was pushed. -/
  pushed : List α := []
  /-- All that was popped, also to make room. -/
  popped : List α := []
  deriving DecidableEq

/-- One section under the mutex.  `wake` is the place of the thread that is notified, if one is. -/
inductive BufferAction (α : Type) where
  | pushWithHaste (elem : α) (wake : ℕ)
  | pushWithPopOnFull (elem : α) (wake : ℕ)
  /-- `push_with_wait`, `push_with_timed_wait` -/
  | pushWithWait (pusher : Waiter α) (wake : ℕ)
  | popWithHaste (wake : ℕ)
  /-- `pop_with_wait`, `pop_with_timed_wait` -/
  | popWithWait (popper : Waiter Unit) (wake : ℕ)
  | popAll
  /-- The thread at this place waits to push and looks at the buffer again. -/
  | checkPush (woken timedOut : Bool) (place wake : ℕ)
  | checkPop (woken timedOut : Bool) (place wake : ℕ)

namespace BoundedBuffer

variable {α β : Type}

/-- `notify_one` -/
def notifyOne (wake : ℕ) (asleep woken : List β) : Option (List β × List β) :=
  match asleep[wake]? with
  | some w => some (asleep.eraseIdx wake, woken ++ [w])
  | none => if asleep.isEmpty then some (asleep, woken) else none

/-- `full` -/
def full (capacity : ℕ) (b : BoundedBuffer α) : Bool := capacity ≤ b.buffer.length

/-- `push_front`, and a notification -/
def push (b : BoundedBuffer α) (elem : α) (wake : ℕ) : Option (BoundedBuffer α) :=
  (notifyOne wake b.emptyCond b.emptyWoken).map fun notified =>
    { b with
      buffer := b.buffer ++ [elem]
      emptyCond := notified.1
      emptyWoken := notified.2
      pushed := b.pushed ++ [elem] }

/-- `pop_back`, and a notification -/
def pop (b : BoundedBuffer α) (oldest : α) (rest : List α) (wake : ℕ) : Option (BoundedBuffer α) :=
  (notifyOne wake b.fullCond b.fullWoken).map fun notified =>
    { b with
      buffer := rest
      fullCond := notified.1
      fullWoken := notified.2
      popped := b.popped ++ [oldest] }

/-- A thread that waited to push looks at the buffer: if it is still full, the thread leaves where
its time is over, and sleeps again where it is not. -/
def checkPush (capacity : ℕ) (b : BoundedBuffer α) (pusher : Waiter α) (timedOut : Bool)
    (wake : ℕ) : Option (BoundedBuffer α) :=
  if timedOut && !pusher.timed then none
  else if b.full capacity then
    some (if timedOut then b else { b with fullCond := b.fullCond ++ [pusher] })
  else b.push pusher.elem wake

/-- A thread that waited to pop looks at the buffer. -/
def checkPop (b : BoundedBuffer α) (popper : Waiter Unit) (timedOut : Bool) (wake : ℕ) :
    Option (BoundedBuffer α) :=
  if timedOut && !popper.timed then none
  else
    match b.buffer with
    | [] => some (if timedOut then b else { b with emptyCond := b.emptyCond ++ [popper] })
    | oldest :: rest => b.pop oldest rest wake

/-- What a section under the mutex does.  A call that returns false leaves everything. -/
def step (capacity : ℕ) (b : BoundedBuffer α) : BufferAction α → Option (BoundedBuffer α)
  | .pushWithHaste elem wake => if b.full capacity then some b else b.push elem wake
  | .pushWithPopOnFull elem wake =>
    if b.full capacity then
      match b.buffer with
      -- `pop_back` is not defined for a buffer without any capacity
      | [] => none
      | oldest :: rest => push { b with buffer := rest, popped := b.popped ++ [oldest] } elem wake
    else b.push elem wake
  | .pushWithWait pusher wake =>
    if b.full capacity then some { b with fullCond := b.fullCond ++ [pusher] }
    else b.push pusher.elem wake
  | .popWithHaste wake =>
    match b.buffer with
    | [] => some b
    | oldest :: rest => b.pop oldest rest wake
  | .popWithWait popper wake =>
    match b.buffer with
    | [] => some { b with emptyCond := b.emptyCond ++ [popper] }
    | oldest :: rest => b.pop oldest rest wake
  | .popAll =>
    some { b with
      buffer := []
      fullCond := []
      fullWoken := b.fullWoken ++ b.fullCond
      popped := b.popped ++ b.buffer }
  | .checkPush true timedOut place wake => b.fullWoken[place]?.bind fun pusher =>
    checkPush capacity { b with fullWoken := b.fullWoken.eraseIdx place } pusher timedOut wake
  | .checkPush false timedOut place wake => b.fullCond[place]?.bind fun pusher =>
    checkPush capacity { b with fullCond := b.fullCond.eraseIdx place } pusher timedOut wake
  | .checkPop true timedOut place wake => b.emptyWoken[place]?.bind fun popper =>
    checkPop { b with emptyWoken := b.emptyWoken.eraseIdx place } popper timedOut wake
  | .checkPop false timedOut place wake => b.emptyCond[place]?.bind fun popper =>
    checkPop { b with emptyCond := b.emptyCond.eraseIdx place } popper timedOut wake

/-- **What holds of the buffer at any time.** -/
structure Sound (capacity : ℕ) (b : BoundedBuffer α) : Prop where
  fifo : b.popped ++ b.buffer = b.pushed
  le_capacity : b.buffer.length ≤ capacity
  /-- Where a thread sleeps until there is an element, each element has a thread that was woken. -/
  empty : b.emptyCond ≠ [] → b.buffer.length ≤ b.emptyWoken.length
  /-- Where a thread sleeps until there is room, each place has a thread that was woken. -/
  full : b.fullCond ≠ [] → capacity ≤ b.buffer.length + b.fullWoken.length

variable {capacity : ℕ} {b t : BoundedBuffer α}

/-! ## Steps -/

theorem notifyOne_eq_some {wake : ℕ} {asleep woken : List β} {notified : List β × List β}
    (h : notifyOne wake asleep woken = some notified) (hne : notified.1 ≠ []) :
    asleep ≠ [] ∧ notified.2.length = woken.length + 1 := by
  rw [notifyOne] at h
  cases hw : asleep[wake]? with
  | some w =>
    rw [hw, Option.some_inj] at h
    refine ⟨?_, h ▸ List.length_append⟩
    rintro rfl
    cases hw
  | none =>
    rw [hw] at h
    dsimp only at h
    split_ifs at h with hempty
    obtain rfl := Option.some.inj h
    exact absurd (List.isEmpty_iff.mp hempty) hne

theorem sound_push {elem : α} {wake : ℕ} (hfifo : b.popped ++ b.buffer = b.pushed)
    (hlt : b.buffer.length < capacity)
    (hempty : b.emptyCond ≠ [] → b.buffer.length ≤ b.emptyWoken.length)
    (hfull : b.fullCond ≠ [] → capacity ≤ b.buffer.length + 1 + b.fullWoken.length)
    (h : b.push elem wake = some t) : t.Sound capacity := by
  obtain ⟨notified, hnotified, rfl⟩ := Option.map_eq_some_iff.mp h
  have hlength : (b.buffer ++ [elem]).length = b.buffer.length + 1 := List.length_append
  refine ⟨?_, hlength ▸ hlt, fun hne => ?_, fun hne => hlength ▸ hfull hne⟩
  · dsimp only
    rw [← List.append_assoc, hfifo]
  · obtain ⟨hasleep, hwoken⟩ := notifyOne_eq_some hnotified hne
    have hold := hempty hasleep
    dsimp only
    omega

theorem sound_pop {oldest : α} {rest : List α} {wake : ℕ}
    (hfifo : b.popped ++ oldest :: rest = b.pushed) (hlt : rest.length < capacity)
    (hempty : b.emptyCond ≠ [] → rest.length ≤ b.emptyWoken.length)
    (hfull : b.fullCond ≠ [] → capacity ≤ rest.length + 1 + b.fullWoken.length)
    (h : b.pop oldest rest wake = some t) : t.Sound capacity := by
  obtain ⟨notified, hnotified, rfl⟩ := Option.map_eq_some_iff.mp h
  refine ⟨?_, Nat.le_of_lt hlt, hempty, fun hne => ?_⟩
  · dsimp only
    rw [List.append_assoc, List.singleton_append, hfifo]
  · obtain ⟨hasleep, hwoken⟩ := notifyOne_eq_some hnotified hne
    have hold := hfull hasleep
    dsimp only
    omega

theorem Sound.push (hb : b.Sound capacity) (hfull : ¬ b.full capacity = true) {elem : α} {wake : ℕ}
    (h : b.push elem wake = some t) : t.Sound capacity := by
  rw [BoundedBuffer.full, decide_eq_true_iff, Nat.not_le] at hfull
  refine sound_push hb.fifo hfull hb.empty (fun hne => ?_) h
  have hold := hb.full hne
  omega

theorem Sound.rest (hb : b.Sound capacity) {oldest : α} {rest : List α}
    (hbuffer : b.buffer = oldest :: rest) :
    b.popped ++ oldest :: rest = b.pushed ∧ rest.length < capacity ∧
      (b.emptyCond ≠ [] → rest.length + 1 ≤ b.emptyWoken.length) ∧
      (b.fullCond ≠ [] → capacity ≤ rest.length + 1 + b.fullWoken.length) := by
  obtain ⟨hfifo, hle, hempty, hfull⟩ := hb
  rw [hbuffer] at hfifo
  rw [hbuffer, List.length_cons] at hle hempty hfull
  exact ⟨hfifo, hle, hempty, hfull⟩

theorem Sound.pop (hb : b.Sound capacity) {oldest : α} {rest : List α}
    (hbuffer : b.buffer = oldest :: rest) {wake : ℕ} (h : b.pop oldest rest wake = some t) :
    t.Sound capacity := by
  obtain ⟨hfifo, hlt, hempty, hfull⟩ := hb.rest hbuffer
  exact sound_pop hfifo hlt (fun hne => Nat.le_of_succ_le (hempty hne)) hfull h

theorem Sound.of_full (hb : b.Sound capacity) (hfull : b.full capacity = true)
    (asleep woken : List (Waiter α)) :
    Sound capacity { b with fullCond := asleep, fullWoken := woken } :=
  ⟨hb.fifo, hb.le_capacity, hb.empty, fun _ => Nat.le_add_right_of_le (of_decide_eq_true hfull)⟩

theorem Sound.of_empty (hb : b.Sound capacity) (hempty : b.buffer = [])
    (asleep woken : List (Waiter Unit)) :
    Sound capacity { b with emptyCond := asleep, emptyWoken := woken } :=
  ⟨hb.fifo, hb.le_capacity, fun _ => hempty ▸ Nat.zero_le _, hb.full⟩

theorem ne_nil_of_eraseIdx {l : List β} {place : ℕ} (h : l.eraseIdx place ≠ []) : l ≠ [] := by
  rintro rfl
  exact h rfl

theorem Sound.checkPush (hb : b.Sound capacity) {asleep woken : List (Waiter α)}
    {pusher : Waiter α} {timedOut : Bool} {wake : ℕ}
    (hfull : asleep ≠ [] → capacity ≤ b.buffer.length + 1 + woken.length)
    (h : checkPush capacity { b with fullCond := asleep, fullWoken := woken } pusher timedOut wake =
      some t) : t.Sound capacity := by
  rw [BoundedBuffer.checkPush] at h
  split_ifs at h with htimed his hout
  · exact Option.some.inj h ▸ hb.of_full his _ _
  · exact Option.some.inj h ▸ hb.of_full his _ _
  · rw [BoundedBuffer.full, decide_eq_true_iff, Nat.not_le] at his
    exact sound_push (b := { b with fullCond := asleep, fullWoken := woken }) hb.fifo his hb.empty
      hfull h

theorem Sound.checkPop (hb : b.Sound capacity) {asleep woken : List (Waiter Unit)}
    {popper : Waiter Unit} {timedOut : Bool} {wake : ℕ}
    (hempty : asleep ≠ [] → b.buffer.length ≤ woken.length + 1)
    (h : checkPop { b with emptyCond := asleep, emptyWoken := woken } popper timedOut wake =
      some t) : t.Sound capacity := by
  by_cases htimed : (timedOut && !popper.timed) = true
  · rw [BoundedBuffer.checkPop, if_pos htimed] at h
    cases h
  rw [BoundedBuffer.checkPop, if_neg htimed] at h
  split at h
  · rename_i hbuffer
    obtain rfl := Option.some.inj h
    cases timedOut <;> exact hb.of_empty hbuffer _ _
  · rename_i oldest rest hbuffer
    obtain ⟨hfifo, hlt, -, hfull⟩ := hb.rest hbuffer
    refine sound_pop (b := { b with emptyCond := asleep, emptyWoken := woken }) hfifo hlt
      (fun hne => ?_) hfull h
    have hlength : b.buffer.length = rest.length + 1 := congrArg List.length hbuffer
    have hold := hempty hne
    dsimp only
    omega

theorem Sound.step (b : BoundedBuffer α) (a : BufferAction α) (t : BoundedBuffer α)
    (hb : b.Sound capacity) (h : b.step capacity a = some t) : t.Sound capacity := by
  cases a with
  | pushWithHaste elem wake =>
    rw [BoundedBuffer.step] at h
    split_ifs at h with hfull
    · exact Option.some.inj h ▸ hb
    · exact hb.push hfull h
  | pushWithPopOnFull elem wake =>
    rw [BoundedBuffer.step] at h
    split_ifs at h with hfull
    · split at h
      · cases h
      · rename_i oldest rest hbuffer
        obtain ⟨hfifo, hlt, hempty, hfull⟩ := hb.rest hbuffer
        refine sound_push (b := { b with buffer := rest, popped := b.popped ++ [oldest] }) ?_ hlt
          (fun hne => Nat.le_of_succ_le (hempty hne)) hfull h
        dsimp only
        rw [List.append_assoc, List.singleton_append, hfifo]
    · exact hb.push hfull h
  | pushWithWait pusher wake =>
    rw [BoundedBuffer.step] at h
    split_ifs at h with hfull
    · obtain rfl := Option.some.inj h
      exact hb.of_full hfull _ _
    · exact hb.push hfull h
  | popWithHaste wake =>
    rw [BoundedBuffer.step] at h
    split at h
    · exact Option.some.inj h ▸ hb
    · rename_i hbuffer
      exact hb.pop hbuffer h
  | popWithWait popper wake =>
    rw [BoundedBuffer.step] at h
    split at h
    · rename_i hbuffer
      obtain rfl := Option.some.inj h
      exact hb.of_empty hbuffer _ _
    · rename_i hbuffer
      exact hb.pop hbuffer h
  | popAll =>
    obtain rfl := Option.some.inj h
    exact ⟨(List.append_nil _).trans hb.fifo, Nat.zero_le _, fun _ => Nat.zero_le _,
      fun hne => absurd rfl hne⟩
  | checkPush woken timedOut place wake =>
    cases woken with
    | true =>
      obtain ⟨pusher, hplace, h⟩ := Option.bind_eq_some_iff.mp h
      refine hb.checkPush (fun hne => ?_) h
      have hlength := List.length_eraseIdx_add_one (List.getElem?_eq_some_iff.mp hplace).1
      have hold := hb.full hne
      omega
    | false =>
      obtain ⟨pusher, -, h⟩ := Option.bind_eq_some_iff.mp h
      refine hb.checkPush (fun hne => ?_) h
      have hold := hb.full (ne_nil_of_eraseIdx hne)
      omega
  | checkPop woken timedOut place wake =>
    cases woken with
    | true =>
      obtain ⟨popper, hplace, h⟩ := Option.bind_eq_some_iff.mp h
      refine hb.checkPop (fun hne => ?_) h
      rw [List.length_eraseIdx_add_one (List.getElem?_eq_some_iff.mp hplace).1]
      exact hb.empty hne
    | false =>
      obtain ⟨popper, -, h⟩ := Option.bind_eq_some_iff.mp h
      exact hb.checkPop (fun hne => Nat.le_succ_of_le (hb.empty (ne_nil_of_eraseIdx hne))) h

/-- **Whatever the threads do**, what was pushed comes out once and in order, no more is held than
the capacity, and unless a thread that was woken is still to come, those that sleep have a reason
to: the buffer is empty for those that pop, and full for those that push. -/
theorem fifo_of_run (actions : List (BufferAction α))
    (h : run (step capacity) {} actions = some b) :
    b.popped ++ b.buffer = b.pushed ∧ b.buffer.length ≤ capacity ∧
      (b.emptyCond ≠ [] → b.emptyWoken = [] → b.buffer = []) ∧
      (b.fullCond ≠ [] → b.fullWoken = [] → b.buffer.length = capacity) := by
  have hb : b.Sound capacity := run_invariant Sound.step
    ⟨rfl, Nat.zero_le _, fun hne => absurd rfl hne, fun hne => absurd rfl hne⟩ h
  refine ⟨hb.fifo, hb.le_capacity, fun hne hwoken => ?_, fun hne hwoken => ?_⟩
  · have hle := hb.empty hne
    rw [hwoken] at hle
    exact List.eq_nil_of_length_eq_zero (Nat.le_zero.mp hle)
  · have hle := hb.full hne
    rw [hwoken] at hle
    exact Nat.le_antisymm hb.le_capacity hle

/-- A thread waits to pop, one pushes, and one has to wait until there is room again. -/
theorem fifo_of_run_woken : ∃ b : BoundedBuffer ℕ,
    run (step 1) {}
        [.popWithWait ⟨(), true⟩ 0, .pushWithWait ⟨7, false⟩ 0, .pushWithWait ⟨8, true⟩ 0] =
          some b ∧ b.emptyWoken = [⟨(), true⟩] ∧
      b.popped ++ b.buffer = b.pushed ∧ b.buffer.length ≤ 1 ∧
      (b.emptyCond ≠ [] → b.emptyWoken = [] → b.buffer = []) ∧
      (b.fullCond ≠ [] → b.fullWoken = [] → b.buffer.length = 1) :=
  ⟨_, rfl, rfl, fifo_of_run
    [.popWithWait ⟨(), true⟩ 0, .pushWithWait ⟨7, false⟩ 0, .pushWithWait ⟨8, true⟩ 0] rfl⟩

end BoundedBuffer
end Transport
end UhdHost
