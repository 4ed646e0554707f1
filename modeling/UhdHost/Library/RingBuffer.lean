import Mathlib.Data.List.Range
import Mathlib.Data.Nat.ModEq
import Mathlib.Logic.Function.Basic

/-!
# Ring buffers

A fixed array with a read index, a write index and a count of the items that can be read, as
one finds it between one producer and one consumer.  `push` does not look at the count: it
overwrites the oldest item of a full ring.

`RingBuffer.items` is the list the ring stands for, oldest first.  As long as the ring is
`WellFormed` and not full when something is pushed, it is a first-in first-out queue:
`items_push`, `pop_eq_some` and `peek_eq_head?` are all a user of the ring needs.
-/

namespace UhdHost

variable {α : Type*}

/-- A ring buffer.  `count` is what a semaphore would count. -/
structure RingBuffer (α : Type*) where
  capacity : ℕ
  buffer : ℕ → α
  readIndex : ℕ := 0
  writeIndex : ℕ := 0
  count : ℕ := 0

namespace RingBuffer

/-- An empty ring, filled with a default value. -/
def empty (capacity : ℕ) (default : α) : RingBuffer α :=
  { capacity := capacity, buffer := fun _ => default }

/-- Write behind the newest item. -/
def push (r : RingBuffer α) (item : α) : RingBuffer α :=
  { r with
    buffer := Function.update r.buffer r.writeIndex item
    writeIndex := (r.writeIndex + 1) % r.capacity
    count := r.count + 1 }

/-- Read the oldest item and leave it. -/
def peek (r : RingBuffer α) : Option α := if r.count = 0 then none else some (r.buffer r.readIndex)

/-- Take the oldest item. -/
def pop (r : RingBuffer α) : Option (α × RingBuffer α) :=
  if r.count = 0 then none
  else some (r.buffer r.readIndex,
    { r with readIndex := (r.readIndex + 1) % r.capacity, count := r.count - 1 })

/-- The items, oldest first. -/
def items (r : RingBuffer α) : List α :=
  (List.range r.count).map fun i => r.buffer ((r.readIndex + i) % r.capacity)

/-- The indices belong together, and the ring is not overfull. -/
structure WellFormed (r : RingBuffer α) : Prop where
  readIndex_lt : r.readIndex < r.capacity
  writeIndex_eq : r.writeIndex = (r.readIndex + r.count) % r.capacity
  count_le : r.count ≤ r.capacity

@[simp] theorem length_items (r : RingBuffer α) : r.items.length = r.count := by
  rw [items, List.length_map, List.length_range]

@[simp] theorem items_empty (capacity : ℕ) (default : α) : (empty capacity default).items = [] :=
  rfl

@[simp] theorem capacity_empty (capacity : ℕ) (default : α) :
    (empty capacity default).capacity = capacity := rfl

@[simp] theorem capacity_push (r : RingBuffer α) (item : α) : (r.push item).capacity = r.capacity := rfl

theorem wellFormed_empty {capacity : ℕ} (h : 0 < capacity) (default : α) :
    (empty capacity default).WellFormed :=
  ⟨h, (Nat.zero_mod capacity).symm, Nat.zero_le _⟩

theorem items_eq_nil {r : RingBuffer α} : r.items = [] ↔ r.count = 0 := by
  rw [← List.length_eq_zero_iff, length_items]

/-! ## Pushing -/

theorem WellFormed.push {r : RingBuffer α} (h : r.WellFormed) (hlt : r.count < r.capacity) (item : α) :
    (r.push item).WellFormed where
  readIndex_lt := h.readIndex_lt
  writeIndex_eq := by
    show (r.writeIndex + 1) % r.capacity = (r.readIndex + (r.count + 1)) % r.capacity
    rw [h.writeIndex_eq, Nat.mod_add_mod, Nat.add_assoc]
  count_le := hlt

/-- A pushed item is the newest one.  The slot it is written to is none of those that are
read before, because the ring is not full. -/
theorem items_push {r : RingBuffer α} (h : r.WellFormed) (hlt : r.count < r.capacity) (item : α) :
    (r.push item).items = r.items ++ [item] := by
  have hold : ∀ i ∈ List.range r.count,
      (r.push item).buffer ((r.readIndex + i) % r.capacity) =
        r.buffer ((r.readIndex + i) % r.capacity) := by
    intro i hi
    have hi : i < r.count := List.mem_range.mp hi
    refine Function.update_of_ne (fun heq => ?_) ..
    rw [h.writeIndex_eq] at heq
    have hmod : i ≡ r.count [MOD r.capacity] := Nat.ModEq.add_left_cancel' r.readIndex heq
    exact hi.ne (hmod.eq_of_lt_of_lt (hi.trans hlt) hlt)
  show (List.range (r.count + 1)).map (fun i =>
    (r.push item).buffer ((r.readIndex + i) % r.capacity)) = _
  rw [List.range_succ, List.map_append, List.map_congr_left hold, List.map_singleton,
    ← h.writeIndex_eq, items]
  exact congrArg (fun x => _ ++ [x]) (Function.update_self ..)

/-! ## Popping -/

theorem pop_eq_none {r : RingBuffer α} : r.pop = none ↔ r.items = [] := by
  rw [pop, items_eq_nil]
  split_ifs with h <;> simp [h]

/-- What is popped is the oldest item, and the others remain. -/
theorem pop_eq_some {r r' : RingBuffer α} {item : α} (h : r.WellFormed) (hpop : r.pop = some (item, r')) :
    r.items = item :: r'.items ∧ r'.WellFormed ∧ r'.capacity = r.capacity := by
  rw [pop] at hpop
  split_ifs at hpop with hcount
  rw [Option.some_inj, Prod.mk.injEq] at hpop
  obtain ⟨rfl, rfl⟩ := hpop
  obtain ⟨n, hn⟩ := Nat.exists_eq_succ_of_ne_zero hcount
  have hcap : 0 < r.capacity := Nat.lt_of_le_of_lt (Nat.zero_le _) h.readIndex_lt
  refine ⟨?_, ⟨Nat.mod_lt _ hcap, ?_, ?_⟩, rfl⟩
  · show (List.range r.count).map _ = _ :: (List.range (r.count - 1)).map _
    rw [hn, Nat.succ_sub_one, List.range_succ_eq_map, List.map_cons, List.map_map,
      Nat.add_zero, Nat.mod_eq_of_lt h.readIndex_lt]
    refine congrArg (_ :: ·) (List.map_congr_left fun i _ => ?_)
    show r.buffer ((r.readIndex + (i + 1)) % r.capacity) =
      r.buffer (((r.readIndex + 1) % r.capacity + i) % r.capacity)
    rw [Nat.mod_add_mod, Nat.add_assoc, Nat.add_comm 1 i]
  · show r.writeIndex = ((r.readIndex + 1) % r.capacity + (r.count - 1)) % r.capacity
    rw [h.writeIndex_eq, Nat.mod_add_mod]
    congr 1
    omega
  · have := h.count_le
    show r.count - 1 ≤ r.capacity
    omega

theorem peek_eq_head? {r : RingBuffer α} (h : r.WellFormed) : r.peek = r.items.head? := by
  cases hpop : r.pop with
  | none =>
    rw [pop_eq_none.mp hpop]
    rw [peek, if_pos (items_eq_nil.mp (pop_eq_none.mp hpop))]
    rfl
  | some p =>
    obtain ⟨item, r'⟩ := p
    rw [(pop_eq_some h hpop).1, List.head?_cons]
    rw [pop] at hpop
    split_ifs at hpop with hcount
    rw [Option.some_inj, Prod.mk.injEq] at hpop
    rw [peek, if_neg hcount, hpop.1]

end RingBuffer
end UhdHost
