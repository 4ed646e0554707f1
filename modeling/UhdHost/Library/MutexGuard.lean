import Mathlib.Tactic.Common

/-!
# Computations under a mutex that is not recursive

A computation of one thread may lock a mutex for the time of a block, and a thread that locks a mutex
that it holds already waits forever: the computation is *blocked*.  It may also throw, and then the
block is left and the mutex is free again; a handler inside of the block still runs under the mutex.

* `Keeps x`: `x` neither locks nor unlocks.
* `Frees x`: started with a free mutex, `x` ends, and the mutex is free afterwards.

A block around what keeps the mutex frees it (`frees_lockGuard`), and what frees the mutex may be put in
a sequence (`Frees.bind`).  A block inside of a block never ends (`lockGuard_of_held`).
-/

namespace UhdHost
namespace MutexGuard

variable {ε σ α β : Type}

/-- Why a computation does not return. -/
inductive Stop (ε : Type) where
  | threw (e : ε)
  /-- It waits for a mutex that its own thread holds. -/
  | blocked
  deriving DecidableEq

/-- A state with a mutex, and whether the thread holds it. -/
structure Guarded (σ : Type) where
  held : Bool
  data : σ

/-- A computation of a thread. -/
abbrev GuardedM (ε σ α : Type) := EStateM (Stop ε) (Guarded σ) α

/-- A block with a `std::lock_guard`. -/
def lockGuard (x : GuardedM ε σ α) : GuardedM ε σ α := fun s =>
  if s.held then .error .blocked s
  else
    match x { s with held := true } with
    | .ok a t => .ok a { t with held := false }
    | .error (.threw e) t => .error (.threw e) { t with held := false }
    | .error .blocked t => .error .blocked t

/-- A `try` with one handler for all exceptions. -/
def catchAll (x : GuardedM ε σ α) (handler : ε → GuardedM ε σ α) : GuardedM ε σ α := fun s =>
  match x s with
  | .ok a t => .ok a t
  | .error (.threw e) t => handler e t
  | .error .blocked t => .error .blocked t

/-- The computation has ended and left the mutex so. -/
def Ended (held : Bool) : EStateM.Result (Stop ε) (Guarded σ) α → Prop
  | .ok _ t => t.held = held
  | .error (.threw _) t => t.held = held
  | .error .blocked _ => False

/-- The computation ends without touching the mutex, whether it is held or not. -/
def Keeps (x : GuardedM ε σ α) : Prop := ∀ s, Ended s.held (x s)

/-- The computation ends and leaves the mutex free, if it was. -/
def Frees (x : GuardedM ε σ α) : Prop := ∀ s, s.held = false → Ended false (x s)

theorem get_bind (f : Guarded σ → GuardedM ε σ α) (s : Guarded σ) : (get >>= f) s = f s s := rfl

theorem Keeps.frees {x : GuardedM ε σ α} (h : Keeps x) : Frees x := fun s hs => hs ▸ h s

theorem keeps_pure (a : α) : Keeps (pure a : GuardedM ε σ α) := fun _ => rfl

theorem keeps_throw (e : ε) : Keeps (throw (.threw e) : GuardedM ε σ α) := fun _ => rfl

theorem keeps_get : Keeps (get : GuardedM ε σ (Guarded σ)) := fun _ => rfl

theorem Keeps.bind {x : GuardedM ε σ α} {f : α → GuardedM ε σ β} (hx : Keeps x)
    (hf : ∀ a, Keeps (f a)) : Keeps (x >>= f) := by
  intro s
  have h := hx s
  change Ended s.held (EStateM.bind x f s)
  unfold EStateM.bind
  cases hr : x s with
  | ok a t =>
    rw [hr] at h
    exact (show t.held = s.held from h) ▸ hf a t
  | error e t =>
    rw [hr] at h
    cases e with
    | threw e => exact h
    | blocked => exact h

theorem Frees.bind {x : GuardedM ε σ α} {f : α → GuardedM ε σ β} (hx : Frees x)
    (hf : ∀ a, Frees (f a)) : Frees (x >>= f) := by
  intro s hs
  have h := hx s hs
  change Ended false (EStateM.bind x f s)
  unfold EStateM.bind
  cases hr : x s with
  | ok a t =>
    rw [hr] at h
    exact hf a t h
  | error e t =>
    rw [hr] at h
    cases e with
    | threw e => exact h
    | blocked => exact h

/-- **A block around what does not lock ends and frees the mutex.** -/
theorem frees_lockGuard {x : GuardedM ε σ α} (hx : Keeps x) : Frees (lockGuard x) := by
  intro s hs
  have h := hx { s with held := true }
  rw [lockGuard, if_neg (by simp [hs])]
  cases hr : x { s with held := true } with
  | ok a t => rfl
  | error e t =>
    cases e with
    | threw e => rfl
    | blocked =>
      rw [hr] at h
      exact h.elim

/-- **A block inside of a block never ends.** -/
theorem lockGuard_of_held (x : GuardedM ε σ α) {s : Guarded σ} (hs : s.held = true) :
    lockGuard x s = .error .blocked s := if_pos hs

end MutexGuard
end UhdHost
