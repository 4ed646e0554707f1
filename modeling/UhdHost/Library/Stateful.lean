import Mathlib.Tactic.Common

/-!
# Computations with a state and exceptions

Code that changes objects and may throw is a computation `EStateM ε σ α`: from a state it ends
normally with a value, or with an exception, and either way with a state.

* `Returns x s a t` says that `x` ends normally; `returns_bind` and its companions take a
  computation apart.
* `Within R x` says that `R` relates the states before and after `x` where `x` ends normally.  For a
  relation that is reflexive and transitive the rules `within_bind` and `within_forM` put together
  what is known of the parts.
* `forM_one` and its companions are about loops in which one turn does something.
* `Keeps I x` says that `I` holds after `x` if it does before, also where `x` throws, with rules for
  the parts.
* `zoom` runs a computation on a part of the state.
-/

namespace UhdHost
namespace Stateful

variable {ε σ τ α β : Type}

/-! ## Normal ends -/

/-- The computation ends normally, with this value in this state. -/
def Returns (x : EStateM ε σ α) (s : σ) (a : α) (t : σ) : Prop := x s = .ok a t

theorem returns_bind {x : EStateM ε σ α} {f : α → EStateM ε σ β} {s u : σ} {b : β} :
    Returns (x >>= f) s b u ↔ ∃ a t, Returns x s a t ∧ Returns (f a) t b u := by
  change EStateM.bind x f s = .ok b u ↔ _
  unfold EStateM.bind Returns
  cases hx : x s with
  | ok a t =>
    refine ⟨fun h => ⟨a, t, rfl, h⟩, ?_⟩
    rintro ⟨a', t', hxt, h⟩
    injection hxt with ha ht
    rw [ha, ht]
    exact h
  | error e t =>
    constructor
    · intro h
      exact absurd h (by simp)
    · rintro ⟨_, _, hxt, _⟩
      exact absurd hxt (by simp)

/-- A computation goes on where its first part ended normally. -/
theorem bind_of_ok {x : EStateM ε σ α} {s t : σ} {a : α} (h : x s = .ok a t)
    (f : α → EStateM ε σ β) : (x >>= f) s = f a t := by
  change EStateM.bind x f s = _
  rw [EStateM.bind, h]

/-- It ends where its first part threw. -/
theorem bind_of_error {x : EStateM ε σ α} {s t : σ} {e : ε} (h : x s = .error e t)
    (f : α → EStateM ε σ β) : (x >>= f) s = .error e t := by
  change EStateM.bind x f s = _
  rw [EStateM.bind, h]

/-- What is caught goes on where it was thrown: the state is not reset. -/
theorem tryCatch_of_error {x : EStateM ε σ α} {s t : σ} {e : ε} (h : x s = .error e t)
    (handle : ε → EStateM ε σ α) : tryCatch x handle s = handle e t := by
  change EStateM.tryCatch x handle s = _
  rw [EStateM.tryCatch, h]
  rfl

theorem tryCatch_of_ok {x : EStateM ε σ α} {s t : σ} {a : α} (h : x s = .ok a t)
    (handle : ε → EStateM ε σ α) : tryCatch x handle s = .ok a t := by
  change EStateM.tryCatch x handle s = _
  rw [EStateM.tryCatch, h]

theorem returns_pure {a b : α} {s t : σ} :
    Returns (pure a : EStateM ε σ α) s b t ↔ a = b ∧ s = t := by
  change EStateM.Result.ok a s = .ok b t ↔ _
  rw [EStateM.Result.ok.injEq]

theorem returns_get {s t u : σ} : Returns (get : EStateM ε σ σ) s u t ↔ s = u ∧ s = t := by
  change EStateM.Result.ok s s = .ok u t ↔ _
  rw [EStateM.Result.ok.injEq]

theorem returns_set {s t u : σ} {a : PUnit} :
    Returns (set u : EStateM ε σ PUnit) s a t ↔ u = t := by
  change EStateM.Result.ok PUnit.unit u = .ok a t ↔ _
  rw [EStateM.Result.ok.injEq, and_iff_right (Subsingleton.elim _ _)]

theorem returns_modify {f : σ → σ} {s t : σ} {a : PUnit} :
    Returns (modify f : EStateM ε σ PUnit) s a t ↔ f s = t := by
  change EStateM.Result.ok PUnit.unit (f s) = .ok a t ↔ _
  rw [EStateM.Result.ok.injEq, and_iff_right (Subsingleton.elim _ _)]

theorem returns_forM_cons {f : α → EStateM ε σ PUnit} {a : α} {as : List α} {s t : σ} {b : PUnit} :
    Returns (forM (a :: as) f) s b t ↔
      ∃ u, Returns (f a) s PUnit.unit u ∧ Returns (forM as f) u b t := by
  rw [List.forM_cons, returns_bind]
  exact ⟨fun ⟨_, u, ha, has⟩ => ⟨u, ha, has⟩, fun ⟨u, ha, has⟩ => ⟨PUnit.unit, u, ha, has⟩⟩

theorem not_returns_throw {e : ε} {s t : σ} {a : α} :
    ¬ Returns (throw e : EStateM ε σ α) s a t := fun h => nomatch h

/-- A computation that does not look at the state. -/
def orThrow : Except ε α → EStateM ε σ α
  | .ok a => pure a
  | .error e => throw e

theorem returns_orThrow {x : Except ε α} {s t : σ} {a : α} :
    Returns (orThrow x : EStateM ε σ α) s a t ↔ x = .ok a ∧ s = t := by
  cases x with
  | ok b =>
    rw [orThrow, returns_pure, Except.ok.injEq]
  | error e =>
    constructor
    · intro h
      exact (not_returns_throw h).elim
    · rintro ⟨h, -⟩
      exact absurd h (by simp)

/-- Do something under a condition only. -/
def onlyIf (c : Prop) [Decidable c] (x : EStateM ε σ PUnit) : EStateM ε σ PUnit :=
  if c then x else pure PUnit.unit

theorem returns_onlyIf {c : Prop} [Decidable c] {x : EStateM ε σ PUnit} {s t : σ} {a : PUnit} :
    Returns (onlyIf c x) s a t ↔ c ∧ Returns x s a t ∨ ¬ c ∧ s = t := by
  unfold onlyIf
  by_cases hc : c
  · simp [hc]
  · simp [hc, returns_pure]

/-- What can be seen of a normal end. -/
def outcome (x : EStateM ε σ α) (s : σ) (f : α → σ → β) : Option β :=
  match x s with
  | .ok a t => some (f a t)
  | .error _ _ => none

theorem outcome_eq_some {x : EStateM ε σ α} {s : σ} {f : α → σ → β} {b : β} :
    outcome x s f = some b ↔ ∃ a t, Returns x s a t ∧ f a t = b := by
  unfold outcome Returns
  cases hx : x s with
  | ok a t => simp
  | error e t => simp

/-- The state in which a computation ends, normally or with an exception. -/
def stateAfter : EStateM.Result ε σ α → σ
  | .ok _ t => t
  | .error _ t => t

/-- Whether a computation ends normally. -/
def isOk : EStateM.Result ε σ α → Bool
  | .ok _ _ => true
  | .error _ _ => false

theorem exists_error_of_isOk_eq_false {r : EStateM.Result ε σ α} (h : isOk r = false) :
    ∃ e, r = .error e (stateAfter r) := by
  cases r with
  | ok a t => exact absurd h (by simp [isOk])
  | error e t => exact ⟨e, rfl⟩

/-! ## What a computation does to its state -/

/-- Where the computation ends normally, the relation holds across it. -/
def Within (R : σ → σ → Prop) (x : EStateM ε σ α) : Prop := ∀ s a t, Returns x s a t → R s t

theorem within_throw (R : σ → σ → Prop) (e : ε) : Within R (throw e : EStateM ε σ α) :=
  fun _ _ _ h => (not_returns_throw h).elim

theorem within_modify {R : σ → σ → Prop} {f : σ → σ} (h : ∀ s, R s (f s)) :
    Within R (modify f : EStateM ε σ PUnit) :=
  fun s _ _ hf => returns_modify.mp hf ▸ h s

section Reflexive

variable {R : σ → σ → Prop} (hrefl : ∀ s, R s s)

include hrefl

theorem within_pure (a : α) : Within R (pure a : EStateM ε σ α) :=
  fun s _ _ h => (returns_pure.mp h).2 ▸ hrefl s

theorem within_get : Within R (get : EStateM ε σ σ) :=
  fun s _ _ h => (returns_get.mp h).2 ▸ hrefl s

theorem within_orThrow (x : Except ε α) : Within R (orThrow x : EStateM ε σ α) :=
  fun s _ _ h => (returns_orThrow.mp h).2 ▸ hrefl s

theorem within_onlyIf {c : Prop} [Decidable c] {x : EStateM ε σ PUnit} (hx : c → Within R x) :
    Within R (onlyIf c x) := by
  unfold onlyIf
  split_ifs with hc
  · exact hx hc
  · exact within_pure hrefl PUnit.unit

variable (htrans : ∀ s t u, R s t → R t u → R s u)

include htrans

omit hrefl in
theorem within_bind {x : EStateM ε σ α} {f : α → EStateM ε σ β} (hx : Within R x)
    (hf : ∀ a, Within R (f a)) : Within R (x >>= f) := by
  intro s b u h
  obtain ⟨a, t, hxt, hft⟩ := returns_bind.mp h
  exact htrans s t u (hx s a t hxt) (hf a t b u hft)

theorem within_forM {f : α → EStateM ε σ PUnit} (as : List α) (hf : ∀ a ∈ as, Within R (f a)) :
    Within R (forM as f) := by
  induction as with
  | nil => exact within_pure hrefl PUnit.unit
  | cons a as ih =>
    rw [List.forM_cons]
    exact within_bind htrans (hf a List.mem_cons_self)
      fun _ => ih fun b hb => hf b (List.mem_cons_of_mem a hb)

end Reflexive

/-! ## Loops in which one turn does something -/

section OneTurn

variable {f : α → EStateM ε σ PUnit} {s t : σ} {e : ε} {a : α} {before after : List α}

/-- A loop whose turns do nothing does nothing. -/
theorem forM_none {as : List α} (h : ∀ a ∈ as, f a s = .ok PUnit.unit s) :
    forM as f s = .ok PUnit.unit s := by
  induction as with
  | nil => rfl
  | cons a as ih =>
    rw [List.forM_cons, bind_of_ok (h a List.mem_cons_self)]
    exact ih fun b hb => h b (List.mem_cons_of_mem a hb)

/-- Turns that do nothing are left out. -/
theorem forM_skip (h : ∀ a ∈ before, f a s = .ok PUnit.unit s) :
    forM (before ++ after) f s = forM after f s := by
  induction before with
  | nil => rfl
  | cons a before ih =>
    rw [List.cons_append, List.forM_cons, bind_of_ok (h a List.mem_cons_self)]
    exact ih fun b hb => h b (List.mem_cons_of_mem a hb)

/-- A loop in which one turn does something. -/
theorem forM_one (hbefore : ∀ a ∈ before, f a s = .ok PUnit.unit s)
    (ha : f a s = .ok PUnit.unit t) (hafter : ∀ a ∈ after, f a t = .ok PUnit.unit t) :
    forM (before ++ a :: after) f s = .ok PUnit.unit t := by
  rw [forM_skip hbefore, List.forM_cons, bind_of_ok ha]
  exact forM_none hafter

/-- A loop in which one turn throws. -/
theorem forM_one_error (hbefore : ∀ a ∈ before, f a s = .ok PUnit.unit s)
    (ha : f a s = .error e t) : forM (before ++ a :: after) f s = .error e t := by
  rw [forM_skip hbefore, List.forM_cons, bind_of_error ha]

end OneTurn

/-! ## What a computation keeps -/

/-- What holds before the computation holds after it, whether it ends normally or not. -/
def Keeps (I : σ → Prop) (x : EStateM ε σ α) : Prop := ∀ s, I s → I (stateAfter (x s))

section Keeps

variable {I : σ → Prop} {c : Prop} [Decidable c]

theorem Keeps.of_returns {x : EStateM ε σ α} {s t : σ} {a : α} (hx : Keeps I x) (hs : I s)
    (h : Returns x s a t) : I t := by
  have hkept := hx s hs
  rw [h] at hkept
  exact hkept

theorem keeps_pure (I : σ → Prop) (a : α) : Keeps I (pure a : EStateM ε σ α) := fun _ hs => hs

theorem keeps_throw (I : σ → Prop) (e : ε) : Keeps I (throw e : EStateM ε σ α) := fun _ hs => hs

theorem keeps_get (I : σ → Prop) : Keeps I (get : EStateM ε σ σ) := fun _ hs => hs

theorem keeps_modify {f : σ → σ} (h : ∀ s, I s → I (f s)) :
    Keeps I (modify f : EStateM ε σ PUnit) := h

theorem keeps_orThrow (I : σ → Prop) (x : Except ε α) : Keeps I (orThrow x : EStateM ε σ α) := by
  cases x with
  | ok a => exact keeps_pure I a
  | error e => exact keeps_throw I e

theorem keeps_onlyIf {x : EStateM ε σ PUnit} (hx : c → Keeps I x) : Keeps I (onlyIf c x) := by
  unfold onlyIf
  split_ifs with hc
  · exact hx hc
  · exact keeps_pure I PUnit.unit

theorem keeps_bind {x : EStateM ε σ α} {f : α → EStateM ε σ β} (hx : Keeps I x)
    (hf : ∀ a, Keeps I (f a)) : Keeps I (x >>= f) := by
  intro s hs
  have hkept := hx s hs
  cases h : x s with
  | ok a t =>
    rw [h] at hkept
    rw [bind_of_ok h]
    exact hf a t hkept
  | error e t =>
    rw [h] at hkept
    rw [bind_of_error h]
    exact hkept

end Keeps

/-! ## Parts of the state -/

/-- Run a computation on a part of the state.  What it did to the part stays when it throws. -/
def zoom (part : σ → τ) (put : τ → σ → σ) (x : EStateM ε τ α) : EStateM ε σ α := fun s =>
  match x (part s) with
  | .ok a t => .ok a (put t s)
  | .error e t => .error e (put t s)

theorem returns_zoom {part : σ → τ} {put : τ → σ → σ} {x : EStateM ε τ α} {s u : σ} {a : α} :
    Returns (zoom part put x) s a u ↔ ∃ t, Returns x (part s) a t ∧ put t s = u := by
  unfold Returns zoom
  cases hx : x (part s) with
  | ok b t =>
    constructor
    · intro h
      injection h with hb hu
      exact ⟨t, by rw [hb], hu⟩
    · rintro ⟨t', ht, hu⟩
      injection ht with hb ht
      rw [hb, ht, ← hu]
  | error e t =>
    constructor
    · intro h
      exact absurd h (by simp)
    · rintro ⟨_, ht, _⟩
      exact absurd ht (by simp)

end Stateful
end UhdHost
