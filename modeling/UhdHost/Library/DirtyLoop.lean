import Mathlib.Algebra.GroupWithZero.Nat
import Mathlib.Data.Fintype.Card
import Mathlib.Tactic.Common

/-!
# Resolving what is dirty

A component has properties, and *resolvers* that restore what is to hold between them.  A resolver
is run when one of its inputs is dirty, and may write its outputs; what it makes dirty is put at the
end of a list and gets its turn, unless it had it.  What was written once is locked for the
resolvers that follow: they see that, and may fail.

* `process` runs the resolvers of a property in turn (`process_only`: where there is one),
  `resolveLoop` goes through the list.
* `resolveLoop_ne_none`: with enough fuel the list comes to its end.
* `resolveLoop_keeps`, `resolveLoop_reaches` and `resolveLoop_confined` are the rules for a loop
  that ends without a failure: what all resolvers keep is kept; what a resolver establishes of a
  property that has its turn, and all others keep, holds in the end; and where only some properties
  get dirty, only their resolvers matter.
* `resolveLoop_succeeds` is the rule for a loop that has to end so, `resolveLoop_fails` the one for
  what a failure leaves.
-/

namespace UhdHost
namespace DirtyLoop

variable {P σ ε : Type*} [DecidableEq P]

/-- A resolver: its inputs, its outputs, and what it does, where some properties are locked. -/
structure Resolver (P σ ε : Type*) where
  inputs : List P
  outputs : List P
  run : (P → Bool) → σ → Except ε σ

/-- What the resolvers of a property come to: what they add to the list, what is written by then,
and the state. -/
structure Pass (P σ : Type*) where
  added : List P
  written : List P
  state : σ

/-- Run the resolvers that take the property as an input. -/
def process (dirty : σ → P → Bool) (processed : List P) (current : P) :
    List (Resolver P σ ε) → List P → List P → σ → Except ε (Pass P σ)
  | [], added, written, s => .ok ⟨added, written, s⟩
  | r :: rs, added, written, s =>
    if current ∈ r.inputs then
      (r.run (fun p => decide (p ∈ written)) s).bind fun t =>
        process dirty processed current rs
          (added ++ r.outputs.filter fun p => dirty t p && decide (p ∉ processed))
          (written ++ r.outputs) t
    else process dirty processed current rs added written s

/-- Go through the list; `none` when the fuel does not suffice. -/
def resolveLoop (dirty : σ → P → Bool) (rs : List (Resolver P σ ε)) :
    ℕ → List P → List P → List P → σ → Option (Except ε σ)
  | _, [], _, _, s => some (.ok s)
  | 0, _ :: _, _, _, _ => none
  | fuel + 1, p :: todo, processed, written, s =>
    if p ∈ processed then resolveLoop dirty rs fuel todo processed written s
    else
      match process dirty processed p rs [] written s with
      | .error e => some (.error e)
      | .ok pass =>
        resolveLoop dirty rs fuel (todo ++ pass.added) (processed ++ [p]) pass.written pass.state

/-! ## One property -/

section Process

variable {dirty : σ → P → Bool} {processed : List P} {p : P} {rs : List (Resolver P σ ε)}
  {added written : List P} {s : σ} {pass : Pass P σ}

/-- A resolver of something else is not run. -/
theorem process_skip {r : Resolver P σ ε} (hp : p ∉ r.inputs) :
    process dirty processed p (r :: rs) added written s
      = process dirty processed p rs added written s := by
  rw [process, if_neg hp]

/-- Where no resolver is one of the property, nothing happens. -/
theorem process_of_forall (h : ∀ r ∈ rs, p ∉ r.inputs) :
    process dirty processed p rs added written s = .ok ⟨added, written, s⟩ := by
  induction rs with
  | nil => rfl
  | cons r rs ih =>
    rw [process_skip (h r List.mem_cons_self)]
    exact ih fun r hr => h r (List.mem_cons_of_mem _ hr)

/-- A resolver of the property is run. -/
theorem process_run_eq_ok {r : Resolver P σ ε} (hp : p ∈ r.inputs) :
    process dirty processed p (r :: rs) added written s = .ok pass ↔
      ∃ t, r.run (fun q => decide (q ∈ written)) s = .ok t ∧
        process dirty processed p rs
          (added ++ r.outputs.filter fun q => dirty t q && decide (q ∉ processed))
          (written ++ r.outputs) t = .ok pass := by
  rw [process, if_pos hp]
  cases r.run (fun q => decide (q ∈ written)) s with
  | error e =>
    constructor
    · intro h
      cases h
    · rintro ⟨t, ht, -⟩
      cases ht
  | ok t =>
    constructor
    · intro h
      exact ⟨t, rfl, h⟩
    · rintro ⟨t', ht', h⟩
      rw [Except.ok.inj ht']
      exact h

/-- What the resolvers of the property keep is kept. -/
theorem process_keeps {J : σ → Prop}
    (hJ : ∀ r ∈ rs, p ∈ r.inputs → ∀ locked s t, J s → r.run locked s = .ok t → J t)
    (hs : J s) (h : process dirty processed p rs added written s = .ok pass) : J pass.state := by
  induction rs generalizing added written s with
  | nil =>
    rw [process] at h
    rw [← Except.ok.inj h]
    exact hs
  | cons r rs ih =>
    have hrest : ∀ r ∈ rs, p ∈ r.inputs → ∀ locked s t, J s → r.run locked s = .ok t → J t :=
      fun r hr => hJ r (List.mem_cons_of_mem _ hr)
    by_cases hp : p ∈ r.inputs
    · obtain ⟨t, hrun, h⟩ := (process_run_eq_ok hp).mp h
      exact ih hrest (hJ r List.mem_cons_self hp _ s t hs hrun) h
    · rw [process_skip hp] at h
      exact ih hrest hs h

/-- What one of the resolvers of the property establishes, and the others keep, holds after them. -/
theorem process_reaches {J K : σ → Prop}
    (hJ : ∀ r ∈ rs, ∀ locked s t, J s → r.run locked s = .ok t → J t)
    (hK : ∀ r ∈ rs, ∀ locked s t, J s → K s → r.run locked s = .ok t → K t)
    (hreach : ∃ r ∈ rs, p ∈ r.inputs ∧ ∀ locked s t, J s → r.run locked s = .ok t → K t)
    (hs : J s) (h : process dirty processed p rs added written s = .ok pass) : K pass.state := by
  induction rs generalizing added written s with
  | nil =>
    obtain ⟨r, hr, -⟩ := hreach
    exact absurd hr List.not_mem_nil
  | cons r rs ih =>
    have hJrest : ∀ r ∈ rs, ∀ locked s t, J s → r.run locked s = .ok t → J t :=
      fun r hr => hJ r (List.mem_cons_of_mem _ hr)
    have hKrest : ∀ r ∈ rs, ∀ locked s t, J s → K s → r.run locked s = .ok t → K t :=
      fun r hr => hK r (List.mem_cons_of_mem _ hr)
    obtain ⟨r', hr', hp', hreach⟩ := hreach
    rcases List.mem_cons.mp hr' with rfl | hr'
    · obtain ⟨t, hrun, h⟩ := (process_run_eq_ok hp').mp h
      have hboth : J pass.state ∧ K pass.state :=
        process_keeps (J := fun u => J u ∧ K u)
          (fun r hr _ locked u v hu hv => ⟨hJrest r hr locked u v hu.1 hv,
            hKrest r hr locked u v hu.1 hu.2 hv⟩)
          ⟨hJ r' List.mem_cons_self _ s t hs hrun, hreach _ s t hs hrun⟩ h
      exact hboth.2
    · by_cases hp : p ∈ r.inputs
      · obtain ⟨t, hrun, h⟩ := (process_run_eq_ok hp).mp h
        exact ih hJrest hKrest ⟨r', hr', hp', hreach⟩
          (hJ r List.mem_cons_self _ s t hs hrun) h
      · rw [process_skip hp] at h
        exact ih hJrest hKrest ⟨r', hr', hp', hreach⟩ hs h

/-- Where the resolvers of the property make only some properties dirty, only those are added. -/
theorem process_confined {J : σ → Prop} {allowed : P → Prop}
    (hJ : ∀ r ∈ rs, p ∈ r.inputs → ∀ locked s t, J s → r.run locked s = .ok t →
      J t ∧ ∀ q ∈ r.outputs, dirty t q = true → allowed q)
    (hs : J s) (hadded : ∀ q ∈ added, allowed q)
    (h : process dirty processed p rs added written s = .ok pass) :
    J pass.state ∧ ∀ q ∈ pass.added, allowed q := by
  induction rs generalizing added written s with
  | nil =>
    rw [process] at h
    rw [← Except.ok.inj h]
    exact ⟨hs, hadded⟩
  | cons r rs ih =>
    have hrest : ∀ r ∈ rs, p ∈ r.inputs → ∀ locked s t, J s → r.run locked s = .ok t →
        J t ∧ ∀ q ∈ r.outputs, dirty t q = true → allowed q :=
      fun r hr => hJ r (List.mem_cons_of_mem _ hr)
    by_cases hp : p ∈ r.inputs
    · obtain ⟨t, hrun, h⟩ := (process_run_eq_ok hp).mp h
      obtain ⟨ht, hallowed⟩ := hJ r List.mem_cons_self hp _ s t hs hrun
      refine ih hrest ht (fun q hq => ?_) h
      rcases List.mem_append.mp hq with hq | hq
      · exact hadded q hq
      · obtain ⟨hout, hdirty⟩ := List.mem_filter.mp hq
        rw [Bool.and_eq_true] at hdirty
        exact hallowed q hout hdirty.1
    · rw [process_skip hp] at h
      exact ih hrest hs hadded h

/-- Where one resolver only is run for the property, it is all that is run, and what it makes dirty
is all that is added. -/
theorem process_only_eq (before : List (Resolver P σ ε)) (r : Resolver P σ ε)
    {after : List (Resolver P σ ε)} (hp : p ∈ r.inputs)
    (hbefore : ∀ q ∈ before, p ∉ q.inputs) (hafter : ∀ q ∈ after, p ∉ q.inputs)
    (h : process dirty processed p (before ++ r :: after) added written s = .ok pass) :
    r.run (fun q => decide (q ∈ written)) s = .ok pass.state ∧ pass.added
      = added ++ r.outputs.filter fun q => dirty pass.state q && decide (q ∉ processed) := by
  induction before with
  | nil =>
    obtain ⟨t, hrun, h⟩ := (process_run_eq_ok hp).mp h
    rw [process_of_forall hafter] at h
    rw [← Except.ok.inj h]
    exact ⟨hrun, rfl⟩
  | cons q before ih =>
    rw [List.cons_append, process_skip (hbefore q List.mem_cons_self)] at h
    exact ih (fun q hq => hbefore q (List.mem_cons_of_mem _ hq)) h

/-- In particular all that it makes dirty is added. -/
theorem process_only (before : List (Resolver P σ ε)) (r : Resolver P σ ε)
    {after : List (Resolver P σ ε)} (hp : p ∈ r.inputs)
    (hbefore : ∀ q ∈ before, p ∉ q.inputs) (hafter : ∀ q ∈ after, p ∉ q.inputs)
    (h : process dirty processed p (before ++ r :: after) added written s = .ok pass) :
    r.run (fun q => decide (q ∈ written)) s = .ok pass.state ∧
      ∀ q ∈ r.outputs, dirty pass.state q = true → q ∉ processed → q ∈ pass.added := by
  obtain ⟨hrun, hadded⟩ := process_only_eq before r hp hbefore hafter h
  refine ⟨hrun, fun q hq hdirty hnot => ?_⟩
  rw [hadded]
  refine List.mem_append_right _ (List.mem_filter.mpr ⟨hq, ?_⟩)
  rw [hdirty, Bool.true_and]
  exact decide_eq_true hnot

/-- No more is added than there are outputs. -/
theorem length_added_le (h : process dirty processed p rs added written s = .ok pass) :
    pass.added.length ≤ added.length + (rs.map fun r => r.outputs.length).sum := by
  induction rs generalizing added written s with
  | nil =>
    rw [process] at h
    rw [← Except.ok.inj h]
    exact Nat.le_add_right _ _
  | cons r rs ih =>
    rw [List.map_cons, List.sum_cons]
    by_cases hp : p ∈ r.inputs
    · obtain ⟨t, -, h⟩ := (process_run_eq_ok hp).mp h
      have hlength := ih h
      rw [List.length_append] at hlength
      have hfilter := List.length_filter_le
        (fun q => dirty t q && decide (q ∉ processed)) r.outputs
      omega
    · rw [process_skip hp] at h
      have hlength := ih h
      omega

/-- The outputs of the resolvers of the property are written by then, and what was before. -/
theorem process_written (h : process dirty processed p rs added written s = .ok pass) :
    (∀ q ∈ written, q ∈ pass.written) ∧
      ∀ r ∈ rs, p ∈ r.inputs → ∀ q ∈ r.outputs, q ∈ pass.written := by
  induction rs generalizing added written s with
  | nil =>
    rw [process] at h
    rw [← Except.ok.inj h]
    exact ⟨fun q hq => hq, fun r hr => absurd hr List.not_mem_nil⟩
  | cons r rs ih =>
    by_cases hp : p ∈ r.inputs
    · obtain ⟨t, -, h⟩ := (process_run_eq_ok hp).mp h
      obtain ⟨hbefore, hrest⟩ := ih h
      refine ⟨fun q hq => hbefore q (List.mem_append_left _ hq), fun r' hr' hp' q hq => ?_⟩
      rcases List.mem_cons.mp hr' with rfl | hr'
      · exact hbefore q (List.mem_append_right _ hq)
      · exact hrest r' hr' hp' q hq
    · rw [process_skip hp] at h
      obtain ⟨hbefore, hrest⟩ := ih h
      refine ⟨hbefore, fun r' hr' hp' q hq => ?_⟩
      rcases List.mem_cons.mp hr' with rfl | hr'
      · exact absurd hp' hp
      · exact hrest r' hr' hp' q hq

/-- **Where no resolver of the property fails**, what they keep, with what is written by then, holds
after them. -/
theorem process_succeeds {J : List P → σ → Prop}
    (hJ : ∀ r ∈ rs, p ∈ r.inputs → ∀ written s, J written s →
      ∃ t, r.run (fun q => decide (q ∈ written)) s = .ok t ∧ J (written ++ r.outputs) t)
    (hs : J written s) :
    ∃ pass, process dirty processed p rs added written s = .ok pass ∧ J pass.written pass.state := by
  induction rs generalizing added written s with
  | nil => exact ⟨⟨added, written, s⟩, rfl, hs⟩
  | cons r rs ih =>
    have hrest : ∀ r ∈ rs, p ∈ r.inputs → ∀ written s, J written s →
        ∃ t, r.run (fun q => decide (q ∈ written)) s = .ok t ∧ J (written ++ r.outputs) t :=
      fun r hr => hJ r (List.mem_cons_of_mem _ hr)
    by_cases hp : p ∈ r.inputs
    · obtain ⟨t, hrun, ht⟩ := hJ r List.mem_cons_self hp written s hs
      obtain ⟨pass, hpass, hkept⟩ := ih hrest ht
      exact ⟨pass, (process_run_eq_ok hp).mpr ⟨t, hrun, hpass⟩, hkept⟩
    · obtain ⟨pass, hpass, hkept⟩ := ih hrest hs
      exact ⟨pass, (process_skip hp).trans hpass, hkept⟩

/-- **How the resolvers of the property fail.** -/
theorem process_fails {J : σ → Prop} {E : ε → Prop}
    (hJ : ∀ r ∈ rs, ∀ locked s t, J s → r.run locked s = .ok t → J t)
    (hE : ∀ r ∈ rs, ∀ locked s e, J s → r.run locked s = .error e → E e) (hs : J s) {e : ε}
    (h : process dirty processed p rs added written s = .error e) : E e := by
  induction rs generalizing added written s with
  | nil => cases h
  | cons r rs ih =>
    have hJrest : ∀ r ∈ rs, ∀ locked s t, J s → r.run locked s = .ok t → J t :=
      fun r hr => hJ r (List.mem_cons_of_mem _ hr)
    have hErest : ∀ r ∈ rs, ∀ locked s e, J s → r.run locked s = .error e → E e :=
      fun r hr => hE r (List.mem_cons_of_mem _ hr)
    by_cases hp : p ∈ r.inputs
    · rw [process, if_pos hp] at h
      cases hrun : r.run (fun q => decide (q ∈ written)) s with
      | error e' =>
        rw [hrun] at h
        rw [← Except.error.inj h]
        exact hE r List.mem_cons_self _ s e' hs hrun
      | ok t =>
        rw [hrun] at h
        exact ih hJrest hErest (hJ r List.mem_cons_self _ s t hs hrun) h
    · rw [process_skip hp] at h
      exact ih hJrest hErest hs h

end Process

/-! ## The loop -/

section Loop

variable {dirty : σ → P → Bool} {rs : List (Resolver P σ ε)} {fuel : ℕ}
  {todo processed written : List P} {s t : σ}

theorem resolveLoop_skip {p : P} (hp : p ∈ processed) :
    resolveLoop dirty rs (fuel + 1) (p :: todo) processed written s
      = resolveLoop dirty rs fuel todo processed written s := by
  rw [resolveLoop, if_pos hp]

/-- A property that has not had its turn is processed. -/
theorem resolveLoop_process_eq_ok {p : P} (hp : p ∉ processed) :
    resolveLoop dirty rs (fuel + 1) (p :: todo) processed written s = some (.ok t) ↔
      ∃ pass, process dirty processed p rs [] written s = .ok pass ∧
        resolveLoop dirty rs fuel (todo ++ pass.added) (processed ++ [p]) pass.written pass.state
          = some (.ok t) := by
  rw [resolveLoop, if_neg hp]
  cases process dirty processed p rs [] written s with
  | error e =>
    constructor
    · intro h
      cases Option.some.inj h
    · rintro ⟨pass, hpass, -⟩
      cases hpass
  | ok pass =>
    constructor
    · intro h
      exact ⟨pass, rfl, h⟩
    · rintro ⟨pass', hpass', h⟩
      rw [Except.ok.inj hpass']
      exact h

/-- **What all resolvers keep** is kept by the loop. -/
theorem resolveLoop_keeps {J : σ → Prop}
    (hJ : ∀ r ∈ rs, ∀ locked s t, J s → r.run locked s = .ok t → J t) (hs : J s)
    (h : resolveLoop dirty rs fuel todo processed written s = some (.ok t)) : J t := by
  induction fuel generalizing todo processed written s with
  | zero =>
    cases todo with
    | nil =>
      rw [resolveLoop, Option.some_inj] at h
      rw [← Except.ok.inj h]
      exact hs
    | cons p todo => cases h
  | succ fuel ih =>
    cases todo with
    | nil =>
      rw [resolveLoop, Option.some_inj] at h
      rw [← Except.ok.inj h]
      exact hs
    | cons p todo =>
      by_cases hp : p ∈ processed
      · rw [resolveLoop_skip hp] at h
        exact ih hs h
      · obtain ⟨pass, hpass, h⟩ := (resolveLoop_process_eq_ok hp).mp h
        exact ih (process_keeps (fun r hr _ => hJ r hr) hs hpass) h

/-- **What one resolver establishes**, and all keep, holds after the loop, where a property it is
run for is in the list and has not had its turn. -/
theorem resolveLoop_reaches {J K : σ → Prop} {p : P}
    (hJ : ∀ r ∈ rs, ∀ locked s t, J s → r.run locked s = .ok t → J t)
    (hK : ∀ r ∈ rs, ∀ locked s t, J s → K s → r.run locked s = .ok t → K t)
    (hreach : ∃ r ∈ rs, p ∈ r.inputs ∧ ∀ locked s t, J s → r.run locked s = .ok t → K t)
    (hs : J s) (hmem : p ∈ todo) (hnot : p ∉ processed)
    (h : resolveLoop dirty rs fuel todo processed written s = some (.ok t)) : K t := by
  induction fuel generalizing todo processed written s with
  | zero =>
    cases todo with
    | nil => exact absurd hmem List.not_mem_nil
    | cons q todo => cases h
  | succ fuel ih =>
    cases todo with
    | nil => exact absurd hmem List.not_mem_nil
    | cons q todo =>
      by_cases hq : q ∈ processed
      · rw [resolveLoop_skip hq] at h
        have hne : p ≠ q := fun heq => hnot (heq ▸ hq)
        exact ih hs ((List.mem_cons.mp hmem).resolve_left hne) hnot h
      · obtain ⟨pass, hpass, h⟩ := (resolveLoop_process_eq_ok hq).mp h
        have hstate := process_keeps (fun r hr _ => hJ r hr) hs hpass
        by_cases heq : p = q
        · subst heq
          have hboth : J t ∧ K t := resolveLoop_keeps (J := fun u => J u ∧ K u)
            (fun r hr locked u v hu hv => ⟨hJ r hr locked u v hu.1 hv,
              hK r hr locked u v hu.1 hu.2 hv⟩)
            ⟨hstate, process_reaches hJ hK hreach hs hpass⟩ h
          exact hboth.2
        · refine ih hstate (List.mem_append_left _ ((List.mem_cons.mp hmem).resolve_left heq))
            (fun hcons => ?_) h
          rcases List.mem_append.mp hcons with hcons | hcons
          · exact hnot hcons
          · exact heq (List.mem_singleton.mp hcons)

/-- **Where only some properties get dirty**, what their resolvers keep is kept. -/
theorem resolveLoop_confined {J : σ → Prop} (allowed : P → Prop)
    (hJ : ∀ r ∈ rs, ∀ p ∈ r.inputs, allowed p → ∀ locked s t, J s → r.run locked s = .ok t →
      J t ∧ ∀ q ∈ r.outputs, dirty t q = true → allowed q)
    (hs : J s) (htodo : ∀ p ∈ todo, allowed p)
    (h : resolveLoop dirty rs fuel todo processed written s = some (.ok t)) : J t := by
  induction fuel generalizing todo processed written s with
  | zero =>
    cases todo with
    | nil =>
      rw [resolveLoop, Option.some_inj] at h
      rw [← Except.ok.inj h]
      exact hs
    | cons p todo => cases h
  | succ fuel ih =>
    cases todo with
    | nil =>
      rw [resolveLoop, Option.some_inj] at h
      rw [← Except.ok.inj h]
      exact hs
    | cons p todo =>
      have htail : ∀ q ∈ todo, allowed q := fun q hq => htodo q (List.mem_cons_of_mem p hq)
      by_cases hp : p ∈ processed
      · rw [resolveLoop_skip hp] at h
        exact ih hs htail h
      · obtain ⟨pass, hpass, h⟩ := (resolveLoop_process_eq_ok hp).mp h
        obtain ⟨hstate, hadded⟩ := process_confined
          (fun r hr hin => hJ r hr p hin (htodo p List.mem_cons_self)) hs
          (fun q hq => absurd hq List.not_mem_nil) hpass
        refine ih hstate (fun q hq => ?_) h
        rcases List.mem_append.mp hq with hq | hq
        · exact htail q hq
        · exact hadded q hq

/-- **Where no resolver fails**, the loop does not, and what all keep, with what is written by then,
holds in the end. -/
theorem resolveLoop_succeeds {J : List P → σ → Prop} {result : Except ε σ}
    (hJ : ∀ r ∈ rs, ∀ written s, J written s →
      ∃ t, r.run (fun q => decide (q ∈ written)) s = .ok t ∧ J (written ++ r.outputs) t)
    (hs : J written s)
    (h : resolveLoop dirty rs fuel todo processed written s = some result) :
    ∃ t written', result = .ok t ∧ J written' t := by
  induction fuel generalizing todo processed written s with
  | zero =>
    cases todo with
    | nil =>
      rw [resolveLoop, Option.some_inj] at h
      exact ⟨s, written, h.symm, hs⟩
    | cons p todo => cases h
  | succ fuel ih =>
    cases todo with
    | nil =>
      rw [resolveLoop, Option.some_inj] at h
      exact ⟨s, written, h.symm, hs⟩
    | cons p todo =>
      by_cases hp : p ∈ processed
      · rw [resolveLoop_skip hp] at h
        exact ih hs h
      · obtain ⟨pass, hpass, hkept⟩ := @process_succeeds _ _ _ _ dirty processed p _ [] _ _ _
          (fun r hr _ => hJ r hr) hs
        rw [resolveLoop, if_neg hp, hpass] at h
        exact ih hkept h

/-- **How the loop fails.** -/
theorem resolveLoop_fails {J : σ → Prop} {E : ε → Prop}
    (hJ : ∀ r ∈ rs, ∀ locked s t, J s → r.run locked s = .ok t → J t)
    (hE : ∀ r ∈ rs, ∀ locked s e, J s → r.run locked s = .error e → E e) (hs : J s) {e : ε}
    (h : resolveLoop dirty rs fuel todo processed written s = some (.error e)) : E e := by
  induction fuel generalizing todo processed written s with
  | zero =>
    cases todo with
    | nil => cases Option.some.inj h
    | cons p todo => cases h
  | succ fuel ih =>
    cases todo with
    | nil => cases Option.some.inj h
    | cons p todo =>
      by_cases hp : p ∈ processed
      · rw [resolveLoop_skip hp] at h
        exact ih hs h
      · rw [resolveLoop, if_neg hp] at h
        cases hpass : process dirty processed p rs [] written s with
        | error e' =>
          rw [hpass] at h
          rw [← Except.error.inj (Option.some.inj h)]
          exact process_fails hJ hE hs hpass
        | ok pass =>
          rw [hpass] at h
          exact ih (process_keeps (fun r hr _ => hJ r hr) hs hpass) h

/-- **The loop ends.**  Each property has one turn, in which no more is added than there are
outputs. -/
theorem resolveLoop_ne_none [Fintype P] (hnodup : processed.Nodup)
    (hfuel : todo.length + (Fintype.card P - processed.length)
      * ((rs.map fun r => r.outputs.length).sum + 1) ≤ fuel) :
    resolveLoop dirty rs fuel todo processed written s ≠ none := by
  induction fuel generalizing todo processed written s with
  | zero =>
    cases todo with
    | nil =>
      rw [resolveLoop]
      exact Option.some_ne_none _
    | cons p todo =>
      rw [List.length_cons] at hfuel
      omega
  | succ fuel ih =>
    cases todo with
    | nil =>
      rw [resolveLoop]
      exact Option.some_ne_none _
    | cons p todo =>
      rw [List.length_cons] at hfuel
      by_cases hp : p ∈ processed
      · rw [resolveLoop_skip hp]
        exact ih hnodup (by omega)
      · rw [resolveLoop, if_neg hp]
        cases hpass : process dirty processed p rs [] written s with
        | error e => exact Option.some_ne_none _
        | ok pass =>
          have hnodup' : (processed ++ [p]).Nodup := by
            rw [List.nodup_append]
            refine ⟨hnodup, List.nodup_singleton p, fun a ha b hb heq => hp ?_⟩
            rw [← List.mem_singleton.mp hb, ← heq]
            exact ha
          refine ih hnodup' ?_
          have hlength := length_added_le hpass
          rw [List.length_nil, Nat.zero_add] at hlength
          have hroom := hnodup'.length_le_card
          rw [List.length_append, List.length_singleton] at hroom
          rw [List.length_append, List.length_append, List.length_singleton]
          obtain ⟨k, hk⟩ : ∃ k, Fintype.card P - processed.length = k + 1 :=
            ⟨Fintype.card P - processed.length - 1, by omega⟩
          have hk' : Fintype.card P - (processed.length + 1) = k := by omega
          rw [hk, Nat.add_mul, Nat.one_mul] at hfuel
          rw [hk']
          omega

end Loop

end DirtyLoop
end UhdHost
