import Mathlib.Data.List.Basic
import Mathlib.Tactic.Common

/-!
# Labelled transition systems given by a partial step function

A component that several parties drive is modelled by a partial function
`step : σ → α → Option σ`: in state `s` the action `a` is either enabled, and then
leads to one state, or it is not.  Everything the environment chooses (which party
moves, what a link delivers, whether a call succeeds) is part of the action, so the
step function stays executable and a concrete run can be evaluated.

* `run step s as` performs the actions `as` one after the other.
* `EveryStep step good s as` says that each action of the run is performed in a state
  that satisfies the condition `good` together with that action.
* `run_invariant` and `run_invariant_of_everyStep` are the two induction rules: what
  one step preserves, a whole run preserves.
* `run_iff_last` is the rule for what only some steps touch: the last of them decides.
* `run_log_prefix`, `run_log_iff_everyStep` and `run_log_append` are the rules for a
  component that keeps a log: what is written is never rewritten.
-/

namespace UhdHost
namespace Transition

variable {σ α β : Type*}

/-- Perform the actions one after the other; `none` as soon as one is not enabled. -/
def run (step : σ → α → Option σ) : σ → List α → Option σ
  | s, [] => some s
  | s, a :: as => (step s a).bind fun t => run step t as

@[simp] theorem run_nil (step : σ → α → Option σ) (s : σ) : run step s [] = some s := rfl

theorem run_cons (step : σ → α → Option σ) (s : σ) (a : α) (as : List α) :
    run step s (a :: as) = (step s a).bind fun t => run step t as := rfl

theorem run_cons_eq_some {step : σ → α → Option σ} {s u : σ} {a : α} {as : List α} :
    run step s (a :: as) = some u ↔ ∃ t, step s a = some t ∧ run step t as = some u := by
  rw [run_cons, Option.bind_eq_some_iff]

/-- A run of a concatenation is the run of the second part after the first. -/
theorem run_append (step : σ → α → Option σ) (s : σ) (as bs : List α) :
    run step s (as ++ bs) = (run step s as).bind fun t => run step t bs := by
  induction as generalizing s with
  | nil => rfl
  | cons a as ih =>
    rw [List.cons_append, run_cons, run_cons, Option.bind_assoc]
    exact congrArg (Option.bind (step s a)) (funext fun t => ih t)

theorem run_append_eq_some {step : σ → α → Option σ} {s u : σ} {as bs : List α} :
    run step s (as ++ bs) = some u ↔
      ∃ t, run step s as = some t ∧ run step t bs = some u := by
  rw [run_append, Option.bind_eq_some_iff]

/-- Where every action is enabled, there is a run. -/
theorem exists_run {step : σ → α → Option σ} (htotal : ∀ s a, ∃ t, step s a = some t) (s : σ)
    (as : List α) : ∃ t, run step s as = some t := by
  induction as generalizing s with
  | nil => exact ⟨s, rfl⟩
  | cons a as ih =>
    obtain ⟨t, ht⟩ := htotal s a
    obtain ⟨u, hu⟩ := ih t
    exact ⟨u, run_cons_eq_some.mpr ⟨t, ht, hu⟩⟩

/-! ## Conditions on the steps of a run -/

/-- Each action of the run is performed in a state that satisfies `good` with it. -/
def EveryStep (step : σ → α → Option σ) (good : σ → α → Prop) : σ → List α → Prop
  | _, [] => True
  | s, a :: as => good s a ∧ ∀ t, step s a = some t → EveryStep step good t as

@[simp] theorem everyStep_nil (step : σ → α → Option σ) (good : σ → α → Prop) (s : σ) :
    EveryStep step good s [] := trivial

theorem everyStep_cons {step : σ → α → Option σ} {good : σ → α → Prop} {s : σ} {a : α}
    {as : List α} : EveryStep step good s (a :: as) ↔
      good s a ∧ ∀ t, step s a = some t → EveryStep step good t as := Iff.rfl

/-- Where the condition can be decided, a run can be checked. -/
instance decidableEveryStep (step : σ → α → Option σ) (good : σ → α → Prop)
    [∀ s a, Decidable (good s a)] : (s : σ) → (as : List α) → Decidable (EveryStep step good s as)
  | _, [] => isTrue trivial
  | s, a :: as =>
    match h : step s a with
    | none => decidable_of_iff (good s a) ⟨fun hg => ⟨hg, fun _ ht => nomatch h ▸ ht⟩, And.left⟩
    | some t =>
      have := decidableEveryStep step good t as
      decidable_of_iff (good s a ∧ EveryStep step good t as)
        ⟨fun hg => ⟨hg.1, fun _ ht => Option.some.inj (h.symm.trans ht) ▸ hg.2⟩,
          fun hg => ⟨hg.1, hg.2 t h⟩⟩

/-- The steps of the first part of a run meet the condition. -/
theorem everyStep_of_append_left {step : σ → α → Option σ} {good : σ → α → Prop} {s : σ}
    {as bs : List α} (hgood : EveryStep step good s (as ++ bs)) : EveryStep step good s as := by
  induction as generalizing s with
  | nil => trivial
  | cons a as ih => exact ⟨hgood.1, fun t ht => ih (hgood.2 t ht)⟩

/-- The steps of the second part of a run meet the condition from where the first part ends. -/
theorem everyStep_of_append {step : σ → α → Option σ} {good : σ → α → Prop} {s t : σ}
    {as bs : List α} (hgood : EveryStep step good s (as ++ bs)) (h : run step s as = some t) :
    EveryStep step good t bs := by
  induction as generalizing s with
  | nil =>
    rw [run_nil, Option.some_inj] at h
    exact h ▸ hgood
  | cons a as ih =>
    obtain ⟨u, hu, h⟩ := run_cons_eq_some.mp h
    exact ih (hgood.2 u hu) h

/-- Two conditions that every step meets. -/
theorem everyStep_and {step : σ → α → Option σ} {good good' : σ → α → Prop} {s : σ} {as : List α}
    (h : EveryStep step good s as) (h' : EveryStep step good' s as) :
    EveryStep step (fun s a => good s a ∧ good' s a) s as := by
  induction as generalizing s with
  | nil => trivial
  | cons a as ih => exact ⟨⟨h.1, h'.1⟩, fun t ht => ih (h.2 t ht) (h'.2 t ht)⟩

/-- A condition on the actions alone. -/
theorem everyStep_of_forall_mem {step : σ → α → Option σ} {P : α → Prop} {as : List α}
    (h : ∀ a ∈ as, P a) (s : σ) : EveryStep step (fun _ a => P a) s as := by
  induction as generalizing s with
  | nil => trivial
  | cons a as ih =>
    exact ⟨h a List.mem_cons_self, fun t _ => ih (fun b hb => h b (List.mem_cons_of_mem a hb)) t⟩

/-! ## Invariants -/

/-- **The invariant rule.**  What every enabled step preserves, every run preserves. -/
theorem run_invariant {step : σ → α → Option σ} {I : σ → Prop}
    (hstep : ∀ s a t, I s → step s a = some t → I t) {s t : σ} {as : List α}
    (hs : I s) (h : run step s as = some t) : I t := by
  induction as generalizing s with
  | nil =>
    rw [run_nil, Option.some_inj] at h
    exact h ▸ hs
  | cons a as ih =>
    obtain ⟨u, hu, h⟩ := run_cons_eq_some.mp h
    exact ih (hstep s a u hs hu) h

/-- **The guarded invariant rule.**  What every good step preserves, every run whose
steps are all good preserves. -/
theorem run_invariant_of_everyStep {step : σ → α → Option σ} {good : σ → α → Prop}
    {I : σ → Prop} (hstep : ∀ s a t, I s → good s a → step s a = some t → I t)
    {s t : σ} {as : List α} (hs : I s) (hgood : EveryStep step good s as)
    (h : run step s as = some t) : I t := by
  induction as generalizing s with
  | nil =>
    rw [run_nil, Option.some_inj] at h
    exact h ▸ hs
  | cons a as ih =>
    obtain ⟨u, hu, h⟩ := run_cons_eq_some.mp h
    exact ih (hstep s a u hs hgood.1 hu) (hgood.2 u hu) h

/-- A condition that an invariant implies holds at every step. -/
theorem everyStep_of_invariant {step : σ → α → Option σ} {good : σ → α → Prop} {I : σ → Prop}
    (hstep : ∀ s a t, I s → step s a = some t → I t) (hgood : ∀ s a, I s → good s a) {s : σ}
    (hs : I s) (as : List α) : EveryStep step good s as := by
  induction as generalizing s with
  | nil => exact trivial
  | cons a as ih => exact ⟨hgood s a hs, fun t ht => ih (hstep s a t hs ht)⟩

/-- A condition that implies another one, under an invariant, does so for a whole run. -/
theorem everyStep_of_imp {step : σ → α → Option σ} {good good' : σ → α → Prop} {I : σ → Prop}
    (hstep : ∀ s a t, I s → step s a = some t → I t)
    (himp : ∀ s a, I s → good s a → good' s a) {s : σ} (hs : I s) {as : List α}
    (h : EveryStep step good s as) : EveryStep step good' s as := by
  induction as generalizing s with
  | nil => exact trivial
  | cons a as ih => exact ⟨himp s a hs h.1, fun t ht => ih (hstep s a t hs ht) (h.2 t ht)⟩

/-- Two conditions that an invariant makes one hold together, at every step of a run. -/
theorem everyStep_congr {step : σ → α → Option σ} {good good' : σ → α → Prop} {I : σ → Prop}
    (hstep : ∀ s a t, I s → step s a = some t → I t ∧ (good s a ↔ good' s a)) {s u : σ}
    {as : List α} (hs : I s) (h : run step s as = some u) :
    EveryStep step good s as ↔ EveryStep step good' s as := by
  induction as generalizing s with
  | nil => exact Iff.rfl
  | cons a as ih =>
    obtain ⟨v, hv, htail⟩ := run_cons_eq_some.mp h
    obtain ⟨hI, hiff⟩ := hstep s a v hs hv
    rw [everyStep_cons, everyStep_cons, hiff]
    refine and_congr_right fun _ => forall_congr' fun t => forall_congr' fun ht => ?_
    rw [hv, Option.some_inj] at ht
    exact ht ▸ ih hI htail

/-- Two conditions that mean the same under what each of them keeps. -/
theorem everyStep_iff_of_good {step : σ → α → Option σ} {good good' : σ → α → Prop} {I : σ → Prop}
    (hstep : ∀ s a t, I s → good' s a → step s a = some t → I t)
    (hiff : ∀ s a, I s → (good s a ↔ good' s a)) {s : σ} (hs : I s) (as : List α) :
    EveryStep step good s as ↔ EveryStep step good' s as := by
  induction as generalizing s with
  | nil => exact Iff.rfl
  | cons a as ih =>
    rw [everyStep_cons, everyStep_cons, hiff s a hs]
    exact and_congr_right fun ha => forall_congr' fun t => forall_congr' fun ht =>
      ih (hstep s a t hs ha ht)

/-- **The first bad step shows.**  Where good steps preserve an invariant that implies `K`, and a
step that is not good leads to a state without `K`, every state of a run satisfies `K` exactly when
all steps are good. -/
theorem forall_prefix_iff_everyStep {step : σ → α → Option σ} {good : σ → α → Prop}
    {I K : σ → Prop} (hK : ∀ s, I s → K s)
    (hgood : ∀ s a t, I s → step s a = some t → good s a → I t)
    (hbad : ∀ s a t, I s → step s a = some t → ¬ good s a → ¬ K t) {s t : σ} {as : List α}
    (hs : I s) (h : run step s as = some t) :
    (∀ bs u, bs <+: as → run step s bs = some u → K u) ↔ EveryStep step good s as := by
  induction as generalizing s with
  | nil =>
    refine iff_of_true (fun bs u hbs hu => ?_) trivial
    rw [List.prefix_nil.mp hbs, run_nil, Option.some_inj] at hu
    exact hu ▸ hK s hs
  | cons a as ih =>
    obtain ⟨v, hv, htail⟩ := run_cons_eq_some.mp h
    rw [everyStep_cons]
    constructor
    · intro hall
      have ha : good s a := by
        by_contra hnot
        refine hbad s a v hs hv hnot
          (hall [a] v (List.cons_prefix_cons.mpr ⟨rfl, List.nil_prefix⟩) ?_)
        rw [run_cons, hv, Option.bind_some, run_nil]
      refine ⟨ha, fun w hw => ?_⟩
      rw [hv, Option.some_inj] at hw
      subst hw
      refine (ih (hgood s a v hs hv ha) htail).mp fun bs u hbs hu =>
        hall (a :: bs) u (List.cons_prefix_cons.mpr ⟨rfl, hbs⟩) ?_
      rw [run_cons, hv, Option.bind_some, hu]
    · rintro ⟨ha, hrest⟩ bs u hbs hu
      cases bs with
      | nil =>
        rw [run_nil, Option.some_inj] at hu
        exact hu ▸ hK s hs
      | cons b bs =>
        obtain ⟨rfl, hprefix⟩ := List.cons_prefix_cons.mp hbs
        rw [run_cons, hv, Option.bind_some] at hu
        exact (ih (hgood s b v hs hv ha) htail).mpr (hrest v hv) bs u hprefix hu

/-- A relation between the first and the last state that is reflexive and that one step
extends holds across every run. -/
theorem run_relation {step : σ → α → Option σ} {R : σ → σ → Prop} (hrefl : ∀ s, R s s)
    (htrans : ∀ s t u, R s t → R t u → R s u)
    (hstep : ∀ s a t, step s a = some t → R s t) {s t : σ} {as : List α}
    (h : run step s as = some t) : R s t :=
  run_invariant (I := fun u => R s u)
    (fun u a v hu huv => htrans s u v hu (hstep u a v huv)) (hrefl s) h

/-! ## The last step that matters -/

/-- In a list, either no element has a property or one is the last that has it. -/
theorem forall_not_or_exists_last (touches : α → Prop) (as : List α) :
    (∀ a ∈ as, ¬ touches a) ∨
      ∃ before a after, as = before ++ a :: after ∧ touches a ∧ ∀ b ∈ after, ¬ touches b := by
  induction as with
  | nil => exact Or.inl fun a ha => absurd ha List.not_mem_nil
  | cons a as ih =>
    rcases ih with hnone | ⟨before, b, after, rfl, hb, hafter⟩
    · by_cases ha : touches a
      · exact Or.inr ⟨[], a, as, rfl, ha, hnone⟩
      · refine Or.inl fun b hb => ?_
        rcases List.mem_cons.mp hb with rfl | hb
        · exact ha
        · exact hnone b hb
    · exact Or.inr ⟨a :: before, b, after, rfl, hb, hafter⟩

section LastTouch

variable {step : σ → α → Option σ} {D Q : σ → Prop} {touches : α → Prop}
  (hframe : ∀ s a t, ¬ touches a → step s a = some t → ¬ Q t → ¬ Q s ∧ (D t ↔ D s))

include hframe

/-- Where steps that do not touch what `D` is about leave it alone unless they leave `Q`, a run of
such steps that ends without `Q` leaves it alone. -/
theorem iff_of_untouched {s t : σ} {as : List α} (h : run step s as = some t) (hQ : ¬ Q t)
    (has : ∀ a ∈ as, ¬ touches a) : ¬ Q s ∧ (D t ↔ D s) := by
  induction as generalizing s with
  | nil =>
    rw [run_nil, Option.some_inj] at h
    exact h ▸ ⟨h ▸ hQ, Iff.rfl⟩
  | cons a as ih =>
    obtain ⟨u, hu, h⟩ := run_cons_eq_some.mp h
    obtain ⟨hQu, htu⟩ := ih h fun b hb => has b (List.mem_cons_of_mem a hb)
    obtain ⟨hQs, hus⟩ := hframe s a u (has a List.mem_cons_self) hu hQu
    exact ⟨hQs, htu.trans hus⟩

/-- **The last step that touches it decides.**  At the end of a run that ends without `Q`, `D`
holds exactly when no step touched it and it held before, or when it held after the last step that
touched it. -/
theorem run_iff_last {s t : σ} {as : List α} (h : run step s as = some t) (hQ : ¬ Q t) :
    D t ↔ (∀ a ∈ as, ¬ touches a) ∧ D s ∨
      ∃ before a after u v, as = before ++ a :: after ∧ touches a ∧ (∀ b ∈ after, ¬ touches b) ∧
        run step s before = some u ∧ step u a = some v ∧ D v := by
  constructor
  · intro hD
    rcases forall_not_or_exists_last touches as with
      hnone | ⟨before, a, after, rfl, ha, hafter⟩
    · exact Or.inl ⟨hnone, (iff_of_untouched hframe h hQ hnone).2.mp hD⟩
    · obtain ⟨u, hu, h⟩ := run_append_eq_some.mp h
      obtain ⟨v, hv, h⟩ := run_cons_eq_some.mp h
      exact Or.inr ⟨before, a, after, u, v, rfl, ha, hafter, hu, hv,
        (iff_of_untouched hframe h hQ hafter).2.mp hD⟩
  · rintro (⟨hnone, hD⟩ | ⟨before, a, after, u, v, rfl, -, hafter, hu, hv, hD⟩)
    · exact (iff_of_untouched hframe h hQ hnone).2.mpr hD
    · obtain ⟨u', hu', h⟩ := run_append_eq_some.mp h
      obtain ⟨v', hv', h⟩ := run_cons_eq_some.mp h
      rw [hu, Option.some_inj] at hu'
      subst hu'
      rw [hv, Option.some_inj] at hv'
      subst hv'
      exact (iff_of_untouched hframe h hQ hafter).2.mpr hD

end LastTouch

/-! ## Logs -/

/-- The entries of a log after one more was written. -/
theorem getElem?_concat_eq_some {l : List β} {x y : β} {i : ℕ} :
    (l ++ [x])[i]? = some y ↔ l[i]? = some y ∨ i = l.length ∧ x = y := by
  rcases Nat.lt_trichotomy i l.length with hi | rfl | hi
  · rw [List.getElem?_append_left hi]
    exact ⟨Or.inl, fun h => h.resolve_right fun h => absurd h.1 (Nat.ne_of_lt hi)⟩
  · simp
  · have hlen : (l ++ [x]).length ≤ i := by
      rw [List.length_append, List.length_singleton]
      exact hi
    rw [List.getElem?_eq_none hlen, List.getElem?_eq_none (Nat.le_of_lt hi)]
    simp [Nat.ne_of_gt hi]

/-- A log that every step only extends is a prefix of every later log. -/
theorem run_log_prefix {step : σ → α → Option σ} {log : σ → List β}
    (hlog : ∀ s a t, step s a = some t → log s <+: log t) {s t : σ} {as : List α}
    (h : run step s as = some t) : log s <+: log t :=
  run_relation (R := fun s t => log s <+: log t) (fun _ => List.prefix_rfl)
    (fun _ _ _ => List.IsPrefix.trans) hlog h

/-- **What every action adds**, a run adds in the order of its actions. -/
theorem run_log_flatMap {step : σ → α → Option σ} {log : σ → List β} {new : α → List β}
    (hstep : ∀ s a t, step s a = some t → log t = log s ++ new a) {s t : σ} {as : List α}
    (h : run step s as = some t) : log t = log s ++ as.flatMap new := by
  induction as generalizing s with
  | nil =>
    rw [run_nil, Option.some_inj] at h
    rw [h, List.flatMap_nil, List.append_nil]
  | cons a as ih =>
    obtain ⟨u, hu, h⟩ := run_cons_eq_some.mp h
    rw [ih h, hstep s a u hu, List.flatMap_cons, List.append_assoc]

/-- **Every entry of a log is right exactly when every step wrote a right entry.**
`P i x` is what entry `x` must satisfy at position `i`; `good s a` is the condition
under which the step from `s` by `a` writes only such entries. -/
theorem run_log_iff_everyStep {step : σ → α → Option σ} {log : σ → List β}
    {P : ℕ → β → Prop} {good : σ → α → Prop} {I : σ → Prop}
    (hInv : ∀ s a t, I s → step s a = some t → I t)
    (hlog : ∀ s a t, step s a = some t → log s <+: log t)
    (hgood : ∀ s a t, I s → step s a = some t →
      (good s a ↔ ∀ i x, (log s).length ≤ i → (log t)[i]? = some x → P i x))
    {s t : σ} {as : List α} (hs : I s) (h : run step s as = some t) :
    (∀ i x, (log s).length ≤ i → (log t)[i]? = some x → P i x) ↔
      EveryStep step good s as := by
  induction as generalizing s with
  | nil =>
    rw [run_nil, Option.some_inj] at h
    subst h
    refine ⟨fun _ => trivial, fun _ i x hi hx => ?_⟩
    rw [List.getElem?_eq_none hi] at hx
    exact absurd hx (by simp)
  | cons a as ih =>
    obtain ⟨u, hu, h⟩ := run_cons_eq_some.mp h
    have ih := ih (hInv s a u hs hu) h
    have hsu : log s <+: log u := hlog s a u hu
    have hut : log u <+: log t := run_log_prefix hlog h
    rw [everyStep_cons, hgood s a u hs hu]
    constructor
    · intro hP
      refine ⟨fun i x hi hx => hP i x hi ?_, fun t' ht' => ?_⟩
      · obtain ⟨w, hw⟩ := hut
        rw [← hw, List.getElem?_append_left (List.getElem?_eq_some_iff.mp hx).1, hx]
      · rw [hu, Option.some_inj] at ht'
        subst ht'
        exact ih.mp fun i x hi hx => hP i x (Nat.le_trans hsu.length_le hi) hx
    · rintro ⟨hnew, hrest⟩ i x hi hx
      by_cases hiu : i < (log u).length
      · refine hnew i x hi ?_
        have hget : (log t)[i]? = (log u)[i]? := by
          obtain ⟨w, hw⟩ := hut
          rw [← hw, List.getElem?_append_left hiu]
        rw [← hget, hx]
      · exact ih.mpr (hrest u hu) i x (Nat.not_lt.mp hiu) hx

/-- **A run writes nothing exactly when no step does.** -/
theorem run_log_append {step : σ → α → Option σ} {log : σ → List β} {good : σ → α → Prop}
    (hstep : ∀ s a t, step s a = some t → ∃ new, log t = log s ++ new ∧ (new = [] ↔ good s a))
    {s t : σ} {as : List α} (h : run step s as = some t) :
    ∃ new, log t = log s ++ new ∧ (new = [] ↔ EveryStep step good s as) := by
  induction as generalizing s with
  | nil =>
    rw [run_nil, Option.some_inj] at h
    exact ⟨[], by rw [h, List.append_nil], iff_of_true rfl trivial⟩
  | cons a as ih =>
    obtain ⟨u, hu, h⟩ := run_cons_eq_some.mp h
    obtain ⟨new₁, hlog₁, hgood₁⟩ := hstep s a u hu
    obtain ⟨new₂, hlog₂, hgood₂⟩ := ih h
    refine ⟨new₁ ++ new₂, by rw [hlog₂, hlog₁, List.append_assoc], ?_⟩
    rw [List.append_eq_nil_iff, hgood₁, hgood₂, everyStep_cons]
    refine and_congr_right fun _ => ⟨fun hrest t ht => ?_, fun hrest => hrest u hu⟩
    rw [hu, Option.some_inj] at ht
    exact ht ▸ hrest

end Transition
end UhdHost
