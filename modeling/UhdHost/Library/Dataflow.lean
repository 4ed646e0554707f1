import Mathlib.Data.List.Perm.Basic
import Mathlib.Logic.Function.Basic
import Mathlib.Tactic.Common

/-!
# Tasks that write what they compute from what they read

A *task* reads some data and writes other data, by a function of what it has read.  Tasks are run
one after the other; a task is *settled* if running it again would change nothing.

* `runAll_settled`: after an orderly run, in which no task writes what an earlier one has read or
  written, every task is settled.
* `eq_of_settled`: at most one assignment of values settles all tasks and agrees with a given one
  where no task writes.  So it is the tasks that decide what an orderly run leads to, and not their
  order (`runAll_eq_of_settled`).
* `runAll_cons_of_settled`: a task that is settled may be left out.
-/

namespace UhdHost
namespace Dataflow

variable {N V : Type}

/-- A task: what it reads, what it writes, and how. -/
structure Task (N V : Type) where
  inputs : List N
  outputs : List N
  /-- What it writes, in order, if it reads these values. -/
  writes : (N → V) → List (N × V)

/-- It computes what it writes from its inputs, and writes its outputs, and nothing else. -/
structure Task.Functional (t : Task N V) : Prop where
  congr : ∀ v v' : N → V, (∀ d ∈ t.inputs, v d = v' d) → t.writes v = t.writes v'
  mem_outputs : ∀ (v : N → V) (d : N), d ∈ t.outputs ↔ ∃ x, (d, x) ∈ t.writes v

/-- One task runs before another: the later one does not write what the earlier one reads or
writes. -/
structure Before (t u : Task N V) : Prop where
  inputs : ∀ d ∈ t.inputs, d ∉ u.outputs
  outputs : ∀ d ∈ t.outputs, d ∉ u.outputs

/-- Tasks that can be run in this order.  None writes what it reads. -/
structure Orderly (ts : List (Task N V)) : Prop where
  functional : ∀ t ∈ ts, t.Functional
  irrefl : ∀ t ∈ ts, ∀ d ∈ t.inputs, d ∉ t.outputs
  pairwise : ts.Pairwise Before

theorem Orderly.head {t : Task N V} {ts : List (Task N V)} (h : Orderly (t :: ts)) :
    t.Functional ∧ (∀ d ∈ t.inputs, d ∉ t.outputs) ∧ ∀ u ∈ ts, Before t u :=
  ⟨h.functional t List.mem_cons_self, h.irrefl t List.mem_cons_self,
    (List.pairwise_cons.mp h.pairwise).1⟩

theorem Orderly.tail {t : Task N V} {ts : List (Task N V)} (h : Orderly (t :: ts)) :
    Orderly ts :=
  ⟨fun u hu => h.functional u (List.mem_cons_of_mem t hu),
    fun u hu => h.irrefl u (List.mem_cons_of_mem t hu), (List.pairwise_cons.mp h.pairwise).2⟩

variable [DecidableEq N]

/-! ## Assignments -/

/-- One write after the other. -/
def assign (v : N → V) (writes : List (N × V)) : N → V :=
  writes.foldl (fun v w => Function.update v w.1 w.2) v

theorem assign_cons (v : N → V) (w : N × V) (writes : List (N × V)) :
    assign v (w :: writes) = assign (Function.update v w.1 w.2) writes := rfl

/-- Where nothing else is written than what is there, it stays. -/
theorem assign_of_forall_eq {v : N → V} {writes : List (N × V)} {d : N}
    (h : ∀ x, (d, x) ∈ writes → x = v d) : assign v writes d = v d := by
  induction writes generalizing v with
  | nil => rfl
  | cons w writes ih =>
    have hsame : Function.update v w.1 w.2 d = v d := by
      by_cases hd : d = w.1
      · subst hd
        rw [Function.update_self]
        exact h w.2 List.mem_cons_self
      · exact Function.update_of_ne hd _ _
    rw [assign_cons, ih fun x hx => (h x (List.mem_cons_of_mem w hx)).trans hsame.symm, hsame]

theorem assign_of_forall_ne {v : N → V} {writes : List (N × V)} {d : N}
    (h : ∀ x, (d, x) ∉ writes) : assign v writes d = v d :=
  assign_of_forall_eq fun x hx => absurd hx (h x)

/-- What is written does not depend on what was there before. -/
theorem assign_eq_assign {v v' : N → V} {writes : List (N × V)} {d : N} {x : V}
    (h : (d, x) ∈ writes) : assign v writes d = assign v' writes d := by
  induction writes generalizing v v' x with
  | nil => cases h
  | cons w writes ih =>
    rw [assign_cons, assign_cons]
    by_cases hlater : ∃ y, (d, y) ∈ writes
    · obtain ⟨y, hy⟩ := hlater
      exact ih hy
    · have hnone : ∀ y, (d, y) ∉ writes := fun y hy => hlater ⟨y, hy⟩
      rw [assign_of_forall_ne hnone, assign_of_forall_ne hnone]
      rcases List.mem_cons.mp h with rfl | hmem
      · rw [Function.update_self, Function.update_self]
      · exact absurd hmem (hnone x)

/-! ## Running tasks -/

/-- A task runs. -/
def Task.run (t : Task N V) (v : N → V) : N → V := assign v (t.writes v)

/-- Tasks run one after the other. -/
def runAll (ts : List (Task N V)) (v : N → V) : N → V := ts.foldl (fun v t => t.run v) v

/-- To run the task would change nothing. -/
def Task.Settled (t : Task N V) (v : N → V) : Prop := t.run v = v

theorem runAll_cons (t : Task N V) (ts : List (Task N V)) (v : N → V) :
    runAll (t :: ts) v = runAll ts (t.run v) := rfl

/-- A task that is settled may be left out. -/
theorem runAll_cons_of_settled {t : Task N V} {v : N → V} (h : t.Settled v)
    (ts : List (Task N V)) : runAll (t :: ts) v = runAll ts v := by
  rw [runAll_cons, h]

variable {t : Task N V} {ts : List (Task N V)} {v v' : N → V} {d : N}

theorem Task.Functional.run_of_notMem (h : t.Functional) (hd : d ∉ t.outputs) :
    t.run v d = v d :=
  assign_of_forall_ne fun x hx => hd ((h.mem_outputs v d).mpr ⟨x, hx⟩)

theorem Task.Functional.run_congr (h : t.Functional) (hinputs : ∀ d ∈ t.inputs, v d = v' d)
    (hd : d ∈ t.outputs) : t.run v d = t.run v' d := by
  obtain ⟨x, hx⟩ := (h.mem_outputs v d).mp hd
  rw [Task.run, Task.run, ← h.congr v v' hinputs]
  exact assign_eq_assign hx

/-- Whether a task is settled depends on what it reads and writes only. -/
theorem Task.Functional.settled_congr (h : t.Functional) (hinputs : ∀ d ∈ t.inputs, v d = v' d)
    (houtputs : ∀ d ∈ t.outputs, v d = v' d) (hsettled : t.Settled v) : t.Settled v' := by
  funext d
  by_cases hd : d ∈ t.outputs
  · rw [← h.run_congr hinputs hd, hsettled, houtputs d hd]
  · exact h.run_of_notMem hd

/-- A task is settled once it has run. -/
theorem Task.Functional.settled_run (h : t.Functional) (hself : ∀ d ∈ t.inputs, d ∉ t.outputs) :
    t.Settled (t.run v) := by
  funext d
  by_cases hd : d ∈ t.outputs
  · exact h.run_congr (fun e he => h.run_of_notMem (hself e he)) hd
  · exact h.run_of_notMem hd

theorem runAll_of_notMem (h : ∀ t ∈ ts, t.Functional) (hd : ∀ t ∈ ts, d ∉ t.outputs) :
    runAll ts v d = v d := by
  induction ts generalizing v with
  | nil => rfl
  | cons t ts ih =>
    rw [runAll_cons, ih (fun u hu => h u (List.mem_cons_of_mem t hu))
      (fun u hu => hd u (List.mem_cons_of_mem t hu))]
    exact (h t List.mem_cons_self).run_of_notMem (hd t List.mem_cons_self)

/-- What comes after a task changes neither what it has read nor what it has written. -/
theorem Orderly.runAll_tail (h : Orderly (t :: ts)) (hd : d ∈ t.inputs ∨ d ∈ t.outputs) :
    runAll ts v d = v d := by
  refine runAll_of_notMem h.tail.functional fun u hu => ?_
  obtain ⟨-, -, hbefore⟩ := h.head
  exact hd.elim ((hbefore u hu).inputs d) ((hbefore u hu).outputs d)

/-- **After an orderly run every task is settled.** -/
theorem runAll_settled (h : Orderly ts) : ∀ t ∈ ts, t.Settled (runAll ts v) := by
  induction ts generalizing v with
  | nil => exact fun t ht => absurd ht List.not_mem_nil
  | cons t ts ih =>
    intro u hu
    rw [runAll_cons]
    rcases List.mem_cons.mp hu with rfl | hu
    · obtain ⟨hfunctional, hself, -⟩ := h.head
      exact hfunctional.settled_congr (fun d hd => (h.runAll_tail (Or.inl hd)).symm)
        (fun d hd => (h.runAll_tail (Or.inr hd)).symm) (hfunctional.settled_run hself)
    · exact ih h.tail u hu

/-- **At most one assignment settles all tasks**, among those that agree where none writes. -/
theorem eq_of_settled (h : Orderly ts) (hv : ∀ t ∈ ts, t.Settled v)
    (hv' : ∀ t ∈ ts, t.Settled v') (hagree : ∀ d, (∀ t ∈ ts, d ∉ t.outputs) → v d = v' d) :
    v = v' := by
  induction ts with
  | nil => exact funext fun d => hagree d fun t ht => absurd ht List.not_mem_nil
  | cons t ts ih =>
    obtain ⟨hfunctional, hself, hbefore⟩ := h.head
    have hinputs : ∀ d ∈ t.inputs, v d = v' d := by
      intro d hd
      refine hagree d fun u hu => ?_
      rcases List.mem_cons.mp hu with rfl | hu
      · exact hself d hd
      · exact (hbefore u hu).inputs d hd
    refine ih h.tail (fun u hu => hv u (List.mem_cons_of_mem t hu))
      (fun u hu => hv' u (List.mem_cons_of_mem t hu)) fun d hd => ?_
    by_cases hout : d ∈ t.outputs
    · calc v d = t.run v d := (congrFun (hv t List.mem_cons_self) d).symm
        _ = t.run v' d := hfunctional.run_congr hinputs hout
        _ = v' d := congrFun (hv' t List.mem_cons_self) d
    · refine hagree d fun u hu => ?_
      rcases List.mem_cons.mp hu with rfl | hu
      · exact hout
      · exact hd u hu

/-- **What an orderly run leads to** is the assignment that settles its tasks. -/
theorem runAll_eq_of_settled (h : Orderly ts) (hsettled : ∀ t ∈ ts, t.Settled v')
    (hagree : ∀ d, (∀ t ∈ ts, d ∉ t.outputs) → v d = v' d) : runAll ts v = v' :=
  eq_of_settled h (runAll_settled h) hsettled
    fun d hd => (runAll_of_notMem h.functional hd).trans (hagree d hd)

end Dataflow
end UhdHost
