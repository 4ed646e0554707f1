import UhdHost.Experts.ExpertContainer

/-!
# What resolving leads to

The first pass of `_resolve_helper` runs the workers that read something dirty, in a topological
order.  A worker that it leaves out is settled: to run it would change nothing.  So the values are
those that running all workers leads to (`values_resolveWorkers`).  A worker reads something dirty at
its turn exactly if it does at the end of the pass, since what comes after it does not write what it
has read (`mem_resolveWorkers`).  That is how the second pass can clear the flags: what a worker
consumes is dirty only if all its consumers have run.

Between the calls every worker is *pending*: it reads something dirty, or it is settled.  Writes of
the user keep this (`pending_setByUser`), and resolving leads back to a state where nothing is left
to do.
-/

namespace UhdHost
namespace Experts

open Dataflow TopologicalOrder

variable {V : Type} [DecidableEq V]

namespace Worker

/-- The worker reads something dirty, or to run it would change nothing. -/
def Pending (w : Worker V) (s : DataNodes V) : Prop :=
  (∃ d ∈ w.inputs, (s d).dirty = true) ∨ w.Settled s.values

theorem values_resolve_of_clean {w : Worker V} {s : DataNodes V} {d : String}
    (hclean : (w.resolve s d).dirty ≠ true) : (w.resolve s).values d = s.values d := by
  rw [values_resolve]
  refine assign_of_forall_eq fun x hx => ?_
  by_contra hne
  exact hclean ((dirty_resolve w s d).mpr (Or.inr ⟨x, hx, hne⟩))

theorem Pending.resolve {w u : Worker V} (hw : w.Functional) (hu : u.Functional)
    (houtputs : ∀ d ∈ u.outputs, d ∉ w.outputs) {s : DataNodes V} (h : w.Pending s) :
    w.Pending (u.resolve s) := by
  by_cases hdirty : ∃ d ∈ w.inputs, (u.resolve s d).dirty = true
  · exact Or.inl hdirty
  · refine Or.inr ?_
    rcases h with ⟨d, hd, hwas⟩ | hsettled
    · exact absurd ⟨d, hd, (dirty_resolve u s d).mpr (Or.inl hwas)⟩ hdirty
    · refine hw.settled_congr (fun d hd => ?_) (fun d hd => ?_) hsettled
      · exact (values_resolve_of_clean fun hyes => hdirty ⟨d, hd, hyes⟩).symm
      · exact congrArg DataNode.data
          (resolve_of_notMem hu s fun hout => houtputs d hout hd).symm

end Worker

/-! ## The workers of the first pass -/

/-- The first pass, as it goes through the workers. -/
def resolveWorkers (force : Bool) :
    List (Worker V) → DataNodes V → DataNodes V × List (Worker V)
  | [], s => (s, [])
  | w :: ws, s =>
    if force || w.isDirty s then
      ((resolveWorkers force ws (w.resolve s)).1, w :: (resolveWorkers force ws (w.resolve s)).2)
    else resolveWorkers force ws s

/-- Workers in an order in which they can run. -/
abbrev OrderlyWorkers (ws : List (Worker V)) : Prop := Orderly (ws.map Worker.toTask)

omit [DecidableEq V] in
theorem OrderlyWorkers.head {w : Worker V} {ws : List (Worker V)} (h : OrderlyWorkers (w :: ws)) :
    w.Functional ∧ (∀ d ∈ w.inputs, d ∉ w.outputs) ∧ (∀ u ∈ ws, Before w.toTask u.toTask) ∧
      ∀ u ∈ ws, u.Functional := by
  obtain ⟨hfunctional, hself, hbefore⟩ := Orderly.head h
  exact ⟨hfunctional, hself, fun u hu => hbefore u.toTask (List.mem_map_of_mem hu),
    fun u hu => (Orderly.tail h).functional u.toTask (List.mem_map_of_mem hu)⟩

section Pass

variable {force : Bool} {ws : List (Worker V)} {s : DataNodes V} {d : String}

theorem resolveWorkers_sublist : (resolveWorkers force ws s).2.Sublist ws := by
  induction ws generalizing s with
  | nil => exact List.Sublist.refl []
  | cons w ws ih =>
    rw [resolveWorkers]
    split_ifs
    · exact ih.cons_cons w
    · exact ih.cons w

theorem resolveWorkers_of_notMem (h : ∀ w ∈ ws, w.Functional) (hd : ∀ w ∈ ws, d ∉ w.outputs) :
    (resolveWorkers force ws s).1 d = s d := by
  induction ws generalizing s with
  | nil => rfl
  | cons w ws ih =>
    have htail : ∀ t, (resolveWorkers force ws t).1 d = t d := fun t =>
      ih (fun u hu => h u (List.mem_cons_of_mem w hu)) fun u hu => hd u (List.mem_cons_of_mem w hu)
    rw [resolveWorkers]
    split_ifs
    · exact (htail _).trans
        (Worker.resolve_of_notMem (h w List.mem_cons_self) s (hd w List.mem_cons_self))
    · exact htail s

theorem values_resolveWorkers (h : OrderlyWorkers ws)
    (hpending : force = true ∨ ∀ w ∈ ws, w.Pending s) :
    (resolveWorkers force ws s).1.values = runAll (ws.map Worker.toTask) s.values := by
  induction ws generalizing s with
  | nil => rfl
  | cons w ws ih =>
    obtain ⟨hw, -, hbefore, hws⟩ := OrderlyWorkers.head h
    have htail := Orderly.tail h
    rw [List.map_cons, resolveWorkers]
    split_ifs with hrun
    · rw [runAll_cons, ← Worker.values_resolve]
      refine ih htail (hpending.imp_right fun hall u hu => ?_)
      exact (hall u (List.mem_cons_of_mem w hu)).resolve (hws u hu) hw (hbefore u hu).outputs
    · obtain ⟨hforce, hclean⟩ := not_or.mp (fun hor => hrun (Bool.or_eq_true_iff.mpr hor))
      have hall := hpending.resolve_left hforce
      have hsettled : w.Settled s.values :=
        (hall w List.mem_cons_self).resolve_left fun hdirty =>
          hclean ((w.isDirty_iff s).mpr hdirty)
      rw [runAll_cons_of_settled hsettled]
      exact ih htail (Or.inr fun u hu => hall u (List.mem_cons_of_mem w hu))

theorem resolveWorkers_input {w : Worker V} (h : OrderlyWorkers (w :: ws)) (hd : d ∈ w.inputs) :
    (resolveWorkers force (w :: ws) s).1 d = s d := by
  obtain ⟨hw, hself, hbefore, hws⟩ := OrderlyWorkers.head h
  refine resolveWorkers_of_notMem (fun u hu => ?_) fun u hu => ?_
  · rcases List.mem_cons.mp hu with rfl | hu
    · exact hw
    · exact hws u hu
  · rcases List.mem_cons.mp hu with rfl | hu
    · exact hself d hd
    · exact (hbefore u hu).inputs d hd

theorem mem_resolveWorkers (h : OrderlyWorkers ws) (hnodup : ws.Nodup) {u : Worker V}
    (hu : u ∈ ws) : u ∈ (resolveWorkers force ws s).2 ↔
      force = true ∨ ∃ d ∈ u.inputs, ((resolveWorkers force ws s).1 d).dirty = true := by
  induction ws generalizing s with
  | nil => exact absurd hu List.not_mem_nil
  | cons w ws ih =>
    obtain ⟨hnotMem, hnodupTail⟩ := List.nodup_cons.mp hnodup
    rcases List.mem_cons.mp hu with rfl | hmem
    · have hdirty : u.isDirty s = true ↔
          ∃ d ∈ u.inputs, ((resolveWorkers force (u :: ws) s).1 d).dirty = true := by
        rw [Worker.isDirty_iff]
        exact exists_congr fun d => and_congr_right fun hd => by rw [resolveWorkers_input h hd]
      rw [← hdirty, ← Bool.or_eq_true_iff, resolveWorkers]
      split_ifs with hrun
      · exact iff_of_true List.mem_cons_self hrun
      · exact iff_of_false (fun hmem => hnotMem (resolveWorkers_sublist.subset hmem)) hrun
    · have hne : u ≠ w := by
        rintro rfl
        exact hnotMem hmem
      rw [resolveWorkers]
      split_ifs with hrun
      · rw [List.mem_cons, or_iff_right hne]
        exact ih (Orderly.tail h) hnodupTail hmem
      · exact ih (Orderly.tail h) hnodupTail hmem

theorem dirty_resolveWorkers (h : OrderlyWorkers ws) :
    ((resolveWorkers force ws s).1 d).dirty = true ↔ (s d).dirty = true ∨
      ∃ w ∈ (resolveWorkers force ws s).2, ∃ x,
        (d, x) ∈ w.writes (resolveWorkers force ws s).1.values ∧ x ≠ (s d).data := by
  induction ws generalizing s with
  | nil => exact ⟨Or.inl, fun hor => hor.resolve_right fun ⟨w, hw, _⟩ =>
      absurd hw List.not_mem_nil⟩
  | cons w ws ih =>
    obtain ⟨hw, hself, hbefore, hws⟩ := OrderlyWorkers.head h
    have hinputs : ∀ e ∈ w.inputs, (resolveWorkers force (w :: ws) s).1 e = s e :=
      fun e he => resolveWorkers_input h he
    rw [resolveWorkers] at hinputs ⊢
    split_ifs at hinputs ⊢ with hrun
    · have hwrites : w.writes (resolveWorkers force ws (w.resolve s)).1.values =
          w.writes s.values :=
        hw.congr _ _ fun e he => congrArg DataNode.data (hinputs e he)
      have hdata : (∃ u ∈ (resolveWorkers force ws (w.resolve s)).2, ∃ x,
          (d, x) ∈ u.writes (resolveWorkers force ws (w.resolve s)).1.values ∧
            x ≠ (w.resolve s d).data) ↔
          ∃ u ∈ (resolveWorkers force ws (w.resolve s)).2, ∃ x,
          (d, x) ∈ u.writes (resolveWorkers force ws (w.resolve s)).1.values ∧
            x ≠ (s d).data := by
        refine exists_congr fun u => and_congr_right fun hu => exists_congr fun x =>
          and_congr_right fun hx => ?_
        have hmem := resolveWorkers_sublist.subset hu
        have hout := ((hws u hmem).mem_outputs _ d).mpr ⟨x, hx⟩
        rw [Worker.resolve_of_notMem hw s fun hown => (hbefore u hmem).outputs d hown hout]
      rw [ih (Orderly.tail h), Worker.dirty_resolve, hdata, List.exists_mem_cons_iff, hwrites,
        or_assoc]
    · exact ih (Orderly.tail h)

end Pass
end Experts
end UhdHost
