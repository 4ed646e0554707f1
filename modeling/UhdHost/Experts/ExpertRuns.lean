import UhdHost.Experts.ExpertResolve

/-!
# Resolving after any calls

Whatever the user has written and read since everything was resolved: `resolve_all` leaves every
data node with the value that running all workers from scratch leads to, runs the affected workers
once and in the order of their dependencies, and marks what they consume clean
(`resolveAll_after_calls`).
-/

namespace UhdHost
namespace Experts

open Dataflow TopologicalOrder

namespace ExpertContainer

variable {V : Type}

/-- **The graphs in question.**  There is no cycle, workers are functions of what they read, and no
two set the same data node. -/
structure WellFormed (c : ExpertContainer V) : Prop where
  acyclic : Acyclic c.edges
  functional : ∀ w ∈ c.workers, w.Functional
  oneWriter : ∀ w ∈ c.workers, ∀ u ∈ c.workers, w ≠ u → ∀ d ∈ w.outputs, d ∉ u.outputs

/-- Everything is resolved: to run a worker would change nothing, and nothing that one reads is
dirty. -/
structure FullyResolved (c : ExpertContainer V) (s : DataNodes V) : Prop where
  settled : ∀ w ∈ c.workers, w.toTask.run s.values = s.values
  clean : ∀ w ∈ c.workers, ∀ d ∈ w.inputs, (s d).dirty = false

/-- A worker reads what the other one sets. -/
structure DependsOn (c : ExpertContainer V) (w u : Worker V) : Prop where
  left : w ∈ c.workers
  right : u ∈ c.workers
  shared : ∃ d ∈ w.inputs, d ∈ u.outputs

/-- All workers are run from scratch, in the order of the vertices. -/
def fromScratch (c : ExpertContainer V) (order : List Vertex) (v : String → V) : String → V :=
  runAll ((order.filterMap c.worker?).map Worker.toTask) v

/-- **The affected workers**, where the values at the end are these: those that read something that
was dirty, or that an affected worker changes. -/
inductive Affected (c : ExpertContainer V) (s : DataNodes V) (final : String → V) :
    Worker V → Prop where
  | dirty {w : Worker V} {d : String} (hw : w ∈ c.workers) (hd : d ∈ w.inputs)
      (hdirty : (s d).dirty = true) : Affected c s final w
  | changed {w u : Worker V} {d : String} {x : V} (hu : Affected c s final u)
      (hx : (d, x) ∈ u.writes final) (hne : x ≠ (s d).data) (hw : w ∈ c.workers)
      (hd : d ∈ w.inputs) : Affected c s final w

/-- **What is asked of a resolution** from `s` to `t` that runs these workers. -/
structure Resolves (c : ExpertContainer V) (s t : DataNodes V) (ran : List (Worker V)) : Prop where
  values : ∀ order, IsTopologicalOrder c.vertices c.edges order →
    t.values = c.fromScratch order s.values
  once : ran.Nodup
  affected : ∀ w, w ∈ ran ↔ c.Affected s t.values w
  ordered : ran.Pairwise fun w u => ¬ Relation.TransGen c.DependsOn w u
  clean : ∀ w ∈ c.workers, ∀ d ∈ w.inputs, (t d).dirty = false

/-! ## The workers in a topological order -/

variable {c : ExpertContainer V}

theorem worker?_eq_some {v : Vertex} {w : Worker V} :
    c.worker? v = some w ↔ w ∈ c.workers ∧ v = .worker w.name := by
  cases v with
  | data name => exact iff_of_false (fun h => by cases h) (fun h => by cases h.2)
  | worker name =>
    rw [worker?]
    constructor
    · intro h
      have hname := List.find?_some h
      exact ⟨List.mem_of_find?_eq_some h, congrArg Vertex.worker (of_decide_eq_true hname).symm⟩
    · rintro ⟨hw, hname⟩
      injection hname with hname
      obtain ⟨u, hu⟩ := Option.isSome_iff_exists.mp (List.find?_isSome.mpr
        ⟨w, hw, decide_eq_true hname.symm⟩ :
          (c.workers.find? fun w => w.name = name).isSome = true)
      have hfound := List.find?_some hu
      have huname : u.name = name := of_decide_eq_true hfound
      rw [hu, List.inj_on_of_nodup_map c.workers_nodup (List.mem_of_find?_eq_some hu) hw
        (huname.trans hname)]

theorem vertices_nodup (c : ExpertContainer V) : c.vertices.Nodup := by
  refine List.Nodup.append ?_ ?_ ?_
  · have hmap : c.dataNodes.map (fun d => Vertex.data d.name) =
        (c.dataNodes.map DataVertex.name).map Vertex.data := by rw [List.map_map]; rfl
    rw [hmap]
    exact c.dataNodes_nodup.map fun a b h => by injection h
  · have hmap : c.workers.map (fun w => Vertex.worker w.name) =
        (c.workers.map Worker.name).map Vertex.worker := by rw [List.map_map]; rfl
    rw [hmap]
    exact c.workers_nodup.map fun a b h => by injection h
  · intro v hd hw
    obtain ⟨d, -, rfl⟩ := List.mem_map.mp hd
    obtain ⟨w, -, hw⟩ := List.mem_map.mp hw
    cases hw

theorem worker_mem_vertices {w : Worker V} (hw : w ∈ c.workers) :
    Vertex.worker w.name ∈ c.vertices :=
  List.mem_append_right _ (List.mem_map.mpr ⟨w, hw, rfl⟩)

theorem data_mem_vertices {d : String} (hd : d ∈ c.dataNodes.map DataVertex.name) :
    Vertex.data d ∈ c.vertices := by
  obtain ⟨n, hn, rfl⟩ := List.mem_map.mp hd
  exact List.mem_append_left _ (List.mem_map.mpr ⟨n, hn, rfl⟩)

theorem input_mem_edges {w : Worker V} (hw : w ∈ c.workers) {d : String} (hd : d ∈ w.inputs) :
    (Vertex.data d, Vertex.worker w.name) ∈ c.edges :=
  List.mem_flatMap.mpr ⟨w, hw, List.mem_append_left _ (List.mem_map.mpr ⟨d, hd, rfl⟩)⟩

theorem output_mem_edges {w : Worker V} (hw : w ∈ c.workers) {d : String} (hd : d ∈ w.outputs) :
    (Vertex.worker w.name, Vertex.data d) ∈ c.edges :=
  List.mem_flatMap.mpr ⟨w, hw, List.mem_append_right _ (List.mem_map.mpr ⟨d, hd, rfl⟩)⟩

theorem edges_ends (c : ExpertContainer V) :
    ∀ e ∈ c.edges, e.1 ∈ c.vertices ∧ e.2 ∈ c.vertices := by
  intro e he
  obtain ⟨w, hw, he⟩ := List.mem_flatMap.mp he
  rcases List.mem_append.mp he with he | he
  · obtain ⟨d, hd, rfl⟩ := List.mem_map.mp he
    exact ⟨data_mem_vertices (c.inputs_mem w hw d hd), worker_mem_vertices hw⟩
  · obtain ⟨d, hd, rfl⟩ := List.mem_map.mp he
    exact ⟨worker_mem_vertices hw, data_mem_vertices (c.outputs_mem w hw d hd)⟩

section Order

variable {order : List Vertex} (horder : IsTopologicalOrder c.vertices c.edges order)

include horder

theorem order_nodup : order.Nodup := horder.perm.nodup_iff.mpr c.vertices_nodup

theorem mem_workers_iff {w : Worker V} : w ∈ order.filterMap c.worker? ↔ w ∈ c.workers := by
  rw [List.mem_filterMap]
  constructor
  · rintro ⟨v, -, hv⟩
    exact (worker?_eq_some.mp hv).1
  · intro hw
    exact ⟨.worker w.name, horder.perm.mem_iff.mpr (worker_mem_vertices hw),
      worker?_eq_some.mpr ⟨hw, rfl⟩⟩

theorem idxOf_lt_of_dependsOn {w u : Worker V} (h : c.DependsOn w u) :
    order.idxOf (.worker u.name) < order.idxOf (.worker w.name) := by
  obtain ⟨d, hin, hout⟩ := h.shared
  exact Nat.lt_trans (horder.lt _ (output_mem_edges h.right hout))
    (horder.lt _ (input_mem_edges h.left hin))

theorem idxOf_lt_of_transGen {w u : Worker V} (h : Relation.TransGen c.DependsOn w u) :
    order.idxOf (.worker u.name) < order.idxOf (.worker w.name) := by
  induction h with
  | single h => exact idxOf_lt_of_dependsOn horder h
  | tail _ h ih => exact Nat.lt_trans (idxOf_lt_of_dependsOn horder h) ih

theorem pairwise_idxOf : (order.filterMap c.worker?).Pairwise fun w u =>
    order.idxOf (.worker w.name) < order.idxOf (.worker u.name) := by
  refine List.Pairwise.filterMap (R := fun v x => order.idxOf v < order.idxOf x) c.worker? ?_ ?_
  · intro v x hlt w hw u hu
    rw [← (worker?_eq_some.mp hw).2, ← (worker?_eq_some.mp hu).2]
    exact hlt
  · refine List.pairwise_iff_getElem.mpr fun i j hi hj hij => ?_
    rw [(order_nodup horder).idxOf_getElem i hi, (order_nodup horder).idxOf_getElem j hj]
    exact hij

theorem workers_nodup_of_order : (order.filterMap c.worker?).Nodup :=
  (pairwise_idxOf horder).imp fun {w u} hlt (heq : w = u) => Nat.lt_irrefl _ (heq ▸ hlt)

theorem orderly (hc : c.WellFormed) : OrderlyWorkers (order.filterMap c.worker?) := by
  refine ⟨fun t ht => ?_, fun t ht d hd hout => ?_, ?_⟩
  · obtain ⟨w, hw, rfl⟩ := List.mem_map.mp ht
    exact hc.functional w ((mem_workers_iff horder).mp hw)
  · obtain ⟨w, hw, rfl⟩ := List.mem_map.mp ht
    have hmem := (mem_workers_iff horder).mp hw
    exact Nat.lt_irrefl _ (idxOf_lt_of_dependsOn horder ⟨hmem, hmem, d, hd, hout⟩)
  · rw [List.pairwise_map]
    refine List.Pairwise.imp_of_mem (fun {w u} hw hu hlt => ?_) (pairwise_idxOf horder)
    have hwmem := (mem_workers_iff horder).mp hw
    have humem := (mem_workers_iff horder).mp hu
    refine ⟨fun d hd hout => ?_, fun d hd hout => ?_⟩
    · exact Nat.lt_asymm hlt (idxOf_lt_of_dependsOn horder ⟨hwmem, humem, d, hd, hout⟩)
    · have hne : w ≠ u := by
        rintro rfl
        exact Nat.lt_irrefl _ hlt
      exact hc.oneWriter w hwmem u humem hne d hd hout

end Order

/-! ## The passes -/

variable [DecidableEq V]

theorem resolveWorkers_append (force : Bool) (ws us : List (Worker V)) (s : DataNodes V) :
    resolveWorkers force (ws ++ us) s =
      ((resolveWorkers force us (resolveWorkers force ws s).1).1,
        (resolveWorkers force ws s).2 ++
          (resolveWorkers force us (resolveWorkers force ws s).1).2) := by
  induction ws generalizing s with
  | nil => rfl
  | cons w ws ih =>
    rw [List.cons_append, resolveWorkers, resolveWorkers]
    split_ifs
    · rw [ih]
      rfl
    · exact ih s

theorem visit_eq (c : ExpertContainer V) (force : Bool) (v : Vertex) (s : DataNodes V)
    (resolved : List (Worker V)) :
    (if (force || c.isDirty s v) = true then
        (c.resolveVertex s v, resolved ++ (c.worker? v).toList)
      else (s, resolved)) =
      ((resolveWorkers force (c.worker? v).toList s).1,
        resolved ++ (resolveWorkers force (c.worker? v).toList s).2) := by
  rw [resolveVertex]
  cases hv : c.worker? v with
  | none =>
    rw [Option.toList_none, List.append_nil]
    exact (ite_self _).trans (Prod.ext rfl (List.append_nil resolved).symm)
  | some w =>
    obtain ⟨-, rfl⟩ := worker?_eq_some.mp hv
    have hdirty : c.isDirty s (.worker w.name) = w.isDirty s := by
      rw [isDirty, hv]
      rfl
    rw [hdirty, Option.toList_some, resolveWorkers]
    split_ifs
    · rfl
    · exact Prod.ext rfl (List.append_nil resolved).symm

theorem firstPass_eq (c : ExpertContainer V) (force : Bool) {start stop : Vertex}
    {vs : List Vertex} (hnodup : vs.Nodup) {encountered : Bool}
    (hstart : encountered = true ∨ vs.head? = some start) (hstop : vs.getLast? = some stop)
    (s : DataNodes V) (resolved : List (Worker V)) :
    c.firstPass start stop force vs encountered s resolved =
      ((resolveWorkers force (vs.filterMap c.worker?) s).1,
        resolved ++ (resolveWorkers force (vs.filterMap c.worker?) s).2) := by
  induction vs generalizing encountered s resolved with
  | nil => cases hstop
  | cons v rest ih =>
    have hencountered : (encountered || v == start) = true := by
      rcases hstart with rfl | hhead
      · rfl
      · rw [List.head?_cons, Option.some_inj] at hhead
        rw [hhead, beq_self_eq_true, Bool.or_true]
    have hsplit : (v :: rest).filterMap c.worker? =
        (c.worker? v).toList ++ rest.filterMap c.worker? := by
      rw [List.filterMap_cons]
      cases c.worker? v <;> rfl
    rw [firstPass, hencountered, Bool.true_and, visit_eq, hsplit, resolveWorkers_append]
    dsimp only
    cases rest with
    | nil =>
      rw [List.getLast?_singleton, Option.some_inj] at hstop
      rw [hstop, if_pos (beq_self_eq_true stop), List.filterMap_nil, resolveWorkers,
        List.append_nil]
    | cons u rest =>
      have hlast : (u :: rest).getLast? = some stop := by
        rw [← hstop, List.getLast?_cons_cons]
      have hne : ¬ (v == stop) = true := by
        intro heq
        rw [beq_iff_eq] at heq
        exact (List.nodup_cons.mp hnodup).1 (heq ▸ List.mem_of_getLast? hlast)
      rw [if_neg hne, ih (List.nodup_cons.mp hnodup).2 (Or.inl rfl) hlast, List.append_assoc]

omit [DecidableEq V] in
theorem values_secondPass (resolved : List (Worker V)) (s : DataNodes V) :
    DataNodes.values (secondPass resolved s) = s.values := by
  induction resolved generalizing s with
  | nil => rfl
  | cons w resolved ih =>
    refine (ih (w.markClean s)).trans (funext fun d => ?_)
    rw [DataNodes.values, Worker.markClean]
    split_ifs <;> rfl

omit [DecidableEq V] in
theorem dirty_secondPass (resolved : List (Worker V)) (s : DataNodes V) (d : String) :
    (secondPass resolved s d).dirty = true ↔
      (s d).dirty = true ∧ ∀ w ∈ resolved, d ∉ w.inputs := by
  induction resolved generalizing s with
  | nil => exact ⟨fun h => ⟨h, fun w hw => absurd hw List.not_mem_nil⟩, fun h => h.1⟩
  | cons w resolved ih =>
    have hmark : (w.markClean s d).dirty = true ↔ (s d).dirty = true ∧ d ∉ w.inputs := by
      rw [Worker.markClean]
      split_ifs with hd
      · exact iff_of_false Bool.noConfusion fun h => h.2 hd
      · exact (and_iff_left hd).symm
    rw [secondPass, List.foldl_cons]
    refine (ih (w.markClean s)).trans ?_
    rw [hmark, and_assoc, List.forall_mem_cons]

/-! ## Resolving -/

theorem resolveHelper_eq {topoSort : TopologicalSort} {order : List Vertex}
    (hsort : topoSort c.vertices c.edges = some order) (hnodup : order.Nodup) (force : Bool)
    (s : DataNodes V) :
    c.resolveHelper topoSort "" "" force s =
      .ok (resolveWorkers force (order.filterMap c.worker?) s).2
        (secondPass (resolveWorkers force (order.filterMap c.worker?) s).2
          (resolveWorkers force (order.filterMap c.worker?) s).1) := by
  unfold resolveHelper
  rw [hsort]
  cases order with
  | nil => rfl
  | cons first rest =>
    have hpass := c.firstPass_eq force hnodup (Or.inr rfl : false = true ∨ _)
      (List.getLast?_eq_some_getLast (List.cons_ne_nil first rest)) s []
    rw [List.nil_append] at hpass
    change EStateM.Result.ok (c.firstPass first _ force (first :: rest) false s []).2
      (secondPass (c.firstPass first _ force (first :: rest) false s []).2
        (c.firstPass first _ force (first :: rest) false s []).1) = _
    rw [hpass]

section Resolve

variable {order : List Vertex} (horder : IsTopologicalOrder c.vertices c.edges order)
  (hc : c.WellFormed) {force : Bool} {s : DataNodes V}
  (hpending : force = true ∨ ∀ w ∈ c.workers, w.Pending s)

include horder hc hpending

theorem values_of_order :
    (resolveWorkers force (order.filterMap c.worker?) s).1.values =
      c.fromScratch order s.values :=
  values_resolveWorkers (orderly horder hc) (hpending.imp_right fun hall w hw =>
    hall w ((mem_workers_iff horder).mp hw))

omit hpending in
theorem clean_of_order {w : Worker V} (hw : w ∈ c.workers) {d : String} (hd : d ∈ w.inputs) :
    (secondPass (resolveWorkers force (order.filterMap c.worker?) s).2
      (resolveWorkers force (order.filterMap c.worker?) s).1 d).dirty = false := by
  refine Bool.eq_false_iff.mpr fun hdirty => ?_
  obtain ⟨hbefore, hunread⟩ := (dirty_secondPass _ _ d).mp hdirty
  refine hunread w ?_ hd
  exact (mem_resolveWorkers (orderly horder hc) (workers_nodup_of_order horder)
    ((mem_workers_iff horder).mpr hw)).mpr (Or.inr ⟨d, hd, hbefore⟩)

theorem fullyResolved_of_order :
    c.FullyResolved (secondPass (resolveWorkers force (order.filterMap c.worker?) s).2
      (resolveWorkers force (order.filterMap c.worker?) s).1) := by
  refine ⟨fun w hw => ?_, fun w hw d hd => clean_of_order horder hc hw hd⟩
  rw [values_secondPass, values_of_order horder hc hpending]
  exact runAll_settled (orderly horder hc) w.toTask
    (List.mem_map_of_mem ((mem_workers_iff horder).mpr hw))

end Resolve

omit [DecidableEq V] in
theorem fromScratch_eq (hc : c.WellFormed) {order order' : List Vertex}
    (horder : IsTopologicalOrder c.vertices c.edges order)
    (horder' : IsTopologicalOrder c.vertices c.edges order') (v : String → V) :
    c.fromScratch order v = c.fromScratch order' v := by
  have hmem : ∀ t, t ∈ (order.filterMap c.worker?).map Worker.toTask ↔
      t ∈ (order'.filterMap c.worker?).map Worker.toTask := by
    intro t
    rw [List.mem_map, List.mem_map]
    refine exists_congr fun w => and_congr_left fun _ => ?_
    rw [mem_workers_iff horder, mem_workers_iff horder']
  refine runAll_eq_of_settled (orderly horder hc)
    (fun t ht => runAll_settled (orderly horder' hc) t ((hmem t).mp ht)) fun d hd => ?_
  exact (runAll_of_notMem (orderly horder' hc).functional
    fun t ht => hd t ((hmem t).mpr ht)).symm

theorem resolves_of_order {order : List Vertex}
    (horder : IsTopologicalOrder c.vertices c.edges order) (hc : c.WellFormed) {s : DataNodes V}
    (hpending : ∀ w ∈ c.workers, w.Pending s) :
    c.Resolves s (secondPass (resolveWorkers false (order.filterMap c.worker?) s).2
        (resolveWorkers false (order.filterMap c.worker?) s).1)
      (resolveWorkers false (order.filterMap c.worker?) s).2 := by
  have hsub : (resolveWorkers false (order.filterMap c.worker?) s).2.Sublist
      (order.filterMap c.worker?) := resolveWorkers_sublist
  have hran : ∀ w ∈ c.workers, w ∈ (resolveWorkers false (order.filterMap c.worker?) s).2 ↔
      ∃ d ∈ w.inputs,
        ((resolveWorkers false (order.filterMap c.worker?) s).1 d).dirty = true := by
    intro w hw
    rw [mem_resolveWorkers (orderly horder hc) (workers_nodup_of_order horder)
      ((mem_workers_iff horder).mpr hw), or_iff_right Bool.false_ne_true]
  have hdirty : ∀ d, ((resolveWorkers false (order.filterMap c.worker?) s).1 d).dirty = true ↔
      (s d).dirty = true ∨ ∃ w ∈ (resolveWorkers false (order.filterMap c.worker?) s).2, ∃ x,
        (d, x) ∈ w.writes (resolveWorkers false (order.filterMap c.worker?) s).1.values ∧
          x ≠ (s d).data := fun d => dirty_resolveWorkers (orderly horder hc)
  refine ⟨fun order' horder' => ?_, hsub.nodup (workers_nodup_of_order horder), fun w => ?_, ?_,
    fun w hw d hd => clean_of_order horder hc hw hd⟩
  · rw [values_secondPass, values_of_order horder hc (Or.inr hpending)]
    exact fromScratch_eq hc horder horder' _
  · rw [values_secondPass]
    constructor
    · intro hw
      induction hrank : order.idxOf (.worker w.name) using Nat.strong_induction_on generalizing w
        with
      | _ n ih =>
        have hmem := (mem_workers_iff horder).mp (hsub.subset hw)
        obtain ⟨d, hd, hend⟩ := (hran w hmem).mp hw
        rcases (hdirty d).mp hend with hwas | ⟨u, hu, x, hx, hne⟩
        · exact .dirty hmem hd hwas
        · have humem := (mem_workers_iff horder).mp (hsub.subset hu)
          have hlt := idxOf_lt_of_dependsOn horder (w := w) (u := u) ⟨hmem, humem, d, hd,
            ((hc.functional u humem).mem_outputs _ d).mpr ⟨x, hx⟩⟩
          exact .changed (ih _ (hrank ▸ hlt) u hu rfl) hx hne hmem hd
    · intro haffected
      induction haffected with
      | dirty hw hd hwas => exact (hran _ hw).mpr ⟨_, hd, (hdirty _).mpr (Or.inl hwas)⟩
      | changed _ hx hne hw hd ih =>
        exact (hran _ hw).mpr ⟨_, hd, (hdirty _).mpr (Or.inr ⟨_, ih, _, hx, hne⟩)⟩
  · refine ((pairwise_idxOf horder).sublist hsub).imp fun {w u} hlt hdepends => ?_
    exact Nat.lt_asymm hlt (idxOf_lt_of_transGen horder hdepends)

/-! ## Calls -/

omit [DecidableEq V] in
theorem FullyResolved.pending {s : DataNodes V} (h : c.FullyResolved s) :
    ∀ w ∈ c.workers, w.Pending s := fun w hw => Or.inr (h.settled w hw)

theorem pending_setByUser {w : Worker V} (hw : w.Functional) {s : DataNodes V}
    (h : w.Pending s) {name : String} (value : V) (hname : name ∉ w.outputs) :
    w.Pending (Function.update s name ((s name).setByUser value)) := by
  have hother : ∀ d, d ≠ name →
      Function.update s name ((s name).setByUser value) d = s d := fun d hd =>
    Function.update_of_ne hd _ _
  rcases h with ⟨d, hd, hdirty⟩ | hsettled
  · refine Or.inl ⟨d, hd, ?_⟩
    by_cases heq : d = name
    · rw [heq, Function.update_self, DataNode.dirty_setByUser]
      exact Or.inl (heq ▸ hdirty)
    · rw [hother d heq]
      exact hdirty
  · by_cases hchanged : name ∈ w.inputs ∧ value ≠ (s name).data
    · refine Or.inl ⟨name, hchanged.1, ?_⟩
      rw [Function.update_self, DataNode.dirty_setByUser]
      exact Or.inr hchanged.2
    · refine Or.inr (hw.settled_congr (fun d hd => ?_) (fun d hd => ?_) hsettled)
      · by_cases heq : d = name
        · have hsame : value = (s name).data := not_not.mp fun hne => hchanged ⟨heq ▸ hd, hne⟩
          rw [DataNodes.values, DataNodes.values, heq, Function.update_self,
            DataNode.data_setByUser, hsame]
        · rw [DataNodes.values, DataNodes.values, hother d heq]
      · have hne : d ≠ name := by
          rintro rfl
          exact hname hd
        rw [DataNodes.values, DataNodes.values, hother d hne]

variable {topoSort : TopologicalSort}

theorem pending_resolveHelper (hsort : IsTopologicalSort topoSort) (hc : c.WellFormed)
    (force : Bool) {s : DataNodes V} (h : ∀ w ∈ c.workers, w.Pending s) :
    ∃ ran t, c.resolveHelper topoSort "" "" force s = .ok ran t ∧
      ∀ w ∈ c.workers, w.Pending t := by
  obtain ⟨order, hsorted⟩ :=
    hsort.complete c.vertices c.edges c.vertices_nodup c.edges_ends hc.acyclic
  have horder := hsort.sound _ _ _ hsorted
  exact ⟨_, _, resolveHelper_eq hsorted (order_nodup horder) force s,
    (fullyResolved_of_order horder hc (Or.inr h)).pending⟩

theorem stateAfter_commit (topoSort : TopologicalSort) (c : ExpertContainer V) (name : String) (value : V)
    (s : DataNodes V) :
    Stateful.stateAfter (c.commit topoSort name value s) = s ∨
      Stateful.stateAfter (c.commit topoSort name value s) =
        Function.update s name ((s name).setByUser value) ∨
      Stateful.stateAfter (c.commit topoSort name value s) =
        Stateful.stateAfter (c.resolveHelper topoSort "" "" false
          (Function.update s name ((s name).setByUser value))) := by
  unfold commit
  cases c.property name with
  | error e => exact Or.inl rfl
  | ok d =>
    refine Or.inr ?_
    change Stateful.stateAfter ((if _ then _ else _ : ExpertM V PUnit)
      (Function.update s name ((s name).setByUser value))) = _ ∨
      Stateful.stateAfter ((if _ then _ else _ : ExpertM V PUnit)
        (Function.update s name ((s name).setByUser value))) = _
    split_ifs
    · refine Or.inr ?_
      change Stateful.stateAfter (EStateM.bind (c.resolveHelper topoSort "" "" false) _ _) = _
      rw [EStateM.bind]
      cases c.resolveHelper topoSort "" "" false
        (Function.update s name ((s name).setByUser value)) <;> rfl
    · exact Or.inl rfl

theorem stateAfter_retrieve (topoSort : TopologicalSort) (c : ExpertContainer V) (name : String) (s : DataNodes V) :
    Stateful.stateAfter (c.retrieve topoSort name s) = s ∨
      Stateful.stateAfter (c.retrieve topoSort name s) =
        Stateful.stateAfter (c.resolveHelper topoSort "" "" false s) := by
  unfold retrieve
  cases c.property name with
  | error e => exact Or.inl rfl
  | ok d =>
    change Stateful.stateAfter ((if _ then _ else _ : ExpertM V V) s) = _ ∨
      Stateful.stateAfter ((if _ then _ else _ : ExpertM V V) s) = _
    split_ifs
    · refine Or.inr ?_
      change Stateful.stateAfter (EStateM.bind (c.resolveHelper topoSort "" "" false) _ _) = _
      rw [EStateM.bind]
      cases c.resolveHelper topoSort "" "" false s <;> rfl
    · exact Or.inl rfl

theorem pending_perform (hsort : IsTopologicalSort topoSort) (hc : c.WellFormed)
    {s : DataNodes V} (h : ∀ w ∈ c.workers, w.Pending s) {call : ExpertCall V}
    (huser : ∀ name value, call = .commit name value → ∀ w ∈ c.workers, name ∉ w.outputs) :
    ∀ w ∈ c.workers, w.Pending (call.perform topoSort c s) := by
  cases call with
  | commit name value =>
    have hset : ∀ w ∈ c.workers,
        w.Pending (Function.update s name ((s name).setByUser value)) := fun w hw =>
      pending_setByUser (hc.functional w hw) (h w hw) value (huser name value rfl w hw)
    rw [ExpertCall.perform]
    rcases stateAfter_commit topoSort c name value s with heq | heq | heq
    · rw [heq]
      exact h
    · rw [heq]
      exact hset
    · obtain ⟨ran, t, ht, hpending⟩ := pending_resolveHelper hsort hc false hset
      rw [heq, ht]
      exact hpending
  | retrieve name =>
    rw [ExpertCall.perform]
    rcases stateAfter_retrieve topoSort c name s with heq | heq
    · rw [heq]
      exact h
    · obtain ⟨ran, t, ht, hpending⟩ := pending_resolveHelper hsort hc false h
      rw [heq, ht]
      exact hpending
  | resolveAll force =>
    obtain ⟨ran, t, ht, hpending⟩ := pending_resolveHelper hsort hc force h
    rw [ExpertCall.perform, resolveAll, ht]
    exact hpending
  | resolveFrom name =>
    obtain ⟨ran, t, ht, hpending⟩ := pending_resolveHelper hsort hc false h
    rw [ExpertCall.perform, resolveFrom, ht]
    exact hpending
  | resolveTo name =>
    obtain ⟨ran, t, ht, hpending⟩ := pending_resolveHelper hsort hc false h
    rw [ExpertCall.perform, resolveTo, ht]
    exact hpending

/-- **Resolving after any calls.**  From a state in which everything is resolved, after any writes of
properties that no worker sets, reads, and resolutions, forced or not, `resolve_all` leaves the
values that all workers lead to from scratch, in whatever topological order; it runs the affected
workers, each once and after those that it depends on; and what a worker reads is clean. -/
theorem resolveAll_after_calls (hsort : IsTopologicalSort topoSort) (c : ExpertContainer V)
    (hc : c.WellFormed) {s₀ : DataNodes V} (hs₀ : c.FullyResolved s₀)
    (calls : List (ExpertCall V))
    (huser : ∀ name value, .commit name value ∈ calls → ∀ w ∈ c.workers, name ∉ w.outputs) :
    ∃ ran t, c.resolveAll topoSort false
        (calls.foldl (ExpertCall.perform topoSort c) s₀) = .ok ran t ∧
      c.Resolves (calls.foldl (ExpertCall.perform topoSort c) s₀) t ran := by
  have hpending : ∀ (s : DataNodes V), (∀ w ∈ c.workers, w.Pending s) →
      ∀ w ∈ c.workers, w.Pending (calls.foldl (ExpertCall.perform topoSort c) s) := by
    clear hs₀ s₀
    induction calls with
    | nil => exact fun s h => h
    | cons call calls ih =>
      intro s h
      rw [List.foldl_cons]
      refine ih (fun name value hmem => huser name value (List.mem_cons_of_mem call hmem)) _
        (pending_perform hsort hc h fun name value heq => huser name value ?_)
      rw [heq]
      exact List.mem_cons_self
  obtain ⟨order, hsorted⟩ :=
    hsort.complete c.vertices c.edges c.vertices_nodup c.edges_ends hc.acyclic
  have horder := hsort.sound _ _ _ hsorted
  exact ⟨_, _, resolveHelper_eq hsorted (order_nodup horder) false _,
    resolves_of_order horder hc (hpending s₀ hs₀.pending)⟩

/-- A worker that sets `b` to one more than `a`. -/
def plusOne : Worker ℕ where
  name := "A+1=B"
  inputs := ["A"]
  outputs := ["B"]
  writes := fun v => [("B", v "A" + 1)]

/-- The worker and what it needs. -/
def plusOneContainer : ExpertContainer ℕ where
  dataNodes := [{ name := "A", isProperty := true }, { name := "B" }]
  workers := [plusOne]
  dataNodes_nodup := by decide
  workers_nodup := List.nodup_singleton _
  inputs_mem := by
    intro w hw
    rw [List.mem_singleton.mp hw]
    decide
  outputs_mem := by
    intro w hw
    rw [List.mem_singleton.mp hw]
    decide

theorem plusOneContainer_wellFormed : plusOneContainer.WellFormed := by
  refine ⟨not_transGen_self_of_rank
    (fun v => if v = .data "A" then 0 else if v = .data "B" then 2 else 1) fun a b hab => ?_, ?_, ?_⟩
  · have hedges : ∀ e ∈ plusOneContainer.edges, (if e.1 = .data "A" then 0 else
        if e.1 = .data "B" then 2 else 1) < if e.2 = .data "A" then 0 else
          if e.2 = .data "B" then 2 else 1 := by decide
    exact hedges (a, b) hab
  · intro w hw
    rw [List.mem_singleton.mp hw]
    refine ⟨fun v v' h => ?_, fun v d => ?_⟩
    · show [("B", v "A" + 1)] = [("B", v' "A" + 1)]
      rw [h "A" (List.mem_singleton_self _)]
    · show d ∈ ["B"] ↔ ∃ x, (d, x) ∈ [("B", v "A" + 1)]
      rw [List.mem_singleton]
      constructor
      · rintro rfl
        exact ⟨_, List.mem_singleton_self _⟩
      · rintro ⟨x, hx⟩
        exact (Prod.mk.inj (List.mem_singleton.mp hx)).1
  · intro w hw u hu hne
    rw [List.mem_singleton.mp hw, List.mem_singleton.mp hu] at hne
    exact absurd rfl hne

/-- The user writes `a`, and `b` follows. -/
theorem resolveAll_after_commit :
    ∃ ran t, plusOneContainer.resolveAll findTopologicalOrder false
        ([.commit "A" 5].foldl (ExpertCall.perform findTopologicalOrder plusOneContainer)
          fun d => { data := if d = "B" then 1 else 0, dirty := false }) = .ok ran t ∧
      plusOneContainer.Resolves
        ([.commit "A" 5].foldl (ExpertCall.perform findTopologicalOrder plusOneContainer)
          fun d => { data := if d = "B" then 1 else 0, dirty := false }) t ran := by
  refine resolveAll_after_calls findTopologicalOrder_isTopologicalSort plusOneContainer
    plusOneContainer_wellFormed ⟨fun w hw => ?_, fun w hw d hd => rfl⟩ [.commit "A" 5]
    fun name value hmem w hw => ?_
  · rw [List.mem_singleton.mp hw]
    exact Function.update_eq_self_iff.mpr (by decide)
  · rw [List.mem_singleton.mp hw]
    injection List.mem_singleton.mp hmem with hname
    rw [hname]
    decide

end ExpertContainer
end Experts
end UhdHost
