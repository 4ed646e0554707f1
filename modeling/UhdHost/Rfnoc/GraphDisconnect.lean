import UhdHost.Rfnoc.GraphCalls

/-!
# Disconnecting two nodes

What a call of `disconnect` is there for (`DisconnectMeets`): the described edge is removed, then
those of the two nodes that have no edge left, and nothing else; it does not throw.

`disconnect_meets_iff` says in which calls this is what happens, in a graph that was built by
successful calls of `connect` and `disconnect`.  There are two ways to miss it.  If one of the two
nodes is not in the graph, the map is asked for it nevertheless.  And if a node loses its last edge,
which led back to the node itself, the node is removed as the source and then looked for as the
destination.
-/

namespace UhdHost
namespace Rfnoc
namespace RfnocGraph

open Stateful TopologicalOrder IndexMap

variable {ν : Type} [DecidableEq ν] {g : RfnocGraph ν} {topoSort : TopologicalSort ℕ}

/-! ## Graphs built by successful calls -/

theorem run_of_run_ok {calls : List (GraphCall ν)} (hcalls : ∀ call ∈ calls, call.IsEdgeCall)
    {g₀ : RfnocGraph ν} (h : Transition.run (GraphCall.stepOk topoSort) g₀ calls = some g) :
    Transition.run (GraphCall.step topoSort) g₀ calls = some g ∧
      Transition.EveryStep (GraphCall.step topoSort) (KeepsConnected topoSort) g₀ calls := by
  induction calls generalizing g₀ with
  | nil => exact ⟨h, trivial⟩
  | cons call calls ih =>
    obtain ⟨g₁, hstep, h⟩ := Transition.run_cons_eq_some.mp h
    unfold GraphCall.stepOk at hstep
    cases hresult : call.result topoSort g₀ with
    | error e g' =>
      rw [hresult] at hstep
      exact absurd hstep (by simp)
    | ok u g' =>
      rw [hresult] at hstep
      obtain rfl := Option.some.inj hstep
      have hstep' : GraphCall.step topoSort g₀ call = some g' := by
        rw [GraphCall.step, hresult]
        rfl
      obtain ⟨hrun, hevery⟩ := ih (fun c hc => hcalls c (List.mem_cons_of_mem _ hc)) h
      refine ⟨Transition.run_cons_eq_some.mpr ⟨g', hstep', hrun⟩, ?_, fun g₁ hg₁ => ?_⟩
      · cases call with
        | connect srcNode dstNode edgeInfo =>
          change isOk (g₀.connect topoSort srcNode dstNode edgeInfo) = true
          change g₀.connect topoSort srcNode dstNode edgeInfo = _ at hresult
          rw [hresult]
          rfl
        | disconnect srcNode dstNode edgeInfo => exact trivial
        | remove node => exact (hcalls _ List.mem_cons_self).elim
        | commit checkAndResolve => exact trivial
        | release => exact trivial
      · obtain rfl := Option.some.inj (hstep'.symm.trans hg₁)
        exact hevery

/-! ## What a disconnect is there for -/

/-- The edge is the described one. -/
def Describes (srcNode dstNode : ν) (edgeInfo info : GraphEdge ν) : Prop :=
  (describedEdge srcNode dstNode edgeInfo).isEqual info false = true

instance (srcNode dstNode : ν) (edgeInfo info : GraphEdge ν) :
    Decidable (Describes srcNode dstNode edgeInfo info) := by
  unfold Describes
  infer_instance

/-- The call ends normally, the described edge is gone and no other, the nodes that are gone are
those of the two that have no edge left, the map leads to every node's own vertex, and if the
described edge was not there, nothing has changed. -/
def DisconnectMeets (srcNode dstNode : ν) (edgeInfo : GraphEdge ν) (g : RfnocGraph ν) : Prop :=
  ∃ g', g.disconnect srcNode dstNode edgeInfo = .ok () g' ∧
    g'.infos = g.infos.filter (fun info => ¬ Describes srcNode dstNode edgeInfo info) ∧
    g'.vertices = g.vertices.filter
      (fun n => ¬ ((n = srcNode ∨ n = dstNode) ∧ ¬ g'.HasEdge n)) ∧
    Indexes g'.nodeMap g'.vertices ∧
    ((∀ info ∈ g.infos, ¬ Describes srcNode dstNode edgeInfo info) → g' = g)

/-- Both nodes are in the graph, or neither, and the call does not take its last edge from a node
that is connected to itself. -/
def DisconnectFits (srcNode dstNode : ν) (edgeInfo : GraphEdge ν) (g : RfnocGraph ν) : Prop :=
  (g.nodeMap srcNode = none ↔ g.nodeMap dstNode = none) ∧
    ¬ (srcNode = dstNode ∧ (∃ info ∈ g.infos, Describes srcNode dstNode edgeInfo info) ∧
      ∀ info ∈ g.infos, info.srcBlockid = srcNode ∨ info.dstBlockid = srcNode →
        Describes srcNode dstNode edgeInfo info)

section Meets

variable {srcNode dstNode : ν} {edgeInfo : GraphEdge ν} {i : ℕ}

theorem infos_cutEdge (hg : g.WellFormed) (hi : g.nodeMap srcNode = some i) :
    (g.cutEdge srcNode dstNode edgeInfo i).infos =
      g.infos.filter (fun info => ¬ Describes srcNode dstNode edgeInfo info) := by
  rw [cutEdge, removeOutEdgeIf_infos hg hi]
  refine List.filter_congr fun info _ => ?_
  unfold Describes
  rw [decide_not, Bool.decide_eq_true]

theorem Describes.ends {info : GraphEdge ν} (h : Describes srcNode dstNode edgeInfo info) :
    info.srcBlockid = srcNode ∧ info.dstBlockid = dstNode := by
  have hends := isEqual_false_iff.mp h
  exact ⟨hends.1.symm, hends.2.2.1.symm⟩

theorem hasEdge_cutEdge_iff (hg : g.WellFormed) (hi : g.nodeMap srcNode = some i) {n : ν} :
    (g.cutEdge srcNode dstNode edgeInfo i).HasEdge n ↔
      ∃ info ∈ g.infos, (info.srcBlockid = n ∨ info.dstBlockid = n) ∧
        ¬ Describes srcNode dstNode edgeInfo info := by
  rw [hasEdge_iff_infos, infos_cutEdge hg hi]
  constructor
  · rintro ⟨info, hmem, hends⟩
    rw [List.mem_filter, decide_eq_true_iff] at hmem
    exact ⟨info, hmem.1, hends, hmem.2⟩
  · rintro ⟨info, hmem, hends, hnot⟩
    exact ⟨info, List.mem_filter.mpr ⟨hmem, decide_eq_true hnot⟩, hends⟩

theorem cutEdge_of_not_described
    (hnone : ∀ info ∈ g.infos, ¬ Describes srcNode dstNode edgeInfo info) :
    g.cutEdge srcNode dstNode edgeInfo i = g := by
  have hedges : (g.edges.filter fun e => !(decide (e.source = i) &&
      (describedEdge srcNode dstNode edgeInfo).isEqual e.info false)) = g.edges := by
    refine List.filter_eq_self.mpr fun e he => ?_
    have hnot : ¬ (describedEdge srcNode dstNode edgeInfo).isEqual e.info false = true :=
      hnone e.info (List.mem_map.mpr ⟨e, he, rfl⟩)
    rw [Bool.not_eq_true] at hnot
    rw [hnot, Bool.and_false]
    rfl
  unfold cutEdge removeOutEdgeIf
  rw [hedges]

theorem nodeMap_cutSource_eq_none_iff (hg : g.WellFormed) (hconn : g.AllConnected)
    (hi : g.nodeMap srcNode = some i) (hdst : g.nodeMap dstNode ≠ none) :
    (g.cutSource srcNode dstNode edgeInfo i).nodeMap dstNode = none ↔
      srcNode = dstNode ∧ (∃ info ∈ g.infos, Describes srcNode dstNode edgeInfo info) ∧
        ∀ info ∈ g.infos, info.srcBlockid = srcNode ∨ info.dstBlockid = srcNode →
          Describes srcNode dstNode edgeInfo info := by
  have hmem : dstNode ∈ g.vertices := hg.indexes.mem_iff.mpr hdst
  rw [hg.cutSource.indexes.eq_none_iff, mem_cutSource hg hi, hasEdge_cutEdge_iff hg hi]
  constructor
  · intro hgone
    have hsame : dstNode = srcNode := by
      by_contra hne
      exact hgone ⟨hmem, Or.inl hne⟩
    have hall : ∀ info ∈ g.infos, info.srcBlockid = srcNode ∨ info.dstBlockid = srcNode →
        Describes srcNode dstNode edgeInfo info := by
      intro info hinfo hends
      by_contra hnot
      exact hgone ⟨hmem, Or.inr ⟨info, hinfo, hends, hnot⟩⟩
    obtain ⟨info, hinfo, hends⟩ := hasEdge_iff_infos.mp (hconn dstNode hmem)
    rw [hsame] at hends
    exact ⟨hsame.symm, ⟨info, hinfo, hall info hinfo hends⟩, hall⟩
  · rintro ⟨rfl, -, hall⟩ ⟨-, hne | ⟨info, hinfo, hends, hnot⟩⟩
    · exact hne rfl
    · exact hnot (hall info hinfo hends)

theorem disconnectMeets_of_ok (hg : g.WellFormed) (hconn : g.AllConnected)
    (hi : g.nodeMap srcNode = some i) {j : ℕ}
    (hj : (g.cutSource srcNode dstNode edgeInfo i).nodeMap dstNode = some j)
    (h : g.disconnect srcNode dstNode edgeInfo =
      .ok () ((g.cutSource srcNode dstNode edgeInfo i).removeIfUnconnected dstNode j)) :
    DisconnectMeets srcNode dstNode edgeInfo g := by
  have hcut : (g.cutEdge srcNode dstNode edgeInfo i).WellFormed :=
    hg.cutEdge srcNode dstNode edgeInfo i
  have hsource : (g.cutSource srcNode dstNode edgeInfo i).WellFormed := hg.cutSource
  have hinfos : ((g.cutSource srcNode dstNode edgeInfo i).removeIfUnconnected dstNode j).infos =
      g.infos.filter (fun info => ¬ Describes srcNode dstNode edgeInfo info) :=
    (removeIfUnconnected_infos hsource hj).trans
      ((removeIfUnconnected_infos hcut hi).trans (infos_cutEdge hg hi))
  have hedge : ∀ n, ((g.cutSource srcNode dstNode edgeInfo i).removeIfUnconnected
      dstNode j).HasEdge n ↔ (g.cutEdge srcNode dstNode edgeInfo i).HasEdge n := fun n =>
    (hasEdge_removeIfUnconnected hsource hj n).trans (hasEdge_cutSource hg hi n)
  refine ⟨_, h, hinfos, ?_, (hsource.removeIfUnconnected dstNode j).indexes, fun hnone => ?_⟩
  · rw [removeIfUnconnected_vertices hsource hj, cutSource, removeIfUnconnected_vertices hcut hi,
      List.filter_filter]
    refine List.filter_congr fun n _ => ?_
    rw [← Bool.decide_and, decide_eq_decide, ← cutSource, hedge, hasEdge_cutSource hg hi]
    constructor
    · rintro ⟨hdst, hsrc⟩ ⟨rfl | rfl, hnot⟩
      · exact hnot (hsrc.resolve_left fun hne => hne rfl)
      · exact hnot (hdst.resolve_left fun hne => hne rfl)
    · intro hkept
      constructor
      · by_cases hnd : n = dstNode
        · rw [hnd] at hkept
          exact Or.inr (not_not.mp fun hnot => hkept ⟨Or.inr rfl, hnot⟩)
        · exact Or.inl hnd
      · by_cases hns : n = srcNode
        · rw [hns] at hkept
          exact Or.inr (not_not.mp fun hnot => hkept ⟨Or.inl rfl, hnot⟩)
        · exact Or.inl hns
  · have hcutEdge : g.cutEdge srcNode dstNode edgeInfo i = g := cutEdge_of_not_described hnone
    have hsrcEdge : g.HasEdge srcNode := hconn srcNode
      (hg.indexes.mem_iff.mpr (hi ▸ Option.some_ne_none i))
    have hcutSource : g.cutSource srcNode dstNode edgeInfo i = g := by
      rw [cutSource, hcutEdge, removeIfUnconnected_of_hasEdge hg hi hsrcEdge]
    rw [hcutSource] at hj ⊢
    exact removeIfUnconnected_of_hasEdge hg hj
      (hconn dstNode (hg.indexes.mem_iff.mpr (hj ▸ Option.some_ne_none j)))

theorem not_disconnectMeets_of_error {e : UhdError} {g' : RfnocGraph ν}
    (h : g.disconnect srcNode dstNode edgeInfo = .error e g') :
    ¬ DisconnectMeets srcNode dstNode edgeInfo g := by
  rintro ⟨_, hok, -⟩
  rw [h] at hok
  exact absurd hok (by simp)

theorem not_describes_of_unknown (hg : g.WellFormed) (hsrc : g.nodeMap srcNode = none) :
    ∀ info ∈ g.infos, ¬ Describes srcNode dstNode edgeInfo info := by
  intro info hinfo hdescribes
  obtain ⟨e, he, rfl⟩ := List.mem_map.mp hinfo
  have hmap := hg.nodeMap_source he
  rw [hdescribes.ends.1, hsrc] at hmap
  exact absurd hmap (by simp)

theorem disconnectMeets_iff_fits (hg : g.WellFormed) (hconn : g.AllConnected) :
    DisconnectMeets srcNode dstNode edgeInfo g ↔ DisconnectFits srcNode dstNode edgeInfo g := by
  rcases disconnect_cases srcNode dstNode edgeInfo g with
    ⟨hsrc, hdst, h⟩ | ⟨hone, h⟩ | ⟨i, hi, hdst, ⟨hgone, h⟩ | ⟨j, hj, h⟩⟩
  · have hnone : ∀ info ∈ g.infos, ¬ Describes srcNode dstNode edgeInfo info :=
      not_describes_of_unknown hg hsrc
    refine iff_of_true ⟨g, h, ?_, ?_, hg.indexes, fun _ => rfl⟩ ⟨iff_of_true hsrc hdst, ?_⟩
    · exact (List.filter_eq_self.mpr fun info hinfo => decide_eq_true (hnone info hinfo)).symm
    · refine (List.filter_eq_self.mpr fun n hn => decide_eq_true ?_).symm
      exact fun hlost => hlost.2 (hconn n hn)
    · rintro ⟨-, ⟨info, hinfo, hdescribes⟩, -⟩
      exact hnone info hinfo hdescribes
  · refine iff_of_false (not_disconnectMeets_of_error h) fun hfits => ?_
    by_cases hsrc : g.nodeMap srcNode = none
    · exact hone.mp hsrc (hfits.1.mp hsrc)
    · exact hsrc (hone.mpr fun hdst => hsrc (hfits.1.mpr hdst))
  · refine iff_of_false (not_disconnectMeets_of_error h) fun hfits => ?_
    exact hfits.2 ((nodeMap_cutSource_eq_none_iff hg hconn hi hdst).mp hgone)
  · refine iff_of_true (disconnectMeets_of_ok hg hconn hi hj h) ⟨?_, fun hlast => ?_⟩
    · exact iff_of_false (hi ▸ Option.some_ne_none i) hdst
    · have hgone := (nodeMap_cutSource_eq_none_iff hg hconn hi hdst).mpr hlast
      exact absurd (hgone.symm.trans hj) (by simp)

end Meets

/-- **`disconnect` in a graph that was built by successful calls** of `connect` and `disconnect`
does what it is there for if and only if both nodes are in the graph or neither is, and the call
does not take its last edge from a node that is connected to itself. -/
theorem disconnect_meets_iff (hsort : topoSort.Sound) {callbacks : ν → NodeCallbacks ν}
    {calls : List (GraphCall ν)} (hcalls : ∀ call ∈ calls, call.IsEdgeCall)
    (h : Transition.run (GraphCall.stepOk topoSort) { callbacks := callbacks } calls = some g)
    (srcNode dstNode : ν) (edgeInfo : GraphEdge ν) :
    DisconnectMeets srcNode dstNode edgeInfo g ↔ DisconnectFits srcNode dstNode edgeInfo g := by
  obtain ⟨hrun, hkeeps⟩ := run_of_run_ok hcalls h
  exact disconnectMeets_iff_fits (wellFormed_of_run hsort hrun)
    (allConnected_of_run hsort hkeeps hrun)

instance (srcNode dstNode : ν) (edgeInfo : GraphEdge ν) (g : RfnocGraph ν) :
    Decidable (DisconnectFits srcNode dstNode edgeInfo g) := by
  unfold DisconnectFits
  infer_instance

theorem ringCalls_isEdgeCall : ∀ call ∈ ringCalls, call.IsEdgeCall := by
  intro call hcall
  rcases List.mem_cons.mp hcall with rfl | hcall
  · exact trivial
  · rw [List.mem_singleton.mp hcall]
    exact trivial

theorem disconnect_meets_iff_ring : ∃ g,
    Transition.run (GraphCall.stepOk findTopologicalOrder) {} ringCalls = some g ∧
      (DisconnectMeets 0 1 { srcBlockid := 0, dstBlockid := 1 } g ↔
        DisconnectFits 0 1 { srcBlockid := 0, dstBlockid := 1 } g) ∧
      DisconnectFits 0 1 { srcBlockid := 0, dstBlockid := 1 } g := by
  obtain ⟨g, hrun, hg⟩ := Option.map_eq_some_iff.mp (by decide +kernel :
    (Transition.run (GraphCall.stepOk findTopologicalOrder) {} ringCalls).map
      (fun g => decide (DisconnectFits 0 1 { srcBlockid := 0, dstBlockid := 1 } g)) = some true)
  exact ⟨g, hrun, disconnect_meets_iff findTopologicalOrder_sound ringCalls_isEdgeCall hrun 0 1 _,
    of_decide_eq_true hg⟩

/-- A node that is connected to itself, by a back edge. -/
def loopEdge : GraphEdge ℕ := { srcBlockid := 0, dstBlockid := 0, isForwardEdge := false }

/-- Taking away the only edge of a node, from the node to itself, throws. -/
theorem disconnect_loop_throws : ¬ ∀ (calls : List (GraphCall ℕ)) (g : RfnocGraph ℕ),
    (∀ call ∈ calls, call.IsEdgeCall) →
    Transition.run (GraphCall.stepOk findTopologicalOrder) {} calls = some g →
      ∀ srcNode dstNode edgeInfo, DisconnectMeets srcNode dstNode edgeInfo g := by
  intro h
  obtain ⟨g, hrun, hg⟩ := Option.map_eq_some_iff.mp (by decide +kernel :
    (Transition.run (GraphCall.stepOk findTopologicalOrder) {} [.connect 0 0 loopEdge]).map
      (fun g => isOk (g.disconnect 0 0 loopEdge)) = some false)
  obtain ⟨e, he⟩ := exists_error_of_isOk_eq_false hg
  refine not_disconnectMeets_of_error he (h _ g ?_ hrun 0 0 loopEdge)
  intro call hcall
  rw [List.mem_singleton.mp hcall]
  exact trivial

end RfnocGraph
end Rfnoc
end UhdHost
