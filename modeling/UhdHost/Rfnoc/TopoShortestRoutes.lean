import UhdHost.Rfnoc.TopoRoutes

/-!
# When the topology graph finds a shortest route

The search for shortest paths goes by vertices, and the edges of the route are looked up afterwards,
the first one between each pair of vertices.  So the route has the vertices of a shortest path, but
of parallel edges it has the one that was added first, which need not be the lightest one
(`getRoute_shortest_iff`).

The library promises a tree of shortest paths, but not which one.  So the condition is about what
is true of every search that the library might have.
-/

namespace UhdHost
namespace Rfnoc
namespace TopoGraph

open ShortestPaths

variable {g : TopoGraph} {search : GraphSearches} {src dst : TopoNode} {s t : ℕ}

/-! ## The network -/

/-- The edges with the weights of their `topo_edge_t`. -/
def network (g : TopoGraph) : Network ℕ AdjlistEdge ℤ where
  edges := g.edges
  source := AdjlistEdge.source
  target := AdjlistEdge.target
  weight e := (g.infoOf e).getWeight

theorem isPath_network {u v : ℕ} {es : List AdjlistEdge} :
    g.network.IsPath u v es ↔ (adjlistNetwork g.edges).IsPath u v es :=
  g.network.isPath_congr (adjlistNetwork g.edges) rfl rfl rfl

theorem reachable_network {u v : ℕ} :
    g.network.Reachable u v ↔ (adjlistNetwork g.edges).Reachable u v :=
  exists_congr fun _ => isPath_network

namespace WellFormed

variable (hg : g.WellFormed)

include hg

theorem weight_eq {e : AdjlistEdge} (he : e ∈ g.edges) : g.network.weight e = e.weight := by
  obtain ⟨info, hinfo, hweight⟩ := hg.infoAt_eq he
  rw [hg.infoAt_eq_infoOf he] at hinfo
  have heq : g.infoOf e = info := Except.ok.inj hinfo
  rw [hweight, ← heq]
  exact rfl

theorem isDist_network {u v : ℕ} {d : ℤ} :
    g.network.IsDist u v d ↔ (adjlistNetwork g.edges).IsDist u v d :=
  g.network.isDist_congr (adjlistNetwork g.edges) rfl rfl rfl fun _ he => hg.weight_eq he

theorem pathWeight_network {u v : ℕ} {es : List AdjlistEdge} (h : g.network.IsPath u v es) :
    g.network.pathWeight es = (adjlistNetwork g.edges).pathWeight es :=
  congrArg List.sum (List.map_congr_left fun e he =>
    hg.weight_eq (g.network.mem_edges_of_isPath h e he))

theorem nonnegFrom_network {u : ℕ} :
    g.network.NonnegFrom u ↔ (adjlistNetwork g.edges).NonnegFrom u := by
  refine forall₂_congr fun e he => ?_
  rw [reachable_network, hg.weight_eq he]
  exact Iff.rfl

theorem searchable_network {u : ℕ} :
    Searchable g.network u ↔ Searchable (adjlistNetwork g.edges) u := by
  have hfits : (∀ e ∈ g.network.edges, ∀ d, g.network.IsDist u (g.network.source e) d →
        d < intMax → g.network.weight e < intMax → d + g.network.weight e ≤ intMax) ↔
      ∀ e ∈ (adjlistNetwork g.edges).edges, ∀ d,
        (adjlistNetwork g.edges).IsDist u ((adjlistNetwork g.edges).source e) d →
          d < intMax → (adjlistNetwork g.edges).weight e < intMax →
            d + (adjlistNetwork g.edges).weight e ≤ intMax := by
    refine forall₂_congr fun e he => forall_congr' fun d => ?_
    rw [hg.isDist_network, hg.weight_eq he]
    exact Iff.rfl
  constructor
  · intro h
    exact ⟨hg.nonnegFrom_network.mp h.nonneg, hfits.mp h.fits⟩
  · intro h
    exact ⟨hg.nonnegFrom_network.mpr h.nonneg, hfits.mpr h.fits⟩

theorem edges_lt : ∀ e ∈ g.edges, e.source < g.vertices.length ∧ e.target < g.vertices.length :=
  fun _ he => ⟨hg.source_lt he, hg.target_lt he⟩

theorem lt_of_reachable {u v : ℕ} (hu : u < g.vertices.length)
    (h : (adjlistNetwork g.edges).Reachable u v) : v < g.vertices.length := by
  obtain ⟨es, hes⟩ := h
  rcases List.eq_nil_or_concat' es with rfl | ⟨es', e, rfl⟩
  · exact hes ▸ hu
  · obtain ⟨-, he, rfl⟩ := (adjlistNetwork g.edges).isPath_concat.mp hes
    exact hg.target_lt he

end WellFormed

/-! ## Routes along paths -/

/-- The element of a route for an edge. -/
def hop (g : TopoGraph) (e : AdjlistEdge) : RouteElement := ⟨g.nodeAt e.source, g.infoOf e⟩

/-- The route along a path. -/
def routeAlong (g : TopoGraph) (es : List AdjlistEdge) (dst : TopoNode) : List RouteElement :=
  es.map g.hop ++ [endOfRoute dst]

/-- The edge that `get_edge` finds where it is asked for the ends of an edge. -/
def lookup (g : TopoGraph) (e : AdjlistEdge) : AdjlistEdge := (g.edge e.source e.target).getD e

theorem edge_eq_some {u v : ℕ} {e : AdjlistEdge} (h : g.edge u v = some e) :
    e ∈ g.edges ∧ e.source = u ∧ e.target = v := by
  have hfound := List.find?_some h
  rw [decide_eq_true_iff] at hfound
  exact ⟨List.mem_of_find?_eq_some h, hfound⟩

theorem edge_eq_lookup {e : AdjlistEdge} (he : e ∈ g.edges) :
    g.edge e.source e.target = some (g.lookup e) := by
  unfold lookup
  cases hfound : g.edge e.source e.target with
  | some e₀ => exact rfl
  | none =>
    have hnone := List.find?_eq_none.mp hfound e he
    exact absurd (decide_eq_true ⟨rfl, rfl⟩) hnone

theorem lookup_spec {e : AdjlistEdge} (he : e ∈ g.edges) :
    g.lookup e ∈ g.edges ∧ (g.lookup e).source = e.source ∧ (g.lookup e).target = e.target :=
  edge_eq_some (edge_eq_lookup he)

theorem isPath_lookup {u v : ℕ} {es : List AdjlistEdge}
    (h : (adjlistNetwork g.edges).IsPath u v es) :
    (adjlistNetwork g.edges).IsPath u v (es.map g.lookup) := by
  induction es generalizing u with
  | nil => exact h
  | cons e es ih =>
    obtain ⟨he, rfl, hes⟩ := h
    obtain ⟨hmem, hsource, htarget⟩ := lookup_spec he
    have hsame : (adjlistNetwork g.edges).target (g.lookup e) = (adjlistNetwork g.edges).target e :=
      htarget
    refine ⟨hmem, hsource, ?_⟩
    rw [hsame]
    exact ih hes

theorem getEdge_eq {u v : ℕ} {n m : TopoNode} (hn : g.nodeMap n.uniqueId = some u)
    (hm : g.nodeMap m.uniqueId = some v) {e : AdjlistEdge} (he : g.edge u v = some e) :
    g.getEdge n m = g.infoAt e := by
  have hu : g.vertexOf n = .ok u := vertexOf_eq_ok.mpr hn
  have hv : g.vertexOf m = .ok v := vertexOf_eq_ok.mpr hm
  simp only [getEdge, hu, hv, he]

theorem getEdge_eq_ok {n m : TopoNode} {info : TopoEdge} (h : g.getEdge n m = .ok info) :
    ∃ u v e, g.nodeMap n.uniqueId = some u ∧ g.nodeMap m.uniqueId = some v ∧ e ∈ g.edges ∧
      e.source = u ∧ e.target = v := by
  unfold getEdge at h
  cases hu : g.vertexOf n with
  | error e =>
    rw [hu] at h
    cases h
  | ok u =>
    cases hv : g.vertexOf m with
    | error e =>
      simp only [hu, hv] at h
      cases h
    | ok v =>
      cases he : g.edge u v with
      | none =>
        simp only [hu, hv, he] at h
        cases h
      | some e =>
        obtain ⟨hmem, hsource, htarget⟩ := edge_eq_some he
        exact ⟨u, v, e, vertexOf_eq_ok.mp hu, vertexOf_eq_ok.mp hv, hmem, hsource, htarget⟩

namespace WellFormed

variable (hg : g.WellFormed)

include hg

theorem uniqueId_eq {n m : TopoNode} {v : ℕ} (hn : g.nodeMap n.uniqueId = some v)
    (hm : g.nodeMap m.uniqueId = some v) : n.uniqueId = m.uniqueId :=
  (hg.getElem?_of_nodeMap hn).2.symm.trans (hg.getElem?_of_nodeMap hm).2

theorem equal_iff_of_nodeMap (hdev : src.deviceId ≠ nullDeviceId)
    (hsrc : g.nodeMap src.uniqueId = some s) {curr : TopoNode} {v : ℕ}
    (hcurr : g.nodeMap curr.uniqueId = some v) : curr.equal src = true ↔ v = s := by
  rw [TopoNode.equal_iff]
  constructor
  · rintro ⟨-, hid⟩
    rw [hid, hsrc] at hcurr
    exact (Option.some.inj hcurr).symm
  · rintro rfl
    have hid := hg.uniqueId_eq hcurr hsrc
    exact ⟨TopoNode.deviceId_eq_of_uniqueId hid ▸ hdev, hid⟩

theorem traceRoute_along (hdev : src.deviceId ≠ nullDeviceId)
    (hsrc : g.nodeMap src.uniqueId = some s) {rpathMap : ℕ → Option ℕ} {es : List AdjlistEdge}
    (hhops : ∀ e ∈ es, rpathMap e.target = some e.source ∧ e.target ≠ s) {v : ℕ}
    (hes : (adjlistNetwork g.edges).IsPath s v es) {curr : TopoNode}
    (hcurr : g.nodeMap curr.uniqueId = some v) (route : List RouteElement) {fuel : ℕ}
    (hfuel : es.length < fuel) :
    g.traceRoute rpathMap src fuel curr route =
      some (.ok ((es.map g.lookup).map g.hop ++ route)) := by
  induction es using List.reverseRecOn generalizing v curr route fuel with
  | nil =>
    obtain rfl : s = v := hes
    obtain ⟨fuel, rfl⟩ := Nat.exists_eq_add_of_lt hfuel
    exact if_pos ((hg.equal_iff_of_nodeMap hdev hsrc hcurr).mpr rfl)
  | append_singleton es e ih =>
    obtain ⟨hpath, he, rfl⟩ := (adjlistNetwork g.edges).isPath_concat.mp hes
    obtain ⟨hhop, hne⟩ := hhops e (List.mem_append_right _ (List.mem_singleton_self e))
    rw [List.length_append, List.length_singleton] at hfuel
    obtain ⟨fuel, rfl⟩ := Nat.exists_eq_add_of_lt hfuel
    have hnot : ¬ curr.equal src = true :=
      fun heq => hne ((hg.equal_iff_of_nodeMap hdev hsrc hcurr).mp heq)
    have hprev : g.nodeMap (g.nodeAt e.source).uniqueId = some e.source :=
      hg.nodeMap_nodeAt (hg.source_lt he)
    have hvertex : g.vertexOf curr = .ok e.target := vertexOf_eq_ok.mpr hcurr
    obtain ⟨hmem, hsource, -⟩ := lookup_spec he
    have hedge : g.getEdge (g.nodeAt e.source) curr = .ok (g.infoOf (g.lookup e)) :=
      (getEdge_eq hprev hcurr (edge_eq_lookup he)).trans (hg.infoAt_eq_infoOf hmem)
    have hrest := ih (fun e' he' => hhops e' (List.mem_append_left _ he')) hpath hprev
      (⟨g.nodeAt e.source, g.infoOf (g.lookup e)⟩ :: route)
      (Nat.lt_of_lt_of_le (Nat.lt_succ_self es.length) (Nat.le_add_right _ fuel))
    rw [traceRoute, if_neg hnot]
    simp only [hvertex, hhop, hedge]
    rw [hrest, List.map_append, List.map_append, List.append_assoc]
    simp only [List.map_cons, List.map_nil, hop, hsource, List.singleton_append]

end WellFormed

theorem traceRoute_sound (hsrc : g.nodeMap src.uniqueId = some s) {rpathMap : ℕ → Option ℕ}
    {fuel : ℕ} {curr : TopoNode} {route result : List RouteElement} {v : ℕ}
    (hcurr : g.nodeMap curr.uniqueId = some v)
    (h : g.traceRoute rpathMap src fuel curr route = some (.ok result)) :
    src.deviceId ≠ nullDeviceId ∧ (adjlistNetwork g.edges).Reachable s v ∧
      ∃ hops, result = hops ++ route := by
  induction fuel generalizing curr route v with
  | zero => cases h
  | succ fuel ih =>
    rw [traceRoute] at h
    by_cases heq : curr.equal src = true
    · rw [if_pos heq] at h
      obtain ⟨hdev, hid⟩ := TopoNode.equal_iff.mp heq
      rw [hid, hsrc, Option.some_inj] at hcurr
      obtain rfl : route = result := Except.ok.inj (Option.some.inj h)
      exact ⟨TopoNode.deviceId_eq_of_uniqueId hid ▸ hdev,
        hcurr ▸ Network.reachable_refl _ s, [], rfl⟩
    · have hvertex : g.vertexOf curr = .ok v := vertexOf_eq_ok.mpr hcurr
      rw [if_neg heq] at h
      simp only [hvertex] at h
      cases hprev : rpathMap v with
      | none =>
        simp only [hprev] at h
        cases h
      | some p =>
        cases hedge : g.getEdge (g.nodeAt p) curr with
        | error e =>
          simp only [hprev, hedge] at h
          cases h
        | ok info =>
          simp only [hprev, hedge] at h
          obtain ⟨u, v', e, hu, hv', he, rfl, rfl⟩ := getEdge_eq_ok hedge
          obtain ⟨hdev, hreach, hops, hresult⟩ := ih hu h
          rw [hcurr, Option.some_inj] at hv'
          refine ⟨hdev, hv' ▸ Network.Reachable.edge hreach he, hops ++ [⟨g.nodeAt p, info⟩], ?_⟩
          rw [hresult, List.append_assoc, List.singleton_append]

theorem traceRoute_mono {rpathMap : ℕ → Option ℕ} {fuel fuel' : ℕ} (hle : fuel ≤ fuel')
    {curr : TopoNode} {route : List RouteElement} {r : Except UhdError (List RouteElement)}
    (h : g.traceRoute rpathMap src fuel curr route = some r) :
    g.traceRoute rpathMap src fuel' curr route = some r := by
  induction fuel generalizing fuel' curr route with
  | zero => cases h
  | succ fuel ih =>
    obtain ⟨k, rfl⟩ := Nat.exists_eq_add_of_le' hle
    rw [← Nat.add_assoc, traceRoute]
    rw [traceRoute] at h
    by_cases heq : curr.equal src = true
    · rw [if_pos heq] at h ⊢
      exact h
    · rw [if_neg heq] at h ⊢
      cases hvertex : g.vertexOf curr with
      | error e =>
        simp only [hvertex] at h ⊢
        exact h
      | ok v =>
        cases hprev : rpathMap v with
        | none =>
          simp only [hvertex, hprev] at h ⊢
          exact h
        | some p =>
          cases hedge : g.getEdge (g.nodeAt p) curr with
          | error e =>
            simp only [hvertex, hprev, hedge] at h ⊢
            exact h
          | ok info =>
            simp only [hvertex, hprev, hedge] at h ⊢
            exact ih (Nat.le_add_left fuel k) h

theorem getRoute_mono {fuel fuel' : ℕ} (hle : fuel ≤ fuel')
    {r : Except UhdError (List RouteElement)} (h : g.getRoute search src dst fuel = some r) :
    g.getRoute search src dst fuel' = some r := by
  unfold getRoute at h ⊢
  cases hfind : g.findReversePaths search src dst with
  | error e =>
    simp only [hfind] at h ⊢
    exact h
  | ok rpathMap =>
    simp only [hfind] at h ⊢
    cases htrace : g.traceRoute rpathMap src fuel dst [endOfRoute dst] with
    | none =>
      rw [htrace] at h
      cases h
    | some r' =>
      rw [htrace] at h
      rw [traceRoute_mono hle htrace]
      exact h

theorem getRoute_unique {fuel fuel' : ℕ} {r r' : Except UhdError (List RouteElement)}
    (h : g.getRoute search src dst fuel = some r) (h' : g.getRoute search src dst fuel' = some r') :
    r = r' := by
  have hmax := getRoute_mono (Nat.le_max_left fuel fuel') h
  rw [getRoute_mono (Nat.le_max_right fuel fuel') h'] at hmax
  exact (Option.some.inj hmax).symm

/-! ## When `get_route` returns -/

/-- The nodes have devices and are not the same, the search comes to an end in order, and the
destination is not infinitely far away. -/
structure Routable (g : TopoGraph) (src dst : TopoNode) (s t : ℕ) : Prop where
  src_device : src.deviceId ≠ nullDeviceId
  dst_device : dst.deviceId ≠ nullDeviceId
  ne : s ≠ t
  searchable : Searchable g.network s
  within : g.network.Within intMax s t

theorem assertRoute_eq (hsrc : g.nodeMap src.uniqueId = some s)
    (hdst : g.nodeMap dst.uniqueId = some t) (verb : String) :
    g.assertRoute src dst verb = .ok () := by
  rw [assertRoute, hsrc, hdst]
  exact rfl

theorem findReversePaths_eq (hsrc : g.nodeMap src.uniqueId = some s)
    (hdst : g.nodeMap dst.uniqueId = some t) {pred : ℕ → ℕ}
    (hpred : search.dijkstraShortestPaths g.vertices.length g.edges s = .ok pred)
    (hsome : (g.reversePathMap pred t).isSome = true) :
    g.findReversePaths search src dst = .ok (g.reversePathMap pred) := by
  have hs : g.vertexOf src = .ok s := vertexOf_eq_ok.mpr hsrc
  have ht : g.vertexOf dst = .ok t := vertexOf_eq_ok.mpr hdst
  simp only [findReversePaths, assertRoute_eq hsrc hdst, hs, hpred, ht, hsome, if_true]

theorem findReversePaths_eq_ok (hsrc : g.nodeMap src.uniqueId = some s)
    (hdst : g.nodeMap dst.uniqueId = some t) {rpathMap : ℕ → Option ℕ}
    (h : g.findReversePaths search src dst = .ok rpathMap) :
    ∃ pred, search.dijkstraShortestPaths g.vertices.length g.edges s = .ok pred ∧
      pred t ≠ t := by
  have hs : g.vertexOf src = .ok s := vertexOf_eq_ok.mpr hsrc
  have ht : g.vertexOf dst = .ok t := vertexOf_eq_ok.mpr hdst
  simp only [findReversePaths, assertRoute_eq hsrc hdst, hs, ht] at h
  cases hpred : search.dijkstraShortestPaths g.vertices.length g.edges s with
  | error e =>
    simp only [hpred] at h
    cases h
  | ok pred =>
    refine ⟨pred, rfl, fun hfixed => ?_⟩
    have hnone : g.reversePathMap pred t = none := by
      rw [reversePathMap, if_pos hfixed.symm, ite_self]
    simp only [hpred, hnone] at h
    cases h

theorem checkRoute_eq_ok {route result : List RouteElement}
    (h : checkRoute src dst route = .ok result) :
    result = route ∧ (route.getLast?.any fun back => back.node.equal dst) = true := by
  unfold checkRoute at h
  split at h
  · cases h
  · split at h
    · cases h
    · rename_i hback
      split at h
      · cases h
      · exact ⟨(Except.ok.inj h).symm, not_not.mp hback⟩

namespace WellFormed

variable (hg : g.WellFormed) (hsrc : g.nodeMap src.uniqueId = some s)
  (hdst : g.nodeMap dst.uniqueId = some t)

include hg hsrc hdst

theorem getRoute_along (hs : src.deviceId ≠ nullDeviceId) (ht : dst.deviceId ≠ nullDeviceId)
    (hne : s ≠ t) {pred : ℕ → ℕ}
    (hpred : search.dijkstraShortestPaths g.vertices.length g.edges s = .ok pred)
    {es : List AdjlistEdge} (hes : (adjlistNetwork g.edges).IsPath s t es)
    (hnodup : ((adjlistNetwork g.edges).visited s es).Nodup)
    (hhops : ∀ e ∈ es, pred e.target = e.source) {fuel : ℕ} (hfuel : es.length < fuel) :
    g.getRoute search src dst fuel = some (.ok (g.routeAlong (es.map g.lookup) dst)) := by
  have hmap : ∀ e ∈ es, g.reversePathMap pred e.target = some e.source ∧ e.target ≠ s := by
    intro e he
    obtain ⟨hdiff, hfirst⟩ := Network.ne_of_nodup_visited _ hes hnodup e he
    have hlt := hg.target_lt (Network.mem_edges_of_isPath _ hes e he)
    refine ⟨?_, hfirst⟩
    have hdiff : e.target ≠ e.source := Ne.symm hdiff
    rw [reversePathMap, if_pos hlt, hhops e he, if_neg hdiff]
  have hnil : es ≠ [] := by
    rintro rfl
    exact hne hes
  have hlast : (g.reversePathMap pred t).isSome = true := by
    rcases List.eq_nil_or_concat' es with hnil' | ⟨es', e, rfl⟩
    · exact absurd hnil' hnil
    · obtain ⟨-, -, rfl⟩ := (adjlistNetwork g.edges).isPath_concat.mp hes
      have he := (hmap e (List.mem_append_right _ (List.mem_singleton_self e))).1
      exact Option.isSome_iff_exists.mpr ⟨e.source, he⟩
  have htrace := hg.traceRoute_along hs hsrc hmap hes hdst [endOfRoute dst] hfuel
  rw [getRoute, findReversePaths_eq hsrc hdst hpred hlast]
  simp only [htrace]
  refine congrArg some ?_
  -- the assertions at the end hold
  have hback : (g.routeAlong (es.map g.lookup) dst).getLast? = some (endOfRoute dst) :=
    List.getLast?_concat
  obtain ⟨e, es', rfl⟩ := List.exists_cons_of_ne_nil hnil
  obtain ⟨he, hsource, -⟩ := hes
  have hsource' : (g.lookup e).source = s := (lookup_spec he).2.1.trans hsource
  have hfront : (g.routeAlong ((e :: es').map g.lookup) dst).head? = some (g.hop (g.lookup e)) :=
    rfl
  have hsrc_equal : (g.nodeAt s).equal src = true :=
    (hg.equal_iff_of_nodeMap hs hsrc
      (hg.nodeMap_nodeAt (hg.getElem?_of_nodeMap hsrc).1)).mpr rfl
  have hdst_equal : dst.equal dst = true := TopoNode.equal_iff.mpr ⟨ht, rfl⟩
  change checkRoute src dst (g.routeAlong ((e :: es').map g.lookup) dst) = _
  simp only [checkRoute, hback, hfront, Option.any_some, hop, hsource', endOfRoute, hsrc_equal,
    hdst_equal, decide_true, not_true_eq_false, if_false]

omit hg in
theorem getRoute_sound {fuel : ℕ} {route : List RouteElement}
    (h : g.getRoute search src dst fuel = some (.ok route)) :
    src.deviceId ≠ nullDeviceId ∧ dst.deviceId ≠ nullDeviceId ∧
      (adjlistNetwork g.edges).Reachable s t ∧
        ∃ pred, search.dijkstraShortestPaths g.vertices.length g.edges s = .ok pred ∧
          pred t ≠ t := by
  unfold getRoute at h
  cases hfind : g.findReversePaths search src dst with
  | error e =>
    simp only [hfind] at h
    cases h
  | ok rpathMap =>
    simp only [hfind] at h
    cases htrace : g.traceRoute rpathMap src fuel dst [endOfRoute dst] with
    | none =>
      simp only [htrace] at h
      cases h
    | some r =>
      cases r with
      | error e =>
        simp only [htrace] at h
        cases h
      | ok result =>
        simp only [htrace] at h
        obtain ⟨hdev, hreach, hops, rfl⟩ := traceRoute_sound hsrc hdst htrace
        obtain ⟨-, hback⟩ := checkRoute_eq_ok (Option.some.inj h)
        rw [List.getLast?_concat, Option.any_some] at hback
        exact ⟨hdev, (TopoNode.equal_iff.mp hback).1, hreach,
          findReversePaths_eq_ok hsrc hdst hfind⟩

theorem exists_getRoute (hsearch : search.Documented) (h : g.Routable src dst s t) :
    ∃ es d, (adjlistNetwork g.edges).IsPath s t es ∧
      (adjlistNetwork g.edges).IsDist s t d ∧ d < intMax ∧
      (adjlistNetwork g.edges).pathWeight es = d ∧
      ((adjlistNetwork g.edges).visited s es).Nodup ∧
      ∀ fuel, es.length < fuel →
        g.getRoute search src dst fuel = some (.ok (g.routeAlong (es.map g.lookup) dst)) := by
  obtain ⟨d, hd, hlt⟩ := h.within
  have hd := hg.isDist_network.mp hd
  have hok := hg.searchable_network.mp h.searchable
  obtain ⟨pred, hpred, htree⟩ := hsearch.shortest _ _ s hg.edges_lt
    (hg.getElem?_of_nodeMap hsrc).1 hok
  obtain ⟨es, hes, hweight, hnodup, hhops⟩ := htree.exists_treePath hok.nonneg hd hlt
  exact ⟨es, d, hes, hd, hlt, hweight, hnodup, fun fuel hfuel =>
    hg.getRoute_along hsrc hdst h.src_device h.dst_device h.ne hpred hes hnodup hhops hfuel⟩

theorem routable_of_getRoute
    (h : ∀ search : GraphSearches, search.Documented →
      ∃ fuel route, g.getRoute search src dst fuel = some (.ok route)) :
    g.Routable src dst s t := by
  have hlt := (hg.getElem?_of_nodeMap hsrc).1
  obtain ⟨fuel, route, hroute⟩ := h _ GraphSearches.documented_reference
  obtain ⟨hs, ht, -, -⟩ := getRoute_sound hsrc hdst hroute
  -- a search may throw where not all is in order
  have hok : Searchable (adjlistNetwork g.edges) s := by
    by_contra hnot
    obtain ⟨fuel, route, hroute⟩ := h _ (GraphSearches.documented_reference.answering
      g.vertices.length g.edges s (.error .outOfRange)
      (fun _ => ⟨_, rfl⟩) fun hok => absurd hok hnot)
    obtain ⟨-, -, -, pred, hpred, -⟩ := getRoute_sound hsrc hdst hroute
    rw [GraphSearches.dijkstra_answering] at hpred
    cases hpred
  obtain ⟨-, -, -, pred, hpred, hmoved⟩ := getRoute_sound hsrc hdst hroute
  obtain ⟨pred', hpred', htree⟩ := GraphSearches.documented_reference.shortest _ _ s hg.edges_lt
    hlt hok
  rw [hpred'] at hpred
  obtain rfl : pred' = pred := Except.ok.inj hpred
  refine ⟨hs, ht, ?_, hg.searchable_network.mpr hok, ?_⟩
  · rintro rfl
    exact hmoved htree.root
  · by_contra hnot
    refine hmoved (htree.lost t ?_)
    rintro ⟨d, hd, hbound⟩
    exact hnot ⟨d, hg.isDist_network.mpr hd, hbound⟩

end WellFormed

/-! ## When the route is a shortest one -/

/-- **On each shortest path from `s` to `t` that visits no vertex twice, no edge is lighter than the
first edge between its two vertices.** -/
def FirstIsLightest (g : TopoGraph) (s t : ℕ) : Prop :=
  ∀ es d, g.network.IsPath s t es → g.network.IsDist s t d → g.network.pathWeight es = d →
    (g.network.visited s es).Nodup →
      ∀ e ∈ es, g.network.weight (g.lookup e) ≤ g.network.weight e

/-- **`get_route` returns the route along a path of edges of the graph, from the source to the
destination, that no path is lighter than, and `get_distance` returns its weight.** -/
def ShortestRoute (search : GraphSearches) (g : TopoGraph) (src dst : TopoNode) (s t : ℕ) : Prop :=
  ∃ fuel es, g.getRoute search src dst fuel = some (.ok (g.routeAlong es dst)) ∧
    g.network.IsPath s t es ∧
    (∀ es', g.network.IsPath s t es' → g.network.pathWeight es ≤ g.network.pathWeight es') ∧
    g.getDistance search src dst fuel = some (.ok (g.network.pathWeight es))

theorem intAdd_eq {a b : ℤ} (ha : 0 ≤ a) (hb : 0 ≤ b) (hle : a + b ≤ intMax) :
    intAdd a b = a + b := by
  unfold intMax at hle
  unfold intAdd
  rw [Int.bmod_eq_of_le (by omega) (by omega)]

theorem foldl_intAdd {es : List AdjlistEdge} (hes : ∀ e ∈ es, 0 ≤ g.network.weight e) {a : ℤ}
    (ha : 0 ≤ a) (hle : a + g.network.pathWeight es ≤ intMax) :
    (es.map g.hop).foldl (fun a element => intAdd a element.edge.getWeight) a =
      a + g.network.pathWeight es := by
  induction es generalizing a with
  | nil => exact (Int.add_zero a).symm
  | cons e es ih =>
    rw [Network.pathWeight_cons, ← Int.add_assoc] at hle ⊢
    have hweight := hes e List.mem_cons_self
    have hrest : 0 ≤ g.network.pathWeight es := by
      refine List.sum_nonneg fun w hw => ?_
      obtain ⟨e', he', rfl⟩ := List.mem_map.mp hw
      exact hes e' (List.mem_cons_of_mem _ he')
    have hsum : intAdd a (g.hop e).edge.getWeight = a + g.network.weight e :=
      intAdd_eq ha hweight (le_trans (le_add_of_nonneg_right hrest) hle)
    rw [List.map_cons, List.foldl_cons, hsum]
    exact ih (fun e' he' => hes e' (List.mem_cons_of_mem _ he')) (add_nonneg ha hweight) hle

theorem getRouteDistance_routeAlong {es : List AdjlistEdge}
    (hes : ∀ e ∈ es, 0 ≤ g.network.weight e) (hle : g.network.pathWeight es ≤ intMax) :
    getRouteDistance (g.routeAlong es dst) = g.network.pathWeight es := by
  have hnonneg : 0 ≤ g.network.pathWeight es := by
    refine List.sum_nonneg fun w hw => ?_
    obtain ⟨e', he', rfl⟩ := List.mem_map.mp hw
    exact hes e' he'
  rw [getRouteDistance, routeAlong, List.foldl_append,
    foldl_intAdd hes (le_refl 0) (by rw [Int.zero_add]; exact hle), Int.zero_add]
  change intAdd (g.network.pathWeight es) 0 = _
  rw [intAdd_eq hnonneg (le_refl 0) (by rw [Int.add_zero]; exact hle), Int.add_zero]

theorem getDistance_eq {fuel : ℕ} {route : List RouteElement}
    (h : g.getRoute search src dst fuel = some (.ok route)) :
    g.getDistance search src dst fuel = some (.ok (getRouteDistance route)) := by
  rw [getDistance, h]

theorem getDistance_unique {fuel fuel' : ℕ} {d d' : ℤ}
    (h : g.getDistance search src dst fuel = some (.ok d))
    (h' : g.getDistance search src dst fuel' = some (.ok d')) : d = d' := by
  unfold getDistance at h h'
  cases hroute : g.getRoute search src dst fuel with
  | none =>
    rw [hroute] at h
    cases h
  | some r =>
    cases hroute' : g.getRoute search src dst fuel' with
    | none =>
      rw [hroute'] at h'
      cases h'
    | some r' =>
      obtain rfl := getRoute_unique hroute hroute'
      rw [hroute] at h
      rw [hroute', h] at h'
      exact Except.ok.inj (Option.some.inj h')

theorem weight_le_of_isDist {es : List AdjlistEdge} {d : ℤ} (hd : g.network.IsDist s t d)
    (hes : g.network.IsPath s t es) (hweight : g.network.pathWeight es = d) :
    ∀ e ∈ es, g.network.weight e ≤ g.network.weight (g.lookup e) := by
  intro e he
  obtain ⟨es₁, es₂, rfl⟩ := List.append_of_mem he
  obtain ⟨w, hes₁, hedge, hsource, hes₂⟩ := g.network.isPath_append.mp hes
  obtain ⟨hmem, hsource', htarget'⟩ := lookup_spec hedge
  have hother : g.network.IsPath s t (es₁ ++ g.lookup e :: es₂) := by
    refine g.network.isPath_append.mpr ⟨w, hes₁, hmem, hsource'.trans hsource, ?_⟩
    have hsame : g.network.target (g.lookup e) = g.network.target e := htarget'
    rw [hsame]
    exact hes₂
  have hle := hd.le _ hother
  rw [← hweight, Network.pathWeight_append, Network.pathWeight_append, Network.pathWeight_cons,
    Network.pathWeight_cons] at hle
  exact le_of_add_le_add_right (le_of_add_le_add_left hle)

namespace WellFormed

variable (hg : g.WellFormed) (hsrc : g.nodeMap src.uniqueId = some s)
  (hdst : g.nodeMap dst.uniqueId = some t)

include hg hsrc hdst

theorem shortestRoute_of_firstIsLightest (hsearch : search.Documented)
    (h : g.Routable src dst s t) (hfirst : g.FirstIsLightest s t) :
    g.ShortestRoute search src dst s t := by
  obtain ⟨es, d, hes, hd, hlt, hweight, hnodup, hroute⟩ :=
    hg.exists_getRoute hsrc hdst hsearch h
  have hes := isPath_network.mpr hes
  have hd := hg.isDist_network.mpr hd
  have hweight : g.network.pathWeight es = d := (hg.pathWeight_network hes).trans hweight
  have hlookup : g.network.IsPath s t (es.map g.lookup) :=
    isPath_network.mpr (isPath_lookup (isPath_network.mp hes))
  have hle : g.network.pathWeight (es.map g.lookup) ≤ d := by
    rw [← hweight, Network.pathWeight, Network.pathWeight, List.map_map]
    exact List.sum_le_sum (hfirst es d hes hd hweight hnodup)
  have heq : g.network.pathWeight (es.map g.lookup) = d := le_antisymm hle (hd.le _ hlookup)
  have hnonneg : ∀ e ∈ es.map g.lookup, 0 ≤ g.network.weight e := by
    intro e he
    exact h.searchable.nonneg e (Network.mem_edges_of_isPath _ hlookup e he)
      (Network.reachable_source _ (Network.reachable_refl _ s) hlookup e he)
  have hroute := hroute (es.length + 1) (Nat.lt_succ_self _)
  refine ⟨es.length + 1, es.map g.lookup, hroute, hlookup, fun es' hes' => ?_, ?_⟩
  · rw [heq]
    exact hd.le es' hes'
  · rw [getDistance_eq hroute, getRouteDistance_routeAlong hnonneg (heq ▸ le_of_lt hlt)]

theorem firstIsLightest_of_shortestRoute (hroutable : g.Routable src dst s t)
    (h : ∀ search : GraphSearches, search.Documented → g.ShortestRoute search src dst s t) :
    g.FirstIsLightest s t := by
  intro es d hes hd hweight hnodup e he
  by_contra hheavy
  have hlighter := not_le.mp hheavy
  obtain ⟨d', hd', hbound⟩ := hroutable.within
  obtain rfl := hd.unique hd'
  have hadj := isPath_network.mp hes
  have hok := hg.searchable_network.mp hroutable.searchable
  have hlt := (hg.getElem?_of_nodeMap hsrc).1
  obtain ⟨pred, -, htree⟩ := GraphSearches.documented_reference.shortest _ _ s hg.edges_lt hlt hok
  -- a search whose tree has this path
  have htree' := Network.reroute_isShortestPathTree htree hok.nonneg hadj
    ((hg.pathWeight_network hes).symm.trans hweight) (hg.isDist_network.mp hd) hbound hnodup
  have hdoc := GraphSearches.documented_reference.answering g.vertices.length g.edges s
    (.ok ((adjlistNetwork g.edges).reroute es pred)) (fun hneg => absurd hok.nonneg hneg) fun _ => ⟨_, rfl, htree'⟩
  obtain ⟨fuel, es', hroute, -, hmin, -⟩ := h _ hdoc
  have hhops : ∀ e ∈ es, (adjlistNetwork g.edges).reroute es pred e.target = e.source :=
    Network.reroute_target (List.nodup_cons.mp hnodup).2
  have hroute' := hg.getRoute_along hsrc hdst hroutable.src_device hroutable.dst_device
    hroutable.ne (GraphSearches.dijkstra_answering GraphSearches.reference ..) hadj hnodup hhops
    (Nat.lt_succ_self _)
  -- so the route has the edges that are found for this path, and is heavier than the path
  have hsame := List.append_cancel_right (Except.ok.inj (getRoute_unique hroute hroute'))
  have hsum : g.network.pathWeight es' = g.network.pathWeight (es.map g.lookup) := by
    have hinfo := congrArg (List.map fun element => element.edge.getWeight) hsame
    rw [List.map_map, List.map_map] at hinfo
    exact congrArg List.sum hinfo
  have hstrict : g.network.pathWeight es < g.network.pathWeight (es.map g.lookup) := by
    rw [Network.pathWeight, Network.pathWeight, List.map_map]
    exact List.sum_lt_sum _ _ (weight_le_of_isDist hd hes hweight) ⟨e, he, hlighter⟩
  exact absurd (hsum ▸ hmin es hes) (not_le.mpr hstrict)

end WellFormed

/-- **When the route is a shortest one**, in every graph that calls can make and for every two
nodes. -/
theorem getRoute_shortest_iff {calls : List TopoCall}
    (h : Transition.run TopoCall.step {} calls = some g)
    (hsrc : g.nodeMap src.uniqueId = some s) (hdst : g.nodeMap dst.uniqueId = some t) :
    (∀ search : GraphSearches, search.Documented → g.ShortestRoute search src dst s t) ↔
      g.Routable src dst s t ∧ g.FirstIsLightest s t := by
  have hg := wellFormed_of_run h
  constructor
  · intro hshort
    have hroutable := hg.routable_of_getRoute hsrc hdst fun search hsearch => by
      obtain ⟨fuel, es, hroute, -⟩ := hshort search hsearch
      exact ⟨fuel, _, hroute⟩
    exact ⟨hroutable, hg.firstIsLightest_of_shortestRoute hsrc hdst hroutable hshort⟩
  · rintro ⟨hroutable, hfirst⟩ search hsearch
    exact hg.shortestRoute_of_firstIsLightest hsrc hdst hsearch hroutable hfirst

/-! ## One connection, and two -/

/-- Two crossbars with a connection. -/
def connectedCalls : List TopoCall :=
  [.addNode (crossbar 1), .addEdge (crossbar 1) (crossbar 2) { srcPort := 0, dstPort := 0 }]

def connected : TopoGraph := (Transition.run TopoCall.step {} connectedCalls).getD {}

theorem mem_connected_edges {e : AdjlistEdge} (he : e ∈ connected.edges) : e = ⟨0, 1, 1, 0⟩ :=
  List.mem_singleton.mp he

theorem connected_nonneg : connected.network.NonnegFrom 0 := by
  intro e he _
  obtain rfl := mem_connected_edges he
  decide

theorem connected_isDist : connected.network.IsDist 0 1 1 where
  exists_path := ⟨[⟨0, 1, 1, 0⟩], ⟨List.mem_singleton_self _, rfl, rfl⟩, rfl⟩
  le es hes := by
    cases es with
    | nil => cases hes
    | cons e es =>
      obtain ⟨he, -, hrest⟩ := hes
      have hreach : connected.network.Reachable 0 (connected.network.target e) := by
        obtain rfl := mem_connected_edges he
        exact ⟨[⟨0, 1, 1, 0⟩], ⟨List.mem_singleton_self _, rfl, rfl⟩⟩
      have hnonneg := Network.pathWeight_nonneg connected_nonneg hreach hrest
      obtain rfl := mem_connected_edges he
      exact le_add_of_nonneg_right hnonneg

theorem connected_routable : connected.Routable (crossbar 1) (crossbar 2) 0 1 where
  src_device := by decide
  dst_device := by decide
  ne := by decide
  searchable := by
    refine ⟨connected_nonneg, fun e he d hd _ _ => ?_⟩
    obtain rfl := mem_connected_edges he
    rw [hd.unique (Network.isDist_self connected_nonneg)]
    decide
  within := ⟨1, connected_isDist, by decide⟩

theorem shortestRoute_connected :
    connected.ShortestRoute GraphSearches.reference (crossbar 1) (crossbar 2) 0 1 := by
  refine (getRoute_shortest_iff (rfl : Transition.run TopoCall.step {} connectedCalls = some connected)
     (by decide) (by decide)).mpr
    ⟨connected_routable, ?_⟩ _ GraphSearches.documented_reference
  intro es d hes _ _ _ e he
  obtain rfl := mem_connected_edges (Network.mem_edges_of_isPath _ hes e he)
  decide

/-- A lighter connection that was added later. -/
def parallelCalls : List TopoCall :=
  [.addNode (crossbar 1),
    .addEdge (crossbar 1) (crossbar 2) { srcPort := 0, dstPort := 0, weight := 5 },
    .addEdge (crossbar 1) (crossbar 2) { srcPort := 1, dstPort := 1 }]

def parallel : TopoGraph := (Transition.run TopoCall.step {} parallelCalls).getD {}

/-- **The heavier edge is taken** because it was there first. -/
theorem heavier_edge_taken :
    Transition.run TopoCall.step {} parallelCalls = some parallel ∧
      parallel.nodeMap (crossbar 1).uniqueId = some 0 ∧
      parallel.nodeMap (crossbar 2).uniqueId = some 1 ∧
      parallel.network.IsPath 0 1 [⟨0, 1, 1, 1⟩] ∧
      GraphSearches.reference.Documented ∧
      ¬ parallel.ShortestRoute GraphSearches.reference (crossbar 1) (crossbar 2) 0 1 := by
  have hlight : parallel.network.IsPath 0 1 [⟨0, 1, 1, 1⟩] :=
    ⟨List.mem_cons_of_mem _ (List.mem_singleton_self _), rfl, rfl⟩
  have hdistance : parallel.getDistance GraphSearches.reference (crossbar 1) (crossbar 2) 2 =
      some (.ok 5) := by rfl
  refine ⟨rfl, by decide, by decide, hlight, GraphSearches.documented_reference, ?_⟩
  rintro ⟨fuel, es, -, -, hmin, hreported⟩
  have hle := hmin _ hlight
  rw [← getDistance_unique hdistance hreported] at hle
  exact absurd hle (by decide)
end TopoGraph
end Rfnoc
end UhdHost
