import UhdHost.Rfnoc.TopoShortestRoutes

/-!
# When the queries of the topology graph agree

`has_route` asks whether there is a path at all, `get_route` whether the search has a predecessor for
the destination, and `get_best_route` asks the one before it calls the other.  They differ for a
node and itself, for nodes without a device, and where the search does not come to an end in order
(`queries_agree_iff`).
-/

namespace UhdHost
namespace Rfnoc
namespace TopoGraph

open ShortestPaths

variable {g : TopoGraph} {search : GraphSearches} {src dst : TopoNode} {s t : ℕ}

/-! ## Two nodes -/

theorem WellFormed.hasRoute_eq (hg : g.WellFormed) (hsearch : search.Documented)
    (hsrc : g.nodeMap src.uniqueId = some s) (hdst : g.nodeMap dst.uniqueId = some t) :
    ∃ b, g.hasRoute search src dst = .ok b ∧ (b = true ↔ g.network.Reachable s t) := by
  have hs : g.vertexOf src = .ok s := vertexOf_eq_ok.mpr hsrc
  have hlt := (hg.getElem?_of_nodeMap hsrc).1
  have hhas : g.hasRoute search src dst = .ok
      ((search.breadthFirstSearch g.vertices.length g.edges s).any fun v =>
        decide ((g.nodeAt v).uniqueId = dst.uniqueId)) := by
    simp only [hasRoute, assertRoute_eq hsrc hdst, hs]
  refine ⟨_, hhas, ?_⟩
  rw [List.any_eq_true, reachable_network]
  constructor
  · rintro ⟨v, hv, hid⟩
    have hreach := (hsearch.breadthFirst _ _ s hg.edges_lt hlt v).mp hv
    have hfound := hg.nodeMap_nodeAt (hg.lt_of_reachable hlt hreach)
    rw [of_decide_eq_true hid, hdst, Option.some_inj] at hfound
    exact hfound ▸ hreach
  · intro hreach
    exact ⟨t, (hsearch.breadthFirst _ _ s hg.edges_lt hlt t).mpr hreach,
      decide_eq_true (hg.getElem?_of_nodeMap hdst).2⟩

/-- **`get_route` and `get_distance` return exactly when `has_route` says that there is a route.** -/
def QueriesAgree (search : GraphSearches) (g : TopoGraph) (src dst : TopoNode) : Prop :=
  ∃ b, g.hasRoute search src dst = .ok b ∧
    ((∃ fuel route, g.getRoute search src dst fuel = some (.ok route)) ↔ b = true) ∧
    ((∃ fuel d, g.getDistance search src dst fuel = some (.ok d)) ↔ b = true)

theorem exists_getDistance_iff :
    (∃ fuel d, g.getDistance search src dst fuel = some (.ok d)) ↔
      ∃ fuel route, g.getRoute search src dst fuel = some (.ok route) := by
  refine exists_congr fun fuel => ?_
  unfold getDistance
  constructor
  · rintro ⟨d, hd⟩
    cases hroute : g.getRoute search src dst fuel with
    | none =>
      rw [hroute] at hd
      cases hd
    | some r =>
      cases r with
      | error e =>
        rw [hroute] at hd
        cases hd
      | ok route => exact ⟨route, rfl⟩
  · rintro ⟨route, hroute⟩
    rw [hroute]
    exact ⟨_, rfl⟩

theorem WellFormed.queriesAgree_iff (hg : g.WellFormed) (hsrc : g.nodeMap src.uniqueId = some s)
    (hdst : g.nodeMap dst.uniqueId = some t) :
    (∀ search : GraphSearches, search.Documented → g.QueriesAgree search src dst) ↔
      (g.network.Reachable s t → g.Routable src dst s t) := by
  constructor
  · intro h hreach
    refine hg.routable_of_getRoute hsrc hdst fun search hsearch => ?_
    obtain ⟨b, hb, hroute, -⟩ := h search hsearch
    obtain ⟨b', hb', hreach'⟩ := hg.hasRoute_eq hsearch hsrc hdst
    rw [hb'] at hb
    exact hroute.mpr (Except.ok.inj hb ▸ hreach'.mpr hreach)
  · intro h search hsearch
    obtain ⟨b, hb, hreach⟩ := hg.hasRoute_eq hsearch hsrc hdst
    have hiff : (∃ fuel route, g.getRoute search src dst fuel = some (.ok route)) ↔ b = true := by
      rw [hreach]
      constructor
      · rintro ⟨fuel, route, hroute⟩
        exact reachable_network.mpr (WellFormed.getRoute_sound hsrc hdst hroute).2.2.1
      · intro hr
        obtain ⟨es, d, -, -, -, -, -, hroute⟩ := hg.exists_getRoute hsrc hdst hsearch (h hr)
        exact ⟨es.length + 1, _, hroute _ (Nat.lt_succ_self _)⟩
    exact ⟨b, hb, hiff, exists_getDistance_iff.trans hiff⟩

/-! ## The best route -/

theorem exists_getRoute_of_bestRouteLoop {fuel : ℕ} {vertices : List ℕ}
    {best : List RouteElement × ℤ} {result : List RouteElement}
    (h : g.bestRouteLoop search dst fuel vertices best = some (.ok result)) :
    ∀ v ∈ vertices, g.hasRoute search (g.nodeAt v) dst = .ok true →
      ∃ route, g.getRoute search (g.nodeAt v) dst fuel = some (.ok route) := by
  induction vertices generalizing best with
  | nil => exact fun v hv => absurd hv List.not_mem_nil
  | cons u vertices ih =>
    rw [bestRouteLoop] at h
    intro v hv hhas
    cases hu : g.hasRoute search (g.nodeAt u) dst with
    | error e =>
      simp only [hu] at h
      cases h
    | ok b =>
      cases b with
      | false =>
        simp only [hu] at h
        rcases List.mem_cons.mp hv with rfl | hv
        · rw [hu] at hhas
          cases hhas
        · exact ih h v hv hhas
      | true =>
        cases hroute : g.getRoute search (g.nodeAt u) dst fuel with
        | none =>
          simp only [hu, hroute] at h
          cases h
        | some r =>
          cases r with
          | error e =>
            simp only [hu, hroute] at h
            cases h
          | ok route =>
            simp only [hu, hroute] at h
            rcases List.mem_cons.mp hv with rfl | hv
            · exact ⟨route, hroute⟩
            · exact ih h v hv hhas

theorem exists_bestRouteLoop {fuel : ℕ} {vertices : List ℕ}
    (h : ∀ v ∈ vertices, ∃ b, g.hasRoute search (g.nodeAt v) dst = .ok b ∧
      (b = true → ∃ route, g.getRoute search (g.nodeAt v) dst fuel = some (.ok route)))
    (best : List RouteElement × ℤ) :
    ∃ result, g.bestRouteLoop search dst fuel vertices best = some (.ok result) := by
  induction vertices generalizing best with
  | nil => exact ⟨best.1, rfl⟩
  | cons v vertices ih =>
    have hrest := ih fun u hu => h u (List.mem_cons_of_mem _ hu)
    obtain ⟨b, hb, hroute⟩ := h v List.mem_cons_self
    rw [bestRouteLoop]
    cases b with
    | false =>
      simp only [hb]
      exact hrest best
    | true =>
      obtain ⟨route, hroute⟩ := hroute rfl
      simp only [hb, hroute]
      exact hrest _

theorem exists_fuel {vertices : List ℕ} (h : ∀ v ∈ vertices, ∃ fuel route,
      g.getRoute search (g.nodeAt v) dst fuel = some (.ok route)) :
    ∃ fuel, ∀ v ∈ vertices, ∃ route,
      g.getRoute search (g.nodeAt v) dst fuel = some (.ok route) := by
  induction vertices with
  | nil => exact ⟨0, fun v hv => absurd hv List.not_mem_nil⟩
  | cons v vertices ih =>
    obtain ⟨fuel, hfuel⟩ := ih fun u hu => h u (List.mem_cons_of_mem _ hu)
    obtain ⟨fuel', route, hroute⟩ := h v List.mem_cons_self
    refine ⟨max fuel fuel', fun u hu => ?_⟩
    rcases List.mem_cons.mp hu with rfl | hu
    · exact ⟨route, getRoute_mono (Nat.le_max_right _ _) hroute⟩
    · obtain ⟨route', hroute'⟩ := hfuel u hu
      exact ⟨route', getRoute_mono (Nat.le_max_left _ _) hroute'⟩

theorem WellFormed.getBestRoute_iff (hg : g.WellFormed) (hdst : g.nodeMap dst.uniqueId = some t)
    (srcFilter : TopoNode → Bool) :
    (∀ search : GraphSearches, search.Documented →
      ∃ fuel route, g.getBestRoute search srcFilter dst fuel = some (.ok route)) ↔
      ∀ v < g.vertices.length, srcFilter (g.nodeAt v) = true → g.network.Reachable v t →
        g.Routable (g.nodeAt v) dst v t := by
  have hmem : ∀ v, v ∈ g.getVertices srcFilter ↔
      v < g.vertices.length ∧ srcFilter (g.nodeAt v) = true := by
    intro v
    rw [getVertices, List.mem_filter, List.mem_range]
  constructor
  · intro h v hv hfilter hreach
    have hsrc := hg.nodeMap_nodeAt hv
    refine hg.routable_of_getRoute hsrc hdst fun search hsearch => ?_
    obtain ⟨fuel, result, hresult⟩ := h search hsearch
    obtain ⟨b, hb, hiff⟩ := hg.hasRoute_eq hsearch hsrc hdst
    obtain rfl : b = true := hiff.mpr hreach
    exact ⟨fuel, exists_getRoute_of_bestRouteLoop hresult v ((hmem v).mpr ⟨hv, hfilter⟩) hb⟩
  · intro h search hsearch
    have hroute : ∀ v ∈ (g.getVertices srcFilter).filter fun v =>
        decide (g.hasRoute search (g.nodeAt v) dst = .ok true),
        ∃ fuel route, g.getRoute search (g.nodeAt v) dst fuel = some (.ok route) := by
      intro v hv
      obtain ⟨hv, hhas⟩ := List.mem_filter.mp hv
      obtain ⟨hlt, hfilter⟩ := (hmem v).mp hv
      have hsrc := hg.nodeMap_nodeAt hlt
      obtain ⟨b, hb, hiff⟩ := hg.hasRoute_eq hsearch hsrc hdst
      have hhas := of_decide_eq_true hhas
      rw [hb] at hhas
      obtain ⟨es, d, -, -, -, -, -, hroute⟩ := hg.exists_getRoute hsrc hdst hsearch
        (h v hlt hfilter (hiff.mp (Except.ok.inj hhas)))
      exact ⟨es.length + 1, _, hroute _ (Nat.lt_succ_self _)⟩
    obtain ⟨fuel, hfuel⟩ := exists_fuel hroute
    refine ⟨fuel, exists_bestRouteLoop (fun v hv => ?_) _⟩
    obtain ⟨b, hb, -⟩ := hg.hasRoute_eq hsearch (hg.nodeMap_nodeAt ((hmem v).mp hv).1) hdst
    refine ⟨b, hb, ?_⟩
    rintro rfl
    exact hfuel v (List.mem_filter.mpr ⟨hv, decide_eq_true hb⟩)

/-- **When the queries agree**, in every graph that calls can make: on a pair of nodes, exactly if
the nodes are routable or there is no path between them; and for the best route, exactly if each
candidate with a path is routable. -/
theorem queries_agree_iff {calls : List TopoCall}
    (h : Transition.run TopoCall.step {} calls = some g) :
    (∀ src dst s t, g.nodeMap src.uniqueId = some s → g.nodeMap dst.uniqueId = some t →
      ((∀ search : GraphSearches, search.Documented → g.QueriesAgree search src dst) ↔
        (g.network.Reachable s t → g.Routable src dst s t))) ∧
    ∀ srcFilter dst t, g.nodeMap dst.uniqueId = some t →
      ((∀ search : GraphSearches, search.Documented →
        ∃ fuel route, g.getBestRoute search srcFilter dst fuel = some (.ok route)) ↔
        ∀ v < g.vertices.length, srcFilter (g.nodeAt v) = true → g.network.Reachable v t →
          g.Routable (g.nodeAt v) dst v t) := by
  have hg := wellFormed_of_run h
  exact ⟨fun src dst s t hsrc hdst => hg.queriesAgree_iff hsrc hdst,
    fun srcFilter dst t hdst => hg.getBestRoute_iff hdst srcFilter⟩

/-- Two crossbars with a connection. -/
theorem queries_agree_connected :
    connected.QueriesAgree GraphSearches.reference (crossbar 1) (crossbar 2) ∧
      ∃ fuel route, connected.getBestRoute GraphSearches.reference
        (fun node => decide (node.deviceId = 1)) (crossbar 2) fuel = some (.ok route) := by
  have h := queries_agree_iff
    (rfl : Transition.run TopoCall.step {} connectedCalls = some connected)
  refine ⟨(h.1 (crossbar 1) (crossbar 2) 0 1 (by decide) (by decide)).mpr
    (fun _ => connected_routable) _ GraphSearches.documented_reference, ?_⟩
  refine (h.2 _ (crossbar 2) 1 (by decide)).mpr (fun v hv hfilter _ => ?_) _
    GraphSearches.documented_reference
  have hlt : v < 2 := hv
  interval_cases v
  · exact connected_routable
  · exact absurd hfilter (by decide)

/-- **A node has a route to itself, but none is found.** -/
theorem no_route_to_self :
    Transition.run TopoCall.step {} connectedCalls = some connected ∧
      connected.nodeMap (crossbar 1).uniqueId = some 0 ∧
      GraphSearches.reference.Documented ∧
      connected.hasRoute GraphSearches.reference (crossbar 1) (crossbar 1) = .ok true ∧
      ¬ connected.QueriesAgree GraphSearches.reference (crossbar 1) (crossbar 1) := by
  have hhas : connected.hasRoute GraphSearches.reference (crossbar 1) (crossbar 1) = .ok true := by
    rfl
  refine ⟨rfl, by decide, GraphSearches.documented_reference, hhas, ?_⟩
  rintro ⟨b, hb, hroute, -⟩
  rw [hhas] at hb
  obtain ⟨fuel, route, hroute⟩ := hroute.mpr (Except.ok.inj hb).symm
  obtain ⟨-, -, -, pred, hpred, hmoved⟩ :=
    WellFormed.getRoute_sound (s := 0) (t := 0) (by decide) (by decide) hroute
  have hnonneg : (adjlistNetwork connected.edges).NonnegFrom 0 :=
    GraphSearches.nonnegFrom_iff_reached.mpr (by rfl)
  have htree := Network.searchTree_isShortestPathTree hnonneg (by decide : 0 < intMax)
  obtain rfl : (adjlistNetwork connected.edges).searchTree intMax 0 = pred := Except.ok.inj hpred
  exact hmoved htree.root

end TopoGraph
end Rfnoc
end UhdHost
