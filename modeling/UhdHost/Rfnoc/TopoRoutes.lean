import UhdHost.Library.ShortestPathSearch
import UhdHost.Rfnoc.TopoGraph

/-!
# Routes in the topology graph

The queries of `topo_graph_t`: `has_route`, `get_route`, `get_best_route`, `get_distance` and
`get_edge`.

`get_route` searches for the shortest paths by vertices, turns the predecessors into a map, follows
the map back from the destination, and looks up an edge for each pair of vertices on the way.

## What is a parameter

The two searches belong to a library.  What is relied on is `GraphSearches.Documented`: the
breadth-first search comes to the vertices that can be reached, and Dijkstra's algorithm throws if
it meets a negative weight and else answers with a tree of shortest paths, as long as the sums of
weights are no larger than an `int`.  Distances are compared with the largest `int`, which stands
for no path.  A vector of predecessors is a function that maps everything beyond the vector to
itself.  `GraphSearches.reference` is a search of which all this is proved.

The loop that follows the map runs as long as it takes; `fuel` bounds the number of rounds, and the
result is `none` where they are not enough.
-/

namespace UhdHost
namespace Rfnoc

open ShortestPaths

/-- `std::numeric_limits<int>::max()` -/
def intMax : ℤ := 2147483647

/-- The edges with the weights that the search reads. -/
def adjlistNetwork (edges : List AdjlistEdge) : Network ℕ AdjlistEdge ℤ where
  edges := edges
  source := AdjlistEdge.source
  target := AdjlistEdge.target
  weight := AdjlistEdge.weight

/-- The two searches of the library, from the number of vertices, the edges and the vertex where to
begin. -/
structure GraphSearches where
  /-- `boost::breadth_first_search`: the vertices for which `discover_vertex` is called. -/
  breadthFirstSearch : ℕ → List AdjlistEdge → ℕ → List ℕ
  /-- `boost::dijkstra_shortest_paths`: the predecessors. -/
  dijkstraShortestPaths : ℕ → List AdjlistEdge → ℕ → Except UhdError (ℕ → ℕ)

/-- **What Dijkstra's algorithm needs**: no negative weight, and sums that are no larger than an
`int`.  A sum with the largest `int` is that again. -/
structure Searchable (N : Network ℕ AdjlistEdge ℤ) (s : ℕ) : Prop where
  nonneg : N.NonnegFrom s
  fits : ∀ e ∈ N.edges, ∀ d, N.IsDist s (N.source e) d → d < intMax → N.weight e < intMax →
    d + N.weight e ≤ intMax

/-- **What the library says of its searches.** -/
structure GraphSearches.Documented (search : GraphSearches) : Prop where
  breadthFirst : ∀ n edges s, (∀ e ∈ edges, e.source < n ∧ e.target < n) → s < n → ∀ v,
    v ∈ search.breadthFirstSearch n edges s ↔ (adjlistNetwork edges).Reachable s v
  negative : ∀ n edges s, (∀ e ∈ edges, e.source < n ∧ e.target < n) → s < n →
    ¬ (adjlistNetwork edges).NonnegFrom s →
      ∃ err, search.dijkstraShortestPaths n edges s = .error err
  shortest : ∀ n edges s, (∀ e ∈ edges, e.source < n ∧ e.target < n) → s < n →
    Searchable (adjlistNetwork edges) s →
      ∃ pred, search.dijkstraShortestPaths n edges s = .ok pred ∧
        (adjlistNetwork edges).IsShortestPathTree intMax s pred

/-! ## Routes -/

/-- `route_element_type` -/
structure RouteElement where
  node : TopoNode
  edge : TopoEdge
  deriving DecidableEq

/-- A sum of two `int`s. -/
def intAdd (a b : ℤ) : ℤ := Int.bmod (a + b) 4294967296

/-- `get_route_distance` -/
def getRouteDistance (route : List RouteElement) : ℤ :=
  route.foldl (fun a element => intAdd a element.edge.getWeight) 0

/-- The element that terminates a route. -/
def endOfRoute (dst : TopoNode) : RouteElement :=
  ⟨dst, { type := .endOfRoute, srcPort := anyPort }⟩

namespace TopoGraph

/-! ## Queries -/

/-- `_assert_route` -/
def assertRoute (g : TopoGraph) (src dst : TopoNode) (verb : String) : Except UhdError Unit :=
  if (g.nodeMap src.uniqueId).isNone then
    .error (.runtimeError ("Cannot " ++ verb ++ " route from: " ++ src.toString ++
      ". Node not found in topology graph."))
  else if (g.nodeMap dst.uniqueId).isNone then
    .error (.runtimeError ("Cannot " ++ verb ++ " route to: " ++ dst.toString ++
      ". Node not found in topology graph."))
  else .ok ()

/-- `has_route` -/
def hasRoute (search : GraphSearches) (g : TopoGraph) (src dst : TopoNode) :
    Except UhdError Bool :=
  match g.assertRoute src dst "check" with
  | .error e => .error e
  | .ok () =>
    match g.vertexOf src with
    | .error e => .error e
    | .ok srcVertexDesc =>
      -- the search ends at the first vertex with the ID
      .ok ((search.breadthFirstSearch g.vertices.length g.edges srcVertexDesc).any fun v =>
        decide ((g.nodeAt v).uniqueId = dst.uniqueId))

/-- `get_edge` -/
def getEdge (g : TopoGraph) (src dst : TopoNode) : Except UhdError TopoEdge :=
  match g.vertexOf src with
  | .error e => .error e
  | .ok u =>
    match g.vertexOf dst with
    | .error e => .error e
    | .ok v =>
      match g.edge u v with
      | none =>
        .error (.assertionError ("Failed to find edge between " ++ src.toString ++ " and " ++
          dst.toString ++ "!"))
      | some e => g.infoAt e

/-- The map that `get_route` makes of the predecessors. -/
def reversePathMap (g : TopoGraph) (predecMap : ℕ → ℕ) (v : ℕ) : Option ℕ :=
  if v < g.vertices.length then
    if v = predecMap v then none else some (predecMap v)
  else none

/-- The first part of `get_route`: the search, and the map that it gives. -/
def findReversePaths (search : GraphSearches) (g : TopoGraph) (src dst : TopoNode) :
    Except UhdError (ℕ → Option ℕ) :=
  match g.assertRoute src dst "get" with
  | .error e => .error e
  | .ok () =>
    match g.vertexOf src with
    | .error e => .error e
    | .ok srcVertexDesc =>
      match search.dijkstraShortestPaths g.vertices.length g.edges srcVertexDesc with
      | .error e => .error e
      | .ok predecMap =>
        match g.vertexOf dst with
        | .error e => .error e
        | .ok dstVertexDesc =>
          if (g.reversePathMap predecMap dstVertexDesc).isSome then
            .ok (g.reversePathMap predecMap)
          else
            .error (.runtimeError ("Cannot create route from " ++ src.toString ++ " and " ++
              dst.toString ++ ", no route was found!"))

/-- The loop of `get_route`, which follows the map back to the source. -/
def traceRoute (g : TopoGraph) (rpathMap : ℕ → Option ℕ) (src : TopoNode) :
    ℕ → TopoNode → List RouteElement → Option (Except UhdError (List RouteElement))
  | 0, _, _ => none
  | fuel + 1, currNode, route =>
    if currNode.equal src then some (.ok route)
    else
      match g.vertexOf currNode with
      | .error e => some (.error e)
      | .ok currVertexDesc =>
        match rpathMap currVertexDesc with
        | none => some (.error .outOfRange)
        | some prevVertexDesc =>
          let prevNode := g.nodeAt prevVertexDesc
          match g.getEdge prevNode currNode with
          | .error e => some (.error e)
          | .ok edge => g.traceRoute rpathMap src fuel prevNode (⟨prevNode, edge⟩ :: route)

/-- The assertions at the end of `get_route`. -/
def checkRoute (src dst : TopoNode) (route : List RouteElement) :
    Except UhdError (List RouteElement) :=
  if ¬ route.getLast?.any fun back => back.edge.type = .endOfRoute then
    .error (.assertionError
      "route.back().edge.type == topo_edge_t::edge_type::END_OF_ROUTE")
  else if ¬ route.getLast?.any fun back => back.node.equal dst then
    .error (.assertionError "route.back().node == dst")
  else if ¬ route.head?.any fun front => front.node.equal src then
    .error (.assertionError "route.front().node == src")
  else .ok route

/-- `get_route` -/
def getRoute (search : GraphSearches) (g : TopoGraph) (src dst : TopoNode) (fuel : ℕ) :
    Option (Except UhdError (List RouteElement)) :=
  match g.findReversePaths search src dst with
  | .error e => some (.error e)
  | .ok rpathMap =>
    match g.traceRoute rpathMap src fuel dst [endOfRoute dst] with
    | none => none
    | some (.error e) => some (.error e)
    | some (.ok route) => some (checkRoute src dst route)

/-- `get_distance` -/
def getDistance (search : GraphSearches) (g : TopoGraph) (src dst : TopoNode) (fuel : ℕ) :
    Option (Except UhdError ℤ) :=
  match g.getRoute search src dst fuel with
  | none => none
  | some (.error e) => some (.error e)
  | some (.ok route) => some (.ok (getRouteDistance route))

/-- `_get_vertices` -/
def getVertices (g : TopoGraph) (filter : TopoNode → Bool) : List ℕ :=
  (List.range g.vertices.length).filter fun v => filter (g.nodeAt v)

/-- The loop of `get_best_route`, with the best route so far and its distance. -/
def bestRouteLoop (search : GraphSearches) (g : TopoGraph) (dst : TopoNode) (fuel : ℕ) :
    List ℕ → List RouteElement × ℤ → Option (Except UhdError (List RouteElement))
  | [], best => some (.ok best.1)
  | vertex :: rest, best =>
    let src := g.nodeAt vertex
    match g.hasRoute search src dst with
    | .error e => some (.error e)
    | .ok false => g.bestRouteLoop search dst fuel rest best
    | .ok true =>
      match g.getRoute search src dst fuel with
      | none => none
      | some (.error e) => some (.error e)
      | some (.ok route) =>
        let distance := getRouteDistance route
        g.bestRouteLoop search dst fuel rest
          (if distance < best.2 then (route, distance) else best)

/-- `get_best_route` -/
def getBestRoute (search : GraphSearches) (g : TopoGraph) (srcFilter : TopoNode → Bool)
    (dst : TopoNode) (fuel : ℕ) : Option (Except UhdError (List RouteElement)) :=
  g.bestRouteLoop search dst fuel (g.getVertices srcFilter) ([], intMax)

end TopoGraph

/-! ## The reference search -/

/-- Searches of which everything is proved that the library says of its own. -/
def GraphSearches.reference : GraphSearches where
  breadthFirstSearch _ edges s := (adjlistNetwork edges).reached s
  dijkstraShortestPaths _ edges s :=
    if edges.any fun e => decide (e.source ∈ (adjlistNetwork edges).reached s) &&
        decide (e.weight < 0) then
      .error (.invalidArgument "The graph may not contain an edge with negative weight.")
    else .ok ((adjlistNetwork edges).searchTree intMax s)

theorem GraphSearches.nonnegFrom_iff_reached {edges : List AdjlistEdge} {s : ℕ} :
    (adjlistNetwork edges).NonnegFrom s ↔
      (edges.any fun e => decide (e.source ∈ (adjlistNetwork edges).reached s) &&
        decide (e.weight < 0)) = false := by
  rw [List.any_eq_false]
  refine forall₂_congr fun e he => ?_
  rw [Bool.and_eq_true, decide_eq_true_iff, decide_eq_true_iff, Network.mem_reached_iff, not_and,
    not_lt]
  exact Iff.rfl

theorem GraphSearches.documented_reference : GraphSearches.reference.Documented where
  breadthFirst _ _ _ _ _ _ := Network.mem_reached_iff
  negative n edges s _ _ hneg := by
    rw [nonnegFrom_iff_reached, Bool.not_eq_false] at hneg
    exact ⟨_, if_pos hneg⟩
  shortest n edges s _ _ hsearch := by
    refine ⟨(adjlistNetwork edges).searchTree intMax s, if_neg ?_,
      Network.searchTree_isShortestPathTree hsearch.nonneg (by decide)⟩
    rw [nonnegFrom_iff_reached.mp hsearch.nonneg]
    exact Bool.false_ne_true

/-- The searches with another answer of Dijkstra's algorithm to one question. -/
def GraphSearches.answering (search : GraphSearches) (n : ℕ) (edges : List AdjlistEdge) (s : ℕ)
    (answer : Except UhdError (ℕ → ℕ)) : GraphSearches where
  breadthFirstSearch := search.breadthFirstSearch
  dijkstraShortestPaths n' edges' s' :=
    if n' = n ∧ edges' = edges ∧ s' = s then answer
    else search.dijkstraShortestPaths n' edges' s'

theorem GraphSearches.dijkstra_answering (search : GraphSearches) (n : ℕ)
    (edges : List AdjlistEdge) (s : ℕ) (answer : Except UhdError (ℕ → ℕ)) :
    (search.answering n edges s answer).dijkstraShortestPaths n edges s = answer :=
  if_pos ⟨rfl, rfl, rfl⟩

theorem GraphSearches.Documented.answering {search : GraphSearches} (h : search.Documented)
    (n : ℕ) (edges : List AdjlistEdge) (s : ℕ) (answer : Except UhdError (ℕ → ℕ))
    (hneg : ¬ (adjlistNetwork edges).NonnegFrom s → ∃ err, answer = .error err)
    (hshortest : Searchable (adjlistNetwork edges) s → ∃ pred, answer = .ok pred ∧
      (adjlistNetwork edges).IsShortestPathTree intMax s pred) :
    (search.answering n edges s answer).Documented where
  breadthFirst := h.breadthFirst
  negative n' edges' s' hedges hs hneg' := by
    unfold GraphSearches.answering
    by_cases heq : n' = n ∧ edges' = edges ∧ s' = s
    · obtain ⟨rfl, rfl, rfl⟩ := heq
      obtain ⟨err, rfl⟩ := hneg hneg'
      exact ⟨err, if_pos ⟨rfl, rfl, rfl⟩⟩
    · obtain ⟨err, herr⟩ := h.negative n' edges' s' hedges hs hneg'
      exact ⟨err, (if_neg heq).trans herr⟩
  shortest n' edges' s' hedges hs hsearch := by
    unfold GraphSearches.answering
    by_cases heq : n' = n ∧ edges' = edges ∧ s' = s
    · obtain ⟨rfl, rfl, rfl⟩ := heq
      obtain ⟨pred, rfl, htree⟩ := hshortest hsearch
      exact ⟨pred, if_pos ⟨rfl, rfl, rfl⟩, htree⟩
    · obtain ⟨pred, hpred, htree⟩ := h.shortest n' edges' s' hedges hs hsearch
      exact ⟨pred, (if_neg heq).trans hpred, htree⟩

end Rfnoc
end UhdHost
