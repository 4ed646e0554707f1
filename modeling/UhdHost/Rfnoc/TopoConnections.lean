import UhdHost.Rfnoc.TopoGraph

/-!
# The connections of the topology graph

What the graph is for: a list of connections, each from a port of a node to a port of a node, where
nodes stand for their IDs.  `PortsUnique` says that no port is connected twice; a port that does not
matter (`anyPort`) is no port.

`add_edge` adds the connection or leaves the graph alone (`addEdge_cases`).  `add_biedge` is
documented as two calls of it, one for each direction, and if the second one throws, then the first
connection stays (`addBiedge_cases`).  The ports stay unique in either case, and over every sequence of calls
(`portsUnique_of_run`).
-/

namespace UhdHost
namespace Rfnoc

/-- A connection between two nodes. -/
structure Connection where
  source : ℕ
  target : ℕ
  info : TopoEdge
  deriving DecidableEq

namespace Connection

/-- The connections have an output port or an input port in common. -/
def SharePort (c c' : Connection) : Prop :=
  (c.source = c'.source ∧ c.info.srcPort = c'.info.srcPort ∧ c.info.srcPort ≠ anyPort) ∨
    (c.target = c'.target ∧ c.info.dstPort = c'.info.dstPort ∧ c.info.dstPort ≠ anyPort)

instance (c c' : Connection) : Decidable (SharePort c c') := by
  unfold SharePort
  infer_instance

end Connection

namespace TopoGraph

open Stateful

/-- The connection that an edge is. -/
def connectionOf (g : TopoGraph) (e : AdjlistEdge) : Connection :=
  ⟨(g.nodeAt e.source).uniqueId, (g.nodeAt e.target).uniqueId, g.infoOf e⟩

/-- The connections, in the order in which they were added. -/
def connections (g : TopoGraph) : List Connection := g.edges.map g.connectionOf

/-- **No output port and no input port has two connections.** -/
def PortsUnique (g : TopoGraph) : Prop :=
  g.connections.Pairwise fun c c' => ¬ c.SharePort c'

/-- The nodes after one that may be known already. -/
def nodesWith (g : TopoGraph) (node : TopoNode) : List TopoNode :=
  if (g.nodeMap node.uniqueId).isSome then g.vertices else g.vertices ++ [node]

/-- The connection that a call asks for. -/
def requested (src dst : TopoNode) (edge : TopoEdge) : Connection :=
  ⟨src.uniqueId, dst.uniqueId, edge⟩

/-- The edge in the other direction. -/
def reversed (edge : TopoEdge) : TopoEdge :=
  { edge with srcPort := edge.dstPort, dstPort := edge.srcPort }

/-- **Exactly one connection more**, and the destination is known. -/
structure Adds (g g' : TopoGraph) (src dst : TopoNode) (edge : TopoEdge) : Prop where
  nodes : g'.vertices = g.nodesWith dst
  connections : g'.connections = g.connections ++ [requested src dst edge]

variable {g g' : TopoGraph}

/-! ## Ports that are taken -/

/-- `add_edge` has to refuse the edge: the source is unknown, or a port has a connection. -/
def Refused (g : TopoGraph) (src dst : TopoNode) (edge : TopoEdge) : Prop :=
  g.nodeMap src.uniqueId = none ∨ ∃ c ∈ g.connections, c.SharePort (requested src dst edge)

namespace WellFormed

variable (hg : g.WellFormed)

include hg

theorem checkPort_eq_ok_iff {newPort : ℤ} {portOf : TopoEdge → ℤ} {err : UhdError}
    {es : List (AdjlistEdge × ℕ)} (hes : ∀ e ∈ es, e.1 ∈ g.edges) :
    g.checkPort newPort portOf err es = .ok () ↔
      newPort = anyPort ∨ ∀ e ∈ es, portOf (g.infoOf e.1) ≠ newPort := by
  induction es with
  | nil => exact iff_of_true rfl (Or.inr fun e he => absurd he List.not_mem_nil)
  | cons e es ih =>
    have hinfo := hg.infoAt_eq_infoOf (hes e List.mem_cons_self)
    have ih := ih fun e' he' => hes e' (List.mem_cons_of_mem _ he')
    rw [checkPort]
    by_cases hany : newPort = anyPort
    · rw [if_neg (not_not_intro hany), ih]
      exact iff_of_true (Or.inl hany) (Or.inl hany)
    · rw [if_pos hany]
      simp only [hinfo]
      by_cases hport : portOf (g.infoOf e.1) = newPort
      · rw [if_pos hport]
        refine iff_of_false (fun h => by cases h) ?_
        rintro (h | h)
        · exact hany h
        · exact h e List.mem_cons_self hport
      · rw [if_neg hport, ih]
        refine or_congr_right ?_
        rw [List.forall_mem_cons]
        exact (and_iff_right hport).symm

omit hg in
theorem mem_edges_of_mem_filter {p : AdjlistEdge × ℕ → Bool} :
    ∀ e ∈ g.edges.zipIdx.filter p, e.1 ∈ g.edges := fun _ he =>
  List.mem_of_getElem? (List.mem_zipIdx_iff_getElem?.mp (List.mem_filter.mp he).1)

theorem uniqueId_nodeAt_iff {id v w : ℕ} (hid : g.nodeMap id = some v)
    (hw : w < g.vertices.length) : (g.nodeAt w).uniqueId = id ↔ w = v := by
  constructor
  · intro h
    have hfound := hg.nodeMap_nodeAt hw
    rw [h, hid, Option.some_inj] at hfound
    exact hfound.symm
  · rintro rfl
    exact (hg.getElem?_of_nodeMap hid).2

theorem checkPort_filter_iff {id v : ℕ} (hv : g.nodeMap id = some v) {endOf : AdjlistEdge → ℕ}
    (hend : ∀ e ∈ g.edges, endOf e < g.vertices.length) {newPort : ℤ} {portOf : TopoEdge → ℤ}
    {err : UhdError} :
    g.checkPort newPort portOf err (g.edges.zipIdx.filter fun e => endOf e.1 = v) = .ok () ↔
      ∀ e ∈ g.edges, ¬ ((g.nodeAt (endOf e)).uniqueId = id ∧
        portOf (g.infoOf e) = newPort ∧ portOf (g.infoOf e) ≠ anyPort) := by
  rw [hg.checkPort_eq_ok_iff mem_edges_of_mem_filter]
  constructor
  · rintro (hany | hnone) e he ⟨hid, hport, hne⟩
    · exact hne (hport.trans hany)
    · obtain ⟨i, hi⟩ := List.mem_iff_getElem?.mp he
      have hw := (hg.uniqueId_nodeAt_iff hv (hend e he)).mp hid
      exact hnone (e, i) (List.mem_filter.mpr
        ⟨List.mem_zipIdx_iff_getElem?.mpr hi, decide_eq_true hw⟩) hport
  · intro h
    by_cases hany : newPort = anyPort
    · exact Or.inl hany
    · refine Or.inr fun e he hport => ?_
      have hmem := mem_edges_of_mem_filter e he
      have hw := of_decide_eq_true (List.mem_filter.mp he).2
      exact h e.1 hmem ⟨(hg.uniqueId_nodeAt_iff hv (hend e.1 hmem)).mpr hw, hport,
        fun hbad => hany (hport.symm.trans hbad)⟩

theorem checkSrcPort_eq_ok_iff {src : TopoNode} {u : ℕ} (hu : g.nodeMap src.uniqueId = some u)
    (edge : TopoEdge) : g.checkSrcPort src u edge = .ok () ↔ ∀ c ∈ g.connections,
      ¬ (c.source = src.uniqueId ∧ c.info.srcPort = edge.srcPort ∧ c.info.srcPort ≠ anyPort) := by
  rw [connections, List.forall_mem_map]
  exact hg.checkPort_filter_iff hu fun _ he => hg.source_lt he

theorem checkDstPort_eq_ok_iff {dst : TopoNode} {v : ℕ} (hv : g.nodeMap dst.uniqueId = some v)
    (edge : TopoEdge) : g.checkDstPort dst v edge = .ok () ↔ ∀ c ∈ g.connections,
      ¬ (c.target = dst.uniqueId ∧ c.info.dstPort = edge.dstPort ∧ c.info.dstPort ≠ anyPort) := by
  rw [connections, List.forall_mem_map]
  exact hg.checkPort_filter_iff hv fun _ he => hg.target_lt he

theorem target_ne_of_unknown {dst : TopoNode} (hdst : g.nodeMap dst.uniqueId = none) :
    ∀ c ∈ g.connections, c.target ≠ dst.uniqueId := by
  rw [connections, List.forall_mem_map]
  intro e he hid
  have hfound := hg.nodeMap_nodeAt (hg.target_lt he)
  have hid : (g.nodeAt e.target).uniqueId = dst.uniqueId := hid
  rw [hid, hdst] at hfound
  cases hfound

/-! ## What the parts of a call do to the connections -/

omit hg in
theorem getD_append_of_lt (node : TopoNode) {v : ℕ} (hv : v < g.vertices.length) :
    (g.vertices ++ [node]).getD v {} = g.vertices.getD v {} := by
  rw [List.getD_eq_getElem?_getD, List.getD_eq_getElem?_getD, List.getElem?_append_left hv]

theorem addNode_spec (node : TopoNode) : ∃ b g', g.addNode node = .ok b g' ∧
    g'.vertices = g.nodesWith node ∧ g'.connections = g.connections := by
  unfold TopoGraph.addNode nodesWith
  by_cases hknown : (g.nodeMap node.uniqueId).isSome = true
  · rw [if_pos hknown, if_pos hknown]
    exact ⟨false, g, rfl, rfl, rfl⟩
  · rw [if_neg hknown, if_neg hknown]
    refine ⟨true, _, rfl, rfl, List.map_congr_left fun e he => ?_⟩
    have hsource := getD_append_of_lt node (hg.source_lt he)
    have htarget := getD_append_of_lt node (hg.target_lt he)
    simp only [connectionOf, nodeAt, infoOf, hsource, htarget]

theorem pushEdge_connections {src dst : TopoNode} {u v : ℕ}
    (hu : g.nodeMap src.uniqueId = some u) (hv : g.nodeMap dst.uniqueId = some v)
    (edge : TopoEdge) :
    (g.pushEdge u v edge).connections = g.connections ++ [requested src dst edge] := by
  have hold : ∀ e ∈ g.edges, (g.pushEdge u v edge).connectionOf e = g.connectionOf e := by
    intro e he
    obtain ⟨i, hi⟩ := List.mem_iff_getElem?.mp he
    have hfits := hg.fits i e hi
    obtain ⟨info, hinfo, -⟩ := hfits.exists_info
    have hlt : e.edgeIndex < g.edgeInfo.length := by
      rw [hfits.edgeIndex]
      exact (List.getElem?_eq_some_iff.mp hinfo).1
    have hsame : (g.pushEdge u v edge).infoOf e = g.infoOf e := by
      unfold infoOf TopoGraph.pushEdge
      rw [List.getElem?_append_left hlt]
    rw [connectionOf, connectionOf, hsame]
    exact rfl
  have hnew : (g.pushEdge u v edge).connectionOf ⟨u, v, edge.getWeight, g.edgeInfo.length⟩ =
      requested src dst edge := by
    have hinfo : (g.pushEdge u v edge).infoOf ⟨u, v, edge.getWeight, g.edgeInfo.length⟩ =
        edge := by
      unfold infoOf TopoGraph.pushEdge
      rw [List.getElem?_concat_length, Option.getD_some]
    rw [connectionOf, hinfo, requested, ← (hg.getElem?_of_nodeMap hu).2,
      ← (hg.getElem?_of_nodeMap hv).2]
    exact rfl
  unfold connections
  change (g.edges ++ [_]).map _ = _
  rw [List.map_append, List.map_singleton, hnew, List.map_congr_left hold]

/-! ## The calls -/

/-- **What `add_edge` does.**  It adds the connection, or it throws and does nothing; it throws
exactly if the source is unknown or a port has a connection. -/
theorem addEdge_cases (src dst : TopoNode) (edge : TopoEdge) :
    (∃ e, g.addEdge src dst edge = .error e g ∧ g.Refused src dst edge) ∨
      ∃ b g', g.addEdge src dst edge = .ok b g' ∧ ¬ g.Refused src dst edge ∧
        Adds g g' src dst edge := by
  unfold TopoGraph.addEdge Refused
  cases hsrc : g.nodeMap src.uniqueId with
  | none => exact Or.inl ⟨_, rfl, Or.inl rfl⟩
  | some u =>
    cases hout : g.checkSrcPort src u edge with
    | error e =>
      refine Or.inl ⟨e, by simp only [hout], Or.inr ?_⟩
      by_contra hfree
      have hok := (hg.checkSrcPort_eq_ok_iff hsrc edge).mpr fun c hc hport =>
        hfree ⟨c, hc, Or.inl hport⟩
      rw [hout] at hok
      cases hok
    | ok _ =>
      have hsrcfree := (hg.checkSrcPort_eq_ok_iff hsrc edge).mp hout
      obtain ⟨b, g₁, hadd, hnodes, hsame⟩ := hg.addNode_spec dst
      obtain ⟨b', g₁', hadd', hg₁, hknown, hkeep⟩ := hg.addNode dst
      rw [hadd] at hadd'
      obtain ⟨rfl, rfl⟩ : b = b' ∧ g₁ = g₁' := by
        injection hadd' with h₁ h₂
        exact ⟨h₁, h₂⟩
      obtain ⟨v, hv⟩ := Option.ne_none_iff_exists'.mp hknown
      have hvertex : g₁.vertexOf dst = .ok v := vertexOf_eq_ok.mpr hv
      have hadds : Adds g (g₁.pushEdge u v edge) src dst edge :=
        ⟨hnodes, by rw [hg₁.pushEdge_connections (hkeep _ u hsrc) hv edge, hsame]⟩
      have hfree : (∀ c ∈ g.connections, ¬ (c.target = dst.uniqueId ∧
          c.info.dstPort = edge.dstPort ∧ c.info.dstPort ≠ anyPort)) →
          ¬ (some u = none ∨ ∃ c ∈ g.connections, c.SharePort (requested src dst edge)) := by
        rintro hdstfree (h | ⟨c, hc, h | h⟩)
        · cases h
        · exact hsrcfree c hc h
        · exact hdstfree c hc h
      cases hdst : g.nodeMap dst.uniqueId with
      | none =>
        refine Or.inr ⟨b, g₁.pushEdge u v edge, by simp only [hout, hadd, hvertex], ?_, hadds⟩
        exact hfree fun c hc h => hg.target_ne_of_unknown hdst c hc h.1
      | some w =>
        cases hin : g.checkDstPort dst w edge with
        | error e =>
          refine Or.inl ⟨e, by simp only [hout, hin], Or.inr ?_⟩
          by_contra hnone
          have hok := (hg.checkDstPort_eq_ok_iff hdst edge).mpr fun c hc hport =>
            hnone ⟨c, hc, Or.inr hport⟩
          rw [hin] at hok
          cases hok
        | ok _ =>
          refine Or.inr ⟨b, g₁.pushEdge u v edge, by simp only [hout, hin, hadd, hvertex], ?_,
            hadds⟩
          exact hfree ((hg.checkDstPort_eq_ok_iff hdst edge).mp hin)

theorem addBiedge_cases (src dst : TopoNode) (edge : TopoEdge) :
    (∃ e, g.addBiedge src dst edge = .error e g ∧ g.Refused src dst edge) ∨
      (∃ e g', g.addBiedge src dst edge = .error e g' ∧ ¬ g.Refused src dst edge ∧
        Adds g g' src dst edge ∧ g'.Refused dst src (reversed edge)) ∨
      ∃ b g' g'', g.addBiedge src dst edge = .ok b g'' ∧ ¬ g.Refused src dst edge ∧
        Adds g g' src dst edge ∧ ¬ g'.Refused dst src (reversed edge) ∧
          Adds g' g'' dst src (reversed edge) := by
  have hkeep := hg.addEdge src dst edge
  unfold TopoGraph.addBiedge
  rcases hg.addEdge_cases src dst edge with ⟨e, hfirst, hrefused⟩ | ⟨b, g', hfirst, hfree, hadds⟩
  · exact Or.inl ⟨e, by simp only [hfirst], hrefused⟩
  · rw [hfirst] at hkeep
    have hg' : g'.WellFormed := hkeep
    rcases hg'.addEdge_cases dst src (reversed edge) with
      ⟨e, hsecond, hrefused⟩ | ⟨b', g'', hsecond, hfree', hadds'⟩
    · refine Or.inr (Or.inl ⟨e, g', ?_, hfree, hadds, hrefused⟩)
      rw [reversed] at hsecond
      simp only [hfirst, hsecond]
    · refine Or.inr (Or.inr ⟨b, g', g'', ?_, hfree, hadds, hfree', hadds'⟩)
      rw [reversed] at hsecond
      simp only [hfirst, hsecond]

end WellFormed

/-! ## Unique ports -/

theorem PortsUnique.adds (h : g.PortsUnique) {src dst : TopoNode} {edge : TopoEdge}
    (hfree : ¬ g.Refused src dst edge) (hadds : Adds g g' src dst edge) : g'.PortsUnique := by
  rw [PortsUnique, hadds.connections, List.pairwise_append]
  refine ⟨h, List.pairwise_singleton _ _, fun c hc c' hc' => ?_⟩
  obtain rfl := List.mem_singleton.mp hc'
  exact fun hshare => hfree (Or.inr ⟨c, hc, hshare⟩)

theorem PortsUnique.congr (h : g.PortsUnique)
    (hsame : g'.connections.map (fun c => (c.source, c.target, c.info.srcPort, c.info.dstPort)) =
      g.connections.map fun c => (c.source, c.target, c.info.srcPort, c.info.dstPort)) :
    g'.PortsUnique := by
  have hmap : ∀ cs : List Connection, cs.Pairwise (fun c c' => ¬ c.SharePort c') ↔
      (cs.map fun c => (c.source, c.target, c.info.srcPort, c.info.dstPort)).Pairwise fun p q =>
        ¬ ((p.1 = q.1 ∧ p.2.2.1 = q.2.2.1 ∧ p.2.2.1 ≠ anyPort) ∨
          (p.2.1 = q.2.1 ∧ p.2.2.2 = q.2.2.2 ∧ p.2.2.2 ≠ anyPort)) := by
    intro cs
    rw [List.pairwise_map]
    exact Iff.rfl
  unfold PortsUnique at h ⊢
  rw [hmap] at h ⊢
  rw [hsame]
  exact h

theorem PortsUnique.setWeight (hg : g.WellFormed) (h : g.PortsUnique) {e : AdjlistEdge} {i : ℕ}
    (he : g.edges[i]? = some e) {info : TopoEdge} (hinfo : g.edgeInfo[e.edgeIndex]? = some info)
    (newWeight : ℤ) : (g.setWeight (e, i) info newWeight).PortsUnique := by
  have hlt : i < g.edges.length := (List.getElem?_eq_some_iff.mp he).1
  have hindex : e.edgeIndex = i := (hg.fits i e he).edgeIndex
  refine h.congr (List.ext_getElem? fun j => ?_)
  unfold connections
  rw [List.map_map, List.map_map, List.getElem?_map, List.getElem?_map]
  unfold TopoGraph.setWeight
  by_cases hij : i = j
  · subst hij
    have hlt' : e.edgeIndex < g.edgeInfo.length := (List.getElem?_eq_some_iff.mp hinfo).1
    rw [List.getElem?_set_self hlt, he, Option.map_some, Option.map_some, Option.some_inj]
    simp only [Function.comp_apply, connectionOf, infoOf, nodeAt, hinfo, Option.getD_some,
      List.getElem?_set_self hlt']
  · rw [List.getElem?_set_ne hij]
    cases hj : g.edges[j]? with
    | none => exact rfl
    | some e' =>
      have hindex' : e'.edgeIndex = j := (hg.fits j e' hj).edgeIndex
      have hne : e.edgeIndex ≠ e'.edgeIndex := by
        rw [hindex, hindex']
        exact hij
      rw [Option.map_some, Option.map_some, Option.some_inj]
      simp only [Function.comp_apply, connectionOf, infoOf, nodeAt, List.getElem?_set_ne hne]

theorem PortsUnique.updateWeightLoop (hg : g.WellFormed) (h : g.PortsUnique) (src : TopoNode)
    (srcPort newWeight : ℤ) {es : List (AdjlistEdge × ℕ)}
    (hes : ∀ e ∈ es, g.edges[e.2]? = some e.1) :
    (stateAfter (TopoGraph.updateWeightLoop src srcPort newWeight g es)).PortsUnique := by
  induction es with
  | nil => exact h
  | cons existing es ih =>
    rw [TopoGraph.updateWeightLoop]
    cases hinfo : g.edgeInfo[existing.1.edgeIndex]? with
    | none => exact h
    | some info =>
      by_cases hport : info.srcPort = srcPort
      · simp only [hport, if_true]
        exact h.setWeight hg (hes existing List.mem_cons_self) hinfo newWeight
      · simp only [hport, if_false]
        exact ih fun e he => hes e (List.mem_cons_of_mem _ he)

theorem setEpid_connections {v : ℕ} (hv : v < g.vertices.length)
    (epid : Option UInt16) :
    ({ g with vertices := g.vertices.set v { g.nodeAt v with epid := epid } } :
      TopoGraph).connections = g.connections := by
  have hid : ∀ w, (({ g with vertices := g.vertices.set v { g.nodeAt v with epid := epid } } :
      TopoGraph).nodeAt w).uniqueId = (g.nodeAt w).uniqueId := by
    intro w
    unfold nodeAt
    rw [List.getD_eq_getElem?_getD]
    by_cases hw : v = w
    · subst hw
      rw [List.getElem?_set_self hv, Option.getD_some]
      exact rfl
    · rw [List.getElem?_set_ne hw, ← List.getD_eq_getElem?_getD]
  refine List.map_congr_left fun e _ => ?_
  rw [connectionOf, connectionOf, hid, hid]
  exact rfl

theorem PortsUnique.step (hg : g.WellFormed) (h : g.PortsUnique) (call : TopoCall)
    (hstep : call.step g = some g') : g'.PortsUnique := by
  cases call with
  | addNode node =>
    obtain ⟨b, g₁, hadd, -, hsame⟩ := hg.addNode_spec node
    rw [TopoCall.step, hadd] at hstep
    obtain rfl : g₁ = g' := Option.some.inj hstep
    rw [PortsUnique, hsame]
    exact h
  | addEdge src dst edge =>
    rw [TopoCall.step] at hstep
    rcases hg.addEdge_cases src dst edge with ⟨e, hadd, -⟩ | ⟨b, g₁, hadd, hfree, hadds⟩
    · rw [hadd] at hstep
      exact Option.some.inj hstep ▸ h
    · rw [hadd] at hstep
      obtain rfl : g₁ = g' := Option.some.inj hstep
      exact h.adds hfree hadds
  | addBiedge src dst edge =>
    rw [TopoCall.step] at hstep
    rcases hg.addBiedge_cases src dst edge with
      ⟨e, hadd, -⟩ | ⟨e, g₁, hadd, hfree, hadds, -⟩ |
        ⟨b, g₁, g₂, hadd, hfree, hadds, hfree', hadds'⟩
    · rw [hadd] at hstep
      exact Option.some.inj hstep ▸ h
    · rw [hadd] at hstep
      obtain rfl : g₁ = g' := Option.some.inj hstep
      exact h.adds hfree hadds
    · rw [hadd] at hstep
      obtain rfl : g₂ = g' := Option.some.inj hstep
      exact (h.adds hfree hadds).adds hfree' hadds'
  | updateWeight src srcPort newWeight =>
    rw [TopoCall.step, TopoGraph.updateWeight] at hstep
    cases hvertex : g.vertexOf src with
    | error e =>
      rw [hvertex] at hstep
      exact Option.some.inj hstep ▸ h
    | ok v =>
      rw [hvertex] at hstep
      exact Option.some.inj hstep ▸ h.updateWeightLoop hg src srcPort newWeight fun e he =>
        mem_outEdges he
  | setEpid nodeId epid =>
    rw [TopoCall.step, TopoGraph.setEpid] at hstep
    cases hvertex : g.vertexOf nodeId with
    | error e =>
      rw [hvertex] at hstep
      exact Option.some.inj hstep ▸ h
    | ok v =>
      rw [hvertex] at hstep
      have hv := (hg.getElem?_of_nodeMap (vertexOf_eq_ok.mp hvertex)).1
      obtain rfl := Option.some.inj hstep
      unfold PortsUnique
      simp only [stateAfter]
      rw [setEpid_connections hv]
      exact h

theorem portsUnique_of_run {calls : List TopoCall}
    (h : Transition.run TopoCall.step {} calls = some g) : g.PortsUnique := by
  have hboth : g.WellFormed ∧ g.PortsUnique :=
    Transition.run_invariant (I := fun g : TopoGraph => g.WellFormed ∧ g.PortsUnique)
      (fun _ call _ hinv hstep => ⟨hinv.1.step call hstep, hinv.2.step hinv.1 call hstep⟩)
      ⟨WellFormed.empty, List.Pairwise.nil⟩ h
  exact hboth.2

/-! ## One call -/

/-- **A call of `add_edge`**: it adds exactly the connection that it is asked for and no port has
two, or it throws, because it has to, and the graph is what it was. -/
def AddEdgeMeets (g : TopoGraph) (src dst : TopoNode) (edge : TopoEdge) : Prop :=
  match g.addEdge src dst edge with
  | .ok _ g' => Adds g g' src dst edge ∧ g'.PortsUnique
  | .error _ g' => g' = g ∧ g.Refused src dst edge

/-- **A call of `add_biedge`, all or nothing**: it adds exactly the two connections that it is asked
for and no port has two, or it throws and the nodes and the connections are what they were. -/
def AddBiedgeAtomic (g : TopoGraph) (src dst : TopoNode) (edge : TopoEdge) : Prop :=
  match g.addBiedge src dst edge with
  | .ok _ g'' => (∃ g', Adds g g' src dst edge ∧ Adds g' g'' dst src (reversed edge)) ∧
      g''.PortsUnique
  | .error _ g' => g'.vertices = g.vertices ∧ g'.connections = g.connections

/-- **A call of `add_biedge`, one direction after the other**: it adds both connections and no port
has two; or it throws because the first one is refused, and the graph is what it was; or it throws
because the second one is refused, and then exactly the first one was added. -/
def AddBiedgeMeets (g : TopoGraph) (src dst : TopoNode) (edge : TopoEdge) : Prop :=
  match g.addBiedge src dst edge with
  | .ok _ g'' => (∃ g', Adds g g' src dst edge ∧ Adds g' g'' dst src (reversed edge)) ∧
      g''.PortsUnique
  | .error _ g' => (g' = g ∧ g.Refused src dst edge) ∨
      (Adds g g' src dst edge ∧ g'.PortsUnique ∧ ¬ g.Refused src dst edge ∧
        g'.Refused dst src (reversed edge))

/-- **What the calls add**, in every graph that calls can make. -/
theorem connections_of_run {calls : List TopoCall}
    (h : Transition.run TopoCall.step {} calls = some g) (src dst : TopoNode) (edge : TopoEdge) :
    g.PortsUnique ∧ g.AddEdgeMeets src dst edge ∧ g.AddBiedgeMeets src dst edge := by
  have hg := wellFormed_of_run h
  have hunique := portsUnique_of_run h
  refine ⟨hunique, ?_, ?_⟩
  · unfold AddEdgeMeets
    rcases hg.addEdge_cases src dst edge with ⟨e, hadd, hrefused⟩ | ⟨b, g₁, hadd, hfree, hadds⟩
    · rw [hadd]
      exact ⟨rfl, hrefused⟩
    · rw [hadd]
      exact ⟨hadds, hunique.adds hfree hadds⟩
  · unfold AddBiedgeMeets
    rcases hg.addBiedge_cases src dst edge with
      ⟨e, hadd, hrefused⟩ | ⟨e, g₁, hadd, hfree, hadds, hrefused⟩ |
        ⟨b, g₁, g₂, hadd, hfree, hadds, hfree', hadds'⟩
    · rw [hadd]
      exact Or.inl ⟨rfl, hrefused⟩
    · rw [hadd]
      exact Or.inr ⟨hadds, hunique.adds hfree hadds, hfree, hrefused⟩
    · rw [hadd]
      exact ⟨⟨g₁, hadds, hadds'⟩, (hunique.adds hfree hadds).adds hfree' hadds'⟩

/-- Two crossbars; port 0 of the second one has an edge that leaves it, but none that arrives. -/
def halfConnectedCalls : List TopoCall :=
  [.addNode (crossbar 1), .addNode (crossbar 2),
    .addEdge (crossbar 2) (crossbar 3) { srcPort := 0, dstPort := 0 }]

def halfConnected : TopoGraph := (Transition.run TopoCall.step {} halfConnectedCalls).getD {}

/-- Both calls on ports that are free, and on ports that are not. -/
theorem connections_halfConnected :
    halfConnected.PortsUnique ∧
      halfConnected.AddEdgeMeets (crossbar 1) (crossbar 2) { srcPort := 0, dstPort := 0 } ∧
      halfConnected.AddBiedgeMeets (crossbar 1) (crossbar 2) { srcPort := 0, dstPort := 0 } :=
  connections_of_run (rfl : Transition.run TopoCall.step {} halfConnectedCalls = some halfConnected)
    (crossbar 1) (crossbar 2) { srcPort := 0, dstPort := 0 }

/-- **Only one direction is left** of an edge from the first crossbar to port 0 of the second. -/
theorem one_direction_remains :
    Transition.run TopoCall.step {} halfConnectedCalls = some halfConnected ∧
      ¬ halfConnected.AddBiedgeAtomic (crossbar 1) (crossbar 2) { srcPort := 0, dstPort := 0 } := by
  refine ⟨rfl, ?_⟩
  rintro ⟨-, hsame⟩
  exact absurd (congrArg List.length hsame) (by decide)

end TopoGraph
end Rfnoc
end UhdHost
