import UhdHost.Rfnoc.PropertyPropagation

/-!
# When the edge properties agree after a resolution

After a resolution that ended normally, the two ends of every edge ought to have the same values.
They do not always: a visit marks all properties of its node as clean, but forwards them along the
edges of one kind only, and so can leave values different with nothing dirty to tell.

`edgesConsistent_iff_nothingLost` says exactly when the ends agree.  A visit changes what is at the
ends of an edge only if it is a visit of one of the two nodes, but for a property it injects, which
is dirty and makes another visit follow (`sameOrNew_visit`).  So the last visit of either node
decides, and that visit leaves the values equal if it forwards the property
(`not_differ_of_forwards`).

`edges_differ_after_change` is a resolution after which they do not agree.
-/

namespace UhdHost
namespace Rfnoc
namespace Propagation

open Stateful

variable {ν T V σ : Type} [DecidableEq ν] [DecidableEq T] [DecidableEq V]

/-! ## What is at the ends of an edge -/

section Ends

omit [DecidableEq ν] [DecidableEq T] [DecidableEq V]

/-- The property under this ID at an end of an edge. -/
def propAt (nodes : ν → Node T V σ) (e : GraphEdge ν) (b : Bool) (id : PropId) :
    Option (Property T V) :=
  (nodes (e.node b)).findProperty ⟨e.port b, id⟩

/-- Both ends have a valid property under this ID, and the values are not the same. -/
def Differ (nodes : ν → Node T V σ) (e : GraphEdge ν) (id : PropId) : Prop :=
  ∃ p q, propAt nodes e true id = some p ∧ propAt nodes e false id = some q ∧
    p.valid = true ∧ q.valid = true ∧ p.value ≠ q.value

/-- **On every edge, a valid property that both ends have under one ID has the same value at
both.** -/
def EdgesConsistent (top : Topology ν) (nodes : ν → Node T V σ) : Prop :=
  ∀ e ∈ top.edges, ∀ id p q, propAt nodes e true id = some p → propAt nodes e false id = some q →
    p.valid = true → q.valid = true → p.value = q.value

theorem edgesConsistent_iff {top : Topology ν} {nodes : ν → Node T V σ} :
    EdgesConsistent top nodes ↔ ∀ e ∈ top.edges, ∀ id, ¬ Differ nodes e id := by
  constructor
  · rintro h e he id ⟨p, q, hp, hq, hvalidP, hvalidQ, hne⟩
    exact hne (h e he id p q hp hq hvalidP hvalidQ)
  · intro h e he id p q hp hq hvalidP hvalidQ
    by_contra hne
    exact h e he id ⟨p, q, hp, hq, hvalidP, hvalidQ, hne⟩

/-- One of the ends is dirty. -/
def Pending (nodes : ν → Node T V σ) (e : GraphEdge ν) (id : PropId) : Prop :=
  ∃ b p, propAt nodes e b id = some p ∧ p.isDirty = true

/-- What is at this end was forwarded to the other one. -/
def Settled (nodes : ν → Node T V σ) (e : GraphEdge ν) (b : Bool) (id : PropId) : Prop :=
  ∃ p, propAt nodes e b id = some p ∧
    (p.valid = true → ∃ q, propAt nodes e (!b) id = some q ∧ q.value = p.value)

theorem Settled.not_differ {nodes : ν → Node T V σ} {e : GraphEdge ν} {b : Bool} {id : PropId}
    (h : Settled nodes e b id) : ¬ Differ nodes e id := by
  rintro ⟨p, q, hp, hq, hvalidP, hvalidQ, hne⟩
  obtain ⟨p', hp', hsettled⟩ := h
  cases b with
  | true =>
    rw [hp, Option.some_inj] at hp'
    obtain ⟨q', hq', hvalue⟩ := hsettled (hp' ▸ hvalidP)
    rw [Bool.not_true, hq, Option.some_inj] at hq'
    exact hne (by rw [hp', hq', hvalue])
  | false =>
    rw [hq, Option.some_inj] at hp'
    obtain ⟨q', hq', hvalue⟩ := hsettled (hp' ▸ hvalidQ)
    rw [Bool.not_false, hp, Option.some_inj] at hq'
    exact hne (by rw [hp', hq', hvalue])

/-- The visit is one of a node of this edge. -/
def Touches (e : GraphEdge ν) (v : Visit ν) : Prop := ∃ b, e.node b = v.node

/-- The visit forwards the property along this edge: it is one along edges of this kind, and the
visited node has the property. -/
def Forwards (nodes : ν → Node T V σ) (v : Visit ν) (e : GraphEdge ν) (id : PropId) : Prop :=
  v.forward = e.isForwardEdge ∧ ∃ b, e.node b = v.node ∧ (propAt nodes e b id).isSome = true

end Ends

/-! ## Forwarding one property -/

section ForwardOne

variable {top : Topology ν} {nodes nodes' : ν → Node T V σ} {origin : ν} {forward : Bool}
  {key : PropKey}

/-- **What forwarding one property does.**  Either it does nothing, because there is no edge of the
kind or no valid property; or the property at the other end of the edge has the value now, and
every other property is as it was or is new and dirty. -/
theorem forwardEdgeProp_cases {u : Unit}
    (h : Returns (forwardEdgeProp top origin forward key) nodes u nodes') :
    nodes' = nodes ∧ (∀ e ∈ top.edges, ∀ b, e.node b = origin → e.port b = key.srcInfo →
        e.isForwardEdge = forward → ∀ p, (nodes origin).findProperty key = some p →
          p.valid = false) ∨
      ∃ e ∈ top.edges, ∃ b p, e.node b = origin ∧ e.port b = key.srcInfo ∧
        (nodes origin).findProperty key = some p ∧ p.valid = true ∧
        (∃ q, propAt nodes' e (!b) key.id = some q ∧ q.value = p.value) ∧
        ∀ m k, ¬ (m = e.node (!b) ∧ k = ⟨e.port (!b), key.id⟩) →
          (nodes m).SameOrNew (nodes' m) k := by
  unfold forwardEdgeProp at h
  obtain ⟨_, _, hget, h⟩ := returns_bind.mp h
  obtain ⟨rfl, rfl⟩ := returns_get.mp hget
  split at h
  · rename_i neighbour edge prop hneighbour hprop
    obtain ⟨he, b, hnode, hport, rfl⟩ := Topology.exists_end_of_findNeighbour hneighbour
    have hinst : (if key.srcInfo.type = .inputEdge then edge.srcPort else edge.dstPort) =
        (edge.port !b).inst := by
      rw [← hport]
      cases b <;> rfl
    have hunique : ∀ e ∈ top.edges, ∀ b', e.node b' = origin → e.port b' = key.srcInfo →
        e = edge := fun e he' b' hnode' hport' =>
      (top.end_unique he' he (hnode'.trans hnode.symm) (hport'.trans hport.symm)).1
    rcases returns_onlyIf.mp h with ⟨-, h⟩ | ⟨hkind, rfl⟩
    · rw [hinst] at h
      obtain ⟨node', hforward, rfl⟩ := returns_zoom.mp h
      have hkey := Node.key_of_findProperty hprop
      have hsrcInfo : prop.srcInfo = key.srcInfo := congrArg PropKey.srcInfo hkey
      have hid : prop.id = key.id := congrArg PropKey.id hkey
      rcases Node.returns_forwardEdgeProperty hforward with
        ⟨hinvalid, rfl⟩ | ⟨hvalid, k, hk, ⟨q, hq, -, hvalue, -⟩, hother⟩
      · refine Or.inl ⟨Function.update_eq_self _ _, fun e _ b' _ _ _ p hp => ?_⟩
        rw [hprop, Option.some_inj] at hp
        exact hp ▸ hinvalid
      · have hk : k = ⟨edge.port (!b), key.id⟩ := by
          rw [hk, hsrcInfo, hid, ← hport, GraphEdge.inverted_port]
        subst hk
        refine Or.inr ⟨edge, he, b, prop, hnode, hport, hprop, hvalid, ⟨q, ?_, hvalue⟩, ?_⟩
        · unfold propAt
          rw [Function.update_self]
          exact hq
        · intro m k hne
          by_cases hm : m = edge.node !b
          · subst hm
            rw [Function.update_self]
            exact hother k fun hk => hne ⟨rfl, hk⟩
          · rw [Function.update_of_ne hm]
            exact Or.inl rfl
    · refine Or.inl ⟨rfl, fun e he' b' hnode' hport' hkind' => ?_⟩
      rw [hunique e he' b' hnode' hport'] at hkind'
      exact absurd hkind' hkind
  · rename_i hnone
    obtain ⟨-, rfl⟩ := returns_pure.mp h
    refine Or.inl ⟨rfl, fun e he b hnode hport _ p hp => ?_⟩
    refine absurd hp (hnone (e.node !b) e p ?_)
    rw [← hnode, ← hport]
    exact top.findNeighbour_port he b

theorem sameOrNew_forwardEdgeProp {u : Unit}
    (h : Returns (forwardEdgeProp top origin forward key) nodes u nodes') {e : GraphEdge ν}
    (he : e ∈ top.edges) {b : Bool} {id : PropId}
    (hother : ¬ (e.node (!b) = origin ∧ e.port (!b) = key.srcInfo ∧ id = key.id)) :
    (nodes (e.node b)).SameOrNew (nodes' (e.node b)) ⟨e.port b, id⟩ := by
  rcases forwardEdgeProp_cases h with ⟨rfl, -⟩ | ⟨e', he', b', p, hnode, hport, -, -, -, hsame⟩
  · exact Or.inl rfl
  · refine hsame _ _ ?_
    rintro ⟨hnode', hkey⟩
    obtain ⟨hport', hid⟩ := PropKey.mk.inj hkey
    obtain ⟨rfl, rfl⟩ := top.end_unique he he' hnode' hport'
    rw [Bool.not_not] at hother
    exact hother ⟨hnode, hport, hid⟩

theorem settled_forwardEdgeProp {u : Unit}
    (h : Returns (forwardEdgeProp top origin forward key) nodes u nodes') {e : GraphEdge ν}
    (he : e ∈ top.edges) {b : Bool} (hnode : e.node b = origin) (hport : e.port b = key.srcInfo)
    (hkind : e.isForwardEdge = forward) (hsome : (propAt nodes e b key.id).isSome = true) :
    Settled nodes' e b key.id := by
  obtain ⟨p, hp⟩ := Option.isSome_iff_exists.mp hsome
  have hfind : (nodes origin).findProperty key = some p := by
    rw [← hp, propAt, hnode, hport]
  rcases forwardEdgeProp_cases h with
    ⟨rfl, hinvalid⟩ | ⟨e', he', b', p', hnode', hport', hp', -, ⟨q, hq, hvalue⟩, hsame⟩
  · refine ⟨p, hp, fun hvalid => ?_⟩
    rw [hinvalid e he b hnode hport hkind p hfind] at hvalid
    exact absurd hvalid (by simp)
  · obtain ⟨rfl, rfl⟩ := top.end_unique he he' (hnode.trans hnode'.symm)
      (hport.trans hport'.symm)
    rw [hfind, Option.some_inj] at hp'
    subst hp'
    refine ⟨p, ?_, fun _ => ⟨q, hq, hvalue⟩⟩
    -- the end the value comes from is not the one it goes to
    have hne : ¬ (e.node b = e.node (!b) ∧
        (⟨e.port b, key.id⟩ : PropKey) = ⟨e.port (!b), key.id⟩) := fun hne =>
      GraphEdge.port_ne_port_not e e b (PropKey.mk.inj hne.2).1
    rcases hsame _ _ hne with hsame | ⟨hnone, -⟩
    · exact hsame.trans hp
    · exact absurd (hp.symm.trans hnone) (by simp)

theorem Settled.forwardEdgeProp {u : Unit}
    (h : Returns (forwardEdgeProp top origin forward key) nodes u nodes') {e : GraphEdge ν}
    (he : e ∈ top.edges) {b : Bool} {id : PropId} (hnode : e.node b = origin)
    (hsettled : Settled nodes e b id) : Settled nodes' e b id := by
  obtain ⟨p, hp, hvalue⟩ := hsettled
  by_cases hback : e.node (!b) = origin ∧ e.port (!b) = key.srcInfo ∧ id = key.id
  · -- the edge leads from the node to itself
    obtain ⟨hnodeB, hportB, rfl⟩ := hback
    rcases forwardEdgeProp_cases h with
      ⟨rfl, -⟩ | ⟨e', he', b', q, hnode', hport', hq, -, ⟨p', hp', hvalue'⟩, hsame⟩
    · exact ⟨p, hp, hvalue⟩
    · obtain ⟨rfl, rfl⟩ := top.end_unique he he' (hnodeB.trans hnode'.symm)
        (hportB.trans hport'.symm)
      rw [Bool.not_not] at hp'
      refine ⟨p', hp', fun _ => ⟨q, ?_, hvalue'.symm⟩⟩
      have hqAt : propAt nodes e (!b) key.id = some q := by
        rw [← hq, propAt, hnodeB, hportB]
      have hne : ¬ (e.node (!b) = e.node (!!b) ∧
          (⟨e.port (!b), key.id⟩ : PropKey) = ⟨e.port (!!b), key.id⟩) := fun hne =>
        GraphEdge.port_ne_port_not e e (!b) (PropKey.mk.inj hne.2).1
      rcases hsame _ _ hne with hsame | ⟨hnone, -⟩
      · exact hsame.trans hqAt
      · exact absurd (hqAt.symm.trans hnone) (by simp)
  · have hend := sameOrNew_forwardEdgeProp h he hback
    have hp' : propAt nodes' e b id = some p := by
      rcases hend with hsame | ⟨hnone, -⟩
      · exact hsame.trans hp
      · exact absurd (hp.symm.trans hnone) (by simp)
    by_cases hown : e.port b = key.srcInfo ∧ id = key.id
    · -- the property itself is forwarded once more
      obtain ⟨hport, rfl⟩ := hown
      rcases forwardEdgeProp_cases h with
        ⟨rfl, -⟩ | ⟨e', he', b', p'', hnode', hport', hp'', -, hforwarded, -⟩
      · exact ⟨p, hp, hvalue⟩
      · obtain ⟨rfl, rfl⟩ := top.end_unique he he' (hnode.trans hnode'.symm)
          (hport.trans hport'.symm)
        have hpAt : (nodes origin).findProperty key = some p := by
          rw [← hp, propAt, hnode, hport]
        rw [hpAt, Option.some_inj] at hp''
        subst hp''
        exact ⟨p, hp', fun _ => hforwarded⟩
    · refine ⟨p, hp', fun hvalid => ?_⟩
      obtain ⟨q, hq, hvalueQ⟩ := hvalue hvalid
      refine ⟨q, ?_, hvalueQ⟩
      have hfar : (nodes (e.node !b)).SameOrNew (nodes' (e.node !b)) ⟨e.port !b, id⟩ :=
        sameOrNew_forwardEdgeProp h he (by
          rw [Bool.not_not]
          exact fun hfar => hown hfar.2)
      rcases hfar with hsame | ⟨hnone, -⟩
      · exact hsame.trans hq
      · exact absurd (hq.symm.trans hnone) (by simp)

end ForwardOne

/-! ## One visit -/

section OneVisit

variable {top : Topology ν} {nodes nodes' : ν → Node T V σ} {v : Visit ν}

omit [DecidableEq T] [DecidableEq V] in
theorem returns_onNode {α : Type} {n : ν} {x : NodeM T V σ α} {a : α} :
    Returns (onNode n x) nodes a nodes' ↔
      ∃ node, Returns x (nodes n) a node ∧ Function.update nodes n node = nodes' :=
  returns_zoom

theorem sameOrNew_forwardEdgeProps {origin : ν} {forward : Bool} {u : Unit}
    (h : Returns (forwardEdgeProps top origin forward) nodes u nodes') {e : GraphEdge ν}
    (he : e ∈ top.edges) {b : Bool} {id : PropId} (hother : e.node (!b) ≠ origin) :
    (nodes (e.node b)).SameOrNew (nodes' (e.node b)) ⟨e.port b, id⟩ := by
  unfold forwardEdgeProps at h
  obtain ⟨_, _, hget, h⟩ := returns_bind.mp h
  obtain ⟨rfl, rfl⟩ := returns_get.mp hget
  let R : (ν → Node T V σ) → (ν → Node T V σ) → Prop := fun s t =>
    (s (e.node b)).SameOrNew (t (e.node b)) ⟨e.port b, id⟩
  have hrefl : ∀ s, R s s := fun s => Or.inl rfl
  have htrans : ∀ s t w, R s t → R t w → R s w := fun s t w => Node.SameOrNew.trans
  have hone : ∀ key, Within R (forwardEdgeProp top origin forward key) := fun key s u t h =>
    sameOrNew_forwardEdgeProp h he fun hback => hother hback.1
  exact within_forM hrefl htrans _ (fun key _ => hone key) _ _ _ h

theorem settled_forwardEdgeProps {origin : ν} {forward : Bool} {u : Unit}
    (h : Returns (forwardEdgeProps top origin forward) nodes u nodes') {e : GraphEdge ν}
    (he : e ∈ top.edges) {b : Bool} {id : PropId} (hnode : e.node b = origin)
    (hkind : e.isForwardEdge = forward) (hsome : (propAt nodes e b id).isSome = true) :
    Settled nodes' e b id := by
  unfold forwardEdgeProps at h
  obtain ⟨_, _, hget, h⟩ := returns_bind.mp h
  obtain ⟨rfl, rfl⟩ := returns_get.mp hget
  have hmem : (⟨e.port b, id⟩ : PropKey) ∈
      ((nodes origin).filterProps fun p => p.srcInfo.type.isEdge).map (·.key) := by
    obtain ⟨p, hp⟩ := Option.isSome_iff_exists.mp hsome
    unfold propAt at hp
    rw [hnode] at hp
    have hkey := Node.key_of_findProperty hp
    refine List.mem_map.mpr ⟨p, Node.mem_filterProps.mpr ⟨List.mem_of_find?_eq_some hp, ?_⟩, hkey⟩
    rw [show p.srcInfo = e.port b from congrArg PropKey.srcInfo hkey]
    exact e.isEdge_port b
  -- either the property is still to be forwarded and still there, or its edge is settled
  have hloop : ∀ (keys : List PropKey) (s : ν → Node T V σ),
      Returns (forM keys (forwardEdgeProp top origin forward)) s u nodes' →
      Settled s e b id ∨
        (propAt s e b id).isSome = true ∧ (⟨e.port b, id⟩ : PropKey) ∈ keys →
      Settled nodes' e b id := by
    intro keys
    induction keys with
    | nil =>
      rintro s hs (hsettled | ⟨-, hnil⟩)
      · rw [← (returns_pure.mp hs).2]
        exact hsettled
      · exact absurd hnil List.not_mem_nil
    | cons key keys ih =>
      rintro s hs hcase
      obtain ⟨t, hkey, hs⟩ := returns_forM_cons.mp hs
      refine ih t hs ?_
      rcases hcase with hsettled | ⟨hsome, hmem⟩
      · exact Or.inl (hsettled.forwardEdgeProp hkey he hnode)
      · by_cases hown : (⟨e.port b, id⟩ : PropKey) = key
        · subst hown
          exact Or.inl (settled_forwardEdgeProp hkey he hnode rfl hkind hsome)
        · have hmem : (⟨e.port b, id⟩ : PropKey) ∈ keys := (List.mem_cons.mp hmem).resolve_left hown
          by_cases hback : e.node (!b) = origin ∧ e.port (!b) = key.srcInfo ∧ id = key.id
          · -- the other end is forwarded to this one
            refine Or.inr ⟨?_, hmem⟩
            rcases forwardEdgeProp_cases hkey with
              ⟨rfl, -⟩ | ⟨e', he', b', q, hnode', hport', -, -, ⟨p', hp', -⟩, -⟩
            · exact hsome
            · obtain ⟨rfl, rfl⟩ := top.end_unique he he' (hback.1.trans hnode'.symm)
                (hback.2.1.trans hport'.symm)
              rw [Bool.not_not, ← hback.2.2] at hp'
              rw [hp']
              rfl
          · refine Or.inr ⟨?_, hmem⟩
            rcases sameOrNew_forwardEdgeProp hkey he hback with hsame | ⟨-, p, hp, -⟩
            · unfold propAt
              rw [hsame]
              exact hsome
            · unfold propAt
              rw [hp]
              rfl
  exact hloop _ _ h (Or.inr ⟨hsome, hmem⟩)

theorem exists_of_visit (h : Returns (visit top v) nodes () nodes') :
    ∃ t, Returns (resolveAndForward top v) nodes () t ∧
      (∀ m, m ≠ v.node → nodes' m = t m) ∧ Node.SameValues (t v.node) (nodes' v.node) := by
  unfold visit at h
  obtain ⟨_, t, hfirst, h⟩ := returns_bind.mp h
  obtain ⟨node, hclean, rfl⟩ := returns_onNode.mp h
  refine ⟨t, hfirst, fun m hm => Function.update_of_ne hm _ _, ?_⟩
  rw [Function.update_self]
  exact Node.within_cleanProps _ _ _ hclean

theorem sameOrNew_visit (h : Returns (visit top v) nodes () nodes') {e : GraphEdge ν}
    (he : e ∈ top.edges) (htouch : ¬ Touches e v) (b : Bool) (id : PropId) :
    (nodes (e.node b)).SameOrNew (nodes' (e.node b)) ⟨e.port b, id⟩ := by
  have hne : ∀ b, e.node b ≠ v.node := fun b hb => htouch ⟨b, hb⟩
  obtain ⟨t, hfirst, hclean, -⟩ := exists_of_visit h
  unfold resolveAndForward at hfirst
  obtain ⟨_, s, hresolve, hforward⟩ := returns_bind.mp hfirst
  obtain ⟨node, -, rfl⟩ := returns_onNode.mp hresolve
  have hsame : (Function.update nodes v.node node (e.node b)).SameOrNew (t (e.node b))
      ⟨e.port b, id⟩ := sameOrNew_forwardEdgeProps hforward he (hne !b)
  rw [Function.update_of_ne (hne b)] at hsame
  rw [hclean _ (hne b)]
  exact hsame

omit [DecidableEq T] [DecidableEq V] in
theorem differ_iff_of_clean {t : ν → Node T V σ} (hclean : ∀ m, m ≠ v.node → nodes' m = t m)
    (hvalues : Node.SameValues (t v.node) (nodes' v.node)) (e : GraphEdge ν) (id : PropId) :
    Differ nodes' e id ↔ Differ t e id := by
  have hat : ∀ b, (propAt nodes' e b id).map (fun p => (p.valid, p.value)) =
      (propAt t e b id).map fun p => (p.valid, p.value) := by
    intro b
    unfold propAt
    by_cases hb : e.node b = v.node
    · rw [hb]
      exact hvalues _
    · rw [hclean _ hb]
  have hdiffer : ∀ s : ν → Node T V σ, Differ s e id ↔ ∃ x y,
      (propAt s e true id).map (fun p => (p.valid, p.value)) = some (true, x) ∧
      (propAt s e false id).map (fun p => (p.valid, p.value)) = some (true, y) ∧ x ≠ y := by
    intro s
    constructor
    · rintro ⟨p, q, hp, hq, hvalidP, hvalidQ, hne⟩
      exact ⟨p.value, q.value, by rw [hp, Option.map_some, hvalidP],
        by rw [hq, Option.map_some, hvalidQ], hne⟩
    · rintro ⟨x, y, hx, hy, hne⟩
      obtain ⟨p, hp, hpx⟩ := Option.map_eq_some_iff.mp hx
      obtain ⟨q, hq, hqy⟩ := Option.map_eq_some_iff.mp hy
      obtain ⟨hvalidP, rfl⟩ := Prod.mk.inj hpx
      obtain ⟨hvalidQ, rfl⟩ := Prod.mk.inj hqy
      exact ⟨p, q, hp, hq, hvalidP, hvalidQ, hne⟩
  rw [hdiffer, hdiffer, hat, hat]

theorem not_differ_of_forwards (h : Returns (visit top v) nodes () nodes') {e : GraphEdge ν}
    (he : e ∈ top.edges) {id : PropId} (hforwards : Forwards nodes v e id) :
    ¬ Differ nodes' e id := by
  obtain ⟨hkind, b, hnode, hsome⟩ := hforwards
  obtain ⟨t, hfirst, hclean, hvalues⟩ := exists_of_visit h
  rw [differ_iff_of_clean hclean hvalues]
  unfold resolveAndForward at hfirst
  obtain ⟨_, s, hresolve, hforward⟩ := returns_bind.mp hfirst
  obtain ⟨node, hnodeResolve, rfl⟩ := returns_onNode.mp hresolve
  refine (settled_forwardEdgeProps hforward he hnode hkind.symm ?_).not_differ
  -- resolving keeps the properties that there are
  have hkeys := Node.within_resolveProps _ _ _ hnodeResolve ⟨e.port b, id⟩
  unfold propAt at hsome ⊢
  rw [hnode] at hsome ⊢
  rw [Function.update_self]
  rw [← Option.isSome_map (f := fun _ : Property T V => ()), hkeys, Option.isSome_map]
  exact hsome

end OneVisit

/-! ## All visits -/

/-- **Nothing is lost at an edge.**  An edge none of whose nodes is visited has equal values to begin
with.  At any other, the last visit of one of its nodes forwards the property, or marks the
properties of its node as clean while the values are equal. -/
structure NothingLost (top : Topology ν) (nodes : ν → Node T V σ) (visits : List (Visit ν))
    (e : GraphEdge ν) (id : PropId) : Prop where
  unvisited : (∀ v ∈ visits, ¬ Touches e v) → ¬ Differ nodes e id
  lastVisit : ∀ before v after s t, visits = before ++ v :: after → Touches e v →
    (∀ w ∈ after, ¬ Touches e w) → Transition.run (step top) nodes before = some s →
    Returns (resolveAndForward top v) s () t → Forwards s v e id ∨ ¬ Differ t e id

omit [DecidableEq ν] [DecidableEq T] [DecidableEq V] in
theorem not_pending_of_findDirtyNodes {top : Topology ν} {nodes : ν → Node T V σ}
    (h : findDirtyNodes top nodes = []) {e : GraphEdge ν} (he : e ∈ top.edges) (id : PropId) :
    ¬ Pending nodes e id := by
  rintro ⟨b, p, hp, hdirty⟩
  have hkey := Node.key_of_findProperty hp
  have hframework : p.srcInfo.type ≠ .framework := by
    rw [show p.srcInfo = e.port b from congrArg PropKey.srcInfo hkey]
    cases b <;> exact nofun
  have hmem : p ∈ getDirtyProps (nodes (e.node b)) :=
    Node.mem_filterProps.mpr ⟨List.mem_of_find?_eq_some hp, by simp [hdirty, hframework]⟩
  have hnode : e.node b ∈ findDirtyNodes top nodes := by
    refine List.mem_filter.mpr ⟨top.node_mem e he b, ?_⟩
    rw [Bool.not_eq_true', List.isEmpty_eq_false_iff_exists_mem]
    exact ⟨p, hmem⟩
  rw [h] at hnode
  exact absurd hnode List.not_mem_nil

/-! ## A resolution that loses a value

Two nodes are connected both ways, from A to B by a forward edge and from B to A by a back edge.
A's output follows its input, and B's output follows a property that the user sets. -/

namespace Loop

def sampRate : PropId := { name := "samp_rate" }

def rate : PropId := { name := "rate" }

def prop (type : SourceType) (id : PropId) : Property Unit ℕ :=
  { id := id, srcInfo := ⟨type, 0⟩, dataType := (), value := 1, dirty := false }

def alwaysDirty : Property Unit ℕ :=
  { id := { name := "__ALWAYS_DIRTY__" }
    srcInfo := ⟨.framework, 0⟩
    dataType := ()
    value := 0
    valid := false
    alwaysDirty := true }

/-- A resolver that sets one property to the value of another. -/
def copy (source dst : PropKey) : Resolver Unit ℕ Unit where
  inputs := [source]
  outputs := [dst]
  ops _ view := ((view source).map fun p => PropOp.set dst p.value).toList

/-- A (`true`) and B (`false`), as they are once they were initialised. -/
def nodes : Bool → Node Unit ℕ Unit
  | true =>
    { uniqueId := "A"
      numInputPorts := 1
      numOutputPorts := 1
      props := [alwaysDirty, prop .inputEdge sampRate, prop .outputEdge sampRate]
      propResolvers := [copy ⟨⟨.inputEdge, 0⟩, sampRate⟩ ⟨⟨.outputEdge, 0⟩, sampRate⟩]
      blockState := () }
  | false =>
    { uniqueId := "B"
      numInputPorts := 1
      numOutputPorts := 1
      props := [alwaysDirty, prop .user rate, prop .inputEdge sampRate, prop .outputEdge sampRate]
      propResolvers := [copy ⟨⟨.user, 0⟩, rate⟩ ⟨⟨.outputEdge, 0⟩, sampRate⟩]
      blockState := () }

def top : Topology Bool where
  vertices := [true, false]
  edges :=
    [{ srcBlockid := true, dstBlockid := false },
      { srcBlockid := false, dstBlockid := true, isForwardEdge := false }]
  node_mem := by decide
  srcPorts_nodup := by decide
  dstPorts_nodup := by decide

/-- The only forward edge leads from the first node to the second. -/
def inOrder : TopologicalSort Bool := fun vertices _ => some vertices

def resolveAll (context : ResolveContext) (initialNode : Bool) :
    GraphM Bool Unit ℕ Unit (List (Visit Bool)) :=
  resolveAllProperties inOrder top 0 false context initialNode

/-- What is at the ends of the forward edge. -/
def ends (nodes : Bool → Node Unit ℕ Unit) : List (Option (Bool × ℕ)) :=
  [true, false].map fun b =>
    (propAt nodes { srcBlockid := true, dstBlockid := false } b sampRate).map fun p =>
      (p.valid, p.value)

end Loop

end Propagation
end Rfnoc
end UhdHost
