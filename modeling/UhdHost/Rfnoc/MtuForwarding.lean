import Mathlib.Logic.Relation
import Mathlib.Order.Bounds.Basic
import UhdHost.Library.Transition
import UhdHost.Rfnoc.Node

/-!
# How a block forwards its MTUs

The MTU properties of `noc_block_base`, one for each edge, with the resolvers that the constructor
and `set_mtu_forwarding_policy` add, and the loop of `resolve_props` over them.  No other property
takes part in it.

An edge is *linked* to another one if its policy says that MTUs are forwarded from the one to the
other, be it over further edges (`Linked`); the resolvers follow `addToOutputProps` instead, which
differs from it for `ONE_TO_ALL`: there an edge has to differ in both direction and port number.

* `Resolving`: the invariant of the loop, which is one of a worklist.  What the MTU of an edge is
  going to be (`target`) is known beforehand; what was written has it, what is in the list gets it,
  and what is neither was not touched.
* `resolveLoop_ok`: the loop ends, without an exception, and then every edge has its MTU.
* `consistent_of_run`: over whole runs, the MTU of an edge is the least of what was received on the
  edges that are linked to it.
-/

namespace UhdHost
namespace Rfnoc
namespace MtuForwarding

/-! ## The block -/

/-- A policy that `set_mtu_forwarding_policy` accepts. -/
def policyAccepted (policy : ForwardingPolicy) : Bool :=
  policy = .drop || policy = .oneToOne || policy = .oneToAll || policy = .oneToFan

/-- `noc_block_base`: its ports, its policy, and the MTU that it is made with. -/
structure Block where
  numInputPorts : ℕ
  numOutputPorts : ℕ
  policy : ForwardingPolicy
  accepted : policyAccepted policy = true
  makeArgsMtu : ℕ

/-- `set_mtu_forwarding_policy`: the policy, or what is thrown -/
def setMtuForwardingPolicy (mtuFwdPolicySet : Bool) (policy : ForwardingPolicy) :
    Except UhdError {policy // policyAccepted policy = true} :=
  if mtuFwdPolicySet then
    .error (.runtimeError "MTU forwarding policy can only be set once per NoC block instance")
  else if h : policyAccepted policy = true then .ok ⟨policy, h⟩
  else
    .error (.valueError ("MTU forwarding policy must be either DROP, ONE_TO_ONE, "
      ++ "ONE_TO_ALL, or ONE_TO_FAN!"))

/-- The edges of the block, in the order of `_mtu_props`. -/
def Block.edges (b : Block) : List ResSourceInfo :=
  (List.range b.numInputPorts).map (⟨.inputEdge, ·⟩)
    ++ (List.range b.numOutputPorts).map (⟨.outputEdge, ·⟩)

/-- `add_to_output_props` -/
def addToOutputProps (policy : ForwardingPolicy) (srcEdge dstEdge : ResSourceInfo) : Bool :=
  match policy with
  | .oneToOne => decide (dstEdge.type.inverted = srcEdge.type ∧ dstEdge.inst = srcEdge.inst)
  | .oneToAll => decide (dstEdge.type ≠ srcEdge.type ∧ dstEdge.inst ≠ srcEdge.inst)
  | .oneToFan => decide (dstEdge.type.inverted = srcEdge.type)
  | _ => false

/-- The outputs of the resolver that forwards the MTU of an edge. -/
def Block.outputProps (b : Block) (srcEdge : ResSourceInfo) : List ResSourceInfo :=
  b.edges.filter (addToOutputProps b.policy srcEdge)

/-- The MTU properties, and `_mtu`. -/
structure State where
  value : ResSourceInfo → ℕ
  dirty : ResSourceInfo → Bool := fun _ => false
  mtu : ResSourceInfo → ℕ

namespace State

/-- The MTU property of an edge is written, and gets dirty if that changes it. -/
def write (edge : ResSourceInfo) (v : ℕ) (s : State) : State :=
  { s with
    value := Function.update s.value edge v
    dirty := Function.update s.dirty edge (s.dirty edge || decide (s.value edge ≠ v)) }

/-- `set` of the MTU property of an edge, which may be locked -/
def set (locked : Bool) (edge : ResSourceInfo) (v : ℕ) (s : State) : Except UhdError State :=
  if locked then
    if s.value edge ≠ v then
      .error (.resolveError ("Attempting to overwrite property `mtu@" ++ edge.toString
        ++ "' with a new value after it was locked!"))
    else .ok s
  else .ok (s.write edge v)

/-- `_mtu.at(edge)` becomes what the property is. -/
def store (edge : ResSourceInfo) (s : State) : State :=
  { s with mtu := Function.update s.mtu edge (s.value edge) }

/-- The smaller one of the property and `_mtu`. -/
def newMtu (s : State) (edge : ResSourceInfo) : ℕ := min (s.value edge) (s.mtu edge)

/-- The resolver of the constructor. -/
def coerce (locked : Bool) (srcEdge : ResSourceInfo) (s : State) : Except UhdError State :=
  (s.set locked srcEdge (s.newMtu srcEdge)).map (store srcEdge)

/-- The loop of the resolver of `set_mtu_forwarding_policy`. -/
def forward (written : List ResSourceInfo) (newMtu : ℕ) :
    List ResSourceInfo → State → Except UhdError State
  | [], s => .ok s
  | dstEdge :: dstEdges, s =>
    (s.set (decide (dstEdge ∈ written)) dstEdge newMtu).bind fun s =>
      forward written newMtu dstEdges (s.store dstEdge)

end State

/-- Both resolvers that take an edge as an input, in turn: the state, and what is added to the list
of dirty properties. -/
def runResolversOf (b : Block) (edge : ResSourceInfo) (processed written : List ResSourceInfo)
    (s : State) : Except UhdError (State × List ResSourceInfo) :=
  (s.coerce (decide (edge ∈ written)) edge).bind fun s₁ =>
    (s₁.forward (written ++ [edge]) (s₁.newMtu edge) (b.outputProps edge)).map fun s₂ =>
      (s₂, ([edge].filter fun e => s₁.dirty e && decide (e ∉ processed))
        ++ (b.outputProps edge).filter fun e => s₂.dirty e && decide (e ∉ processed))

/-- The loop of `resolve_props` -/
def resolveLoop (b : Block) :
    ℕ → List ResSourceInfo → List ResSourceInfo → List ResSourceInfo → State →
      Except UhdError State
  | _, [], _, _, s => .ok s
  | 0, _ :: _, _, _, _ => .error (.runtimeError "the list of dirty properties does not end")
  | fuel + 1, edge :: todo, processed, written, s =>
    if edge ∈ processed then resolveLoop b fuel todo processed written s
    else
      (runResolversOf b edge processed written s).bind fun result =>
        resolveLoop b fuel (todo ++ result.2) (processed ++ [edge])
          (written ++ [edge] ++ b.outputProps edge) result.1

/-- How long the list can get. -/
def Block.resolveFuel (b : Block) : ℕ := b.edges.length + b.edges.length * (b.edges.length + 1)

/-- `resolve_props`, where the properties are walked in an order, and `clean_props` -/
def resolveProps (b : Block) (order : List ResSourceInfo) (s : State) : Except UhdError State :=
  (resolveLoop b b.resolveFuel (order.filter s.dirty) [] [] s).map fun s =>
    { s with dirty := fun _ => false }

/-- Receive MTUs on edges, before the properties are resolved. -/
def receive : List (ResSourceInfo × ℕ) → State → State
  | [], s => s
  | (edge, v) :: updates, s =>
    receive updates (s.write edge v)

/-! ## Runs -/

/-- MTUs that are received on edges of the block, and the order in which the properties are walked
when they are then resolved. -/
structure Batch (b : Block) where
  updates : List (ResSourceInfo × ℕ)
  order : List ResSourceInfo
  edges : ∀ u ∈ updates, u.1 ∈ b.edges
  perm : order.Perm b.edges

/-- The block, and what it has received. -/
structure Session where
  state : State
  received : List (ResSourceInfo × ℕ) := []

/-- A block that was just made. -/
def start (b : Block) : Session where
  state := { value := fun _ => b.makeArgsMtu, mtu := fun _ => b.makeArgsMtu }

/-- Receive a batch and resolve it. -/
def step (b : Block) (s : Session) (batch : Batch b) : Option Session :=
  match resolveProps b batch.order (receive batch.updates s.state) with
  | .ok state => some { state := state, received := s.received ++ batch.updates }
  | .error _ => none

/-! ## What is claimed -/

/-- What the policies say: which edges an MTU is forwarded to. -/
def forwards (policy : ForwardingPolicy) (srcEdge dstEdge : ResSourceInfo) : Prop :=
  match policy with
  | .oneToOne => dstEdge.type ≠ srcEdge.type ∧ dstEdge.inst = srcEdge.inst
  | .oneToAll => True
  | .oneToFan => dstEdge.type ≠ srcEdge.type
  | _ => False

/-- An MTU is forwarded from an edge of the block to another one, in one step. -/
def ForwardStep (b : Block) (e e' : ResSourceInfo) : Prop := e' ∈ b.edges ∧ forwards b.policy e e'

/-- **Linked edges.** -/
def Linked (b : Block) : ResSourceInfo → ResSourceInfo → Prop :=
  Relation.ReflTransGen (ForwardStep b)

/-- **What is claimed after each resolution**: the property of an edge is what `_mtu` holds, and this
is the least of the initial value and all that was received on the edges linked to it. -/
def Consistent (b : Block) (s : Session) : Prop :=
  ∀ e ∈ b.edges, s.state.value e = s.state.mtu e ∧
    IsLeast {v | v = b.makeArgsMtu ∨ ∃ e', (e', v) ∈ s.received ∧ Linked b e' e} (s.state.mtu e)

/-- **The condition on the block**: with `ONE_TO_ALL` there are so many ports that every port has
others, in both direction and number, by which the links reach all. -/
def Block.Reaching (b : Block) : Prop :=
  b.policy = .oneToAll → b.numInputPorts + b.numOutputPorts ≤ 1 ∨
    (2 ≤ b.numInputPorts ∧ 2 ≤ b.numOutputPorts ∧ 5 ≤ b.numInputPorts + b.numOutputPorts)

/-- A resolver writes from an edge to another one. -/
def WriteStep (b : Block) (e e' : ResSourceInfo) : Prop := e' ∈ b.outputProps e

/-- The dirty properties that a resolution starts with. -/
def Batch.dirty {b : Block} (batch : Batch b) (s : Session) : List ResSourceInfo :=
  batch.order.filter (receive batch.updates s.state).dirty

/-- **The condition on a batch**: an edge that is walked has received the least of what was received
on the edges linked to it, or an edge that is walked before writes to it. -/
def Batch.Agrees (b : Block) (s : Session) (batch : Batch b) : Prop :=
  ∀ before e after, batch.dirty s = before ++ e :: after →
    (∀ u ∈ batch.updates, Linked b u.1 e →
      (receive batch.updates s.state).newMtu e ≤ u.2) ∨ ∃ d ∈ before, WriteStep b d e

/-! ## The links of the resolvers -/

section Links

variable {b : Block} {e e' : ResSourceInfo}

theorem mem_edges : e ∈ b.edges ↔
    (e.type = .inputEdge ∧ e.inst < b.numInputPorts) ∨
      (e.type = .outputEdge ∧ e.inst < b.numOutputPorts) := by
  rcases e with ⟨type, inst⟩
  simp only [Block.edges, List.mem_append, List.mem_map, List.mem_range, ResSourceInfo.mk.injEq]
  constructor
  · rintro (⟨i, hi, rfl, rfl⟩ | ⟨i, hi, rfl, rfl⟩)
    · exact Or.inl ⟨rfl, hi⟩
    · exact Or.inr ⟨rfl, hi⟩
  · rintro (⟨rfl, hi⟩ | ⟨rfl, hi⟩)
    · exact Or.inl ⟨inst, hi, rfl, rfl⟩
    · exact Or.inr ⟨inst, hi, rfl, rfl⟩

theorem type_inverted_eq_iff (he : e ∈ b.edges) (he' : e' ∈ b.edges) :
    e'.type.inverted = e.type ↔ e'.type ≠ e.type := by
  rcases mem_edges.mp he with ⟨h, -⟩ | ⟨h, -⟩ <;> rcases mem_edges.mp he' with ⟨h', -⟩ | ⟨h', -⟩ <;>
    rw [h, h'] <;> decide

theorem forwards_of_add {policy : ForwardingPolicy}
    (htype : e'.type.inverted = e.type ↔ e'.type ≠ e.type)
    (h : addToOutputProps policy e e' = true) : forwards policy e e' := by
  cases policy with
  | oneToOne => exact (of_decide_eq_true h).imp_left htype.mp
  | oneToFan => exact htype.mp (of_decide_eq_true h)
  | oneToAll => trivial
  | oneToAllIn => exact absurd h Bool.false_ne_true
  | oneToAllOut => exact absurd h Bool.false_ne_true
  | drop => exact absurd h Bool.false_ne_true
  | useMap => exact absurd h Bool.false_ne_true

theorem add_of_forwards {policy : ForwardingPolicy} (hall : policy ≠ .oneToAll)
    (htype : e'.type.inverted = e.type ↔ e'.type ≠ e.type) (h : forwards policy e e') :
    addToOutputProps policy e e' = true := by
  cases policy with
  | oneToOne => exact decide_eq_true (h.imp_left htype.mpr)
  | oneToFan => exact decide_eq_true (htype.mpr h)
  | oneToAll => exact absurd rfl hall
  | oneToAllIn => exact h.elim
  | oneToAllOut => exact h.elim
  | drop => exact h.elim
  | useMap => exact h.elim

theorem forwardStep_of_writeStep (he : e ∈ b.edges) (h : WriteStep b e e') :
    ForwardStep b e e' := by
  obtain ⟨he', hadd⟩ := List.mem_filter.mp h
  exact ⟨he', forwards_of_add (type_inverted_eq_iff he he') hadd⟩

theorem writeStep_of_ne (hpolicy : b.policy = .oneToAll) (he' : e' ∈ b.edges)
    (htype : e'.type ≠ e.type) (hinst : e'.inst ≠ e.inst) : WriteStep b e e' := by
  refine List.mem_filter.mpr ⟨he', ?_⟩
  rw [hpolicy]
  exact decide_eq_true ⟨htype, hinst⟩

theorem writes_of_ports (hpolicy : b.policy = .oneToAll) (t t' : SourceType) (hne : t' ≠ t)
    (hsides : ∀ d ∈ b.edges, d.type = t ∨ d.type = t')
    (htwo : ∀ i < 2, (⟨t, i⟩ : ResSourceInfo) ∈ b.edges)
    (hthree : ∀ j < 3, (⟨t', j⟩ : ResSourceInfo) ∈ b.edges)
    (he : e ∈ b.edges) (he' : e' ∈ b.edges) : Relation.ReflTransGen (WriteStep b) e e' := by
  -- Two edges of the first side are linked by a port of the other one that is neither's number.
  have hside : ∀ d d' : ResSourceInfo, d' ∈ b.edges → d.type = t → d'.type = t →
      Relation.ReflTransGen (WriteStep b) d d' := by
    intro d d' hd' ht ht'
    obtain ⟨j, hj, hjd, hjd'⟩ : ∃ j < 3, j ≠ d.inst ∧ j ≠ d'.inst := by
      by_contra hnone
      push Not at hnone
      have h0 := hnone 0 (by omega)
      have h1 := hnone 1 (by omega)
      have h2 := hnone 2 (by omega)
      omega
    have hfirst : WriteStep b d ⟨t', j⟩ :=
      writeStep_of_ne hpolicy (hthree j hj) (by rw [ht]; exact hne) hjd
    have hsecond : WriteStep b ⟨t', j⟩ d' :=
      writeStep_of_ne hpolicy hd' (by rw [ht']; exact hne.symm) hjd'.symm
    exact (Relation.ReflTransGen.single hfirst).tail hsecond
  -- Every edge is next to one of the first side, or is one.
  have hnext : ∀ d ∈ b.edges, ∃ c ∈ b.edges, c.type = t ∧
      Relation.ReflTransGen (WriteStep b) d c ∧ Relation.ReflTransGen (WriteStep b) c d := by
    intro d hd
    rcases hsides d hd with ht | ht
    · exact ⟨d, hd, ht, Relation.ReflTransGen.refl, Relation.ReflTransGen.refl⟩
    · obtain ⟨i, hi, hid⟩ : ∃ i < 2, i ≠ d.inst := by
        by_contra hnone
        push Not at hnone
        have h0 := hnone 0 (by omega)
        have h1 := hnone 1 (by omega)
        omega
      refine ⟨⟨t, i⟩, htwo i hi, rfl, Relation.ReflTransGen.single ?_,
        Relation.ReflTransGen.single ?_⟩
      · exact writeStep_of_ne hpolicy (htwo i hi) (by rw [ht]; exact hne.symm) hid
      · exact writeStep_of_ne hpolicy hd (by rw [ht]; exact hne) hid.symm
  obtain ⟨c, hc, ht, hec, -⟩ := hnext e he
  obtain ⟨c', hc', ht', -, hce'⟩ := hnext e' he'
  exact (hec.trans (hside c c' hc' ht ht')).trans hce'

theorem writes_of_oneToAll (hpolicy : b.policy = .oneToAll) (hreaching : b.Reaching)
    (he : e ∈ b.edges) (he' : e' ∈ b.edges) : Relation.ReflTransGen (WriteStep b) e e' := by
  rcases hreaching hpolicy with hfew | ⟨hin, hout, hmany⟩
  · have heq : e = e' := by
      rcases e with ⟨t, i⟩
      rcases e' with ⟨t', i'⟩
      have h := mem_edges.mp he
      have h' := mem_edges.mp he'
      simp only at h h'
      rcases h with ⟨rfl, hi⟩ | ⟨rfl, hi⟩ <;> rcases h' with ⟨rfl, hi'⟩ | ⟨rfl, hi'⟩
      · rw [show i = i' by omega]
      · omega
      · omega
      · rw [show i = i' by omega]
    rw [heq]
  · by_cases hthree : 3 ≤ b.numOutputPorts
    · refine writes_of_ports hpolicy .inputEdge .outputEdge (by decide) ?_ ?_ ?_
        he he'
      · exact fun d hd => (mem_edges.mp hd).imp And.left And.left
      · exact fun i hi => mem_edges.mpr (Or.inl ⟨rfl, hi.trans_le hin⟩)
      · exact fun j hj => mem_edges.mpr (Or.inr ⟨rfl, hj.trans_le hthree⟩)
    · refine writes_of_ports hpolicy .outputEdge .inputEdge (by decide) ?_ ?_ ?_
        he he'
      · exact fun d hd => (mem_edges.mp hd).symm.imp And.left And.left
      · exact fun i hi => mem_edges.mpr (Or.inr ⟨rfl, hi.trans_le hout⟩)
      · exact fun j hj => mem_edges.mpr (Or.inl ⟨rfl, lt_of_lt_of_le hj (by omega)⟩)

theorem writes_of_linked (hreaching : b.Reaching) (he : e ∈ b.edges) (h : Linked b e e') :
    Relation.ReflTransGen (WriteStep b) e e' := by
  by_cases hall : b.policy = .oneToAll
  · refine writes_of_oneToAll hall hreaching he ?_
    clear hall hreaching
    induction h with
    | refl => exact he
    | tail _ hstep _ => exact hstep.1
  · suffices hboth : e' ∈ b.edges ∧ Relation.ReflTransGen (WriteStep b) e e' from hboth.2
    induction h with
    | refl => exact ⟨he, Relation.ReflTransGen.refl⟩
    | @tail d d' _ hstep ih =>
      obtain ⟨hd, hreach⟩ := ih
      have hadd := add_of_forwards hall (type_inverted_eq_iff hd hstep.1) hstep.2
      exact ⟨hstep.1, hreach.tail (List.mem_filter.mpr ⟨hstep.1, hadd⟩)⟩

theorem mem_edges_of_linked (he : e ∈ b.edges) (h : Linked b e e') : e' ∈ b.edges := by
  induction h with
  | refl => exact he
  | tail _ hstep _ => exact hstep.1

theorem forwards_symm {policy : ForwardingPolicy} (h : forwards policy e e') :
    forwards policy e' e := by
  rcases policy with _ | _ | _ | _ | _ | _ | _
  · exact ⟨h.1.symm, h.2.symm⟩
  · exact Ne.symm h
  · exact h.elim
  · exact h.elim
  · trivial
  · exact h.elim
  · exact h.elim

theorem linked_symm (he : e ∈ b.edges) (h : Linked b e e') : Linked b e' e := by
  induction h with
  | refl => exact Relation.ReflTransGen.refl
  | tail hlinked hstep ih =>
    exact Relation.ReflTransGen.head ⟨mem_edges_of_linked he hlinked, forwards_symm hstep.2⟩ ih

end Links

/-! ## What the resolvers do to the MTUs -/

namespace State

variable {s s' : State} {e : ResSourceInfo}

/-- An edge is done: the property and `_mtu` hold its MTU. -/
def Done (s : State) (e : ResSourceInfo) (v : ℕ) : Prop := s.value e = v ∧ s.mtu e = v

/-- Nothing happens to an edge. -/
def Same (s s' : State) (e : ResSourceInfo) : Prop := s'.value e = s.value e ∧ s'.mtu e = s.mtu e

@[simp] theorem write_value (s : State) (e : ResSourceInfo) (v : ℕ) :
    (s.write e v).value = Function.update s.value e v := rfl

@[simp] theorem write_dirty (s : State) (e : ResSourceInfo) (v : ℕ) : (s.write e v).dirty
    = Function.update s.dirty e (s.dirty e || decide (s.value e ≠ v)) := rfl

@[simp] theorem write_mtu (s : State) (e : ResSourceInfo) (v : ℕ) : (s.write e v).mtu = s.mtu := rfl

@[simp] theorem store_value (s : State) (e : ResSourceInfo) : (s.store e).value = s.value := rfl

@[simp] theorem store_dirty (s : State) (e : ResSourceInfo) : (s.store e).dirty = s.dirty := rfl

@[simp] theorem store_mtu (s : State) (e : ResSourceInfo) :
    (s.store e).mtu = Function.update s.mtu e (s.value e) := rfl

theorem set_store (s : State) (e : ResSourceInfo) {l : Bool} {v : ℕ} (h : l = true → s.value e = v) :
    ∃ s₁, s.set l e v = .ok s₁ ∧ (s₁.store e).Done e v ∧
      (∀ d, d ≠ e → s.Same (s₁.store e) d) ∧
      (s.value e ≠ v → (s₁.store e).dirty e = true) ∧
      ∀ d, s.dirty d = true → (s₁.store e).dirty d = true := by
  rw [set]
  cases l with
  | true =>
    have hv := h rfl
    rw [if_pos rfl, if_neg (not_not_intro hv)]
    refine ⟨s, rfl, ⟨hv, ?_⟩, fun d hd => ⟨rfl, ?_⟩, fun hne => absurd hv hne, fun d hd => hd⟩
    · rw [store_mtu, Function.update_self]
      exact hv
    · rw [store_mtu, Function.update_of_ne hd]
  | false =>
    rw [if_neg Bool.false_ne_true]
    refine ⟨_, rfl, ⟨?_, ?_⟩, fun d hd => ⟨?_, ?_⟩, fun hne => ?_, fun d hd => ?_⟩
    · exact Function.update_self _ _ _
    · rw [store_mtu, Function.update_self]
      exact Function.update_self _ _ _
    · exact Function.update_of_ne hd _ _
    · exact Function.update_of_ne hd _ _
    · simp only [store_dirty, write_dirty, Function.update_self, decide_eq_true hne, Bool.or_true]
    · simp only [store_dirty, write_dirty]
      by_cases hde : d = e
      · rw [hde] at hd ⊢
        rw [Function.update_self, hd, Bool.true_or]
      · rw [Function.update_of_ne hde, hd]

theorem Same.trans {s₁ s₂ s₃ : State} (h : s₁.Same s₂ e) (h' : s₂.Same s₃ e) : s₁.Same s₃ e :=
  ⟨h'.1.trans h.1, h'.2.trans h.2⟩

theorem Done.of_same {v : ℕ} (h : s.Done e v) (hsame : s.Same s' e) : s'.Done e v :=
  ⟨hsame.1.trans h.1, hsame.2.trans h.2⟩

theorem forward_spec (written : List ResSourceInfo) (v : ℕ) :
    ∀ (dstEdges : List ResSourceInfo) (s : State),
      (∀ d ∈ dstEdges, d ∈ written → s.value d = v) →
      ∃ s', forward written v dstEdges s = .ok s' ∧ (∀ d ∈ dstEdges, s'.Done d v) ∧
        (∀ d, d ∉ dstEdges → s.Same s' d) ∧
        (∀ d ∈ dstEdges, s.value d ≠ v → s'.dirty d = true) ∧
        ∀ d, s.dirty d = true → s'.dirty d = true := by
  intro dstEdges
  induction dstEdges with
  | nil =>
    intro s _
    exact ⟨s, rfl, fun d hd => absurd hd List.not_mem_nil, fun d _ => ⟨rfl, rfl⟩,
      fun d hd => absurd hd List.not_mem_nil, fun d hd => hd⟩
  | cons e dstEdges ih =>
    intro s hlocked
    obtain ⟨s₁, hset, hdone, hsame, hdirty, hkept⟩ := set_store s e (v := v)
      fun h => hlocked e List.mem_cons_self (of_decide_eq_true h)
    have hafter : ∀ d ∈ e :: dstEdges, d ∈ written → (s₁.store e).value d = v := by
      intro d hd hw
      by_cases hde : d = e
      · rw [hde]
        exact hdone.1
      · rw [(hsame d hde).1]
        exact hlocked d hd hw
    obtain ⟨s', hforward, hdone', hsame', hdirty', hkept'⟩ :=
      ih (s₁.store e) fun d hd => hafter d (List.mem_cons_of_mem e hd)
    refine ⟨s', ?_, fun d hd => ?_, fun d hd => ?_, fun d hd hne => ?_, fun d hd => ?_⟩
    · rw [forward, hset]
      exact hforward
    · by_cases hmem : d ∈ dstEdges
      · exact hdone' d hmem
      · have hde : d = e := (List.mem_cons.mp hd).resolve_right hmem
        rw [hde] at hmem ⊢
        exact hdone.of_same (hsame' e hmem)
    · rw [List.mem_cons, not_or] at hd
      exact (hsame d hd.1).trans (hsame' d hd.2)
    · by_cases hde : d = e
      · rw [hde] at hne ⊢
        exact hkept' e (hdirty hne)
      · refine hdirty' d ((List.mem_cons.mp hd).resolve_left hde) ?_
        rw [(hsame d hde).1]
        exact hne
    · exact hkept' d (hkept d hd)

end State

/-! ## The loop -/

/-- **The invariant of the loop**, for what the MTUs are going to be and for the state before it:
what was written is done, what is in the list will be, be it that an edge in front of it writes to
it, and what is neither had nothing received.  What was reduced stays in the list until it was processed, and its resolvers have written all their
outputs then. -/
structure Resolving (b : Block) (target : ResSourceInfo → ℕ) (before : State)
    (todo processed written : List ResSourceInfo) (s : State) : Prop where
  todo_edges : ∀ e ∈ todo, e ∈ b.edges
  processed_edges : ∀ e ∈ processed, e ∈ b.edges
  nodup : processed.Nodup
  outputs : ∀ e ∈ processed, e ∈ written ∧ ∀ e', WriteStep b e e' → e' ∈ written
  done : ∀ e ∈ written, s.Done e (target e)
  next : ∀ front e back, todo = front ++ e :: back →
    s.newMtu e = target e ∨ ∃ d ∈ front, d ∉ processed ∧ WriteStep b d e
  kept : ∀ e ∈ written, target e ≠ before.mtu e → e ∈ todo ∨ e ∈ processed
  same : ∀ e, e ∉ written → before.Same s e
  untouched : ∀ e ∈ b.edges, e ∉ written → e ∉ todo → before.dirty e = false

section Loop

variable {b : Block} {target : ResSourceInfo → ℕ} {before s : State} {e : ResSourceInfo}
  {todo processed written : List ResSourceInfo}

theorem Resolving.skip (h : Resolving b target before (e :: todo) processed written s)
    (he : e ∈ processed) : Resolving b target before todo processed written s where
  todo_edges := fun d hd => h.todo_edges d (List.mem_cons_of_mem e hd)
  processed_edges := h.processed_edges
  nodup := h.nodup
  outputs := h.outputs
  done := h.done
  next := by
    intro front d back heq
    rcases h.next (e :: front) d back (by rw [heq, List.cons_append]) with hnext | ⟨c, hc, hnot, hw⟩
    · exact Or.inl hnext
    · rcases List.mem_cons.mp hc with rfl | hc
      · exact absurd he hnot
      · exact Or.inr ⟨c, hc, hnot, hw⟩
  kept := by
    intro d hd hne
    rcases h.kept d hd hne with hmem | hmem
    · rcases List.mem_cons.mp hmem with rfl | hmem
      · exact Or.inr he
      · exact Or.inl hmem
    · exact Or.inr hmem
  same := h.same
  untouched := by
    intro d hd hw hmem
    refine h.untouched d hd hw fun hcons => ?_
    rcases List.mem_cons.mp hcons with rfl | hcons
    · exact hw (h.outputs d he).1
    · exact hmem hcons

/-- **One pass of the loop.**  The resolvers of an edge of the list write its MTU to it and to their
outputs, without an exception. -/
theorem Resolving.process (hlinks : ∀ e ∈ b.edges, ∀ e', WriteStep b e e' → target e' = target e)
    (hclean : ∀ e ∈ b.edges, before.dirty e = false → before.value e = before.mtu e)
    (h : Resolving b target before (e :: todo) processed written s) (he : e ∉ processed) :
    ∃ s' added, runResolversOf b e processed written s = .ok (s', added) ∧
      added.length ≤ b.edges.length + 1 ∧
      Resolving b target before (todo ++ added) (processed ++ [e])
        (written ++ [e] ++ b.outputProps e) s' := by
  have hedge : e ∈ b.edges := h.todo_edges e List.mem_cons_self
  have hnext : s.newMtu e = target e := by
    rcases h.next [] e todo rfl with hnext | ⟨d, hd, -, -⟩
    · exact hnext
    · exact absurd hd List.not_mem_nil
  obtain ⟨s₁, hset, hdone, hsame, -, -⟩ := State.set_store s e
    (v := s.newMtu e) (l := decide (e ∈ written))
    fun hw => by rw [hnext]; exact (h.done e (of_decide_eq_true hw)).1
  rw [hnext] at hdone
  -- After the first resolver the edge is done, and the others are as before.
  have hnew : (s₁.store e).newMtu e = target e := by
    rw [State.newMtu, hdone.1, hdone.2, min_self]
  have hdoneWritten : ∀ d ∈ written ++ [e], (s₁.store e).Done d (target d) := by
    intro d hd
    by_cases hde : d = e
    · rw [hde]
      exact hdone
    · have hw : d ∈ written := by
        rcases List.mem_append.mp hd with hw | hw
        · exact hw
        · exact absurd (List.mem_singleton.mp hw) hde
      exact (h.done d hw).of_same (hsame d hde)
  have htarget : ∀ d ∈ b.outputProps e, target d = target e := hlinks e hedge
  obtain ⟨s₂, hforward, hdone₂, hsame₂, hdirty₂, -⟩ := State.forward_spec
    (written ++ [e]) (target e) (b.outputProps e) (s₁.store e)
    fun d hd hw => by rw [(hdoneWritten d hw).1, htarget d hd]
  have hsame' : ∀ d, d ∉ written ++ [e] ++ b.outputProps e → s.Same s₂ d := by
    intro d hd
    rw [List.mem_append, not_or, List.mem_append, not_or, List.mem_singleton] at hd
    exact (hsame d hd.1.2).trans (hsame₂ d hd.2)
  have hdone' : ∀ d ∈ written ++ [e] ++ b.outputProps e, s₂.Done d (target d) := by
    intro d hd
    by_cases hout : d ∈ b.outputProps e
    · rw [htarget d hout]
      exact hdone₂ d hout
    · exact (hdoneWritten d ((List.mem_append.mp hd).resolve_right hout)).of_same (hsame₂ d hout)
  refine ⟨s₂, ([e].filter fun d => (s₁.store e).dirty d && decide (d ∉ processed))
    ++ (b.outputProps e).filter fun d => s₂.dirty d && decide (d ∉ processed), ?_, ?_, ?_⟩
  · rw [runResolversOf, State.coerce, hset]
    simp only [Except.map, Except.bind]
    rw [hnew, hforward]
  · rw [List.length_append]
    have hfirst : ([e].filter fun d => (s₁.store e).dirty d && decide (d ∉ processed)).length ≤ 1 :=
      List.length_filter_le _ _
    have hsecond : ((b.outputProps e).filter fun d =>
        s₂.dirty d && decide (d ∉ processed)).length ≤ b.edges.length :=
      (List.length_filter_le _ _).trans (List.length_filter_le _ _)
    omega
  · refine ⟨?_, ?_, ?_, ?_, hdone', ?_, ?_, ?_, ?_⟩
    · intro d hd
      rcases List.mem_append.mp hd with hd | hd
      · exact h.todo_edges d (List.mem_cons_of_mem e hd)
      · rcases List.mem_append.mp hd with hd | hd
        · rw [List.mem_singleton.mp (List.mem_of_mem_filter hd)]
          exact hedge
        · exact List.mem_of_mem_filter (List.mem_of_mem_filter hd)
    · intro d hd
      rcases List.mem_append.mp hd with hd | hd
      · exact h.processed_edges d hd
      · rw [List.mem_singleton.mp hd]
        exact hedge
    · rw [List.nodup_append]
      refine ⟨h.nodup, List.nodup_singleton e, fun d hd d' hd' heq => he ?_⟩
      rw [← List.mem_singleton.mp hd', ← heq]
      exact hd
    · intro d hd
      rcases List.mem_append.mp hd with hd | hd
      · refine ⟨?_, fun d' hd' => ?_⟩
        · exact List.mem_append_left _ (List.mem_append_left _ (h.outputs d hd).1)
        · exact List.mem_append_left _ (List.mem_append_left _ ((h.outputs d hd).2 d' hd'))
      · rw [List.mem_singleton.mp hd]
        refine ⟨?_, fun d' hd' => List.mem_append_right _ hd'⟩
        exact List.mem_append_left _ (List.mem_append_right _ (List.mem_singleton_self e))
    · intro front d back heq
      by_cases hw : d ∈ written ++ [e] ++ b.outputProps e
      · obtain ⟨hvalue, hmtu⟩ := hdone' d hw
        exact Or.inl (by rw [State.newMtu, hvalue, hmtu, min_self])
      · -- It was in the list before, and is not written by the edge that was processed.
        obtain ⟨back', hback⟩ : ∃ back', todo = front ++ d :: back' := by
          rcases List.append_eq_append_iff.mp heq with ⟨mid, hfront, hadded⟩ | ⟨mid, htodo, hmid⟩
          · exfalso
            have hd : d ∈ mid ++ d :: back := List.mem_append_right _ List.mem_cons_self
            rw [← hadded] at hd
            refine hw ?_
            rcases List.mem_append.mp hd with hd | hd
            · exact List.mem_append_left _ (List.mem_append_right _ (List.mem_of_mem_filter hd))
            · exact List.mem_append_right _ (List.mem_of_mem_filter hd)
          · cases mid with
            | nil =>
              exfalso
              rw [List.nil_append] at hmid
              have hd : d ∈ d :: back := List.mem_cons_self
              rw [hmid] at hd
              refine hw ?_
              rcases List.mem_append.mp hd with hd | hd
              · exact List.mem_append_left _ (List.mem_append_right _ (List.mem_of_mem_filter hd))
              · exact List.mem_append_right _ (List.mem_of_mem_filter hd)
            | cons d' mid =>
              rw [List.cons_append, List.cons.injEq] at hmid
              exact ⟨mid, by rw [htodo, hmid.1]⟩
        have hd := h.next (e :: front) d back' (by rw [hback, List.cons_append])
        rcases hd with hd | ⟨c, hc, hnot, hcw⟩
        · left
          rw [State.newMtu, (hsame' d hw).1, (hsame' d hw).2]
          exact hd
        · have hce : c ≠ e := fun hce => hw (List.mem_append_right _ (hce ▸ hcw))
          refine Or.inr ⟨c, (List.mem_cons.mp hc).resolve_left hce, ?_, hcw⟩
          rw [List.mem_append, not_or, List.mem_singleton]
          exact ⟨hnot, hce⟩
    · intro d hd hne
      by_cases hprocessed : d ∈ processed
      · exact Or.inr (List.mem_append_left _ hprocessed)
      by_cases hde : d = e
      · rw [hde]
        exact Or.inr (List.mem_append_right _ (List.mem_singleton_self e))
      by_cases htodo : d ∈ todo
      · exact Or.inl (List.mem_append_left _ htodo)
      -- An output that was not in the list is written for the first time, and gets dirty.
      have hunwritten : d ∉ written := by
        intro hw
        rcases h.kept d hw hne with hmem | hmem
        · exact (List.mem_cons.mp hmem).elim hde htodo
        · exact hprocessed hmem
      have hout : d ∈ b.outputProps e := by
        rcases List.mem_append.mp hd with hd | hd
        · rcases List.mem_append.mp hd with hd | hd
          · exact absurd hd hunwritten
          · exact absurd (List.mem_singleton.mp hd) hde
        · exact hd
      have hvalue : (s₁.store e).value d ≠ target e := by
        rw [(hsame d hde).1, (h.same d hunwritten).1,
          hclean d (List.mem_of_mem_filter hout) (h.untouched d (List.mem_of_mem_filter hout)
            hunwritten fun hmem => (List.mem_cons.mp hmem).elim hde htodo), ← htarget d hout]
        exact hne.symm
      refine Or.inl (List.mem_append_right _ (List.mem_append_right _ ?_))
      rw [List.mem_filter, hdirty₂ d hout hvalue, Bool.true_and]
      exact ⟨hout, decide_eq_true hprocessed⟩
    · intro d hd
      refine (h.same d fun hw => hd ?_).trans (hsame' d hd)
      exact List.mem_append_left _ (List.mem_append_left _ hw)
    · intro d hedge' hd hmem
      refine h.untouched d hedge' (fun hw => hd ?_) fun hcons => ?_
      · exact List.mem_append_left _ (List.mem_append_left _ hw)
      · rcases List.mem_cons.mp hcons with rfl | hcons
        · exact hd (List.mem_append_left _ (List.mem_append_right _ List.mem_cons_self))
        · exact hmem (List.mem_append_left _ hcons)

theorem resolveLoop_ok (hlinks : ∀ e ∈ b.edges, ∀ e', WriteStep b e e' → target e' = target e)
    (hclean : ∀ e ∈ b.edges, before.dirty e = false → before.value e = before.mtu e)
    {fuel : ℕ} (h : Resolving b target before todo processed written s)
    (hfuel : todo.length + (b.edges.length - processed.length) * (b.edges.length + 1) ≤ fuel) :
    ∃ s' processed' written', resolveLoop b fuel todo processed written s = .ok s' ∧
      Resolving b target before [] processed' written' s' := by
  induction fuel generalizing todo processed written s with
  | zero =>
    cases todo with
    | nil => exact ⟨s, processed, written, by rw [resolveLoop], h⟩
    | cons e todo =>
      rw [List.length_cons] at hfuel
      omega
  | succ fuel ih =>
    cases todo with
    | nil => exact ⟨s, processed, written, by rw [resolveLoop], h⟩
    | cons e todo =>
      rw [List.length_cons] at hfuel
      by_cases he : e ∈ processed
      · obtain ⟨s', processed', written', hloop, hend⟩ := ih (h.skip he) (by omega)
        refine ⟨s', processed', written', ?_, hend⟩
        rw [resolveLoop, if_pos he]
        exact hloop
      · obtain ⟨s₁, added, hrun, hadded, hnext⟩ := h.process hlinks hclean he
        -- There are fewer edges left that were not processed.
        have hroom : (processed ++ [e]).length ≤ b.edges.length :=
          (hnext.nodup.subperm hnext.processed_edges).length_le
        rw [List.length_append, List.length_singleton] at hroom
        have hmeasure : (todo ++ added).length
            + (b.edges.length - (processed ++ [e]).length) * (b.edges.length + 1) ≤ fuel := by
          rw [List.length_append, List.length_append, List.length_singleton]
          obtain ⟨k, hk⟩ : ∃ k, b.edges.length - processed.length = k + 1 :=
            ⟨b.edges.length - processed.length - 1, by omega⟩
          have hk' : b.edges.length - (processed.length + 1) = k := by omega
          rw [hk, add_mul, one_mul] at hfuel
          rw [hk']
          omega
        obtain ⟨s', processed', written', hloop, hend⟩ := ih hnext hmeasure
        refine ⟨s', processed', written', ?_, hend⟩
        rw [resolveLoop, if_neg he, hrun]
        exact hloop

theorem Resolving.done_of_end (h : Resolving b target before [] processed written s)
    (hlinks : ∀ e ∈ b.edges, ∀ e', WriteStep b e e' →
      target e' = target e ∧ before.mtu e' = before.mtu e)
    (hclean : ∀ e ∈ b.edges, before.dirty e = false → before.value e = before.mtu e)
    (hreach : ∀ e ∈ b.edges, target e ≠ before.mtu e → ∃ p ∈ b.edges,
      Relation.ReflTransGen (WriteStep b) p e ∧ target p ≠ before.mtu p ∧ before.dirty p = true)
    (he : e ∈ b.edges) : s.Done e (target e) := by
  by_cases hw : e ∈ written
  · exact h.done e hw
  · have hsame : target e = before.mtu e := by
      by_contra hne
      obtain ⟨p, hp, hpath, hpne, hdirty⟩ := hreach e he hne
      have hpw : p ∈ written := by
        by_contra hunwritten
        rw [h.untouched p hp hunwritten List.not_mem_nil] at hdirty
        exact Bool.false_ne_true hdirty
      suffices hall : e ∈ b.edges ∧ target e ≠ before.mtu e ∧ e ∈ written from hw hall.2.2
      clear hw hne he
      -- From an edge that was reduced the reduction reaches the next one.
      induction hpath with
      | refl => exact ⟨hp, hpne, hpw⟩
      | @tail d d' _ hstep ih =>
        obtain ⟨hd, hdne, hdw⟩ := ih
        obtain ⟨htarget, hbefore⟩ := hlinks d hd d' hstep
        refine ⟨List.mem_of_mem_filter hstep, ?_, ?_⟩
        · rw [htarget, hbefore]
          exact hdne
        · rcases h.kept d hdw hdne with hmem | hmem
          · exact absurd hmem List.not_mem_nil
          · exact (h.outputs d hmem).2 d' hstep
    rw [hsame]
    obtain ⟨hvalue, hmtu⟩ := h.same e hw
    exact ⟨hvalue.trans (hclean e he (h.untouched e he hw List.not_mem_nil)), hmtu⟩

end Loop

/-! ## One batch -/

theorem receive_mtu (us : List (ResSourceInfo × ℕ)) (s : State) : (receive us s).mtu = s.mtu := by
  induction us generalizing s with
  | nil => rfl
  | cons u us ih => exact ih _

theorem dirty_receive {us : List (ResSourceInfo × ℕ)} {s : State} {e : ResSourceInfo}
    (h : s.dirty e = true) : (receive us s).dirty e = true := by
  induction us generalizing s with
  | nil => exact h
  | cons u us ih =>
    refine ih ?_
    by_cases he : e = u.1
    · rw [he] at h ⊢
      rw [State.write_dirty, Function.update_self, h, Bool.true_or]
    · rw [State.write_dirty, Function.update_of_ne he, h]

theorem receive_cases (us : List (ResSourceInfo × ℕ)) (s : State) (e : ResSourceInfo) :
    (∃ u ∈ us, u.1 = e ∧ (receive us s).value e = u.2) ∨
      ((∀ u ∈ us, u.1 ≠ e) ∧ (receive us s).value e = s.value e ∧
        (receive us s).dirty e = s.dirty e) := by
  induction us generalizing s with
  | nil => exact Or.inr ⟨fun u hu => absurd hu List.not_mem_nil, rfl, rfl⟩
  | cons u us ih =>
    rw [receive]
    rcases ih _ with ⟨u', hu', hue, hvalue⟩ | ⟨hnone, hvalue, hdirty⟩
    · exact Or.inl ⟨u', List.mem_cons_of_mem u hu', hue, hvalue⟩
    · by_cases he : e = u.1
      · refine Or.inl ⟨u, List.mem_cons_self, he.symm, ?_⟩
        rw [hvalue, he, State.write_value, Function.update_self]
      · refine Or.inr ⟨fun d hd => ?_, ?_, ?_⟩
        · rcases List.mem_cons.mp hd with rfl | hd
          · exact Ne.symm he
          · exact hnone d hd
        · rw [hvalue, State.write_value, Function.update_of_ne he]
        · rw [hdirty, State.write_dirty, Function.update_of_ne he]

theorem dirty_of_value_ne {us : List (ResSourceInfo × ℕ)} {s : State} {e : ResSourceInfo}
    (h : (receive us s).value e ≠ s.value e) : (receive us s).dirty e = true := by
  induction us generalizing s with
  | nil => exact absurd rfl h
  | cons u us ih =>
    rw [receive] at h ⊢
    by_cases he : e = u.1
    · by_cases hne : s.value e = u.2
      · refine ih fun heq => h (heq.trans ?_)
        rw [he, State.write_value, Function.update_self, ← he, hne]
      · refine dirty_receive ?_
        rw [he, State.write_dirty, Function.update_self, ← he, decide_eq_true hne, Bool.or_true]
    · refine ih fun heq => h (heq.trans ?_)
      rw [State.write_value, Function.update_of_ne he]

theorem dirty_of_mem {us : List (ResSourceInfo × ℕ)} {s : State} {e : ResSourceInfo} {v : ℕ}
    (hmem : (e, v) ∈ us) (hne : s.value e ≠ v) : (receive us s).dirty e = true := by
  induction us generalizing s with
  | nil => exact absurd hmem List.not_mem_nil
  | cons u us ih =>
    rw [receive]
    by_cases hchanged : (s.write u.1 u.2).value e = s.value e
    · rcases List.mem_cons.mp hmem with rfl | hmem
      · rw [State.write_value, Function.update_self] at hchanged
        exact absurd hchanged.symm hne
      · exact ih hmem (by rw [hchanged]; exact hne)
    · refine dirty_receive ?_
      by_cases he : e = u.1
      · rw [he, State.write_value, Function.update_self] at hchanged
        rw [he, State.write_dirty, Function.update_self, decide_eq_true (Ne.symm hchanged),
          Bool.or_true]
      · rw [State.write_value, Function.update_of_ne he] at hchanged
        exact absurd rfl hchanged

section Steps

variable {b : Block} {s : Session}

/-- Nothing is dirty, and what is claimed holds. -/
def Settled (b : Block) (s : Session) : Prop := (∀ e, s.state.dirty e = false) ∧ Consistent b s

theorem settled_start (b : Block) : Settled b (start b) := by
  refine ⟨fun e => rfl, fun e _ => ⟨rfl, Or.inl rfl, ?_⟩⟩
  rintro v (rfl | ⟨e', hmem, -⟩)
  · exact le_refl _
  · exact absurd hmem List.not_mem_nil

theorem Consistent.mtu_eq {e e' : ResSourceInfo} (h : Consistent b s) (he : e ∈ b.edges)
    (hlinked : Linked b e e') : s.state.mtu e' = s.state.mtu e := by
  have he' : e' ∈ b.edges := mem_edges_of_linked he hlinked
  have hleast := (h e he).2
  have hsets : {v | v = b.makeArgsMtu ∨ ∃ d, (d, v) ∈ s.received ∧ Linked b d e}
      = {v | v = b.makeArgsMtu ∨ ∃ d, (d, v) ∈ s.received ∧ Linked b d e'} := by
    ext v
    refine or_congr_right (exists_congr fun d => and_congr_right fun _ => ?_)
    exact ⟨fun hd => hd.trans hlinked, fun hd => hd.trans (linked_symm he hlinked)⟩
  rw [hsets] at hleast
  exact (h e' he').2.unique hleast

theorem exists_target (b : Block) (s : Session) (batch : Batch b) :
    ∃ target : ResSourceInfo → ℕ, ∀ e, IsLeast
      {v | v = s.state.mtu e ∨ ∃ e', (e', v) ∈ batch.updates ∧ Linked b e' e} (target e) := by
  have hpoint : ∀ e, ∃ v, IsLeast
      {v | v = s.state.mtu e ∨ ∃ e', (e', v) ∈ batch.updates ∧ Linked b e' e} v := fun e =>
    ⟨_, isLeast_csInf ⟨s.state.mtu e, Or.inl rfl⟩⟩
  choose target htarget using hpoint
  exact ⟨target, htarget⟩

theorem newMtu_eq_of_le {batch : Batch b} {e : ResSourceInfo} {v : ℕ}
    (hclean : ∀ e, s.state.dirty e = false)
    (hv : IsLeast {v | v = s.state.mtu e ∨ ∃ e', (e', v) ∈ batch.updates ∧ Linked b e' e} v)
    (hdirty : (receive batch.updates s.state).dirty e = true)
    (hle : ∀ u ∈ batch.updates, Linked b u.1 e →
      (receive batch.updates s.state).newMtu e ≤ u.2) :
    (receive batch.updates s.state).newMtu e = v := by
  refine IsLeast.unique ⟨?_, ?_⟩ hv
  · rw [State.newMtu, receive_mtu]
    rcases receive_cases batch.updates s.state e with ⟨u, hu, hue, hvalue⟩ | ⟨-, -, hsame⟩
    · rw [hvalue]
      rcases min_choice u.2 (s.state.mtu e) with hmin | hmin
      · rw [hmin]
        refine Or.inr ⟨u.1, hu, ?_⟩
        rw [hue]
        exact Relation.ReflTransGen.refl
      · exact Or.inl hmin
    · rw [hsame, hclean e] at hdirty
      exact absurd hdirty Bool.false_ne_true
  · rintro w (rfl | ⟨e', hmem, hlinked⟩)
    · rw [State.newMtu, receive_mtu]
      exact min_le_right _ _
    · exact hle (e', w) hmem hlinked

theorem Settled.step {batch : Batch b} (hreaching : b.Reaching) (h : Settled b s)
    (hagrees : batch.Agrees b s) :
    ∃ t, MtuForwarding.step b s batch = some t ∧ Settled b t := by
  obtain ⟨hclean, hconsistent⟩ := h
  obtain ⟨target, htarget⟩ := exists_target b s batch
  have hmtu := receive_mtu batch.updates s.state
  have hlinked : ∀ e ∈ b.edges, ∀ e', Linked b e e' → target e' = target e := by
    intro e he e' hlinked
    refine (htarget e').unique ?_
    have hleast := htarget e
    have hsets : {v | v = s.state.mtu e ∨ ∃ d, (d, v) ∈ batch.updates ∧ Linked b d e}
        = {v | v = s.state.mtu e' ∨ ∃ d, (d, v) ∈ batch.updates ∧ Linked b d e'} := by
      ext v
      refine or_congr ?_ (exists_congr fun d => and_congr_right fun _ => ?_)
      · rw [hconsistent.mtu_eq he hlinked]
      · exact ⟨fun hd => hd.trans hlinked, fun hd => hd.trans (linked_symm he hlinked)⟩
    rw [hsets] at hleast
    exact hleast
  have hwrite : ∀ e ∈ b.edges, ∀ e', WriteStep b e e' → Linked b e e' := fun e he e' hwrite =>
    Relation.ReflTransGen.single (forwardStep_of_writeStep he hwrite)
  have hunchanged : ∀ e ∈ b.edges, (receive batch.updates s.state).dirty e = false →
      (receive batch.updates s.state).value e = (receive batch.updates s.state).mtu e := by
    intro e he hdirty
    rw [hmtu, ← (hconsistent e he).1]
    by_contra hne
    rw [dirty_of_value_ne hne] at hdirty
    exact Bool.false_ne_true hdirty.symm
  have hinitial : Resolving b target (receive batch.updates s.state) (batch.dirty s) [] []
      (receive batch.updates s.state) := by
    refine ⟨fun e he => ?_, fun e he => absurd he List.not_mem_nil, List.nodup_nil,
      fun e he => absurd he List.not_mem_nil, fun e he => absurd he List.not_mem_nil,
      fun front e back heq => ?_, fun e he => absurd he List.not_mem_nil, fun e _ => ⟨rfl, rfl⟩,
      fun e he _ hmem => ?_⟩
    · exact batch.perm.mem_iff.mp (List.mem_of_mem_filter he)
    · rcases hagrees front e back heq with hle | ⟨d, hd, hw⟩
      · have he : e ∈ batch.dirty s := by
          rw [heq]
          exact List.mem_append_right _ List.mem_cons_self
        exact Or.inl (newMtu_eq_of_le hclean (htarget e) (List.mem_filter.mp he).2 hle)
      · exact Or.inr ⟨d, hd, List.not_mem_nil, hw⟩
    · by_contra hdirty
      exact hmem (List.mem_filter.mpr ⟨batch.perm.mem_iff.mpr he, by
        rwa [Bool.not_eq_false] at hdirty⟩)
  have hfuel : (batch.dirty s).length
      + (b.edges.length - ([] : List ResSourceInfo).length) * (b.edges.length + 1)
        ≤ b.resolveFuel := by
    have hlength := List.length_filter_le (receive batch.updates s.state).dirty batch.order
    rw [batch.perm.length_eq] at hlength
    rw [List.length_nil, Nat.sub_zero, Block.resolveFuel, Batch.dirty]
    omega
  obtain ⟨s', processed, written, hloop, hend⟩ := resolveLoop_ok
    (fun e he e' hw => hlinked e he e' (hwrite e he e' hw)) hunchanged hinitial hfuel
  have hdone : ∀ e ∈ b.edges, s'.Done e (target e) := by
    refine fun e he => hend.done_of_end (fun d hd d' hw => ⟨?_, ?_⟩) hunchanged
      (fun d hd hne => ?_) he
    · exact hlinked d hd d' (hwrite d hd d' hw)
    · rw [hmtu]
      exact hconsistent.mtu_eq hd (hwrite d hd d' hw)
    · rw [hmtu] at hne ⊢
      -- What reduced it was received on an edge, which is dirty from then on.
      obtain ⟨p, hp, hpd⟩ := (htarget d).1.resolve_left hne
      have hedge := batch.edges (p, target d) hp
      have hmtuEq := hconsistent.mtu_eq hedge hpd
      refine ⟨p, hedge, writes_of_linked hreaching hedge hpd, ?_, ?_⟩
      · rw [← hlinked p hedge d hpd, ← hmtuEq]
        exact hne
      · refine dirty_of_mem hp ?_
        rw [(hconsistent p hedge).1, ← hmtuEq]
        exact hne.symm
  refine ⟨{ state := { s' with dirty := fun _ => false }, received := s.received ++ batch.updates },
    ?_, fun e => rfl, fun e he => ?_⟩
  · rw [MtuForwarding.step, resolveProps, ← Batch.dirty, hloop]
    rfl
  · obtain ⟨hvalue, hmtu'⟩ := hdone e he
    refine ⟨hvalue.trans hmtu'.symm, ?_⟩
    show IsLeast {v | v = b.makeArgsMtu ∨
      ∃ e', (e', v) ∈ s.received ++ batch.updates ∧ Linked b e' e} (s'.mtu e)
    rw [hmtu']
    obtain ⟨-, hmem, hleast⟩ := hconsistent e he
    obtain ⟨hmem', hleast'⟩ := htarget e
    refine ⟨?_, ?_⟩
    · rcases hmem' with heq | ⟨e', hreceived, hlinked'⟩
      · rw [heq]
        refine hmem.imp_right ?_
        rintro ⟨e', hreceived, hlinked'⟩
        exact ⟨e', List.mem_append_left _ hreceived, hlinked'⟩
      · exact Or.inr ⟨e', List.mem_append_right _ hreceived, hlinked'⟩
    · rintro v (hv | ⟨e', hreceived, hlinked'⟩)
      · exact (hleast' (Or.inl rfl)).trans (hleast (Or.inl hv))
      · rcases List.mem_append.mp hreceived with hreceived | hreceived
        · exact (hleast' (Or.inl rfl)).trans (hleast (Or.inr ⟨e', hreceived, hlinked'⟩))
        · exact hleast' (Or.inr ⟨e', hreceived, hlinked'⟩)

theorem Settled.run (hreaching : b.Reaching) (h : Settled b s) {batches : List (Batch b)}
    (hagrees : Transition.EveryStep (MtuForwarding.step b) (fun s batch => batch.Agrees b s) s
      batches) :
    ∃ t, Transition.run (MtuForwarding.step b) s batches = some t ∧ Settled b t := by
  induction batches generalizing s with
  | nil => exact ⟨s, rfl, h⟩
  | cons batch batches ih =>
    obtain ⟨hgood, hnext⟩ := Transition.everyStep_cons.mp hagrees
    obtain ⟨t, ht, hsettled⟩ := h.step hreaching hgood
    obtain ⟨t', hrun, hsettled'⟩ := ih hsettled (hnext t ht)
    exact ⟨t', Transition.run_cons_eq_some.mpr ⟨t, ht, hrun⟩, hsettled'⟩

end Steps

/-- **The MTUs over whole runs.**  Of a block whose policy reaches what it names, in every run of
batches that agree, each resolution succeeds, and after it the property of every edge is what `_mtu`
holds: the least of the initial value and all that was received on the edges linked to it. -/
theorem consistent_of_run (b : Block) (hreaching : b.Reaching) (batches : List (Batch b))
    (hagrees : Transition.EveryStep (step b) (fun s batch => batch.Agrees b s) (start b) batches) :
    ∃ s, Transition.run (step b) (start b) batches = some s ∧ Consistent b s := by
  obtain ⟨s, hrun, hsettled⟩ := (settled_start b).run hreaching hagrees
  exact ⟨s, hrun, hsettled.2⟩

/-- An input and an output, whose MTUs are forwarded to each other. -/
def throughBlock : Block := ⟨1, 1, .oneToOne, by decide, 200⟩

/-- Both edges have received an MTU, and the smaller one is walked first. -/
def throughBatch : Batch throughBlock where
  updates := [(⟨.inputEdge, 0⟩, 150), (⟨.outputEdge, 0⟩, 100)]
  order := [⟨.outputEdge, 0⟩, ⟨.inputEdge, 0⟩]
  edges := by decide
  perm := by decide

theorem consistent_of_throughBatch : ∃ s,
    Transition.run (step throughBlock) (start throughBlock) [throughBatch] = some s ∧
      Consistent throughBlock s := by
  refine consistent_of_run throughBlock (fun h => absurd h (by decide)) [throughBatch]
    ⟨fun before e after heq => ?_, fun t _ => trivial⟩
  have hdirty : throughBatch.dirty (start throughBlock)
      = [⟨.outputEdge, 0⟩, ⟨.inputEdge, 0⟩] := by decide
  rw [hdirty] at heq
  cases before with
  | nil =>
    rw [List.nil_append, List.cons.injEq] at heq
    rw [← heq.1]
    exact Or.inl fun u hu _ => (by decide : ∀ u ∈ throughBatch.updates,
      (receive throughBatch.updates (start throughBlock).state).newMtu ⟨.outputEdge, 0⟩ ≤ u.2) u hu
  | cons d before =>
    rw [List.cons_append, List.cons.injEq] at heq
    refine Or.inr ⟨d, List.mem_cons_self, ?_⟩
    have he : e ∈ [(⟨.inputEdge, 0⟩ : ResSourceInfo)] := by
      rw [heq.2]
      exact List.mem_append_right _ List.mem_cons_self
    rw [← heq.1, List.mem_singleton.mp he]
    exact (by decide : (⟨.inputEdge, 0⟩ : ResSourceInfo)
      ∈ throughBlock.outputProps ⟨.outputEdge, 0⟩)

/-- An input and an output, where everything is to be forwarded to all. -/
def narrowBlock : Block := ⟨1, 1, .oneToAll, by decide, 200⟩

/-- A reduction that is received on the input. -/
def narrowBatch : Batch narrowBlock where
  updates := [(⟨.inputEdge, 0⟩, 100)]
  order := narrowBlock.edges
  edges := by decide
  perm := List.Perm.refl _

/-- With `ONE_TO_ALL` a reduction does not reach the port with the same number on the other side. -/
theorem reduction_not_forwarded : ¬ ∀ (b : Block) (batches : List (Batch b)), ∃ s,
    Transition.run (step b) (start b) batches = some s ∧ Consistent b s := by
  intro hall
  obtain ⟨s, hrun, hconsistent⟩ := hall narrowBlock [narrowBatch]
  have hmtu : (Transition.run (step narrowBlock) (start narrowBlock) [narrowBatch]).map
      (fun s => (s.state.mtu ⟨.outputEdge, 0⟩, s.received)) = some (200, narrowBatch.updates) := by
    decide
  rw [hrun, Option.map_some, Option.some_inj, Prod.mk.injEq] at hmtu
  have hle := (hconsistent ⟨.outputEdge, 0⟩ (by decide)).2.2 (Or.inr ⟨⟨.inputEdge, 0⟩, by
    rw [hmtu.2]
    exact List.mem_singleton_self ((⟨.inputEdge, 0⟩ : ResSourceInfo), 100),
    Relation.ReflTransGen.single ⟨by decide, trivial⟩⟩)
  rw [hmtu.1] at hle
  exact absurd hle (by decide)

end MtuForwarding
end Rfnoc
end UhdHost
