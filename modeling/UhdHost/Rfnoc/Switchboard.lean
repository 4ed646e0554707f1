import Mathlib
import UhdHost.Library.Stateful
import UhdHost.Library.Transition
import UhdHost.Rfnoc.Property

/-!
# The switchboard

`switchboard_block_control.cpp`.  Every input port has a select value, the output port that it is
put through to, and every output port one for the input port.  They are properties: a value is set,
the graph resolves its properties, and then what is dirty is cleaned, by a callback that checks the
value, writes it into a register and makes the map anew by which properties and actions are
forwarded.  A call of `connect` sets a value of both families, and makes the map itself.

* `forwardingMap_eq`: the map that is made of valid values.
* `setProperty_step`, `connect_step_same`, `connect_step_new`: a call either leaves everything
  settled, and the same if it throws, or throws with a property changed.
* `claimed_iff_everyStep`: map and registers agree after every call, and a call that throws leaves
  everything as it was, exactly when every call meets the condition.
-/

namespace UhdHost
namespace Rfnoc
namespace Switchboard

open Stateful

/-! ## The block -/

/-- The families of select properties. -/
inductive Family where
  /-- `_input_select`, one for each output port -/
  | inputSelect
  /-- `_output_select`, one for each input port -/
  | outputSelect
  deriving DecidableEq

/-- A select property: its family and its port. -/
abbrev Slot := Family × ℕ

/-- `forwarding_map_t` -/
abbrev FwdMap := ResSourceInfo → Option (List ResSourceInfo)

/-- The ports of the block.  There are some on either side, as the constructor asserts, and not more
than an `int` can count. -/
structure Ports where
  /-- `get_unique_id` -/
  uniqueId : String
  numInputPorts : ℕ
  numOutputPorts : ℕ
  numInputPorts_pos : 0 < numInputPorts
  numOutputPorts_pos : 0 < numOutputPorts
  numInputPorts_lt : numInputPorts < 2 ^ 31
  numOutputPorts_lt : numOutputPorts < 2 ^ 31

/-- The ID of the properties. -/
def Family.key : Family → String
  | .inputSelect => "input_select"
  | .outputSelect => "output_select"

/-- How many properties a family has. -/
def Ports.count (b : Ports) : Family → ℕ
  | .inputSelect => b.numOutputPorts
  | .outputSelect => b.numInputPorts

/-- What the values of a family are below. -/
def Ports.limit (b : Ports) : Family → ℕ
  | .inputSelect => b.numInputPorts
  | .outputSelect => b.numOutputPorts

/-- The block, with the registers of its hardware. -/
structure Block where
  value : Slot → ℤ
  dirty : Slot → Bool
  connectCall : Bool
  register : Slot → BitVec 32
  propFwdMap : FwdMap
  actionFwdMap : FwdMap

/-- What the graph throws when it resolves its properties, before or after the properties of this
block are cleaned. -/
structure Propagation where
  before : Option UhdError
  after : Option UhdError

abbrev BlockM := EStateM UhdError Block

/-- `insert` of a map: what is there stays. -/
def FwdMap.insert (m : FwdMap) (key : ResSourceInfo) (dests : List ResSourceInfo) : FwdMap :=
  if (m key).isSome then m else Function.update m key (some dests)

/-- A value as a `size_t`. -/
def toSize (value : ℤ) : ℕ := (BitVec.ofInt 64 value).toNat

/-- `at` and `get` of a family -/
def valueAt (b : Ports) (value : Slot → ℤ) (slot : Slot) : Except UhdError ℤ :=
  if slot.2 < b.count slot.1 then .ok (value slot) else .error .outOfRange

/-- One turn of the loop of `_update_forwarding_map` -/
def linkPort (b : Ports) (value : Slot → ℤ) (m : FwdMap) (inputPort : ℕ) :
    Except UhdError FwdMap := do
  let linkedOutputPort := toSize (← valueAt b value (.outputSelect, inputPort))
  let linkedInputPort := toSize (← valueAt b value (.inputSelect, linkedOutputPort))
  if linkedInputPort = inputPort then
    pure ((m.insert ⟨.inputEdge, linkedInputPort⟩ [⟨.outputEdge, linkedOutputPort⟩]).insert
      ⟨.outputEdge, linkedOutputPort⟩ [⟨.inputEdge, linkedInputPort⟩])
  else
    pure m

/-- The map that `_update_forwarding_map` makes, for properties and for actions. -/
def forwardingMap (b : Ports) (value : Slot → ℤ) : Except UhdError FwdMap :=
  (List.range b.numInputPorts).foldlM (linkPort b value) fun _ => none

/-- `_update_forwarding_map` -/
def updateForwardingMap (b : Ports) : BlockM PUnit := do
  let s ← get
  let m ← orThrow (forwardingMap b s.value)
  modify fun s => { s with propFwdMap := m, actionFwdMap := m }

/-- `poke32` at the register of a property -/
def poke32 (slot : Slot) (value : BitVec 32) : BlockM PUnit :=
  modify fun s => { s with register := Function.update s.register slot value }

/-- The clean callback of a property. -/
def cleanCallback (b : Ports) (slot : Slot) : BlockM PUnit := do
  let s ← get
  let selectVal := s.value slot
  onlyIf (selectVal < 0 ∨ b.limit slot.1 ≤ selectVal.toNat)
    (throw (.valueError "Index out of bounds"))
  poke32 slot (BitVec.ofInt 32 selectVal)
  onlyIf (s.connectCall = false) (updateForwardingMap b)

/-- One turn of `clean_props` -/
def cleanProp (b : Ports) (slot : Slot) : BlockM PUnit := do
  let s ← get
  onlyIf (s.dirty slot = true) (cleanCallback b slot)
  modify fun s => { s with dirty := Function.update s.dirty slot false }

/-- The select properties, in the order of their registration. -/
def slots (b : Ports) : List Slot :=
  (List.range b.numOutputPorts).map (fun port => (.inputSelect, port))
    ++ (List.range b.numInputPorts).map (fun port => (.outputSelect, port))

/-- `clean_props` -/
def cleanProps (b : Ports) : BlockM PUnit := forM (slots b) (cleanProp b)

/-- Throw what there is to throw. -/
def throwAny (e : Option UhdError) : BlockM PUnit :=
  match e with
  | none => pure PUnit.unit
  | some e => throw e

/-- `resolve_all`.  The block has no resolvers for its select properties. -/
def resolveAll (b : Ports) (g : Propagation) : BlockM PUnit := do
  throwAny g.before
  cleanProps b
  throwAny g.after

/-- `set` of a property -/
def Block.set (slot : Slot) (value : ℤ) (s : Block) : Block :=
  if s.value slot = value then s
  else { s with
    value := Function.update s.value slot value
    dirty := Function.update s.dirty slot true }

/-- What `_assert_prop` throws. -/
def unknownProperty (b : Ports) (family : Family) : UhdError :=
  .lookupError ("[" ++ b.uniqueId ++ "] Unknown property: `" ++ family.key ++ "'")

/-- `set_property` of a select property -/
def setProperty (b : Ports) (family : Family) (value : ℤ) (inst : ℕ) (g : Propagation) :
    BlockM PUnit := do
  onlyIf (b.count family ≤ inst) (throw (unknownProperty b family))
  modify (Block.set (family, inst) value)
  resolveAll b g

/-- A `size_t` as an `int`. -/
def toInt (n : ℕ) : ℤ := (BitVec.ofNat 32 n).toInt

def setConnectCall (on : Bool) : BlockM PUnit := modify fun s => { s with connectCall := on }

/-- The `try` block of `connect` -/
def connectBoth (b : Ports) (input output : ℕ) (g₁ g₂ : Propagation) : BlockM PUnit := do
  setProperty b .inputSelect (toInt input) output g₁
  setProperty b .outputSelect (toInt output) input g₂

/-- `connect` -/
def connect (b : Ports) (input output : ℕ) (g₁ g₂ : Propagation) : BlockM PUnit := do
  setConnectCall true
  tryCatch (connectBoth b input output g₁ g₂) fun e => do
    setConnectCall false
    throw e
  updateForwardingMap b
  setConnectCall false

/-- A call, with what the graph throws in the course of it. -/
inductive Call where
  | setProperty (family : Family) (value : ℤ) (inst : ℕ) (g : Propagation)
  | connect (input output : ℕ) (g₁ g₂ : Propagation)

def Call.run (b : Ports) : Call → BlockM PUnit
  | .setProperty family value inst g => Switchboard.setProperty b family value inst g
  | .connect input output g₁ g₂ => Switchboard.connect b input output g₁ g₂

def Call.after (b : Ports) (s : Block) (call : Call) : Option Block :=
  some (stateAfter (call.run b s))

/-- The members before the constructor makes the map, on hardware that holds anything. -/
def blank (register : Slot → BitVec 32) : Block :=
  { value := fun _ => 0
    dirty := fun _ => true
    connectCall := false
    register
    propFwdMap := fun _ => none
    actionFwdMap := fun _ => none }

/-- The constructor, and `init_props`, which cleans all the properties. -/
def construct (b : Ports) : BlockM PUnit := do
  updateForwardingMap b
  cleanProps b

/-- The block as it is made. -/
def start (b : Ports) (register : Slot → BitVec 32) : Block :=
  stateAfter (construct b (blank register))

/-! ## What is claimed -/

/-- The registers of an input port and of an output port select each other. -/
def Linked (b : Ports) (s : Block) (input output : ℕ) : Prop :=
  input < b.numInputPorts ∧ output < b.numOutputPorts ∧
    (s.register (.outputSelect, input)).toNat = output ∧
    (s.register (.inputSelect, output)).toNat = input

/-- **A map that is right**: a symmetric matching of the ports that select each other. -/
structure Right (b : Ports) (s : Block) (m : FwdMap) : Prop where
  input : ∀ input output, m ⟨.inputEdge, input⟩ = some [⟨.outputEdge, output⟩] ↔
    Linked b s input output
  output : ∀ input output, m ⟨.outputEdge, output⟩ = some [⟨.inputEdge, input⟩] ↔
    Linked b s input output
  only : ∀ key dests, m key = some dests → ∃ input output,
    key = ⟨.inputEdge, input⟩ ∧ dests = [⟨.outputEdge, output⟩] ∨
      key = ⟨.outputEdge, output⟩ ∧ dests = [⟨.inputEdge, input⟩]

/-- The maps, the properties and the registers are the same. -/
structure Unchanged (s t : Block) : Prop where
  value : t.value = s.value
  register : t.register = s.register
  propFwdMap : t.propFwdMap = s.propFwdMap
  actionFwdMap : t.actionFwdMap = s.actionFwdMap

/-- **What is claimed** of a call. -/
structure Claimed (b : Ports) (s : Block) (call : Call) : Prop where
  prop : Right b (stateAfter (call.run b s)) (stateAfter (call.run b s)).propFwdMap
  action : Right b (stateAfter (call.run b s)) (stateAfter (call.run b s)).actionFwdMap
  unchanged : ∀ e t, call.run b s = .error e t → Unchanged s t

/-- The graph does not throw. -/
def Propagation.Quiet (g : Propagation) : Prop := g.before = none ∧ g.after = none

/-- **The condition for a call.**  Its ports and values are in range and the graph does not throw,
or it asks for nothing new up to the place where it fails. -/
def Meets (b : Ports) (s : Block) : Call → Prop
  | .setProperty family value inst g =>
    b.count family ≤ inst ∨ s.value (family, inst) = value ∨
      0 ≤ value ∧ value < b.limit family ∧ g.Quiet
  | .connect input output g₁ g₂ =>
    b.numOutputPorts ≤ output ∨ input < b.numInputPorts ∧ g₁.Quiet ∧ g₂.Quiet ∨
      s.value (.inputSelect, output) = toInt input ∧
        (¬ g₁.Quiet ∨ b.numInputPorts ≤ input ∨ s.value (.outputSelect, input) = output)

/-! ## The map -/

section Map

variable {b : Ports} {value : Slot → ℤ} {m : FwdMap} {slot : Slot}

/-- Values that the callbacks accept. -/
def Valid (b : Ports) (value : Slot → ℤ) : Prop :=
  ∀ slot : Slot, slot.2 < b.count slot.1 → 0 ≤ value slot ∧ value slot < b.limit slot.1

/-- An input port and an output port whose values are each other. -/
def Selects (b : Ports) (value : Slot → ℤ) (input output : ℕ) : Prop :=
  output < b.numOutputPorts ∧ value (.outputSelect, input) = output ∧
    value (.inputSelect, output) = input

/-- **A map of the first ports**: the matching of those that select each other. -/
structure MapsFirst (b : Ports) (value : Slot → ℤ) (n : ℕ) (m : FwdMap) : Prop where
  input : ∀ input output, m ⟨.inputEdge, input⟩ = some [⟨.outputEdge, output⟩] ↔
    input < n ∧ Selects b value input output
  output : ∀ input output, m ⟨.outputEdge, output⟩ = some [⟨.inputEdge, input⟩] ↔
    input < n ∧ Selects b value input output
  only : ∀ key dests, m key = some dests → ∃ input output,
    key = ⟨.inputEdge, input⟩ ∧ dests = [⟨.outputEdge, output⟩] ∨
      key = ⟨.outputEdge, output⟩ ∧ dests = [⟨.inputEdge, input⟩]

theorem limit_lt (b : Ports) (family : Family) : b.limit family < 2 ^ 31 := by
  cases family with
  | inputSelect => exact b.numInputPorts_lt
  | outputSelect => exact b.numOutputPorts_lt

theorem Valid.exists_port (h : Valid b value) (slot : Slot) (hslot : slot.2 < b.count slot.1) :
    ∃ n : ℕ, n < b.limit slot.1 ∧ value slot = n ∧ toSize (value slot) = n := by
  obtain ⟨hnonneg, hlt⟩ := h slot hslot
  obtain ⟨n, hn⟩ := Int.eq_ofNat_of_zero_le hnonneg
  have hlimit := limit_lt b slot.1
  have hport : n < b.limit slot.1 := by omega
  refine ⟨n, hport, hn, ?_⟩
  rw [toSize, hn, BitVec.toNat_ofInt]
  omega

theorem insert_of_none {key : ResSourceInfo} (h : m key = none) (dests : List ResSourceInfo) :
    m.insert key dests = Function.update m key (some dests) := by
  rw [FwdMap.insert, h]
  exact if_neg Bool.false_ne_true

theorem MapsFirst.input_eq_none {n : ℕ} (h : MapsFirst b value n m) {input : ℕ} (hn : n ≤ input) :
    m ⟨.inputEdge, input⟩ = none := by
  cases hm : m ⟨.inputEdge, input⟩ with
  | none => rfl
  | some dests =>
    obtain ⟨p, o, ⟨hkey, rfl⟩ | ⟨hkey, -⟩⟩ := h.only _ dests hm
    · have hlt := ((h.input input o).mp hm).1
      omega
    · cases hkey

theorem MapsFirst.output_eq_none {n : ℕ} (h : MapsFirst b value n m) {output : ℕ}
    (hn : (n : ℤ) ≤ value (.inputSelect, output)) : m ⟨.outputEdge, output⟩ = none := by
  cases hm : m ⟨.outputEdge, output⟩ with
  | none => rfl
  | some dests =>
    obtain ⟨p, o, ⟨hkey, -⟩ | ⟨hkey, rfl⟩⟩ := h.only _ dests hm
    · cases hkey
    · obtain ⟨hlt, -, -, hvalue⟩ := (h.output p output).mp hm
      omega

theorem MapsFirst.linkPort (h : Valid b value) {n : ℕ} (hn : n < b.numInputPorts)
    (hm : MapsFirst b value n m) :
    ∃ m', linkPort b value m n = .ok m' ∧ MapsFirst b value (n + 1) m' := by
  obtain ⟨o, ho, hout, hsize⟩ := h.exists_port (.outputSelect, n) hn
  obtain ⟨p, hp, hin, hsize'⟩ := h.exists_port (.inputSelect, o) ho
  have hcompute : Switchboard.linkPort b value m n = if p = n then
      .ok ((m.insert ⟨.inputEdge, p⟩ [⟨.outputEdge, o⟩]).insert
        ⟨.outputEdge, o⟩ [⟨.inputEdge, p⟩]) else .ok m := by
    have hfirst : valueAt b value (.outputSelect, n) = .ok (value (.outputSelect, n)) := if_pos hn
    have hsecond : valueAt b value (.inputSelect, o) = .ok (value (.inputSelect, o)) := if_pos ho
    unfold Switchboard.linkPort
    rw [hfirst]
    dsimp only [bind, Except.bind]
    rw [hsize, hsecond]
    dsimp only
    rw [hsize']
    rfl
  have hselects : ∀ input output, input < n + 1 ∧ Selects b value input output ↔
      input < n ∧ Selects b value input output ∨ p = n ∧ input = n ∧ output = o := by
    intro input output
    constructor
    · rintro ⟨hlt, hs⟩
      rcases Nat.lt_succ_iff_lt_or_eq.mp hlt with hlt | rfl
      · exact Or.inl ⟨hlt, hs⟩
      · right
        obtain ⟨-, hs₁, hs₂⟩ := hs
        have hoo : output = o := by omega
        subst hoo
        exact ⟨by omega, rfl, rfl⟩
    · rintro (⟨hlt, hs⟩ | ⟨hpn, rfl, rfl⟩)
      · exact ⟨Nat.lt_succ_of_lt hlt, hs⟩
      · exact ⟨Nat.lt_succ_self _, ho, hout, by omega⟩
  rw [hcompute]
  split_ifs with hpn
  · subst hpn
    have hnone : m ⟨.inputEdge, p⟩ = none := hm.input_eq_none (Nat.le_refl p)
    have hnone' : Function.update m ⟨.inputEdge, p⟩ (some [⟨.outputEdge, o⟩]) ⟨.outputEdge, o⟩
        = none := by
      rw [Function.update_of_ne (by intro heq; cases heq)]
      exact hm.output_eq_none (Int.le_of_eq hin.symm)
    rw [insert_of_none hnone, insert_of_none hnone']
    refine ⟨_, rfl, ⟨fun input output => ?_, fun input output => ?_, fun key dests hkey => ?_⟩⟩
    · rw [hselects, Function.update_of_ne (by intro heq; cases heq)]
      by_cases hinput : input = p
      · rw [hinput, Function.update_self]
        constructor
        · intro heq
          cases heq
          exact Or.inr ⟨rfl, rfl, rfl⟩
        · rintro (⟨hlt, -⟩ | ⟨-, -, rfl⟩)
          · exact absurd hlt (Nat.lt_irrefl p)
          · rfl
      · rw [Function.update_of_ne (by intro heq; cases heq; exact hinput rfl), hm.input,
          or_iff_left fun hboth => hinput hboth.2.1]
    · rw [hselects]
      by_cases houtput : output = o
      · rw [houtput, Function.update_self]
        constructor
        · intro heq
          cases heq
          exact Or.inr ⟨rfl, rfl, rfl⟩
        · rintro (⟨hlt, -, -, hvalue⟩ | ⟨-, rfl, -⟩)
          · omega
          · rfl
      · rw [Function.update_of_ne (by intro heq; cases heq; exact houtput rfl),
          Function.update_of_ne (by intro heq; cases heq), hm.output,
          or_iff_left fun hboth => houtput hboth.2.2]
    · by_cases hkey₁ : key = ⟨.outputEdge, o⟩
      · rw [hkey₁, Function.update_self, Option.some_inj] at hkey
        exact ⟨p, o, Or.inr ⟨hkey₁, hkey.symm⟩⟩
      · rw [Function.update_of_ne hkey₁] at hkey
        by_cases hkey₂ : key = ⟨.inputEdge, p⟩
        · rw [hkey₂, Function.update_self, Option.some_inj] at hkey
          exact ⟨p, o, Or.inl ⟨hkey₂, hkey.symm⟩⟩
        · rw [Function.update_of_ne hkey₂] at hkey
          exact hm.only key dests hkey
  · refine ⟨m, rfl, ⟨fun input output => ?_, fun input output => ?_, hm.only⟩⟩
    · rw [hselects, hm.input, or_iff_left fun hboth => hpn hboth.1]
    · rw [hselects, hm.output, or_iff_left fun hboth => hpn hboth.1]

theorem forwardingMap_eq (h : Valid b value) :
    ∃ m, forwardingMap b value = .ok m ∧ MapsFirst b value b.numInputPorts m := by
  have hloop : ∀ n ≤ b.numInputPorts, ∃ m,
      (List.range n).foldlM (linkPort b value) (fun _ => none) = .ok m ∧
        MapsFirst b value n m := by
    intro n
    induction n with
    | zero =>
      intro _
      refine ⟨fun _ => none, rfl, fun _ _ => ?_, fun _ _ => ?_, fun _ _ hkey => by cases hkey⟩
      · exact iff_of_false (Option.some_ne_none _).symm fun hlt => Nat.not_lt_zero _ hlt.1
      · exact iff_of_false (Option.some_ne_none _).symm fun hlt => Nat.not_lt_zero _ hlt.1
    | succ n ih =>
      intro hn
      obtain ⟨m, hm, hfirst⟩ := ih (Nat.le_of_succ_le hn)
      obtain ⟨m', hm', hnext⟩ := hfirst.linkPort h hn
      refine ⟨m', ?_, hnext⟩
      rw [List.range_succ, List.foldlM_append, hm]
      dsimp only [bind, Except.bind]
      rw [List.foldlM_cons, hm']
      rfl
  exact hloop b.numInputPorts (Nat.le_refl _)

end Map

/-! ## Cleaning -/

section Cleaning

variable {b : Ports} {s : Block} {slot : Slot} {value : ℤ}

theorem mem_slots : slot ∈ slots b ↔ slot.2 < b.count slot.1 := by
  obtain ⟨family, port⟩ := slot
  rw [slots, List.mem_append, List.mem_map, List.mem_map]
  cases family with
  | inputSelect => simp [Ports.count]
  | outputSelect => simp [Ports.count]

theorem nodup_slots (b : Ports) : (slots b).Nodup := by
  rw [slots, List.nodup_append]
  refine ⟨List.Pairwise.map _ (fun _ _ hne heq => hne (congrArg Prod.snd heq)) List.nodup_range,
    List.Pairwise.map _ (fun _ _ hne heq => hne (congrArg Prod.snd heq)) List.nodup_range, ?_⟩
  intro x hx y hy heq
  obtain ⟨_, -, hx⟩ := List.mem_map.mp hx
  obtain ⟨_, -, hy⟩ := List.mem_map.mp hy
  cases hx.trans (heq.trans hy.symm)

/-- No property is dirty. -/
def Clean (b : Ports) (s : Block) : Prop := ∀ slot ∈ slots b, s.dirty slot = false

/-- The values are accepted. -/
def Accepted (b : Ports) (family : Family) (value : ℤ) : Prop :=
  0 ≤ value ∧ value < b.limit family

/-- A property is set and cleaned. -/
def Block.written (slot : Slot) (value : ℤ) (s : Block) : Block :=
  { s with
    value := Function.update s.value slot value
    dirty := Function.update s.dirty slot false
    register := Function.update s.register slot (BitVec.ofInt 32 value) }

/-- The map is made. -/
def Block.mapped (m : FwdMap) (s : Block) : Block := { s with propFwdMap := m, actionFwdMap := m }

theorem cleanProp_of_clean (h : s.dirty slot = false) :
    cleanProp b slot s = .ok PUnit.unit s := by
  have hsame : Function.update s.dirty slot false = s.dirty := by
    rw [← h]
    exact Function.update_eq_self slot s.dirty
  have hnot : ¬ s.dirty slot = true := by
    rw [h]
    exact Bool.false_ne_true
  show EStateM.bind _ _ s = _
  dsimp only [EStateM.bind, get, getThe, MonadStateOf.get, EStateM.get]
  rw [onlyIf, if_neg hnot]
  show EStateM.Result.ok PUnit.unit { s with dirty := Function.update s.dirty slot false } = _
  rw [hsame]

theorem updateForwardingMap_eq {m : FwdMap} (h : forwardingMap b s.value = .ok m) :
    updateForwardingMap b s = .ok PUnit.unit (s.mapped m) := by
  show EStateM.bind _ _ s = _
  dsimp only [EStateM.bind, get, getThe, MonadStateOf.get, EStateM.get]
  rw [h]
  rfl

theorem set_of_ne (h : s.value slot ≠ value) : s.set slot value =
    { s with
      value := Function.update s.value slot value
      dirty := Function.update s.dirty slot true } := if_neg h

theorem cleanCallback_eq (b : Ports) (slot : Slot) (s : Block) :
    cleanCallback b slot s =
      if s.value slot < 0 ∨ b.limit slot.1 ≤ (s.value slot).toNat then
        .error (.valueError "Index out of bounds") s
      else
        onlyIf (s.connectCall = false) (updateForwardingMap b)
          { s with
            register := Function.update s.register slot (BitVec.ofInt 32 (s.value slot)) } := by
  show EStateM.bind _ _ s = _
  dsimp only [EStateM.bind, get, getThe, MonadStateOf.get, EStateM.get]
  by_cases h : s.value slot < 0 ∨ b.limit slot.1 ≤ (s.value slot).toNat
  · rw [onlyIf, if_pos h, if_pos h]
    rfl
  · rw [onlyIf, if_neg h, if_neg h]
    rfl

theorem accepted_iff {family : Family} : Accepted b family value ↔
    ¬ (value < 0 ∨ b.limit family ≤ value.toNat) := by
  rw [Accepted]
  omega

theorem cleanCallback_of_accepted (hvalue : s.value slot = value) (h : Accepted b slot.1 value) :
    cleanCallback b slot s = onlyIf (s.connectCall = false) (updateForwardingMap b)
      { s with register := Function.update s.register slot (BitVec.ofInt 32 value) } := by
  subst hvalue
  rw [cleanCallback_eq, if_neg (accepted_iff.mp h)]

theorem cleanCallback_of_rejected (hvalue : s.value slot = value)
    (h : ¬ Accepted b slot.1 value) :
    cleanCallback b slot s = .error (.valueError "Index out of bounds") s := by
  subst hvalue
  rw [cleanCallback_eq, if_pos (not_not.mp (mt accepted_iff.mpr h))]

theorem cleanProp_of_dirty (h : s.dirty slot = true) :
    cleanProp b slot s = (do
      cleanCallback b slot
      modify fun s => { s with dirty := Function.update s.dirty slot false } :
        BlockM PUnit) s := by
  show EStateM.bind _ _ s = _
  dsimp only [EStateM.bind, get, getThe, MonadStateOf.get, EStateM.get]
  rw [onlyIf, if_pos h]
  rfl

theorem cleanProp_accepted (h : Accepted b slot.1 value) (hne : s.value slot ≠ value)
    (hcall : s.connectCall = false) {m : FwdMap}
    (hm : forwardingMap b (Function.update s.value slot value) = .ok m) :
    cleanProp b slot (s.set slot value)
      = .ok PUnit.unit ((s.written slot value).mapped m) := by
  rw [set_of_ne hne, cleanProp_of_dirty (Function.update_self ..)]
  have hvalue : Function.update s.value slot value slot = value := Function.update_self ..
  have hcallback : cleanCallback b slot
      { s with
        value := Function.update s.value slot value
        dirty := Function.update s.dirty slot true }
      = .ok PUnit.unit (Block.mapped m { s with
        value := Function.update s.value slot value
        dirty := Function.update s.dirty slot true
        register := Function.update s.register slot (BitVec.ofInt 32 value) }) := by
    rw [cleanCallback_of_accepted hvalue h, onlyIf, if_pos hcall]
    exact updateForwardingMap_eq hm
  rw [bind_of_ok hcallback]
  show EStateM.Result.ok PUnit.unit { Block.mapped m _ with
    dirty := Function.update (Function.update s.dirty slot true) slot false } = _
  rw [Function.update_idem]
  rfl

theorem cleanProp_accepted_connecting (h : Accepted b slot.1 value) (hne : s.value slot ≠ value)
    (hcall : s.connectCall = true) :
    cleanProp b slot (s.set slot value) = .ok PUnit.unit (s.written slot value) := by
  rw [set_of_ne hne, cleanProp_of_dirty (Function.update_self ..)]
  have hvalue : Function.update s.value slot value slot = value := Function.update_self ..
  have hnot : ¬ s.connectCall = false := by
    rw [hcall]
    exact Bool.noConfusion
  have hcallback : cleanCallback b slot
      { s with
        value := Function.update s.value slot value
        dirty := Function.update s.dirty slot true }
      = .ok PUnit.unit { s with
        value := Function.update s.value slot value
        dirty := Function.update s.dirty slot true
        register := Function.update s.register slot (BitVec.ofInt 32 value) } := by
    rw [cleanCallback_of_accepted hvalue h, onlyIf, if_neg hnot]
    rfl
  rw [bind_of_ok hcallback]
  show EStateM.Result.ok PUnit.unit { s with
    value := Function.update s.value slot value
    dirty := Function.update (Function.update s.dirty slot true) slot false
    register := Function.update s.register slot (BitVec.ofInt 32 value) } = _
  rw [Function.update_idem]
  rfl

theorem cleanProp_rejected (slot : Slot) (h : ¬ Accepted b slot.1 value)
    (hne : s.value slot ≠ value) :
    cleanProp b slot (s.set slot value)
      = .error (.valueError "Index out of bounds") (s.set slot value) := by
  rw [set_of_ne hne, cleanProp_of_dirty (Function.update_self ..)]
  exact bind_of_error (cleanCallback_of_rejected (Function.update_self ..) h) _

theorem dirty_set_of_ne {x : Slot} (h : x ≠ slot) : (s.set slot value).dirty x = s.dirty x := by
  rw [Block.set]
  split_ifs
  · rfl
  · exact Function.update_of_ne h ..

theorem exists_split (hslot : slot.2 < b.count slot.1) :
    ∃ before after, slots b = before ++ slot :: after ∧ slot ∉ before ∧ slot ∉ after := by
  obtain ⟨before, after, heq⟩ := List.append_of_mem (mem_slots.mpr hslot)
  have hnodup := nodup_slots b
  rw [heq, List.nodup_append, List.nodup_cons] at hnodup
  exact ⟨before, after, heq, fun hmem => hnodup.2.2 _ hmem _ List.mem_cons_self rfl,
    hnodup.2.1.1⟩

theorem cleanProps_of_clean (h : Clean b s) : cleanProps b s = .ok PUnit.unit s :=
  forM_none fun slot hslot => cleanProp_of_clean (h slot hslot)

theorem cleanProps_set (h : Clean b s) (hslot : slot.2 < b.count slot.1) {t : Block}
    (ht : cleanProp b slot (s.set slot value) = .ok PUnit.unit t) (hclean : Clean b t) :
    cleanProps b (s.set slot value) = .ok PUnit.unit t := by
  obtain ⟨before, after, heq, hbefore, -⟩ := exists_split hslot
  rw [cleanProps, heq]
  refine forM_one (fun x hx => cleanProp_of_clean ?_) ht fun x hx => cleanProp_of_clean ?_
  · rw [dirty_set_of_ne (ne_of_mem_of_not_mem hx hbefore)]
    exact h x (heq ▸ List.mem_append_left _ hx)
  · exact hclean x (heq ▸ List.mem_append_right _ (List.mem_cons_of_mem _ hx))

theorem cleanProps_set_error (h : Clean b s) (hslot : slot.2 < b.count slot.1) {e : UhdError}
    {t : Block} (ht : cleanProp b slot (s.set slot value) = .error e t) :
    cleanProps b (s.set slot value) = .error e t := by
  obtain ⟨before, after, heq, hbefore, -⟩ := exists_split hslot
  rw [cleanProps, heq]
  refine forM_one_error (fun x hx => cleanProp_of_clean ?_) ht
  rw [dirty_set_of_ne (ne_of_mem_of_not_mem hx hbefore)]
  exact h x (heq ▸ List.mem_append_left _ hx)

theorem Clean.written (h : Clean b s) (slot : Slot) (value : ℤ) :
    Clean b (s.written slot value) := by
  intro x hx
  show Function.update s.dirty slot false x = false
  by_cases hx' : x = slot
  · rw [hx', Function.update_self]
  · rw [Function.update_of_ne hx']
    exact h x hx

end Cleaning

/-! ## Setting a property -/

section SetProperty

variable {b : Ports} {s : Block} {slot : Slot} {family : Family} {inst : ℕ} {value : ℤ}
  {g : Propagation}

/-- **A block in which nothing is left to do**, but perhaps for the maps. -/
structure Ready (b : Ports) (s : Block) : Prop where
  clean : Clean b s
  valid : Valid b s.value
  register : ∀ slot : Slot, slot.2 < b.count slot.1 →
    s.register slot = BitVec.ofInt 32 (s.value slot)

theorem Ready.written (h : Ready b s) (slot : Slot) (hvalue : Accepted b slot.1 value) :
    Ready b (s.written slot value) where
  clean := h.clean.written slot value
  valid x hx := by
    show 0 ≤ Function.update s.value slot value x ∧
      Function.update s.value slot value x < b.limit x.1
    by_cases hx' : x = slot
    · rw [hx', Function.update_self]
      exact hvalue
    · rw [Function.update_of_ne hx']
      exact h.valid x hx
  register x hx := by
    show Function.update s.register slot _ x
      = BitVec.ofInt 32 (Function.update s.value slot value x)
    by_cases hx' : x = slot
    · rw [hx', Function.update_self, Function.update_self]
    · rw [Function.update_of_ne hx', Function.update_of_ne hx']
      exact h.register x hx

theorem Ready.mapped (h : Ready b s) (m : FwdMap) : Ready b (s.mapped m) :=
  ⟨h.clean, h.valid, h.register⟩

theorem Ready.written_same (h : Ready b s) (hslot : slot.2 < b.count slot.1) :
    s.written slot (s.value slot) = s := by
  rw [Block.written, ← h.register slot hslot, Function.update_eq_self, Function.update_eq_self,
    ← h.clean slot (mem_slots.mpr hslot), Function.update_eq_self]

theorem resolveAll_quiet (hg : g.Quiet) {t : Block} (h : cleanProps b s = .ok PUnit.unit t) :
    resolveAll b g s = .ok PUnit.unit t := by
  have hbefore : throwAny g.before s = .ok PUnit.unit s := by
    rw [hg.1]
    rfl
  rw [resolveAll, bind_of_ok hbefore, bind_of_ok h, hg.2]
  rfl

theorem resolveAll_not_quiet (hg : ¬ g.Quiet) {t : Block}
    (h : cleanProps b s = .ok PUnit.unit t) :
    ∃ e u, resolveAll b g s = .error e u ∧ (u = s ∨ u = t) := by
  cases hbefore : g.before with
  | some e =>
    refine ⟨e, s, ?_, Or.inl rfl⟩
    rw [resolveAll, hbefore]
    rfl
  | none =>
    cases hafter : g.after with
    | none => exact absurd ⟨hbefore, hafter⟩ hg
    | some e =>
      refine ⟨e, t, ?_, Or.inr rfl⟩
      have hfirst : throwAny g.before s = .ok PUnit.unit s := by
        rw [hbefore]
        rfl
      rw [resolveAll, bind_of_ok hfirst, bind_of_ok h, hafter]
      rfl

theorem resolveAll_of_error {e : UhdError} {t : Block} (h : cleanProps b s = .error e t) :
    ∃ e u, resolveAll b g s = .error e u ∧ (u = s ∨ u = t) := by
  cases hbefore : g.before with
  | some e =>
    refine ⟨e, s, ?_, Or.inl rfl⟩
    rw [resolveAll, hbefore]
    rfl
  | none =>
    refine ⟨e, t, ?_, Or.inr rfl⟩
    have hfirst : throwAny g.before s = .ok PUnit.unit s := by
      rw [hbefore]
      rfl
    rw [resolveAll, bind_of_ok hfirst, bind_of_error h]

theorem setProperty_refused (family : Family) (h : b.count family ≤ inst) :
    setProperty b family value inst g s = .error (unknownProperty b family) s := by
  rw [setProperty, onlyIf, if_pos h]
  rfl

theorem setProperty_eq (h : inst < b.count family) (value : ℤ) (g : Propagation) (s : Block) :
    setProperty b family value inst g s = resolveAll b g (s.set (family, inst) value) := by
  rw [setProperty, onlyIf, if_neg (Nat.not_le_of_lt h)]
  rfl

theorem setProperty_same (hs : Clean b s) (family : Family) (h : inst < b.count family)
    (hvalue : s.value (family, inst) = value) :
    (g.Quiet → setProperty b family value inst g s = .ok PUnit.unit s) ∧
      (¬ g.Quiet → ∃ e, setProperty b family value inst g s = .error e s) := by
  have hset : s.set (family, inst) value = s := if_pos hvalue
  rw [setProperty_eq h, hset]
  refine ⟨fun hg => resolveAll_quiet hg (cleanProps_of_clean hs), fun hg => ?_⟩
  obtain ⟨e, u, he, rfl | rfl⟩ := resolveAll_not_quiet hg (cleanProps_of_clean hs)
  · exact ⟨e, he⟩
  · exact ⟨e, he⟩

theorem cleanProps_accepted (hs : Ready b s) (slot : Slot) (hslot : slot.2 < b.count slot.1)
    (hvalue : Accepted b slot.1 value) (hne : s.value slot ≠ value) :
    (s.connectCall = true →
        cleanProps b (s.set slot value) = .ok PUnit.unit (s.written slot value)) ∧
      (s.connectCall = false → ∀ m,
        forwardingMap b (Function.update s.value slot value) = .ok m →
        cleanProps b (s.set slot value) = .ok PUnit.unit ((s.written slot value).mapped m)) := by
  have hwritten := hs.written slot hvalue
  constructor
  · intro hcall
    exact cleanProps_set hs.clean hslot (cleanProp_accepted_connecting hvalue hne hcall)
      hwritten.clean
  · intro hcall m hm
    exact cleanProps_set hs.clean hslot (cleanProp_accepted hvalue hne hcall hm)
      hwritten.clean

theorem setProperty_connecting (hs : Ready b s) (family : Family) (h : inst < b.count family)
    (hvalue : Accepted b family value) (hg : g.Quiet) (hcall : s.connectCall = true) :
    setProperty b family value inst g s = .ok PUnit.unit (s.written (family, inst) value) := by
  by_cases hsame : s.value (family, inst) = value
  · rw [(setProperty_same hs.clean family h hsame).1 hg, ← hsame, hs.written_same h]
  · rw [setProperty_eq h]
    exact resolveAll_quiet hg ((cleanProps_accepted hs (family, inst) h hvalue hsame).1 hcall)

theorem setProperty_error (hs : Ready b s) (family : Family) (h : inst < b.count family)
    (hne : s.value (family, inst) ≠ value) (hnot : ¬ (Accepted b family value ∧ g.Quiet)) :
    ∃ e t, setProperty b family value inst g s = .error e t ∧
      t.value (family, inst) = value := by
  rw [setProperty_eq h]
  have hset : (s.set (family, inst) value).value (family, inst) = value := by
    rw [set_of_ne hne]
    exact Function.update_self ..
  by_cases hvalue : Accepted b family value
  · have hg : ¬ g.Quiet := fun hg => hnot ⟨hvalue, hg⟩
    have hend : ∃ t, cleanProps b (s.set (family, inst) value) = .ok PUnit.unit t ∧
        t.value (family, inst) = value := by
      cases hcall : s.connectCall with
      | true =>
        exact ⟨_, (cleanProps_accepted hs (family, inst) h hvalue hne).1 hcall,
          Function.update_self ..⟩
      | false =>
        have hvalid : Valid b (Function.update s.value (family, inst) value) :=
          (hs.written (family, inst) hvalue).valid
        obtain ⟨m, hm, -⟩ := forwardingMap_eq hvalid
        exact ⟨_, (cleanProps_accepted hs (family, inst) h hvalue hne).2 hcall m hm,
          Function.update_self ..⟩
    obtain ⟨t, ht, htvalue⟩ := hend
    obtain ⟨e, u, he, rfl | rfl⟩ := resolveAll_not_quiet hg ht
    · exact ⟨e, _, he, hset⟩
    · exact ⟨e, _, he, htvalue⟩
  · obtain ⟨e, u, he, rfl | rfl⟩ := resolveAll_of_error (g := g)
      (cleanProps_set_error hs.clean h (cleanProp_rejected (family, inst) hvalue hne))
    · exact ⟨e, _, he, hset⟩
    · exact ⟨e, _, he, hset⟩

end SetProperty

/-! ## Calls -/

section Calls

variable {b : Ports} {s : Block} {family : Family} {inst : ℕ} {value : ℤ} {g g₁ g₂ : Propagation}
  {input output : ℕ}

/-- **The invariant.**  Nothing is left to do, and the maps are those of the values. -/
structure Settled (b : Ports) (s : Block) : Prop where
  ready : Ready b s
  connectCall : s.connectCall = false
  prop : forwardingMap b s.value = .ok s.propFwdMap
  action : forwardingMap b s.value = .ok s.actionFwdMap

theorem Ready.linked_iff (h : Ready b s) (input output : ℕ) :
    Linked b s input output ↔ input < b.numInputPorts ∧ Selects b s.value input output := by
  have hregister : ∀ slot : Slot, slot.2 < b.count slot.1 → ∀ n : ℕ,
      (s.register slot).toNat = n ↔ s.value slot = n := by
    intro slot hslot n
    obtain ⟨m, hm, hvalue, -⟩ := h.valid.exists_port slot hslot
    have hlimit := limit_lt b slot.1
    rw [h.register slot hslot, hvalue, BitVec.toNat_ofInt]
    omega
  constructor
  · rintro ⟨hinput, houtput, hout, hin⟩
    exact ⟨hinput, houtput, (hregister (.outputSelect, input) hinput output).mp hout,
      (hregister (.inputSelect, output) houtput input).mp hin⟩
  · rintro ⟨hinput, houtput, hout, hin⟩
    exact ⟨hinput, houtput, (hregister (.outputSelect, input) hinput output).mpr hout,
      (hregister (.inputSelect, output) houtput input).mpr hin⟩

theorem Ready.right (h : Ready b s) {m : FwdMap} (hm : forwardingMap b s.value = .ok m) :
    Right b s m := by
  obtain ⟨m', hm', hfirst⟩ := forwardingMap_eq h.valid
  obtain rfl : m' = m := Except.ok.inj (hm'.symm.trans hm)
  exact ⟨fun input output => (hfirst.input input output).trans (h.linked_iff input output).symm,
    fun input output => (hfirst.output input output).trans (h.linked_iff input output).symm,
    hfirst.only⟩

/-- **A call that is as it should be**: it leaves everything settled, and if it throws, the same. -/
def Orderly (b : Ports) (s : Block) (r : EStateM.Result UhdError Block PUnit) : Prop :=
  Settled b (stateAfter r) ∧ ∀ e t, r = .error e t → t = s

/-- A call that throws after it has changed a property. -/
def Torn (s : Block) (r : EStateM.Result UhdError Block PUnit) : Prop :=
  ∃ e t, r = .error e t ∧ t.value ≠ s.value

theorem orderly_error (h : Settled b s) (e : UhdError) : Orderly b s (.error e s) :=
  ⟨h, fun _ _ heq => by cases heq; rfl⟩

theorem orderly_ok {t : Block} (h : Settled b t) : Orderly b s (.ok PUnit.unit t) :=
  ⟨h, fun _ _ heq => by cases heq⟩

theorem torn_of_ne {e : UhdError} {t : Block} (slot : Slot) (h : t.value slot ≠ s.value slot) :
    Torn s (.error e t) :=
  ⟨e, t, rfl, fun heq => h (congrFun heq slot)⟩

theorem setProperty_step (h : Settled b s) (family : Family) (value : ℤ) (inst : ℕ)
    (g : Propagation) :
    (Meets b s (.setProperty family value inst g) →
        Orderly b s (setProperty b family value inst g s)) ∧
      (¬ Meets b s (.setProperty family value inst g) →
        Torn s (setProperty b family value inst g s)) := by
  rcases Nat.lt_or_ge inst (b.count family) with hinst | hinst
  · by_cases hsame : s.value (family, inst) = value
    · refine ⟨fun _ => ?_, fun hmeets => absurd (Or.inr (Or.inl hsame)) hmeets⟩
      obtain ⟨hquiet, hloud⟩ := setProperty_same h.ready.clean family hinst hsame
      by_cases hg : g.Quiet
      · rw [hquiet hg]
        exact orderly_ok h
      · obtain ⟨e, he⟩ := hloud hg
        rw [he]
        exact orderly_error h e
    · constructor
      · intro hmeets
        obtain ⟨hnonneg, hlt, hg⟩ := (hmeets.resolve_left (Nat.not_le_of_lt hinst)).resolve_left
          hsame
        have hready := h.ready.written (family, inst) ⟨hnonneg, hlt⟩
        obtain ⟨m, hm, -⟩ := forwardingMap_eq hready.valid
        have hclean := (cleanProps_accepted h.ready (family, inst) hinst ⟨hnonneg, hlt⟩
          hsame).2 h.connectCall m hm
        rw [setProperty_eq hinst, resolveAll_quiet hg hclean]
        exact orderly_ok ⟨hready.mapped m, h.connectCall, hm, hm⟩
      · intro hmeets
        obtain ⟨e, t, he, ht⟩ := @setProperty_error b s _ _ g h.ready family hinst hsame
          fun hboth => hmeets (Or.inr (Or.inr ⟨hboth.1.1, hboth.1.2, hboth.2⟩))
        rw [he]
        exact torn_of_ne (family, inst) (ht.trans_ne (Ne.symm hsame))
  · refine ⟨fun _ => ?_, fun hmeets => absurd (Or.inl hinst) hmeets⟩
    rw [setProperty_refused family hinst]
    exact orderly_error h _

theorem connect_of_error {e : UhdError} {t : Block}
    (h : connectBoth b input output g₁ g₂ { s with connectCall := true } = .error e t) :
    connect b input output g₁ g₂ s = .error e { t with connectCall := false } := by
  rw [connect, bind_of_ok (rfl : setConnectCall true s = .ok PUnit.unit _)]
  refine bind_of_error ?_ _
  rw [tryCatch_of_error h]
  rfl

theorem connect_of_ok {t : Block} {m : FwdMap}
    (h : connectBoth b input output g₁ g₂ { s with connectCall := true } = .ok PUnit.unit t)
    (hm : forwardingMap b t.value = .ok m) :
    connect b input output g₁ g₂ s = .ok PUnit.unit { t.mapped m with connectCall := false } := by
  rw [connect, bind_of_ok (rfl : setConnectCall true s = .ok PUnit.unit _),
    bind_of_ok (tryCatch_of_ok h _), bind_of_ok (updateForwardingMap_eq hm)]
  rfl

theorem toInt_of_lt {n : ℕ} (h : n < 2 ^ 31) : toInt n = n := by
  have hnat : (BitVec.ofNat 32 n).toNat = n := by
    rw [BitVec.toNat_ofNat]
    exact Nat.mod_eq_of_lt (by omega)
  rw [toInt, BitVec.toInt_eq_toNat_cond, hnat, if_pos (by omega)]

theorem connect_error_same (h : Settled b s) {e : UhdError}
    (he : connectBoth b input output g₁ g₂ { s with connectCall := true }
      = .error e { s with connectCall := true }) :
    Orderly b s (connect b input output g₁ g₂ s) := by
  have hsame : ({ s with connectCall := false } : Block) = s := by
    rw [← h.connectCall]
  rw [connect_of_error he]
  exact hsame.symm ▸ orderly_error h e

theorem connect_torn (slot : Slot) {e : UhdError} {t : Block}
    (he : connectBoth b input output g₁ g₂ { s with connectCall := true } = .error e t)
    (hne : t.value slot ≠ s.value slot) : Torn s (connect b input output g₁ g₂ s) := by
  rw [connect_of_error he]
  exact torn_of_ne slot hne

theorem connect_ok {t : Block} (ht : Ready b t)
    (h : connectBoth b input output g₁ g₂ { s with connectCall := true } = .ok PUnit.unit t) :
    Orderly b s (connect b input output g₁ g₂ s) := by
  obtain ⟨m, hm, -⟩ := forwardingMap_eq ht.valid
  rw [connect_of_ok h hm]
  exact orderly_ok ⟨⟨ht.clean, ht.valid, ht.register⟩, rfl, hm, hm⟩

theorem Settled.connecting (h : Settled b s) : Ready b { s with connectCall := true } :=
  ⟨h.ready.clean, h.ready.valid, h.ready.register⟩

theorem accepted_port (h : output < b.numOutputPorts) :
    toInt output = output ∧ Accepted b .outputSelect (toInt output) := by
  have hint : toInt output = output := toInt_of_lt (Nat.lt_trans h b.numOutputPorts_lt)
  rw [hint]
  exact ⟨rfl, Int.natCast_nonneg output, Int.ofNat_lt.mpr h⟩

theorem connect_step_same (h : Settled b s) (houtput : output < b.numOutputPorts)
    (hsame : s.value (.inputSelect, output) = toInt input) :
    (Meets b s (.connect input output g₁ g₂) → Orderly b s (connect b input output g₁ g₂ s)) ∧
      (¬ Meets b s (.connect input output g₁ g₂) →
        Torn s (connect b input output g₁ g₂ s)) := by
  have hready := h.connecting
  obtain ⟨hint, haccepted⟩ := accepted_port houtput
  have hfirst := @setProperty_same b _ output _ g₁ hready.clean .inputSelect houtput hsame
  by_cases hg₁ : g₁.Quiet
  swap
  · refine ⟨fun _ => ?_, fun hmeets => absurd (Or.inr (Or.inr ⟨hsame, Or.inl hg₁⟩)) hmeets⟩
    obtain ⟨e, he⟩ := hfirst.2 hg₁
    exact connect_error_same h (bind_of_error he _)
  have hnext := bind_of_ok (hfirst.1 hg₁)
    (fun _ => setProperty b .outputSelect (toInt output) input g₂)
  rcases Nat.lt_or_ge input b.numInputPorts with hinput | hinput
  swap
  · refine ⟨fun _ => ?_, fun hmeets =>
      absurd (Or.inr (Or.inr ⟨hsame, Or.inr (Or.inl hinput)⟩)) hmeets⟩
    exact connect_error_same h
      (hnext.trans (setProperty_refused .outputSelect hinput))
  by_cases hg₂ : g₂.Quiet
  · refine ⟨fun _ => ?_, fun hmeets => absurd (Or.inr (Or.inl ⟨hinput, hg₁, hg₂⟩)) hmeets⟩
    exact connect_ok (hready.written (.outputSelect, input) haccepted)
      (hnext.trans (setProperty_connecting hready .outputSelect hinput haccepted hg₂
        rfl))
  by_cases hthere : s.value (.outputSelect, input) = output
  · refine ⟨fun _ => ?_, fun hmeets =>
      absurd (Or.inr (Or.inr ⟨hsame, Or.inr (Or.inr hthere)⟩)) hmeets⟩
    obtain ⟨e, he⟩ := (setProperty_same hready.clean .outputSelect hinput
      (hthere.trans hint.symm)).2 hg₂
    exact connect_error_same h (hnext.trans he)
  · constructor
    · rintro (hout | ⟨-, -, hquiet⟩ | ⟨-, hloud | hin | heq⟩)
      · exact absurd houtput (Nat.not_lt_of_le hout)
      · exact absurd hquiet hg₂
      · exact absurd hg₁ hloud
      · exact absurd hinput (Nat.not_lt_of_le hin)
      · exact absurd heq hthere
    · intro _
      obtain ⟨e, t, he, ht⟩ := setProperty_error hready .outputSelect hinput
        (fun heq => hthere (heq.trans hint)) fun hboth => hg₂ hboth.2
      refine connect_torn (.outputSelect, input) (hnext.trans he) ?_
      rw [ht, hint]
      exact Ne.symm hthere

theorem connect_step_new (h : Settled b s) (houtput : output < b.numOutputPorts)
    (hnew : s.value (.inputSelect, output) ≠ toInt input) :
    (Meets b s (.connect input output g₁ g₂) → Orderly b s (connect b input output g₁ g₂ s)) ∧
      (¬ Meets b s (.connect input output g₁ g₂) →
        Torn s (connect b input output g₁ g₂ s)) := by
  have hready := h.connecting
  obtain ⟨hint, haccepted⟩ := accepted_port houtput
  have hmeets : Meets b s (.connect input output g₁ g₂) →
      input < b.numInputPorts ∧ g₁.Quiet ∧ g₂.Quiet := by
    rintro (hout | hin | ⟨heq, -⟩)
    · exact absurd houtput (Nat.not_lt_of_le hout)
    · exact hin
    · exact absurd heq hnew
  by_cases hboth : Accepted b .inputSelect (toInt input) ∧ g₁.Quiet
  swap
  · constructor
    · intro hm
      obtain ⟨hinput, hg₁, -⟩ := hmeets hm
      refine absurd ⟨?_, hg₁⟩ hboth
      rw [toInt_of_lt (Nat.lt_trans hinput b.numInputPorts_lt)]
      exact ⟨Int.natCast_nonneg input, Int.ofNat_lt.mpr hinput⟩
    · intro _
      obtain ⟨e, t, he, ht⟩ := setProperty_error hready .inputSelect
        houtput hnew hboth
      refine connect_torn (.inputSelect, output) (bind_of_error he _) ?_
      rw [ht]
      exact Ne.symm hnew
  -- from here on the first value is set, and everything that throws is too late
  have hready₁ := hready.written (.inputSelect, output) hboth.1
  have hnext := bind_of_ok
    (setProperty_connecting hready .inputSelect houtput hboth.1 hboth.2 rfl)
    (fun _ => setProperty b .outputSelect (toInt output) input g₂)
  have hchanged : Function.update s.value (.inputSelect, output) (toInt input)
      (.inputSelect, output) ≠ s.value (.inputSelect, output) := by
    rw [Function.update_self]
    exact Ne.symm hnew
  rcases Nat.lt_or_ge input b.numInputPorts with hinput | hinput
  swap
  · refine ⟨fun hm => absurd (hmeets hm).1 (Nat.not_lt_of_le hinput), fun _ => ?_⟩
    exact connect_torn (.inputSelect, output)
      (hnext.trans (setProperty_refused .outputSelect hinput)) hchanged
  by_cases hg₂ : g₂.Quiet
  · refine ⟨fun _ => ?_, fun hm => absurd (Or.inr (Or.inl ⟨hinput, hboth.2, hg₂⟩)) hm⟩
    exact connect_ok (hready₁.written (.outputSelect, input) haccepted)
      (hnext.trans (setProperty_connecting hready₁ .outputSelect hinput haccepted hg₂
        rfl))
  refine ⟨fun hm => absurd (hmeets hm).2.2 hg₂, fun _ => ?_⟩
  have hother : Function.update s.value (.inputSelect, output) (toInt input)
      (.outputSelect, input) = s.value (.outputSelect, input) :=
    Function.update_of_ne (by intro heq; cases heq) ..
  by_cases hthere : s.value (.outputSelect, input) = toInt output
  · obtain ⟨e, he⟩ := (setProperty_same hready₁.clean .outputSelect hinput
      (hother.trans hthere)).2 hg₂
    exact connect_torn (.inputSelect, output) (hnext.trans he) hchanged
  · obtain ⟨e, t, he, ht⟩ := setProperty_error hready₁ .outputSelect hinput
      (fun heq => hthere (hother.symm.trans heq)) fun hq => hg₂ hq.2
    refine connect_torn (.outputSelect, input) (hnext.trans he) ?_
    rw [ht]
    exact Ne.symm hthere

theorem call_step (h : Settled b s) (call : Call) :
    (Meets b s call → Orderly b s (call.run b s)) ∧
      (¬ Meets b s call → Torn s (call.run b s)) := by
  cases call with
  | setProperty family value inst g => exact setProperty_step h family value inst g
  | connect input output g₁ g₂ =>
    rcases Nat.lt_or_ge output b.numOutputPorts with houtput | houtput
    · by_cases hsame : s.value (.inputSelect, output) = toInt input
      · exact connect_step_same h houtput hsame
      · exact connect_step_new h houtput hsame
    · refine ⟨fun _ => ?_, fun hmeets => absurd (Or.inl houtput) hmeets⟩
      exact connect_error_same h
        (bind_of_error (setProperty_refused .inputSelect houtput) _)

theorem claimed_iff_meets (h : Settled b s) (call : Call) :
    Claimed b s call ↔ Meets b s call := by
  constructor
  · intro hclaimed
    by_contra hmeets
    obtain ⟨e, t, he, hne⟩ := (call_step h call).2 hmeets
    exact hne (hclaimed.unchanged e t he).value
  · intro hmeets
    obtain ⟨hsettled, hsame⟩ := (call_step h call).1 hmeets
    refine ⟨hsettled.ready.right hsettled.prop, hsettled.ready.right hsettled.action, ?_⟩
    intro e t he
    rw [hsame e t he]
    exact ⟨rfl, rfl, rfl, rfl⟩

end Calls

/-! ## Runs -/

section Runs

variable {b : Ports} {s : Block} {slot : Slot}

/-- What holds while the block is made: what is clean is written. -/
structure Making (b : Ports) (s : Block) : Prop where
  value : s.value = fun _ => 0
  connectCall : s.connectCall = false
  prop : forwardingMap b s.value = .ok s.propFwdMap
  action : forwardingMap b s.value = .ok s.actionFwdMap
  written : ∀ slot : Slot, slot.2 < b.count slot.1 → s.dirty slot = false →
    s.register slot = BitVec.ofInt 32 (s.value slot)

theorem accepted_zero (b : Ports) (family : Family) : Accepted b family 0 := by
  have hin := b.numInputPorts_pos
  have hout := b.numOutputPorts_pos
  cases family with
  | inputSelect => exact ⟨Int.le_refl 0, Int.ofNat_lt.mpr hin⟩
  | outputSelect => exact ⟨Int.le_refl 0, Int.ofNat_lt.mpr hout⟩

theorem Making.cleanProp (h : Making b s) (slot : Slot) :
    ∃ t, cleanProp b slot s = .ok PUnit.unit t ∧ Making b t ∧
      t.dirty = Function.update s.dirty slot false := by
  cases hdirty : s.dirty slot with
  | false =>
    refine ⟨s, cleanProp_of_clean hdirty, h, ?_⟩
    rw [← hdirty, Function.update_eq_self]
  | true =>
    have hvalue : s.value slot = 0 := by rw [h.value]
    have hcallback : cleanCallback b slot s = .ok PUnit.unit (Block.mapped s.propFwdMap
        { s with register := Function.update s.register slot (BitVec.ofInt 32 0) }) := by
      rw [cleanCallback_of_accepted hvalue (accepted_zero b slot.1), onlyIf, if_pos h.connectCall]
      exact updateForwardingMap_eq h.prop
    refine ⟨_, (cleanProp_of_dirty hdirty).trans (bind_of_ok hcallback _),
      ⟨h.value, h.connectCall, h.prop, h.prop, ?_⟩, rfl⟩
    intro x hx hclean
    show Function.update s.register slot _ x = BitVec.ofInt 32 (s.value x)
    by_cases hx' : x = slot
    · rw [hx', Function.update_self, hvalue]
    · rw [Function.update_of_ne hx']
      exact h.written x hx ((Function.update_of_ne hx' ..).symm.trans hclean)

theorem Making.cleanAll (l : List Slot) (h : Making b s) :
    ∃ t, forM l (Switchboard.cleanProp b) s = .ok PUnit.unit t ∧ Making b t ∧
      (∀ x ∈ l, t.dirty x = false) ∧ ∀ x, s.dirty x = false → t.dirty x = false := by
  induction l generalizing s with
  | nil => exact ⟨s, rfl, h, fun x hx => absurd hx List.not_mem_nil, fun x hx => hx⟩
  | cons slot l ih =>
    obtain ⟨u, hu, hmaking, hdirty⟩ := h.cleanProp slot
    obtain ⟨t, ht, hmade, hclean, hkept⟩ := ih hmaking
    have hstays : ∀ x, x = slot ∨ s.dirty x = false → u.dirty x = false := by
      intro x hx
      rw [hdirty]
      by_cases hx' : x = slot
      · rw [hx', Function.update_self]
      · rw [Function.update_of_ne hx']
        exact hx.resolve_left hx'
    refine ⟨t, ?_, hmade, fun x hx => ?_, fun x hx => hkept x (hstays x (Or.inr hx))⟩
    · rw [List.forM_cons, bind_of_ok hu]
      exact ht
    · rcases List.mem_cons.mp hx with hx' | hx'
      · exact hkept x (hstays x (Or.inl hx'))
      · exact hclean x hx'

theorem settled_start (b : Ports) (register : Slot → BitVec 32) :
    Settled b (start b register) ∧ (start b register).value = fun _ => 0 := by
  have hvalid : Valid b fun _ => 0 := fun slot _ => accepted_zero b slot.1
  obtain ⟨m, hm, -⟩ := forwardingMap_eq hvalid
  have hmaking : Making b (Block.mapped m (blank register)) :=
    ⟨rfl, rfl, hm, hm, fun slot _ hclean => absurd hclean.symm Bool.false_ne_true⟩
  obtain ⟨t, ht, hmade, hclean, -⟩ := hmaking.cleanAll (slots b)
  have hstart : start b register = t := by
    rw [start, construct, bind_of_ok (updateForwardingMap_eq (s := blank register) hm)]
    exact congrArg stateAfter ht
  rw [hstart]
  refine ⟨⟨⟨hclean, hmade.value ▸ hvalid, fun slot hslot => ?_⟩, hmade.connectCall, hmade.prop,
    hmade.action⟩, hmade.value⟩
  exact hmade.written slot hslot (hclean slot (mem_slots.mpr hslot))

/-- **All calls of a run** are as it is claimed exactly when all of them meet the condition. -/
theorem claimed_iff_everyStep (b : Ports) (register : Slot → BitVec 32) (calls : List Call) :
    Transition.EveryStep (Call.after b) (Claimed b) (start b register) calls ↔
      Transition.EveryStep (Call.after b) (Meets b) (start b register) calls := by
  refine Transition.everyStep_iff_of_good (I := Settled b) ?_
    (fun s call h => claimed_iff_meets h call) (settled_start b register).1 calls
  intro s call t hs hmeets ht
  cases ht
  exact ((call_step hs call).1 hmeets).1

/-- A block with two ports on either side. -/
def twoPorts : Ports where
  uniqueId := "0/Switchboard#0"
  numInputPorts := 2
  numOutputPorts := 2
  numInputPorts_pos := by decide
  numOutputPorts_pos := by decide
  numInputPorts_lt := by decide
  numOutputPorts_lt := by decide

/-- **An input port that there is not.**  The call throws, and leaves its number in the property. -/
theorem not_claimed_thirdPort : ¬ ∀ calls, Transition.EveryStep (Call.after twoPorts)
    (Claimed twoPorts) (start twoPorts fun _ => 0) calls := by
  intro h
  obtain ⟨hsettled, hvalue⟩ := settled_start twoPorts fun _ => 0
  have hmeets := (claimed_iff_meets hsettled _).mp
    (h [.connect 2 0 ⟨none, none⟩ ⟨none, none⟩]).1
  rcases hmeets with hout | ⟨hin, -⟩ | ⟨hsame, -⟩
  · exact absurd hout (by decide)
  · exact absurd hin (by decide)
  · rw [hvalue] at hsame
    exact absurd hsame (by decide)

end Runs

end Switchboard
end Rfnoc
end UhdHost
