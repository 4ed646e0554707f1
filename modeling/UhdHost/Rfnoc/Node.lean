import Mathlib
import UhdHost.Library.Stateful
import UhdHost.Rfnoc.Property

/-!
# Nodes and their properties

The part of `node_t` (`uhd/rfnoc/node.hpp`, `node.cpp`) that has to do with properties: a node
registers properties and resolvers, resolves what is dirty (`resolve_props`), marks everything as
clean (`clean_props`), and takes the edge properties its neighbours forward to it
(`forward_edge_property`), where one that it does not know is injected together with resolvers
that pass it on (`inject_edge_property`).

## Resolvers

A resolver is any function of the block.  What it does to the node is a list of operations
(`PropOp`), which depends on the state of the block and on what the properties of the node are when
it is called.  A write that is refused throws, and ends it.

## Walking the properties

`_props` is an unordered map from source types to lists in the order of registration.  In which
order the types come when it is walked is not specified, and is a parameter of the node
(`TypeOrder`).
-/

namespace UhdHost
namespace Rfnoc

open Stateful

/-- `node_t::forwarding_policy_t` -/
inductive ForwardingPolicy where
  | oneToOne
  | oneToFan
  | oneToAllIn
  | oneToAllOut
  | oneToAll
  | drop
  | useMap
  deriving DecidableEq, Repr

/-- The order in which the source types of an unordered map are walked. -/
structure TypeOrder where
  types : List SourceType
  nodup : types.Nodup
  complete : ∀ t, t ∈ types

namespace TypeOrder

instance : Inhabited TypeOrder where
  default :=
    { types := [.framework, .user, .inputEdge, .outputEdge]
      nodup := by decide
      complete := by intro t; cases t <;> decide }

end TypeOrder

/-- What can be seen of the properties of a node. -/
abbrev PropView (T V : Type) := PropKey → Option (Property T V)

/-- What a resolver does to its node. -/
inductive PropOp (V σ : Type) where
  | set (key : PropKey) (value : V)
  | forceDirty (key : PropKey)
  /-- `prop_accessor_t::forward<false>` -/
  | forward (source dst : PropKey)
  /-- The members of the block change. -/
  | store (state : σ)
  | throw (error : UhdError)

/-- `property_resolver_t` -/
structure Resolver (T V σ : Type) where
  inputs : List PropKey
  outputs : List PropKey
  ops : σ → PropView T V → List (PropOp V σ)

/-- `node_t`, the members that properties are about. -/
structure Node (T V σ : Type) where
  /-- `get_unique_id` -/
  uniqueId : String
  numInputPorts : ℕ
  numOutputPorts : ℕ
  /-- `_props`, in the order of registration -/
  props : List (Property T V)
  typeOrder : TypeOrder := default
  /-- `_clean_cb_registry` -/
  cleanCbRegistry : PropKey → Option (σ → PropView T V → Except UhdError σ) := fun _ => none
  /-- `_prop_resolvers` -/
  propResolvers : List (Resolver T V σ) := []
  /-- `_prop_fwd_policies`, but for the default -/
  propFwdPolicies : PropId → Option ForwardingPolicy := fun _ => none
  /-- `_prop_fwd_policies.at("")` -/
  defaultFwdPolicy : ForwardingPolicy := .oneToOne
  /-- `_prop_fwd_map` -/
  propFwdMap : ResSourceInfo → Option (List ResSourceInfo) := fun _ => none
  /-- The members of the block. -/
  blockState : σ

/-- What a node does. -/
abbrev NodeM (T V σ : Type) := EStateM UhdError (Node T V σ)

namespace Node

variable {T V σ : Type}

/-! ## Looking at properties -/

/-- `_props`, as it is walked -/
def allProps (n : Node T V σ) : List (Property T V) :=
  n.typeOrder.types.flatMap fun t => n.props.filter fun p => p.srcInfo.type = t

/-- `filter_props` -/
def filterProps (n : Node T V σ) (predicate : Property T V → Bool) : List (Property T V) :=
  n.allProps.filter predicate

/-- `_find_property` -/
def findProperty (n : Node T V σ) (key : PropKey) : Option (Property T V) :=
  n.props.find? fun p => p.key = key

/-- `_has_port` -/
def hasPort (n : Node T V σ) (port : ResSourceInfo) : Bool :=
  match port.type with
  | .inputEdge => port.inst < n.numInputPorts
  | .outputEdge => port.inst < n.numOutputPorts
  | .user | .framework => false

/-- The number of ports on this side. -/
def numPorts (n : Node T V σ) (type : SourceType) : ℕ :=
  if type = .inputEdge then n.numInputPorts else n.numOutputPorts

/-- The policy for a property, the default where it has none of its own. -/
def fwdPolicy (n : Node T V σ) (id : PropId) : ForwardingPolicy :=
  (n.propFwdPolicies id).getD n.defaultFwdPolicy

/-- Change the property that is known by this key. -/
def modifyProp (n : Node T V σ) (key : PropKey) (f : Property T V → Property T V) : Node T V σ :=
  { n with props := n.props.map fun p => if p.key = key then f p else p }

/-- Change what is seen by a key, where the change may be refused. -/
def writeProp (key : PropKey) (f : Property T V → Except UhdError (Property T V)) :
    NodeM T V σ Unit := do
  match (← get).findProperty key with
  | none => pure ()
  | some p =>
    let p' ← orThrow (f p)
    modify fun n => n.modifyProp key fun _ => p'

/-! ## Registering -/

/-- `register_property` -/
def registerProperty (prop : Property T V)
    (cleanCallback : Option (σ → PropView T V → Except UhdError σ) := none) :
    NodeM T V σ Unit := do
  let node ← get
  if (node.findProperty prop.key).isSome then
    throw (.runtimeError ("Attempting to double-register property: " ++ prop.id.name ++ "["
      ++ prop.srcInfo.toString ++ "]"))
  else
    set { node with
      props := node.props ++ [prop.setAccess .rw]
      cleanCbRegistry := fun key =>
        if key = prop.key ∧ cleanCallback.isSome then cleanCallback
        else node.cleanCbRegistry key }

/-- `add_property_resolver` -/
def addPropertyResolver (resolver : Resolver T V σ) : NodeM T V σ Unit := do
  let node ← get
  match resolver.inputs.find? fun key => (node.findProperty key).isNone with
  | some key =>
    throw (.runtimeError ("Cannot add property resolver, input property " ++ key.id.name
      ++ " is not registered!"))
  | none =>
    match resolver.outputs.find? fun key => (node.findProperty key).isNone with
    | some key =>
      throw (.runtimeError ("Cannot add property resolver, output property " ++ key.id.name
        ++ " is not registered!"))
    | none => set { node with propResolvers := node.propResolvers ++ [resolver] }

/-- `_set_property`, up to the resolution it triggers -/
def setProperty [DecidableEq V] (key : PropKey) (value : V) : NodeM T V σ Unit := do
  let node ← get
  match node.findProperty key with
  | none =>
    throw (.lookupError ("[" ++ node.uniqueId ++ "] Unknown property: `" ++ key.id.name ++ "'"))
  | some p =>
    let written ← orThrow ((p.setAccess .rw).set value)
    set (node.modifyProp key fun _ => written.setAccess .ro)

/-! ## Injecting properties -/

/-- A resolver that forwards the value of one property to another. -/
def forwardResolver (newProp dst : PropKey) : Resolver T V σ where
  inputs := [newProp]
  outputs := [dst]
  ops _ _ := [.forward newProp dst]

/-- The dynamic resolver for all ports of a side.  It declares no outputs. -/
def forwardAllResolver (newProp : PropKey) (type : SourceType) (numPorts : ℕ) :
    Resolver T V σ where
  inputs := [newProp]
  outputs := []
  ops _ view :=
    ((List.range numPorts).filter fun i => i ≠ newProp.srcInfo.inst).filterMap fun i =>
      if (view ⟨⟨type, i⟩, newProp.id⟩).isSome then some (.forward newProp ⟨⟨type, i⟩, newProp.id⟩)
      else none

/-- A property is injected at another port, and a resolver added that forwards to it. -/
def injectAndForward (inject : Property T V → ResSourceInfo → NodeM T V σ PropKey)
    (newProp : Property T V) (info : ResSourceInfo) : NodeM T V σ Unit := do
  let otherProp ← inject newProp info
  addPropertyResolver (forwardResolver newProp.key otherProp)

/-- A property is injected at all other ports of a side, and a resolver added for them.  For the
output ports too, the resolver goes through the numbers of the input ports. -/
def injectAll (inject : Property T V → ResSourceInfo → NodeM T V σ PropKey)
    (newProp : Property T V) (type : SourceType) : NodeM T V σ Unit := do
  forM (List.range ((← get).numPorts type)) fun otherPortIdx =>
    onlyIf (¬ (newProp.srcInfo.type = type ∧ otherPortIdx = newProp.srcInfo.inst)) do
      let _ ← inject newProp ⟨type, otherPortIdx⟩
  addPropertyResolver (forwardAllResolver newProp.key type (← get).numInputPorts)

/-- The properties and the resolvers that the forwarding policy asks for once a property was
injected.  `inject` injects a property at another port. -/
def injectPolicy (inject : Property T V → ResSourceInfo → NodeM T V σ PropKey)
    (newProp : Property T V) : NodeM T V σ Unit := do
  let node ← get
  let fwdPolicy := node.fwdPolicy newProp.id
  let portType := newProp.srcInfo.type
  onlyIf (portType.isEdge = false) (throw (.assertionError
    ("port_type == res_source_info::INPUT_EDGE || port_type == res_source_info::OUTPUT_EDGE")))
  onlyIf (fwdPolicy = .oneToOne) do
    let oppositePortType ← orThrow (ResSourceInfo.invertEdge portType)
    onlyIf (node.hasPort ⟨oppositePortType, newProp.srcInfo.inst⟩)
      (injectAndForward inject newProp ⟨oppositePortType, newProp.srcInfo.inst⟩)
  onlyIf (fwdPolicy = .oneToFan) do
    let oppositePortType ← orThrow (ResSourceInfo.invertEdge portType)
    forM (List.range (node.numPorts oppositePortType)) fun i =>
      injectAndForward inject newProp ⟨oppositePortType, i⟩
  onlyIf (fwdPolicy = .oneToAll ∨ fwdPolicy = .oneToAllIn) (injectAll inject newProp .inputEdge)
  onlyIf (fwdPolicy = .oneToAll ∨ fwdPolicy = .oneToAllOut) (injectAll inject newProp .outputEdge)
  onlyIf (fwdPolicy = .useMap) do
    forM ((node.propFwdMap newProp.srcInfo).getD []) fun dst => do
      onlyIf (node.hasPort dst = false) (throw (.rfnocError
        ("Destination port " ++ dst.toString ++ " in prop map does not exist")))
      injectAndForward inject newProp dst

/-- `inject_edge_property`, down to a depth.  A property is injected once for each port at
most, so that the number of ports bounds the depth. -/
def injectEdgeProperty : ℕ → Property T V → ResSourceInfo → NodeM T V σ PropKey
  | 0, _, _ => throw (.runtimeError "nested too deeply")
  | depth + 1, blueprint, newSrcInfo => do
    match (← get).findProperty ⟨newSrcInfo, blueprint.id⟩ with
    | some prop => pure prop.key
    | none =>
      let newProp ← orThrow (blueprint.clone newSrcInfo)
      registerProperty newProp
      injectPolicy (injectEdgeProperty depth) newProp
      pure newProp.key

/-- The depth that is enough: the ports of the node, and one that it does not have. -/
def injectDepth (n : Node T V σ) : ℕ := n.numInputPorts + n.numOutputPorts + 2

/-! ## Resolving -/

section Resolving

variable [DecidableEq T] [DecidableEq V]

/-- One operation of a resolver. -/
def runOp : PropOp V σ → NodeM T V σ Unit
  | .set key value => writeProp key fun p => p.set value
  | .forceDirty key => writeProp key fun p => p.forceDirty
  | .forward source dst => do
    match (← get).findProperty source with
    | none => pure ()
    | some p => writeProp dst fun q => p.forward q
  | .store state => modify fun n => { n with blockState := state }
  | .throw error => throw error

/-- Call a resolver. -/
def runResolver (resolver : Resolver T V σ) : NodeM T V σ Unit := do
  let node ← get
  forM (resolver.ops node.blockState node.findProperty) runOp

/-- `get_scoped_prop_access` for all outputs of a resolver: the access modes are as given while
`body` runs, and read-only once it ended, in whichever way. -/
def withOutputAccess {α : Type} (outputs : List PropKey) (access : PropKey → AccessMode)
    (body : NodeM T V σ α) : NodeM T V σ α := fun node =>
  let release := fun n : Node T V σ =>
    outputs.foldl (fun n key => n.modifyProp key fun p => p.setAccess .ro) n
  match body (outputs.foldl (fun n key => n.modifyProp key fun p => p.setAccess (access key)) node)
    with
  | .ok a n => .ok a (release n)
  | .error e n => .error e (release n)

/-- The resolvers that take `currentInputProp` as an input, in turn.  Yields the properties to add
to the list of dirty ones and what has been written. -/
def runResolversOf (currentInputProp : PropKey) (processedProps : List PropKey) :
    List (Resolver T V σ) → List PropKey → NodeM T V σ (List PropKey × List PropKey)
  | [], writtenProps => pure ([], writtenProps)
  | resolver :: resolvers, writtenProps => do
    if currentInputProp ∉ resolver.inputs then
      runResolversOf currentInputProp processedProps resolvers writtenProps
    else
      let added ← withOutputAccess resolver.outputs
        (fun key => if key ∈ writtenProps then .rwlocked else .rw) do
          runResolver resolver
          let node ← get
          pure (resolver.outputs.filter fun key =>
            (node.findProperty key).any (·.isDirty) && !decide (key ∈ processedProps))
      let (more, writtenProps) ← runResolversOf currentInputProp processedProps resolvers
        (writtenProps ++ resolver.outputs)
      pure (added ++ more, writtenProps)

/-- The loop of `resolve_props` over the list of dirty properties, which grows while it runs. -/
def resolveLoop : ℕ → List PropKey → List PropKey → List PropKey → NodeM T V σ Unit
  | _, [], _, _ => pure ()
  | 0, _ :: _, _, _ => throw (.runtimeError "the list of dirty properties does not end")
  | fuel + 1, currentInputProp :: allDirtyProps, processedProps, writtenProps => do
    if currentInputProp ∈ processedProps then
      resolveLoop fuel allDirtyProps processedProps writtenProps
    else
      let (added, writtenProps) ←
        runResolversOf currentInputProp processedProps (← get).propResolvers writtenProps
      resolveLoop fuel (allDirtyProps ++ added) (processedProps ++ [currentInputProp]) writtenProps

/-- How long the list can get: a resolver adds its outputs at most once for each of its inputs. -/
def resolveFuel (n : Node T V σ) : ℕ :=
  n.allProps.length
    + (n.propResolvers.map fun r => r.inputs.length * r.outputs.length).sum

/-- `resolve_props` -/
def resolveProps : NodeM T V σ Unit := do
  let node ← get
  resolveLoop node.resolveFuel ((node.filterProps (·.isDirty)).map (·.key)) [] []

end Resolving

/-- The clean callback of a property is called. -/
def runCleanCallback (key : PropKey) : NodeM T V σ Unit := do
  let node ← get
  match node.cleanCbRegistry key with
  | none => pure ()
  | some cleanCallback =>
    let state ← orThrow (cleanCallback node.blockState node.findProperty)
    modify fun n => { n with blockState := state }

/-- `clean_props` -/
def cleanProps : NodeM T V σ Unit := do
  forM ((← get).allProps.map (·.key)) fun key => do
    let node ← get
    onlyIf ((node.findProperty key).any fun prop => prop.valid && prop.isDirty)
      (runCleanCallback key)
    modify fun n => n.modifyProp key fun p => p.markClean.setAccess .ro

/-- `forward_edge_property` -/
def forwardEdgeProperty [DecidableEq T] [DecidableEq V] (incomingProp : Property T V)
    (incomingPort : ℕ) : NodeM T V σ Unit := do
  if incomingProp.srcInfo.type.isEdge = false then
    throw (.assertionError ("incoming_prop->get_src_info().type == res_source_info::INPUT_EDGE "
      ++ "|| incoming_prop->get_src_info().type == res_source_info::OUTPUT_EDGE"))
  else if incomingProp.valid = false then pure ()
  else
    let propSrcType ← orThrow (ResSourceInfo.invertEdge incomingProp.srcInfo.type)
    let localKey : PropKey := ⟨⟨propSrcType, incomingPort⟩, incomingProp.id⟩
    let node ← get
    match node.filterProps fun p => p.key = localKey with
    | [] =>
      let injected ← injectEdgeProperty node.injectDepth incomingProp localKey.srcInfo
      writeProp injected fun p => incomingProp.forward p
    | [localProp] => writeProp localProp.key fun p => incomingProp.forward p
    | _ :: _ :: _ => throw (.assertionError "local_prop_list.size() == 1")

/-! ## Finding properties after a change -/

theorem key_of_findProperty {n : Node T V σ} {key : PropKey} {p : Property T V}
    (h : n.findProperty key = some p) : p.key = key := by
  simpa using List.find?_some h

theorem findProperty_modifyProp {n : Node T V σ} {k : PropKey} {f : Property T V → Property T V}
    (hf : ∀ p, p.key = k → (f p).key = k) (key : PropKey) :
    (n.modifyProp k f).findProperty key =
      if key = k then (n.findProperty key).map f else n.findProperty key := by
  have hkey : ∀ p : Property T V, (if p.key = k then f p else p).key = p.key := by
    intro p
    split_ifs with hp
    · rw [hf p hp, hp]
    · rfl
  have hfind : (n.modifyProp k f).findProperty key =
      (n.findProperty key).map fun p => if p.key = k then f p else p := by
    unfold findProperty modifyProp
    rw [List.find?_map]
    refine congrArg (Option.map _) (congrArg (fun q => List.find? q n.props) ?_)
    funext p
    rw [Function.comp_apply, hkey p]
  rw [hfind]
  cases hp : n.findProperty key with
  | none => split_ifs <;> rfl
  | some p =>
    rw [Option.map_some, Option.map_some, key_of_findProperty hp]
    split_ifs <;> rfl

theorem findProperty_concat (n : Node T V σ) (p : Property T V) (key : PropKey) :
    ({ n with props := n.props ++ [p] } : Node T V σ).findProperty key =
      (n.findProperty key).or (if p.key = key then some p else none) := by
  unfold findProperty
  rw [List.find?_append, List.find?_singleton]
  simp only [decide_eq_true_eq]

theorem returns_writeProp {k : PropKey} {f : Property T V → Except UhdError (Property T V)}
    {n n' : Node T V σ} {u : Unit} (h : Returns (writeProp k f) n u n') :
    n.findProperty k = none ∧ n' = n ∨
      ∃ p p', n.findProperty k = some p ∧ f p = .ok p' ∧ n' = n.modifyProp k fun _ => p' := by
  unfold writeProp at h
  obtain ⟨_, _, hget, h⟩ := returns_bind.mp h
  obtain ⟨rfl, rfl⟩ := returns_get.mp hget
  cases hp : n.findProperty k with
  | none =>
    simp only [hp] at h
    exact Or.inl ⟨rfl, (returns_pure.mp h).2.symm⟩
  | some p =>
    simp only [hp] at h
    obtain ⟨p', _, horThrow, h⟩ := returns_bind.mp h
    obtain ⟨hfp, rfl⟩ := returns_orThrow.mp horThrow
    exact Or.inr ⟨p, p', rfl, hfp, (returns_modify.mp h).symm⟩

/-! ## What the operations leave of every property -/

section Keeps

variable {β : Type}

/-- What `f` sees of the properties of the node is as it was; in particular the node has the
same properties. -/
def Keeps (f : Property T V → β) (n n' : Node T V σ) : Prop :=
  ∀ key, (n'.findProperty key).map f = (n.findProperty key).map f

variable {f : Property T V → β}

theorem Keeps.refl (n : Node T V σ) : Keeps f n n := fun _ => rfl

theorem Keeps.trans (n m k : Node T V σ) (hnm : Keeps f n m) (hmk : Keeps f m k) : Keeps f n k :=
  fun key => (hmk key).trans (hnm key)

theorem Keeps.modifyProp (n : Node T V σ) {k : PropKey} {g : Property T V → Property T V}
    (hkey : ∀ p, p.key = k → (g p).key = k)
    (hg : ∀ p, n.findProperty k = some p → f (g p) = f p) : Keeps f n (n.modifyProp k g) := by
  intro key
  rw [findProperty_modifyProp hkey]
  split_ifs with hk
  · subst hk
    cases hp : n.findProperty key with
    | none => rfl
    | some p => exact congrArg some (hg p hp)
  · rfl

theorem within_keeps_writeProp {k : PropKey} {g : Property T V → Except UhdError (Property T V)}
    (hg : ∀ p p', g p = .ok p' → p'.key = p.key ∧ f p' = f p) :
    Within (Keeps f) (writeProp k g : NodeM T V σ Unit) := by
  intro n u n' h
  rcases returns_writeProp h with ⟨-, rfl⟩ | ⟨p, p', hp, hgp, rfl⟩
  · exact Keeps.refl n'
  · refine Keeps.modifyProp n (fun _ _ => ?_) (fun q hq => ?_)
    · rw [(hg p p' hgp).1, key_of_findProperty hp]
    · rw [hp, Option.some_inj] at hq
      rw [(hg p p' hgp).2, hq]

end Keeps

/-! ## Resolving keeps the properties that there are -/

section Resolving

/-- The node has the properties it had, whatever became of them. -/
abbrev SameKeys : Node T V σ → Node T V σ → Prop := Keeps fun _ => ()

theorem sameKeys_setAccess (access : PropKey → AccessMode) (keys : List PropKey)
    (n : Node T V σ) :
    SameKeys n (keys.foldl (fun n key => n.modifyProp key fun p => p.setAccess (access key)) n) := by
  induction keys generalizing n with
  | nil => exact Keeps.refl n
  | cons k keys ih =>
    rw [List.foldl_cons]
    have hfirst : SameKeys n (n.modifyProp k fun p => p.setAccess (access k)) :=
      Keeps.modifyProp n (fun _ hp => hp) fun _ _ => rfl
    exact Keeps.trans _ _ _ hfirst (ih _)

theorem within_withOutputAccess {α : Type} {outputs : List PropKey} {access : PropKey → AccessMode}
    {body : NodeM T V σ α} (hbody : Within SameKeys body) :
    Within SameKeys (withOutputAccess outputs access body) := by
  intro n a n' h
  unfold Returns withOutputAccess at h
  dsimp only at h
  split at h
  · rename_i b m hb
    injection h with _ hn
    rw [← hn]
    exact Keeps.trans _ _ _ (sameKeys_setAccess access outputs n) (Keeps.trans _ _ _
      (hbody _ _ _ hb) (sameKeys_setAccess (fun _ => .ro) outputs m))
  · exact absurd h (by simp)

variable [DecidableEq T] [DecidableEq V]

theorem within_runOp (op : PropOp V σ) : Within SameKeys (runOp op : NodeM T V σ Unit) := by
  cases op with
  | set key value => exact within_keeps_writeProp fun p p' h => ⟨Property.key_set h, rfl⟩
  | forceDirty key => exact within_keeps_writeProp fun p p' h => ⟨Property.key_forceDirty h, rfl⟩
  | forward source dst =>
    refine within_bind Keeps.trans (within_get Keeps.refl) fun n => ?_
    cases n.findProperty source with
    | none => exact within_pure Keeps.refl ()
    | some p =>
      refine within_keeps_writeProp fun q q' h => ⟨?_, rfl⟩
      rw [(Property.forward_eq_ok h).2.2, Property.key_assign]
  | store state => exact within_modify fun n => Keeps.refl n
  | throw error => exact within_throw _ error

theorem within_runResolver (resolver : Resolver T V σ) :
    Within SameKeys (runResolver resolver) :=
  within_bind Keeps.trans (within_get Keeps.refl) fun _ =>
    within_forM Keeps.refl Keeps.trans _ fun op _ => within_runOp op

theorem within_runResolversOf (currentInputProp : PropKey) (processedProps : List PropKey)
    (resolvers : List (Resolver T V σ)) (writtenProps : List PropKey) :
    Within SameKeys (runResolversOf currentInputProp processedProps resolvers writtenProps) := by
  induction resolvers generalizing writtenProps with
  | nil => exact within_pure Keeps.refl _
  | cons resolver resolvers ih =>
    unfold runResolversOf
    split_ifs
    · refine within_bind Keeps.trans (within_withOutputAccess ?_) fun added => ?_
      · exact within_bind Keeps.trans (within_runResolver resolver) fun _ =>
          within_bind Keeps.trans (within_get Keeps.refl) fun _ => within_pure Keeps.refl _
      · exact within_bind Keeps.trans (ih _) fun _ => within_pure Keeps.refl _
    · exact ih writtenProps

theorem within_resolveLoop (fuel : ℕ) (allDirtyProps processedProps writtenProps : List PropKey) :
    Within SameKeys (resolveLoop fuel allDirtyProps processedProps writtenProps :
      NodeM T V σ Unit) := by
  induction fuel generalizing allDirtyProps processedProps writtenProps with
  | zero =>
    cases allDirtyProps with
    | nil => exact within_pure Keeps.refl ()
    | cons k ks => exact within_throw _ _
  | succ fuel ih =>
    cases allDirtyProps with
    | nil => exact within_pure Keeps.refl ()
    | cons k ks =>
      unfold resolveLoop
      split_ifs
      · exact ih _ _ _
      · refine within_bind Keeps.trans (within_get Keeps.refl) fun n => ?_
        exact within_bind Keeps.trans (within_runResolversOf _ _ _ _) fun _ => ih _ _ _

theorem within_resolveProps : Within SameKeys (resolveProps : NodeM T V σ Unit) :=
  within_bind Keeps.trans (within_get Keeps.refl) fun _ => within_resolveLoop _ _ _ _

end Resolving

/-! ## Cleaning keeps the values -/

/-- What cleaning leaves alone. -/
abbrev SameValues : Node T V σ → Node T V σ → Prop := Keeps fun p => (p.valid, p.value)

theorem within_runCleanCallback (key : PropKey) :
    Within SameValues (runCleanCallback key : NodeM T V σ Unit) := by
  refine within_bind Keeps.trans (within_get Keeps.refl) fun n => ?_
  cases n.cleanCbRegistry key with
  | none => exact within_pure Keeps.refl ()
  | some cleanCallback =>
    exact within_bind Keeps.trans (within_orThrow Keeps.refl _) fun _ =>
      within_modify fun m => Keeps.refl m

theorem within_cleanProps : Within SameValues (cleanProps : NodeM T V σ Unit) := by
  refine within_bind Keeps.trans (within_get Keeps.refl) fun _ => ?_
  refine within_forM Keeps.refl Keeps.trans _ fun key _ => ?_
  refine within_bind Keeps.trans (within_get Keeps.refl) fun n => ?_
  refine within_bind Keeps.trans
    (within_onlyIf Keeps.refl fun _ => within_runCleanCallback key) fun _ => ?_
  exact within_modify fun m => Keeps.modifyProp m (fun _ hp => hp) fun _ _ => rfl

/-! ## Injecting adds dirty properties -/

/-- The property that is known by this key is as it was, or is new and dirty. -/
def SameOrNew (n n' : Node T V σ) (key : PropKey) : Prop :=
  n'.findProperty key = n.findProperty key ∨
    n.findProperty key = none ∧ ∃ p, n'.findProperty key = some p ∧ p.isDirty = true

/-- The node has what it had, and maybe more. -/
def Extends (n n' : Node T V σ) : Prop := ∀ key, SameOrNew n n' key

theorem Extends.refl (n : Node T V σ) : Extends n n := fun _ => Or.inl rfl

theorem SameOrNew.trans {n m k : Node T V σ} {key : PropKey} (hnm : SameOrNew n m key)
    (hmk : SameOrNew m k key) : SameOrNew n k key := by
  rcases hnm with hnm | ⟨hn, p, hm, hp⟩
  · unfold SameOrNew
    rw [← hnm]
    exact hmk
  · rcases hmk with hmk | ⟨hnone, -⟩
    · exact Or.inr ⟨hn, p, by rw [hmk, hm], hp⟩
    · rw [hm] at hnone
      exact absurd hnone (by simp)

theorem Extends.trans (n m k : Node T V σ) (hnm : Extends n m) (hmk : Extends m k) :
    Extends n k := fun key => (hnm key).trans (hmk key)

theorem returns_registerProperty {prop : Property T V}
    {cleanCallback : Option (σ → PropView T V → Except UhdError σ)} {n n' : Node T V σ} {u : Unit}
    (h : Returns (registerProperty prop cleanCallback) n u n') :
    n.findProperty prop.key = none ∧ ∀ key, n'.findProperty key =
      (n.findProperty key).or (if prop.key = key then some (prop.setAccess .rw) else none) := by
  unfold registerProperty at h
  obtain ⟨_, _, hget, h⟩ := returns_bind.mp h
  obtain ⟨rfl, rfl⟩ := returns_get.mp hget
  split_ifs at h with hfound
  · exact (not_returns_throw h).elim
  · refine ⟨by simpa using hfound, fun key => ?_⟩
    rw [← returns_set.mp h]
    exact findProperty_concat n (prop.setAccess .rw) key

theorem within_registerProperty {prop : Property T V} (hdirty : prop.dirty = true)
    (cleanCallback : Option (σ → PropView T V → Except UhdError σ)) :
    Within Extends (registerProperty prop cleanCallback) := by
  intro n u n' h key
  obtain ⟨hnone, hfind⟩ := returns_registerProperty h
  by_cases hkey : prop.key = key
  · subst hkey
    refine Or.inr ⟨hnone, prop.setAccess .rw, ?_, ?_⟩
    · rw [hfind, hnone, if_pos rfl]
      rfl
    · simp [Property.isDirty, Property.setAccess, hdirty]
  · refine Or.inl ?_
    rw [hfind, if_neg hkey, Option.or_none]

theorem within_addPropertyResolver (resolver : Resolver T V σ) :
    Within Extends (addPropertyResolver resolver) := by
  refine fun n u n' h => ?_
  unfold addPropertyResolver at h
  obtain ⟨_, _, hget, h⟩ := returns_bind.mp h
  obtain ⟨rfl, rfl⟩ := returns_get.mp hget
  split at h
  · exact (not_returns_throw h).elim
  · split at h
    · exact (not_returns_throw h).elim
    · rw [← returns_set.mp h]
      exact Extends.refl _

section Injecting

variable {inject : Property T V → ResSourceInfo → NodeM T V σ PropKey}
  (hinject : ∀ p info, Within Extends (inject p info))

include hinject

theorem within_injectAndForward (newProp : Property T V) (info : ResSourceInfo) :
    Within Extends (injectAndForward inject newProp info) :=
  within_bind Extends.trans (hinject newProp info) fun _ => within_addPropertyResolver _

theorem within_injectAll (newProp : Property T V) (type : SourceType) :
    Within Extends (injectAll inject newProp type) := by
  refine within_bind Extends.trans (within_get Extends.refl) fun n => ?_
  refine within_bind Extends.trans
    (within_forM Extends.refl Extends.trans _ fun i _ => within_onlyIf Extends.refl fun _ => ?_)
    fun _ => within_bind Extends.trans (within_get Extends.refl) fun _ =>
      within_addPropertyResolver _
  exact within_bind Extends.trans (hinject newProp _) fun _ => within_pure Extends.refl _

theorem within_injectPolicy (newProp : Property T V) :
    Within Extends (injectPolicy inject newProp) := by
  refine within_bind Extends.trans (within_get Extends.refl) fun n => ?_
  refine within_bind Extends.trans
    (within_onlyIf Extends.refl fun _ => within_throw _ _) fun _ => ?_
  refine within_bind Extends.trans (within_onlyIf Extends.refl fun _ => ?_) fun _ => ?_
  · exact within_bind Extends.trans (within_orThrow Extends.refl _) fun _ =>
      within_onlyIf Extends.refl fun _ => within_injectAndForward hinject newProp _
  refine within_bind Extends.trans (within_onlyIf Extends.refl fun _ => ?_) fun _ => ?_
  · exact within_bind Extends.trans (within_orThrow Extends.refl _) fun _ =>
      within_forM Extends.refl Extends.trans _ fun i _ => within_injectAndForward hinject newProp _
  refine within_bind Extends.trans
    (within_onlyIf Extends.refl fun _ => within_injectAll hinject newProp _) fun _ => ?_
  refine within_bind Extends.trans
    (within_onlyIf Extends.refl fun _ => within_injectAll hinject newProp _) fun _ => ?_
  refine within_onlyIf Extends.refl fun _ => within_forM Extends.refl Extends.trans _ fun dst _ => ?_
  exact within_bind Extends.trans (within_onlyIf Extends.refl fun _ => within_throw _ _) fun _ =>
    within_injectAndForward hinject newProp dst

end Injecting

theorem within_injectEdgeProperty (depth : ℕ) (blueprint : Property T V) (info : ResSourceInfo) :
    Within Extends (injectEdgeProperty depth blueprint info : NodeM T V σ PropKey) := by
  induction depth generalizing blueprint info with
  | zero => exact within_throw _ _
  | succ depth ih =>
    unfold injectEdgeProperty
    refine within_bind Extends.trans (within_get Extends.refl) fun n => ?_
    cases n.findProperty ⟨info, blueprint.id⟩ with
    | some prop => exact within_pure Extends.refl _
    | none =>
      intro m k m' h
      obtain ⟨newProp, _, horThrow, h⟩ := returns_bind.mp h
      obtain ⟨hclone, rfl⟩ := returns_orThrow.mp horThrow
      have hdirty : newProp.dirty = true := by rw [(Property.clone_eq_ok hclone).2]
      refine within_bind Extends.trans (within_registerProperty hdirty none) (fun _ => ?_) m k m' h
      exact within_bind Extends.trans (within_injectPolicy ih newProp) fun _ =>
        within_pure Extends.refl _

theorem returns_injectEdgeProperty {depth : ℕ} {blueprint : Property T V} {info : ResSourceInfo}
    {n n' : Node T V σ} {key : PropKey}
    (h : Returns (injectEdgeProperty depth blueprint info) n key n')
    (hnone : n.findProperty ⟨info, blueprint.id⟩ = none) :
    key = ⟨info, blueprint.id⟩ ∧ ∃ p, n'.findProperty key = some p ∧ p.valid = true ∧
      p.value = blueprint.value ∧ p.isDirty = true := by
  cases depth with
  | zero => exact (not_returns_throw h).elim
  | succ depth =>
    unfold injectEdgeProperty at h
    obtain ⟨_, _, hget, h⟩ := returns_bind.mp h
    obtain ⟨rfl, rfl⟩ := returns_get.mp hget
    simp only [hnone] at h
    obtain ⟨newProp, _, horThrow, h⟩ := returns_bind.mp h
    obtain ⟨hclone, rfl⟩ := returns_orThrow.mp horThrow
    obtain ⟨-, hnewProp⟩ := Property.clone_eq_ok hclone
    have hkey : newProp.key = ⟨info, blueprint.id⟩ := by
      rw [hnewProp]
      rfl
    obtain ⟨_, m, hregister, h⟩ := returns_bind.mp h
    obtain ⟨_, m', hpolicy, h⟩ := returns_bind.mp h
    obtain ⟨rfl, rfl⟩ := returns_pure.mp h
    obtain ⟨-, hfind⟩ := returns_registerProperty hregister
    have hnew : m.findProperty newProp.key = some (newProp.setAccess .rw) := by
      rw [hfind, if_pos rfl, hkey, hnone, Option.none_or]
    refine ⟨hkey, newProp.setAccess .rw, ?_, ?_⟩
    · rcases within_injectPolicy (within_injectEdgeProperty depth) _ _ _ _ hpolicy
        newProp.key with hsame | ⟨hnone', -⟩
      · exact hsame.trans hnew
      · exact absurd (hnew.symm.trans hnone') (by simp)
    · rw [hnewProp]
      exact ⟨rfl, rfl, rfl⟩

/-! ## Taking a forwarded property -/

theorem mem_allProps {n : Node T V σ} {p : Property T V} : p ∈ n.allProps ↔ p ∈ n.props := by
  unfold allProps
  rw [List.mem_flatMap]
  constructor
  · rintro ⟨t, -, hp⟩
    exact (List.mem_filter.mp hp).1
  · intro hp
    exact ⟨p.srcInfo.type, n.typeOrder.complete _, List.mem_filter.mpr ⟨hp, by simp⟩⟩

theorem mem_filterProps {n : Node T V σ} {predicate : Property T V → Bool} {p : Property T V} :
    p ∈ n.filterProps predicate ↔ p ∈ n.props ∧ predicate p = true := by
  unfold filterProps
  rw [List.mem_filter, mem_allProps]

section Forwarding

variable [DecidableEq T] [DecidableEq V]

theorem returns_forwardTo {incomingProp dst : Property T V} {key : PropKey} {n n' : Node T V σ}
    {u : Unit} (hdst : n.findProperty key = some dst)
    (h : Returns (writeProp key fun p => incomingProp.forward p) n u n') :
    n'.findProperty key = some (dst.assign incomingProp.value) ∧
      ∀ k, k ≠ key → n'.findProperty k = n.findProperty k := by
  rcases returns_writeProp h with ⟨hnone, -⟩ | ⟨p, p', hp, hforward, rfl⟩
  · rw [hdst] at hnone
    exact absurd hnone (by simp)
  · rw [hdst, Option.some_inj] at hp
    subst hp
    obtain ⟨-, -, rfl⟩ := Property.forward_eq_ok hforward
    have hkey : ∀ p : Property T V, p.key = key → (dst.assign incomingProp.value).key = key := by
      intro _ _
      rw [Property.key_assign]
      exact key_of_findProperty hdst
    constructor
    · rw [findProperty_modifyProp hkey, if_pos rfl, hdst]
      rfl
    · intro k hk
      rw [findProperty_modifyProp hkey, if_neg hk]

/-- **What a forwarded property changes.**  One that is not valid changes nothing.  Else the
property at the port has its value; it is dirty if it is new; and every other property is as it
was, or is new and dirty. -/
theorem returns_forwardEdgeProperty {incomingProp : Property T V} {port : ℕ} {n n' : Node T V σ}
    {u : Unit} (h : Returns (forwardEdgeProperty incomingProp port) n u n') :
    incomingProp.valid = false ∧ n' = n ∨
      incomingProp.valid = true ∧ ∃ key : PropKey, key = ⟨⟨incomingProp.srcInfo.type.inverted, port⟩, incomingProp.id⟩ ∧
        (∃ q, n'.findProperty key = some q ∧ q.valid = true ∧ q.value = incomingProp.value ∧
          (n.findProperty key = none → q.isDirty = true)) ∧
        ∀ k, k ≠ key → SameOrNew n n' k := by
  unfold forwardEdgeProperty at h
  split_ifs at h with hedge hvalid
  · exact (not_returns_throw h).elim
  · exact Or.inl ⟨hvalid, (returns_pure.mp h).2.symm⟩
  · refine Or.inr ⟨by simpa using hvalid, _, rfl, ?_⟩
    obtain ⟨propSrcType, _, horThrow, h⟩ := returns_bind.mp h
    obtain ⟨hinvert, rfl⟩ := returns_orThrow.mp horThrow
    unfold ResSourceInfo.invertEdge at hinvert
    rw [if_pos (by simpa using hedge)] at hinvert
    injection hinvert with hinvert
    subst hinvert
    obtain ⟨_, _, hget, h⟩ := returns_bind.mp h
    obtain ⟨rfl, rfl⟩ := returns_get.mp hget
    dsimp only at h
    split at h
    · -- the property is injected
      rename_i hnil
      obtain ⟨key, m, hinject, h⟩ := returns_bind.mp h
      have hnone : n.findProperty
          ⟨⟨incomingProp.srcInfo.type.inverted, port⟩, incomingProp.id⟩ = none := by
        unfold findProperty
        rw [List.find?_eq_none]
        intro p hp hkey
        have hmem : p ∈ n.filterProps fun p =>
            p.key = ⟨⟨incomingProp.srcInfo.type.inverted, port⟩, incomingProp.id⟩ :=
          mem_filterProps.mpr ⟨hp, hkey⟩
        rw [hnil] at hmem
        exact absurd hmem List.not_mem_nil
      obtain ⟨rfl, p, hp, hvalidP, -, hdirty⟩ := returns_injectEdgeProperty hinject hnone
      obtain ⟨hfind, hother⟩ := returns_forwardTo hp h
      refine ⟨⟨_, hfind, rfl, rfl, fun _ => ?_⟩, fun k hk => ?_⟩
      · have : p.alwaysDirty = true ∨ p.dirty = true := by simpa [Property.isDirty] using hdirty
        rcases this with h | h <;> simp [Property.isDirty, Property.assign, h]
      · unfold SameOrNew
        rw [hother k hk]
        exact within_injectEdgeProperty _ _ _ _ _ _ hinject k
    · -- the node has the property
      rename_i localProp hone
      have hmem : localProp ∈ n.filterProps fun p =>
          p.key = ⟨⟨incomingProp.srcInfo.type.inverted, port⟩, incomingProp.id⟩ := by
        rw [hone]
        exact List.mem_singleton_self localProp
      obtain ⟨hprops, hkey⟩ := mem_filterProps.mp hmem
      have hkey : localProp.key =
          ⟨⟨incomingProp.srcInfo.type.inverted, port⟩, incomingProp.id⟩ := by simpa using hkey
      rw [hkey] at h
      obtain ⟨dst, hdst⟩ : ∃ dst, n.findProperty
          ⟨⟨incomingProp.srcInfo.type.inverted, port⟩, incomingProp.id⟩ = some dst := by
        rw [← Option.isSome_iff_exists]
        unfold findProperty
        rw [List.find?_isSome]
        exact ⟨localProp, hprops, by simpa using hkey⟩
      obtain ⟨hfind, hother⟩ := returns_forwardTo hdst h
      refine ⟨⟨_, hfind, rfl, rfl, fun hnone => ?_⟩, fun k hk => Or.inl (hother k hk)⟩
      rw [hdst] at hnone
      exact absurd hnone (by simp)
    · exact (not_returns_throw h).elim

end Forwarding

end Node

end Rfnoc
end UhdHost
