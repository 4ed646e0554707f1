import Mathlib
import UhdHost.Library.Stateful
import UhdHost.Library.Transition
import UhdHost.Types.Exception

/-!
# A property of the tree

`property_impl` of `property_tree.ipp`: a desired value, a coerced one, and the callbacks that are
told of them.

A property that is created with `AUTO_COERCE` has a coercer from the start, and `set` passes what is
desired through it.  One that is created with `MANUAL_COERCE` has none, and `set` only tells the
subscribers of the desired value; its coerced value is what `set_coerced` is given.  The checks of
the functions that register something make an exception and do not throw it.

* `returns_set` and `returns_setCoercedValue`: what a call leaves, and whom it told.
* `coerced_of_last_set`: the coerced value is that of the last `set`, by the coercer of that moment.
* `property_behaves`: the two, for every sequence of calls that the documentation allows.
-/

namespace UhdHost
namespace Utils
namespace PropertyImpl

open Stateful

/-- `coerce_mode_t` -/
inductive CoerceMode where
  | autoCoerce
  | manualCoerce
  deriving DecidableEq

/-- `coercer_type`.  It may read and change what is outside the property, and throw; and so may the
other callbacks. -/
abbrev Coercer (T W : Type) := T → EStateM UhdError W T

/-- `DEFAULT_COERCER` -/
def defaultCoercer {T W : Type} : Coercer T W := pure

/-- `publisher_type` -/
abbrev Publisher (T W : Type) := EStateM UhdError W T

/-- `subscriber_type`, with a name to tell one from another. -/
structure Subscriber (T W : Type) where
  name : ℕ
  call : T → EStateM UhdError W PUnit

/-- `property_impl` -/
structure Property (T W : Type) where
  coerceMode : CoerceMode
  desiredSubscribers : List (Subscriber T W) := []
  coercedSubscribers : List (Subscriber T W) := []
  publisher : Option (Publisher T W) := none
  coercer : Option (Coercer T W) := none
  value : Option T := none
  coercedValue : Option T := none

/-- A subscriber that was called with a value. -/
inductive Notification (T : Type) where
  | desired (name : ℕ) (value : T)
  | coerced (name : ℕ) (value : T)
  deriving DecidableEq

/-- A property, what is outside it, and the calls of its subscribers so far. -/
structure Session (T W : Type) where
  property : Property T W
  world : W
  log : List (Notification T) := []

variable {T W : Type}

/-- The constructor. -/
def Property.make (coerceMode : CoerceMode) : Property T W :=
  { coerceMode, coercer := if coerceMode = .autoCoerce then some defaultCoercer else none }

/-- `get_value_ref` -/
def getValueRef : Option T → Except UhdError T
  | some value => .ok value
  | none => .error (.assertionError "Cannot use uninitialized property data")

/-! ## The functions -/

/-- What a function of the property does. -/
abbrev Action (T W α : Type) := EStateM UhdError (Session T W) α

/-- Something that is done outside the property. -/
def outside {α : Type} (x : EStateM UhdError W α) : Action T W α :=
  zoom Session.world (fun world s => { s with world }) x

/-- An exception that is made, and not thrown. -/
def make (_ : UhdError) : Action T W PUnit := pure PUnit.unit

/-- Change the property. -/
def update (f : Property T W → Property T W) : Action T W PUnit :=
  modify fun s => { s with property := f s.property }

/-- Call a subscriber. -/
def callSubscriber (record : ℕ → T → Notification T) (subscriber : Subscriber T W) (value : T) :
    Action T W PUnit := do
  modify fun s => { s with log := s.log ++ [record subscriber.name value] }
  outside (subscriber.call value)

/-- Call the subscribers, each with what the field holds. -/
def callSubscribers (record : ℕ → T → Notification T) (field : Property T W → Option T)
    (subscribers : List (Subscriber T W)) : Action T W PUnit :=
  forM subscribers fun subscriber => do
    let s ← get
    let value ← orThrow (getValueRef (field s.property))
    callSubscriber record subscriber value

/-- `_set_coerced` -/
def setCoercedValue (value : T) : Action T W PUnit := do
  update fun p => { p with coercedValue := some value }
  let s ← get
  callSubscribers .coerced Property.coercedValue s.property.coercedSubscribers

/-- `set` -/
def set (value : T) : Action T W PUnit := do
  update fun p => { p with value := some value }
  let s ← get
  callSubscribers .desired Property.value s.property.desiredSubscribers
  let s ← get
  match s.property.coercer with
  | some coercer => do
    let value ← orThrow (getValueRef s.property.value)
    let coerced ← outside (coercer value)
    setCoercedValue coerced
  | none =>
    onlyIf (s.property.coerceMode = .autoCoerce)
      (make (.assertionError "coercer missing for an auto coerced property"))

/-- `set_coerced` -/
def setCoerced (value : T) : Action T W PUnit := do
  let s ← get
  onlyIf (s.property.coerceMode = .autoCoerce)
    (make (.assertionError "cannot set coerced value an auto coerced property"))
  setCoercedValue value

/-- `set_coercer` -/
def setCoercer (coercer : Coercer T W) : Action T W PUnit := do
  let s ← get
  onlyIf (s.property.coercer.isSome)
    (make (.assertionError "cannot register more than one coercer for a property"))
  onlyIf (s.property.coerceMode = .manualCoerce)
    (make (.assertionError "cannot register coercer for a manually coerced property"))
  update fun p => { p with coercer := some coercer }

/-- `set_publisher` -/
def setPublisher (publisher : Publisher T W) : Action T W PUnit := do
  let s ← get
  onlyIf (s.property.publisher.isSome)
    (make (.assertionError "cannot register more than one publisher for a property"))
  update fun p => { p with publisher := some publisher }

/-- `add_desired_subscriber` -/
def addDesiredSubscriber (subscriber : Subscriber T W) : Action T W PUnit :=
  update fun p => { p with desiredSubscribers := p.desiredSubscribers ++ [subscriber] }

/-- `add_coerced_subscriber` -/
def addCoercedSubscriber (subscriber : Subscriber T W) : Action T W PUnit :=
  update fun p => { p with coercedSubscribers := p.coercedSubscribers ++ [subscriber] }

/-! ## Runs -/

/-- A call of a function of the property. -/
inductive Call (T W : Type) where
  | set (value : T)
  | setCoerced (value : T)
  | setCoercer (coercer : Coercer T W)
  | setPublisher (publisher : Publisher T W)
  | addDesiredSubscriber (subscriber : Subscriber T W)
  | addCoercedSubscriber (subscriber : Subscriber T W)

/-- What the call does. -/
def Call.action : Call T W → Action T W PUnit
  | .set value => PropertyImpl.set value
  | .setCoerced value => PropertyImpl.setCoerced value
  | .setCoercer coercer => PropertyImpl.setCoercer coercer
  | .setPublisher publisher => PropertyImpl.setPublisher publisher
  | .addDesiredSubscriber subscriber => PropertyImpl.addDesiredSubscriber subscriber
  | .addCoercedSubscriber subscriber => PropertyImpl.addCoercedSubscriber subscriber

/-- A call that succeeds. -/
def Session.step (s : Session T W) (call : Call T W) : Option (Session T W) :=
  outcome call.action s fun _ t => t

/-- A property that was just created. -/
def Session.start (coerceMode : CoerceMode) (world : W) : Session T W :=
  { property := .make coerceMode, world }

/-- The documentation forbids the call. -/
def Session.Forbids (s : Session T W) : Call T W → Prop
  | .setCoerced _ => s.property.coerceMode = .autoCoerce
  | .setCoercer _ => s.property.coerceMode = .manualCoerce
  | .setPublisher _ => s.property.publisher.isSome
  | _ => False

instance (s : Session T W) : DecidablePred s.Forbids
  | .set _ => isFalse id
  | .setCoerced _ => inferInstanceAs (Decidable (_ = CoerceMode.autoCoerce))
  | .setCoercer _ => inferInstanceAs (Decidable (_ = CoerceMode.manualCoerce))
  | .setPublisher _ => inferInstanceAs (Decidable (_ = true))
  | .addDesiredSubscriber _ => isFalse id
  | .addCoercedSubscriber _ => isFalse id

/-- The call sets the desired value. -/
def Call.Sets : Call T W → Prop
  | .set _ => True
  | _ => False

/-! ## What is claimed -/

/-- The coercer returns this for the value. -/
def Gives (coercer : Coercer T W) (value coerced : T) : Prop :=
  ∃ world after, Returns (coercer value) world coerced after

/-- The coerced value of an auto-coerced property is its coercer applied to its desired value. -/
def Session.Coerced (s : Session T W) : Prop :=
  s.property.coerceMode = .autoCoerce → ∀ value, s.property.value = some value →
    ∃ coercer coerced, s.property.coercer = some coercer ∧ Gives coercer value coerced ∧
      s.property.coercedValue = some coerced

/-- What is forbidden throws and changes nothing. -/
def Session.Refuses (s : Session T W) : Prop :=
  ∀ call, s.Forbids call → ∃ e, call.action s = .error e s

/-- The calls of all subscribers of one kind with a value. -/
def toldAll (record : ℕ → T → Notification T) (subscribers : List (Subscriber T W)) (value : T) :
    List (Notification T) :=
  subscribers.map fun subscriber => record subscriber.name value

/-- A successful `set` tells all subscribers, in the order in which they were registered. -/
def Session.TellsAll (s : Session T W) : Prop :=
  ∀ value t, s.step (.set value) = some t → ∃ coerced,
    (s.property.coercedSubscribers = [] ∨ t.property.coercedValue = some coerced) ∧
    t.log = s.log ++ toldAll .desired s.property.desiredSubscribers value ++
      toldAll .coerced s.property.coercedSubscribers coerced

/-! ## What a call leaves -/

section Calls

variable {s t : Session T W} {value : T} {record : ℕ → T → Notification T}
  {field : Property T W → Option T} {subscribers : List (Subscriber T W)}

theorem returns_update {f : Property T W → Property T W} {a : PUnit} :
    Returns (update f) s a t ↔ { s with property := f s.property } = t :=
  returns_modify

theorem returns_make {e : UhdError} {a : PUnit} : Returns (make e) s a t ↔ s = t := by
  rw [make, returns_pure, and_iff_right (Subsingleton.elim _ _)]

theorem returns_check {c : Prop} [Decidable c] {e : UhdError} {a : PUnit} :
    Returns (onlyIf c (make e)) s a t ↔ s = t := by
  rw [returns_onlyIf, returns_make, ← or_and_right]
  exact and_iff_right (em c)

theorem returns_outside {α : Type} {x : EStateM UhdError W α} {a : α}
    (h : Returns (outside x) s a t) :
    ∃ world, Returns x s.world a world ∧ t = { s with world } := by
  obtain ⟨world, hx, ht⟩ := returns_zoom.mp h
  exact ⟨world, hx, ht.symm⟩

theorem callSubscriber_spec {subscriber : Subscriber T W} {a : PUnit}
    (h : Returns (callSubscriber record subscriber value) s a t) :
    t.property = s.property ∧ t.log = s.log ++ [record subscriber.name value] := by
  obtain ⟨_, u, hlog, hcall⟩ := returns_bind.mp h
  obtain ⟨world, -, rfl⟩ := returns_outside hcall
  rw [← returns_modify.mp hlog]
  exact ⟨rfl, rfl⟩

theorem callSubscribers_spec {a : PUnit} (hfield : field s.property = some value)
    (h : Returns (callSubscribers record field subscribers) s a t) :
    t.property = s.property ∧ t.log = s.log ++ toldAll record subscribers value := by
  induction subscribers generalizing s with
  | nil =>
    obtain ⟨-, rfl⟩ := returns_pure.mp h
    exact ⟨rfl, (List.append_nil _).symm⟩
  | cons subscriber subscribers ih =>
    obtain ⟨u, hone, hrest⟩ := returns_forM_cons.mp h
    obtain ⟨_, _, hget, hone⟩ := returns_bind.mp hone
    obtain ⟨rfl, rfl⟩ := returns_get.mp hget
    obtain ⟨v, _, hvalue, hone⟩ := returns_bind.mp hone
    rw [hfield] at hvalue
    obtain ⟨hv, rfl⟩ := returns_orThrow.mp hvalue
    obtain rfl := Except.ok.inj hv
    obtain ⟨hproperty, hlog⟩ := callSubscriber_spec hone
    obtain ⟨hproperty', hlog'⟩ := ih (by rw [hproperty, hfield]) hrest
    refine ⟨hproperty'.trans hproperty, ?_⟩
    rw [hlog', hlog, List.append_assoc]
    rfl

theorem returns_setCoercedValue {a : PUnit} (h : Returns (setCoercedValue value) s a t) :
    t.property = { s.property with coercedValue := some value } ∧
      t.log = s.log ++ toldAll .coerced s.property.coercedSubscribers value := by
  obtain ⟨_, _, hupdate, h⟩ := returns_bind.mp h
  obtain rfl := returns_update.mp hupdate
  obtain ⟨_, _, hget, h⟩ := returns_bind.mp h
  obtain ⟨rfl, rfl⟩ := returns_get.mp hget
  exact callSubscribers_spec rfl h

theorem returns_set {a : PUnit} (h : Returns (set value) s a t) :
    (∀ coercer, s.property.coercer = some coercer → ∃ coerced, Gives coercer value coerced ∧
      t.property = { s.property with value := some value, coercedValue := some coerced } ∧
      t.log = s.log ++ toldAll .desired s.property.desiredSubscribers value ++
        toldAll .coerced s.property.coercedSubscribers coerced) ∧
    (s.property.coercer = none → t.property = { s.property with value := some value } ∧
      t.log = s.log ++ toldAll .desired s.property.desiredSubscribers value) := by
  obtain ⟨_, _, hupdate, h⟩ := returns_bind.mp h
  obtain rfl := returns_update.mp hupdate
  obtain ⟨_, _, hget, h⟩ := returns_bind.mp h
  obtain ⟨rfl, rfl⟩ := returns_get.mp hget
  obtain ⟨_, u, hdesired, h⟩ := returns_bind.mp h
  obtain ⟨hproperty, hlog⟩ := callSubscribers_spec rfl hdesired
  obtain ⟨_, _, hget, h⟩ := returns_bind.mp h
  obtain ⟨rfl, rfl⟩ := returns_get.mp hget
  dsimp only at hproperty hlog
  rw [hproperty] at h
  constructor
  · intro coercer hcoercer
    rw [hcoercer] at h
    obtain ⟨v, _, hvalue, h⟩ := returns_bind.mp h
    obtain ⟨hv, rfl⟩ := returns_orThrow.mp hvalue
    obtain rfl := Except.ok.inj hv
    obtain ⟨coerced, _, hcoerced, h⟩ := returns_bind.mp h
    obtain ⟨world, hgives, rfl⟩ := returns_outside hcoerced
    obtain ⟨hproperty', hlog'⟩ := returns_setCoercedValue h
    dsimp only at hproperty' hlog'
    rw [hproperty] at hproperty' hlog'
    exact ⟨coerced, ⟨_, _, hgives⟩, hproperty', hlog'.trans (congrArg (· ++ _) hlog)⟩
  · intro hcoercer
    rw [hcoercer] at h
    obtain rfl := returns_check.mp h
    exact ⟨hproperty, hlog⟩

theorem returns_setCoerced {a : PUnit} (h : Returns (setCoerced value) s a t) :
    Returns (setCoercedValue value) s a t := by
  obtain ⟨_, _, hget, h⟩ := returns_bind.mp h
  obtain ⟨rfl, rfl⟩ := returns_get.mp hget
  obtain ⟨_, _, hcheck, h⟩ := returns_bind.mp h
  obtain rfl := returns_check.mp hcheck
  exact h

theorem returns_setCoercer {coercer : Coercer T W} {a : PUnit}
    (h : Returns (setCoercer coercer) s a t) :
    t = { s with property := { s.property with coercer := some coercer } } := by
  obtain ⟨_, _, hget, h⟩ := returns_bind.mp h
  obtain ⟨rfl, rfl⟩ := returns_get.mp hget
  obtain ⟨_, _, hcheck, h⟩ := returns_bind.mp h
  obtain rfl := returns_check.mp hcheck
  obtain ⟨_, _, hcheck, h⟩ := returns_bind.mp h
  obtain rfl := returns_check.mp hcheck
  exact (returns_update.mp h).symm

theorem returns_setPublisher {publisher : Publisher T W} {a : PUnit}
    (h : Returns (setPublisher publisher) s a t) :
    t = { s with property := { s.property with publisher := some publisher } } := by
  obtain ⟨_, _, hget, h⟩ := returns_bind.mp h
  obtain ⟨rfl, rfl⟩ := returns_get.mp hget
  obtain ⟨_, _, hcheck, h⟩ := returns_bind.mp h
  obtain rfl := returns_check.mp hcheck
  exact (returns_update.mp h).symm

theorem returns_addDesiredSubscriber {subscriber : Subscriber T W} {a : PUnit}
    (h : Returns (addDesiredSubscriber subscriber) s a t) :
    t = { s with property := { s.property with
      desiredSubscribers := s.property.desiredSubscribers ++ [subscriber] } } :=
  (returns_update.mp h).symm

theorem returns_addCoercedSubscriber {subscriber : Subscriber T W} {a : PUnit}
    (h : Returns (addCoercedSubscriber subscriber) s a t) :
    t = { s with property := { s.property with
      coercedSubscribers := s.property.coercedSubscribers ++ [subscriber] } } :=
  (returns_update.mp h).symm

end Calls

/-! ## Runs of calls that are allowed -/

section Runs

variable {s t u : Session T W} {call : Call T W} {calls : List (Call T W)}

/-- Every call is one that the documentation allows. -/
def AllAllowed (s : Session T W) (calls : List (Call T W)) : Prop :=
  Transition.EveryStep Session.step (fun s call => ¬ s.Forbids call) s calls

/-- A property that is coerced automatically has a coercer; one that is coerced by hand has none. -/
def Session.Fits (s : Session T W) : Prop :=
  s.property.coerceMode = .autoCoerce ↔ s.property.coercer.isSome

theorem fits_start (coerceMode : CoerceMode) (world : W) :
    (Session.start coerceMode world : Session T W).Fits := by
  rw [Session.Fits, Session.start, Property.make]
  cases coerceMode with
  | autoCoerce => simp
  | manualCoerce => simp

theorem returns_of_step (h : s.step call = some t) : Returns call.action s PUnit.unit t := by
  obtain ⟨_, _, hreturns, rfl⟩ := outcome_eq_some.mp h
  exact hreturns

/-- The subscribers that a call registers. -/
def Call.desiredSubscribers : Call T W → List (Subscriber T W)
  | .addDesiredSubscriber subscriber => [subscriber]
  | _ => []

/-- The subscribers that a call registers. -/
def Call.coercedSubscribers : Call T W → List (Subscriber T W)
  | .addCoercedSubscriber subscriber => [subscriber]
  | _ => []

theorem step_spec (h : s.step call = some t) :
    t.property.coerceMode = s.property.coerceMode ∧
    (t.property.coercer.isSome ↔ s.property.coercer.isSome ∨ ∃ coercer, call = .setCoercer coercer) ∧
    t.property.desiredSubscribers = s.property.desiredSubscribers ++ call.desiredSubscribers ∧
    t.property.coercedSubscribers = s.property.coercedSubscribers ++ call.coercedSubscribers := by
  have hreturns := returns_of_step h
  cases call with
  | set value =>
    obtain ⟨hsome, hnone⟩ := returns_set hreturns
    cases hcoercer : s.property.coercer with
    | none =>
      rw [(hnone hcoercer).1]
      simp [hcoercer, Call.desiredSubscribers, Call.coercedSubscribers]
    | some coercer =>
      obtain ⟨coerced, -, hproperty, -⟩ := hsome coercer hcoercer
      rw [hproperty]
      simp [hcoercer, Call.desiredSubscribers, Call.coercedSubscribers]
  | setCoerced value =>
    rw [(returns_setCoercedValue (returns_setCoerced hreturns)).1]
    simp [Call.desiredSubscribers, Call.coercedSubscribers]
  | setCoercer coercer =>
    rw [returns_setCoercer hreturns]
    simp [Call.desiredSubscribers, Call.coercedSubscribers]
  | setPublisher publisher =>
    rw [returns_setPublisher hreturns]
    simp [Call.desiredSubscribers, Call.coercedSubscribers]
  | addDesiredSubscriber subscriber =>
    rw [returns_addDesiredSubscriber hreturns]
    simp [Call.desiredSubscribers, Call.coercedSubscribers]
  | addCoercedSubscriber subscriber =>
    rw [returns_addCoercedSubscriber hreturns]
    simp [Call.desiredSubscribers, Call.coercedSubscribers]

theorem fits_of_step (hfits : s.Fits) (hallowed : ¬ s.Forbids call) (h : s.step call = some t) :
    t.Fits := by
  obtain ⟨hmode, hcoercer, -, -⟩ := step_spec h
  rw [Session.Fits] at hfits
  rw [Session.Fits, hmode, hcoercer, ← hfits]
  refine ⟨Or.inl, fun hor => hor.elim id ?_⟩
  rintro ⟨coercer, rfl⟩
  cases hm : s.property.coerceMode with
  | autoCoerce => rfl
  | manualCoerce => exact absurd hm hallowed

theorem values_of_step (hmode : s.property.coerceMode = .autoCoerce) (hallowed : ¬ s.Forbids call)
    (hsets : ¬ call.Sets) (h : s.step call = some t) :
    t.property.value = s.property.value ∧ t.property.coercedValue = s.property.coercedValue := by
  have hreturns := returns_of_step h
  cases call with
  | set value => exact absurd trivial hsets
  | setCoerced value => exact absurd hmode hallowed
  | setCoercer coercer =>
    rw [returns_setCoercer hreturns]
    exact ⟨rfl, rfl⟩
  | setPublisher publisher =>
    rw [returns_setPublisher hreturns]
    exact ⟨rfl, rfl⟩
  | addDesiredSubscriber subscriber =>
    rw [returns_addDesiredSubscriber hreturns]
    exact ⟨rfl, rfl⟩
  | addCoercedSubscriber subscriber =>
    rw [returns_addCoercedSubscriber hreturns]
    exact ⟨rfl, rfl⟩

theorem coerceMode_of_run (h : Transition.run Session.step s calls = some t) :
    t.property.coerceMode = s.property.coerceMode :=
  Transition.run_invariant (I := fun t : Session T W => t.property.coerceMode =
      s.property.coerceMode) (fun _ _ _ hs hstep => (step_spec hstep).1.trans hs) rfl h

theorem fits_of_run (hfits : s.Fits) (hallowed : AllAllowed s calls)
    (h : Transition.run Session.step s calls = some t) : t.Fits :=
  Transition.run_invariant_of_everyStep (fun _ _ _ => fits_of_step) hfits hallowed h

theorem values_of_run (hmode : s.property.coerceMode = .autoCoerce)
    (hallowed : AllAllowed s calls) (hsets : ∀ call ∈ calls, ¬ call.Sets)
    (h : Transition.run Session.step s calls = some t) :
    t.property.value = s.property.value ∧ t.property.coercedValue = s.property.coercedValue := by
  have hgood := Transition.everyStep_and hallowed
    (@Transition.everyStep_of_forall_mem _ _ Session.step _ _ hsets s)
  refine (Transition.run_invariant_of_everyStep (I := fun t : Session T W =>
    t.property.coerceMode = .autoCoerce ∧ t.property.value = s.property.value ∧
      t.property.coercedValue = s.property.coercedValue) ?_ ⟨hmode, rfl, rfl⟩ hgood h).2
  rintro u call v ⟨hmode, hvalue, hcoerced⟩ ⟨hallowed, hsets⟩ hstep
  obtain ⟨hvalue', hcoerced'⟩ := values_of_step hmode hallowed hsets hstep
  exact ⟨(step_spec hstep).1.trans hmode, hvalue'.trans hvalue, hcoerced'.trans hcoerced⟩

theorem subscribers_of_run (h : Transition.run Session.step s calls = some t) :
    t.property.desiredSubscribers =
      s.property.desiredSubscribers ++ calls.flatMap Call.desiredSubscribers ∧
    t.property.coercedSubscribers =
      s.property.coercedSubscribers ++ calls.flatMap Call.coercedSubscribers :=
  ⟨@Transition.run_log_flatMap _ _ _ _ (fun s : Session T W => s.property.desiredSubscribers)
      Call.desiredSubscribers (fun _ _ _ hstep => (step_spec hstep).2.2.1) s t calls h,
    @Transition.run_log_flatMap _ _ _ _ (fun s : Session T W => s.property.coercedSubscribers)
      Call.coercedSubscribers (fun _ _ _ hstep => (step_spec hstep).2.2.2) s t calls h⟩

/-! ## What holds of every run -/

theorem coerced_of_last_set {before after : List (Call T W)} {value : T}
    (hmode : s.property.coerceMode = .autoCoerce) (hfits : s.Fits)
    (hallowed : AllAllowed s (before ++ .set value :: after)) (hafter : ∀ call ∈ after, ¬ call.Sets)
    (hbefore : Transition.run Session.step s before = some t)
    (h : Transition.run Session.step s (before ++ .set value :: after) = some u) :
    ∃ coercer coerced, t.property.coercer = some coercer ∧ Gives coercer value coerced ∧
      u.property.value = some value ∧ u.property.coercedValue = some coerced := by
  obtain ⟨t', ht', hrest⟩ := Transition.run_append_eq_some.mp h
  rw [hbefore, Option.some_inj] at ht'
  subst ht'
  obtain ⟨v, hset, hrest⟩ := Transition.run_cons_eq_some.mp hrest
  have hallowed' := Transition.everyStep_of_append hallowed hbefore
  have htmode := (coerceMode_of_run hbefore).trans hmode
  have htfits := fits_of_run hfits (Transition.everyStep_of_append_left hallowed) hbefore
  obtain ⟨coercer, hcoercer⟩ := Option.isSome_iff_exists.mp (htfits.mp htmode)
  obtain ⟨coerced, hgives, hproperty, -⟩ := (returns_set (returns_of_step hset)).1 coercer hcoercer
  have hvmode : v.property.coerceMode = .autoCoerce := (step_spec hset).1.trans htmode
  obtain ⟨hvalue, hcoerced⟩ := values_of_run hvmode (hallowed'.2 v hset) hafter hrest
  refine ⟨coercer, coerced, hcoercer, hgives, ?_, ?_⟩
  · rw [hvalue, hproperty]
  · rw [hcoerced, hproperty]

theorem values_of_no_set {coerceMode : CoerceMode} {world : W}
    (hmode : coerceMode = .autoCoerce) (hallowed : AllAllowed (.start coerceMode world) calls)
    (hsets : ∀ call ∈ calls, ¬ call.Sets)
    (h : Transition.run Session.step (.start coerceMode world) calls = some t) :
    t.property.value = none ∧ t.property.coercedValue = none :=
  values_of_run hmode hallowed hsets h

theorem log_of_set {value : T} (hfits : s.Fits) (h : s.step (.set value) = some t) :
    (s.property.coerceMode = .autoCoerce → ∃ coerced, t.property.coercedValue = some coerced ∧
      t.log = s.log ++ toldAll .desired s.property.desiredSubscribers value ++
        toldAll .coerced s.property.coercedSubscribers coerced) ∧
    (s.property.coerceMode = .manualCoerce →
      t.property.coercedValue = s.property.coercedValue ∧
      t.log = s.log ++ toldAll .desired s.property.desiredSubscribers value) := by
  obtain ⟨hsome, hnone⟩ := returns_set (returns_of_step h)
  constructor
  · intro hmode
    obtain ⟨coercer, hcoercer⟩ := Option.isSome_iff_exists.mp (hfits.mp hmode)
    obtain ⟨coerced, -, hproperty, hlog⟩ := hsome coercer hcoercer
    refine ⟨coerced, ?_, hlog⟩
    rw [hproperty]
  · intro hmode
    have hcoercer : s.property.coercer = none := by
      cases hc : s.property.coercer with
      | none => rfl
      | some coercer =>
        have hauto := hfits.mpr (Option.isSome_iff_exists.mpr ⟨coercer, hc⟩)
        rw [hmode] at hauto
        exact nomatch hauto
    obtain ⟨hproperty, hlog⟩ := hnone hcoercer
    refine ⟨?_, hlog⟩
    rw [hproperty]

/-- **What holds of every property**, after calls that the documentation allows.  An auto-coerced
property has the values of its last `set`, or none; a `set` tells the subscribers of the desired
value, in the order in which they were registered, and then those of the coerced value where the
property is auto-coerced; and `set_coerced` tells those of the coerced value. -/
theorem property_behaves (coerceMode : CoerceMode) (world : W) (calls : List (Call T W))
    (s : Session T W) (hallowed : AllAllowed (.start coerceMode world) calls)
    (hrun : Transition.run Session.step (.start coerceMode world) calls = some s) :
    (coerceMode = .autoCoerce →
      ((∀ call ∈ calls, ¬ call.Sets) →
        s.property.value = none ∧ s.property.coercedValue = none) ∧
      ∀ before value after t, calls = before ++ .set value :: after →
        (∀ call ∈ after, ¬ call.Sets) →
        Transition.run Session.step (.start coerceMode world) before = some t →
        ∃ coercer coerced, t.property.coercer = some coercer ∧ Gives coercer value coerced ∧
          s.property.value = some value ∧ s.property.coercedValue = some coerced) ∧
    (∀ value t, s.step (.set value) = some t →
      (coerceMode = .autoCoerce → ∃ coerced, t.property.coercedValue = some coerced ∧
        t.log = s.log ++ toldAll .desired (calls.flatMap Call.desiredSubscribers) value ++
          toldAll .coerced (calls.flatMap Call.coercedSubscribers) coerced) ∧
      (coerceMode = .manualCoerce → t.property.coercedValue = s.property.coercedValue ∧
        t.log = s.log ++ toldAll .desired (calls.flatMap Call.desiredSubscribers) value)) ∧
    (coerceMode = .manualCoerce → ∀ value t, s.step (.setCoerced value) = some t →
      t.property.coercedValue = some value ∧
      t.log = s.log ++ toldAll .coerced (calls.flatMap Call.coercedSubscribers) value) := by
  have hfits := fits_of_run (fits_start coerceMode world) hallowed hrun
  have hmode : s.property.coerceMode = coerceMode := coerceMode_of_run hrun
  obtain ⟨hdesired, hcoerced⟩ := subscribers_of_run hrun
  have hnil : (Session.start coerceMode world : Session T W).property.desiredSubscribers = [] := rfl
  have hnil' : (Session.start coerceMode world : Session T W).property.coercedSubscribers = [] :=
    rfl
  rw [hnil, List.nil_append] at hdesired
  rw [hnil', List.nil_append] at hcoerced
  refine ⟨fun hauto => ⟨fun hsets => values_of_no_set hauto hallowed hsets hrun, ?_⟩, ?_, ?_⟩
  · rintro before value after t rfl hafter hbefore
    exact coerced_of_last_set hauto (fits_start coerceMode world) hallowed hafter hbefore hrun
  · intro value t hset
    have hlog := log_of_set hfits hset
    rw [hmode, hdesired, hcoerced] at hlog
    exact hlog
  · intro _ value t hset
    obtain ⟨hproperty, hlog⟩ :=
      returns_setCoercedValue (returns_setCoerced (returns_of_step hset))
    rw [hcoerced] at hlog
    refine ⟨?_, hlog⟩
    rw [hproperty]

end Runs

/-! ## Some properties -/

/-- A subscriber that does nothing but to be called. -/
def listener (name : ℕ) : Subscriber ℕ Unit := { name, call := fun _ => pure PUnit.unit }

/-- A coercer that clips to ten. -/
def clipToTen : Coercer ℕ Unit := fun value => pure (min value 10)

/-- A property with a coercer and a subscriber, which is set. -/
theorem property_behaves_clipToTen : ∃ s : Session ℕ Unit,
    Transition.run Session.step (.start .autoCoerce ())
      [.setCoercer clipToTen, .addCoercedSubscriber (listener 0), .set 25] = some s ∧
    s.property.value = some 25 := by
  have h := property_behaves .autoCoerce ()
    [.setCoercer clipToTen, .addCoercedSubscriber (listener 0), .set 25] _
    (by unfold AllAllowed; decide) rfl
  obtain ⟨_, _, _, _, hvalue, _⟩ := (h.1 rfl).2
    [.setCoercer clipToTen, .addCoercedSubscriber (listener 0)] 25 [] _ rfl
    (fun _ hmem => absurd hmem List.not_mem_nil) rfl
  exact ⟨_, rfl, hvalue⟩

/-- **Not as claimed**: a coercer that is registered after a value was set is not applied to it, a
coerced value can be set on an auto-coerced property, and `set` does not tell the subscribers of the
coerced value of a property that is coerced by hand. -/
theorem not_coerced_refuses_tellsAll :
    (¬ ∀ (mode : CoerceMode) (calls : List (Call ℕ Unit)) (s : Session ℕ Unit),
      Transition.run Session.step (.start mode ()) calls = some s → s.Coerced) ∧
    (¬ ∀ (mode : CoerceMode) (calls : List (Call ℕ Unit)) (s : Session ℕ Unit),
      Transition.run Session.step (.start mode ()) calls = some s → s.Refuses) ∧
    (¬ ∀ (mode : CoerceMode) (calls : List (Call ℕ Unit)) (s : Session ℕ Unit),
      Transition.run Session.step (.start mode ()) calls = some s → s.TellsAll) := by
  refine ⟨fun hall => ?_, fun hall => ?_, fun hall => ?_⟩
  · obtain ⟨coercer, coerced, hcoercer, ⟨_, _, hgives⟩, hcoerced⟩ :=
      hall .autoCoerce [.set 25, .setCoercer clipToTen] _ rfl rfl 25 rfl
    obtain rfl := Option.some.inj hcoercer
    obtain rfl := Option.some.inj hcoerced
    obtain ⟨hten, -⟩ := returns_pure.mp hgives
    exact absurd hten (by decide)
  · obtain ⟨e, he⟩ := hall .autoCoerce [] _ rfl (.setCoerced 25) rfl
    exact nomatch he
  · obtain ⟨coerced, -, hlog⟩ :=
      hall .manualCoerce [.addCoercedSubscriber (listener 0)] _ rfl 25 _ rfl
    exact absurd hlog (List.cons_ne_nil _ _).symm

end PropertyImpl
end Utils
end UhdHost
