import Mathlib.Logic.Function.Basic
import UhdHost.Library.Transition
import UhdHost.Types.Exception

/-!
# Allocating endpoint IDs

`epid_allocator` keeps the endpoint ID of every stream endpoint that was asked for, a map back, and
the ID that comes next, a number of 16 bits.  `allocate_epid` with a management portal also
initializes the endpoint on the device, or registers it if its ID is known.

Both may throw.  The maps are changed before the endpoint is initialized, and nothing takes the
change back.

What the portal does is part of the step: `initializeEndpoint` and `registerEndpoint` say how the
call of the portal ends, if it is made.  The two records of a state are not part of the allocator: they are there to
say what happened so far.

`sound_iff` says when every call that returns has an initialized endpoint to return, and the maps
are inverse to each other.  With as many calls as there are IDs the maps always are
(`lookupAddr_iff_of_run`).
-/

namespace UhdHost
namespace Rfnoc

open Transition

/-- `sep_addr_t`: the device and the instance. -/
abbrev SepAddr := UInt16 × UInt16

/-- `sep_id_t` -/
abbrev SepId := UInt16

/-- `epid_allocator`, and what happened so far. -/
structure EpidAllocator where
  /-- `_epid_map` -/
  epidMap : SepAddr → Option SepId := fun _ => none
  /-- `_addr_map` -/
  addrMap : SepId → Option SepAddr := fun _ => none
  /-- `_next_epid` -/
  nextEpid : SepId := 1
  /-- The endpoints that were initialized, each with its ID. -/
  initialized : List (SepAddr × SepId) := []
  /-- What was returned, the address with the ID. -/
  returned : List (SepAddr × SepId) := []

namespace EpidAllocator

/-- A call of `allocate_epid` with a portal: the address, and how `initialize_endpoint` and
`register_endpoint` end. -/
structure Call where
  addr : SepAddr
  initializeEndpoint : Except UhdError Unit
  registerEndpoint : Except UhdError Unit

/-- The first part of `allocate_epid`, for an address that has no ID. -/
def newEpid (s : EpidAllocator) (addr : SepAddr) : EpidAllocator :=
  { s with
    epidMap := Function.update s.epidMap addr (some s.nextEpid)
    addrMap := Function.update s.addrMap s.nextEpid (some addr)
    nextEpid := s.nextEpid + 1 }

/-- `allocate_epid`, without a portal -/
def allocateEpid (s : EpidAllocator) (addr : SepAddr) : SepId × EpidAllocator :=
  match s.epidMap addr with
  | none => (s.nextEpid, s.newEpid addr)
  | some epid => (epid, s)

/-- `allocate_epid`, with a portal -/
def allocateEpidWith (s : EpidAllocator) (call : Call) :
    EStateM.Result UhdError EpidAllocator SepId :=
  match s.epidMap call.addr with
  | none =>
    let epid := s.nextEpid
    let s := s.newEpid call.addr
    match call.initializeEndpoint with
    | .error e => .error e s
    | .ok () => .ok epid { s with initialized := s.initialized ++ [(call.addr, epid)] }
  | some epid =>
    match call.registerEndpoint with
    | .error e => .error e s
    | .ok () => .ok epid s

/-- `get_epid` -/
def getEpid (s : EpidAllocator) (addr : SepAddr) : Except UhdError SepId :=
  match s.epidMap addr with
  | some epid => .ok epid
  | none => .error (.lookupError "An EPID has not been allocated for the requested endpoint")

/-- `lookup_addr` -/
def lookupAddr (s : EpidAllocator) (epid : SepId) : Except UhdError SepAddr :=
  match s.addrMap epid with
  | some addr => .ok addr
  | none => .error (.lookupError "The specified EPID has not been allocated")

/-- A call as a step. -/
def step (s : EpidAllocator) (call : Call) : Option EpidAllocator :=
  match s.allocateEpidWith call with
  | .ok epid s => some { s with returned := s.returned ++ [(call.addr, epid)] }
  | .error _ s => some s

/-! ## The property -/

/-- **The map back is the exact inverse.** -/
def Inverse (s : EpidAllocator) : Prop :=
  ∀ addr epid, s.epidMap addr = some epid ↔ s.addrMap epid = some addr

/-- **Different endpoints have different IDs, the map back is the exact inverse, and what was
returned was initialized.** -/
structure Sound (s : EpidAllocator) : Prop where
  injective : ∀ addr addr' epid, s.epidMap addr = some epid → s.epidMap addr' = some epid →
    addr = addr'
  inverse : s.Inverse
  returned : ∀ r ∈ s.returned, r ∈ s.initialized

/-- A call meets the allocator in a state that it copes with: the next ID is free if it is needed,
and an endpoint whose ID is known was initialized, or the portal does not register it. -/
def Copes (s : EpidAllocator) (call : Call) : Prop :=
  match s.epidMap call.addr with
  | none => s.addrMap s.nextEpid = none
  | some epid => (call.addr, epid) ∈ s.initialized ∨ call.registerEndpoint ≠ .ok ()

instance (s : EpidAllocator) (call : Call) : Decidable (s.Copes call) := by
  unfold Copes
  cases s.epidMap call.addr <;> infer_instance

theorem Inverse.injective {s : EpidAllocator} (h : s.Inverse) {addr addr' : SepAddr}
    {epid : SepId} (haddr : s.epidMap addr = some epid) (haddr' : s.epidMap addr' = some epid) :
    addr = addr' := by
  rw [h] at haddr haddr'
  exact Option.some_inj.mp (haddr.symm.trans haddr')

/-! ## Steps -/

theorem inverse_newEpid {s : EpidAllocator} {addr : SepAddr} (h : s.Inverse)
    (haddr : s.epidMap addr = none) (hnext : s.addrMap s.nextEpid = none) :
    (s.newEpid addr).Inverse := by
  intro a e
  simp only [newEpid, Function.update_apply]
  split_ifs with ha he he
  · rw [ha, he]
    exact iff_of_true rfl rfl
  · rw [Option.some_inj, ha]
    refine iff_of_false (Ne.symm he) fun hmap => ?_
    rw [(h addr e).mpr hmap] at haddr
    exact absurd haddr (Option.some_ne_none e)
  · rw [Option.some_inj, he]
    refine iff_of_false (fun hmap => ?_) (Ne.symm ha)
    rw [(h a s.nextEpid).mp hmap] at hnext
    exact absurd hnext (Option.some_ne_none a)
  · exact h a e

theorem not_inverse_newEpid {s : EpidAllocator} {addr : SepAddr} (h : s.Inverse)
    (haddr : s.epidMap addr = none) (hnext : s.addrMap s.nextEpid ≠ none) :
    ¬ (s.newEpid addr).Inverse := by
  obtain ⟨old, hold⟩ := Option.ne_none_iff_exists'.mp hnext
  have hmap : s.epidMap old = some s.nextEpid := (h old s.nextEpid).mpr hold
  have hne : old ≠ addr := by
    rintro rfl
    rw [hmap] at haddr
    exact absurd haddr (Option.some_ne_none _)
  intro hinverse
  have hsame : (s.newEpid addr).epidMap addr = some s.nextEpid := Function.update_self _ _ _
  have hother : (s.newEpid addr).epidMap old = some s.nextEpid :=
    (Function.update_of_ne hne _ _).trans hmap
  exact hne (hinverse.injective hother hsame)

theorem step_cases {s t : EpidAllocator} {call : Call} (h : step s call = some t) :
    s.epidMap call.addr = none ∧
        (t.epidMap = (s.newEpid call.addr).epidMap ∧ t.addrMap = (s.newEpid call.addr).addrMap) ∧
        (t.returned = s.returned ∧ t.initialized = s.initialized ∨
          t.returned = s.returned ++ [(call.addr, s.nextEpid)] ∧
            t.initialized = s.initialized ++ [(call.addr, s.nextEpid)]) ∨
      ∃ epid, s.epidMap call.addr = some epid ∧
        (t.epidMap = s.epidMap ∧ t.addrMap = s.addrMap) ∧ t.initialized = s.initialized ∧
        (call.registerEndpoint ≠ .ok () ∧ t.returned = s.returned ∨
          call.registerEndpoint = .ok () ∧ t.returned = s.returned ++ [(call.addr, epid)]) := by
  rw [step, allocateEpidWith.eq_def] at h
  cases hepid : s.epidMap call.addr with
  | none =>
    refine Or.inl ⟨rfl, ?_⟩
    rw [hepid] at h
    dsimp only at h
    cases hinit : call.initializeEndpoint with
    | error e =>
      rw [hinit] at h
      obtain rfl := Option.some_inj.mp h
      exact ⟨⟨rfl, rfl⟩, Or.inl ⟨rfl, rfl⟩⟩
    | ok _ =>
      rw [hinit] at h
      obtain rfl := Option.some_inj.mp h
      exact ⟨⟨rfl, rfl⟩, Or.inr ⟨rfl, rfl⟩⟩
  | some epid =>
    refine Or.inr ⟨epid, rfl, ?_⟩
    rw [hepid] at h
    dsimp only at h
    cases hregister : call.registerEndpoint with
    | error e =>
      rw [hregister] at h
      obtain rfl := Option.some_inj.mp h
      exact ⟨⟨rfl, rfl⟩, rfl, Or.inl ⟨by simp, rfl⟩⟩
    | ok _ =>
      rw [hregister] at h
      obtain rfl := Option.some_inj.mp h
      exact ⟨⟨rfl, rfl⟩, rfl, Or.inr ⟨rfl, rfl⟩⟩

theorem sound_of_inverse {s : EpidAllocator} (h : s.Inverse)
    (hreturned : ∀ r ∈ s.returned, r ∈ s.initialized) : s.Sound :=
  ⟨fun _ _ _ => h.injective, h, hreturned⟩

/-- **A call in a state that copes with it** keeps the allocator sound. -/
theorem sound_step (s : EpidAllocator) (call : Call) (t : EpidAllocator) (hs : s.Sound)
    (h : step s call = some t) (hgood : s.Copes call) : t.Sound := by
  rw [Copes] at hgood
  rcases step_cases h with ⟨haddr, ⟨hepidMap, haddrMap⟩, hlogs⟩ |
    ⟨epid, haddr, ⟨hepidMap, haddrMap⟩, hinit, hlogs⟩
  · rw [haddr] at hgood
    refine sound_of_inverse ?_ fun r hr => ?_
    · intro a e
      rw [hepidMap, haddrMap]
      exact inverse_newEpid hs.inverse haddr hgood a e
    · rcases hlogs with ⟨hreturned, hinit⟩ | ⟨hreturned, hinit⟩
      · rw [hinit]
        exact hs.returned r (hreturned ▸ hr)
      · rw [hreturned] at hr
        rw [hinit]
        rcases List.mem_append.mp hr with hr | hr
        · exact List.mem_append_left _ (hs.returned r hr)
        · exact List.mem_append_right _ hr
  · rw [haddr] at hgood
    refine sound_of_inverse ?_ fun r hr => ?_
    · intro a e
      rw [hepidMap, haddrMap]
      exact hs.inverse a e
    · rw [hinit]
      rcases hlogs with ⟨-, hreturned⟩ | ⟨hregister, hreturned⟩
      · exact hs.returned r (hreturned ▸ hr)
      · rw [hreturned] at hr
        rcases List.mem_append.mp hr with hr | hr
        · exact hs.returned r hr
        · rw [List.mem_singleton.mp hr]
          exact hgood.resolve_right fun hne => hne hregister

theorem not_sound_step (s : EpidAllocator) (call : Call) (t : EpidAllocator) (hs : s.Sound)
    (h : step s call = some t) (hbad : ¬ s.Copes call) : ¬ t.Sound := by
  rw [Copes] at hbad
  intro ht
  rcases step_cases h with ⟨haddr, ⟨hepidMap, haddrMap⟩, -⟩ |
    ⟨epid, haddr, -, hinit, ⟨hregister, -⟩ | ⟨-, hreturned⟩⟩
  · rw [haddr] at hbad
    refine not_inverse_newEpid hs.inverse haddr hbad fun a e => ?_
    rw [← hepidMap, ← haddrMap]
    exact ht.inverse a e
  · rw [haddr] at hbad
    exact hbad (Or.inr hregister)
  · rw [haddr] at hbad
    refine hbad (Or.inl ?_)
    rw [← hinit]
    refine ht.returned _ ?_
    rw [hreturned]
    exact List.mem_append_right _ List.mem_cons_self

/-! ## Runs -/

/-- An allocator that nobody has called. -/
def make (startEpid : SepId) : EpidAllocator := { nextEpid := startEpid }

theorem sound_make (startEpid : SepId) : (make startEpid).Sound :=
  sound_of_inverse (fun _ _ => iff_of_false (Option.some_ne_none _).symm (Option.some_ne_none _).symm)
    fun _ hr => absurd hr List.not_mem_nil

/-- **The allocator is sound after every call exactly if every call meets it in a state that it
copes with**: the next ID is not in use when it is needed, and no endpoint is registered whose
initialization threw. -/
theorem sound_iff (startEpid : SepId) {t : EpidAllocator} {calls : List Call}
    (h : run step (make startEpid) calls = some t) :
    (∀ before u, before <+: calls → run step (make startEpid) before = some u → u.Sound) ↔
      EveryStep step Copes (make startEpid) calls :=
  forall_prefix_iff_everyStep (fun _ hs => hs) sound_step not_sound_step (sound_make startEpid) h

/-- Two endpoints, one of them asked for twice. -/
theorem sound_two_endpoints : ∃ t, run step (make 1)
    [⟨(1, 0), .ok (), .ok ()⟩, ⟨(1, 1), .ok (), .ok ()⟩, ⟨(1, 0), .ok (), .ok ()⟩] = some t ∧
      ∀ before u, before <+: [⟨(1, 0), .ok (), .ok ()⟩, ⟨(1, 1), .ok (), .ok ()⟩,
        ⟨(1, 0), .ok (), .ok ()⟩] → run step (make 1) before = some u → u.Sound := by
  refine Exists.imp (fun t ht => ⟨ht, ?_⟩) (Option.isSome_iff_exists.mp rfl)
  exact (sound_iff 1 ht).mpr (by decide)

/-- **A request that is repeated after a failed one returns the ID of an endpoint that was never
initialized.** -/
theorem returned_not_initialized :
    ∃ t, run step (make 1) [⟨(1, 0), .error (.ioError "timeout"), .ok ()⟩,
        ⟨(1, 0), .ok (), .ok ()⟩] = some t ∧
      t.returned = [((1, 0), 1)] ∧ t.initialized = [] ∧ ¬ t.Sound := by
  refine ⟨_, rfl, rfl, rfl, fun ht => ?_⟩
  exact absurd (ht.returned ((1, 0), 1) List.mem_cons_self) List.not_mem_nil

/-! ## With and without a portal -/

/-- A call of either `allocate_epid`. -/
inductive AnyCall where
  | allocate (addr : SepAddr)
  | allocateWith (call : Call)

/-- Either call as a step. -/
def stepAny (s : EpidAllocator) : AnyCall → Option EpidAllocator
  | .allocate addr => some (s.allocateEpid addr).2
  | .allocateWith call => step s call

/-- What the maps and the counter may become. -/
theorem stepAny_cases {s t : EpidAllocator} {call : AnyCall} (h : stepAny s call = some t) :
    ∃ u, (u = s ∨ ∃ addr, s.epidMap addr = none ∧ u = s.newEpid addr) ∧
      t.epidMap = u.epidMap ∧ t.addrMap = u.addrMap ∧ t.nextEpid = u.nextEpid := by
  cases call with
  | allocate addr =>
    rw [stepAny, allocateEpid] at h
    cases haddr : s.epidMap addr with
    | none =>
      rw [haddr] at h
      obtain rfl := Option.some_inj.mp h
      exact ⟨_, Or.inr ⟨addr, haddr, rfl⟩, rfl, rfl, rfl⟩
    | some epid =>
      rw [haddr] at h
      obtain rfl := Option.some_inj.mp h
      exact ⟨_, Or.inl rfl, rfl, rfl, rfl⟩
  | allocateWith call =>
    rw [stepAny, step, allocateEpidWith.eq_def] at h
    cases haddr : s.epidMap call.addr with
    | none =>
      rw [haddr] at h
      refine ⟨_, Or.inr ⟨call.addr, haddr, rfl⟩, ?_⟩
      cases hinit : call.initializeEndpoint with
      | error e =>
        simp only [hinit] at h
        obtain rfl := Option.some_inj.mp h
        exact ⟨rfl, rfl, rfl⟩
      | ok _ =>
        simp only [hinit] at h
        obtain rfl := Option.some_inj.mp h
        exact ⟨rfl, rfl, rfl⟩
    | some epid =>
      rw [haddr] at h
      refine ⟨_, Or.inl rfl, ?_⟩
      cases hregister : call.registerEndpoint with
      | error e =>
        simp only [hregister] at h
        obtain rfl := Option.some_inj.mp h
        exact ⟨rfl, rfl, rfl⟩
      | ok _ =>
        simp only [hregister] at h
        obtain rfl := Option.some_inj.mp h
        exact ⟨rfl, rfl, rfl⟩

/-- **The IDs that were given out** are so many, one after the other. -/
structure Counted (startEpid : SepId) (s : EpidAllocator) (n : ℕ) : Prop where
  inverse : s.Inverse
  next : s.nextEpid.toNat = (startEpid.toNat + n) % 65536
  used : ∀ epid, s.addrMap epid ≠ none →
    ∃ k < n, epid.toNat = (startEpid.toNat + k) % 65536

theorem counted_make (startEpid : SepId) : Counted startEpid (make startEpid) 0 where
  inverse := (sound_make startEpid).inverse
  next := (Nat.mod_eq_of_lt startEpid.toNat_lt).symm
  used := fun _ h => absurd rfl h

/-- The counter comes back to an ID only after all 65536. -/
theorem Counted.next_free {startEpid : SepId} {s : EpidAllocator} {n : ℕ}
    (h : Counted startEpid s n) (hn : n < 65536) : s.addrMap s.nextEpid = none := by
  by_contra hused
  obtain ⟨k, hk, heq⟩ := h.used s.nextEpid hused
  rw [h.next] at heq
  omega

theorem Counted.stepAny {startEpid : SepId} {s t : EpidAllocator} {n : ℕ} {call : AnyCall}
    (h : Counted startEpid s n) (hn : n < 65536) (hstep : stepAny s call = some t) :
    ∃ m ≤ n + 1, Counted startEpid t m := by
  obtain ⟨u, hu, hepidMap, haddrMap, hnext⟩ := stepAny_cases hstep
  suffices hcounted : ∃ m ≤ n + 1, Counted startEpid u m by
    obtain ⟨m, hm, hcounted⟩ := hcounted
    refine ⟨m, hm, fun addr epid => ?_, hnext ▸ hcounted.next, haddrMap ▸ hcounted.used⟩
    rw [hepidMap, haddrMap]
    exact hcounted.inverse addr epid
  rcases hu with rfl | ⟨addr, haddr, rfl⟩
  · exact ⟨n, Nat.le_succ n, h⟩
  · refine ⟨n + 1, Nat.le_refl _, inverse_newEpid h.inverse haddr (h.next_free hn), ?_, ?_⟩
    · change (s.nextEpid + 1).toNat = _
      rw [UInt16.toNat_add, h.next]
      exact Nat.mod_add_mod _ 65536 1
    · intro epid hused
      simp only [newEpid, Function.update_apply] at hused
      split_ifs at hused with hepid
      · exact ⟨n, Nat.lt_succ_self n, hepid ▸ h.next⟩
      · obtain ⟨k, hk, heq⟩ := h.used epid hused
        exact ⟨k, Nat.lt_succ_of_lt hk, heq⟩

theorem Counted.run {startEpid : SepId} {calls : List AnyCall} {s t : EpidAllocator} {n : ℕ}
    (h : Counted startEpid s n) (hcount : n + calls.length ≤ 65536)
    (hrun : run EpidAllocator.stepAny s calls = some t) :
    ∃ m ≤ n + calls.length, Counted startEpid t m := by
  induction calls generalizing s n with
  | nil => exact ⟨n, Nat.le_refl n, Option.some_inj.mp hrun ▸ h⟩
  | cons call calls ih =>
    obtain ⟨u, hstep, hrun⟩ := run_cons_eq_some.mp hrun
    rw [List.length_cons] at hcount ⊢
    obtain ⟨m, hm, hu⟩ := h.stepAny (by omega) hstep
    obtain ⟨m', hm', ht⟩ := ih hu (by omega) hrun
    exact ⟨m', by omega, ht⟩

theorem getEpid_eq_ok {s : EpidAllocator} {addr : SepAddr} {epid : SepId} :
    s.getEpid addr = .ok epid ↔ s.epidMap addr = some epid := by
  rw [getEpid]
  cases s.epidMap addr with
  | none => exact iff_of_false (fun h => by cases h) (Option.some_ne_none epid).symm
  | some epid' => rw [Except.ok.injEq, Option.some_inj]

theorem lookupAddr_eq_ok {s : EpidAllocator} {addr : SepAddr} {epid : SepId} :
    s.lookupAddr epid = .ok addr ↔ s.addrMap epid = some addr := by
  rw [lookupAddr]
  cases s.addrMap epid with
  | none => exact iff_of_false (fun h => by cases h) (Option.some_ne_none addr).symm
  | some addr' => rw [Except.ok.injEq, Option.some_inj]

/-- An address keeps its ID. -/
theorem epidMap_stepAny {addr : SepAddr} {epid : SepId} (s : EpidAllocator) (call : AnyCall)
    (t : EpidAllocator) (hs : s.epidMap addr = some epid) (h : stepAny s call = some t) :
    t.epidMap addr = some epid := by
  obtain ⟨u, rfl | ⟨other, hother, rfl⟩, hepidMap, -⟩ := stepAny_cases h
  · rw [hepidMap, hs]
  · have hne : addr ≠ other := by
      rintro rfl
      exact Option.some_ne_none epid (hs.symm.trans hother)
    rw [hepidMap]
    exact (Function.update_of_ne hne _ _).trans hs

/-- **The two lookups are inverse to each other after up to 65536 calls**, with a portal or without,
whether or not the portal throws; and the ID that an address has it keeps. -/
theorem lookupAddr_iff_of_run (startEpid : SepId) {s t : EpidAllocator}
    {before after : List AnyCall} (hbefore : run stepAny (make startEpid) before = some s)
    (hafter : run stepAny s after = some t) (hcount : before.length + after.length ≤ 65536) :
    (∀ addr epid, t.getEpid addr = .ok epid ↔ t.lookupAddr epid = .ok addr) ∧
      ∀ addr epid, s.getEpid addr = .ok epid → t.getEpid addr = .ok epid := by
  obtain ⟨n, hn, hs⟩ := (counted_make startEpid).run (by omega) hbefore
  obtain ⟨m, -, ht⟩ := hs.run (by omega) hafter
  constructor
  · intro addr epid
    rw [getEpid_eq_ok, lookupAddr_eq_ok]
    exact ht.inverse addr epid
  · intro addr epid hget
    rw [getEpid_eq_ok] at hget ⊢
    exact run_invariant (I := fun t => t.epidMap addr = some epid)
      (fun s call t hs h => epidMap_stepAny s call t hs h) hget hafter

theorem lookupAddr_iff_of_run_two : ∃ s t,
    run stepAny (make 1) [.allocate (1, 0)] = some s ∧
      run stepAny s [.allocateWith ⟨(1, 1), .error (.ioError "timeout"), .ok ()⟩] = some t ∧
      (∀ addr epid, t.getEpid addr = .ok epid ↔ t.lookupAddr epid = .ok addr) ∧
      t.getEpid (1, 0) = .ok 1 :=
  have hbefore : run stepAny (make 1) [.allocate (1, 0)] = some _ := rfl
  have hafter : run stepAny _ [.allocateWith ⟨(1, 1), .error (.ioError "timeout"), .ok ()⟩] =
    some _ := rfl
  have h := lookupAddr_iff_of_run 1 hbefore hafter (by decide)
  ⟨_, _, hbefore, hafter, h.1, h.2 (1, 0) 1 rfl⟩

end EpidAllocator
end Rfnoc
end UhdHost
