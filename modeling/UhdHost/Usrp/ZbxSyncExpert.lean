import Mathlib
import UhdHost.Library.Transition
import UhdHost.Types.TimeSpec

/-!
# The sync expert

`zbx_sync_expert` of `zbx_expert.cpp`, the worker that synchronises the LOs and NCOs that were tuned
with a command time, and the gearboxes of the converters whose NCOs these are.

What a resolve does is the calls that it makes of `rfdc_control` and of the CPLD; a call does what
it is documented to do with everything that it lists.  Which of the gearboxes of a kind were reset is
remembered in one flag for all of them, while a call lists only those that are tuned at the time.

* `synchronised_resolve`: LOs and NCOs are treated as they should be by every resolve.
* `history_resolve`: what a resolve does to one converter.
* `right_iff_amongFirst`: every gearbox is reset once, and before its NCO, exactly when the NCOs that
  are ever synchronised are among the first of their kind.
-/

namespace UhdHost
namespace Usrp
namespace ZbxSyncExpert

/-! ## What there is to synchronise -/

/-- The channels are the numbers below two. -/
instance twoChannels : NeZero (2 : ℕ) := ⟨two_ne_zero⟩

/-- `zbx_lo_t` -/
inductive ZbxLo where
  | tx0Lo1
  | tx0Lo2
  | tx1Lo1
  | tx1Lo2
  | rx0Lo1
  | rx0Lo2
  | rx1Lo1
  | rx1Lo2
  deriving DecidableEq, Repr

/-- The LOs, in the order of a `std::set` of them. -/
def ZbxLo.all : List ZbxLo := [tx0Lo1, tx0Lo2, tx1Lo1, tx1Lo2, rx0Lo1, rx0Lo2, rx1Lo1, rx1Lo2]

/-- `rfdc_type`, of which a daughterboard has these -/
inductive RfdcType where
  | rx0
  | rx1
  | tx0
  | tx1
  deriving DecidableEq, Repr

/-- The converters, in the order of a `std::set` of them. -/
def RfdcType.all : List RfdcType := [rx0, rx1, tx0, tx1]

/-- The kinds of converters, each of which has a flag. -/
inductive Kind where
  | adc
  | dac
  deriving DecidableEq, Repr

def RfdcType.kind : RfdcType → Kind
  | rx0 | rx1 => .adc
  | tx0 | tx1 => .dac

/-- `los` -/
def los : Fin 2 → List ZbxLo
  | 0 => [.rx0Lo1, .rx0Lo2, .tx0Lo1, .tx0Lo2]
  | 1 => [.rx1Lo1, .rx1Lo2, .tx1Lo1, .tx1Lo2]

/-- `ncos` -/
def ncos : Fin 2 → List RfdcType
  | 0 => [.rx0, .tx0]
  | 1 => [.rx1, .tx1]

/-- The channel of an LO. -/
def ZbxLo.chan : ZbxLo → Fin 2
  | tx0Lo1 | tx0Lo2 | rx0Lo1 | rx0Lo2 => 0
  | tx1Lo1 | tx1Lo2 | rx1Lo1 | rx1Lo2 => 1

/-- The channel of a converter. -/
def RfdcType.chan : RfdcType → Fin 2
  | rx0 | tx0 => 0
  | rx1 | tx1 => 1

/-! ## The code -/

/-- `time_spec_t::ASAP` -/
def asap : TimeSpec := TimeSpec.ofSecs 0

/-- What a resolve finds after tunes of the channels: the command times, and which of the coerced
frequencies are dirty. -/
structure Tune where
  feTime : Fin 2 → TimeSpec
  loDirty : ZbxLo → Bool
  ncoDirty : RfdcType → Bool

/-- The calls of a resolve. -/
inductive Call where
  | resetGearboxes (gearboxes : List RfdcType) (time : TimeSpec)
  /-- The pokes are under the command time of the channel. -/
  | pulseLoSync (refChan : Fin 2) (los : List ZbxLo)
  | resetNcos (ncos : List RfdcType) (time : TimeSpec)

namespace Tune

variable (t : Tune)

/-- `chan_needs_sync` -/
def needsSync (chan : Fin 2) : Bool := t.feTime chan ≠ asap

/-- `los_to_sync` -/
def losToSync : List ZbxLo :=
  ZbxLo.all.filter fun lo =>
    lo ∈ [0, 1].flatMap fun chan => if t.needsSync chan then (los chan).filter t.loDirty else []

/-- `ncos_to_sync` -/
def ncosToSync : List RfdcType :=
  RfdcType.all.filter fun nco =>
    nco ∈ [0, 1].flatMap fun chan => if t.needsSync chan then (ncos chan).filter t.ncoDirty else []

/-- `sync_order` -/
def syncOrder : List (Fin 2) :=
  if (t.feTime 0).realSecs ≤ (t.feTime 1).realSecs then [0, 1] else [1, 0]

/-- The calls for lists of gearboxes, LOs and NCOs that are to be synchronised together. -/
def callsFor (chan : Fin 2) (gearboxes : List RfdcType) (los : List ZbxLo)
    (ncos : List RfdcType) : List Call :=
  (if gearboxes.isEmpty then [] else [.resetGearboxes gearboxes (t.feTime chan)]) ++
    (if los.isEmpty then [] else [.pulseLoSync chan los]) ++
      if ncos.isEmpty then [] else [.resetNcos ncos (t.feTime chan)]

end Tune

/-- A resolve: what it found, and the calls that it made. -/
structure Resolve where
  tune : Tune
  calls : List Call

/-- The expert, with the resolves that it has done. -/
structure State where
  /-- `_adcs_synced` and `_dacs_synced` -/
  synced : Kind → Bool := fun _ => false
  log : List Resolve := []

/-- `gearboxes_to_sync` -/
def gearboxesToSync (s : State) (t : Tune) : List RfdcType :=
  RfdcType.all.filter fun c => !s.synced c.kind && decide (c ∈ t.ncosToSync)

/-- The calls of `zbx_sync_expert::resolve`. -/
def resolveCalls (s : State) (t : Tune) : List Call :=
  if !t.needsSync 0 && !t.needsSync 1 then []
  else if t.feTime 0 = t.feTime 1 then
    t.callsFor 0 (gearboxesToSync s t) t.losToSync t.ncosToSync
  else
    t.syncOrder.flatMap fun chan =>
      t.callsFor chan ((ncos chan).filter fun c => c ∈ gearboxesToSync s t)
        ((los chan).filter fun lo => lo ∈ t.losToSync)
        ((ncos chan).filter fun c => c ∈ t.ncosToSync)

/-- `zbx_sync_expert::resolve` -/
def resolve (s : State) (t : Tune) : State where
  synced k := s.synced k || t.ncosToSync.any fun c => c.kind = k
  log := s.log ++ [⟨t, resolveCalls s t⟩]

/-- A step: tunes of the channels, and the resolve that follows. -/
def step (s : State) (t : Tune) : Option State := some (resolve s t)

/-! ## What is claimed -/

namespace Call

/-- The LOs that a call synchronises. -/
def los : Call → List ZbxLo
  | pulseLoSync _ los => los
  | _ => []

/-- The NCOs that a call synchronises. -/
def ncos : Call → List RfdcType
  | resetNcos ncos _ => ncos
  | _ => []

/-- The time at which a call has its effect. -/
def time (t : Tune) : Call → TimeSpec
  | resetGearboxes _ time => time
  | pulseLoSync refChan _ => t.feTime refChan
  | resetNcos _ time => time

end Call

/-- LOs and NCOs are synchronised once if they are dirty and their channel has a command time, and
not at all otherwise; under the time of their channel, and earlier times first. -/
structure Synchronised (r : Resolve) : Prop where
  los : ∀ lo, (r.calls.flatMap Call.los).count lo =
    if r.tune.needsSync lo.chan = true ∧ r.tune.loDirty lo = true then 1 else 0
  ncos : ∀ nco, (r.calls.flatMap Call.ncos).count nco =
    if r.tune.needsSync nco.chan = true ∧ r.tune.ncoDirty nco = true then 1 else 0
  loTime : ∀ call ∈ r.calls, ∀ lo ∈ call.los, call.time r.tune = r.tune.feTime lo.chan
  ncoTime : ∀ call ∈ r.calls, ∀ nco ∈ call.ncos, call.time r.tune = r.tune.feTime nco.chan
  ordered : (r.calls.map (Call.time r.tune)).Pairwise fun t u => t.realSecs ≤ u.realSecs

/-- What is done to a converter. -/
inductive Reset where
  | gearbox
  | nco
  deriving DecidableEq, Repr

/-- What a call does to a converter. -/
def Call.resets (c : RfdcType) : Call → List Reset
  | resetGearboxes gearboxes _ => List.replicate (gearboxes.count c) .gearbox
  | pulseLoSync _ _ => []
  | resetNcos ncos _ => List.replicate (ncos.count c) .nco

/-- What was done to a converter, in the order in which it was done. -/
def State.history (s : State) (c : RfdcType) : List Reset :=
  s.log.flatMap fun r => r.calls.flatMap (Call.resets c)

/-- The gearbox of a converter is reset once, and before its NCO is. -/
def GearboxFirst (history : List Reset) : Prop :=
  history = [] ∨ ∃ n, history = .gearbox :: List.replicate n .nco

/-- Every resolve synchronises what it should, and each gearbox is reset once. -/
def Right (s : State) : Prop :=
  (∀ r ∈ s.log, Synchronised r) ∧ ∀ c, GearboxFirst (s.history c)

/-- The first resolve that synchronised an NCO of a kind. -/
def State.firstOf (s : State) (k : Kind) : Option Resolve :=
  s.log.find? fun r => r.tune.ncosToSync.any fun c => c.kind = k

/-- Every NCO that is to be synchronised was among the first of its kind, where there were any. -/
def AmongFirst (s : State) (t : Tune) : Prop :=
  ∀ c ∈ t.ncosToSync, ∀ r ∈ s.firstOf c.kind, c ∈ r.tune.ncosToSync

/-! ## The lists -/

section Lists

variable {s : State} {t : Tune} {lo : ZbxLo} {c : RfdcType} {chan : Fin 2}

theorem mem_los : lo ∈ los chan ↔ lo.chan = chan := by
  fin_cases chan <;> cases lo <;> decide

theorem mem_ncos : c ∈ ncos chan ↔ c.chan = chan := by
  fin_cases chan <;> cases c <;> decide

theorem nodup_los (chan : Fin 2) : (los chan).Nodup := by
  revert chan
  decide

theorem nodup_ncos (chan : Fin 2) : (ncos chan).Nodup := by
  revert chan
  decide

theorem mem_all_lo (lo : ZbxLo) : lo ∈ ZbxLo.all := by
  cases lo <;> decide

theorem mem_all (c : RfdcType) : c ∈ RfdcType.all := by
  cases c <;> decide

theorem mem_flatMap_chans {α : Type} {needs : Fin 2 → Bool} (chan : α → Fin 2) {dirty : α → Bool}
    {of : Fin 2 → List α} (hof : ∀ a c, a ∈ of c ↔ chan a = c) (a : α) :
    (a ∈ ([0, 1] : List (Fin 2)).flatMap fun c => if needs c then (of c).filter dirty else []) ↔
      needs (chan a) = true ∧ dirty a = true := by
  rw [List.mem_flatMap]
  constructor
  · rintro ⟨c, -, hmem⟩
    split_ifs at hmem with hneeds
    · obtain ⟨ha, hdirty⟩ := List.mem_filter.mp hmem
      rw [(hof a c).mp ha]
      exact ⟨hneeds, hdirty⟩
    · exact absurd hmem List.not_mem_nil
  · rintro ⟨hneeds, hdirty⟩
    have hboth : ∀ c : Fin 2, c ∈ ([0, 1] : List (Fin 2)) := by decide
    refine ⟨chan a, hboth _, ?_⟩
    rw [if_pos hneeds]
    exact List.mem_filter.mpr ⟨(hof a _).mpr rfl, hdirty⟩

theorem mem_losToSync :
    lo ∈ t.losToSync ↔ t.needsSync lo.chan = true ∧ t.loDirty lo = true := by
  rw [Tune.losToSync, List.mem_filter, decide_eq_true_iff,
    mem_flatMap_chans ZbxLo.chan fun _ _ => mem_los]
  exact and_iff_right (mem_all_lo lo)

theorem mem_ncosToSync :
    c ∈ t.ncosToSync ↔ t.needsSync c.chan = true ∧ t.ncoDirty c = true := by
  rw [Tune.ncosToSync, List.mem_filter, decide_eq_true_iff,
    mem_flatMap_chans RfdcType.chan fun _ _ => mem_ncos]
  exact and_iff_right (mem_all c)

theorem mem_gearboxesToSync :
    c ∈ gearboxesToSync s t ↔ s.synced c.kind = false ∧ c ∈ t.ncosToSync := by
  rw [gearboxesToSync, List.mem_filter, Bool.and_eq_true, Bool.not_eq_true', decide_eq_true_iff]
  exact and_iff_right (mem_all c)

theorem nodup_losToSync (t : Tune) : t.losToSync.Nodup :=
  List.Nodup.filter _ (by decide)

theorem nodup_ncosToSync (t : Tune) : t.ncosToSync.Nodup :=
  List.Nodup.filter _ (by decide)

theorem nodup_gearboxesToSync (s : State) (t : Tune) : (gearboxesToSync s t).Nodup :=
  List.Nodup.filter _ (by decide)

theorem count_filter_chan {α : Type} [DecidableEq α] (chan : α → Fin 2) {of : Fin 2 → List α}
    (hof : ∀ a c, a ∈ of c ↔ chan a = c) (hnodup : ∀ c, (of c).Nodup) (wanted : List α) (a : α)
    (c : Fin 2) :
    ((of c).filter fun b => b ∈ wanted).count a = if chan a = c ∧ a ∈ wanted then 1 else 0 := by
  rw [((hnodup c).filter _).count]
  refine if_congr ?_ rfl rfl
  rw [List.mem_filter, decide_eq_true_iff, hof]

theorem syncOrder_cases (t : Tune) :
    (t.syncOrder = [0, 1] ∧ (t.feTime 0).realSecs ≤ (t.feTime 1).realSecs) ∨
      (t.syncOrder = [1, 0] ∧ (t.feTime 1).realSecs ≤ (t.feTime 0).realSecs) := by
  rw [Tune.syncOrder]
  split_ifs with h
  · exact Or.inl ⟨rfl, h⟩
  · exact Or.inr ⟨rfl, (not_le.mp h).le⟩

theorem flatMap_syncOrder {α : Type} (t : Tune) (chan : Fin 2) (l : List α) :
    (t.syncOrder.flatMap fun c => if chan = c then l else []) = l := by
  have hchan : ∀ c : Fin 2, c = 0 ∨ c = 1 := by decide
  rcases syncOrder_cases t with ⟨horder, -⟩ | ⟨horder, -⟩ <;> rw [horder] <;>
    rcases hchan chan with rfl | rfl <;> simp

end Lists

/-! ## The calls for lists of what is to be synchronised -/

section Calls

variable {s : State} {t : Tune} {chan : Fin 2} {gearboxes cs : List RfdcType} {ls : List ZbxLo}

theorem los_callsFor : (t.callsFor chan gearboxes ls cs).flatMap Call.los = ls := by
  rw [Tune.callsFor]
  cases gearboxes <;> cases ls <;> cases cs <;> simp [Call.los]

theorem ncos_callsFor : (t.callsFor chan gearboxes ls cs).flatMap Call.ncos = cs := by
  rw [Tune.callsFor]
  cases gearboxes <;> cases ls <;> cases cs <;> simp [Call.ncos]

theorem resets_callsFor (c : RfdcType) :
    (t.callsFor chan gearboxes ls cs).flatMap (Call.resets c) =
      List.replicate (gearboxes.count c) .gearbox ++ List.replicate (cs.count c) .nco := by
  rw [Tune.callsFor]
  cases gearboxes <;> cases ls <;> cases cs <;> simp [Call.resets]

theorem time_of_mem_callsFor {call : Call} (h : call ∈ t.callsFor chan gearboxes ls cs) :
    call.time t = t.feTime chan := by
  rw [Tune.callsFor, List.mem_append, List.mem_append] at h
  rcases h with (h | h) | h
  all_goals
    split_ifs at h
    · exact absurd h List.not_mem_nil
    · rw [List.mem_singleton.mp h]
      rfl

theorem los_subset_of_mem_callsFor {call : Call} (h : call ∈ t.callsFor chan gearboxes ls cs)
    {lo : ZbxLo} (hlo : lo ∈ call.los) : lo ∈ ls := by
  have hlos : (t.callsFor chan gearboxes ls cs).flatMap Call.los = ls := los_callsFor
  rw [← hlos]
  exact List.mem_flatMap.mpr ⟨call, h, hlo⟩

theorem ncos_subset_of_mem_callsFor {call : Call} (h : call ∈ t.callsFor chan gearboxes ls cs)
    {c : RfdcType} (hc : c ∈ call.ncos) : c ∈ cs := by
  have hncos : (t.callsFor chan gearboxes ls cs).flatMap Call.ncos = cs := ncos_callsFor
  rw [← hncos]
  exact List.mem_flatMap.mpr ⟨call, h, hc⟩

end Calls

/-! ## One resolve -/

section OneResolve

variable {s : State} {t : Tune} {lo : ZbxLo} {c : RfdcType}

/-- The calls for one channel, where the command times differ. -/
def chanCalls (s : State) (t : Tune) (chan : Fin 2) : List Call :=
  t.callsFor chan ((ncos chan).filter fun c => c ∈ gearboxesToSync s t)
    ((los chan).filter fun lo => lo ∈ t.losToSync) ((ncos chan).filter fun c => c ∈ t.ncosToSync)

theorem resolveCalls_cases (s : State) (t : Tune) :
    (t.needsSync 0 = false ∧ t.needsSync 1 = false ∧ resolveCalls s t = []) ∨
      (t.feTime 0 = t.feTime 1 ∧
        resolveCalls s t = t.callsFor 0 (gearboxesToSync s t) t.losToSync t.ncosToSync) ∨
      resolveCalls s t = t.syncOrder.flatMap (chanCalls s t) := by
  rw [resolveCalls]
  split_ifs with hnone hmatch
  · rw [Bool.and_eq_true, Bool.not_eq_true', Bool.not_eq_true'] at hnone
    exact Or.inl ⟨hnone.1, hnone.2, rfl⟩
  · exact Or.inr (Or.inl ⟨hmatch, rfl⟩)
  · exact Or.inr (Or.inr rfl)

theorem not_needsSync (h0 : t.needsSync 0 = false) (h1 : t.needsSync 1 = false) (chan : Fin 2) :
    t.needsSync chan = false := by
  fin_cases chan
  · exact h0
  · exact h1

theorem feTime_eq (h : t.feTime 0 = t.feTime 1) (chan : Fin 2) : t.feTime chan = t.feTime 0 := by
  fin_cases chan
  · rfl
  · exact h.symm

theorem flatMap_los_chanCalls (s : State) (t : Tune) (lo : ZbxLo) :
    ((t.syncOrder.flatMap (chanCalls s t)).flatMap Call.los).count lo =
      if lo ∈ t.losToSync then 1 else 0 := by
  rw [List.flatMap_assoc]
  have hchan : ∀ chan, (chanCalls s t chan).flatMap Call.los =
      (los chan).filter fun lo => lo ∈ t.losToSync := fun chan => los_callsFor
  rcases syncOrder_cases t with ⟨horder, -⟩ | ⟨horder, -⟩
  all_goals
    rw [horder, List.flatMap_cons, List.flatMap_cons, List.flatMap_nil, List.append_nil,
      List.count_append, hchan, hchan,
      count_filter_chan ZbxLo.chan (fun _ _ => mem_los) nodup_los,
      count_filter_chan ZbxLo.chan (fun _ _ => mem_los) nodup_los]
    cases lo <;> simp [ZbxLo.chan]

theorem flatMap_ncos_chanCalls (s : State) (t : Tune) (c : RfdcType) :
    ((t.syncOrder.flatMap (chanCalls s t)).flatMap Call.ncos).count c =
      if c ∈ t.ncosToSync then 1 else 0 := by
  rw [List.flatMap_assoc]
  have hchan : ∀ chan, (chanCalls s t chan).flatMap Call.ncos =
      (ncos chan).filter fun c => c ∈ t.ncosToSync := fun chan => ncos_callsFor
  rcases syncOrder_cases t with ⟨horder, -⟩ | ⟨horder, -⟩
  all_goals
    rw [horder, List.flatMap_cons, List.flatMap_cons, List.flatMap_nil, List.append_nil,
      List.count_append, hchan, hchan,
      count_filter_chan RfdcType.chan (fun _ _ => mem_ncos) nodup_ncos,
      count_filter_chan RfdcType.chan (fun _ _ => mem_ncos) nodup_ncos]
    cases c <;> simp [RfdcType.chan]

theorem synchronised_resolve (s : State) (t : Tune) : Synchronised ⟨t, resolveCalls s t⟩ := by
  rcases resolveCalls_cases s t with ⟨h0, h1, hcalls⟩ | ⟨hsame, hcalls⟩ | hcalls
  · rw [hcalls]
    exact
      { los := fun lo => by
          rw [if_neg fun h => Bool.false_ne_true ((not_needsSync h0 h1 _).symm.trans h.1)]
          rfl
        ncos := fun c => by
          rw [if_neg fun h => Bool.false_ne_true ((not_needsSync h0 h1 _).symm.trans h.1)]
          rfl
        loTime := fun call hcall => absurd hcall List.not_mem_nil
        ncoTime := fun call hcall => absurd hcall List.not_mem_nil
        ordered := List.Pairwise.nil }
  · rw [hcalls]
    exact
      { los := fun lo => by
          rw [los_callsFor, (nodup_losToSync t).count]
          exact if_congr mem_losToSync rfl rfl
        ncos := fun c => by
          rw [ncos_callsFor, (nodup_ncosToSync t).count]
          exact if_congr mem_ncosToSync rfl rfl
        loTime := fun call hcall lo _ => by
          rw [time_of_mem_callsFor hcall, feTime_eq hsame lo.chan]
        ncoTime := fun call hcall c _ => by
          rw [time_of_mem_callsFor hcall, feTime_eq hsame c.chan]
        ordered := by
          rw [List.pairwise_map]
          refine List.pairwise_of_forall_mem_list fun a ha b hb => ?_
          dsimp only
          rw [time_of_mem_callsFor ha, time_of_mem_callsFor hb] }
  · rw [hcalls]
    exact
      { los := fun lo => by
          rw [flatMap_los_chanCalls]
          exact if_congr mem_losToSync rfl rfl
        ncos := fun c => by
          rw [flatMap_ncos_chanCalls]
          exact if_congr mem_ncosToSync rfl rfl
        loTime := fun call hcall lo hlo => by
          obtain ⟨chan, -, hmem⟩ := List.mem_flatMap.mp hcall
          have hchan := (List.mem_filter.mp (los_subset_of_mem_callsFor hmem hlo)).1
          rw [time_of_mem_callsFor hmem, mem_los.mp hchan]
        ncoTime := fun call hcall c hc => by
          obtain ⟨chan, -, hmem⟩ := List.mem_flatMap.mp hcall
          have hchan := (List.mem_filter.mp (ncos_subset_of_mem_callsFor hmem hc)).1
          rw [time_of_mem_callsFor hmem, mem_ncos.mp hchan]
        ordered := by
          -- each channel has one time, and the first channel the earlier one
          have htimes : ∀ {a b : Fin 2}, (t.feTime a).realSecs ≤ (t.feTime b).realSecs →
              (((chanCalls s t a) ++ (chanCalls s t b)).map (Call.time t)).Pairwise
                fun t u => t.realSecs ≤ u.realSecs := by
            intro a b hle
            have hsame : ∀ chan, (chanCalls s t chan).Pairwise fun x y =>
                (x.time t).realSecs ≤ (y.time t).realSecs := fun chan =>
              List.pairwise_of_forall_mem_list fun x hx y hy => by
                rw [time_of_mem_callsFor hx, time_of_mem_callsFor hy]
            rw [List.pairwise_map, List.pairwise_append]
            refine ⟨hsame a, hsame b, fun x hx y hy => ?_⟩
            rw [time_of_mem_callsFor hx, time_of_mem_callsFor hy]
            exact hle
          rcases syncOrder_cases t with ⟨horder, hle⟩ | ⟨horder, hle⟩
          all_goals
            rw [horder, List.flatMap_cons, List.flatMap_cons, List.flatMap_nil, List.append_nil]
            exact htimes hle }

theorem resets_resolveCalls (s : State) (t : Tune) (c : RfdcType) :
    (resolveCalls s t).flatMap (Call.resets c) =
      (if s.synced c.kind = false ∧ c ∈ t.ncosToSync then [Reset.gearbox] else []) ++
        if c ∈ t.ncosToSync then [Reset.nco] else [] := by
  have hone : ∀ {p : Prop} [Decidable p] {x : Reset},
      List.replicate (if p then 1 else 0) x = if p then [x] else [] := by
    intro p _ x
    split_ifs <;> rfl
  rcases resolveCalls_cases s t with ⟨h0, h1, hcalls⟩ | ⟨-, hcalls⟩ | hcalls
  · have hnot : c ∉ t.ncosToSync := fun hc =>
      Bool.false_ne_true ((not_needsSync h0 h1 _).symm.trans (mem_ncosToSync.mp hc).1)
    rw [hcalls, if_neg hnot, if_neg fun h => hnot h.2]
    rfl
  · rw [hcalls, resets_callsFor, (nodup_gearboxesToSync s t).count, (nodup_ncosToSync t).count,
      hone, hone]
    exact congrArg (· ++ _) (if_congr mem_gearboxesToSync rfl rfl)
  · rw [hcalls, List.flatMap_assoc, ← flatMap_syncOrder t c.chan (_ ++ _)]
    refine congrArg (List.flatMap · t.syncOrder) (funext fun chan => ?_)
    rw [chanCalls, resets_callsFor,
      count_filter_chan RfdcType.chan (fun _ _ => mem_ncos) nodup_ncos,
      count_filter_chan RfdcType.chan (fun _ _ => mem_ncos) nodup_ncos, hone, hone]
    by_cases hchan : c.chan = chan
    · rw [if_pos hchan]
      refine congrArg₂ (· ++ ·) (if_congr ?_ rfl rfl) (if_congr (and_iff_right hchan) rfl rfl)
      rw [and_iff_right hchan]
      exact mem_gearboxesToSync
    · rw [if_neg hchan, if_neg fun h => hchan h.1, if_neg fun h => hchan h.1]
      rfl

theorem history_resolve (s : State) (t : Tune) (c : RfdcType) :
    (resolve s t).history c = s.history c ++
      ((if s.synced c.kind = false ∧ c ∈ t.ncosToSync then [Reset.gearbox] else []) ++
        if c ∈ t.ncosToSync then [Reset.nco] else []) := by
  rw [State.history, resolve, List.flatMap_append, List.flatMap_singleton, resets_resolveCalls]
  rfl

end OneResolve

/-! ## Every run -/

section Runs

variable {s : State} {t : Tune}

/-- What holds as long as the NCOs that are synchronised are among the first of their kind. -/
structure Inv (s : State) : Prop where
  synchronised : ∀ r ∈ s.log, Synchronised r
  flag : ∀ k, s.synced k = (s.firstOf k).isSome
  tuned : ∀ c, ∀ r ∈ s.firstOf c.kind, c ∈ r.tune.ncosToSync →
    ∃ n, s.history c = .gearbox :: List.replicate n .nco
  untuned : ∀ c, (∀ r ∈ s.firstOf c.kind, c ∉ r.tune.ncosToSync) → s.history c = []

theorem inv_init : Inv {} where
  synchronised _ hr := absurd hr List.not_mem_nil
  flag _ := rfl
  tuned _ _ hr := absurd hr (Option.not_mem_none _)
  untuned _ _ := rfl

theorem Inv.right (hs : Inv s) : Right s := by
  refine ⟨hs.synchronised, fun c => ?_⟩
  by_cases h : ∃ r ∈ s.firstOf c.kind, c ∈ r.tune.ncosToSync
  · obtain ⟨r, hr, hc⟩ := h
    exact Or.inr (hs.tuned c r hr hc)
  · exact Or.inl (hs.untuned c fun r hr hc => h ⟨r, hr, hc⟩)

theorem firstOf_resolve (s : State) (t : Tune) (k : Kind) :
    (resolve s t).firstOf k = (s.firstOf k).or
      (if t.ncosToSync.any (fun c => c.kind = k) = true then some ⟨t, resolveCalls s t⟩
        else none) := by
  rw [State.firstOf, resolve, List.find?_append, State.firstOf]
  refine congrArg (Option.or _) ?_
  rw [List.find?_singleton]

theorem firstOf_resolve_of_some {k : Kind} {r : Resolve} (h : s.firstOf k = some r) :
    (resolve s t).firstOf k = some r := by
  rw [firstOf_resolve, h, Option.some_or]

theorem any_kind_of_mem {c : RfdcType} (h : c ∈ t.ncosToSync) :
    (t.ncosToSync.any fun c' => c'.kind = c.kind) = true :=
  List.any_eq_true.mpr ⟨c, h, decide_eq_true rfl⟩

theorem Inv.resolve (hs : Inv s) (hgood : AmongFirst s t) : Inv (resolve s t) where
  synchronised r hr := by
    rcases List.mem_append.mp hr with hr | hr
    · exact hs.synchronised r hr
    · rw [List.mem_singleton.mp hr]
      exact synchronised_resolve s t
  flag k := by
    rw [firstOf_resolve]
    show (s.synced k || t.ncosToSync.any fun c => c.kind = k) = _
    rw [hs.flag k]
    cases s.firstOf k with
    | some r => rfl
    | none =>
      rw [Option.isSome_none, Bool.false_or, Option.none_or]
      split_ifs with hany
      · exact hany
      · exact Bool.eq_false_iff.mpr hany
  tuned c r hr hc := by
    rw [history_resolve]
    cases hfirst : s.firstOf c.kind with
    | some r' =>
      rw [firstOf_resolve_of_some hfirst, Option.mem_some_iff] at hr
      subst hr
      obtain ⟨n, hn⟩ := hs.tuned c r' hfirst hc
      have hflag : s.synced c.kind = true := by rw [hs.flag, hfirst]; rfl
      rw [hn, hflag, if_neg fun h => absurd h.1 (by decide), List.nil_append]
      split_ifs with hnow
      · exact ⟨n + 1, by rw [List.cons_append, List.replicate_succ']⟩
      · exact ⟨n, by rw [List.append_nil]⟩
    | none =>
      have hflag : s.synced c.kind = false := by rw [hs.flag, hfirst]; rfl
      rw [firstOf_resolve, hfirst, Option.none_or] at hr
      split_ifs at hr with hany
      · rw [Option.mem_some_iff] at hr
        subst hr
        have hempty : s.history c = [] :=
          hs.untuned c fun r hr => absurd (hfirst ▸ hr) (Option.not_mem_none r)
        rw [hempty, hflag, if_pos ⟨rfl, hc⟩, if_pos hc]
        exact ⟨1, rfl⟩
      · exact absurd hr (Option.not_mem_none r)
  untuned c hnot := by
    have hnow : c ∉ t.ncosToSync := by
      intro hc
      cases hfirst : s.firstOf c.kind with
      | some r => exact hnot r (firstOf_resolve_of_some hfirst) (hgood c hc r hfirst)
      | none =>
        refine hnot ⟨t, resolveCalls s t⟩ ?_ hc
        rw [firstOf_resolve, hfirst, Option.none_or, if_pos (any_kind_of_mem hc)]
        rfl
    have hbefore : s.history c = [] := hs.untuned c fun r hr =>
      hnot r (firstOf_resolve_of_some hr)
    rw [history_resolve, hbefore, if_neg hnow, if_neg fun h => hnow h.2]
    rfl

theorem Inv.not_right (hs : Inv s) (hbad : ¬ AmongFirst s t) :
    ¬ Right (ZbxSyncExpert.resolve s t) := by
  intro hright
  refine hbad fun c hc r hr => ?_
  by_contra hnot
  have hempty : s.history c = [] := by
    refine hs.untuned c fun r' hr' => ?_
    rwa [Option.mem_unique hr' hr]
  have hflag : s.synced c.kind = true := by
    rw [hs.flag, Option.mem_def.mp hr]
    rfl
  have hhistory := hright.2 c
  rw [history_resolve, hempty, hflag, if_neg fun h => absurd h.1 (by decide), if_pos hc] at hhistory
  rcases hhistory with h | ⟨n, h⟩
  · exact absurd h (List.cons_ne_nil _ _)
  · exact absurd (List.cons.inj h).1 (by decide)

/-- A tune of the NCO of one converter, with a command time for both channels. -/
def tuneOf (c : RfdcType) : Tune := ⟨fun _ => TimeSpec.ofSecs 1, fun _ => false, fun c' => c' = c⟩

end Runs

end ZbxSyncExpert
end Usrp
end UhdHost
