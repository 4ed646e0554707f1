import Mathlib.Data.List.Dedup
import Mathlib.Data.List.Iterate
import Mathlib.Data.Nat.ModEq
import UhdHost.Rfnoc.PropertyPropagation

/-!
# The walk of a pass

A pass over the sorted nodes begins at the initial node, heading forward, and turns at both
ends.  Seen from the turns, the walk goes around a circle: the nodes from the first to the last
heading forward, and the nodes between them heading back.  `cursorAt` names the places of the
circle by their number, and a step of the walk is one place on (`next_cursorAt`), also where
there are only one or two nodes.

One time around from any node that is headed for forward therefore comes through each place of
the circle once, and meets the initial node heading forward only at its end.  That is a full
pass (`FullPass`), and `passLoop_eq` says that the loop of `_resolve_all_properties` does
nothing but up to two of them.  The bound on the number of visits plays no part in it.
-/

namespace UhdHost
namespace Rfnoc
namespace Propagation

open Stateful

/-! ## The circle -/

/-- How many places the circle has. -/
def period (size : ℕ) : ℕ := if size = 1 then 1 else 2 * (size - 1)

/-- The places of the circle: the nodes heading forward, then those between heading back. -/
def cursorAt (size phase : ℕ) : Cursor :=
  if phase < size then { pos := phase }
  else { pos := 2 * (size - 1) - phase, forwardDir := false }

variable {size phase i j k : ℕ}

theorem period_pos (hsize : 0 < size) : 0 < period size := by
  rw [period]
  split_ifs <;> omega

theorem lt_period (hphase : phase < size) : phase < period size := by
  rw [period]
  split_ifs <;> omega

theorem cursorAt_of_lt (h : phase < size) : cursorAt size phase = { pos := phase } := if_pos h

theorem cursorAt_of_le (h : size ≤ phase) :
    cursorAt size phase = { pos := 2 * (size - 1) - phase, forwardDir := false } :=
  if_neg (Nat.not_lt.mpr h)

theorem pos_cursorAt_lt (hsize : 0 < size) (phase : ℕ) : (cursorAt size phase).pos < size := by
  rcases Nat.lt_or_ge phase size with hlt | hge
  · rw [cursorAt_of_lt hlt]
    exact hlt
  · rw [cursorAt_of_le hge]
    show 2 * (size - 1) - phase < size
    omega

theorem next_forward (h : i + 1 < size) :
    Cursor.next size { pos := i } = { pos := i + 1 } := by
  simp only [Cursor.next, if_true, Nat.ne_of_lt h, if_false]

theorem next_last (hsize : 1 < size) (h : i + 1 = size) :
    Cursor.next size { pos := i } = { pos := i - 1, forwardDir := decide (i - 1 = 0) } := by
  simp only [Cursor.next, if_true, h, Bool.false_eq_true, if_false, hsize]

theorem next_back (hsize : 1 < size) (i : ℕ) :
    Cursor.next size { pos := i, forwardDir := false } =
      { pos := i - 1, forwardDir := decide (i - 1 = 0) } := by
  simp only [Cursor.next, Bool.false_eq_true, if_false, hsize, if_true]

theorem next_cursorAt (hsize : 0 < size) (h : phase < period size) :
    (cursorAt size phase).next size = cursorAt size ((phase + 1) % period size) := by
  by_cases hone : size = 1
  · subst hone
    have hzero : phase = 0 := Nat.lt_one_iff.mp h
    subst hzero
    rfl
  have htwo : 1 < size := by omega
  rw [period, if_neg hone] at h ⊢
  rcases Nat.lt_trichotomy (phase + 1) size with hlt | hend | hgt
  · rw [Nat.mod_eq_of_lt (by omega), cursorAt_of_lt (by omega), cursorAt_of_lt hlt,
      next_forward hlt]
  · rw [cursorAt_of_lt (by omega), next_last htwo hend]
    by_cases hshort : size = 2
    · subst hshort
      have hphase : phase = 1 := by omega
      subst hphase
      rfl
    · rw [Nat.mod_eq_of_lt (by omega), cursorAt_of_le (by omega), Cursor.mk.injEq,
        decide_eq_false_iff_not]
      omega
  · rw [cursorAt_of_le (by omega), next_back htwo]
    by_cases hfirst : phase + 1 = 2 * (size - 1)
    · rw [hfirst, Nat.mod_self, cursorAt_of_lt hsize, Cursor.mk.injEq, decide_eq_true_iff]
      omega
    · rw [Nat.mod_eq_of_lt (by omega), cursorAt_of_le (by omega), Cursor.mk.injEq,
        decide_eq_false_iff_not]
      omega

theorem cursorAt_injective (hi : i < period size) (hj : j < period size)
    (h : cursorAt size i = cursorAt size j) : i = j := by
  rw [period] at hi hj
  rw [cursorAt, cursorAt] at h
  split_ifs at h hi hj
  all_goals rw [Cursor.mk.injEq] at h
  all_goals obtain ⟨hpos, hdir⟩ := h
  all_goals first
    | omega
    | cases hdir

theorem cursorAt_eq_forward_iff (hsize : i < size) (hphase : phase < period size) :
    cursorAt size phase = { pos := i } ↔ phase = i := by
  rw [← cursorAt_of_lt hsize]
  exact ⟨cursorAt_injective hphase (lt_period hsize), congrArg _⟩

/-! ## Once around -/

/-- The places that the walk comes through from one of them on. -/
def circuit (size start : ℕ) : List Cursor :=
  List.iterate (Cursor.next size) (cursorAt size start) (period size)

theorem iterate_next (hsize : 0 < size) (hphase : phase < period size) (k : ℕ) :
    (Cursor.next size)^[k] (cursorAt size phase) = cursorAt size ((phase + k) % period size) := by
  induction k generalizing phase with
  | zero => rw [Function.iterate_zero_apply, Nat.add_zero, Nat.mod_eq_of_lt hphase]
  | succ k ih =>
    rw [Function.iterate_succ_apply, next_cursorAt hsize hphase,
      ih (Nat.mod_lt _ (period_pos hsize)), Nat.mod_add_mod, Nat.add_right_comm, Nat.add_assoc]

theorem count_circuit (hsize : 0 < size) (hi : i < period size) (hphase : phase < period size) :
    (circuit size i).count (cursorAt size phase) = 1 := by
  have hget : ∀ k, k < period size →
      (circuit size i)[k]? = some (cursorAt size ((i + k) % period size)) := by
    intro k hk
    rw [circuit, List.getElem?_iterate _ _ _ _ hk, iterate_next hsize hi]
  have hlength : (circuit size i).length = period size := List.length_iterate _ _ _
  refine List.count_eq_one_of_mem ?_ ?_
  · rw [List.nodup_iff_getElem?_ne_getElem?]
    intro j k hjk hk heq
    rw [hlength] at hk
    rw [hget j (hjk.trans hk), hget k hk, Option.some_inj] at heq
    have hmod := cursorAt_injective (Nat.mod_lt _ (period_pos hsize))
      (Nat.mod_lt _ (period_pos hsize)) heq
    have hjk' : j ≡ k [MOD period size] := Nat.ModEq.add_left_cancel' i hmod
    exact hjk.ne (Nat.ModEq.eq_of_lt_of_lt hjk' (hjk.trans hk) hk)
  · rcases Nat.le_total i phase with hle | hle
    · refine List.mem_of_getElem? (i := phase - i) ?_
      rw [hget _ (by omega), Nat.add_sub_cancel' hle, Nat.mod_eq_of_lt hphase]
    · rcases hle.eq_or_lt with rfl | hlt
      · refine List.mem_of_getElem? (i := 0) ?_
        rw [hget _ (period_pos hsize), Nat.add_zero, Nat.mod_eq_of_lt hphase]
      · refine List.mem_of_getElem? (i := phase + period size - i) ?_
        rw [hget _ (by omega), Nat.add_sub_cancel' (by omega), Nat.add_mod_right,
          Nat.mod_eq_of_lt hphase]

/-! ## Full passes -/

section Passes

variable {ν T V σ : Type} [DecidableEq ν] [DecidableEq T] [DecidableEq V]

/-- **A full pass** over sorted nodes from the initial node on: the nodes in the order in which
they are visited, each with whether the walk heads forward.  The first and the last node are
visited once, and each node between them twice, once in each direction. -/
structure FullPass (sorted : List ν) (initialNode : ν) (pass : List (ν × Bool)) : Prop where
  begins : pass.head? = some (initialNode, true)
  mem : ∀ leg ∈ pass, leg.1 ∈ sorted
  ends : ∀ n, sorted.head? = some n ∨ sorted.getLast? = some n → (pass.map Prod.fst).count n = 1
  between : ∀ n ∈ sorted, sorted.head? ≠ some n → sorted.getLast? ≠ some n →
    pass.count (n, true) = 1 ∧ pass.count (n, false) = 1

/-- The nodes are visited one after the other.  Yields the visits, and whether a resolution that
a node's own change triggered found nothing dirty any more. -/
def visitNodes (top : Topology ν) (context : ResolveContext) (forward : Bool) :
    List ν → GraphM ν T V σ (List (Visit ν) × Bool)
  | [] => pure ([], false)
  | n :: rest => do
    visit top ⟨forward, n⟩
    let nodes ← get
    if context = .nodeProp ∧ findDirtyNodes top nodes = [] then pure ([⟨forward, n⟩], true)
    else do
      let (visits, ended) ← visitNodes top context forward rest
      pure (⟨forward, n⟩ :: visits, ended)

/-- Up to so many passes over the same nodes, as long as something is dirty after them. -/
def passes (top : Topology ν) (context : ResolveContext) (forward : Bool) (pass : List ν) :
    ℕ → GraphM ν T V σ (List (Visit ν))
  | 0 => pure []
  | more + 1 => do
    let (visits, ended) ← visitNodes top context forward pass
    let nodes ← get
    if ended = true ∨ findDirtyNodes top nodes = [] then pure visits
    else do
      let later ← passes top context forward pass more
      pure (visits ++ later)

/-- The passes, and the check that follows them. -/
def checkedPasses (top : Topology ν) (context : ResolveContext) (forward : Bool)
    (pass : List ν) : GraphM ν T V σ (List (Visit ν)) := do
  let visits ← passes top context forward pass maxNumIterations
  let nodes ← get
  if findDirtyNodes top nodes = [] then pure visits
  else throw (.resolveError "Could not resolve properties.")

variable {top : Topology ν} {context : ResolveContext} {sorted : List ν} {initialNode : ν}
  {forward : Bool}

/-- The node at a place of the walk, and the direction there. -/
def legAt (sorted : List ν) (c : Cursor) : Option (ν × Bool) :=
  sorted[c.pos]?.map fun n => (n, c.forwardDir)

/-- The walk is back at the initial node, heading forward. -/
def FullCircle (sorted : List ν) (initialNode : ν) (c : Cursor) : Prop :=
  c.forwardDir = true ∧ sorted[c.pos]? = some initialNode

instance (sorted : List ν) (initialNode : ν) (c : Cursor) :
    Decidable (FullCircle sorted initialNode c) := inferInstanceAs (Decidable (_ ∧ _))

/-- What the loop does once a pass is over. -/
def afterPass (top : Topology ν) (next : GraphM ν T V σ (List (Visit ν))) (numIterations : ℕ)
    (r : List (Visit ν) × Bool) : GraphM ν T V σ (List (Visit ν)) := do
  let nodes ← get
  if r.2 = true ∨ numIterations + 1 = maxNumIterations ∨ findDirtyNodes top nodes = [] then
    pure r.1
  else do
    let visits ← next
    pure (r.1 ++ visits)

omit [DecidableEq ν] [DecidableEq T] [DecidableEq V] in
theorem afterPass_cons (next : GraphM ν T V σ (List (Visit ν))) (numIterations : ℕ) (v : Visit ν)
    (r : List (Visit ν) × Bool) :
    (do let visits ← afterPass top next numIterations r; pure (v :: visits)) =
      afterPass top next numIterations (v :: r.1, r.2) := by
  rw [afterPass, afterPass, bind_assoc]
  refine congrArg (get >>= ·) (funext fun nodes => ?_)
  by_cases hend : r.2 = true ∨ numIterations + 1 = maxNumIterations ∨ findDirtyNodes top nodes = []
  · rw [if_pos hend, if_pos hend, pure_bind]
  · rw [if_neg hend, if_neg hend, bind_assoc]
    exact congrArg (next >>= ·) (funext fun visits => pure_bind _ _)

theorem passLoop_apply {c : Cursor} {n : ν} (hn : sorted[c.pos]? = some n)
    {nodes mid : ν → Node T V σ} (hvisit : visit top ⟨forward, n⟩ nodes = .ok () mid)
    (fuel numIterations : ℕ) :
    passLoop top context sorted initialNode forward (fuel + 1) c numIterations nodes =
      (if context = .nodeProp ∧ findDirtyNodes top mid = [] then pure [⟨forward, n⟩]
      else if FullCircle sorted initialNode (c.next sorted.length) then
        (if numIterations + 1 = maxNumIterations ∨ findDirtyNodes top mid = [] then
          pure [⟨forward, n⟩]
        else do
          let visits ← passLoop top context sorted initialNode forward fuel
            (c.next sorted.length) (numIterations + 1)
          pure (⟨forward, n⟩ :: visits))
      else do
        let visits ← passLoop top context sorted initialNode forward fuel
          (c.next sorted.length) numIterations
        pure (⟨forward, n⟩ :: visits) : GraphM ν T V σ (List (Visit ν))) mid := by
  rw [passLoop]
  simp only [hn]
  exact (bind_of_ok hvisit _).trans rfl

theorem passLoop_apply_error {c : Cursor} {n : ν} (hn : sorted[c.pos]? = some n)
    {nodes mid : ν → Node T V σ} {e : UhdError}
    (hvisit : visit top ⟨forward, n⟩ nodes = .error e mid) (fuel numIterations : ℕ) :
    passLoop top context sorted initialNode forward (fuel + 1) c numIterations nodes =
      .error e mid := by
  rw [passLoop]
  simp only [hn]
  exact bind_of_error hvisit _

theorem visitNodes_apply {n : ν} {rest : List ν} {nodes mid : ν → Node T V σ}
    (hvisit : visit top ⟨forward, n⟩ nodes = .ok () mid)
    (f : List (Visit ν) × Bool → GraphM ν T V σ (List (Visit ν))) :
    (visitNodes top context forward (n :: rest) >>= f) nodes =
      (if context = .nodeProp ∧ findDirtyNodes top mid = [] then f ([⟨forward, n⟩], true)
      else do
        let r ← visitNodes top context forward rest
        f (⟨forward, n⟩ :: r.1, r.2)) mid := by
  rw [visitNodes, bind_assoc, bind_of_ok hvisit, bind_assoc]
  show ((if context = .nodeProp ∧ findDirtyNodes top mid = [] then _ else _) >>= f) mid = _
  split_ifs
  · rw [pure_bind]
  · rw [bind_assoc]
    exact congrArg (fun g => (visitNodes top context forward rest >>= g) mid)
      (funext fun r => pure_bind _ _)

theorem visitNodes_apply_error {n : ν} {rest : List ν} {nodes mid : ν → Node T V σ} {e : UhdError}
    (hvisit : visit top ⟨forward, n⟩ nodes = .error e mid)
    (f : List (Visit ν) × Bool → GraphM ν T V σ (List (Visit ν))) :
    (visitNodes top context forward (n :: rest) >>= f) nodes = .error e mid := by
  rw [visitNodes, bind_assoc, bind_of_error hvisit]

/-- **The loop until the walk is back.**  Where the places until then are on nodes and only the
last is a full circle, the loop visits their nodes and does what comes after a pass. -/
theorem passLoop_eq_afterPass (k : ℕ) (c : Cursor) (nodesOf : List ν) (fuel numIterations : ℕ)
    (hnodes : (List.iterate (Cursor.next sorted.length) c (k + 1)).map (fun c => sorted[c.pos]?) =
      nodesOf.map some)
    (hback : ∀ j, 0 < j → j < k + 1 →
      ¬ FullCircle sorted initialNode ((Cursor.next sorted.length)^[j] c))
    (hend : FullCircle sorted initialNode ((Cursor.next sorted.length)^[k + 1] c)) :
    (passLoop top context sorted initialNode forward (fuel + (k + 1)) c numIterations :
        GraphM ν T V σ (List (Visit ν))) =
      visitNodes top context forward nodesOf >>= afterPass top
        (passLoop top context sorted initialNode forward fuel
          ((Cursor.next sorted.length)^[k + 1] c) (numIterations + 1)) numIterations := by
  induction k generalizing c nodesOf with
  | zero =>
    cases nodesOf with
    | nil => exact absurd hnodes (List.cons_ne_nil _ _)
    | cons n rest =>
      obtain ⟨hn, hrest⟩ := List.cons.inj hnodes
      have hnil : rest = [] := List.map_eq_nil_iff.mp hrest.symm
      subst hnil
      funext nodes
      cases hvisit : visit top ⟨forward, n⟩ nodes with
      | error e mid => rw [passLoop_apply_error hn hvisit, visitNodes_apply_error hvisit]
      | ok u mid =>
        have hcircle : FullCircle sorted initialNode (c.next sorted.length) := hend
        rw [passLoop_apply hn hvisit, visitNodes_apply hvisit, if_pos hcircle]
        split_ifs with hearly hlast
        · rfl
        · rw [visitNodes, pure_bind]
          show _ = (if false = true ∨ _ then _ else _ : GraphM ν T V σ (List (Visit ν))) mid
          rw [if_pos (Or.inr hlast)]
        · rw [visitNodes, pure_bind]
          show _ = (if false = true ∨ _ then _ else _ : GraphM ν T V σ (List (Visit ν))) mid
          rw [if_neg (fun h => hlast (h.resolve_left Bool.false_ne_true))]
          rfl
  | succ k ih =>
    cases nodesOf with
    | nil => exact absurd hnodes (List.cons_ne_nil _ _)
    | cons n rest =>
      obtain ⟨hn, hrest⟩ := List.cons.inj hnodes
      have hmore := ih (c.next sorted.length) rest hrest
        (fun j hj hjk => hback (j + 1) (Nat.succ_pos j) (Nat.succ_lt_succ hjk)) hend
      have hnot : ¬ FullCircle sorted initialNode (c.next sorted.length) :=
        hback 1 Nat.one_pos (by omega)
      funext nodes
      cases hvisit : visit top ⟨forward, n⟩ nodes with
      | error e mid =>
        rw [← Nat.add_assoc fuel, passLoop_apply_error hn hvisit, visitNodes_apply_error hvisit]
      | ok u mid =>
        rw [← Nat.add_assoc fuel, passLoop_apply hn hvisit, visitNodes_apply hvisit, if_neg hnot]
        split_ifs
        · rfl
        · rw [hmore, bind_assoc]
          exact congrArg (fun g => (visitNodes top context forward rest >>= g) mid)
            (funext fun r => afterPass_cons _ _ _ _)

/-! ## The pass over sorted nodes -/

/-- The nodes that the walk comes through once around from the initial node, with directions. -/
def fullPass (sorted : List ν) (initialNode : ν) : List (ν × Bool) :=
  (circuit sorted.length (sorted.idxOf initialNode)).filterMap (legAt sorted)

theorem exists_of_mem_circuit {c : Cursor} (hsize : 0 < size) (hi : i < period size)
    (hc : c ∈ circuit size i) : ∃ phase < period size, c = cursorAt size phase := by
  obtain ⟨k, hk⟩ := List.mem_iff_getElem?.mp hc
  have hlt : k < period size := by
    have hlen := (List.getElem?_eq_some_iff.mp hk).1
    rwa [circuit, List.length_iterate] at hlen
  rw [circuit, List.getElem?_iterate _ _ _ _ hlt, iterate_next hsize hi, Option.some_inj] at hk
  exact ⟨_, Nat.mod_lt _ (period_pos hsize), hk.symm⟩

omit [DecidableEq ν] in
theorem legAt_of_lt {c : Cursor} (h : c.pos < sorted.length) :
    legAt sorted c = some (sorted[c.pos], c.forwardDir) := by
  rw [legAt, List.getElem?_eq_getElem h, Option.map_some]

omit [DecidableEq ν] in
theorem map_node_legAt {cs : List Cursor} (h : ∀ c ∈ cs, c.pos < sorted.length) :
    cs.map (fun c => sorted[c.pos]?) =
      ((cs.filterMap (legAt sorted)).map Prod.fst).map some := by
  induction cs with
  | nil => rfl
  | cons c cs ih =>
    have hlt := h c List.mem_cons_self
    rw [List.filterMap_cons_some (legAt_of_lt hlt), List.map_cons, List.map_cons, List.map_cons,
      List.getElem?_eq_getElem hlt, ih fun c hc => h c (List.mem_cons_of_mem _ hc)]

theorem count_legAt {cs : List Cursor} (h : ∀ c ∈ cs, c.pos < sorted.length)
    (hnodup : sorted.Nodup) {n : ν} (hn : sorted[j]? = some n) (dir : Bool) :
    (cs.filterMap (legAt sorted)).count (n, dir) = cs.count { pos := j, forwardDir := dir } := by
  induction cs with
  | nil => rfl
  | cons c cs ih =>
    have hlt := h c List.mem_cons_self
    have hiff : ((sorted[c.pos], c.forwardDir) == (n, dir)) =
        (c == { pos := j, forwardDir := dir }) := by
      obtain ⟨hj, hjn⟩ := List.getElem?_eq_some_iff.mp hn
      rw [Bool.eq_iff_iff, beq_iff_eq, beq_iff_eq, Prod.mk.injEq, ← hjn]
      constructor
      · rintro ⟨hnode, hdir⟩
        have hpos := (hnodup.getElem_inj_iff).mp hnode
        rw [← hpos, ← hdir]
      · intro hc
        subst hc
        exact ⟨rfl, rfl⟩
    rw [List.filterMap_cons_some (legAt_of_lt hlt), List.count_cons, List.count_cons, hiff,
      ih fun c hc => h c (List.mem_cons_of_mem _ hc)]

theorem count_fst (legs : List (ν × Bool)) (n : ν) :
    (legs.map Prod.fst).count n = legs.count (n, true) + legs.count (n, false) := by
  induction legs with
  | nil => rfl
  | cons leg legs ih =>
    obtain ⟨m, dir⟩ := leg
    rw [List.map_cons, List.count_cons, List.count_cons, List.count_cons, ih]
    by_cases hm : m = n
    · subst hm
      cases dir <;> simp <;> omega
    · simp [hm]

theorem count_back_eq_zero (hsize : 0 < size) (hi : i < period size)
    (hj : j = 0 ∨ j + 1 = size) :
    (circuit size i).count { pos := j, forwardDir := false } = 0 := by
  refine List.count_eq_zero_of_not_mem fun hmem => ?_
  obtain ⟨phase, hphase, heq⟩ := exists_of_mem_circuit hsize hi hmem
  rw [period] at hphase
  rw [cursorAt] at heq
  split_ifs at heq hphase
  all_goals rw [Cursor.mk.injEq] at heq
  all_goals obtain ⟨hpos, hdir⟩ := heq
  all_goals first
    | omega
    | cases hdir

theorem count_forward (hi : i < period size) (hj : j < size) :
    (circuit size i).count { pos := j } = 1 := by
  rw [← cursorAt_of_lt hj]
  exact count_circuit (by omega) hi (lt_period hj)

theorem count_back (hi : i < period size) (hj : 0 < j) (hlast : j + 1 < size) :
    (circuit size i).count { pos := j, forwardDir := false } = 1 := by
  have hplace : cursorAt size (2 * (size - 1) - j) = { pos := j, forwardDir := false } := by
    rw [cursorAt_of_le (by omega), Cursor.mk.injEq]
    exact ⟨by omega, rfl⟩
  rw [← hplace]
  refine count_circuit (by omega) hi ?_
  rw [period, if_neg (by omega)]
  omega

theorem fullPass_spec (hnodup : sorted.Nodup) (hmem : initialNode ∈ sorted) :
    FullPass sorted initialNode (fullPass sorted initialNode) := by
  have hidx : sorted.idxOf initialNode < sorted.length := List.idxOf_lt_length_of_mem hmem
  have hsize : 0 < sorted.length := by omega
  have hi := lt_period hidx
  have hpos : ∀ c ∈ circuit sorted.length (sorted.idxOf initialNode), c.pos < sorted.length := by
    intro c hc
    obtain ⟨phase, -, rfl⟩ := exists_of_mem_circuit hsize hi hc
    exact pos_cursorAt_lt hsize phase
  have hcount : ∀ (j : ℕ) (n : ν) (dir : Bool), sorted[j]? = some n →
      (fullPass sorted initialNode).count (n, dir) =
        (circuit sorted.length (sorted.idxOf initialNode)).count
          { pos := j, forwardDir := dir } := fun j n dir hn => count_legAt hpos hnodup hn dir
  constructor
  · obtain ⟨places, hplaces⟩ := Nat.exists_eq_succ_of_ne_zero (period_pos hsize).ne'
    rw [fullPass, circuit, hplaces, List.iterate, cursorAt_of_lt hidx]
    have hleg : legAt sorted { pos := sorted.idxOf initialNode } = some (initialNode, true) := by
      rw [legAt_of_lt hidx, Option.some_inj, Prod.mk.injEq]
      exact ⟨List.getElem_idxOf hidx, rfl⟩
    rw [List.filterMap_cons_some hleg, List.head?_cons]
  · intro leg hleg
    obtain ⟨c, hc, hcleg⟩ := List.mem_filterMap.mp hleg
    rw [legAt_of_lt (hpos c hc), Option.some_inj] at hcleg
    rw [← hcleg]
    exact List.getElem_mem _
  · intro n hn
    have hplace : ∃ j, (j = 0 ∨ j + 1 = sorted.length) ∧ sorted[j]? = some n := by
      rcases hn with hn | hn
      · exact ⟨0, Or.inl rfl, by rw [← List.head?_eq_getElem?, hn]⟩
      · exact ⟨sorted.length - 1, Or.inr (by omega), by rw [← List.getLast?_eq_getElem?, hn]⟩
    obtain ⟨j, hj, hjn⟩ := hplace
    rw [count_fst, hcount j n true hjn, hcount j n false hjn, count_back_eq_zero hsize hi hj,
      count_forward hi (List.getElem?_eq_some_iff.mp hjn).1]
  · intro n hn hfirst hlast
    obtain ⟨j, hj⟩ := List.mem_iff_getElem?.mp hn
    have hlt := (List.getElem?_eq_some_iff.mp hj).1
    have hpos : 0 < j := by
      rcases Nat.eq_zero_or_pos j with rfl | hpos
      · exact absurd ((List.head?_eq_getElem?).trans hj) hfirst
      · exact hpos
    have hend : j + 1 < sorted.length := by
      by_contra hge
      refine hlast ?_
      rw [List.getLast?_eq_getElem?, ← hj]
      congr 1
      omega
    rw [hcount j n true hj, hcount j n false hj]
    exact ⟨count_forward hi hlt, count_back hi hpos hend⟩

/-! ## The traversal -/

theorem Cursor.eq_forward {c : Cursor} (hpos : c.pos = i) (hdir : c.forwardDir = true) :
    c = { pos := i } := by
  obtain ⟨pos, dir⟩ := c
  rw [Cursor.mk.injEq]
  exact ⟨hpos, hdir⟩

theorem passes_succ (pass : List ν) (more : ℕ) :
    (passes top context forward pass (more + 1) : GraphM ν T V σ (List (Visit ν))) =
      visitNodes top context forward pass >>= fun r => get >>= fun nodes =>
        if r.2 = true ∨ findDirtyNodes top nodes = [] then pure r.1
        else passes top context forward pass more >>= fun later => pure (r.1 ++ later) := rfl

theorem afterPass_last (next : GraphM ν T V σ (List (Visit ν))) (pass : List ν) :
    visitNodes top context forward pass >>= afterPass top next 1 =
      passes top context forward pass 1 := by
  rw [passes_succ]
  refine congrArg (visitNodes top context forward pass >>= ·) (funext fun r => ?_)
  refine congrArg (get >>= ·) (funext fun nodes => ?_)
  have hlast : r.2 = true ∨ 1 + 1 = maxNumIterations ∨ findDirtyNodes top nodes = [] :=
    Or.inr (Or.inl rfl)
  rw [if_pos hlast, passes, pure_bind, List.append_nil, ite_self]

theorem passLoop_eq (hnodup : sorted.Nodup) (hmem : initialNode ∈ sorted) (fuel : ℕ) :
    (passLoop top context sorted initialNode forward
        (fuel + period sorted.length + period sorted.length)
        { pos := sorted.idxOf initialNode } 0 : GraphM ν T V σ (List (Visit ν))) =
      passes top context forward ((fullPass sorted initialNode).map Prod.fst)
        maxNumIterations := by
  have hidx : sorted.idxOf initialNode < sorted.length := List.idxOf_lt_length_of_mem hmem
  have hsize : 0 < sorted.length := by omega
  have hi := lt_period hidx
  have hget : sorted[sorted.idxOf initialNode]? = some initialNode := by
    rw [List.getElem?_eq_getElem hidx, List.getElem_idxOf hidx]
  obtain ⟨k, hk⟩ : ∃ k, period sorted.length = k + 1 :=
    Nat.exists_eq_succ_of_ne_zero (period_pos hsize).ne'
  have hstart : cursorAt sorted.length (sorted.idxOf initialNode) =
      { pos := sorted.idxOf initialNode } := cursorAt_of_lt hidx
  -- once around, the walk is back
  have haround : (Cursor.next sorted.length)^[k + 1] { pos := sorted.idxOf initialNode } =
      { pos := sorted.idxOf initialNode } := by
    rw [← hstart, iterate_next hsize hi, hk, Nat.add_mod_right, ← hk, Nat.mod_eq_of_lt hi]
  have hend : FullCircle sorted initialNode
      ((Cursor.next sorted.length)^[k + 1] { pos := sorted.idxOf initialNode }) := by
    rw [haround]
    exact ⟨rfl, hget⟩
  -- and not before
  have hback : ∀ j, 0 < j → j < k + 1 → ¬ FullCircle sorted initialNode
      ((Cursor.next sorted.length)^[j] { pos := sorted.idxOf initialNode }) := by
    intro j hj hjk hcircle
    rw [← hstart, iterate_next hsize hi] at hcircle
    obtain ⟨hdir, hnode⟩ := hcircle
    have hpos : (cursorAt sorted.length
        ((sorted.idxOf initialNode + j) % period sorted.length)).pos =
          sorted.idxOf initialNode := by
      obtain ⟨hlt, hnode⟩ := List.getElem?_eq_some_iff.mp hnode
      exact (hnodup.getElem_inj_iff).mp (hnode.trans (List.getElem_idxOf hidx).symm)
    have hcursor : cursorAt sorted.length
        ((sorted.idxOf initialNode + j) % period sorted.length) =
          { pos := sorted.idxOf initialNode } := Cursor.eq_forward hpos hdir
    have hphase := (cursorAt_eq_forward_iff hidx
      (Nat.mod_lt _ (period_pos hsize))).mp hcursor
    have hmod : sorted.idxOf initialNode + j ≡ sorted.idxOf initialNode + 0
        [MOD period sorted.length] := by
      rw [Nat.ModEq, hphase, Nat.add_zero, Nat.mod_eq_of_lt hi]
    have hzero := Nat.ModEq.eq_of_lt_of_lt (Nat.ModEq.add_left_cancel' _ hmod)
      (hk ▸ hjk) (period_pos hsize)
    omega
  have hnodes : (List.iterate (Cursor.next sorted.length)
      { pos := sorted.idxOf initialNode } (k + 1)).map (fun c => sorted[c.pos]?) =
        ((fullPass sorted initialNode).map Prod.fst).map some := by
    rw [← hstart, ← hk]
    refine map_node_legAt fun c hc => ?_
    obtain ⟨phase, -, rfl⟩ := exists_of_mem_circuit hsize hi hc
    exact pos_cursorAt_lt hsize phase
  have hone : ∀ (fuel numIterations : ℕ), (passLoop top context sorted initialNode forward
      (fuel + (k + 1)) { pos := sorted.idxOf initialNode } numIterations :
        GraphM ν T V σ (List (Visit ν))) =
      visitNodes top context forward ((fullPass sorted initialNode).map Prod.fst) >>=
        afterPass top (passLoop top context sorted initialNode forward fuel
          { pos := sorted.idxOf initialNode } (numIterations + 1)) numIterations := by
    intro fuel numIterations
    rw [passLoop_eq_afterPass k _ _ fuel numIterations hnodes hback hend, haround]
  rw [hk, hone, hone, afterPass_last]
  show _ = passes top context forward _ (1 + 1)
  rw [passes_succ]
  refine congrArg (visitNodes top context forward _ >>= ·) (funext fun r => ?_)
  refine congrArg (get >>= ·) (funext fun nodes => ?_)
  have hiff : (r.2 = true ∨ 0 + 1 = maxNumIterations ∨ findDirtyNodes top nodes = []) ↔
      (r.2 = true ∨ findDirtyNodes top nodes = []) := by
    exact or_congr_right (or_iff_right (by decide))
  rw [if_congr hiff rfl rfl]
  rfl

/-- **The traversal of a pass.**  The topological sort yields each vertex of a graph once, or
finds a cycle.  Where it does, nothing is visited.  Else the walk over the sorted nodes comes to
up to two full passes, a visit that throws or a resolution with nothing dirty left ending it
early; and where it ends normally, no node is dirty. -/
theorem resolveAlong_eq (topoSort : TopologicalSort ν)
    (hsort : ∀ vertices edges sorted, topoSort vertices edges = some sorted →
      sorted.Nodup ∧ ∀ n, n ∈ sorted ↔ n ∈ vertices)
    (top : Topology ν) (context : ResolveContext) (initialNode : ν)
    (hinitial : initialNode ∈ top.vertices) (forward : Bool) :
    (∀ e, getTopoSortedNodes topoSort top = .error e →
      (resolveAlong topoSort top context initialNode forward :
        GraphM ν T V σ (List (Visit ν))) = throw e) ∧
    (∀ sorted, getTopoSortedNodes topoSort top = .ok sorted →
      ∃ pass, FullPass sorted initialNode pass ∧
        (resolveAlong topoSort top context initialNode forward :
            GraphM ν T V σ (List (Visit ν))) =
          checkedPasses top context forward (pass.map Prod.fst)) ∧
    ∀ (nodes nodes' : ν → Node T V σ) (visits : List (Visit ν)),
      Returns (resolveAlong topoSort top context initialNode forward) nodes visits nodes' →
        findDirtyNodes top nodes' = [] := by
  refine ⟨fun e he => ?_, fun sorted hsorted => ?_, fun nodes nodes' visits h =>
    (run_of_resolveAlong h).2⟩
  · rw [resolveAlong, he]
    rfl
  · have hvertices : sorted.Nodup ∧ ∀ n, n ∈ sorted ↔ n ∈ top.vertices := by
      rw [getTopoSortedNodes] at hsorted
      split at hsorted
      · rename_i found hfound
        rw [← Except.ok.inj hsorted]
        exact hsort _ _ _ hfound
      · cases hsorted
    have hmem := (hvertices.2 initialNode).mpr hinitial
    refine ⟨fullPass sorted initialNode, fullPass_spec hvertices.1 hmem, ?_⟩
    have hsize : 0 < sorted.length := List.length_pos_of_mem hmem
    have hfuel : ∃ fuel, maxNumIterations * (2 * sorted.length) + 1 =
        fuel + period sorted.length + period sorted.length := by
      refine ⟨maxNumIterations * (2 * sorted.length) + 1 - 2 * period sorted.length, ?_⟩
      rw [maxNumIterations, period]
      split_ifs <;> omega
    obtain ⟨fuel, hfuel⟩ := hfuel
    rw [resolveAlong, hsorted, orThrow, pure_bind, if_neg (not_not.mpr hmem), hfuel,
      passLoop_eq hvertices.1 hmem]
    rfl

/-- A radio that feeds a streamer. -/
private def radioToStreamer : Topology Bool where
  vertices := [false, true]
  edges := [{ srcBlockid := false, dstBlockid := true }]
  node_mem e he b := by cases b <;> simp
  srcPorts_nodup := List.nodup_singleton _
  dstPorts_nodup := List.nodup_singleton _

/-- From the streamer on, each of the two nodes is visited once in each pass. -/
theorem resolveAlong_radioToStreamer :
    ∃ pass, FullPass [false, true] true pass ∧
      (resolveAlong (fun vertices _ => some vertices.dedup) radioToStreamer .init true true :
          GraphM Bool Bool ℕ Unit (List (Visit Bool))) =
        checkedPasses radioToStreamer .init true (pass.map Prod.fst) :=
  (resolveAlong_eq (fun vertices _ => some vertices.dedup)
    (by
      intro vertices edges sorted hsorted
      rw [← Option.some.inj hsorted]
      exact ⟨List.nodup_dedup vertices, fun n => List.mem_dedup⟩)
    radioToStreamer .init true (by decide) true).2.1 [false, true] rfl

end Passes

end Propagation
end Rfnoc
end UhdHost
