import Mathlib
import UhdHost.Library.Transition
import UhdHost.Transport.OffloadFrames

/-!
# The offload I/O service

`offload_io_service_impl` of `lib/transport/offload_io_service.cpp` with any number of clients
and links: the clients move on their own, and one service thread serves all of them.

## The service thread

It does one thing after the other.  `busy` names the client it is in the middle of something
with, and nothing but the rest of that can happen in the service thread until it is done.
Which client comes next, and whether the link has a frame or the destination is ready, is up
to the run; that covers the polling and the blocking loop in any phase.

## Requests and reservations

Attaching a link and creating a client are requests that the service thread executes in the
order in which they were queued.  A client reserves its frames at its link when it is created
and gives the reservation back when it is let go, as in `frame_reservation_mgr`; a request
that throws there ends the run.  What a client reserves at the link of its flow control is left
out.
-/

namespace UhdHost
namespace Transport

open Transition

variable {κ L : Type}

/-- A queued client request. -/
inductive ServiceRequest (κ L : Type) where
  | attachLink (link : L)
  | makeClient (k : κ)
  deriving DecidableEq, Repr

/-- The service and its clients. -/
structure OffloadIoService (κ L : Type) where
  clients : κ → OffloadClient := fun _ => {}
  /-- The link of each client. -/
  link : κ → Option L := fun _ => none
  /-- `_client_connect_queue` -/
  clientConnectQueue : List (ServiceRequest κ L) := []
  /-- `_recv_tbl`, `_send_tbl`: the number of frames reserved, for attached links -/
  reserved : L → Option ℕ := fun _ => none
  /-- `_recv_clients`, `_send_clients` -/
  listed : List κ := []
  /-- The client the service thread is in the middle of something with. -/
  busy : Option κ := none

/-- What can happen next. -/
inductive ServiceAction (κ L : Type) where
  /-- `attach_recv_link`, `attach_send_link` -/
  | attachLink (link : L)
  /-- `make_recv_client`, `make_send_client` up to the queued request. -/
  | makeClient (k : κ) (sends : Bool) (numFrames : ℕ) (link : L)
  /-- The service thread executes one request. -/
  | executeRequest
  /-- A client moves, or the service thread works for it. -/
  | client (k : κ) (a : OffloadAction)
  deriving DecidableEq, Repr

namespace OffloadIoService

variable [DecidableEq κ] [DecidableEq L]

/-- `reserve_frames`, for one link. -/
def reserveFrames (capacity : L → ℕ) (reserved : L → Option ℕ) (link : L) (numFrames : ℕ) :
    Option (L → Option ℕ) :=
  match reserved link with
  | none => none
  | some rsvdFrames =>
    if rsvdFrames + numFrames > capacity link then none
    else some (Function.update reserved link (some (rsvdFrames + numFrames)))

/-- `unreserve_frames`, for one link. -/
def unreserveFrames (reserved : L → Option ℕ) (link : L) (numFrames : ℕ) :
    Option (L → Option ℕ) :=
  match reserved link with
  | none => none
  | some rsvdFrames => some (Function.update reserved link (some (rsvdFrames - numFrames)))

/-- The service thread executes a request. -/
def executeRequest (capacity : L → ℕ) (s : OffloadIoService κ L) :
    ServiceRequest κ L → Option (OffloadIoService κ L)
  | .attachLink link =>
    -- `register_link` throws for a link that is in use
    if (s.reserved link).getD 0 = 0 then
      some { s with reserved := Function.update s.reserved link (some 0) }
    else none
  | .makeClient k =>
    match s.link k, (s.clients k).step .connect with
    | some link, some p =>
      match reserveFrames capacity s.reserved link p.numFrames with
      | some reserved =>
        some { s with
          clients := Function.update s.clients k p
          reserved := reserved
          listed := s.listed ++ [k] }
      | none => none
    | _, _ => none

/-- A client is as it is after a step. -/
def moved (s : OffloadIoService κ L) (k : κ) (a : OffloadAction) (p : OffloadClient) :
    OffloadIoService κ L :=
  { s with
    clients := Function.update s.clients k p
    busy := if a.ofServiceThread then (if p.work = .idle then none else some k) else s.busy }

/-- One step of the service. -/
def step (capacity : L → ℕ) (s : OffloadIoService κ L) :
    ServiceAction κ L → Option (OffloadIoService κ L)
  | .attachLink link =>
    some { s with clientConnectQueue := s.clientConnectQueue ++ [.attachLink link] }
  | .makeClient k sends numFrames link =>
    match (s.clients k).step (.create sends numFrames) with
    | some p =>
      some { s with
        clients := Function.update s.clients k p
        link := Function.update s.link k (some link)
        clientConnectQueue := s.clientConnectQueue ++ [.makeClient k] }
    | none => none
  | .executeRequest =>
    match s.busy, s.clientConnectQueue with
    | none, request :: rest =>
      executeRequest capacity { s with clientConnectQueue := rest } request
    | _, _ => none
  | .client k a =>
    if a.ofRequest = true ∨ (a.ofServiceThread = true ∧ s.busy ≠ none ∧ s.busy ≠ some k) then none
    else
      match (s.clients k).step a with
      | none => none
      | some p =>
        if (s.clients k).listed = true ∧ p.listed = false then
          -- the client is let go: `_disconnect_recv_client`, `_disconnect_send_client`
          match s.link k with
          | none => none
          | some link =>
            (unreserveFrames s.reserved link p.numFrames).map fun reserved =>
              { s.moved k a p with reserved := reserved, listed := s.listed.erase k }
        else some (s.moved k a p)

/-- The clients of a link, in the order of the service thread. -/
def clientsOf (s : OffloadIoService κ L) (link : L) : List κ :=
  s.listed.filter fun k => s.link k = some link

/-- What the clients of a link have reserved. -/
def demand (s : OffloadIoService κ L) (link : L) : ℕ :=
  ((s.clientsOf link).map fun k => (s.clients k).numFrames).sum

/-- How many frames of a link are not on the link. -/
def outsideOf (s : OffloadIoService κ L) (link : L) : ℕ :=
  ((s.clientsOf link).map fun k => (s.clients k).outside.length).sum

/-- The invariant of the service. -/
structure ServiceInv (capacity : L → ℕ) (s : OffloadIoService κ L) : Prop where
  clients : ∀ k, (s.clients k).OffloadInv
  nodup : s.listed.Nodup
  listed : ∀ k, k ∈ s.listed ↔ (s.clients k).listed = true
  reserved : ∀ link, (s.reserved link).getD 0 = s.demand link
  capacity : ∀ link, s.demand link ≤ capacity link

variable {capacity : L → ℕ} {s t : OffloadIoService κ L}

omit [DecidableEq κ] in
theorem serviceInv_start (capacity : L → ℕ) :
    ServiceInv capacity ({} : OffloadIoService κ L) where
  clients _ := OffloadClient.offloadInv_absent
  nodup := List.nodup_nil
  listed _ := ⟨fun h => absurd h List.not_mem_nil, fun h => nomatch h⟩
  reserved _ := rfl
  capacity _ := Nat.zero_le _

/-! ## Reservations -/

theorem reserveFrames_eq_some {reserved reserved' : L → Option ℕ} {link : L} {numFrames : ℕ}
    (h : reserveFrames capacity reserved link numFrames = some reserved') :
    (reserved link).getD 0 + numFrames ≤ capacity link ∧ ∀ l, (reserved' l).getD 0 =
      (reserved l).getD 0 + (if link = l then numFrames else 0) := by
  rw [reserveFrames] at h
  split at h
  · cases h
  · rename_i rsvdFrames hr
    split_ifs at h with hle
    rw [Option.some_inj] at h
    refine ⟨by rw [hr]; exact Nat.not_lt.mp hle, fun l => ?_⟩
    rw [← h]
    by_cases hl : link = l
    · rw [← hl, Function.update_self, if_pos rfl, hr]
      rfl
    · rw [Function.update_of_ne (Ne.symm hl), if_neg hl, Nat.add_zero]

theorem unreserveFrames_eq_some {reserved reserved' : L → Option ℕ} {link : L} {numFrames : ℕ}
    (h : unreserveFrames reserved link numFrames = some reserved') (l : L) :
    (reserved' l).getD 0 = (reserved l).getD 0 - (if link = l then numFrames else 0) := by
  rw [unreserveFrames] at h
  split at h
  · cases h
  · rename_i rsvdFrames hr
    rw [Option.some_inj] at h
    rw [← h]
    by_cases hl : link = l
    · rw [← hl, Function.update_self, if_pos rfl, hr]
      rfl
    · rw [Function.update_of_ne (Ne.symm hl), if_neg hl, Nat.sub_zero]

/-! ## What is reserved at a link -/

omit [DecidableEq κ] in
theorem demand_congr {s t : OffloadIoService κ L} (hlisted : t.listed = s.listed)
    (h : ∀ k ∈ s.listed, t.link k = s.link k ∧ (t.clients k).numFrames = (s.clients k).numFrames)
    (link : L) : t.demand link = s.demand link := by
  have hclients : t.clientsOf link = s.clientsOf link := by
    rw [clientsOf, clientsOf, hlisted]
    exact List.filter_congr fun k hk => by rw [(h k hk).1]
  rw [demand, demand, hclients]
  refine congrArg List.sum (List.map_congr_left fun k hk => ?_)
  exact (h k (List.mem_of_mem_filter hk)).2

theorem demand_concat {k : κ} (p : OffloadClient) (reserved : L → Option ℕ) {klink : L}
    (hlink : s.link k = some klink) (hk : k ∉ s.listed) (link : L) :
    demand { s with
      clients := Function.update s.clients k p
      reserved := reserved
      listed := s.listed ++ [k] } link =
      s.demand link + (if klink = link then p.numFrames else 0) := by
  have hold : ((s.clientsOf link).map fun j => (Function.update s.clients k p j).numFrames) =
      (s.clientsOf link).map fun j => (s.clients j).numFrames := by
    refine List.map_congr_left fun j hj => ?_
    have hne : j ≠ k := fun h => hk (h ▸ List.mem_of_mem_filter hj)
    rw [Function.update_of_ne hne]
  have hclients : clientsOf { s with
      clients := Function.update s.clients k p
      reserved := reserved
      listed := s.listed ++ [k] } link =
      s.clientsOf link ++ (if klink = link then [k] else []) := by
    rw [clientsOf, List.filter_append]
    refine congrArg (s.clientsOf link ++ ·) ?_
    by_cases hl : klink = link <;> simp [hlink, hl]
  rw [demand, hclients, List.map_append, List.sum_append]
  show ((s.clientsOf link).map fun j => (Function.update s.clients k p j).numFrames).sum + _ = _
  rw [hold, demand]
  split_ifs
  · rw [List.map_singleton, List.sum_singleton]
    show _ + (Function.update s.clients k p k).numFrames = _
    rw [Function.update_self]
  · rfl

theorem demand_erase {k : κ} {klink : L} (hlink : s.link k = some klink) (hk : k ∈ s.listed)
    (link : L) :
    demand { s with listed := s.listed.erase k } link +
      (if klink = link then (s.clients k).numFrames else 0) = s.demand link := by
  have hperm := (List.perm_cons_erase hk).filter fun j => s.link j = some link
  have hsum := (hperm.map fun j => (s.clients j).numFrames).sum_eq
  rw [demand, demand, clientsOf, clientsOf, hsum, List.filter_cons]
  by_cases hl : klink = link
  · rw [if_pos hl, if_pos (by rw [hlink, hl]; exact decide_eq_true rfl), List.map_cons,
      List.sum_cons]
    exact Nat.add_comm ..
  · rw [if_neg hl, if_neg (by simp [hlink, hl])]
    rfl

/-! ## Steps -/

omit [DecidableEq κ] in
theorem ServiceInv.attachLink (h : ServiceInv capacity s) {link : L}
    (hfree : (s.reserved link).getD 0 = 0) :
    ServiceInv capacity { s with reserved := Function.update s.reserved link (some 0) } where
  clients := h.clients
  nodup := h.nodup
  listed := h.listed
  capacity := h.capacity
  reserved l := by
    show (Function.update s.reserved link (some 0) l).getD 0 = s.demand l
    rw [← h.reserved l]
    by_cases hl : l = link
    · rw [hl, Function.update_self, hfree]
      rfl
    · rw [Function.update_of_ne hl]

theorem ServiceInv.makeClient (h : ServiceInv capacity s) {k : κ} {sends : Bool}
    {numFrames : ℕ} {p : OffloadClient}
    (hp : (s.clients k).step (.create sends numFrames) = some p) (link : L)
    (requests : List (ServiceRequest κ L)) :
    ServiceInv capacity { s with
      clients := Function.update s.clients k p
      link := Function.update s.link k (some link)
      clientConnectQueue := requests } := by
  have habsent : (s.clients k).phase = .absent ∧ p.listed = false := by
    rw [OffloadClient.step] at hp
    split_ifs at hp with hcond
    rw [Option.some_inj] at hp
    exact ⟨hcond.1, hp ▸ rfl⟩
  have hold : (s.clients k).listed = false := (h.clients k).listed_eq_false habsent.1 (by decide)
  have hk : k ∉ s.listed := fun hk =>
    absurd (hold.symm.trans ((h.listed k).mp hk)) Bool.false_ne_true
  have hdemand : ∀ l, demand { s with
      clients := Function.update s.clients k p
      link := Function.update s.link k (some link)
      clientConnectQueue := requests } l = s.demand l := by
    refine demand_congr rfl fun j hj => ?_
    have hne : j ≠ k := fun hjk => hk (hjk ▸ hj)
    exact ⟨Function.update_of_ne hne .., congrArg OffloadClient.numFrames
      (Function.update_of_ne hne ..)⟩
  refine ⟨fun j => ?_, h.nodup, fun j => ?_, fun l => (h.reserved l).trans (hdemand l).symm,
    fun l => (hdemand l).symm ▸ h.capacity l⟩
  · show (Function.update s.clients k p j).OffloadInv
    by_cases hj : j = k
    · rw [hj, Function.update_self]
      exact (h.clients k).step hp
    · rw [Function.update_of_ne hj]
      exact h.clients j
  · show j ∈ s.listed ↔ (Function.update s.clients k p j).listed = true
    by_cases hj : j = k
    · rw [hj, Function.update_self, habsent.2]
      exact iff_of_false hk Bool.false_ne_true
    · rw [Function.update_of_ne hj]
      exact h.listed j

theorem ServiceInv.connect (h : ServiceInv capacity s) {k : κ} {p : OffloadClient}
    (hp : (s.clients k).step .connect = some p) {link : L} (hlink : s.link k = some link)
    {reserved : L → Option ℕ}
    (hreserved : reserveFrames capacity s.reserved link p.numFrames = some reserved) :
    ServiceInv capacity { s with
      clients := Function.update s.clients k p
      reserved := reserved
      listed := s.listed ++ [k] } := by
  have hrequested : (s.clients k).phase = .requested ∧ p.listed = true := by
    rw [OffloadClient.step] at hp
    split_ifs at hp with hcond
    rw [Option.some_inj] at hp
    exact ⟨hcond, hp ▸ rfl⟩
  have hold : (s.clients k).listed = false := (h.clients k).listed_eq_false hrequested.1 (by decide)
  have hk : k ∉ s.listed := fun hk =>
    absurd (hold.symm.trans ((h.listed k).mp hk)) Bool.false_ne_true
  obtain ⟨hroom, hgetD⟩ := reserveFrames_eq_some hreserved
  have hdemand := demand_concat p reserved hlink hk
  refine ⟨fun j => ?_, ?_, fun j => ?_, fun l => ?_, fun l => ?_⟩
  · show (Function.update s.clients k p j).OffloadInv
    by_cases hj : j = k
    · rw [hj, Function.update_self]
      exact (h.clients k).step hp
    · rw [Function.update_of_ne hj]
      exact h.clients j
  · exact List.nodup_append.mpr ⟨h.nodup, List.pairwise_singleton _ k, fun a ha b hb hab =>
      hk (List.mem_singleton.mp hb ▸ hab ▸ ha)⟩
  · show j ∈ s.listed ++ [k] ↔ (Function.update s.clients k p j).listed = true
    rw [List.mem_append, List.mem_singleton]
    by_cases hj : j = k
    · rw [hj, Function.update_self]
      exact iff_of_true (Or.inr rfl) hrequested.2
    · rw [Function.update_of_ne hj, or_iff_left hj]
      exact h.listed j
  · rw [hdemand]
    exact (hgetD l).trans (by rw [h.reserved])
  · rw [hdemand]
    by_cases hl : link = l
    · rw [if_pos hl, ← hl, ← h.reserved]
      exact hroom
    · rw [if_neg hl]
      exact h.capacity l

theorem ServiceInv.moved (h : ServiceInv capacity s) {k : κ} {a : OffloadAction}
    {p : OffloadClient} (hp : (s.clients k).step a = some p) (hrequest : a.ofRequest = false)
    (hlisted : p.listed = (s.clients k).listed) : ServiceInv capacity (s.moved k a p) := by
  obtain ⟨hnum, -⟩ := OffloadClient.step_frame hp hrequest
  have hdemand : ∀ l, (s.moved k a p).demand l = s.demand l := by
    refine demand_congr rfl fun j _ => ⟨rfl, ?_⟩
    show (Function.update s.clients k p j).numFrames = (s.clients j).numFrames
    by_cases hj : j = k
    · rw [hj, Function.update_self, hnum]
    · rw [Function.update_of_ne hj]
  refine ⟨fun j => ?_, h.nodup, fun j => ?_, fun l => (h.reserved l).trans (hdemand l).symm,
    fun l => (hdemand l).symm ▸ h.capacity l⟩
  · show (Function.update s.clients k p j).OffloadInv
    by_cases hj : j = k
    · rw [hj, Function.update_self]
      exact (h.clients k).step hp
    · rw [Function.update_of_ne hj]
      exact h.clients j
  · show j ∈ s.listed ↔ (Function.update s.clients k p j).listed = true
    by_cases hj : j = k
    · rw [hj, Function.update_self, hlisted]
      exact h.listed k
    · rw [Function.update_of_ne hj]
      exact h.listed j

theorem ServiceInv.letGo (h : ServiceInv capacity s) {k : κ} {a : OffloadAction}
    {p : OffloadClient} (hp : (s.clients k).step a = some p) (hrequest : a.ofRequest = false)
    (hlisted : (s.clients k).listed = true) (hunlisted : p.listed = false) {link : L}
    (hlink : s.link k = some link) {reserved : L → Option ℕ}
    (hreserved : unreserveFrames s.reserved link p.numFrames = some reserved) :
    ServiceInv capacity { s.moved k a p with
      reserved := reserved, listed := s.listed.erase k } := by
  obtain ⟨hnum, -⟩ := OffloadClient.step_frame hp hrequest
  have hk : k ∈ s.listed := (h.listed k).mpr hlisted
  have hdemand : ∀ l, demand { s.moved k a p with
      reserved := reserved, listed := s.listed.erase k } l =
      demand { s with listed := s.listed.erase k } l := by
    refine demand_congr rfl fun j hj => ⟨rfl, ?_⟩
    have hne : j ≠ k := fun hjk => h.nodup.not_mem_erase (hjk ▸ hj)
    show (Function.update s.clients k p j).numFrames = (s.clients j).numFrames
    rw [Function.update_of_ne hne]
  have herase := demand_erase hlink hk
  refine ⟨fun j => ?_, h.nodup.erase k, fun j => ?_, fun l => ?_, fun l => ?_⟩
  · show (Function.update s.clients k p j).OffloadInv
    by_cases hj : j = k
    · rw [hj, Function.update_self]
      exact (h.clients k).step hp
    · rw [Function.update_of_ne hj]
      exact h.clients j
  · show j ∈ s.listed.erase k ↔ (Function.update s.clients k p j).listed = true
    by_cases hj : j = k
    · rw [hj, Function.update_self, hunlisted]
      exact iff_of_false h.nodup.not_mem_erase Bool.false_ne_true
    · rw [Function.update_of_ne hj, List.mem_erase_of_ne hj]
      exact h.listed j
  · rw [hdemand]
    refine (unreserveFrames_eq_some hreserved l).trans ?_
    rw [h.reserved, hnum, ← herase l]
    exact Nat.add_sub_cancel ..
  · rw [hdemand]
    exact Nat.le_trans (Nat.le_add_right _ _) ((herase l).le.trans (h.capacity l))

theorem ServiceInv.step (h : ServiceInv capacity s) {a : ServiceAction κ L}
    (hstep : s.step capacity a = some t) : ServiceInv capacity t := by
  cases a with
  | attachLink link =>
    rw [OffloadIoService.step, Option.some_inj] at hstep
    exact hstep ▸ { h with }
  | makeClient k sends numFrames link =>
    rw [OffloadIoService.step] at hstep
    rcases hp : (s.clients k).step (.create sends numFrames) with - | p
    · rw [hp] at hstep
      cases hstep
    · rw [hp, Option.some_inj] at hstep
      exact hstep ▸ h.makeClient hp link _
  | executeRequest =>
    rw [OffloadIoService.step] at hstep
    split at hstep
    case h_2 => cases hstep
    case h_1 request rest _ _ =>
      have hrest : ServiceInv capacity { s with clientConnectQueue := rest } := { h with }
      cases request with
      | attachLink link =>
        rw [executeRequest] at hstep
        split_ifs at hstep with hfree
        rw [Option.some_inj] at hstep
        exact hstep ▸ hrest.attachLink hfree
      | makeClient k =>
        rw [executeRequest] at hstep
        split at hstep
        case h_2 => cases hstep
        case h_1 link p hlink hp =>
          rcases hreserved : reserveFrames capacity s.reserved link p.numFrames with - | reserved
          · rw [hreserved] at hstep
            cases hstep
          · rw [hreserved, Option.some_inj] at hstep
            exact hstep ▸ hrest.connect hp hlink hreserved
  | client k a =>
    rw [OffloadIoService.step] at hstep
    split_ifs at hstep with hguard
    have hrequest : a.ofRequest = false :=
      Bool.eq_false_iff.mpr fun hr => hguard (Or.inl hr)
    rcases hp : (s.clients k).step a with - | p
    · rw [hp] at hstep
      cases hstep
    · simp only [hp] at hstep
      split_ifs at hstep with hgone
      · rcases hlink : s.link k with - | link
        · rw [hlink] at hstep
          cases hstep
        · simp only [hlink] at hstep
          obtain ⟨reserved, hreserved, ht⟩ := Option.map_eq_some_iff.mp hstep
          exact ht ▸ h.letGo hp hrequest hgone.1 hgone.2 hlink hreserved
      · rw [Option.some_inj] at hstep
        refine hstep ▸ h.moved hp hrequest ?_
        have hback := (OffloadClient.step_frame hp hrequest).2
        cases hl : (s.clients k).listed <;> cases hl' : p.listed
        · rfl
        · cases hl.symm.trans (hback hl')
        · exact absurd ⟨hl, hl'⟩ hgone
        · rfl

/-! ## Runs -/

theorem serviceInv_of_run {as : List (ServiceAction κ L)}
    (hrun : run (step capacity) {} as = some s) : ServiceInv capacity s :=
  run_invariant (I := ServiceInv capacity) (fun _ _ _ h hstep => h.step hstep)
    (serviceInv_start capacity) hrun

/-- **The frames of a link that are not on it are within its capacity**, with any number of clients
at the link. -/
theorem outsideOf_le_capacity {as : List (ServiceAction κ L)}
    (hrun : run (step capacity) {} as = some s) (link : L) :
    s.outsideOf link ≤ capacity link := by
  have h := serviceInv_of_run hrun
  refine Nat.le_trans (List.sum_le_sum fun k _ => ?_) (h.capacity link)
  exact (h.clients k).outside_le

/-- **Whatever the clients and the service thread do, and in whatever order, the frames of
every client are accounted for.** -/
theorem framesAccounted_of_run {as : List (ServiceAction κ L)}
    (hrun : run (step capacity) {} as = some s) (k : κ) :
    (s.clients k).FramesAccounted :=
  ((serviceInv_of_run hrun).clients k).framesAccounted

/-- A receive client that uses one frame and leaves another one in its queue. -/
def oneFrameUsed : List (ServiceAction Bool Unit) :=
  [.attachLink (), .makeClient true false 2 (), .executeRequest, .executeRequest,
    .client true .opened,
    .client true (.getFrame true), .client true .proceed, .client true .proceed,
    .client true .getBuff,
    .client true (.getFrame true), .client true .proceed, .client true .proceed,
    .client true (.releaseBuff 0), .client true .disconnect,
    .client true (.takeRequest true), .client true .proceed, .client true .proceed,
    .client true (.takeRequest true), .client true .proceed, .client true .proceed,
    .client true .disconnected]

theorem outsideOf_le_capacity_oneFrameUsed : ∃ s : OffloadIoService Bool Unit,
    run (step fun _ => 2) {} (oneFrameUsed.take 12) = some s ∧ s.outsideOf () ≤ 2 := by
  obtain ⟨s, hrun⟩ := Option.isSome_iff_exists.mp
    (by decide : (run (step fun _ => 2) {} (oneFrameUsed.take 12) :
      Option (OffloadIoService Bool Unit)).isSome = true)
  exact ⟨s, hrun, outsideOf_le_capacity hrun ()⟩

/-- That client disconnects, and both of its frames are back on the link. -/
theorem framesAccounted_of_oneFrameUsed : ∃ s : OffloadIoService Bool Unit,
    run (step fun _ => 2) {} oneFrameUsed = some s ∧
      (s.clients true).phase = .closed ∧ (s.clients true).released = [0, 1] ∧
      (s.clients true).FramesAccounted := by
  obtain ⟨s, hrun, hs⟩ := Option.map_eq_some_iff.mp
    (by decide : (run (step fun _ => 2) {} oneFrameUsed).map
      (fun s : OffloadIoService Bool Unit => ((s.clients true).phase, (s.clients true).released)) =
        some (ClientPhase.closed, [0, 1]))
  rw [Prod.mk.injEq] at hs
  exact ⟨s, hrun, hs.1, hs.2, framesAccounted_of_run hrun true⟩

end OffloadIoService
end Transport
end UhdHost
