import UhdHost.Library.Transition
import UhdHost.Types.Exception
import UhdHost.Types.SizeT

/-!
# Frame reservations

`frame_reservation_mgr` of `transport/frame_reservation_mgr.hpp`, with which the offload I/O service
keeps count of the frames that its clients reserve from links, in two tables, one for receive links
and one for send links.

A reservation asks for frames of up to two links.  If the receive link has enough and the send link
does not, the reservation fails, and the frames of the receive link stay reserved.  Where all calls
are orderly (`FrameReservations.Orderly`), a table has for every link the sum of the reservations
that are made and not given back (`keepsSums_of_orderly`).
-/

namespace UhdHost
namespace Transport

open Transition

/-- The links: receive links `ρ`, send links `τ`. -/
structure IoLinks (ρ τ : Type) where
  /-- `get_num_recv_frames` -/
  numRecvFrames : ρ → ℕ
  /-- `get_num_send_frames` -/
  numSendFrames : τ → ℕ

/-! ## One table -/

/-- A table of reserved frames. -/
abbrev FrameTable (κ : Type) := κ → Option ℕ

namespace FrameTable

variable {κ : Type} [DecidableEq κ]

/-- `register_link`, for links of the kind that `which` names. -/
def register (which : String) (tbl : FrameTable κ) (link : κ) : Except UhdError (FrameTable κ) :=
  if (tbl link).getD 0 ≠ 0 then
    .error (.runtimeError (which ++ " link already attached to I/O service"))
  else .ok (Function.update tbl link (some 0))

/-- `unregister_link` -/
def unregister (which : String) (tbl : FrameTable κ) (link : κ) :
    Except UhdError (FrameTable κ) :=
  match tbl link with
  | none => .error (.assertionError (which ++ ".count(link_ptr) != 0"))
  | some _ => .ok (Function.update tbl link none)

/-- What `reserve_frames` does with one of the two tables. -/
def reserve (which : String) (capacity : κ → ℕ) (tbl : FrameTable κ) :
    Option (κ × ℕ) → Except UhdError (FrameTable κ)
  | none => .ok tbl
  | some (link, numFrames) =>
    match tbl link with
    | none => .error .outOfRange
    | some rsvdFrames =>
      if (rsvdFrames + numFrames) % 2 ^ 64 > capacity link then
        .error (.runtimeError
          ("Number of frames requested exceeds link " ++ which ++ " frame capacity"))
      else .ok (Function.update tbl link (some ((rsvdFrames + numFrames) % 2 ^ 64)))

/-- What `unreserve_frames` does with one of the two tables. -/
def unreserve (tbl : FrameTable κ) : Option (κ × ℕ) → Except UhdError (FrameTable κ)
  | none => .ok tbl
  | some (link, numFrames) =>
    match tbl link with
    | none => .error .outOfRange
    | some rsvdFrames => .ok (Function.update tbl link (some (sizeSub rsvdFrames numFrames)))

/-- The frames of a link that a reservation asks for. -/
def framesOn (link : κ) : Option (κ × ℕ) → ℕ
  | none => 0
  | some (l, numFrames) => if l = link then numFrames else 0

/-- The frames of a link that all of them ask for. -/
def reservedOn (link : κ) (reservations : List (Option (κ × ℕ))) : ℕ :=
  (reservations.map (framesOn link)).sum

/-- The table has the sums of these reservations, and entries for their links. -/
structure Sums (tbl : FrameTable κ) (reservations : List (Option (κ × ℕ))) : Prop where
  sum : ∀ link, (tbl link).getD 0 = reservedOn link reservations
  registered : ∀ link numFrames, some (link, numFrames) ∈ reservations →
    (tbl link).isSome = true
  fits : ∀ link rsvdFrames, tbl link = some rsvdFrames → rsvdFrames < 2 ^ 64

/-- The request does not wrap around to a number of frames that fits. -/
def NoWrap (capacity : κ → ℕ) (tbl : FrameTable κ) : Option (κ × ℕ) → Prop
  | none => True
  | some (link, numFrames) =>
    (tbl link).getD 0 + numFrames < 2 ^ 64 ∨
      capacity link < ((tbl link).getD 0 + numFrames) % 2 ^ 64

variable {tbl tbl' : FrameTable κ} {reservations : List (Option (κ × ℕ))} {which : String}
  {capacity : κ → ℕ} {link : κ}

theorem Sums.update (h : tbl.Sums reservations) {value : Option ℕ}
    {reservations' : List (Option (κ × ℕ))}
    (hsum : value.getD 0 = reservedOn link reservations')
    (hother : ∀ l, l ≠ link → reservedOn l reservations' = reservedOn l reservations)
    (hregistered : ∀ l numFrames, some (l, numFrames) ∈ reservations' →
      if l = link then value.isSome = true else ∃ n, some (l, n) ∈ reservations)
    (hfits : ∀ rsvdFrames, value = some rsvdFrames → rsvdFrames < 2 ^ 64) :
    Sums (Function.update tbl link value) reservations' := by
  have hne : ∀ l, l ≠ link → Function.update tbl link value l = tbl l :=
    fun l hl => Function.update_of_ne hl _ _
  refine ⟨fun l => ?_, fun l n hmem => ?_, fun l n hl => ?_⟩
  · by_cases hl : l = link
    · rw [hl, Function.update_self, hsum]
    · rw [hne l hl, hother l hl, h.sum]
  · have hhas := hregistered l n hmem
    by_cases hl : l = link
    · rw [if_pos hl] at hhas
      rw [hl, Function.update_self, hhas]
    · rw [if_neg hl] at hhas
      obtain ⟨m, hm⟩ := hhas
      rw [hne l hl]
      exact h.registered l m hm
  · by_cases heq : l = link
    · rw [heq, Function.update_self] at hl
      exact hfits n hl
    · rw [hne l heq] at hl
      exact h.fits l n hl

theorem Sums.register (h : tbl.Sums reservations)
    (hregister : register which tbl link = .ok tbl') : tbl'.Sums reservations := by
  rw [FrameTable.register] at hregister
  split_ifs at hregister with hzero
  · obtain rfl := Except.ok.inj hregister
    have hnone := h.sum link
    rw [not_not.mp hzero] at hnone
    refine h.update hnone (fun _ _ => rfl) (fun l n hmem => ?_) fun n hn => ?_
    · split_ifs
      · rfl
      · exact ⟨n, hmem⟩
    · rw [← Option.some_inj.mp hn]
      exact Nat.two_pow_pos 64

theorem Sums.unregister (h : tbl.Sums reservations)
    (hnone : ∀ numFrames, some (link, numFrames) ∉ reservations)
    (hunregister : unregister which tbl link = .ok tbl') : tbl'.Sums reservations := by
  rw [FrameTable.unregister] at hunregister
  cases hentry : tbl link with
  | none =>
    rw [hentry] at hunregister
    cases hunregister
  | some rsvdFrames =>
    rw [hentry] at hunregister
    obtain rfl := Except.ok.inj hunregister
    refine h.update ?_ (fun _ _ => rfl) (fun l n hmem => ?_) fun n hn => by cases hn
    · refine (List.sum_eq_zero fun n hn => ?_).symm
      obtain ⟨r, hr, rfl⟩ := List.mem_map.mp hn
      cases r with
      | none => rfl
      | some r =>
        refine if_neg fun hl => hnone r.2 ?_
        rw [← hl]
        exact hr
    · rw [if_neg]
      · exact ⟨n, hmem⟩
      · rintro rfl
        exact hnone n hmem

theorem reservedOn_cons (r : Option (κ × ℕ)) (reservations : List (Option (κ × ℕ))) (l : κ) :
    reservedOn l (r :: reservations) = framesOn l r + reservedOn l reservations := by
  rw [reservedOn, List.map_cons, List.sum_cons, reservedOn]

theorem Sums.reserve (h : tbl.Sums reservations) {r : Option (κ × ℕ)}
    (hwrap : tbl.NoWrap capacity r) (hreserve : reserve which capacity tbl r = .ok tbl') :
    tbl'.Sums (r :: reservations) := by
  cases r with
  | none =>
    obtain rfl := Except.ok.inj hreserve
    refine ⟨fun l => ?_, fun l n hmem => ?_, h.fits⟩
    · rw [reservedOn_cons, framesOn, Nat.zero_add, h.sum]
    · exact h.registered l n ((List.mem_cons.mp hmem).resolve_left fun heq => by cases heq)
  | some r =>
    obtain ⟨link, numFrames⟩ := r
    rw [FrameTable.reserve] at hreserve
    cases hentry : tbl link with
    | none =>
      rw [hentry] at hreserve
      cases hreserve
    | some rsvdFrames =>
      rw [hentry] at hreserve
      dsimp only at hreserve
      rw [NoWrap, hentry, Option.getD_some] at hwrap
      split_ifs at hreserve with hexceeds
      · obtain rfl := Except.ok.inj hreserve
        have hlt : rsvdFrames + numFrames < 2 ^ 64 :=
          hwrap.resolve_right fun hyes => hexceeds hyes
        have hsum := h.sum link
        rw [hentry, Option.getD_some] at hsum
        refine h.update ?_ (fun l hl => ?_) (fun l n hmem => ?_) fun n hn => ?_
        · rw [Option.getD_some, Nat.mod_eq_of_lt hlt, reservedOn_cons, framesOn, if_pos rfl, hsum,
            Nat.add_comm]
        · rw [reservedOn_cons, framesOn, if_neg (Ne.symm hl), Nat.zero_add]
        · split_ifs with hl
          · rfl
          · refine ⟨n, (List.mem_cons.mp hmem).resolve_left fun heq => hl ?_⟩
            exact congrArg Prod.fst (Option.some_inj.mp heq)
        · rw [← Option.some_inj.mp hn]
          exact Nat.mod_lt _ (Nat.two_pow_pos 64)

theorem reservedOn_erase {r : Option (κ × ℕ)} (hr : r ∈ reservations) (l : κ) :
    framesOn l r + reservedOn l (reservations.erase r) = reservedOn l reservations := by
  rw [← reservedOn_cons, reservedOn, reservedOn]
  exact ((List.perm_cons_erase hr).map _).sum_eq.symm

theorem Sums.unreserve (h : tbl.Sums reservations) {r : Option (κ × ℕ)} (hr : r ∈ reservations) :
    ∃ tbl', unreserve tbl r = .ok tbl' ∧ tbl'.Sums (reservations.erase r) := by
  have herase := fun l => reservedOn_erase hr l
  cases r with
  | none =>
    refine ⟨tbl, rfl, fun l => ?_, fun l n hmem => ?_, h.fits⟩
    · have hl := herase l
      rw [framesOn, Nat.zero_add] at hl
      rw [hl, h.sum]
    · exact h.registered l n (List.mem_of_mem_erase hmem)
  | some r =>
    obtain ⟨link, numFrames⟩ := r
    obtain ⟨rsvdFrames, hentry⟩ := Option.isSome_iff_exists.mp (h.registered link numFrames hr)
    rw [FrameTable.unreserve, hentry]
    refine ⟨_, rfl, ?_⟩
    have hsum := h.sum link
    have hself := herase link
    rw [framesOn, if_pos rfl] at hself
    rw [hentry, Option.getD_some] at hsum
    have hle : numFrames ≤ rsvdFrames := by omega
    have hlt := h.fits link rsvdFrames hentry
    have hsub := sizeSub_of_le hle hlt
    refine h.update ?_ (fun l hl => ?_) (fun l n hmem => ?_) fun n hn => ?_
    · rw [Option.getD_some, hsub]
      omega
    · have hother := herase l
      rw [framesOn, if_neg (Ne.symm hl), Nat.zero_add] at hother
      exact hother
    · split_ifs
      · rfl
      · exact ⟨n, List.mem_of_mem_erase hmem⟩
    · rw [← Option.some_inj.mp hn, hsub]
      exact Nat.lt_of_le_of_lt (Nat.sub_le _ _) hlt

end FrameTable

/-! ## Both tables -/

/-- `frame_reservation_t`.  The numbers of frames only matter where there is a link. -/
structure FrameReservation (ρ τ : Type) where
  recv : Option (ρ × ℕ)
  send : Option (τ × ℕ)
  deriving DecidableEq

/-- `frame_reservation_mgr`, with the reservations that are made and not given back. -/
structure FrameReservations (ρ τ : Type) where
  /-- `_recv_tbl` -/
  recvTbl : FrameTable ρ := fun _ => none
  /-- `_send_tbl` -/
  sendTbl : FrameTable τ := fun _ => none
  live : List (FrameReservation ρ τ) := []

/-- A call. -/
inductive ReservationCall (ρ τ : Type) where
  | registerRecvLink (link : ρ)
  | registerSendLink (link : τ)
  | unregisterRecvLink (link : ρ)
  | unregisterSendLink (link : τ)
  | reserveFrames (reservation : FrameReservation ρ τ)
  | unreserveFrames (reservation : FrameReservation ρ τ)

namespace FrameReservations

variable {ρ τ : Type} [DecidableEq ρ] [DecidableEq τ]

/-- A table is written, or stays as it is if the call throws. -/
def orElse {κ : Type} (tbl : FrameTable κ) : Except UhdError (FrameTable κ) → FrameTable κ
  | .ok tbl' => tbl'
  | .error _ => tbl

/-- `reserve_frames`.  The first table is written before the second is looked at. -/
def reserveFrames (links : IoLinks ρ τ) (m : FrameReservations ρ τ)
    (reservation : FrameReservation ρ τ) : FrameReservations ρ τ :=
  match m.recvTbl.reserve "recv" links.numRecvFrames reservation.recv with
  | .error _ => m
  | .ok recvTbl =>
    match m.sendTbl.reserve "send" links.numSendFrames reservation.send with
    | .error _ => { m with recvTbl := recvTbl }
    | .ok sendTbl =>
      { recvTbl := recvTbl, sendTbl := sendTbl, live := reservation :: m.live }

/-- `unreserve_frames` -/
def unreserveFrames (m : FrameReservations ρ τ) (reservation : FrameReservation ρ τ) :
    FrameReservations ρ τ :=
  match m.recvTbl.unreserve reservation.recv with
  | .error _ => m
  | .ok recvTbl =>
    match m.sendTbl.unreserve reservation.send with
    | .error _ => { m with recvTbl := recvTbl }
    | .ok sendTbl =>
      { recvTbl := recvTbl, sendTbl := sendTbl, live := m.live.erase reservation }

/-- The state after a call, whether it returns or throws.  Only what was reserved is given back. -/
def step (links : IoLinks ρ τ) (m : FrameReservations ρ τ) :
    ReservationCall ρ τ → Option (FrameReservations ρ τ)
  | .registerRecvLink link =>
    some { m with recvTbl := orElse m.recvTbl (m.recvTbl.register "Recv" link) }
  | .registerSendLink link =>
    some { m with sendTbl := orElse m.sendTbl (m.sendTbl.register "Send" link) }
  | .unregisterRecvLink link =>
    some { m with recvTbl := orElse m.recvTbl (m.recvTbl.unregister "_recv_tbl" link) }
  | .unregisterSendLink link =>
    some { m with sendTbl := orElse m.sendTbl (m.sendTbl.unregister "_send_tbl" link) }
  | .reserveFrames reservation => some (m.reserveFrames links reservation)
  | .unreserveFrames reservation =>
    if reservation ∈ m.live then some (m.unreserveFrames reservation) else none

/-- **What is asked of every state**: for each link, the sum of what is reserved. -/
structure KeepsSums (m : FrameReservations ρ τ) : Prop where
  recv : ∀ link, (m.recvTbl link).getD 0 =
    FrameTable.reservedOn link (m.live.map FrameReservation.recv)
  send : ∀ link, (m.sendTbl link).getD 0 =
    FrameTable.reservedOn link (m.live.map FrameReservation.send)

/-- **The condition on a call.**  A link is unregistered only while nothing is reserved from it.  If
a reservation gets its frames from the receive link, it gets those from the send link too.  No
request wraps around to a number that fits. -/
def Orderly (links : IoLinks ρ τ) (m : FrameReservations ρ τ) : ReservationCall ρ τ → Prop
  | .unregisterRecvLink link => ∀ r ∈ m.live, ∀ numFrames, r.recv ≠ some (link, numFrames)
  | .unregisterSendLink link => ∀ r ∈ m.live, ∀ numFrames, r.send ≠ some (link, numFrames)
  | .reserveFrames reservation =>
    m.recvTbl.NoWrap links.numRecvFrames reservation.recv ∧
      m.sendTbl.NoWrap links.numSendFrames reservation.send ∧
      (reservation.recv ≠ none →
        (m.recvTbl.reserve "recv" links.numRecvFrames reservation.recv).isOk = true →
        (m.sendTbl.reserve "send" links.numSendFrames reservation.send).isOk = true)
  | _ => True

/-- The invariant: both tables have the sums. -/
structure Sound (m : FrameReservations ρ τ) : Prop where
  recv : m.recvTbl.Sums (m.live.map FrameReservation.recv)
  send : m.sendTbl.Sums (m.live.map FrameReservation.send)

variable {links : IoLinks ρ τ} {m m' : FrameReservations ρ τ}

theorem Sound.keepsSums (h : m.Sound) : m.KeepsSums := ⟨h.recv.sum, h.send.sum⟩

theorem sums_orElse {κ : Type} [DecidableEq κ] {tbl : FrameTable κ}
    {reservations : List (Option (κ × ℕ))} {result : Except UhdError (FrameTable κ)}
    (h : tbl.Sums reservations) (hresult : ∀ tbl', result = .ok tbl' → tbl'.Sums reservations) :
    (orElse tbl result).Sums reservations := by
  cases result with
  | error e => exact h
  | ok tbl' => exact hresult tbl' rfl

theorem sound_reserveFrames (h : m.Sound) {reservation : FrameReservation ρ τ}
    (horderly : m.Orderly links (.reserveFrames reservation)) :
    (m.reserveFrames links reservation).Sound := by
  obtain ⟨hrecvWrap, hsendWrap, hboth⟩ := horderly
  rw [reserveFrames]
  cases hrecv : m.recvTbl.reserve "recv" links.numRecvFrames reservation.recv with
  | error e => exact h
  | ok recvTbl =>
    have hsums := h.recv.reserve hrecvWrap hrecv
    dsimp only
    cases hsend : m.sendTbl.reserve "send" links.numSendFrames reservation.send with
    | error e =>
      have hnone : reservation.recv = none := by
        by_contra hne
        have hok := hboth hne (by rw [hrecv]; rfl)
        rw [hsend] at hok
        cases hok
      rw [hnone] at hrecv
      obtain rfl := Except.ok.inj hrecv
      exact h
    | ok sendTbl => exact ⟨hsums, h.send.reserve hsendWrap hsend⟩

theorem map_erase_perm {α β : Type} [DecidableEq α] [BEq β] [LawfulBEq β] (f : α → β)
    {l : List α} {a : α} (ha : a ∈ l) : ((l.erase a).map f).Perm ((l.map f).erase (f a)) := by
  have hmap := ((List.perm_cons_erase ha).map f).symm
  rw [List.map_cons] at hmap
  exact ((hmap.trans (List.perm_cons_erase (List.mem_map_of_mem ha))).cons_inv)

theorem sums_of_perm {κ : Type} [DecidableEq κ] {tbl : FrameTable κ}
    {reservations reservations' : List (Option (κ × ℕ))} (h : tbl.Sums reservations)
    (hperm : reservations.Perm reservations') : tbl.Sums reservations' := by
  refine ⟨fun link => ?_, fun link n hmem => ?_, h.fits⟩
  · rw [h.sum]
    exact (hperm.map _).sum_eq
  · exact h.registered link n (hperm.mem_iff.mpr hmem)

theorem sound_unreserveFrames (h : m.Sound) {reservation : FrameReservation ρ τ}
    (hlive : reservation ∈ m.live) : (m.unreserveFrames reservation).Sound := by
  obtain ⟨recvTbl, hrecv, hrecvSums⟩ := h.recv.unreserve (List.mem_map_of_mem hlive)
  obtain ⟨sendTbl, hsend, hsendSums⟩ := h.send.unreserve (List.mem_map_of_mem hlive)
  rw [unreserveFrames, hrecv]
  dsimp only
  rw [hsend]
  exact ⟨sums_of_perm hrecvSums (map_erase_perm _ hlive).symm,
    sums_of_perm hsendSums (map_erase_perm _ hlive).symm⟩

theorem sound_step {call : ReservationCall ρ τ} (h : m.Sound)
    (hstep : m.step links call = some m') (horderly : m.Orderly links call) : m'.Sound := by
  cases call with
  | registerRecvLink link =>
    obtain rfl := Option.some_inj.mp hstep
    exact ⟨sums_orElse h.recv fun _ hok => h.recv.register hok, h.send⟩
  | registerSendLink link =>
    obtain rfl := Option.some_inj.mp hstep
    exact ⟨h.recv, sums_orElse h.send fun _ hok => h.send.register hok⟩
  | unregisterRecvLink link =>
    obtain rfl := Option.some_inj.mp hstep
    refine ⟨sums_orElse h.recv fun _ hok => h.recv.unregister (fun n hmem => ?_) hok, h.send⟩
    obtain ⟨r, hr, hlink⟩ := List.mem_map.mp hmem
    exact horderly r hr n hlink
  | unregisterSendLink link =>
    obtain rfl := Option.some_inj.mp hstep
    refine ⟨h.recv, sums_orElse h.send fun _ hok => h.send.unregister (fun n hmem => ?_) hok⟩
    obtain ⟨r, hr, hlink⟩ := List.mem_map.mp hmem
    exact horderly r hr n hlink
  | reserveFrames reservation =>
    obtain rfl := Option.some_inj.mp hstep
    exact sound_reserveFrames h horderly
  | unreserveFrames reservation =>
    obtain ⟨hlive, hstep⟩ := Option.ite_none_right_eq_some.mp hstep
    obtain rfl := Option.some_inj.mp hstep
    exact sound_unreserveFrames h hlive

theorem keepsSums_of_orderly (links : IoLinks ρ τ) {calls : List (ReservationCall ρ τ)}
    (hrun : run (step links) {} calls = some m)
    (horderly : EveryStep (step links) (Orderly links) {} calls) : m.KeepsSums := by
  have hinit : Sound ({} : FrameReservations ρ τ) :=
    ⟨⟨fun _ => rfl, fun _ _ hmem => absurd hmem List.not_mem_nil, fun _ _ hn => by cases hn⟩,
      ⟨fun _ => rfl, fun _ _ hmem => absurd hmem List.not_mem_nil, fun _ _ hn => by cases hn⟩⟩
  exact (run_invariant_of_everyStep (I := Sound)
    (fun _ _ _ h hgood hstep => sound_step h hstep hgood) hinit horderly hrun).keepsSums

end FrameReservations
end Transport
end UhdHost
