import UhdHost.Transport.FrameReservations

/-!
# The capacity of the links

What `frame_reservation_mgr` is for: the reservations of a link together never exceed its frames, giving
a reservation back undoes it, and a reservation that is refused leaves no trace.

`reserve_frames` checks and writes the table of the receive link before it looks at the send link.  If
the second check fails, the frames of the receive link stay reserved, and nobody will give them back.
And the check adds sizes of 64 bits: a request that wraps around to a small sum is granted.
`CleanRequest` excludes both.  A run of reservations, and of giving back what is reserved, does what it
is for if and only if all requests are clean (`exactCalls_iff_clean`).
-/

namespace UhdHost
namespace Transport

open Transition

/-! ## One table -/

namespace FrameTable

variable {κ : Type} [DecidableEq κ] {tbl tbl' : FrameTable κ} {capacity : κ → ℕ} {which : String}
  {reservations : List (Option (κ × ℕ))} {r : Option (κ × ℕ)} {link : κ} {numFrames : ℕ}

/-- The number of frames that is asked for. -/
def requested : Option (κ × ℕ) → ℕ
  | none => 0
  | some (_, numFrames) => numFrames

theorem reserve_some_eq_ok :
    reserve which capacity tbl (some (link, numFrames)) = .ok tbl' ↔
      ∃ rsvdFrames, tbl link = some rsvdFrames ∧
        (rsvdFrames + numFrames) % 2 ^ 64 ≤ capacity link ∧
        tbl' = Function.update tbl link (some ((rsvdFrames + numFrames) % 2 ^ 64)) := by
  rw [reserve]
  cases hentry : tbl link with
  | none => simp
  | some rsvdFrames =>
    simp only [Option.some.injEq, exists_eq_left']
    split_ifs with hexceeds
    · exact iff_of_false (by simp) fun h => absurd h.1 (not_le.mpr hexceeds)
    · rw [Except.ok.injEq, eq_comm]
      exact (and_iff_right (not_lt.mp hexceeds)).symm

theorem within_iff_noWrap (h : tbl.Sums reservations) (hcapacity : ∀ l, capacity l < 2 ^ 64)
    (hwithin : ∀ l, reservedOn l reservations ≤ capacity l)
    (hok : reserve which capacity tbl r = .ok tbl') :
    (∀ l, reservedOn l (r :: reservations) ≤ capacity l) ↔ tbl.NoWrap capacity r := by
  cases r with
  | none =>
    refine iff_of_true (fun l => ?_) trivial
    rw [reservedOn_cons, framesOn, Nat.zero_add]
    exact hwithin l
  | some r =>
    obtain ⟨link, numFrames⟩ := r
    obtain ⟨rsvdFrames, hentry, hle, -⟩ := reserve_some_eq_ok.mp hok
    have hsum := h.sum link
    rw [hentry, Option.getD_some] at hsum
    have hlt := hcapacity link
    rw [NoWrap, hentry, Option.getD_some]
    constructor
    · intro hall
      have hlink := hall link
      rw [reservedOn_cons, framesOn, if_pos rfl] at hlink
      exact Or.inl (by omega)
    · intro hwrap l
      have hfit := hwrap.resolve_right (not_lt.mpr hle)
      rw [reservedOn_cons, framesOn]
      split_ifs with hl
      · subst hl
        rw [Nat.mod_eq_of_lt hfit] at hle
        omega
      · rw [Nat.zero_add]
        exact hwithin l

theorem noWrap_of_error (hsize : requested r < 2 ^ 64) {e : UhdError}
    (herror : reserve which capacity tbl r = .error e) : tbl.NoWrap capacity r := by
  cases r with
  | none => trivial
  | some r =>
    obtain ⟨link, numFrames⟩ := r
    rw [reserve] at herror
    rw [NoWrap]
    cases hentry : tbl link with
    | none =>
      rw [Option.getD_none, Nat.zero_add]
      exact Or.inl hsize
    | some rsvdFrames =>
      rw [hentry] at herror
      simp only at herror
      split_ifs at herror with hexceeds
      exact Or.inr hexceeds

theorem unreserve_reserve (h : tbl.Sums reservations) (hsize : requested r < 2 ^ 64)
    (hok : reserve which capacity tbl r = .ok tbl') : unreserve tbl' r = .ok tbl := by
  cases r with
  | none => exact (Except.ok.inj hok) ▸ rfl
  | some r =>
    obtain ⟨link, numFrames⟩ := r
    obtain ⟨rsvdFrames, hentry, -, rfl⟩ := reserve_some_eq_ok.mp hok
    have hlt := h.fits link rsvdFrames hentry
    have hback : sizeSub ((rsvdFrames + numFrames) % 2 ^ 64) numFrames = rsvdFrames := by
      rw [requested] at hsize
      rw [sizeSub]
      omega
    rw [unreserve, Function.update_self]
    simp only
    rw [hback, Function.update_idem, ← hentry, Function.update_eq_self]

theorem reserve_same_iff (h : tbl.Sums reservations) (hsize : requested r < 2 ^ 64)
    (hok : reserve which capacity tbl r = .ok tbl') : tbl' = tbl ↔ requested r = 0 := by
  cases r with
  | none => exact iff_of_true (Except.ok.inj hok).symm rfl
  | some r =>
    obtain ⟨link, numFrames⟩ := r
    obtain ⟨rsvdFrames, hentry, -, rfl⟩ := reserve_some_eq_ok.mp hok
    have hlt := h.fits link rsvdFrames hentry
    rw [requested] at hsize ⊢
    rw [Function.update_eq_self_iff, hentry, Option.some_inj]
    omega

end FrameTable

/-! ## Both tables -/

/-- The frames of the links are sizes. -/
structure IoLinks.Sized {ρ τ : Type} (links : IoLinks ρ τ) : Prop where
  recv : ∀ link, links.numRecvFrames link < 2 ^ 64
  send : ∀ link, links.numSendFrames link < 2 ^ 64

/-- The numbers of frames are sizes. -/
structure FrameReservation.Sized {ρ τ : Type} (r : FrameReservation ρ τ) : Prop where
  recv : FrameTable.requested r.recv < 2 ^ 64
  send : FrameTable.requested r.send < 2 ^ 64

/-- A call that reserves frames or gives them back. -/
def ReservationCall.OfFrames {ρ τ : Type} : ReservationCall ρ τ → Prop
  | .reserveFrames r => r.Sized
  | .unreserveFrames r => r.Sized
  | _ => False

namespace FrameReservations

variable {ρ τ : Type} [DecidableEq ρ] [DecidableEq τ]

/-- `reserve_frames` throws. -/
def ReserveThrows (links : IoLinks ρ τ) (m : FrameReservations ρ τ) (r : FrameReservation ρ τ) :
    Prop :=
  (m.recvTbl.reserve "recv" links.numRecvFrames r.recv).isOk = false ∨
    (m.sendTbl.reserve "send" links.numSendFrames r.send).isOk = false

/-- The tables are as they were. -/
def SameTables (m m' : FrameReservations ρ τ) : Prop :=
  m'.recvTbl = m.recvTbl ∧ m'.sendTbl = m.sendTbl

/-- No link has more frames reserved than it has. -/
structure WithinCapacity (links : IoLinks ρ τ) (m : FrameReservations ρ τ) : Prop where
  recv : ∀ link, FrameTable.reservedOn link (m.live.map FrameReservation.recv) ≤
    links.numRecvFrames link
  send : ∀ link, FrameTable.reservedOn link (m.live.map FrameReservation.send) ≤
    links.numSendFrames link

/-- **What is claimed of a call.**  Afterwards the reservations of each link are within its capacity and
the tables have their sums.  If a reservation is refused, the tables are as they were; if it is granted,
giving it back would make them so again. -/
def Exact (links : IoLinks ρ τ) (m : FrameReservations ρ τ) : ReservationCall ρ τ → Prop
  | .reserveFrames r =>
    (m.ReserveThrows links r → SameTables m (m.reserveFrames links r)) ∧
      (¬ m.ReserveThrows links r →
        SameTables m ((m.reserveFrames links r).unreserveFrames r)) ∧
      (m.reserveFrames links r).WithinCapacity links ∧ (m.reserveFrames links r).KeepsSums
  | .unreserveFrames r =>
    r ∈ m.live → (m.unreserveFrames r).WithinCapacity links ∧ (m.unreserveFrames r).KeepsSums
  | _ => True

/-- **The condition on a request.**  If the receive link grants it, then the send link does too, or no
frames of the receive link are asked for; and no sum wraps around to one that fits. -/
def CleanRequest (links : IoLinks ρ τ) (m : FrameReservations ρ τ) : ReservationCall ρ τ → Prop
  | .reserveFrames r =>
    (m.recvTbl.reserve "recv" links.numRecvFrames r.recv).isOk = true →
      m.recvTbl.NoWrap links.numRecvFrames r.recv ∧
        m.sendTbl.NoWrap links.numSendFrames r.send ∧
        ((m.sendTbl.reserve "send" links.numSendFrames r.send).isOk = true ∨
          FrameTable.requested r.recv = 0)
  | _ => True

variable {links : IoLinks ρ τ} {m m' : FrameReservations ρ τ} {r : FrameReservation ρ τ}

theorem reserveFrames_cases (links : IoLinks ρ τ) (m : FrameReservations ρ τ)
    (r : FrameReservation ρ τ) :
    (∃ e, m.recvTbl.reserve "recv" links.numRecvFrames r.recv = .error e ∧
      m.reserveFrames links r = m) ∨
    (∃ recvTbl e, m.recvTbl.reserve "recv" links.numRecvFrames r.recv = .ok recvTbl ∧
      m.sendTbl.reserve "send" links.numSendFrames r.send = .error e ∧
      m.reserveFrames links r = { m with recvTbl := recvTbl }) ∨
    ∃ recvTbl sendTbl, m.recvTbl.reserve "recv" links.numRecvFrames r.recv = .ok recvTbl ∧
      m.sendTbl.reserve "send" links.numSendFrames r.send = .ok sendTbl ∧
      m.reserveFrames links r = ⟨recvTbl, sendTbl, r :: m.live⟩ := by
  rw [reserveFrames]
  cases m.recvTbl.reserve "recv" links.numRecvFrames r.recv with
  | error e => exact Or.inl ⟨e, rfl, rfl⟩
  | ok recvTbl =>
    cases m.sendTbl.reserve "send" links.numSendFrames r.send with
    | error e => exact Or.inr (Or.inl ⟨recvTbl, e, rfl, rfl, rfl⟩)
    | ok sendTbl => exact Or.inr (Or.inr ⟨recvTbl, sendTbl, rfl, rfl, rfl⟩)

theorem exact_reserveFrames_iff (hlinks : links.Sized) (hm : m.Sound)
    (hwithin : m.WithinCapacity links) (hr : r.Sized) :
    m.Exact links (.reserveFrames r) ↔ m.CleanRequest links (.reserveFrames r) := by
  rw [Exact, CleanRequest]
  rcases reserveFrames_cases links m r with
    ⟨e, hrecv, heq⟩ | ⟨recvTbl, e, hrecv, hsend, heq⟩ | ⟨recvTbl, sendTbl, hrecv, hsend, heq⟩
  · -- The receive link refuses, and nothing was written.
    rw [heq, hrecv]
    refine iff_of_true ⟨fun _ => ⟨rfl, rfl⟩, fun hnot => absurd (Or.inl ?_) hnot, hwithin,
      hm.keepsSums⟩ fun h => (by cases h)
    rw [hrecv]
    rfl
  · -- The send link refuses, and the table of the receive link was written.
    have hthrows : m.ReserveThrows links r := Or.inr (by rw [hsend]; rfl)
    have hsame := FrameTable.reserve_same_iff hm.recv hr.recv hrecv
    rw [heq, hrecv, hsend]
    constructor
    · rintro ⟨hkept, -⟩ -
      have hzero := hsame.mp (hkept hthrows).1
      refine ⟨?_, FrameTable.noWrap_of_error hr.send hsend, Or.inr hzero⟩
      refine (FrameTable.within_iff_noWrap hm.recv hlinks.recv hwithin.recv hrecv).mp fun l => ?_
      have hnone : FrameTable.framesOn l r.recv = 0 := by
        cases hasked : r.recv with
        | none => rfl
        | some asked =>
          rw [hasked, FrameTable.requested] at hzero
          rw [FrameTable.framesOn, hzero, ite_self]
      rw [FrameTable.reservedOn_cons, hnone, Nat.zero_add]
      exact hwithin.recv l
    · intro hclean
      obtain ⟨-, -, hzero⟩ := hclean rfl
      have hrecvTbl := hsame.mpr (hzero.resolve_left fun h => by cases h)
      refine ⟨fun _ => ⟨hrecvTbl, rfl⟩, fun hnot => absurd hthrows hnot, ⟨hwithin.recv,
        hwithin.send⟩, ⟨?_, hm.send.sum⟩⟩
      rw [hrecvTbl]
      exact hm.recv.sum
  · -- Both links grant.
    have hnot : ¬ m.ReserveThrows links r := by
      rintro (h | h)
      · rw [hrecv] at h
        cases h
      · rw [hsend] at h
        cases h
    have hrecvWithin := FrameTable.within_iff_noWrap hm.recv hlinks.recv hwithin.recv hrecv
    have hsendWithin := FrameTable.within_iff_noWrap hm.send hlinks.send hwithin.send hsend
    rw [heq, hrecv, hsend]
    constructor
    · rintro ⟨-, -, hin, -⟩ -
      exact ⟨hrecvWithin.mp hin.recv, hsendWithin.mp hin.send, Or.inl rfl⟩
    · intro hclean
      obtain ⟨hrecvWrap, hsendWrap, -⟩ := hclean rfl
      refine ⟨fun h => absurd h hnot, fun _ => ?_,
        ⟨hrecvWithin.mpr hrecvWrap, hsendWithin.mpr hsendWrap⟩,
        ⟨(hm.recv.reserve hrecvWrap hrecv).sum, (hm.send.reserve hsendWrap hsend).sum⟩⟩
      rw [unreserveFrames]
      simp only
      rw [FrameTable.unreserve_reserve hm.recv hr.recv hrecv]
      simp only
      rw [FrameTable.unreserve_reserve hm.send hr.send hsend]
      exact ⟨rfl, rfl⟩

theorem WithinCapacity.unreserveFrames (h : m.WithinCapacity links) (hm : m.Sound)
    (hlive : r ∈ m.live) : (m.unreserveFrames r).WithinCapacity links := by
  obtain ⟨recvTbl, hrecv, -⟩ := hm.recv.unreserve (List.mem_map_of_mem hlive)
  obtain ⟨sendTbl, hsend, -⟩ := hm.send.unreserve (List.mem_map_of_mem hlive)
  have hlives : (m.unreserveFrames r).live = m.live.erase r := by
    rw [FrameReservations.unreserveFrames, hrecv]
    simp only
    rw [hsend]
  constructor
  · intro link
    rw [hlives]
    refine le_trans (List.Sublist.sum_le_sum ?_ fun n _ => Nat.zero_le n) (h.recv link)
    exact (((List.erase_sublist).map FrameReservation.recv).map _)
  · intro link
    rw [hlives]
    refine le_trans (List.Sublist.sum_le_sum ?_ fun n _ => Nat.zero_le n) (h.send link)
    exact (((List.erase_sublist).map FrameReservation.send).map _)

theorem sound_of_clean (hlinks : links.Sized) (hm : m.Sound) (hwithin : m.WithinCapacity links)
    {call : ReservationCall ρ τ} (hcall : call.OfFrames) (hclean : m.CleanRequest links call)
    (hstep : m.step links call = some m') : m'.Sound ∧ m'.WithinCapacity links := by
  cases call with
  | registerRecvLink link => exact hcall.elim
  | registerSendLink link => exact hcall.elim
  | unregisterRecvLink link => exact hcall.elim
  | unregisterSendLink link => exact hcall.elim
  | reserveFrames r =>
    obtain rfl := Option.some_inj.mp hstep
    refine ⟨?_, ((exact_reserveFrames_iff hlinks hm hwithin hcall).mpr hclean).2.2.1⟩
    rw [CleanRequest] at hclean
    rcases reserveFrames_cases links m r with
      ⟨e, -, heq⟩ | ⟨recvTbl, e, hrecv, hsend, heq⟩ | ⟨recvTbl, sendTbl, hrecv, hsend, heq⟩
    · rw [heq]
      exact hm
    · rw [heq]
      rw [hrecv, hsend] at hclean
      have hzero := (hclean rfl).2.2.resolve_left fun h => by cases h
      obtain rfl := (FrameTable.reserve_same_iff hm.recv hcall.recv hrecv).mpr hzero
      exact ⟨hm.recv, hm.send⟩
    · rw [heq]
      rw [hrecv] at hclean
      obtain ⟨hrecvWrap, hsendWrap, -⟩ := hclean rfl
      exact ⟨hm.recv.reserve hrecvWrap hrecv, hm.send.reserve hsendWrap hsend⟩
  | unreserveFrames r =>
    obtain ⟨hlive, hstep⟩ := Option.ite_none_right_eq_some.mp hstep
    obtain rfl := Option.some_inj.mp hstep
    exact ⟨sound_unreserveFrames hm hlive, hwithin.unreserveFrames hm hlive⟩

/-- **Reservations are exact exactly if they are clean.**  From every state whose tables have the sums of
its reservations, within the capacity of the links, and for every sequence of reservations and of giving
back what is reserved: each call keeps the reservations of every link within its capacity and the tables
true to them, is undone by giving back, and leaves the tables as they were if it throws, if and only if
each request is clean. -/
theorem exactCalls_iff_clean (links : IoLinks ρ τ) (hlinks : links.Sized)
    (m : FrameReservations ρ τ) (hm : m.Sound) (hwithin : m.WithinCapacity links)
    (calls : List (ReservationCall ρ τ)) (hcalls : ∀ call ∈ calls, call.OfFrames) :
    EveryStep (step links) (Exact links) m calls ↔
      EveryStep (step links) (CleanRequest links) m calls := by
  induction calls generalizing m with
  | nil => exact Iff.rfl
  | cons call calls ih =>
    have hcall := hcalls call List.mem_cons_self
    have hiff : m.Exact links call ↔ m.CleanRequest links call := by
      cases call with
      | registerRecvLink link => exact hcall.elim
      | registerSendLink link => exact hcall.elim
      | unregisterRecvLink link => exact hcall.elim
      | unregisterSendLink link => exact hcall.elim
      | reserveFrames r => exact exact_reserveFrames_iff hlinks hm hwithin hcall
      | unreserveFrames r =>
        exact iff_of_true (fun hlive => ⟨hwithin.unreserveFrames hm hlive,
          (sound_unreserveFrames hm hlive).keepsSums⟩) trivial
    rw [everyStep_cons, everyStep_cons, hiff]
    refine and_congr_right fun hclean => forall_congr' fun m' => forall_congr' fun hstep => ?_
    obtain ⟨hm', hwithin'⟩ := sound_of_clean hlinks hm hwithin hcall hclean hstep
    exact ih m' hm' hwithin' fun call' h => hcalls call' (List.mem_cons_of_mem call h)

/-- A receive link of four frames and a send link of two. -/
def smallLinks : IoLinks Unit Unit := ⟨fun _ => 4, fun _ => 2⟩

/-- Both are registered. -/
def bothRegistered : FrameReservations Unit Unit where
  recvTbl := fun _ => some 0
  sendTbl := fun _ => some 0

theorem sound_bothRegistered : bothRegistered.Sound :=
  ⟨⟨fun _ => rfl, fun _ _ h => absurd h List.not_mem_nil, fun _ _ h => by
      rw [← Option.some_inj.mp h]
      exact Nat.two_pow_pos 64⟩,
    ⟨fun _ => rfl, fun _ _ h => absurd h List.not_mem_nil, fun _ _ h => by
      rw [← Option.some_inj.mp h]
      exact Nat.two_pow_pos 64⟩⟩

/-- Three frames of each are too many for the send link, and three of the receive link stay
reserved. -/
theorem refused_leaves_frames : ¬ bothRegistered.Exact smallLinks
    (.reserveFrames ⟨some ((), 3), some ((), 3)⟩) := by
  rintro ⟨hsame, -⟩
  have htables := (hsame (Or.inr (by decide))).1
  have hentry := congrFun htables ()
  exact absurd hentry (by decide)

/-- Three frames and two are reserved and given back. -/
theorem reserved_and_given_back : EveryStep (step smallLinks) (Exact smallLinks) bothRegistered
    [.reserveFrames ⟨some ((), 3), some ((), 2)⟩,
      .unreserveFrames ⟨some ((), 3), some ((), 2)⟩] :=
  (exactCalls_iff_clean smallLinks ⟨by decide, by decide⟩ bothRegistered
    sound_bothRegistered ⟨fun _ => Nat.zero_le _, fun _ => Nat.zero_le _⟩
    [.reserveFrames ⟨some ((), 3), some ((), 2)⟩, .unreserveFrames ⟨some ((), 3), some ((), 2)⟩]
    (by
      intro call hcall
      rcases List.mem_cons.mp hcall with rfl | hcall
      · exact ⟨by decide, by decide⟩
      · rw [List.mem_singleton.mp hcall]
        exact ⟨by decide, by decide⟩)).mpr
    ⟨fun _ => ⟨Or.inl (by decide), Or.inl (by decide), Or.inl (by decide)⟩,
      fun _ _ => ⟨trivial, fun _ _ => trivial⟩⟩

end FrameReservations
end Transport
end UhdHost
