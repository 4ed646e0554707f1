import UhdHost.Transport.InlineIoService

/-!
# The callbacks that the inline I/O service holds

After any calls: the registered callbacks are those of the clients alive, and links can be attached
again, exactly if every call is orderly (`keepsPromise_iff_orderly`).
-/

set_option linter.unusedSectionVars false

namespace UhdHost
namespace Transport

open Transition

variable {ρ τ κ : Type} [DecidableEq ρ] [DecidableEq τ] [DecidableEq κ]

/-- An entry with a multiplexer holds nothing besides, and a multiplexer has a callback. -/
def ReceiverEntry.Ok (entry : ReceiverEntry κ) : Prop :=
  ∀ mux, entry.mux = some mux → mux.call = none ∧ mux.callbacks ≠ [] ∧ entry.rcvr = none

namespace InlineIoService

/-- **The invariant**: registered are the callbacks of the clients alive, in the order in which they
were made, for the links that are attached. -/
structure Sound (s : InlineIoService ρ τ κ) : Prop where
  running : s.terminated = false
  registered : ∀ link, s.registered link = s.receivers link
  attached : ∀ link, link ∈ s.recvLinks ↔ (s.recvTbl link).isSome = true
  addresses : (s.clients.map InlineClient.address).Nodup
  entries : ∀ link entry, s.recvTbl link = some entry → entry.Ok

variable {s : InlineIoService ρ τ κ} {links : IoLinks ρ τ} {link : ρ} {entry : ReceiverEntry κ}
  {cb : κ} {numFrames : ℕ}

/-! ## Entries -/

theorem registered_of_entry (h : s.recvTbl link = some entry) :
    s.registered link = entry.callbacks := by
  rw [registered, h]
  rfl

theorem registered_of_none (h : s.recvTbl link = none) : s.registered link = [] := by
  rw [registered, h]
  rfl

theorem setEntry_self (h : s.recvTbl link = some entry) : s.setEntry link entry = s := by
  rw [setEntry, ← h, Function.update_eq_self]

theorem connect_eq_some (cfg : MuxConfig κ) {mux : InlineRecvMux κ} (hcall : mux.call = none)
    (hcb : cb ∉ mux.callbacks) :
    ∃ mux', InlineRecvMux.step cfg mux (.connect cb) = some mux' ∧
      mux'.callbacks = mux.callbacks ++ [cb] ∧ mux'.call = none :=
  ⟨_, if_pos ⟨hcall, hcb⟩, rfl, hcall⟩

theorem connectReceiver_eq (hentry : s.recvTbl link = some entry) (hok : entry.Ok)
    (hcb : cb ∉ entry.callbacks) (hfits : numFrames ≤ links.numRecvFrames link) :
    ∃ entry', s.connectReceiver links link cb numFrames = .ok ⟨⟩ (s.setEntry link entry') ∧
      entry'.callbacks = entry.callbacks ++ [cb] ∧ entry'.Ok := by
  obtain ⟨mux, rcvr⟩ := entry
  rw [connectReceiver, if_neg (Nat.not_lt.mpr hfits), hentry]
  cases mux with
  | some mux =>
    obtain ⟨hcall, -, hrcvr⟩ := hok mux rfl
    dsimp only at hrcvr
    subst hrcvr
    rw [ReceiverEntry.callbacks, Option.map_some, Option.getD_some, Option.toList_none,
      List.append_nil] at hcb ⊢
    obtain ⟨mux', hstep, hcallbacks, hcall'⟩ :=
      connect_eq_some (s.muxConfig links link) hcall hcb
    refine ⟨{ mux := some mux', rcvr := none }, ?_, ?_, ?_⟩
    · dsimp only
      rw [hstep]
    · rw [ReceiverEntry.callbacks, Option.map_some, Option.getD_some, Option.toList_none,
        List.append_nil, hcallbacks]
    · rintro m hm
      obtain rfl := Option.some_inj.mp hm
      refine ⟨hcall', ?_, rfl⟩
      rw [hcallbacks]
      exact List.append_ne_nil_of_right_ne_nil _ (List.cons_ne_nil cb [])
  | none =>
    cases rcvr with
    | some rcvr =>
      have hne : cb ∉ [rcvr] := hcb
      have hnil : rcvr ∉ ({} : InlineRecvMux κ).callbacks := List.not_mem_nil
      obtain ⟨m₁, hstep₁, hcallbacks₁, hcall₁⟩ :=
        connect_eq_some (s.muxConfig links link) rfl hnil
      have hcb₁ : cb ∉ m₁.callbacks := hcallbacks₁ ▸ hne
      obtain ⟨m₂, hstep₂, hcallbacks₂, hcall₂⟩ :=
        connect_eq_some (s.muxConfig links link) hcall₁ hcb₁
      refine ⟨{ mux := some m₂, rcvr := none }, ?_, ?_, ?_⟩
      · dsimp only
        rw [run_cons, hstep₁, Option.bind_some, run_cons, hstep₂, Option.bind_some, run_nil]
      · rw [ReceiverEntry.callbacks, Option.map_some, Option.getD_some, Option.toList_none,
          List.append_nil, hcallbacks₂, hcallbacks₁]
        rfl
      · rintro m hm
        obtain rfl := Option.some_inj.mp hm
        refine ⟨hcall₂, ?_, rfl⟩
        rw [hcallbacks₂]
        exact List.append_ne_nil_of_right_ne_nil _ (List.cons_ne_nil cb [])
    | none =>
      refine ⟨{ mux := none, rcvr := some cb }, rfl, rfl, ?_⟩
      rintro m hm
      cases hm

theorem disconnectReceiver_eq (links : IoLinks ρ τ) (hentry : s.recvTbl link = some entry) (hok : entry.Ok)
    (hmux : entry.mux.isSome = true) (hcb : cb ∈ entry.callbacks) :
    ∃ entry', s.disconnectReceiver links link cb = s.setEntry link entry' ∧
      entry'.callbacks = entry.callbacks.erase cb ∧ entry'.Ok := by
  obtain ⟨mux, rcvr⟩ := entry
  obtain ⟨mux, rfl⟩ := Option.isSome_iff_exists.mp hmux
  obtain ⟨hcall, -, hrcvr⟩ := hok mux rfl
  dsimp only at hrcvr
  subst hrcvr
  rw [ReceiverEntry.callbacks, Option.map_some, Option.getD_some, Option.toList_none,
    List.append_nil] at hcb ⊢
  have hstep : InlineRecvMux.step (s.muxConfig links link) mux (.disconnect cb) =
      some { mux with
        callbacks := mux.callbacks.erase cb
        queues := Function.update mux.queues cb []
        ended := mux.ended ++ (mux.queues cb).map fun frame => (.flushed cb, frame) } :=
    if_pos ⟨hcall, hcb⟩
  rw [disconnectReceiver, hentry]
  dsimp only
  rw [hstep]
  refine ⟨_, rfl, ?_, ?_⟩
  · by_cases hempty : mux.callbacks.erase cb = []
    · dsimp only
      rw [if_pos hempty, hempty]
      rfl
    · dsimp only
      rw [if_neg hempty]
      exact List.append_nil _
  · intro m hm
    dsimp only at hm
    by_cases hempty : mux.callbacks.erase cb = []
    · rw [if_pos hempty] at hm
      cases hm
    · rw [if_neg hempty] at hm
      obtain rfl := Option.some_inj.mp hm
      exact ⟨hcall, hempty, rfl⟩

theorem disconnectReceiver_of_alone (hentry : s.recvTbl link = some entry)
    (hmux : entry.mux = none) : s.disconnectReceiver links link cb = s := by
  rw [disconnectReceiver, hentry]
  dsimp only
  rw [hmux]
  exact setEntry_self hentry

theorem disconnectReceiver_of_unknown (links : IoLinks ρ τ) (hentry : s.recvTbl link = some entry)
    (hmux : entry.mux.isSome = true) (hcb : cb ∉ entry.callbacks) :
    (s.disconnectReceiver links link cb).terminated = true := by
  obtain ⟨mux, hmux⟩ := Option.isSome_iff_exists.mp hmux
  have hnot : ¬ (mux.call = none ∧ cb ∈ mux.callbacks) := by
    rintro ⟨-, hmem⟩
    refine hcb (List.mem_append_left _ ?_)
    rw [hmux]
    exact hmem
  have hstep : InlineRecvMux.step (s.muxConfig links link) mux (.disconnect cb) = none :=
    if_neg hnot
  rw [disconnectReceiver, hentry]
  dsimp only
  rw [hmux]
  dsimp only
  rw [hstep]

/-! ## Receivers -/

theorem receivers_append (client : InlineClient ρ κ) (link : ρ) :
    receivers { s with clients := s.clients ++ [client] } link =
      s.receivers link ++
        if (client.recv.any fun r => r.1 = link) = true then [client.address] else [] := by
  rw [receivers, receivers, List.filter_append, List.map_append, List.filter_singleton]
  by_cases hlink : (client.recv.any fun r => r.1 = link) = true
  · rw [if_pos hlink, hlink]
    rfl
  · rw [if_neg hlink, Bool.eq_false_iff.mpr hlink]
    rfl

theorem mem_receivers {client : InlineClient ρ κ} (hclient : client ∈ s.clients)
    (hrecv : client.recv = some (link, numFrames)) : client.address ∈ s.receivers link := by
  refine List.mem_map.mpr ⟨client, List.mem_filter.mpr ⟨hclient, ?_⟩, rfl⟩
  rw [hrecv]
  exact decide_eq_true rfl

theorem receivers_subset : ∀ k ∈ s.receivers link, k ∈ s.clients.map InlineClient.address := by
  intro k hk
  obtain ⟨c, hc, rfl⟩ := List.mem_map.mp hk
  exact List.mem_map_of_mem (List.mem_of_mem_filter hc)

theorem map_address_erase {clients : List (InlineClient ρ κ)}
    (hnodup : (clients.map InlineClient.address).Nodup) {client : InlineClient ρ κ}
    (hclient : client ∈ clients) : (clients.erase client).map InlineClient.address =
      (clients.map InlineClient.address).erase client.address := by
  induction clients with
  | nil => cases hclient
  | cons c clients ih =>
    rw [List.map_cons, List.nodup_cons] at hnodup
    by_cases heq : c = client
    · rw [heq, List.erase_cons_head, List.map_cons, List.erase_cons_head]
    · have hmem := (List.mem_cons.mp hclient).resolve_left (Ne.symm heq)
      have hne : c.address ≠ client.address := fun hsame =>
        hnodup.1 (hsame ▸ List.mem_map_of_mem hmem)
      rw [List.erase_cons_tail (beq_eq_false_iff_ne.mpr heq ▸ Bool.false_ne_true), List.map_cons,
        List.map_cons, List.erase_cons_tail (beq_eq_false_iff_ne.mpr hne ▸ Bool.false_ne_true),
        ih hnodup.2 hmem]

theorem receivers_erase_of_ne {client : InlineClient ρ κ}
    (hlink : ¬ (client.recv.any fun r => r.1 = link) = true) :
    receivers { s with clients := s.clients.erase client } link = s.receivers link := by
  rw [receivers, receivers]
  dsimp only
  rw [← List.erase_filter]
  congr 1
  refine List.erase_of_not_mem fun hmem => hlink ?_
  exact (List.mem_filter.mp hmem).2

theorem receivers_erase (haddresses : (s.clients.map InlineClient.address).Nodup)
    {client : InlineClient ρ κ} (hclient : client ∈ s.clients)
    (hrecv : client.recv = some (link, numFrames)) :
    receivers { s with clients := s.clients.erase client } link =
      (s.receivers link).erase client.address := by
  have hmem : client ∈ s.clients.filter fun c => c.recv.any fun r => r.1 = link := by
    refine List.mem_filter.mpr ⟨hclient, ?_⟩
    rw [hrecv]
    exact decide_eq_true rfl
  rw [receivers, receivers]
  dsimp only
  rw [← List.erase_filter]
  exact map_address_erase (haddresses.sublist (List.filter_sublist.map _)) hmem

/-! ## The invariant and what it promises -/

theorem Sound.keepsPromise (h : s.Sound) : s.KeepsPromise := by
  refine ⟨h.running, fun link => ?_, fun link _ => ?_⟩
  · rw [h.registered]
  · rw [Reattaches]
    have hfresh : ∀ t : InlineIoService ρ τ κ, t.recvTbl link = none →
        ∃ u, t.attachRecvLink link = .ok ⟨⟩ u ∧ u.recvTbl link = some {} := by
      intro t ht
      refine ⟨{ t.setEntry link {} with recvLinks := t.recvLinks ++ [link] }, ?_, ?_⟩
      · rw [attachRecvLink, ht]
      · exact Function.update_self link _ _
    split_ifs with hattached
    · obtain ⟨entry, hentry⟩ := Option.isSome_iff_exists.mp ((h.attached link).mp hattached)
      have hgone : Function.update s.recvTbl link none link = none :=
        Function.update_self link _ _
      obtain ⟨u, hu, hentry'⟩ := hfresh
        { s with
          recvTbl := Function.update s.recvTbl link none
          recvLinks := s.recvLinks.filter fun l => l ≠ link } hgone
      refine ⟨_, u, ?_, hu, hentry'⟩
      rw [detachRecvLink, hentry]
    · refine hfresh s ?_
      by_contra hne
      exact hattached ((h.attached link).mpr (Option.isSome_iff_ne_none.mpr hne))

/-! ## New clients -/

theorem exists_of_bind_eq_ok {ε α β : Type} {x : Except ε α} {f : α → Except ε β} {b : β}
    (h : x.bind f = .ok b) : ∃ a, x = .ok a ∧ f a = .ok b := by
  cases x with
  | error e => cases h
  | ok a => exact ⟨a, rfl, h⟩

theorem address_recvClientOf {args : RecvClientArgs ρ τ κ} {client : InlineClient ρ κ}
    (h : recvClientOf links args = .ok client) : client.address = args.address := by
  rw [recvClientOf] at h
  cases hlink : args.dataLink with
  | none =>
    rw [hlink] at h
    cases h
  | some dataLink =>
    rw [hlink] at h
    obtain ⟨_, -, h⟩ := exists_of_bind_eq_ok h
    obtain ⟨_, -, h⟩ := exists_of_bind_eq_ok h
    cases hfc : args.fcLink with
    | none =>
      rw [hfc] at h
      exact congrArg InlineClient.address (Except.ok.inj h).symm
    | some fcLink =>
      rw [hfc] at h
      obtain ⟨_, -, h⟩ := exists_of_bind_eq_ok h
      obtain ⟨_, -, h⟩ := exists_of_bind_eq_ok h
      obtain ⟨_, -, h⟩ := exists_of_bind_eq_ok h
      exact congrArg InlineClient.address (Except.ok.inj h).symm

theorem address_sendClientOf {args : SendClientArgs ρ τ κ} {client : InlineClient ρ κ}
    (h : sendClientOf links args = .ok client) : client.address = args.address := by
  rw [sendClientOf] at h
  cases hlink : args.sendLink with
  | none =>
    rw [hlink] at h
    cases h
  | some sendLink =>
    rw [hlink] at h
    obtain ⟨_, -, h⟩ := exists_of_bind_eq_ok h
    obtain ⟨_, -, h⟩ := exists_of_bind_eq_ok h
    obtain ⟨_, -, h⟩ := exists_of_bind_eq_ok h
    exact congrArg InlineClient.address (Except.ok.inj h).symm

/-! ## Orderly calls -/

theorem Sound.update (h : s.Sound) {value : Option (ReceiverEntry κ)} {recvLinks : List ρ}
    {clients : List (InlineClient ρ κ)} (hok : ∀ entry, value = some entry → entry.Ok)
    (hlinks : link ∈ recvLinks ↔ value.isSome = true)
    (hlinks' : ∀ l, l ≠ link → (l ∈ recvLinks ↔ l ∈ s.recvLinks))
    (haddresses : (clients.map InlineClient.address).Nodup)
    (hlink : receivers { s with clients := clients } link =
      (value.map ReceiverEntry.callbacks).getD [])
    (hother : ∀ l, l ≠ link → receivers { s with clients := clients } l = s.receivers l) :
    Sound { s with
      recvTbl := Function.update s.recvTbl link value
      recvLinks := recvLinks
      clients := clients } := by
  have hself : Function.update s.recvTbl link value link = value := Function.update_self link _ _
  have hne : ∀ l, l ≠ link → Function.update s.recvTbl link value l = s.recvTbl l :=
    fun l hl => Function.update_of_ne hl _ _
  refine ⟨h.running, fun l => ?_, fun l => ?_, haddresses, fun l entry hentry => ?_⟩
  · change ((Function.update s.recvTbl link value l).map ReceiverEntry.callbacks).getD [] =
      receivers { s with clients := clients } l
    by_cases hl : l = link
    · rw [hl, hself, hlink]
    · rw [hne l hl, hother l hl]
      exact h.registered l
  · change l ∈ recvLinks ↔ (Function.update s.recvTbl link value l).isSome = true
    by_cases hl : l = link
    · rw [hl, hself, hlinks]
    · rw [hne l hl, hlinks' l hl]
      exact h.attached l
  · change Function.update s.recvTbl link value l = some entry at hentry
    by_cases hl : l = link
    · rw [hl, hself] at hentry
      exact hok entry hentry
    · rw [hne l hl] at hentry
      exact h.entries l entry hentry

theorem Sound.write (h : s.Sound) (hentry : (s.recvTbl link).isSome = true)
    {entry' : ReceiverEntry κ} (hok : entry'.Ok) {clients : List (InlineClient ρ κ)}
    (haddresses : (clients.map InlineClient.address).Nodup)
    (hlink : receivers { s with clients := clients } link = entry'.callbacks)
    (hother : ∀ l, l ≠ link → receivers { s with clients := clients } l = s.receivers l) :
    Sound { s.setEntry link entry' with clients := clients } := by
  refine h.update (fun entry heq => ?_) (iff_of_true ((h.attached link).mpr hentry) rfl)
    (fun _ _ => Iff.rfl) haddresses hlink hother
  obtain rfl := Option.some_inj.mp heq
  exact hok

theorem Sound.clients (h : s.Sound) {clients : List (InlineClient ρ κ)}
    (haddresses : (clients.map InlineClient.address).Nodup)
    (hsame : ∀ l, receivers { s with clients := clients } l = s.receivers l) :
    Sound { s with clients := clients } :=
  ⟨h.running, fun l => (h.registered l).trans (hsame l).symm, h.attached, haddresses, h.entries⟩

theorem nodup_addresses_append (h : s.Sound) {client : InlineClient ρ κ}
    (hfresh : client.address ∉ s.clients.map InlineClient.address) :
    ((s.clients ++ [client]).map InlineClient.address).Nodup := by
  rw [List.map_append]
  refine h.addresses.append (List.nodup_singleton _) fun k hk hk' => ?_
  exact hfresh (List.mem_singleton.mp hk' ▸ hk)

theorem sound_attachRecvLink (h : s.Sound) (link : ρ) :
    (Stateful.stateAfter (s.attachRecvLink link)).Sound := by
  rw [attachRecvLink]
  cases hentry : s.recvTbl link with
  | some entry => exact h
  | none =>
    refine h.update (fun entry heq => ?_) ?_ (fun l hl => ?_) h.addresses ?_ fun _ _ => rfl
    · obtain rfl := Option.some_inj.mp heq
      intro mux hmux
      cases hmux
    · exact iff_of_true (List.mem_append_right _ (List.mem_singleton_self link)) rfl
    · rw [List.mem_append, List.mem_singleton, or_iff_left hl]
    · exact (h.registered link).symm.trans (registered_of_none hentry)

theorem sound_detachRecvLink (h : s.Sound) {link : ρ}
    (horderly : link ∈ s.recvLinks → s.receivers link = []) :
    (Stateful.stateAfter (s.detachRecvLink link)).Sound := by
  rw [detachRecvLink]
  cases hentry : s.recvTbl link with
  | none => exact h
  | some entry =>
    refine h.update (fun entry heq => ?_) ?_ (fun l hl => ?_) h.addresses ?_ fun _ _ => rfl
    · cases heq
    · exact iff_of_false (fun hmem => of_decide_eq_true (List.mem_filter.mp hmem).2 rfl)
        Bool.false_ne_true
    · rw [List.mem_filter, and_iff_left (decide_eq_true hl)]
    · exact horderly ((h.attached link).mpr (by rw [hentry, Option.isSome_some]))

theorem sound_finishClient (h : s.Sound) {client : InlineClient ρ κ} {late : Except UhdError Unit}
    (hfresh : client.address ∉ s.clients.map InlineClient.address)
    (hcan : s.CanRegister links client late) :
    (Stateful.stateAfter (s.finishClient links client late)).Sound := by
  have hnodup := nodup_addresses_append h hfresh
  rw [finishClient]
  cases hrecv : client.recv with
  | none =>
    refine h.clients hnodup fun l => ?_
    rw [receivers_append, hrecv]
    exact List.append_nil _
  | some r =>
    obtain ⟨link, numFrames⟩ := r
    obtain ⟨entry, hentry, hmux⟩ := hcan link numFrames hrecv
    have hregistered := (registered_of_entry hentry).symm.trans (h.registered link)
    have hcb : client.address ∉ entry.callbacks := fun hmem =>
      hfresh (receivers_subset _ (hregistered ▸ hmem))
    have halone : ¬ (late = .ok ⟨⟩ ∧ numFrames ≤ links.numRecvFrames link) →
        entry.mux = none := by
      intro hnot
      by_contra hne
      exact hnot (hmux (Option.isSome_iff_ne_none.mpr hne))
    dsimp only
    cases late with
    | error e =>
      dsimp only
      rw [disconnectReceiver_of_alone hentry (halone fun hboth => by cases hboth.1)]
      exact h
    | ok u =>
      dsimp only
      by_cases hfits : numFrames ≤ links.numRecvFrames link
      · obtain ⟨entry', hconnect, hcallbacks, hok⟩ :=
          connectReceiver_eq hentry (h.entries link entry hentry) hcb hfits
        rw [hconnect]
        refine h.write (by rw [hentry, Option.isSome_some]) hok hnodup ?_ fun l hl => ?_
        · refine (receivers_append (s := s) client link).trans ?_
          rw [hrecv, Option.any_some, if_pos (decide_eq_true rfl), hcallbacks, hregistered]
        · refine (receivers_append (s := s) client l).trans ?_
          rw [hrecv, Option.any_some, if_neg fun hyes => hl (of_decide_eq_true hyes).symm,
            List.append_nil]
      · have hconnect : s.connectReceiver links link client.address numFrames =
            .error (.assertionError "num_frames <= capacity") s :=
          if_pos (Nat.not_le.mp hfits)
        rw [hconnect]
        dsimp only
        rw [disconnectReceiver_of_alone hentry (halone fun hboth => hfits hboth.2)]
        exact h

theorem sound_destroyClient (h : s.Sound) {client : InlineClient ρ κ}
    (hclient : client ∈ s.clients)
    (horderly : ∀ link numFrames, client.recv = some (link, numFrames) →
      ∃ entry, s.recvTbl link = some entry ∧ entry.mux.isSome = true) :
    (s.destroyClient links client).Sound := by
  have hnodup : ((s.clients.erase client).map InlineClient.address).Nodup :=
    h.addresses.sublist (List.erase_sublist.map _)
  rw [destroyClient]
  cases hrecv : client.recv with
  | none =>
    refine h.clients hnodup fun l => receivers_erase_of_ne ?_
    rw [hrecv]
    exact Bool.false_ne_true
  | some r =>
    obtain ⟨link, numFrames⟩ := r
    obtain ⟨entry, hentry, hmux⟩ := horderly link numFrames hrecv
    have hregistered := (registered_of_entry hentry).symm.trans (h.registered link)
    have hcb : client.address ∈ entry.callbacks :=
      hregistered ▸ mem_receivers hclient hrecv
    obtain ⟨entry', hdisconnect, hcallbacks, hok⟩ :=
      disconnectReceiver_eq links (s := { s with clients := s.clients.erase client })
        hentry (h.entries link entry hentry) hmux hcb
    dsimp only
    rw [hdisconnect]
    refine h.write (by rw [hentry, Option.isSome_some]) hok hnodup ?_ fun l hl => ?_
    · rw [receivers_erase h.addresses hclient hrecv, hcallbacks, hregistered]
    · refine receivers_erase_of_ne ?_
      rw [hrecv, Option.any_some]
      exact fun hyes => hl (of_decide_eq_true hyes).symm

theorem sound_step {call : IoServiceCall ρ τ κ} {t : InlineIoService ρ τ κ} (h : s.Sound)
    (hstep : s.step links call = some t) (horderly : s.Orderly links call) : t.Sound := by
  obtain ⟨⟨-, hpossible⟩, hstep⟩ := Option.ite_none_right_eq_some.mp hstep
  rw [Option.some_inj] at hstep
  subst hstep
  cases call with
  | attachRecvLink link => exact sound_attachRecvLink h link
  | detachRecvLink link => exact sound_detachRecvLink h horderly
  | attachSendLink link =>
    rw [perform, attachSendLink]
    split_ifs
    · exact h
    · exact ⟨h.running, h.registered, h.attached, h.addresses, h.entries⟩
  | detachSendLink link => exact ⟨h.running, h.registered, h.attached, h.addresses, h.entries⟩
  | makeRecvClient args =>
    rw [perform, makeRecvClient]
    cases hclient : recvClientOf links args with
    | error e => exact h
    | ok client =>
      refine sound_finishClient h ?_ (horderly client hclient)
      rw [address_recvClientOf hclient]
      exact hpossible
  | makeSendClient args =>
    rw [perform, makeSendClient]
    cases hclient : sendClientOf links args with
    | error e => exact h
    | ok client =>
      refine sound_finishClient h ?_ (horderly client hclient)
      rw [address_sendClientOf hclient]
      exact hpossible
  | destroyClient client => exact sound_destroyClient h hpossible horderly

/-! ## Other calls -/

theorem not_keepsPromise_finishClient (h : s.Sound) {client : InlineClient ρ κ}
    {late : Except UhdError Unit}
    (hfresh : client.address ∉ s.clients.map InlineClient.address)
    (hcannot : ¬ s.CanRegister links client late) :
    ¬ (Stateful.stateAfter (s.finishClient links client late)).KeepsPromise := by
  rw [CanRegister] at hcannot
  push Not at hcannot
  obtain ⟨link, numFrames, hrecv, hcannot⟩ := hcannot
  have hunwind : ∃ e, s.finishClient links client late =
      .error e (s.disconnectReceiver links link client.address) := by
    rw [finishClient, hrecv]
    dsimp only
    cases late with
    | error e => exact ⟨e, rfl⟩
    | ok u =>
      have hconnect : ∃ e,
          s.connectReceiver links link client.address numFrames = .error e s := by
        rw [connectReceiver]
        split_ifs with hfits
        · exact ⟨_, rfl⟩
        · cases hentry : s.recvTbl link with
          | none => exact ⟨_, rfl⟩
          | some entry =>
            exact absurd (Nat.not_lt.mp hfits) (Nat.not_le.mpr ((hcannot entry hentry).2 rfl))
      obtain ⟨e, hconnect⟩ := hconnect
      rw [hconnect]
      exact ⟨e, rfl⟩
  obtain ⟨e, hunwind⟩ := hunwind
  rw [hunwind]
  change ¬ (s.disconnectReceiver links link client.address).KeepsPromise
  intro hkeeps
  cases hentry : s.recvTbl link with
  | some entry =>
    have hcb : client.address ∉ entry.callbacks := fun hmem => by
      rw [← registered_of_entry hentry, h.registered] at hmem
      exact hfresh (receivers_subset _ hmem)
    have hended := disconnectReceiver_of_unknown links hentry (hcannot entry hentry).1 hcb
    exact Bool.false_ne_true (hkeeps.running.symm.trans hended)
  | none =>
    have hphantom : s.disconnectReceiver links link client.address = s.setEntry link {} := by
      rw [disconnectReceiver, hentry]
    have hnobody : s.receivers link = [] :=
      (h.registered link).symm.trans (registered_of_none hentry)
    have hunattached : link ∉ s.recvLinks := by
      rw [h.attached, hentry]
      exact Bool.false_ne_true
    rw [hphantom] at hkeeps
    have hreattaches := hkeeps.reattaches link hnobody
    rw [Reattaches] at hreattaches
    obtain ⟨u, hu, -⟩ := (if_neg (show link ∉ (s.setEntry link {}).recvLinks from hunattached)).mp
      hreattaches
    have hself : (s.setEntry link {}).recvTbl link = some {} := Function.update_self link _ _
    rw [attachRecvLink, hself] at hu
    cases hu

theorem not_keepsPromise_step {call : IoServiceCall ρ τ κ} {t : InlineIoService ρ τ κ} (h : s.Sound)
    (hstep : s.step links call = some t) (hbad : ¬ s.Orderly links call) : ¬ t.KeepsPromise := by
  obtain ⟨⟨-, hpossible⟩, hstep⟩ := Option.ite_none_right_eq_some.mp hstep
  rw [Option.some_inj] at hstep
  subst hstep
  cases call with
  | attachRecvLink link => exact absurd trivial hbad
  | detachRecvLink link =>
    obtain ⟨hattached, hsome⟩ := Classical.not_imp.mp hbad
    obtain ⟨entry, hentry⟩ := Option.isSome_iff_exists.mp ((h.attached link).mp hattached)
    rw [perform, detachRecvLink, hentry]
    intro hkeeps
    have hgone : Function.update s.recvTbl link none link = none := Function.update_self link _ _
    have hcallbacks := hkeeps.callbacks link
    rw [registered_of_none hgone] at hcallbacks
    exact hsome (List.nil_perm.mp hcallbacks)
  | attachSendLink link => exact absurd trivial hbad
  | detachSendLink link => exact absurd trivial hbad
  | makeRecvClient args =>
    rw [Orderly] at hbad
    push Not at hbad
    obtain ⟨client, hclient, hcannot⟩ := hbad
    rw [perform, makeRecvClient, hclient]
    refine not_keepsPromise_finishClient h ?_ hcannot
    rw [address_recvClientOf hclient]
    exact hpossible
  | makeSendClient args =>
    rw [Orderly] at hbad
    push Not at hbad
    obtain ⟨client, hclient, hcannot⟩ := hbad
    rw [perform, makeSendClient, hclient]
    refine not_keepsPromise_finishClient h ?_ hcannot
    rw [address_sendClientOf hclient]
    exact hpossible
  | destroyClient client =>
    rw [Orderly] at hbad
    push Not at hbad
    obtain ⟨link, numFrames, hrecv, halone⟩ := hbad
    have hmem := mem_receivers hpossible hrecv
    obtain ⟨entry, hentry⟩ : ∃ entry, s.recvTbl link = some entry := by
      refine Option.isSome_iff_exists.mp (Option.isSome_iff_ne_none.mpr fun hnone => ?_)
      rw [← h.registered, registered_of_none hnone] at hmem
      exact List.not_mem_nil hmem
    have hmux : entry.mux = none := by
      by_contra hne
      exact halone entry hentry (Option.isSome_iff_ne_none.mpr hne)
    intro hkeeps
    have hdestroyed : s.destroyClient links client =
        { s with clients := s.clients.erase client } := by
      rw [destroyClient, hrecv]
      exact disconnectReceiver_of_alone (s := { s with clients := s.clients.erase client }) hentry
        hmux
    have hcallbacks := (hkeeps.callbacks link).length_eq
    change (registered (s.destroyClient links client) link).length =
      (receivers (s.destroyClient links client) link).length at hcallbacks
    rw [hdestroyed, receivers_erase h.addresses hpossible hrecv, List.length_erase_of_mem hmem]
      at hcallbacks
    have hsame : (registered { s with clients := s.clients.erase client } link).length =
        (s.receivers link).length := congrArg List.length (h.registered link)
    rw [hsame] at hcallbacks
    have hpos := List.length_pos_of_mem hmem
    omega

/-! ## Runs -/

theorem sound_init : Sound ({} : InlineIoService ρ τ κ) :=
  ⟨rfl, fun _ => rfl, fun _ => iff_of_false List.not_mem_nil Bool.false_ne_true, List.nodup_nil,
    fun _ _ h => by cases h⟩

/-- **The promise is kept exactly if all calls are orderly**: registered are the callbacks of the
clients alive, and links can be attached again.  And where frames are reserved, orderly calls keep
the sums of the reservations. -/
theorem keepsPromise_iff_orderly (links : IoLinks ρ τ) :
    (∀ (calls : List (IoServiceCall ρ τ κ)) (s : InlineIoService ρ τ κ),
      run (step links) {} calls = some s →
        ((∀ bs t, bs <+: calls → run (step links) {} bs = some t → t.KeepsPromise) ↔
          EveryStep (step links) (Orderly links) {} calls)) ∧
    ∀ (calls : List (ReservationCall ρ τ)) (m : FrameReservations ρ τ),
      run (FrameReservations.step links) {} calls = some m →
        EveryStep (FrameReservations.step links) (FrameReservations.Orderly links) {} calls →
          m.KeepsSums := by
  refine ⟨fun calls s hrun => ?_,
    fun calls m hrun => FrameReservations.keepsSums_of_orderly links hrun⟩
  exact forall_prefix_iff_everyStep (fun _ ht => ht.keepsPromise)
    (fun _ _ _ ht hstep hgood => sound_step ht hstep hgood)
    (fun _ _ _ ht hstep hbad => not_keepsPromise_step ht hstep hbad) sound_init hrun

/-- One client, and one reservation. -/
theorem keepsPromise_one_client :
    (∃ s : InlineIoService Unit Unit ℕ,
      run (step { numRecvFrames := fun _ => 4, numSendFrames := fun _ => 4 }) {}
        [.attachRecvLink (),
          .makeRecvClient { address := 0, dataLink := some (), numRecvFrames := 1 }] = some s ∧
      s.KeepsPromise) ∧
    ∃ m : FrameReservations Unit Unit,
      run (FrameReservations.step { numRecvFrames := fun _ => 4, numSendFrames := fun _ => 4 }) {}
        [.registerRecvLink (), .reserveFrames { recv := some ((), 1), send := none }] = some m ∧
      m.KeepsSums := by
  constructor
  · refine Exists.imp (fun s hs => ⟨hs, ((keepsPromise_iff_orderly _).1 _ s hs).mpr ?_ _ s
      List.prefix_rfl hs⟩) (Option.isSome_iff_exists.mp rfl)
    refine ⟨trivial, fun t ht => ⟨fun client _ link n _ => ?_, fun _ _ => trivial⟩⟩
    obtain rfl := Option.some_inj.mp ht
    exact ⟨{}, rfl, fun h => by cases h⟩
  · refine Exists.imp (fun m hm => ⟨hm, (keepsPromise_iff_orderly (κ := ℕ) _).2 _ m hm ?_⟩)
      (Option.isSome_iff_exists.mp rfl)
    refine ⟨trivial, fun t ht => ⟨⟨?_, trivial, fun _ _ => rfl⟩, fun _ _ => trivial⟩⟩
    obtain rfl := Option.some_inj.mp ht
    exact Or.inl (by decide)

/-- The only client of a link is destroyed: its callback stays registered.  A link is detached before
its client is destroyed: it cannot be attached any more.  A reservation gets frames from the receive
link only: they stay reserved. -/
theorem stale_callback :
    (∃ s : InlineIoService Unit Unit ℕ,
      run (step { numRecvFrames := fun _ => 4, numSendFrames := fun _ => 4 }) {}
        [.attachRecvLink (),
          .makeRecvClient { address := 0, dataLink := some (), numRecvFrames := 1 },
          .destroyClient { address := 0, sends := false, recv := some ((), 1) }] = some s ∧
      s.registered () = [0] ∧ s.receivers () = [] ∧ ¬ s.KeepsPromise) ∧
    (∃ s : InlineIoService Unit Unit ℕ,
      run (step { numRecvFrames := fun _ => 4, numSendFrames := fun _ => 4 }) {}
        [.attachRecvLink (),
          .makeRecvClient { address := 0, dataLink := some (), numRecvFrames := 1 },
          .detachRecvLink (),
          .destroyClient { address := 0, sends := false, recv := some ((), 1) }] = some s ∧
      s.receivers () = [] ∧ ¬ s.Reattaches ()) ∧
    ∃ m : FrameReservations Unit Unit,
      run (FrameReservations.step { numRecvFrames := fun _ => 4, numSendFrames := fun _ => 0 }) {}
        [.registerRecvLink (), .registerSendLink (),
          .reserveFrames { recv := some ((), 1), send := some ((), 1) }] = some m ∧
      m.live = [] ∧ m.recvTbl () = some 1 ∧ ¬ m.KeepsSums := by
  refine ⟨⟨_, rfl, rfl, rfl, fun h => ?_⟩, ⟨_, rfl, rfl, fun h => ?_⟩, _, rfl, rfl, rfl, fun h => ?_⟩
  · exact absurd (h.callbacks ()).length_eq (by decide)
  · obtain ⟨u, hu, -⟩ := (if_neg (by decide)).mp h
    cases hu
  · exact absurd (h.recv ()) (by decide)

end InlineIoService
end Transport
end UhdHost
