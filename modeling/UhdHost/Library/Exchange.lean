import Mathlib.Data.List.Basic
import Mathlib.Data.List.Nodup
import Mathlib.Tactic.Common

/-!
# Requests and answers that are paired by their order

One party sends requests, one after the other, and takes whatever arrives next as the answer to the
request it is waiting for.  Nothing in an answer is compared with the request.  An answer may be
lost, and it may arrive after its request was given up.

A request is named by its position in `requests`, and an answer by the request it was made for.
These names are not part of what is sent: they are there to say which answer was taken for which
request.

`Exchange.Tracks` is the invariant.  As long as no answer to a request that was given up is taken,
every answer that is taken is the right one (`tracks_take`), and the first that is not breaks it
(`not_paired_take`).
-/

namespace UhdHost

/-- The requests that were sent, and where their answers are. -/
structure Exchange (ρ α : Type*) where
  requests : List ρ := []
  /-- The requests whose answers have neither arrived nor been lost. -/
  inFlight : List ℕ := []
  /-- The answers that have arrived, each with the request it was made for. -/
  inbox : List (ℕ × α) := []
  /-- The requests that were given up. -/
  givenUp : List ℕ := []
  /-- The requests that took an answer, each with the request that the answer was made for. -/
  taken : List (ℕ × ℕ) := []

namespace Exchange

variable {ρ α : Type*}

/-- Send a request. -/
def send (x : Exchange ρ α) (request : ρ) : Exchange ρ α :=
  { x with
    requests := x.requests ++ [request]
    inFlight := x.inFlight ++ [x.requests.length] }

/-- The answer to a request arrives. -/
def arrive (x : Exchange ρ α) (n : ℕ) (answer : α) : Option (Exchange ρ α) :=
  if n ∈ x.inFlight then
    some { x with inFlight := x.inFlight.erase n, inbox := x.inbox ++ [(n, answer)] }
  else none

/-- The answer to a request is lost. -/
def lose (x : Exchange ρ α) (n : ℕ) : Option (Exchange ρ α) :=
  if n ∈ x.inFlight then some { x with inFlight := x.inFlight.erase n } else none

/-- A request takes the answer that arrived first. -/
def take (x : Exchange ρ α) (n : ℕ) : Option ((ℕ × α) × Exchange ρ α) :=
  match x.inbox with
  | [] => none
  | first :: rest => some (first, { x with inbox := rest, taken := x.taken ++ [(n, first.1)] })

/-- A request is given up, since no answer is there. -/
def giveUp (x : Exchange ρ α) (n : ℕ) : Option (Exchange ρ α) :=
  if x.inbox.isEmpty then some { x with givenUp := x.givenUp ++ [n] } else none

/-- The requests whose answers may still be taken. -/
def outstanding (x : Exchange ρ α) : List ℕ := x.inFlight ++ x.inbox.map Prod.fst

/-- **Every request took its own answer.** -/
def Paired (x : Exchange ρ α) : Prop := ∀ p ∈ x.taken, p.2 = p.1

instance (x : Exchange ρ α) : Decidable x.Paired :=
  inferInstanceAs (Decidable (∀ p ∈ x.taken, p.2 = p.1))

/-- The answer that arrived first was made for a request that was given up. -/
def StaleFirst (x : Exchange ρ α) : Prop := ∃ n ∈ x.inbox.head?.map Prod.fst, n ∈ x.givenUp

/-- **The invariant**, with the request that is waited for. -/
structure Tracks (x : Exchange ρ α) (waiting : Option ℕ) : Prop where
  nodup : x.outstanding.Nodup
  outstanding_lt : ∀ n ∈ x.outstanding, n < x.requests.length
  outstanding_cases : ∀ n ∈ x.outstanding, n ∈ x.givenUp ∨ waiting = some n
  givenUp_lt : ∀ n ∈ x.givenUp, n < x.requests.length
  waiting_lt : ∀ n, waiting = some n → n < x.requests.length
  not_givenUp : ∀ n, waiting = some n → n ∉ x.givenUp
  paired : x.Paired

theorem tracks_empty : Tracks ({} : Exchange ρ α) none where
  nodup := List.nodup_nil
  outstanding_lt _ hn := absurd hn List.not_mem_nil
  outstanding_cases _ hn := absurd hn List.not_mem_nil
  givenUp_lt _ hn := absurd hn List.not_mem_nil
  waiting_lt n hn := absurd hn (Option.some_ne_none n).symm
  not_givenUp n hn := absurd hn (Option.some_ne_none n).symm
  paired _ hp := absurd hp List.not_mem_nil

variable {x y : Exchange ρ α} {n : ℕ}

theorem outstanding_send (x : Exchange ρ α) (request : ρ) :
    (x.send request).outstanding.Perm (x.requests.length :: x.outstanding) := by
  rw [outstanding, outstanding, send, List.append_assoc]
  exact List.perm_middle

/-- A new request is waited for. -/
theorem tracks_send (h : x.Tracks none) (request : ρ) :
    (x.send request).Tracks (some x.requests.length) := by
  have hperm := x.outstanding_send request
  have hlength : (x.send request).requests.length = x.requests.length + 1 := by
    rw [send, List.length_append, List.length_singleton]
  have hfresh : x.requests.length ∉ x.outstanding := fun hmem =>
    absurd (h.outstanding_lt _ hmem) (Nat.lt_irrefl _)
  refine ⟨hperm.nodup_iff.mpr (List.nodup_cons.mpr ⟨hfresh, h.nodup⟩), ?_, ?_, ?_, ?_, ?_, h.paired⟩
  · intro n hn
    rw [hlength]
    rcases List.mem_cons.mp (hperm.mem_iff.mp hn) with rfl | hn
    · exact Nat.lt_succ_self _
    · exact Nat.lt_succ_of_lt (h.outstanding_lt n hn)
  · intro n hn
    rcases List.mem_cons.mp (hperm.mem_iff.mp hn) with rfl | hn
    · exact Or.inr rfl
    · exact Or.inl ((h.outstanding_cases n hn).resolve_right (Option.some_ne_none n).symm)
  · intro n hn
    rw [hlength]
    exact Nat.lt_succ_of_lt (h.givenUp_lt n hn)
  · intro n hn
    rw [hlength, ← Option.some_inj.mp hn]
    exact Nat.lt_succ_self _
  · intro n hn hmem
    rw [← Option.some_inj.mp hn] at hmem
    exact absurd (h.givenUp_lt _ hmem) (Nat.lt_irrefl _)

/-- What leaves the requests and what was taken alone, and adds nothing outstanding, keeps the
invariant. -/
theorem Tracks.of_subset {waiting : Option ℕ} (h : x.Tracks waiting)
    (hnodup : y.outstanding.Nodup) (hsubset : y.outstanding ⊆ x.outstanding)
    (hrequests : y.requests = x.requests) (hgivenUp : y.givenUp = x.givenUp)
    (htaken : y.taken = x.taken) : y.Tracks waiting := by
  refine ⟨hnodup, ?_, ?_, ?_, ?_, ?_, ?_⟩
  · intro n hn
    rw [hrequests]
    exact h.outstanding_lt n (hsubset hn)
  · intro n hn
    rw [hgivenUp]
    exact h.outstanding_cases n (hsubset hn)
  · rw [hgivenUp, hrequests]
    exact h.givenUp_lt
  · rw [hrequests]
    exact h.waiting_lt
  · rw [hgivenUp]
    exact h.not_givenUp
  · rw [Paired, htaken]
    exact h.paired

theorem tracks_arrive {waiting : Option ℕ} (h : x.Tracks waiting) {answer : α}
    (hy : x.arrive n answer = some y) : y.Tracks waiting := by
  rw [arrive] at hy
  split_ifs at hy with hmem
  obtain rfl := Option.some_inj.mp hy
  have hperm : (outstanding { x with
      inFlight := x.inFlight.erase n, inbox := x.inbox ++ [(n, answer)] }).Perm x.outstanding := by
    rw [outstanding, outstanding, List.map_append, List.map_singleton, ← List.append_assoc]
    refine (List.perm_append_singleton n _).trans ?_
    exact (List.perm_cons_erase hmem).symm.append_right (x.inbox.map Prod.fst)
  exact h.of_subset (hperm.nodup_iff.mpr h.nodup) hperm.subset rfl rfl rfl

theorem tracks_lose {waiting : Option ℕ} (h : x.Tracks waiting) (hy : x.lose n = some y) :
    y.Tracks waiting := by
  rw [lose] at hy
  split_ifs at hy
  obtain rfl := Option.some_inj.mp hy
  have hsub := (List.erase_sublist (a := n) (l := x.inFlight)).append_right (x.inbox.map Prod.fst)
  exact h.of_subset (hsub.nodup h.nodup) hsub.subset rfl rfl rfl

/-- A request that is given up is waited for no more. -/
theorem tracks_giveUp (h : x.Tracks (some n)) (hy : x.giveUp n = some y) : y.Tracks none := by
  rw [giveUp] at hy
  split_ifs at hy
  obtain rfl := Option.some_inj.mp hy
  refine ⟨h.nodup, h.outstanding_lt, ?_, ?_, ?_, ?_, h.paired⟩
  · intro m hm
    refine Or.inl (List.mem_append.mpr ?_)
    rcases h.outstanding_cases m hm with hgiven | hwaiting
    · exact Or.inl hgiven
    · exact Or.inr (List.mem_singleton.mpr (Option.some_inj.mp hwaiting).symm)
  · intro m hm
    rcases List.mem_append.mp hm with hm | hm
    · exact h.givenUp_lt m hm
    · rw [List.mem_singleton.mp hm]
      exact h.waiting_lt n rfl
  · intro m hm
    exact absurd hm (Option.some_ne_none m).symm
  · intro m hm
    exact absurd hm (Option.some_ne_none m).symm

theorem take_eq_some {first : ℕ × α} (hy : x.take n = some (first, y)) :
    ∃ rest, x.inbox = first :: rest ∧
      y = { x with inbox := rest, taken := x.taken ++ [(n, first.1)] } := by
  rw [take] at hy
  split at hy
  · exact absurd hy (Option.some_ne_none _).symm
  · rename_i head rest hinbox
    obtain ⟨rfl, rfl⟩ := Prod.mk.inj (Option.some_inj.mp hy)
    exact ⟨rest, hinbox, rfl⟩

theorem staleFirst_iff {first : ℕ × α} {rest : List (ℕ × α)} (h : x.inbox = first :: rest) :
    x.StaleFirst ↔ first.1 ∈ x.givenUp := by
  rw [StaleFirst, h]
  simp

theorem mem_outstanding {first : ℕ × α} {rest : List (ℕ × α)} (h : x.inbox = first :: rest) :
    first.1 ∈ x.outstanding := by
  rw [outstanding, h, List.map_cons]
  exact List.mem_append_right _ List.mem_cons_self

/-- **The right answer is taken**, unless the first one is stale. -/
theorem tracks_take (h : x.Tracks (some n)) {first : ℕ × α} (hy : x.take n = some (first, y))
    (hfresh : ¬ x.StaleFirst) : first.1 = n ∧ y.Tracks none := by
  obtain ⟨rest, hinbox, rfl⟩ := take_eq_some hy
  have hn : first.1 = n := by
    rcases h.outstanding_cases _ (mem_outstanding hinbox) with hgiven | hwaiting
    · exact absurd ((staleFirst_iff hinbox).mpr hgiven) hfresh
    · exact (Option.some_inj.mp hwaiting).symm
  have hperm : x.outstanding.Perm (n :: (x.inFlight ++ rest.map Prod.fst)) := by
    rw [outstanding, hinbox, List.map_cons, hn]
    exact List.perm_middle
  obtain ⟨hnotin, hnodup⟩ := List.nodup_cons.mp (hperm.nodup_iff.mp h.nodup)
  have hmem : ∀ m ∈ x.inFlight ++ rest.map Prod.fst, m ∈ x.outstanding := fun m hm =>
    hperm.mem_iff.mpr (List.mem_cons_of_mem n hm)
  refine ⟨hn, hnodup, ?_, ?_, h.givenUp_lt, ?_, ?_, ?_⟩
  · intro m hm
    exact h.outstanding_lt m (hmem m hm)
  · intro m hm
    rcases h.outstanding_cases m (hmem m hm) with hgiven | hwaiting
    · exact Or.inl hgiven
    · rw [Option.some_inj.mp hwaiting] at hnotin
      exact absurd hm hnotin
  · intro m hm
    exact absurd hm (Option.some_ne_none m).symm
  · intro m hm
    exact absurd hm (Option.some_ne_none m).symm
  · intro p hp
    rcases List.mem_append.mp hp with hp | hp
    · exact h.paired p hp
    · rw [List.mem_singleton.mp hp]
      exact hn

/-- **The first stale answer that is taken** is not the right one. -/
theorem not_paired_take (h : x.Tracks (some n)) {first : ℕ × α} (hy : x.take n = some (first, y))
    (hstale : x.StaleFirst) : ¬ y.Paired := by
  obtain ⟨rest, hinbox, rfl⟩ := take_eq_some hy
  intro hpaired
  have hn : first.1 = n := hpaired (n, first.1) (List.mem_append_right _ List.mem_cons_self)
  exact h.not_givenUp n rfl (hn ▸ (staleFirst_iff hinbox).mp hstale)

end Exchange
end UhdHost
