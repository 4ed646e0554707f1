import Mathlib.Data.List.Nodup
import Mathlib.Data.List.Perm.Basic
import Mathlib.Logic.Function.Basic

/-!
# Families of queues

A component that sorts items into one queue per client keeps a family `κ → List β` and a list
of the clients it knows.  `pooled` is everything that is queued for any of them.  When nothing
may be lost or duplicated, what matters is how `pooled` changes as a multiset:
`pooled_push`, `pooled_pop` and `pooled_clear` say it for the three things one does to a
queue, and all of them come from `pooled_update`, which splits off the queue that changes.
-/

namespace UhdHost
namespace QueueFamily

variable {κ β : Type*}

/-- Everything that is queued for one of the clients. -/
def pooled (clients : List κ) (q : κ → List β) : List β := clients.flatMap q

theorem mem_pooled {clients : List κ} {q : κ → List β} {x : β} :
    x ∈ pooled clients q ↔ ∃ k ∈ clients, x ∈ q k := List.mem_flatMap

variable [DecidableEq κ]

/-- Split off the queue of one client. -/
theorem pooled_perm {clients : List κ} {k : κ} (hk : k ∈ clients) (q : κ → List β) :
    (pooled clients q).Perm (q k ++ pooled (clients.erase k) q) := by
  have h := (List.perm_cons_erase hk).flatMap_right q
  rwa [List.flatMap_cons] at h

/-- Where a client is not listed, its queue does not matter. -/
theorem pooled_update_of_notMem {clients : List κ} {k : κ} (hk : k ∉ clients) (q : κ → List β)
    (v : List β) : pooled clients (Function.update q k v) = pooled clients q := by
  refine List.flatMap_congr fun k' hk' => ?_
  have hne : k' ≠ k := fun h => hk (h ▸ hk')
  rw [Function.update_of_ne hne]

/-- Change the queue of one client. -/
theorem pooled_update {clients : List κ} (hnd : clients.Nodup) {k : κ} (hk : k ∈ clients)
    (q : κ → List β) (v : List β) :
    (pooled clients (Function.update q k v)).Perm (v ++ pooled (clients.erase k) q) := by
  have h := pooled_perm hk (Function.update q k v)
  rwa [Function.update_self, pooled_update_of_notMem hnd.not_mem_erase] at h

/-- An item that is pushed is added. -/
theorem pooled_push {clients : List κ} (hnd : clients.Nodup) {k : κ} (hk : k ∈ clients)
    (q : κ → List β) (x : β) :
    (pooled clients (Function.update q k (q k ++ [x]))).Perm (pooled clients q ++ [x]) := by
  refine (pooled_update hnd hk q _).trans ?_
  rw [List.append_assoc]
  refine (List.perm_append_comm.append_left (q k)).trans ?_
  rw [← List.append_assoc]
  exact (pooled_perm hk q).symm.append_right [x]

/-- An item that is popped is taken away. -/
theorem pooled_pop {clients : List κ} (hnd : clients.Nodup) {k : κ} (hk : k ∈ clients)
    {q : κ → List β} {x : β} {xs : List β} (hq : q k = x :: xs) :
    (pooled clients q).Perm (x :: pooled clients (Function.update q k xs)) := by
  have h := pooled_perm hk q
  rw [hq, List.cons_append] at h
  exact h.trans ((pooled_update hnd hk q xs).symm.cons x)

/-- A client that leaves takes its queue with it. -/
theorem pooled_clear {clients : List κ} (hnd : clients.Nodup) {k : κ} (hk : k ∈ clients)
    (q : κ → List β) :
    (pooled clients q).Perm (q k ++ pooled (clients.erase k) (Function.update q k [])) := by
  rw [pooled_update_of_notMem hnd.not_mem_erase]
  exact pooled_perm hk q

/-- A client that joins has nothing queued. -/
theorem pooled_join {clients : List κ} {k : κ} (hk : k ∉ clients) (q : κ → List β) :
    pooled (clients ++ [k]) (Function.update q k []) = pooled clients q := by
  rw [pooled, List.flatMap_append, List.flatMap_singleton, Function.update_self,
    List.append_nil]
  exact pooled_update_of_notMem hk q []

end QueueFamily
end UhdHost
