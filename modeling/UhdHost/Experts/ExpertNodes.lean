import UhdHost.Library.Dataflow

/-!
# The nodes of an expert graph

`data_node_t` and `worker_node_t` of `uhd/experts/expert_nodes.hpp`.  A data node holds a value, a
flag that says whether the value has changed since a worker has last consumed it, and who has set
it.  A worker reads some data nodes and sets others.

A worker is a task (`Dataflow.Task`): what it sets depends on the values that it reads and on nothing
else.  What it does to the hardware is left out.  The values of all data nodes are of one type, and
the equality of the source is equality.
-/

namespace UhdHost
namespace Experts

open Dataflow

/-- `node_author_t` -/
inductive NodeAuthor where
  | none
  | user
  | expert
  deriving DecidableEq, Repr

/-- `data_node_t`, with its `dirty_tracked` data. -/
structure DataNode (V : Type) where
  data : V
  dirty : Bool := true
  author : NodeAuthor := .none
  deriving DecidableEq

namespace DataNode

variable {V : Type} [DecidableEq V]

/-- `dirty_tracked::operator=` -/
def assign (n : DataNode V) (value : V) : DataNode V :=
  if n.data = value then n else { n with data := value, dirty := true }

/-- `set` -/
def set (n : DataNode V) (value : V) : DataNode V :=
  { n.assign value with author := .expert }

/-- What `commit` does to the node itself. -/
def setByUser (n : DataNode V) (value : V) : DataNode V :=
  { n.set value with author := .user }

/-- `mark_clean` -/
def markClean (n : DataNode V) : DataNode V := { n with dirty := false }

@[simp] theorem data_set (n : DataNode V) (value : V) : (n.set value).data = value := by
  rw [set, assign]
  split_ifs with h
  · exact h
  · rfl

@[simp] theorem data_setByUser (n : DataNode V) (value : V) :
    (n.setByUser value).data = value := data_set n value

theorem dirty_set (n : DataNode V) (value : V) :
    (n.set value).dirty = true ↔ n.dirty = true ∨ value ≠ n.data := by
  rw [set, assign]
  split_ifs with h
  · exact ⟨Or.inl, fun hdirty => hdirty.resolve_right fun hne => hne h.symm⟩
  · exact iff_of_true rfl (Or.inr fun heq => h heq.symm)

theorem dirty_setByUser (n : DataNode V) (value : V) :
    (n.setByUser value).dirty = true ↔ n.dirty = true ∨ value ≠ n.data := dirty_set n value

end DataNode

/-- `worker_node_t` -/
structure Worker (V : Type) extends Task String V where
  name : String

/-- The data nodes, by their names. -/
abbrev DataNodes (V : Type) := String → DataNode V

/-- The values of the data nodes. -/
def DataNodes.values {V : Type} (s : DataNodes V) : String → V := fun d => (s d).data

/-- A data node is set. -/
def DataNodes.setNode {V : Type} [DecidableEq V] (s : DataNodes V) (write : String × V) :
    DataNodes V :=
  Function.update s write.1 ((s write.1).set write.2)

namespace Worker

variable {V : Type}

/-- `is_dirty` -/
def isDirty (w : Worker V) (s : DataNodes V) : Bool := w.inputs.any fun d => (s d).dirty

/-- `mark_clean` -/
def markClean (w : Worker V) (s : DataNodes V) : DataNodes V :=
  fun d => if d ∈ w.inputs then (s d).markClean else s d

theorem isDirty_iff (w : Worker V) (s : DataNodes V) :
    w.isDirty s = true ↔ ∃ d ∈ w.inputs, (s d).dirty = true := List.any_eq_true

variable [DecidableEq V]

/-- `resolve` -/
def resolve (w : Worker V) (s : DataNodes V) : DataNodes V :=
  (w.writes s.values).foldl DataNodes.setNode s

/-! ## What a worker does to the nodes -/

theorem values_setNode (s : DataNodes V) (write : String × V) :
    (s.setNode write).values = Function.update s.values write.1 write.2 := by
  funext d
  by_cases hd : d = write.1
  · rw [DataNodes.values, DataNodes.setNode, hd, Function.update_self, Function.update_self,
      DataNode.data_set]
  · rw [DataNodes.values, DataNodes.setNode, Function.update_of_ne hd, Function.update_of_ne hd,
      DataNodes.values]

theorem values_foldl_setNode (s : DataNodes V) (writes : List (String × V)) :
    DataNodes.values (writes.foldl DataNodes.setNode s) = assign s.values writes := by
  induction writes generalizing s with
  | nil => rfl
  | cons write writes ih => rw [List.foldl_cons, ih, values_setNode, assign_cons]

theorem values_resolve (w : Worker V) (s : DataNodes V) :
    (w.resolve s).values = w.run s.values := values_foldl_setNode s _

theorem dirty_foldl_setNode (s : DataNodes V) (writes : List (String × V)) (d : String) :
    (writes.foldl DataNodes.setNode s d).dirty = true ↔
      (s d).dirty = true ∨ ∃ x, (d, x) ∈ writes ∧ x ≠ (s d).data := by
  induction writes generalizing s with
  | nil => exact ⟨Or.inl, fun h => h.resolve_right fun ⟨_, hx, _⟩ => absurd hx List.not_mem_nil⟩
  | cons write writes ih =>
    obtain ⟨e, y⟩ := write
    rw [List.foldl_cons, ih]
    by_cases hd : d = e
    · subst hd
      rw [DataNodes.setNode, Function.update_self, DataNode.dirty_set, DataNode.data_set]
      constructor
      · rintro ((hdirty | hne) | ⟨x, hx, hne⟩)
        · exact Or.inl hdirty
        · exact Or.inr ⟨y, List.mem_cons_self, hne⟩
        · by_cases hy : y = (s d).data
          · exact Or.inr ⟨x, List.mem_cons_of_mem _ hx, hy ▸ hne⟩
          · exact Or.inr ⟨y, List.mem_cons_self, hy⟩
      · rintro (hdirty | ⟨x, hx, hne⟩)
        · exact Or.inl (Or.inl hdirty)
        · by_cases hy : y = (s d).data
          · rcases List.mem_cons.mp hx with heq | hx
            · exact absurd ((Prod.mk.inj heq).2.trans hy) hne
            · exact Or.inr ⟨x, hx, hy ▸ hne⟩
          · exact Or.inl (Or.inr hy)
    · rw [DataNodes.setNode, Function.update_of_ne hd]
      refine or_congr_right (exists_congr fun x => and_congr_left fun _ => ?_)
      rw [List.mem_cons]
      exact ⟨Or.inr, fun h => h.resolve_left fun heq => hd (Prod.mk.inj heq).1⟩

theorem dirty_resolve (w : Worker V) (s : DataNodes V) (d : String) :
    (w.resolve s d).dirty = true ↔
      (s d).dirty = true ∨ ∃ x, (d, x) ∈ w.writes s.values ∧ x ≠ (s d).data :=
  dirty_foldl_setNode s _ d

theorem foldl_setNode_of_forall_ne (s : DataNodes V) {writes : List (String × V)} {d : String}
    (h : ∀ x, (d, x) ∉ writes) : writes.foldl DataNodes.setNode s d = s d := by
  induction writes generalizing s with
  | nil => rfl
  | cons write writes ih =>
    have hne : d ≠ write.1 := by
      rintro rfl
      exact h write.2 List.mem_cons_self
    rw [List.foldl_cons, ih _ fun x hx => h x (List.mem_cons_of_mem write hx),
      DataNodes.setNode, Function.update_of_ne hne]

theorem resolve_of_notMem {w : Worker V} (h : w.Functional) (s : DataNodes V) {d : String}
    (hd : d ∉ w.outputs) : w.resolve s d = s d :=
  foldl_setNode_of_forall_ne s fun x hx => hd ((h.mem_outputs _ d).mpr ⟨x, hx⟩)

end Worker
end Experts
end UhdHost
