import Mathlib.Data.List.Nodup
import Mathlib.Data.List.Infix
import Mathlib.Tactic.Common

/-!
# Trees with keys on their edges

A node of a `KeyTree` has perhaps a value, and children that are found by their keys.  The
children are kept in a list, in the order in which they were added.

* `values t` forgets the order: it maps each list of keys to what is at the end of that path,
  and is `none` where there is no such node.
* `graft ks f t` walks along a path, adds what is missing of it and changes the node at its end.
  What it does to the values is `values_graft_append` below the end of the path and
  `values_graft_outside` elsewhere.
* `erase` takes out a child.  `values_graft_erase` says that erasing the last key of a path at
  the end of what is before it takes out exactly the paths that lead through the node.

No two children of a node have the same key (`Distinct`), and the operations keep that.
-/

namespace UhdHost

variable {κ α β : Type}

/-! ## Lists of keys with entries -/

namespace KeyList

variable [DecidableEq κ]

/-- The entry of a key. -/
def get (k : κ) : List (κ × β) → Option β
  | [] => none
  | (k', b) :: l => if k' = k then some b else get k l

/-- The entry of a key is replaced, or added at the end. -/
def set (k : κ) (b : β) : List (κ × β) → List (κ × β)
  | [] => [(k, b)]
  | (k', b') :: l => if k' = k then (k', b) :: l else (k', b') :: set k b l

/-- The first entry of a key is taken out. -/
def erase (k : κ) : List (κ × β) → List (κ × β)
  | [] => []
  | (k', b') :: l => if k' = k then l else (k', b') :: erase k l

variable {k j : κ} {b : β} {l : List (κ × β)}

theorem get_eq_none_iff : get k l = none ↔ k ∉ l.map Prod.fst := by
  induction l with
  | nil => exact ⟨fun _ => List.not_mem_nil, fun _ => rfl⟩
  | cons e l ih =>
    obtain ⟨k', b'⟩ := e
    rw [get, List.map_cons, List.mem_cons, not_or]
    split_ifs with hk
    · subst hk
      constructor
      · intro h
        cases h
      · intro h
        exact absurd rfl h.1
    · exact ⟨fun h => ⟨fun heq => hk heq.symm, ih.mp h⟩, fun h => ih.mpr h.2⟩

theorem get_set (k j : κ) (b : β) (l : List (κ × β)) :
    get j (set k b l) = if j = k then some b else get j l := by
  induction l with
  | nil =>
    rw [set, get, get]
    split_ifs with h h' h'
    · rfl
    · exact absurd h.symm h'
    · exact absurd h'.symm h
    · rfl
  | cons e l ih =>
    obtain ⟨k', b'⟩ := e
    rw [set]
    by_cases hk : k' = k
    · subst hk
      rw [if_pos rfl, get, get]
      by_cases hj : j = k'
      · rw [if_pos hj.symm, if_pos hj]
      · rw [if_neg (Ne.symm hj), if_neg (Ne.symm hj), if_neg hj]
    · rw [if_neg hk, get, get, ih]
      by_cases hj : k' = j
      · subst hj
        rw [if_pos rfl, if_pos rfl, if_neg hk]
      · rw [if_neg hj, if_neg hj]

theorem keys_set : (set k b l).map Prod.fst =
    if k ∈ l.map Prod.fst then l.map Prod.fst else l.map Prod.fst ++ [k] := by
  induction l with
  | nil => rfl
  | cons e l ih =>
    obtain ⟨k', b'⟩ := e
    rw [set]
    by_cases hk : k' = k
    · subst hk
      rw [if_pos rfl, List.map_cons, List.map_cons, if_pos List.mem_cons_self]
    · rw [if_neg hk, List.map_cons, ih, List.map_cons]
      by_cases hmem : k ∈ l.map Prod.fst
      · rw [if_pos hmem, if_pos (List.mem_cons_of_mem _ hmem)]
      · rw [if_neg hmem, if_neg (List.not_mem_cons_of_ne_of_not_mem (Ne.symm hk) hmem)]
        rfl

theorem nodup_set (h : (l.map Prod.fst).Nodup) (k : κ) (b : β) :
    ((set k b l).map Prod.fst).Nodup := by
  rw [keys_set]
  split_ifs with hmem
  · exact h
  · rw [← List.concat_eq_append]
    exact h.concat hmem

theorem erase_sublist (k : κ) (l : List (κ × β)) : (erase k l).Sublist l := by
  induction l with
  | nil => exact List.Sublist.slnil
  | cons e l ih =>
    obtain ⟨k', b'⟩ := e
    rw [erase]
    split_ifs
    · exact List.sublist_cons_self _ _
    · exact ih.cons_cons _

theorem get_erase (h : (l.map Prod.fst).Nodup) (k j : κ) :
    get j (erase k l) = if j = k then none else get j l := by
  induction l with
  | nil => exact (ite_self _).symm
  | cons e l ih =>
    obtain ⟨k', b'⟩ := e
    rw [List.map_cons, List.nodup_cons] at h
    rw [erase]
    by_cases hk : k' = k
    · subst hk
      rw [if_pos rfl, get]
      by_cases hj : j = k'
      · subst hj
        rw [if_pos rfl]
        exact get_eq_none_iff.mpr h.1
      · rw [if_neg hj, if_neg (Ne.symm hj)]
    · rw [if_neg hk, get, get, ih h.2]
      by_cases hj : k' = j
      · subst hj
        rw [if_pos rfl, if_pos rfl, if_neg hk]
      · rw [if_neg hj, if_neg hj]

end KeyList

/-! ## Trees -/

/-- A tree with keys on its edges and values at some of its nodes. -/
inductive KeyTree (κ α : Type) where
  | node (value : Option α) (children : List (κ × KeyTree κ α))

namespace KeyTree

/-- A node without a value and without children. -/
def empty : KeyTree κ α := node none []

def value : KeyTree κ α → Option α
  | node v _ => v

def children : KeyTree κ α → List (κ × KeyTree κ α)
  | node _ cs => cs

/-- The keys of the children. -/
def keys (t : KeyTree κ α) : List κ := t.children.map Prod.fst

/-- The same node with another value. -/
def setValue (v : Option α) (t : KeyTree κ α) : KeyTree κ α := node v t.children

variable [DecidableEq κ]

def child (k : κ) (t : KeyTree κ α) : Option (KeyTree κ α) := KeyList.get k t.children

def setChild (t : KeyTree κ α) (k : κ) (c : KeyTree κ α) : KeyTree κ α :=
  node t.value (KeyList.set k c t.children)

/-- A child is taken out, with all that is below it. -/
def erase (k : κ) (t : KeyTree κ α) : KeyTree κ α := node t.value (KeyList.erase k t.children)

/-- The node at the end of a path. -/
def find : List κ → KeyTree κ α → Option (KeyTree κ α)
  | [], t => some t
  | k :: ks, t => (t.child k).bind (find ks)

/-- A path is walked, nodes are added where there are none, and the last node is changed. -/
def graft : List κ → (KeyTree κ α → KeyTree κ α) → KeyTree κ α → KeyTree κ α
  | [], f, t => f t
  | k :: ks, f, t => t.setChild k (graft ks f ((t.child k).getD empty))

/-- What is at the end of each path. -/
def values (t : KeyTree κ α) (ks : List κ) : Option (Option α) := (t.find ks).map value

variable {t u : KeyTree κ α} {k j : κ} {ks js : List κ}

@[simp] theorem find_nil (t : KeyTree κ α) : t.find [] = some t := rfl

theorem find_cons (k : κ) (ks : List κ) (t : KeyTree κ α) :
    t.find (k :: ks) = (t.child k).bind (find ks) := rfl

theorem find_append (ks js : List κ) (t : KeyTree κ α) :
    t.find (ks ++ js) = (t.find ks).bind (find js) := by
  induction ks generalizing t with
  | nil => rfl
  | cons k ks ih =>
    rw [List.cons_append, find_cons, find_cons, Option.bind_assoc]
    exact congrArg _ (funext fun u => ih u)

theorem child_setChild (t : KeyTree κ α) (k j : κ) (c : KeyTree κ α) :
    (t.setChild k c).child j = if j = k then some c else t.child j :=
  KeyList.get_set k j c t.children

theorem child_empty (k : κ) : (empty : KeyTree κ α).child k = none := rfl

theorem values_nil (t : KeyTree κ α) : t.values [] = some t.value := rfl

theorem values_cons (k : κ) (ks : List κ) (t : KeyTree κ α) :
    t.values (k :: ks) = (t.child k).bind fun u => u.values ks := by
  rw [values, find_cons, Option.map_bind]
  rfl

theorem values_empty_cons (k : κ) (ks : List κ) : (empty : KeyTree κ α).values (k :: ks) = none :=
  rfl

theorem values_append (h : t.find ks = some u) (js : List κ) :
    t.values (ks ++ js) = u.values js := by
  rw [values, find_append, h]
  rfl

theorem values_append_of_none (h : t.find ks = none) (js : List κ) :
    t.values (ks ++ js) = none := by
  rw [values, find_append, h]
  rfl

theorem values_eq_none_iff : t.values ks = none ↔ t.find ks = none := Option.map_eq_none_iff

/-- Where there is a node, there are all nodes on the way to it. -/
theorem values_ne_none_of_prefix (h : t.values ks ≠ none) (hpre : js <+: ks) :
    t.values js ≠ none := by
  obtain ⟨r, rfl⟩ := hpre
  intro hnone
  exact h (values_append_of_none (values_eq_none_iff.mp hnone) r)

/-! ## Walking a path -/

theorem values_graft_append (ks js : List κ) (f : KeyTree κ α → KeyTree κ α) (t : KeyTree κ α) :
    (t.graft ks f).values (ks ++ js) = (f ((t.find ks).getD empty)).values js := by
  induction ks generalizing t with
  | nil => rfl
  | cons k ks ih =>
    rw [List.cons_append, values_cons, graft, child_setChild, if_pos rfl, Option.bind_some, ih,
      find_cons]
    cases hchild : t.child k with
    | some u => rfl
    | none =>
      rw [Option.getD_none, Option.bind_none, Option.getD_none]
      cases ks with
      | nil => rfl
      | cons k' ks => rfl

/-- **Beside and above the end of the path**, only missing nodes on the path are added. -/
theorem values_graft_outside (f : KeyTree κ α → KeyTree κ α) (t : KeyTree κ α)
    (h : ¬ ks <+: js) :
    (t.graft ks f).values js =
      if js <+: ks then some ((t.values js).getD none) else t.values js := by
  induction ks generalizing t js with
  | nil => exact absurd (List.nil_prefix) h
  | cons k ks ih =>
    cases js with
    | nil => rw [if_pos List.nil_prefix]; rfl
    | cons j js =>
      rw [values_cons, values_cons, graft, child_setChild]
      by_cases hj : j = k
      · subst hj
        have hrest : ¬ ks <+: js := fun hpre => h ((List.cons_prefix_cons).mpr ⟨rfl, hpre⟩)
        have hiff : (j :: js <+: j :: ks) ↔ js <+: ks := by
          rw [List.cons_prefix_cons]
          exact and_iff_right rfl
        rw [if_pos rfl, Option.bind_some, ih _ hrest, if_congr hiff rfl rfl]
        cases hchild : t.child j with
        | some u => rfl
        | none =>
          rw [Option.getD_none, Option.bind_none, Option.getD_none]
          cases js with
          | nil => rw [if_pos List.nil_prefix, if_pos List.nil_prefix]; rfl
          | cons j' js => rfl
      · rw [if_neg hj, if_neg fun hpre => hj (List.cons_prefix_cons.mp hpre).1]

/-! ## Distinct keys -/

/-- No two children of a node have the same key. -/
def Distinct (t : KeyTree κ α) : Prop := ∀ ks u, t.find ks = some u → u.keys.Nodup

theorem distinct_empty : Distinct (empty : KeyTree κ α) := by
  intro ks u hu
  cases ks with
  | nil =>
    rw [find_nil, Option.some_inj] at hu
    rw [← hu]
    exact List.nodup_nil
  | cons k ks => cases hu

theorem Distinct.keys (h : Distinct t) : t.keys.Nodup := h [] t rfl

theorem Distinct.child (h : Distinct t) (hu : t.child k = some u) : Distinct u := by
  intro ks v hv
  refine h (k :: ks) v ?_
  rw [find_cons, hu]
  exact hv

theorem distinct_of (hkeys : t.keys.Nodup) (h : ∀ k u, t.child k = some u → Distinct u) :
    Distinct t := by
  intro ks v hv
  cases ks with
  | nil =>
    rw [find_nil, Option.some_inj] at hv
    exact hv ▸ hkeys
  | cons k ks =>
    obtain ⟨u, hu, hv⟩ := Option.bind_eq_some_iff.mp hv
    exact h k u hu ks v hv

theorem Distinct.setValue (h : Distinct t) (v : Option α) : Distinct (t.setValue v) :=
  distinct_of h.keys fun _ _ hu => h.child hu

theorem Distinct.erase (h : Distinct t) (k : κ) : Distinct (t.erase k) := by
  refine distinct_of (h.keys.sublist ((KeyList.erase_sublist k _).map Prod.fst)) ?_
  intro j u hu
  have hget := KeyList.get_erase h.keys k j
  rw [show (t.erase k).child j = _ from hget] at hu
  split_ifs at hu
  exact h.child hu

theorem Distinct.graft (h : Distinct t) {f : KeyTree κ α → KeyTree κ α}
    (hf : ∀ u, Distinct u → Distinct (f u)) (ks : List κ) : Distinct (t.graft ks f) := by
  induction ks generalizing t with
  | nil => exact hf t h
  | cons k ks ih =>
    refine distinct_of (KeyList.nodup_set h.keys k _) fun j u hu => ?_
    rw [KeyTree.graft, child_setChild] at hu
    split_ifs at hu
    · rw [← Option.some.inj hu]
      refine ih ?_
      cases hchild : t.child k with
      | none => exact distinct_empty
      | some u => exact h.child hchild
    · exact h.child hu

/-- The keys of a node are those of its children. -/
theorem mem_keys_iff : k ∈ t.keys ↔ t.values [k] ≠ none := by
  rw [values_cons]
  cases hchild : t.child k with
  | none =>
    exact ⟨fun h => absurd h (KeyList.get_eq_none_iff.mp hchild), fun h => absurd rfl h⟩
  | some u =>
    refine ⟨fun _ => Option.some_ne_none _, fun _ => ?_⟩
    by_contra hmem
    have hnone : t.child k = none := KeyList.get_eq_none_iff.mpr hmem
    rw [hnone] at hchild
    cases hchild

theorem child_erase (h : Distinct t) (k j : κ) :
    (t.erase k).child j = if j = k then none else t.child j := KeyList.get_erase h.keys k j

/-! ## Taking out and adding -/

/-- **Taking out a node** takes out the paths that lead through it, and nothing else. -/
theorem values_graft_erase (h : Distinct t) (hu : t.find ks = some u) (k : κ) (js : List κ) :
    (t.graft ks (KeyTree.erase k)).values js =
      if ks ++ [k] <+: js then none else t.values js := by
  by_cases hpre : ks <+: js
  · obtain ⟨r, rfl⟩ := hpre
    have hd : Distinct u := fun ls v hv => h (ks ++ ls) v (by rw [find_append, hu]; exact hv)
    rw [values_graft_append, hu, Option.getD_some, values_append hu,
      if_congr (List.prefix_append_right_inj ks) rfl rfl]
    cases r with
    | nil =>
      rw [if_neg fun hp => absurd hp.length_le (by simp)]
      rfl
    | cons j r =>
      rw [values_cons, values_cons, child_erase hd]
      by_cases hj : j = k
      · subst hj
        rw [if_pos rfl, if_pos (List.cons_prefix_cons.mpr ⟨rfl, List.nil_prefix⟩)]
        rfl
      · rw [if_neg hj, if_neg fun hp => hj (List.cons_prefix_cons.mp hp).1.symm]
  · have hnot : ¬ ks ++ [k] <+: js := fun hp => hpre ((List.prefix_append ks [k]).trans hp)
    rw [values_graft_outside _ _ hpre, if_neg hnot]
    split_ifs with hjs
    · have hne : t.values js ≠ none := by
        refine values_ne_none_of_prefix ?_ hjs
        rw [Ne, values_eq_none_iff, hu]
        exact Option.some_ne_none _
      obtain ⟨v, hv⟩ := Option.ne_none_iff_exists'.mp hne
      rw [hv, Option.getD_some]
    · rfl

/-- Walking a path adds what is missing of it. -/
theorem values_graft_id (t : KeyTree κ α) (ks js : List κ) :
    (t.graft ks id).values js =
      if js <+: ks then some ((t.values js).getD none) else t.values js := by
  by_cases hpre : ks <+: js
  · obtain ⟨r, rfl⟩ := hpre
    rw [values_graft_append]
    cases r with
    | nil =>
      rw [List.append_nil, if_pos List.prefix_rfl]
      cases hu : t.find ks with
      | none => rw [values_eq_none_iff.mpr hu]; rfl
      | some u => rw [values, values, hu]; rfl
    | cons j r =>
      rw [if_neg fun hp => absurd hp.length_le (by simp)]
      cases hu : t.find ks with
      | none => rw [values_append_of_none hu]; rfl
      | some u => rw [values_append hu]; rfl
  · exact values_graft_outside _ _ hpre

/-- **Setting a value** at the end of a path that is there. -/
theorem values_graft_setValue (hu : t.find ks = some u) (v : Option α) (js : List κ) :
    (t.graft ks (KeyTree.setValue v)).values js =
      if js = ks then some v else t.values js := by
  by_cases hpre : ks <+: js
  · obtain ⟨r, rfl⟩ := hpre
    rw [values_graft_append, hu, values_append hu]
    cases r with
    | nil => rw [List.append_nil, if_pos rfl]; rfl
    | cons j r =>
      rw [if_neg fun hp => absurd (congrArg List.length hp) (by simp)]
      rfl
  · have hne : js ≠ ks := fun heq => hpre (heq ▸ List.prefix_rfl)
    rw [values_graft_outside _ _ hpre, if_neg hne]
    split_ifs with hjs
    · have hne : t.values js ≠ none := by
        refine values_ne_none_of_prefix ?_ hjs
        rw [Ne, values_eq_none_iff, hu]
        exact Option.some_ne_none _
      obtain ⟨w, hw⟩ := Option.ne_none_iff_exists'.mp hne
      rw [hw, Option.getD_some]
    · rfl

end KeyTree
end UhdHost
