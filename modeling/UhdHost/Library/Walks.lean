import Mathlib.Data.List.Perm.Basic
import Mathlib.Data.Fintype.EquivFin
import Mathlib.Data.Fintype.Pigeonhole
import Mathlib.Data.Set.Finite.Basic
import Mathlib.Logic.Relation
import Mathlib.Tactic.Common

/-!
# Walks, and going on until there is nothing to go on to

A walk is a list of arcs, each of which begins where the one before it ends.

* `indegree_eq_outdegree`: a walk leaves each place as often as it enters it, its two ends apart.
  This does not depend on the order of the arcs, so that it can be told from the arcs alone whether
  two walks can be joined to one (`exists_perm_walk_append_iff`).
* `Ends f a`: going on from `a` as `f` says comes to an end.  Where `f` leads to finitely many
  places, this is so if and only if no place on the way leads back to itself
  (`ends_iff_no_return`).
-/

namespace UhdHost
namespace Walks

variable {α : Type*}

/-! ## Walks -/

/-- A walk from one place to another. -/
inductive Walk : α → List (α × α) → α → Prop where
  | nil (p : α) : Walk p [] p
  | cons {p q : α} (a : α × α) {l : List (α × α)} (hp : a.1 = p) (h : Walk a.2 l q) :
      Walk p (a :: l) q

theorem Walk.eq_of_nil {p q : α} (h : Walk p [] q) : p = q := by
  cases h with
  | nil _ => rfl

theorem Walk.append {p q r : α} {l l' : List (α × α)} (h : Walk p l q) (h' : Walk q l' r) :
    Walk p (l ++ l') r := by
  induction h with
  | nil _ => exact h'
  | cons a hp _ ih => exact Walk.cons a hp (ih h')

theorem Walk.concat {p q : α} {l : List (α × α)} (h : Walk p l q) (a : α × α) (hq : a.1 = q) :
    Walk p (l ++ [a]) a.2 :=
  h.append (Walk.cons a hq (Walk.nil a.2))

/-- A walk can be gone back. -/
theorem Walk.reverse {p q : α} {l : List (α × α)} (h : Walk p l q) :
    Walk q (l.map Prod.swap).reverse p := by
  induction h with
  | nil p => exact Walk.nil p
  | cons a hp _ ih =>
    rw [List.map_cons, List.reverse_cons, ← hp]
    exact ih.concat a.swap rfl

/-- The first arc of a walk begins where the walk does. -/
theorem Walk.exists_mem_fst {p q : α} {l : List (α × α)} (h : Walk p l q) (hl : l ≠ []) :
    ∃ a ∈ l, a.1 = p := by
  cases h with
  | nil _ => exact absurd rfl hl
  | cons a hp _ => exact ⟨a, List.mem_cons_self, hp⟩

/-- The last arc of a walk ends where the walk does. -/
theorem Walk.exists_mem_snd {p q : α} {l : List (α × α)} (h : Walk p l q) (hl : l ≠ []) :
    ∃ a ∈ l, a.2 = q := by
  induction h with
  | nil _ => exact absurd rfl hl
  | @cons p q a l hp h ih =>
    rcases eq_or_ne l [] with rfl | hne
    · cases h with
      | nil _ => exact ⟨a, List.mem_cons_self, rfl⟩
    · obtain ⟨b, hb, hq⟩ := ih hne
      exact ⟨b, List.mem_cons_of_mem a hb, hq⟩

/-! ## Degrees -/

variable [DecidableEq α]

/-- How many arcs end at a place. -/
def indegree (l : List (α × α)) (v : α) : ℕ := l.countP fun a => decide (a.2 = v)

/-- How many arcs begin at a place. -/
def outdegree (l : List (α × α)) (v : α) : ℕ := l.countP fun a => decide (a.1 = v)

/-- One for the place itself. -/
def here (p v : α) : ℕ := if p = v then 1 else 0

theorem Walk.indegree_eq_outdegree {p q : α} {l : List (α × α)} (h : Walk p l q) (v : α) :
    outdegree l v + here q v = indegree l v + here p v := by
  induction h with
  | nil _ => rfl
  | @cons p q a l hp _ ih =>
    rw [← hp]
    simp only [outdegree, indegree, here, List.countP_cons, decide_eq_true_eq] at ih ⊢
    omega

theorem indegree_append (l l' : List (α × α)) (v : α) :
    indegree (l ++ l') v = indegree l v + indegree l' v :=
  List.countP_append

theorem outdegree_append (l l' : List (α × α)) (v : α) :
    outdegree (l ++ l') v = outdegree l v + outdegree l' v :=
  List.countP_append

/-- **Joining two walks.**  The arcs of a walk that begins at `p` and of one that ends at `q` can be
ordered to a walk from `p` to `q` exactly if the first one ends where the second one begins. -/
theorem exists_perm_walk_append_iff {p s d q : α} {l l' : List (α × α)} (h : Walk p l s)
    (h' : Walk d l' q) : (∃ w, w.Perm (l ++ l') ∧ Walk p w q) ↔ s = d := by
  constructor
  · rintro ⟨w, hperm, hw⟩
    have hdegrees := hw.indegree_eq_outdegree s
    have hout : outdegree w s = outdegree (l ++ l') s := hperm.countP_eq _
    have hin : indegree w s = indegree (l ++ l') s := hperm.countP_eq _
    rw [hout, hin, indegree_append, outdegree_append] at hdegrees
    have hfirst := h.indegree_eq_outdegree s
    have hsecond := h'.indegree_eq_outdegree s
    have hs : here s s = 1 := if_pos rfl
    have hd : here d s = 1 := by omega
    by_contra hne
    rw [here, if_neg (Ne.symm hne)] at hd
    exact absurd hd zero_ne_one
  · rintro rfl
    exact ⟨l ++ l', List.Perm.refl _, h.append h'⟩

omit [DecidableEq α]

/-! ## Going on until there is nothing to go on to -/

variable (f : α → Option α)

/-- One place is the next one after another. -/
def Next (a b : α) : Prop := f a = some b

/-- Going on comes to an end. -/
inductive Ends : α → Prop where
  | stop {a : α} (h : f a = none) : Ends a
  | next {a b : α} (h : f a = some b) (hb : Ends b) : Ends a

/-- A place that going on from `a` leads to, and that leads back to itself. -/
def ReturnsFrom (a : α) : Prop :=
  ∃ b, Relation.ReflTransGen (Next f) a b ∧ Relation.TransGen (Next f) b b

variable {f}

/-- Wherever going on comes to an end, no place on the way is a place further back. -/
theorem Ends.not_returnsFrom {a : α} (h : Ends f a) : ¬ ReturnsFrom f a := by
  induction h with
  | @stop a hstop =>
    rintro ⟨b, hreach, hreturn⟩
    have hnone : ∀ c, ¬ Next f a c := fun c hc => Option.some_ne_none c (hc.symm.trans hstop)
    rcases hreach.cases_head with rfl | ⟨c, hc, -⟩
    · obtain ⟨c, hc, -⟩ := Relation.TransGen.head'_iff.mp hreturn
      exact hnone c hc
    · exact hnone c hc
  | @next a b hb _ ih =>
    have hunique : ∀ c, Next f a c → c = b := fun c hc => Option.some_inj.mp (hc.symm.trans hb)
    rintro ⟨d, hreach, hreturn⟩
    refine ih ⟨d, ?_, hreturn⟩
    rcases hreach.cases_head with rfl | ⟨c, hc, hcd⟩
    · obtain ⟨c, hc, hback⟩ := Relation.TransGen.head'_iff.mp hreturn
      exact hunique c hc ▸ hback
    · exact hunique c hc ▸ hcd

/-- The place that follows, or the same place again at the end. -/
def follow (f : α → Option α) (a : α) : α := (f a).getD a

theorem next_follow {a : α} (h : ¬ Ends f a) : Next f a (follow f a) := by
  rcases hf : f a with _ | b
  · exact absurd (Ends.stop hf) h
  · rw [Next, follow, hf, Option.getD_some]

theorem not_ends_iterate {a : α} (h : ¬ Ends f a) (n : ℕ) : ¬ Ends f ((follow f)^[n] a) := by
  induction n with
  | zero => exact h
  | succ n ih =>
    rw [Function.iterate_succ_apply']
    exact fun hend => ih (Ends.next (next_follow ih) hend)

theorem reflTransGen_iterate {a : α} (h : ¬ Ends f a) (m n : ℕ) :
    Relation.ReflTransGen (Next f) ((follow f)^[m] a) ((follow f)^[m + n] a) := by
  induction n with
  | zero => exact Relation.ReflTransGen.refl
  | succ n ih =>
    refine ih.tail ?_
    rw [← Nat.add_assoc, Function.iterate_succ_apply']
    exact next_follow (not_ends_iterate h (m + n))

theorem transGen_iterate {a : α} (h : ¬ Ends f a) {m n : ℕ} (hmn : m < n) :
    Relation.TransGen (Next f) ((follow f)^[m] a) ((follow f)^[n] a) := by
  obtain ⟨k, rfl⟩ := Nat.exists_eq_add_of_lt hmn
  refine Relation.TransGen.head' ?_ (?_ : Relation.ReflTransGen _ ((follow f)^[m + 1] a) _)
  · rw [Function.iterate_succ_apply']
    exact next_follow (not_ends_iterate h m)
  · have hreach := reflTransGen_iterate h (m + 1) k
    rwa [show m + 1 + k = m + k + 1 by omega] at hreach

/-- **Finitely many places.**  Where going on leads to finitely many places, it comes to an end if
and only if it does not lead to a place that leads back to itself. -/
theorem ends_iff_no_return (hfinite : {b | ∃ a, f a = some b}.Finite) (a : α) :
    Ends f a ↔ ¬ ReturnsFrom f a := by
  refine ⟨Ends.not_returnsFrom, fun hreturn => ?_⟩
  by_contra h
  have hmem : ∀ n, (follow f)^[n + 1] a ∈ {b | ∃ a, f a = some b} := by
    intro n
    refine ⟨(follow f)^[n] a, ?_⟩
    rw [Function.iterate_succ_apply']
    exact next_follow (not_ends_iterate h n)
  have : Finite {b | ∃ a, f a = some b} := hfinite
  obtain ⟨i, j, hij, heq⟩ := Finite.exists_ne_map_eq_of_infinite
    fun n => (⟨(follow f)^[n + 1] a, hmem n⟩ : {b | ∃ a, f a = some b})
  have heq' : (follow f)^[i + 1] a = (follow f)^[j + 1] a := congrArg Subtype.val heq
  have hreach : ∀ n, Relation.ReflTransGen (Next f) a ((follow f)^[n] a) := fun n => by
    have hreach := reflTransGen_iterate h 0 n
    rwa [Nat.zero_add] at hreach
  refine hreturn ⟨(follow f)^[i + 1] a, hreach (i + 1), ?_⟩
  rcases Nat.lt_or_gt_of_ne hij with hlt | hlt
  · have hloop := transGen_iterate h (Nat.succ_lt_succ hlt)
    rwa [← heq'] at hloop
  · have hloop := transGen_iterate h (Nat.succ_lt_succ hlt)
    rwa [← heq'] at hloop

end Walks
end UhdHost
