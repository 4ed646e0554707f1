import Mathlib.Data.List.Nodup
import Mathlib.Logic.Function.Basic
import Mathlib.Tactic.Common

/-!
# A list with a map from its entries to their positions

A vector whose entries are all different is often kept together with a map that finds the position
of an entry.  `Indexes m l` says that the map and the vector agree.

* `Indexes.append`: a new entry at the end.
* `reindex` goes over the vector and writes every position into the map, which is what has to be
  done after an entry was taken out of the middle: `Indexes.eraseIdx`.
-/

namespace UhdHost
namespace IndexMap

variable {ν : Type*}

/-- The map finds the position of each entry of the list, and nothing else. -/
def Indexes (m : ν → Option ℕ) (l : List ν) : Prop := ∀ n i, m n = some i ↔ l[i]? = some n

namespace Indexes

variable {m : ν → Option ℕ} {l : List ν}

theorem mem_iff (h : Indexes m l) {n : ν} : n ∈ l ↔ m n ≠ none := by
  rw [Option.ne_none_iff_exists', List.mem_iff_getElem?]
  exact exists_congr fun i => (h n i).symm

theorem eq_none_iff (h : Indexes m l) {n : ν} : m n = none ↔ n ∉ l := by
  rw [h.mem_iff, not_not]

theorem nodup (h : Indexes m l) : l.Nodup := by
  rw [List.nodup_iff_getElem?_ne_getElem?]
  intro i j hij hj heq
  obtain ⟨n, hn⟩ : ∃ n, l[j]? = some n := ⟨_, List.getElem?_eq_getElem hj⟩
  have hi := (h n i).mpr (heq.trans hn)
  have hj := (h n j).mpr hn
  rw [hi] at hj
  exact absurd (Option.some.inj hj) (Nat.ne_of_lt hij)

theorem nil : Indexes (fun _ : ν => none) [] :=
  fun n i => ⟨fun h => absurd h (by simp), fun h => absurd h (by simp)⟩

variable [DecidableEq ν]

/-- A new entry at the end. -/
theorem append (h : Indexes m l) {n : ν} (hn : m n = none) :
    Indexes (Function.update m n (some l.length)) (l ++ [n]) := by
  intro k i
  by_cases hk : k = n
  · subst hk
    rw [Function.update_self, Option.some.injEq]
    constructor
    · rintro rfl
      exact List.getElem?_concat_length
    · intro hi
      by_contra hne
      have hlt : i < (l ++ [k]).length := (List.getElem?_eq_some_iff.mp hi).1
      rw [List.length_append, List.length_singleton] at hlt
      rw [List.getElem?_append_left (by omega)] at hi
      exact h.eq_none_iff.mp hn (List.mem_of_getElem? hi)
  · rw [Function.update_of_ne hk, h k i]
    constructor
    · intro hi
      rw [List.getElem?_append_left (List.getElem?_eq_some_iff.mp hi).1]
      exact hi
    · intro hi
      rcases Nat.lt_or_ge i l.length with hlt | hge
      · rwa [List.getElem?_append_left hlt] at hi
      · rw [List.getElem?_append_right hge] at hi
        have hmem := List.mem_of_getElem? hi
        exact absurd (List.mem_singleton.mp hmem) hk

end Indexes

variable [DecidableEq ν]

/-- Write the positions of the entries into the map; the list begins at position `i`. -/
def reindex (m : ν → Option ℕ) : List ν → ℕ → (ν → Option ℕ)
  | [], _ => m
  | n :: l, i => reindex (Function.update m n (some i)) l (i + 1)

theorem reindex_of_notMem {m : ν → Option ℕ} {l : List ν} {i : ℕ} {n : ν} (hn : n ∉ l) :
    reindex m l i n = m n := by
  induction l generalizing m i with
  | nil => rfl
  | cons k l ih =>
    rw [List.mem_cons, not_or] at hn
    rw [reindex, ih hn.2, Function.update_of_ne hn.1]

theorem reindex_getElem? {m : ν → Option ℕ} {l : List ν} {i j : ℕ} {n : ν} (hl : l.Nodup)
    (hj : l[j]? = some n) : reindex m l i n = some (i + j) := by
  induction l generalizing m i j with
  | nil => exact absurd hj (by simp)
  | cons k l ih =>
    rw [reindex]
    cases j with
    | zero =>
      rw [List.getElem?_cons_zero, Option.some.injEq] at hj
      subst hj
      rw [reindex_of_notMem (List.nodup_cons.mp hl).1, Function.update_self, Nat.add_zero]
    | succ j =>
      rw [List.getElem?_cons_succ] at hj
      rw [ih (List.nodup_cons.mp hl).2 hj, Nat.add_assoc, Nat.add_comm 1 j]

/-- **Reindexing makes the map agree with the list**, if what is not in the list is not in the
map. -/
theorem indexes_reindex {m : ν → Option ℕ} {l : List ν} (hl : l.Nodup)
    (hm : ∀ n ∉ l, m n = none) : Indexes (reindex m l 0) l := by
  intro n i
  constructor
  · intro hn
    by_cases hmem : n ∈ l
    · obtain ⟨j, hj⟩ := List.mem_iff_getElem?.mp hmem
      rw [reindex_getElem? hl hj, Nat.zero_add, Option.some.injEq] at hn
      rwa [← hn]
    · rw [reindex_of_notMem hmem, hm n hmem] at hn
      exact absurd hn (by simp)
  · intro hi
    rw [reindex_getElem? hl hi, Nat.zero_add]

/-- **Taking an entry out of the middle.** -/
theorem Indexes.eraseIdx {m : ν → Option ℕ} {l : List ν} (h : Indexes m l) {n : ν} {i : ℕ}
    (hn : m n = some i) :
    Indexes (reindex (Function.update m n none) (l.eraseIdx i) 0) (l.eraseIdx i) := by
  have hi : l[i]? = some n := (h n i).mp hn
  refine indexes_reindex (h.nodup.eraseIdx i) fun k hk => ?_
  by_cases hkn : k = n
  · rw [hkn, Function.update_self]
  · rw [Function.update_of_ne hkn, h.eq_none_iff]
    intro hmem
    obtain ⟨j, hj⟩ := List.mem_iff_getElem?.mp hmem
    refine hk (List.mem_eraseIdx_iff_getElem?.mpr ⟨j, ?_, hj⟩)
    rintro rfl
    rw [hj, Option.some.injEq] at hi
    exact hkn hi

/-- What is left when an entry is taken out. -/
theorem Indexes.eraseIdx_eq_filter {m : ν → Option ℕ} {l : List ν} (h : Indexes m l) {n : ν}
    {i : ℕ} (hn : m n = some i) : l.eraseIdx i = l.filter (· ≠ n) := by
  have hi : l[i]? = some n := (h n i).mp hn
  obtain ⟨hlt, rfl⟩ := List.getElem?_eq_some_iff.mp hi
  rw [← List.Nodup.erase_getElem h.nodup i hlt, h.nodup.erase_eq_filter]
  exact List.filter_congr fun k _ => by rw [decide_not, bne, beq_eq_decide]

/-- The position of an entry after the entry at position `i` was taken out. -/
def shift (i j : ℕ) : ℕ := if i < j then j - 1 else j

theorem getElem?_eraseIdx_shift {l : List ν} {i j : ℕ} (hij : j ≠ i) :
    (l.eraseIdx i)[shift i j]? = l[j]? := by
  unfold shift
  rw [List.getElem?_eraseIdx]
  split_ifs with h1 h2 h2
  · omega
  · rw [Nat.sub_add_cancel (by omega)]
  · rfl
  · omega

end IndexMap
end UhdHost
