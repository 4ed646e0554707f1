import Mathlib

/-!
# Patterns of repetitions

A pattern that is a sequence of repetitions, each of letters of one class: at least so many of them,
and as many as there are.  A word is matched as a whole, from the left: a repetition takes as many
letters as it can, and gives them back one by one as long as the rest of the word does not match.
What is matched is the piece of each repetition.

* `Cut` is what such pieces are; `cut_of_matchAll` and `exists_matchAll_of_cut`: the pieces that are
  found are a cut, and where there is a cut some are found.
* `eq_of_append_eq_append`: a word is cut in one way only between a letter that is not in a class
  and letters that are.
-/

namespace UhdHost
namespace Repetitions

variable {α β : Type*}

/-- A repetition: of the letters that are `ok`, at least `least` of them. -/
structure Repetition (α : Type*) where
  ok : α → Bool
  least : ℕ

/-- The first number that gives a result, from `n` down to `least`. -/
def longest (f : ℕ → Option β) (least : ℕ) : ℕ → Option β
  | 0 => if least = 0 then f 0 else none
  | n + 1 => if n + 1 < least then none else (f (n + 1)).orElse fun _ => longest f least n

/-- The pieces of a word that matches. -/
def matchAll : List (Repetition α) → List α → Option (List (List α))
  | [], word => if word.isEmpty then some [] else none
  | r :: rs, word =>
    longest (fun n => (matchAll rs (word.drop n)).map (word.take n :: ·)) r.least
      (word.takeWhile r.ok).length

/-- Pieces of a word that fit the repetitions. -/
def Cut (rs : List (Repetition α)) (pieces : List (List α)) : Prop :=
  List.Forall₂ (fun r piece => r.least ≤ piece.length ∧ ∀ a ∈ piece, r.ok a = true) rs pieces

variable {f : ℕ → Option β} {least n m : ℕ} {b : β}

theorem le_and_eq_of_longest (h : longest f least n = some b) :
    ∃ m, least ≤ m ∧ m ≤ n ∧ f m = some b := by
  induction n with
  | zero =>
    rw [longest] at h
    split_ifs at h with hleast
    exact ⟨0, hleast.le, le_refl _, h⟩
  | succ n ih =>
    rw [longest] at h
    split_ifs at h with hlt
    cases hf : f (n + 1) with
    | none =>
      rw [hf] at h
      obtain ⟨m, hm, hmn, hfm⟩ := ih h
      exact ⟨m, hm, hmn.trans (Nat.le_succ n), hfm⟩
    | some c =>
      rw [hf] at h
      exact ⟨n + 1, not_lt.mp hlt, le_refl _, hf.trans h⟩

theorem exists_longest (hleast : least ≤ m) (hm : m ≤ n) (hf : f m = some b) :
    ∃ c, longest f least n = some c := by
  induction n with
  | zero =>
    obtain rfl : m = 0 := Nat.le_zero.mp hm
    exact ⟨b, by rw [longest, if_pos (Nat.le_zero.mp hleast), hf]⟩
  | succ n ih =>
    rw [longest, if_neg (not_lt.mpr (hleast.trans hm))]
    cases hsucc : f (n + 1) with
    | some c => exact ⟨c, rfl⟩
    | none =>
      refine ih (Nat.le_of_lt_succ (lt_of_le_of_ne hm fun heq => ?_))
      have hf' : f (n + 1) = some b := by rw [← hf, heq]
      rw [hf'] at hsucc
      cases hsucc

variable {rs : List (Repetition α)} {word : List α} {pieces : List (List α)}

/-- **What is found** is a cut of the word. -/
theorem cut_of_matchAll (h : matchAll rs word = some pieces) :
    pieces.flatten = word ∧ Cut rs pieces := by
  induction rs generalizing word pieces with
  | nil =>
    rw [matchAll] at h
    split_ifs at h with hempty
    rw [← Option.some.inj h, List.isEmpty_iff.mp hempty]
    exact ⟨rfl, List.Forall₂.nil⟩
  | cons r rs ih =>
    rw [matchAll] at h
    obtain ⟨n, hleast, hn, hrest⟩ := le_and_eq_of_longest h
    obtain ⟨rest, hmatch, rfl⟩ := Option.map_eq_some_iff.mp hrest
    obtain ⟨hflat, hcut⟩ := ih hmatch
    have hlen : n ≤ word.length := hn.trans (List.takeWhile_prefix r.ok).length_le
    refine ⟨?_, List.Forall₂.cons ⟨?_, fun a ha => ?_⟩ hcut⟩
    · rw [List.flatten_cons, hflat, List.take_append_drop]
    · rw [List.length_take, Nat.min_eq_left hlen]
      exact hleast
    · have hfront : word.take n <+: word.takeWhile r.ok := by
        refine List.prefix_of_prefix_length_le (List.take_prefix n word)
          (List.takeWhile_prefix r.ok) ?_
        rw [List.length_take, Nat.min_eq_left hlen]
        exact hn
      exact List.mem_takeWhile_imp (hfront.subset ha)

/-- **Where there is a cut**, a match is found. -/
theorem exists_matchAll_of_cut (h : Cut rs pieces) :
    ∃ found, matchAll rs pieces.flatten = some found := by
  induction h with
  | nil => exact ⟨[], rfl⟩
  | @cons r piece rs pieces hfit _ ih =>
    obtain ⟨found, hfound⟩ := ih
    rw [matchAll, List.flatten_cons]
    refine exists_longest (m := piece.length) (b := piece :: found) hfit.1 ?_ ?_
    · rw [List.takeWhile_append_of_pos hfit.2, List.length_append]
      exact Nat.le_add_right _ _
    · rw [List.drop_left, List.take_left, hfound]
      rfl

/-- **Where a word is cut behind a letter that is not in a class**, and before letters that are,
there is no other such cut. -/
theorem eq_of_append_eq_append {p : α → Bool} {u v d e : List α} (h : u ++ d = v ++ e)
    (hu : ∀ a ∈ u.getLast?, p a = false) (hv : ∀ a ∈ v.getLast?, p a = false)
    (hd : ∀ a ∈ d, p a = true) (he : ∀ a ∈ e, p a = true) :
    u = v ∧ d = e := by
  have hshort : ∀ {u v d e : List α}, v = u ++ d → (∀ a ∈ v.getLast?, p a = false) →
      (∀ a ∈ d ++ e, p a = true) → d = [] := by
    intro u v d e hcat hlast hall
    by_contra hne
    obtain ⟨init, a, rfl⟩ := List.eq_nil_or_concat' d |>.resolve_left hne
    have hmem : a ∈ v.getLast? := by
      rw [hcat, ← List.append_assoc, List.getLast?_concat]
      rfl
    have htrue := hall a (List.mem_append_left _ (List.mem_append_right _ List.mem_cons_self))
    rw [hlast a hmem] at htrue
    cases htrue
  rcases List.append_eq_append_iff.mp h with ⟨w, hvw, hdw⟩ | ⟨w, huw, hew⟩
  · obtain rfl := hshort hvw hv (hdw ▸ hd)
    rw [List.append_nil] at hvw
    exact ⟨hvw.symm, hdw⟩
  · obtain rfl := hshort huw hu (hew ▸ he)
    rw [List.append_nil] at huw
    exact ⟨huw, hew.symm⟩

end Repetitions
end UhdHost
