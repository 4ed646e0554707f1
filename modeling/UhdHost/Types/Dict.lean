import Mathlib

/-!
# Dictionaries

`uhd::dict` (`dict.ipp`): pairs in the order in which their keys came, of which no two are the same.
Two dictionaries that are equal here hold the same pairs in the same order, which is more than
`operator==` asks for.

* `pairs_set_of_not_mem`: a new key goes to the end.
* `pairs_setAll`: so keys that are all new go there in their order.
-/

namespace UhdHost

/-- `dict<Key, Val>` -/
@[ext] structure Dict (κ ν : Type) where
  pairs : List (κ × ν)
  nodup : (pairs.map Prod.fst).Nodup

namespace Dict

variable {κ ν : Type} [DecidableEq κ]

instance [DecidableEq ν] : DecidableEq (Dict κ ν) := fun d e =>
  decidable_of_iff (d.pairs = e.pairs) Dict.ext_iff.symm

/-- `dict()` -/
def empty : Dict κ ν := ⟨[], List.nodup_nil⟩

/-- `keys` -/
def keys (d : Dict κ ν) : List κ := d.pairs.map Prod.fst

/-- `has_key` -/
def hasKey (d : Dict κ ν) (key : κ) : Bool := d.pairs.any fun p => p.1 = key

/-- `get`, with what is returned where there is no such key -/
def getD (d : Dict κ ν) (key : κ) (other : ν) : ν :=
  match d.pairs.find? fun p => p.1 = key with
  | some p => p.2
  | none => other

/-- `set`, or an assignment to `operator[]` -/
def set (d : Dict κ ν) (key : κ) (val : ν) : Dict κ ν :=
  if h : key ∈ d.keys then
    ⟨d.pairs.map fun p => if p.1 = key then (p.1, val) else p, by
      rw [List.map_map]
      convert d.nodup using 1
      refine List.map_congr_left fun p _ => ?_
      rw [Function.comp_apply]
      split_ifs <;> rfl⟩
  else
    ⟨d.pairs ++ [(key, val)], by
      rw [List.map_append, List.nodup_append]
      refine ⟨d.nodup, List.nodup_singleton _, fun a ha b hb heq => ?_⟩
      rw [List.map_singleton, List.mem_singleton] at hb
      rw [heq, hb] at ha
      exact h ha⟩

/-- `pop`, where there is such a key -/
def pop (d : Dict κ ν) (key : κ) : Dict κ ν :=
  ⟨d.pairs.filter fun p => p.1 ≠ key,
    d.nodup.sublist (List.Sublist.map Prod.fst List.filter_sublist)⟩

/-- Set one pair after the other. -/
def setAll (d : Dict κ ν) (ps : List (κ × ν)) : Dict κ ν :=
  ps.foldl (fun d p => d.set p.1 p.2) d

variable {d : Dict κ ν} {key : κ} {val : ν}

theorem hasKey_iff : d.hasKey key = true ↔ key ∈ d.keys := by
  rw [hasKey, List.any_eq_true, keys, List.mem_map]
  exact exists_congr fun p => and_congr_right fun _ => decide_eq_true_iff

theorem pairs_set_of_not_mem (h : key ∉ d.keys) :
    (d.set key val).pairs = d.pairs ++ [(key, val)] := by
  rw [set, dif_neg h]

@[simp] theorem setAll_nil (d : Dict κ ν) : d.setAll [] = d := rfl

theorem setAll_cons (d : Dict κ ν) (p : κ × ν) (ps : List (κ × ν)) :
    d.setAll (p :: ps) = (d.set p.1 p.2).setAll ps := rfl

theorem setAll_append (d : Dict κ ν) (ps qs : List (κ × ν)) :
    d.setAll (ps ++ qs) = (d.setAll ps).setAll qs := List.foldl_append

theorem pairs_setAll {ps : List (κ × ν)} (h : ((d.pairs ++ ps).map Prod.fst).Nodup) :
    (d.setAll ps).pairs = d.pairs ++ ps := by
  induction ps generalizing d with
  | nil => rw [setAll_nil, List.append_nil]
  | cons p ps ih =>
    have hnew : p.1 ∉ d.keys := by
      intro hmem
      rw [List.map_append, List.nodup_append] at h
      exact h.2.2 p.1 hmem p.1 List.mem_cons_self rfl
    have hset : (d.set p.1 p.2).pairs = d.pairs ++ [p] := pairs_set_of_not_mem hnew
    have hcat : d.pairs ++ p :: ps = (d.set p.1 p.2).pairs ++ ps := by
      rw [hset, List.append_assoc, List.singleton_append]
    rw [setAll_cons, ih (hcat ▸ h), hcat]

theorem setAll_empty_pairs (d : Dict κ ν) : empty.setAll d.pairs = d :=
  Dict.ext (pairs_setAll d.nodup)

end Dict
end UhdHost
