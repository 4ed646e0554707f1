import Mathlib

/-!
# Maps as sorted lists

An ordered map is the list of its entries, in the order of their keys.

* `get?_set` and `ext_get?`: a map is known by what it holds at each key.
* `mem_setAll`: what a map has after entries were set one after the other.
* `foldl_entries`: to add the entries of a map to a map that is empty gives the map.
* `next?_spec` and `prev?_spec`: the entry at a key or after it, and the one before it.
* `neighbours_of_append`: two entries that follow each other.
-/

namespace UhdHost

/-- A map, by its entries. -/
@[ext]
structure SortedMap (K V : Type*) [LT K] where
  entries : List (K × V)
  sorted : entries.Pairwise fun a b => a.1 < b.1

namespace SortedMap

variable {K V : Type*} [LinearOrder K] {m : SortedMap K V} {key : K} {value : V}

instance [DecidableEq V] : DecidableEq (SortedMap K V) := fun m m' =>
  decidable_of_iff (m.entries = m'.entries) SortedMap.ext_iff.symm

/-- The map without entries. -/
def empty : SortedMap K V := ⟨[], List.Pairwise.nil⟩

/-! ## Lists of entries -/

/-- What the first entry with the key holds. -/
def find (key : K) : List (K × V) → Option V
  | [] => none
  | entry :: entries => if entry.1 = key then some entry.2 else find key entries

/-- Put an entry where its key belongs, in the place of one with the same key. -/
def insertEntry (key : K) (value : V) : List (K × V) → List (K × V)
  | [] => [(key, value)]
  | entry :: entries =>
    if key < entry.1 then (key, value) :: entry :: entries
    else if key = entry.1 then (key, value) :: entries
    else entry :: insertEntry key value entries

section Lists

variable {entries entries' : List (K × V)} {entry : K × V} {other : K}

theorem mem_of_mem_insertEntry (h : entry ∈ insertEntry key value entries) :
    entry = (key, value) ∨ entry ∈ entries := by
  induction entries with
  | nil => exact Or.inl (List.mem_singleton.mp h)
  | cons head entries ih =>
    rw [insertEntry] at h
    split_ifs at h
    · exact List.mem_cons.mp h
    · rcases List.mem_cons.mp h with h | h
      · exact Or.inl h
      · exact Or.inr (List.mem_cons_of_mem _ h)
    · rcases List.mem_cons.mp h with h | h
      · exact Or.inr (List.mem_cons.mpr (Or.inl h))
      · exact (ih h).imp id (List.mem_cons_of_mem _)

theorem sorted_insertEntry (h : entries.Pairwise fun a b => a.1 < b.1) :
    (insertEntry key value entries).Pairwise fun a b => a.1 < b.1 := by
  induction entries with
  | nil => exact List.pairwise_singleton _ _
  | cons head entries ih =>
    obtain ⟨hhead, htail⟩ := List.pairwise_cons.mp h
    rw [insertEntry]
    split_ifs with hlt heq
    · refine List.pairwise_cons.mpr ⟨fun entry hentry => ?_, h⟩
      rcases List.mem_cons.mp hentry with rfl | hentry
      · exact hlt
      · exact hlt.trans (hhead entry hentry)
    · refine List.pairwise_cons.mpr ⟨fun entry hentry => ?_, htail⟩
      rw [heq]
      exact hhead entry hentry
    · refine List.pairwise_cons.mpr ⟨fun entry hentry => ?_, ih htail⟩
      rcases mem_of_mem_insertEntry hentry with rfl | hentry
      · exact lt_of_le_of_ne (not_lt.mp hlt) (Ne.symm heq)
      · exact hhead entry hentry

theorem find_insertEntry (key other : K) (value : V) (entries : List (K × V)) :
    find other (insertEntry key value entries) =
      if key = other then some value else find other entries := by
  induction entries with
  | nil => rfl
  | cons head entries ih =>
    rw [insertEntry]
    by_cases hlt : key < head.1
    · rw [if_pos hlt]
      rfl
    rw [if_neg hlt]
    by_cases heq : key = head.1
    · rw [if_pos heq, find]
      by_cases hkey : key = other
      · rw [if_pos hkey, if_pos hkey]
      · rw [if_neg hkey, if_neg hkey, find, if_neg (heq ▸ hkey)]
    · rw [if_neg heq, find, ih]
      by_cases hkey : key = other
      · rw [if_neg (hkey ▸ Ne.symm heq), if_pos hkey, if_pos hkey]
      · rw [if_neg hkey, if_neg hkey, find]

theorem find_eq_none (h : ∀ entry ∈ entries, entry.1 ≠ key) : find key entries = none := by
  induction entries with
  | nil => rfl
  | cons head entries ih =>
    rw [find, if_neg (h head List.mem_cons_self)]
    exact ih fun entry hentry => h entry (List.mem_cons_of_mem _ hentry)

/-- **What is found** in a sorted list is what it has. -/
theorem find_eq_some (h : entries.Pairwise fun a b => a.1 < b.1) :
    find key entries = some value ↔ (key, value) ∈ entries := by
  induction entries with
  | nil => exact iff_of_false (by simp [find]) List.not_mem_nil
  | cons head entries ih =>
    obtain ⟨hhead, htail⟩ := List.pairwise_cons.mp h
    rw [find, List.mem_cons]
    split_ifs with hkey
    · constructor
      · intro hvalue
        left
        rw [← hkey, ← Option.some.inj hvalue]
      · rintro (rfl | hmem)
        · rfl
        · exact absurd (hhead _ hmem) (hkey ▸ lt_irrefl _)
    · rw [ih htail]
      constructor
      · exact Or.inr
      · rintro (rfl | hmem)
        · exact absurd rfl hkey
        · exact hmem

/-- An entry whose key is greater than all others is put at the end. -/
theorem insertEntry_of_forall_lt (h : ∀ entry ∈ entries, entry.1 < key) :
    insertEntry key value entries = entries ++ [(key, value)] := by
  induction entries with
  | nil => rfl
  | cons head entries ih =>
    have hhead := h head List.mem_cons_self
    rw [insertEntry, if_neg hhead.not_gt, if_neg hhead.ne',
      ih fun entry hentry => h entry (List.mem_cons_of_mem _ hentry), List.cons_append]

end Lists

/-! ## Maps -/

/-- What the map holds at a key. -/
def get? (m : SortedMap K V) (key : K) : Option V := find key m.entries

/-- Let the map hold a value at a key. -/
def set (m : SortedMap K V) (key : K) (value : V) : SortedMap K V :=
  ⟨insertEntry key value m.entries, sorted_insertEntry m.sorted⟩

theorem get?_set (m : SortedMap K V) (key other : K) (value : V) :
    (m.set key value).get? other = if key = other then some value else m.get? other :=
  find_insertEntry key other value m.entries

theorem get?_eq_some : m.get? key = some value ↔ (key, value) ∈ m.entries :=
  find_eq_some m.sorted

/-- **A map is known** by what it holds at each key. -/
theorem ext_get? {m m' : SortedMap K V} (h : ∀ key, m.get? key = m'.get? key) : m = m' := by
  have hmem : ∀ entry, entry ∈ m.entries ↔ entry ∈ m'.entries := by
    rintro ⟨key, value⟩
    rw [← get?_eq_some, ← get?_eq_some, h]
  have hnodup : ∀ m : SortedMap K V, m.entries.Nodup := fun m =>
    m.sorted.imp fun hlt heq => absurd (congrArg Prod.fst heq) hlt.ne
  have hperm := (List.perm_ext_iff_of_nodup (hnodup m) (hnodup m')).mpr hmem
  refine SortedMap.ext (hperm.eq_of_pairwise (fun a b _ _ hab hba => ?_) m.sorted m'.sorted)
  exact absurd hab hba.not_gt

theorem mem_set {entry : K × V} : entry ∈ (m.set key value).entries ↔
    entry = (key, value) ∨ entry ∈ m.entries ∧ entry.1 ≠ key := by
  obtain ⟨other, v⟩ := entry
  rw [← get?_eq_some, ← get?_eq_some, get?_set, Prod.mk.injEq]
  by_cases hkey : key = other
  · rw [if_pos hkey, Option.some_inj]
    exact ⟨fun h => Or.inl ⟨hkey.symm, h.symm⟩, fun h =>
      h.elim (fun h => h.2.symm) fun h => absurd hkey.symm h.2⟩
  · rw [if_neg hkey]
    exact ⟨fun h => Or.inr ⟨h, Ne.symm hkey⟩, fun h =>
      h.elim (fun h => absurd h.1.symm hkey) And.left⟩

/-- Set entries one after the other. -/
def setAll (m : SortedMap K V) (entries : List (K × V)) : SortedMap K V :=
  entries.foldl (fun m entry => m.set entry.1 entry.2) m

/-- The entry is the last with its key. -/
def IsLast (entries : List (K × V)) (entry : K × V) : Prop :=
  ∃ before after, entries = before ++ entry :: after ∧ ∀ later ∈ after, later.1 ≠ entry.1

/-- **What a map has after entries were set**: the last with each key, and what it had at others. -/
theorem mem_setAll (m : SortedMap K V) (entries : List (K × V)) (entry : K × V) :
    entry ∈ (m.setAll entries).entries ↔
      IsLast entries entry ∨ entry ∈ m.entries ∧ ∀ later ∈ entries, later.1 ≠ entry.1 := by
  induction entries generalizing m with
  | nil =>
    refine ⟨fun h => Or.inr ⟨h, fun later hlater => absurd hlater List.not_mem_nil⟩, fun h => ?_⟩
    rcases h with ⟨before, after, hsplit, -⟩ | ⟨h, -⟩
    · exact absurd hsplit.symm (by simp)
    · exact h
  | cons head entries ih =>
    rw [setAll, List.foldl_cons, ← setAll, ih, mem_set]
    constructor
    · rintro (⟨before, after, rfl, hlast⟩ | ⟨rfl | ⟨hmem, hne⟩, hlater⟩)
      · exact Or.inl ⟨head :: before, after, rfl, hlast⟩
      · exact Or.inl ⟨[], entries, rfl, hlater⟩
      · refine Or.inr ⟨hmem, fun later hin => ?_⟩
        rcases List.mem_cons.mp hin with rfl | hin
        · exact Ne.symm hne
        · exact hlater later hin
    · rintro (⟨before, after, hsplit, hlast⟩ | ⟨hmem, hlater⟩)
      · cases before with
        | nil =>
          injection hsplit with hhead hrest
          subst hhead hrest
          exact Or.inr ⟨Or.inl rfl, hlast⟩
        | cons b before =>
          injection hsplit with hhead hrest
          exact Or.inl ⟨before, after, hrest, hlast⟩
      · exact Or.inr ⟨Or.inr ⟨hmem, (hlater head List.mem_cons_self).symm⟩,
          fun later hin => hlater later (List.mem_cons_of_mem _ hin)⟩

/-- **The entries of a map**, added one after the other to an empty map by whatever sets an entry
that is new, give the map. -/
theorem foldl_entries {f : SortedMap K V → K × V → SortedMap K V}
    (hf : ∀ m entry, m.get? entry.1 = none → f m entry = m.set entry.1 entry.2)
    (m : SortedMap K V) : m.entries.foldl f empty = m := by
  have hsplit : ∀ (before after : List (K × V)) (h : (before ++ after).Pairwise fun a b => a.1 < b.1)
      (hbefore : before.Pairwise fun a b => a.1 < b.1),
      after.foldl f ⟨before, hbefore⟩ = ⟨before ++ after, h⟩ := by
    intro before after
    induction after generalizing before with
    | nil =>
      intro h hbefore
      exact SortedMap.ext (List.append_nil before).symm
    | cons entry after ih =>
      intro h hbefore
      have hlt : ∀ b ∈ before, b.1 < entry.1 := fun b hb =>
        (List.pairwise_append.mp h).2.2 b hb entry List.mem_cons_self
      have hlast : insertEntry entry.1 entry.2 before = before ++ [entry] :=
        insertEntry_of_forall_lt hlt
      have hassoc : before ++ [entry] ++ after = before ++ entry :: after := by
        rw [List.append_assoc, List.singleton_append]
      have hset : (⟨before, hbefore⟩ : SortedMap K V).set entry.1 entry.2 =
          ⟨before ++ [entry], hlast ▸ sorted_insertEntry hbefore⟩ := SortedMap.ext hlast
      have hnew : (⟨before, hbefore⟩ : SortedMap K V).get? entry.1 = none :=
        find_eq_none fun b hb => (hlt b hb).ne
      rw [List.foldl_cons, hf _ _ hnew, hset, ih (before ++ [entry]) (hassoc ▸ h)]
      exact SortedMap.ext hassoc
  exact hsplit [] m.entries m.sorted List.Pairwise.nil

/-- The entries of a map that are set give the map. -/
theorem setAll_entries (m : SortedMap K V) : empty.setAll m.entries = m :=
  foldl_entries (fun _ _ _ => rfl) m

/-- Let the map hold a value at a key where it holds none. -/
def insert (m : SortedMap K V) (key : K) (value : V) : SortedMap K V :=
  if (m.get? key).isSome then m else m.set key value

theorem insert_of_none (h : m.get? key = none) (value : V) :
    m.insert key value = m.set key value := by
  rw [insert, h]
  rfl

/-- Insert entries one after the other. -/
def insertAll (m : SortedMap K V) (entries : List (K × V)) : SortedMap K V :=
  entries.foldl (fun m entry => m.insert entry.1 entry.2) m

/-- The entries of a map that are inserted give the map. -/
theorem insertAll_entries (m : SortedMap K V) : empty.insertAll m.entries = m :=
  foldl_entries (fun _ entry h => insert_of_none h entry.2) m

theorem set_set (m : SortedMap K V) (key : K) (value value' : V) :
    (m.set key value).set key value' = m.set key value' := by
  refine ext_get? fun other => ?_
  rw [get?_set, get?_set, get?_set]
  split_ifs
  · rfl
  · rfl

theorem get?_empty (key : K) : (empty : SortedMap K V).get? key = none := rfl

theorem set_ne_empty (m : SortedMap K V) (key : K) (value : V) : m.set key value ≠ empty := by
  intro h
  have hget := get?_set m key key value
  rw [h, get?_empty, if_pos rfl] at hget
  exact nomatch hget

/-- Change the values of a map. -/
def mapValues {W : Type*} (f : V → W) (m : SortedMap K V) : SortedMap K W :=
  ⟨m.entries.map fun entry => (entry.1, f entry.2), List.pairwise_map.mpr m.sorted⟩

theorem mapValues_eq_self_iff {f : V → V} :
    m.mapValues f = m ↔ ∀ entry ∈ m.entries, f entry.2 = entry.2 := by
  have hid : m.entries = m.entries.map id := (List.map_id _).symm
  rw [SortedMap.ext_iff, mapValues]
  conv_lhs => rhs; rw [hid]
  rw [List.map_inj_left]
  refine forall_congr' fun entry => forall_congr' fun _ => ?_
  rw [id, Prod.ext_iff, and_iff_right rfl]

/-! ## The entries around a key -/

/-- The entries with lesser keys. -/
def below (m : SortedMap K V) (key : K) : List (K × V) := m.entries.takeWhile (·.1 < key)

/-- The other entries, from the lower bound of the key on. -/
def fromKey (m : SortedMap K V) (key : K) : List (K × V) := m.entries.dropWhile (·.1 < key)

/-- The lower bound of the key: the first entry that is not before it. -/
def next? (m : SortedMap K V) (key : K) : Option (K × V) := (m.fromKey key).head?

/-- The last entry before the key. -/
def prev? (m : SortedMap K V) (key : K) : Option (K × V) := (m.below key).getLast?

theorem below_append_fromKey (m : SortedMap K V) (key : K) :
    m.below key ++ m.fromKey key = m.entries := List.takeWhile_append_dropWhile

theorem lt_of_mem_below {entry : K × V} (h : entry ∈ m.below key) : entry.1 < key := by
  have hlt := List.mem_takeWhile_imp h
  exact of_decide_eq_true hlt

theorem le_of_mem_fromKey {entry : K × V} (h : entry ∈ m.fromKey key) : key ≤ entry.1 := by
  have htail : (m.fromKey key).Pairwise fun a b => a.1 < b.1 :=
    m.sorted.sublist (List.dropWhile_sublist _)
  cases hfrom : m.fromKey key with
  | nil =>
    rw [hfrom] at h
    exact absurd h List.not_mem_nil
  | cons head rest =>
    have hhead := List.head?_dropWhile_not (fun e : K × V => decide (e.1 < key)) m.entries
    rw [← fromKey, hfrom] at hhead
    have hle : key ≤ head.1 := not_lt.mp (of_decide_eq_false hhead)
    rw [hfrom] at h htail
    rcases List.mem_cons.mp h with rfl | hrest
    · exact hle
    · exact hle.trans ((List.pairwise_cons.mp htail).1 entry hrest).le

theorem mem_of_mem_below {entry : K × V} (h : entry ∈ m.below key) : entry ∈ m.entries :=
  (List.takeWhile_sublist _).mem h

theorem mem_of_mem_fromKey {entry : K × V} (h : entry ∈ m.fromKey key) : entry ∈ m.entries :=
  (List.dropWhile_sublist _).mem h

theorem mem_fromKey {entry : K × V} (h : entry ∈ m.entries) (hle : key ≤ entry.1) :
    entry ∈ m.fromKey key := by
  rw [← below_append_fromKey m key] at h
  rcases List.mem_append.mp h with hbelow | hfrom
  · exact absurd (lt_of_mem_below hbelow) hle.not_gt
  · exact hfrom

/-- **The lower bound** of a key is an entry that is not before it, and the first such. -/
theorem next?_spec {entry : K × V} (h : m.next? key = some entry) :
    entry ∈ m.entries ∧ key ≤ entry.1 ∧ ∀ other ∈ m.entries, key ≤ other.1 → entry.1 ≤ other.1 := by
  have hmem : entry ∈ m.fromKey key := List.mem_of_mem_head? h
  refine ⟨mem_of_mem_fromKey hmem, le_of_mem_fromKey hmem, fun other hother hle => ?_⟩
  have htail : (m.fromKey key).Pairwise fun a b => a.1 < b.1 :=
    m.sorted.sublist (List.dropWhile_sublist _)
  have hin := mem_fromKey hother hle
  rw [next?] at h
  cases hfrom : m.fromKey key with
  | nil =>
    rw [hfrom] at hin
    exact absurd hin List.not_mem_nil
  | cons head rest =>
    rw [hfrom, List.head?_cons, Option.some_inj] at h
    subst h
    rw [hfrom] at hin htail
    rcases List.mem_cons.mp hin with rfl | hrest
    · exact le_rfl
    · exact ((List.pairwise_cons.mp htail).1 other hrest).le

/-- **The entry before a key** is before it, and the last such. -/
theorem prev?_spec {entry : K × V} (h : m.prev? key = some entry) :
    entry ∈ m.entries ∧ entry.1 < key ∧ ∀ other ∈ m.entries, other.1 < key → other.1 ≤ entry.1 := by
  have hmem : entry ∈ m.below key := List.mem_of_mem_getLast? h
  refine ⟨mem_of_mem_below hmem, lt_of_mem_below hmem, fun other hother hlt => ?_⟩
  have hin : other ∈ m.below key := by
    rw [← below_append_fromKey m key] at hother
    rcases List.mem_append.mp hother with hbelow | hfrom
    · exact hbelow
    · exact absurd (le_of_mem_fromKey hfrom) hlt.not_ge
  have hsorted : (m.below key).Pairwise fun a b => a.1 < b.1 :=
    m.sorted.sublist (List.takeWhile_sublist _)
  obtain ⟨before, hbefore⟩ := List.getLast?_eq_some_iff.mp h
  rw [hbefore] at hin hsorted
  rcases List.mem_append.mp hin with hother' | hlast
  · exact ((List.pairwise_append.mp hsorted).2.2 other hother' entry (List.mem_singleton_self _)).le
  · rw [List.mem_singleton.mp hlast]

theorem eq_of_mem_of_key {entry other : K × V} (h : entry ∈ m.entries) (h' : other ∈ m.entries)
    (hkey : entry.1 = other.1) : entry = other := by
  have hvalue : m.get? other.1 = some entry.2 := get?_eq_some.mpr (hkey ▸ h)
  have hvalue' : m.get? other.1 = some other.2 := get?_eq_some.mpr h'
  rw [hvalue, Option.some_inj] at hvalue'
  exact Prod.ext hkey hvalue'

/-- The first entry that is not before the key is the lower bound. -/
theorem next?_of_mem {entry : K × V} (h : entry ∈ m.entries) (hle : key ≤ entry.1)
    (hfirst : ∀ other ∈ m.entries, key ≤ other.1 → entry.1 ≤ other.1) :
    m.next? key = some entry := by
  have hin := mem_fromKey h hle
  cases hnext : m.next? key with
  | none =>
    rw [next?, List.head?_eq_none_iff] at hnext
    rw [hnext] at hin
    exact absurd hin List.not_mem_nil
  | some other =>
    obtain ⟨hother, hle', hfirst'⟩ := next?_spec hnext
    rw [eq_of_mem_of_key hother h (le_antisymm (hfirst' _ h hle) (hfirst _ hother hle'))]

/-- The last entry before the key. -/
theorem prev?_of_mem {entry : K × V} (h : entry ∈ m.entries) (hlt : entry.1 < key)
    (hlast : ∀ other ∈ m.entries, other.1 < key → other.1 ≤ entry.1) :
    m.prev? key = some entry := by
  have hin : entry ∈ m.below key := by
    have hmem := h
    rw [← below_append_fromKey m key] at hmem
    rcases List.mem_append.mp hmem with hbelow | hfrom
    · exact hbelow
    · exact absurd (le_of_mem_fromKey hfrom) hlt.not_ge
  cases hprev : m.prev? key with
  | none =>
    rw [prev?, List.getLast?_eq_none_iff] at hprev
    rw [hprev] at hin
    exact absurd hin List.not_mem_nil
  | some other =>
    obtain ⟨hother, hlt', hlast'⟩ := prev?_spec hprev
    rw [eq_of_mem_of_key hother h (le_antisymm (hlast _ hother hlt') (hlast' _ h hlt))]

/-- Where the map holds something, there is the lower bound. -/
theorem next?_of_get? (h : m.get? key = some value) : m.next? key = some (key, value) :=
  next?_of_mem (get?_eq_some.mp h) le_rfl fun _ _ hle => hle

/-- **Neighbours** in the list are neighbours of the second one's key. -/
theorem neighbours_of_append {before after : List (K × V)} {low high : K × V}
    (h : m.entries = before ++ low :: high :: after) :
    m.prev? high.1 = some low ∧ m.next? high.1 = some high := by
  have hsorted := m.sorted
  rw [h] at hsorted
  obtain ⟨-, htail, hcross⟩ := List.pairwise_append.mp hsorted
  obtain ⟨hlow, htail⟩ := List.pairwise_cons.mp htail
  obtain ⟨hhigh, -⟩ := List.pairwise_cons.mp htail
  have hmem : ∀ entry, entry ∈ m.entries ↔
      entry ∈ before ∨ entry = low ∨ entry = high ∨ entry ∈ after := by
    intro entry
    rw [h, List.mem_append, List.mem_cons, List.mem_cons]
  constructor
  · refine prev?_of_mem ((hmem low).mpr (Or.inr (Or.inl rfl))) (hlow high List.mem_cons_self) ?_
    intro other hother hlt
    rcases (hmem other).mp hother with hother | rfl | rfl | hother
    · exact (hcross other hother low List.mem_cons_self).le
    · exact le_rfl
    · exact absurd hlt (lt_irrefl _)
    · exact absurd hlt (hhigh other hother).not_gt
  · refine next?_of_mem ((hmem high).mpr (Or.inr (Or.inr (Or.inl rfl)))) le_rfl ?_
    exact fun _ _ hle => hle

end SortedMap
end UhdHost
