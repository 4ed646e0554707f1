import Mathlib
import UhdHost.Cal.Interpolation
import UhdHost.Cal.PwrCal
import UhdHost.Library.Exceptions
import UhdHost.Types.Ranges

/-!
# Looking up a power calibration

`get_power` and `get_gain` of `pwr_cal_impl`, in `pwr_cal.cpp`.

For two neighbouring frequencies `get_power` takes the gains around the one that is asked for from
the table of the lower frequency, and reads both tables at these gains.  `get_gain` takes the powers
around the one that is asked for from each of the two tables.  Both choose the tables by the
frequency without its fraction, and interpolate with the fraction.

Temperatures are integers without bounds here.

* `allIncreasing_of_built`: what all tables of a container have in common.
* `powerRight_of_fits` and `gainRight_of_fits`: when a lookup returns a value between the stored
  ones, and the stored one where there is one.
-/

namespace UhdHost
namespace Cal
namespace PwrCal

open Exceptions

/-! ## The lookups -/

/-- `std::map::at` -/
def atKey {K V : Type} [LinearOrder K] (map : SortedMap K V) (key : K) : Except Halt V :=
  match map.get? key with
  | some value => .ok value
  | none => .error (.threw .outOfRange)

/-- `UHD_ASSERT_THROW(!_data.empty())` -/
def Container.assertNotEmpty (s : Container) : Except Halt Unit :=
  if s.data.entries = [] then .error (.threw (.assertionError "!_data.empty()")) else .ok ()

/-- `_get_table` -/
def Container.getTable (s : Container) (temperature : Option ℤ) : Except Halt FreqTableMap :=
  atNearest s.data (temperature.getD s.defaultTemp)

/-- `get_power` -/
def Container.getPower (s : Container) (gain freq : ℚ) (temperature : Option ℤ) :
    Except Halt ℚ := do
  s.assertNotEmpty
  let freqi ← toUInt64 freq
  let table ← s.getTable temperature
  let fIters ← getBoundingIterators table.1 freqi
  let f1i := fIters.1.1
  let f2i := fIters.2.1
  let table1 ← atKey table.1 f1i
  -- The frequency is out of bounds.
  if f1i = f2i then
    atLinInterp table1.g2p gain
  else
    let table2 ← atKey table.1 f2i
    let gainIters ← getBoundingIterators table1.g2p gain
    let gain1 := gainIters.1.1
    let gain2 := gainIters.2.1
    let power11 ← atKey table1.g2p gain1
    let power21 ← atKey table2.g2p gain1
    -- The gain is out of bounds.
    if gain1 = gain2 then
      linearInterp freq f1i power11 f2i power21
    else
      let power12 ← atKey table1.g2p gain2
      let power22 ← atKey table2.g2p gain2
      bilinearInterp freq gain f1i gain1 f2i gain2 power11 power12 power21 power22

/-- `get_power_limits` -/
def Container.getPowerLimits (s : Container) (freq : ℚ) (temperature : Option ℤ) :
    Except Halt MetaRange := do
  let tables ← s.getTable temperature
  let freqi ← toUInt64 freq
  let table ← atNearest tables.1 freqi
  .ok [⟨table.minPower, table.maxPower, 0, table.min_le_max⟩]

/-- An exception that another component throws. -/
def orHalt {α : Type} : Except UhdError α → Except Halt α
  | .ok a => .ok a
  | .error e => .error (.threw e)

/-- `get_gain` -/
def Container.getGain (s : Container) (powerDbm freq : ℚ) (temperature : Option ℤ) :
    Except Halt ℚ := do
  s.assertNotEmpty
  let freqi ← toUInt64 freq
  let table ← s.getTable temperature
  let limits ← s.getPowerLimits freq temperature
  let powerCoerced ← orHalt (limits.clip powerDbm)
  let fIters ← getBoundingIterators table.1 freqi
  let f1i := fIters.1.1
  let f2i := fIters.2.1
  let table1 ← atKey table.1 f1i
  -- The frequency is out of bounds.
  if f1i = f2i then
    atLinInterp table1.p2g powerCoerced
  else
    let f1pwrIters ← getBoundingIterators table1.p2g powerCoerced
    let f1pwr1 := f1pwrIters.1.1
    let f1pwr2 := f1pwrIters.2.1
    let table2 ← atKey table.1 f2i
    let f2pwrIters ← getBoundingIterators table2.p2g powerCoerced
    let f2pwr1 := f2pwrIters.1.1
    let f2pwr2 := f2pwrIters.2.1
    let pwr1 ← linearInterp freq f1i f1pwr1 f2i f2pwr1
    let pwr2 ← linearInterp freq f1i f1pwr2 f2i f2pwr2
    -- The power is out of bounds.
    if pwr1 = pwr2 then
      let gain1 ← atNearest table1.p2g pwr1
      let gain2 ← atNearest table2.p2g pwr2
      linearInterp freq f1i gain1 f2i gain2
    else
      let gain11 ← atKey table1.p2g f1pwr1
      let gain12 ← atKey table1.p2g f1pwr2
      let gain21 ← atKey table2.p2g f2pwr1
      let gain22 ← atKey table2.p2g f2pwr2
      bilinearInterp freq powerCoerced f1i pwr1 f2i pwr2 gain11 gain12 gain21 gain22

/-! ## Containers -/

/-- The map is not empty, and the greater the key, the greater the value. -/
def Increasing (map : SortedMap ℚ ℚ) : Prop :=
  map.entries ≠ [] ∧ map.entries.Pairwise fun a b => a.2 < b.2

/-- The containers that there are once tables with increasing power were added, in any order and
with any other calls between. -/
inductive Built : Container → Prop where
  | make (name serial : Text) (timestamp : ℕ) : Built { name, serial, timestamp }
  | addPowerTable {s t : Container} {gainPowerMap : SortedMap ℚ ℚ} (hs : Built s)
      (hmap : Increasing gainPowerMap) (minPower maxPower freq : ℚ) (temperature : Option ℤ)
      (hadd : addPowerTable gainPowerMap minPower maxPower freq temperature s = .ok ⟨⟩ t) : Built t
  | clear {s : Container} (hs : Built s) : Built s.clear
  | setTemperature {s : Container} (hs : Built s) (temperature : ℤ) :
      Built { s with defaultTemp := temperature }
  | setRefGain {s : Container} (hs : Built s) (gain : ℚ) : Built { s with refGain := gain }

/-! ## What is claimed -/

/-- The tables are those of a temperature that is nearest. -/
def IsNearest (data : SortedMap ℤ FreqTableMap) (temp : ℤ) (tables : FreqTableMap) : Prop :=
  ∃ nearest, (nearest, tables) ∈ data.entries ∧
    ∀ entry ∈ data.entries, |nearest - temp| ≤ |entry.1 - temp|

/-- The tables are those of the two frequencies around this one: of neighbours, or of the first or
the last frequency where there is none before, or after. -/
structure Bounding (tables : SortedMap ℕ PwrCalTable) (freq : ℚ) (lo hi : ℕ × PwrCalTable) :
    Prop where
  lo_mem : lo ∈ tables.entries
  hi_mem : hi ∈ tables.entries
  lo_le_hi : lo.1 ≤ hi.1
  neighbours : ∀ other ∈ tables.entries, other.1 ≤ lo.1 ∨ hi.1 ≤ other.1
  lo_le : lo.1 ≤ freq ∨ ∀ other ∈ tables.entries, hi.1 ≤ other.1
  le_hi : freq ≤ hi.1 ∨ ∀ other ∈ tables.entries, other.1 ≤ lo.1

/-- **What is claimed** of a lookup of `x` in what the tables store: it returns a value that is
within those that the tables of the two bounding frequencies store, and the one that is stored if
there is one. -/
def Container.Right (s : Container) (stored : PwrCalTable → List (ℚ × ℚ)) (x freq : ℚ)
    (temperature : Option ℤ) (result : Except Halt ℚ) : Prop :=
  ∃ tables lo hi v, IsNearest s.data (temperature.getD s.defaultTemp) tables ∧
    Bounding tables.1 freq lo hi ∧ result = .ok v ∧
    Within ((stored lo.2 ++ stored hi.2).map Prod.snd) v ∧
    ∀ entry ∈ tables.1.entries, freq = entry.1 → ∀ y, (x, y) ∈ stored entry.2 → v = y

/-- The powers that the table stores, with their gains. -/
def PwrCalTable.powers (table : PwrCalTable) : List (ℚ × ℚ) := table.g2p.entries

/-- The gains that the table stores, with their powers. -/
def PwrCalTable.gains (table : PwrCalTable) : List (ℚ × ℚ) := table.g2p.entries.map Prod.swap

/-- What is claimed of `get_power`. -/
def Container.PowerRight (s : Container) (gain freq : ℚ) (temperature : Option ℤ) : Prop :=
  s.Right PwrCalTable.powers gain freq temperature (s.getPower gain freq temperature)

/-- What is claimed of `get_gain`. -/
def Container.GainRight (s : Container) (powerDbm freq : ℚ) (temperature : Option ℤ) : Prop :=
  s.Right PwrCalTable.gains powerDbm freq temperature (s.getGain powerDbm freq temperature)

/-! ## When it holds -/

/-- The frequency can be converted to `uint64_t`. -/
def FitsUInt64 (freq : ℚ) : Prop := -1 < freq ∧ freq < 18446744073709551616

/-- The gains around this one in the table of the lower frequency are in the other table too. -/
def GainsFound (lo hi : ℕ × PwrCalTable) (gain : ℚ) : Prop :=
  ∀ gain1 gain2, getBoundingIterators lo.2.g2p gain = .ok (gain1, gain2) →
    (hi.2.g2p.get? gain1.1).isSome ∧ (hi.2.g2p.get? gain2.1).isSome

/-- The condition for `get_power` to return: the frequency can be converted, and between two that
are stored the gains of the first table around the one asked for are in the second one. -/
def Container.PowerFound (s : Container) (gain freq : ℚ) (temperature : Option ℤ) : Prop :=
  FitsUInt64 freq ∧ ∀ tables lo hi, s.getTable temperature = .ok tables →
    Around tables.1 ⌊freq⌋₊ lo hi → GainsFound lo hi gain

/-- **The condition** for `get_power`: it returns, a frequency between two that are stored is not
after the second one, also with its fraction, and a gain that the table of the second one has at its
own frequency is in the first table too. -/
def Container.PowerFits (s : Container) (gain freq : ℚ) (temperature : Option ℤ) : Prop :=
  s.PowerFound gain freq temperature ∧ ∀ tables lo hi, s.getTable temperature = .ok tables →
    Around tables.1 ⌊freq⌋₊ lo hi → freq ≤ hi.1 ∧
      (freq = hi.1 → (hi.2.g2p.get? gain).isSome → (lo.2.g2p.get? gain).isSome)

/-- The mean of a number for each of two frequencies, weighted by how near they are, and multiplied
by how far they are apart. -/
def weighted (lo hi : ℕ × PwrCalTable) (freq atLo atHi : ℚ) : ℚ :=
  (hi.1 - freq) * atLo + (freq - lo.1) * atHi

/-- The power is between the weighted means of the powers around it in the two tables, or the means
are the same. -/
def InReach (lo hi : ℕ × PwrCalTable) (power freq : ℚ) : Prop :=
  ∀ lo1 lo2 hi1 hi2, getBoundingIterators lo.2.p2g power = .ok (lo1, lo2) →
    getBoundingIterators hi.2.p2g power = .ok (hi1, hi2) →
    weighted lo hi freq lo1.1 hi1.1 = weighted lo hi freq lo2.1 hi2.1 ∨
      (weighted lo hi freq lo1.1 hi1.1 ≤ (hi.1 - lo.1) * power ∧
        (hi.1 - lo.1) * power ≤ weighted lo hi freq lo2.1 hi2.1)

/-- The power within the limits of the table. -/
def PwrCalTable.coerce (table : PwrCalTable) (power : ℚ) : ℚ :=
  max table.minPower (min table.maxPower power)

/-- **The condition** for `get_gain`: a power that is stored is within the limits of its table, a
frequency between two that are stored is not after the second one, also with its fraction, and the
coerced power is in reach of their tables. -/
def Container.GainFits (s : Container) (powerDbm freq : ℚ) (temperature : Option ℤ) : Prop :=
  FitsUInt64 freq ∧
  (∀ tables, s.getTable temperature = .ok tables → ∀ entry ∈ tables.1.entries, freq = entry.1 →
    (∃ gain, (gain, powerDbm) ∈ entry.2.g2p.entries) → entry.2.coerce powerDbm = powerDbm) ∧
  ∀ tables lo hi limits, s.getTable temperature = .ok tables → Around tables.1 ⌊freq⌋₊ lo hi →
    atNearest tables.1 ⌊freq⌋₊ = .ok limits →
    freq ≤ hi.1 ∧ InReach lo hi (limits.coerce powerDbm) freq

/-! ## Reading maps -/

section Reading

variable {K V : Type} [LinearOrder K] {map : SortedMap K V} {key : K}

theorem atKey_of_mem {entry : K × V} (h : entry ∈ map.entries) :
    atKey map entry.1 = .ok entry.2 := by
  rw [atKey, SortedMap.get?_eq_some.mpr h]

theorem exists_atNearest [Sub K] (hsub : ∀ a b : K, a < b → b - b < b - a) (hne : map.entries ≠ [])
    (key : K) : ∃ entry ∈ map.entries, atNearest map key = .ok entry.2 ∧
      ∀ other ∈ map.entries, other.1 = key → other = entry := by
  rcases exists_bounding hne key with ⟨entry, hend, -, hread⟩ | ⟨lo, hi, haround, -, hread⟩
  · exact ⟨entry, hend.1, hread _, fun other hother hkey => hend.eq_of_key hother hkey⟩
  · rw [atNearest, hread]
    by_cases hnear : hi.1 - key < key - lo.1
    · rw [if_pos hnear]
      exact ⟨hi, haround.hi_mem, rfl, fun other hother hkey => haround.eq_of_key hother hkey⟩
    · rw [if_neg hnear]
      refine ⟨lo, haround.lo_mem, rfl, fun other hother hkey => ?_⟩
      obtain rfl := haround.eq_of_key hother hkey
      rw [hkey] at hnear
      exact absurd (hsub _ _ haround.lo_lt) hnear

theorem exists_nearest {data : SortedMap ℤ FreqTableMap} (hne : data.entries ≠ []) (temp : ℤ) :
    ∃ tables, atNearest data temp = .ok tables ∧ IsNearest data temp tables := by
  rcases exists_bounding hne temp with ⟨entry, hend, -, hread⟩ | ⟨lo, hi, haround, -, hread⟩
  · refine ⟨entry.2, hread _, entry.1, hend.1, fun other hother => ?_⟩
    obtain ⟨-, ⟨hle, hfirst⟩ | ⟨hlt, hlast⟩⟩ := hend
    · have hge := hfirst other hother
      rw [abs_of_nonneg (by omega), abs_of_nonneg (by omega)]
      omega
    · have hle := hlast other hother
      rw [abs_of_nonpos (by omega), abs_of_nonpos (by omega)]
      omega
  · obtain ⟨hlo, hhi, hlt, hle, hneighbours⟩ := haround
    have hlow : |lo.1 - temp| = temp - lo.1 := by rw [abs_of_nonpos (by omega)]; omega
    have hhigh : |hi.1 - temp| = hi.1 - temp := abs_of_nonneg (by omega)
    have hothers : ∀ other ∈ data.entries,
        temp - lo.1 ≤ |other.1 - temp| ∨ hi.1 - temp ≤ |other.1 - temp| := by
      intro other hother
      rcases hneighbours other hother with hother | hother
      · left
        rw [abs_of_nonpos (by omega)]
        omega
      · right
        rw [abs_of_nonneg (by omega)]
        omega
    rw [atNearest, hread]
    by_cases hnear : hi.1 - temp < temp - lo.1
    · rw [if_pos hnear]
      refine ⟨hi.2, rfl, hi.1, hhi, fun other hother => ?_⟩
      rcases hothers other hother with h | h
      · rw [hhigh]
        omega
      · rw [hhigh]
        exact h
    · rw [if_neg hnear]
      refine ⟨lo.2, rfl, lo.1, hlo, fun other hother => ?_⟩
      rcases hothers other hother with h | h
      · rw [hlow]
        exact h
      · rw [hlow]
        omega

theorem atLinInterp_spec {map : SortedMap ℚ ℚ} (hne : map.entries ≠ []) (key : ℚ) :
    ∃ v, atLinInterp map key = .ok v ∧ Within (map.entries.map Prod.snd) v ∧
      ∀ entry ∈ map.entries, entry.1 = key → v = entry.2 := by
  have hwithin : ∀ entry ∈ map.entries, Within (map.entries.map Prod.snd) entry.2 :=
    fun entry hentry => within_of_mem (List.mem_map_of_mem hentry)
  rcases exists_bounding hne key with ⟨entry, hend, -, hread⟩ | ⟨lo, hi, haround, -, hread⟩
  · refine ⟨entry.2, hread _, hwithin _ hend.1, fun other hother hkey => ?_⟩
    rw [hend.eq_of_key hother hkey]
  · obtain ⟨v, hv, hbetween, hexact⟩ := linearInterp_spec lo.2 hi.2 haround.lo_lt.le haround.le_hi
      (haround.lo_lt.trans_le haround.le_hi)
    refine ⟨v, (hread _).trans hv, (hwithin _ haround.lo_mem).of_between
      (hwithin _ haround.hi_mem) hbetween, fun other hother hkey => ?_⟩
    obtain rfl := haround.eq_of_key hother hkey
    exact hexact hkey.symm

end Reading

/-! ## What was added -/

section Tables

/-- The map of every table increases. -/
def Container.AllIncreasing (s : Container) : Prop :=
  ∀ temp ∈ s.data.entries, ∀ entry ∈ temp.2.1.entries, Increasing entry.2.g2p

theorem allIncreasing_add {s : Container} (hs : s.AllIncreasing) {placed : Placed}
    (hmap : Increasing placed.2.2.g2p) : (s.add placed).AllIncreasing := by
  intro temp htemp entry hentry
  rcases SortedMap.mem_set.mp htemp with rfl | ⟨htemp, -⟩
  · rcases SortedMap.mem_set.mp hentry with rfl | ⟨hentry, -⟩
    · exact hmap
    · rw [tablesAt] at hentry
      cases hget : s.data.get? placed.1 with
      | none =>
        rw [hget] at hentry
        exact absurd hentry List.not_mem_nil
      | some tables =>
        rw [hget] at hentry
        exact hs _ (SortedMap.get?_eq_some.mp hget) entry hentry
  · exact hs temp htemp entry hentry

theorem add_of_addPowerTable {s t : Container} {gainPowerMap : SortedMap ℚ ℚ}
    {minPower maxPower freq : ℚ} {temperature : Option ℤ}
    (h : addPowerTable gainPowerMap minPower maxPower freq temperature s = .ok ⟨⟩ t) :
    ∃ placed : Placed, placed.2.2.g2p = gainPowerMap ∧ t = s.add placed := by
  rw [addPowerTable, makeTable] at h
  by_cases hlimits : minPower ≤ maxPower
  · rw [dif_pos hlimits] at h
    cases hkey : toUInt64 freq with
    | error halt =>
      rw [hkey] at h
      cases h
    | ok key =>
      rw [hkey] at h
      cases h
      exact ⟨(temperature.getD s.defaultTemp, key, ⟨gainPowerMap, minPower, maxPower, hlimits⟩),
        rfl, rfl⟩
  · rw [dif_neg hlimits] at h
    cases h

theorem allIncreasing_of_built {s : Container} (h : Built s) : s.AllIncreasing := by
  induction h with
  | make name serial timestamp => exact fun temp htemp => absurd htemp List.not_mem_nil
  | addPowerTable hs hmap minPower maxPower freq temperature hadd ih =>
    obtain ⟨placed, hplaced, rfl⟩ := add_of_addPowerTable hadd
    exact allIncreasing_add ih (hplaced ▸ hmap)
  | clear hs ih => exact fun temp htemp => absurd htemp List.not_mem_nil
  | setTemperature hs temperature ih => exact ih
  | setRefGain hs gain ih => exact ih

variable {map : SortedMap ℚ ℚ}

theorem entries_reverseMap (h : Increasing map) :
    (reverseMap map).entries = map.entries.map Prod.swap := by
  have hsorted : (map.entries.map Prod.swap).Pairwise fun a b => a.1 < b.1 :=
    List.pairwise_map.mpr h.2
  exact congrArg SortedMap.entries
    (SortedMap.insertAll_entries ⟨map.entries.map Prod.swap, hsorted⟩)

theorem entries_p2g {table : PwrCalTable} (h : Increasing table.g2p) :
    table.p2g.entries = table.gains := entries_reverseMap h

theorem p2g_ne_nil {table : PwrCalTable} (h : Increasing table.g2p) :
    table.p2g.entries ≠ [] := by
  rw [entries_p2g h]
  exact fun hnil => h.1 (List.map_eq_nil_iff.mp hnil)

theorem mem_gains {table : PwrCalTable} {power gain : ℚ} :
    (power, gain) ∈ table.gains ↔ (gain, power) ∈ table.g2p.entries := by
  constructor
  · intro h
    obtain ⟨entry, hentry, hswap⟩ := List.mem_map.mp h
    rw [← Prod.swap_inj, Prod.swap_swap] at hswap
    have heq : entry = (gain, power) := hswap
    exact heq ▸ hentry
  · exact fun h => List.mem_map.mpr ⟨(gain, power), h, rfl⟩

end Tables

/-! ## Frequencies -/

section Frequencies

variable {tables : SortedMap ℕ PwrCalTable} {freq : ℚ}

theorem toUInt64_of_fits (h : FitsUInt64 freq) : toUInt64 freq = .ok ⌊freq⌋₊ := by
  rw [toUInt64, if_pos ⟨h.1, h.2⟩, truncInt]
  split_ifs with hnonneg
  · rfl
  · have hceil : ⌈freq⌉ ≤ 0 := Int.ceil_le.mpr (by push_cast; linarith)
    rw [Int.toNat_of_nonpos hceil, Nat.floor_of_nonpos (by linarith)]

theorem fits_of_toUInt64 {f : ℕ} (h : toUInt64 freq = .ok f) : FitsUInt64 freq := by
  rw [toUInt64] at h
  split_ifs at h with hfits
  exact hfits

theorem floor_eq_of_eq {f : ℕ} (h : freq = f) : ⌊freq⌋₊ = f := by
  rw [h, Nat.floor_natCast]

theorem le_floor {f : ℕ} (h : (f : ℚ) < freq) : f ≤ ⌊freq⌋₊ := Nat.le_floor h.le

theorem lt_of_lt_floor {f : ℕ} (h : f < ⌊freq⌋₊) : (f : ℚ) < freq := by
  have hle : (f + 1 : ℕ) ≤ freq := (Nat.le_floor_iff' (Nat.succ_ne_zero f)).mp h
  push_cast at hle
  linarith

theorem bounding_of_around {lo hi : ℕ × PwrCalTable} (h : Around tables ⌊freq⌋₊ lo hi)
    (hle : freq ≤ hi.1) : Bounding tables freq lo hi where
  lo_mem := h.lo_mem
  hi_mem := h.hi_mem
  lo_le_hi := h.lo_lt.le.trans h.le_hi
  neighbours := h.neighbours
  lo_le := Or.inl (lt_of_lt_floor h.lo_lt).le
  le_hi := Or.inl hle

theorem exists_bounding_of_atEnd {entry : ℕ × PwrCalTable} (h : AtEnd tables ⌊freq⌋₊ entry) :
    ∃ lo hi, Bounding tables freq lo hi ∧ (entry = lo ∨ entry = hi) := by
  obtain ⟨hmem, ⟨hle, hfirst⟩ | ⟨hlt, hlast⟩⟩ := h
  · rcases le_or_gt freq entry.1 with hfreq | hfreq
    · exact ⟨entry, entry, ⟨hmem, hmem, le_rfl, fun other hother => Or.inr (hfirst other hother),
        Or.inr hfirst, Or.inl hfreq⟩, Or.inl rfl⟩
    · -- The frequency has the first one without its fraction: it is before the next one.
      have heq : ⌊freq⌋₊ = entry.1 := le_antisymm hle (le_floor hfreq)
      cases hnext : tables.next? (entry.1 + 1) with
      | none =>
        have hlast : ∀ other ∈ tables.entries, other.1 ≤ entry.1 := by
          intro other hother
          have hfrom : tables.fromKey (entry.1 + 1) = [] := List.head?_eq_none_iff.mp hnext
          by_contra hgt
          have hin := SortedMap.mem_fromKey hother (show entry.1 + 1 ≤ other.1 by omega)
          rw [hfrom] at hin
          exact List.not_mem_nil hin
        exact ⟨entry, entry, ⟨hmem, hmem, le_rfl, fun other hother => Or.inr (hfirst other hother),
          Or.inl hfreq.le, Or.inr hlast⟩, Or.inl rfl⟩
      | some next =>
        obtain ⟨hnextMem, hge, hleast⟩ := SortedMap.next?_spec hnext
        have hfreqLe : freq ≤ next.1 := by
          have hlt := Nat.lt_floor_add_one freq
          rw [heq] at hlt
          have hcast : ((entry.1 + 1 : ℕ) : ℚ) ≤ next.1 := by exact_mod_cast hge
          push_cast at hcast
          linarith
        refine ⟨entry, next, ⟨hmem, hnextMem, by omega, fun other hother => ?_, Or.inl hfreq.le,
          Or.inl hfreqLe⟩, Or.inl rfl⟩
        rcases Nat.lt_or_ge entry.1 other.1 with hother' | hother'
        · exact Or.inr (hleast other hother hother')
        · exact Or.inl hother'
  · exact ⟨entry, entry, ⟨hmem, hmem, le_rfl, fun other hother => Or.inl (hlast other hother),
      Or.inl (lt_of_lt_floor hlt).le, Or.inr hlast⟩, Or.inl rfl⟩

end Frequencies

/-! ## The tables of a lookup -/

section Lookup

variable {s : Container} {freq : ℚ} {temperature : Option ℤ}

theorem right_of_tables {stored : PwrCalTable → List (ℚ × ℚ)} {x : ℚ} {result : Except Halt ℚ}
    (hne : s.data.entries ≠ [])
    (hone : ∀ tables entry, s.getTable temperature = .ok tables →
      AtEnd tables.1 ⌊freq⌋₊ entry → getBoundingIterators tables.1 ⌊freq⌋₊ = .ok (entry, entry) →
      ∃ v, result = .ok v ∧ Within ((stored entry.2).map Prod.snd) v ∧
        (freq = entry.1 → ∀ y, (x, y) ∈ stored entry.2 → v = y))
    (htwo : ∀ tables lo hi, s.getTable temperature = .ok tables →
      Around tables.1 ⌊freq⌋₊ lo hi → freq ≤ hi.1 ∧ ∃ v, result = .ok v ∧
        Within ((stored lo.2 ++ stored hi.2).map Prod.snd) v ∧
        (freq = hi.1 → ∀ y, (x, y) ∈ stored hi.2 → v = y)) :
    s.Right stored x freq temperature result := by
  obtain ⟨tables, htables, hnearest⟩ := exists_nearest hne (temperature.getD s.defaultTemp)
  have htablesNe : tables.1.entries ≠ [] := fun hnil => tables.2 (SortedMap.ext hnil)
  rcases exists_bounding htablesNe ⌊freq⌋₊ with
    ⟨entry, hend, hiters, -⟩ | ⟨lo, hi, haround, -, -⟩
  · obtain ⟨v, hv, hwithin, hexact⟩ := hone tables entry htables hend hiters
    obtain ⟨lo, hi, hbounding, hentry⟩ := exists_bounding_of_atEnd hend
    refine ⟨tables, lo, hi, v, hnearest, hbounding, hv, ?_, fun other hother hfreq => ?_⟩
    · have hsub : ∀ y ∈ (stored entry.2).map Prod.snd,
          y ∈ (stored lo.2 ++ stored hi.2).map Prod.snd := by
        intro y hy
        rw [List.map_append, List.mem_append]
        rcases hentry with rfl | rfl
        · exact Or.inl hy
        · exact Or.inr hy
      exact ⟨hwithin.1.imp fun low hlow => ⟨hsub low hlow.1, hlow.2⟩,
        hwithin.2.imp fun high hhigh => ⟨hsub high hhigh.1, hhigh.2⟩⟩
    · obtain rfl := hend.eq_of_key hother (floor_eq_of_eq hfreq).symm
      exact hexact hfreq
  · obtain ⟨hle, v, hv, hwithin, hexact⟩ := htwo tables lo hi htables haround
    refine ⟨tables, lo, hi, v, hnearest, bounding_of_around haround hle, hv, hwithin,
      fun other hother hfreq => ?_⟩
    obtain rfl := haround.eq_of_key hother (floor_eq_of_eq hfreq).symm
    exact hexact hfreq

end Lookup

/-! ## The power at a gain -/

section Power

variable {s : Container} {freq gain : ℚ} {temperature : Option ℤ} {tables : FreqTableMap}

theorem assertNotEmpty_eq_ok (hne : s.data.entries ≠ []) : s.assertNotEmpty = .ok () := if_neg hne

theorem Container.AllIncreasing.of_getTable (hs : s.AllIncreasing) (hne : s.data.entries ≠ [])
    (htables : s.getTable temperature = .ok tables) {entry : ℕ × PwrCalTable}
    (hentry : entry ∈ tables.1.entries) : Increasing entry.2.g2p := by
  obtain ⟨temp, htemp, hread, -⟩ := exists_atNearest (fun a b hab => by omega) hne
    (temperature.getD s.defaultTemp)
  obtain rfl := Except.ok.inj (htables.symm.trans hread)
  exact hs temp htemp entry hentry

theorem getPower_of_atEnd {entry : ℕ × PwrCalTable} (hne : s.data.entries ≠ [])
    (hfreq : FitsUInt64 freq) (htables : s.getTable temperature = .ok tables)
    (hentry : entry ∈ tables.1.entries)
    (hiters : getBoundingIterators tables.1 ⌊freq⌋₊ = .ok (entry, entry)) :
    s.getPower gain freq temperature = atLinInterp entry.2.g2p gain := by
  rw [Container.getPower, assertNotEmpty_eq_ok hne, ok_bind, toUInt64_of_fits hfreq, ok_bind,
    htables, ok_bind, hiters, ok_bind]
  dsimp only
  rw [atKey_of_mem hentry, ok_bind, if_pos rfl]

variable {lo hi : ℕ × PwrCalTable}

theorem entry_of_isSome {map : SortedMap ℚ ℚ} {key : ℚ} (h : (map.get? key).isSome) :
    ∃ value, (key, value) ∈ map.entries := by
  obtain ⟨value, hvalue⟩ := Option.isSome_iff_exists.mp h
  exact ⟨value, SortedMap.get?_eq_some.mp hvalue⟩

/-- What `get_power` does with the tables of two frequencies. -/
def powerBetween (lo hi : ℕ × PwrCalTable) (freq gain : ℚ) : Except Halt ℚ := do
  let gainIters ← getBoundingIterators lo.2.g2p gain
  let power11 ← atKey lo.2.g2p gainIters.1.1
  let power21 ← atKey hi.2.g2p gainIters.1.1
  if gainIters.1.1 = gainIters.2.1 then linearInterp freq lo.1 power11 hi.1 power21
  else
    let power12 ← atKey lo.2.g2p gainIters.2.1
    let power22 ← atKey hi.2.g2p gainIters.2.1
    bilinearInterp freq gain lo.1 gainIters.1.1 hi.1 gainIters.2.1 power11 power12 power21 power22

theorem getPower_of_around (hne : s.data.entries ≠ []) (hfreq : FitsUInt64 freq)
    (htables : s.getTable temperature = .ok tables) (haround : Around tables.1 ⌊freq⌋₊ lo hi) :
    s.getPower gain freq temperature = powerBetween lo hi freq gain := by
  have hne' : lo.1 ≠ hi.1 := (haround.lo_lt.trans_le haround.le_hi).ne
  rw [Container.getPower, assertNotEmpty_eq_ok hne, ok_bind, toUInt64_of_fits hfreq, ok_bind,
    htables, ok_bind, haround.bounding, ok_bind]
  dsimp only
  rw [atKey_of_mem haround.lo_mem, ok_bind, if_neg hne', atKey_of_mem haround.hi_mem, ok_bind]
  rfl

theorem isSome_of_atKey {map : SortedMap ℚ ℚ} {key value : ℚ} (h : atKey map key = .ok value) :
    (map.get? key).isSome := by
  rw [atKey] at h
  split at h
  · next hget => rw [hget]; rfl
  · cases h

theorem gainsFound_of_powerBetween {v : ℚ} (h : powerBetween lo hi freq gain = .ok v) :
    GainsFound lo hi gain := by
  intro gain1 gain2 hiters
  rw [powerBetween, hiters, ok_bind] at h
  obtain ⟨power11, -, h⟩ := bind_eq_ok.mp h
  obtain ⟨power21, hpower21, h⟩ := bind_eq_ok.mp h
  have hsome := isSome_of_atKey hpower21
  refine ⟨hsome, ?_⟩
  by_cases hsame : gain1.1 = gain2.1
  · rwa [← hsame]
  · rw [if_neg hsame] at h
    obtain ⟨power12, -, h⟩ := bind_eq_ok.mp h
    obtain ⟨power22, hpower22, -⟩ := bind_eq_ok.mp h
    exact isSome_of_atKey hpower22

theorem exists_powerBetween (hlt : (lo.1 : ℚ) < freq) (hlohi : lo.1 < hi.1)
    (hgains : lo.2.g2p.entries ≠ []) (hfound : GainsFound lo hi gain) :
    ∃ v, powerBetween lo hi freq gain = .ok v ∧ (freq ≤ hi.1 →
      Within ((lo.2.powers ++ hi.2.powers).map Prod.snd) v ∧
      (freq = hi.1 → ∀ power, (gain, power) ∈ hi.2.powers → (lo.2.g2p.get? gain).isSome →
        v = power)) := by
  have hlohi' : (lo.1 : ℚ) < hi.1 := by exact_mod_cast hlohi
  have hin : ∀ entry, entry ∈ lo.2.g2p.entries ∨ entry ∈ hi.2.g2p.entries →
      Within ((lo.2.powers ++ hi.2.powers).map Prod.snd) entry.2 := by
    intro entry hentry
    rw [List.map_append]
    exact within_of_mem (List.mem_append.mpr (hentry.imp List.mem_map_of_mem List.mem_map_of_mem))
  rcases exists_bounding hgains gain with
    ⟨entry, hend, hgainIters, -⟩ | ⟨low, high, hbetween, hgainIters, -⟩
  · -- The gain is out of bounds.
    obtain ⟨power21, hpower21⟩ := entry_of_isSome (hfound entry entry hgainIters).1
    rw [powerBetween, hgainIters, ok_bind]
    dsimp only
    rw [atKey_of_mem hend.1, ok_bind, atKey_of_mem hpower21, ok_bind, if_pos rfl]
    refine ⟨_, if_neg hlohi'.ne, fun hle => ?_⟩
    obtain ⟨v, hv, hvBetween, hexact⟩ := linearInterp_spec entry.2 power21 hlt.le hle hlohi'
    rw [Except.ok.inj ((if_neg hlohi'.ne).symm.trans hv)]
    refine ⟨(hin _ (Or.inl hend.1)).of_between (hin _ (Or.inr hpower21)) hvBetween, ?_⟩
    intro heq power hpower hsome
    obtain ⟨other, hother⟩ := entry_of_isSome hsome
    obtain rfl := hend.eq_of_key hother rfl
    have hsame := SortedMap.eq_of_mem_of_key hpower hpower21 rfl
    rw [hexact heq, (Prod.mk.inj hsame).2]
  · -- The gain is between two of the first table.
    obtain ⟨hsome1, hsome2⟩ := hfound low high hgainIters
    obtain ⟨power21, hpower21⟩ := entry_of_isSome hsome1
    obtain ⟨power22, hpower22⟩ := entry_of_isSome hsome2
    have hgainLt : low.1 < high.1 := hbetween.lo_lt.trans_le hbetween.le_hi
    rw [powerBetween, hgainIters, ok_bind]
    dsimp only
    rw [atKey_of_mem hbetween.lo_mem, ok_bind, atKey_of_mem hpower21, ok_bind, if_neg hgainLt.ne,
      atKey_of_mem hbetween.hi_mem, ok_bind, atKey_of_mem hpower22, ok_bind]
    obtain ⟨v, hv⟩ := exists_bilinearInterp freq gain low.2 high.2 power21 power22 hlohi'.ne
      hgainLt.ne
    refine ⟨v, hv, fun hle => ?_⟩
    obtain ⟨v', hv', hwithin, hexact⟩ := bilinearInterp_spec low.2 high.2 power21 power22 hlt hle
      hgainLt hbetween.lo_lt.le hbetween.le_hi
    obtain rfl := Except.ok.inj (hv.symm.trans hv')
    refine ⟨hwithin _ (hin _ (Or.inl hbetween.lo_mem)) (hin _ (Or.inl hbetween.hi_mem))
      (hin _ (Or.inr hpower21)) (hin _ (Or.inr hpower22)), ?_⟩
    intro heq power hpower hsome
    obtain ⟨other, hother⟩ := entry_of_isSome hsome
    obtain rfl := hbetween.eq_of_key hother rfl
    have hsame := SortedMap.eq_of_mem_of_key hpower hpower22 rfl
    rw [hexact heq rfl, (Prod.mk.inj hsame).2]

theorem exists_getPower_iff (hs : s.AllIncreasing) (hne : s.data.entries ≠ []) :
    (∃ v, s.getPower gain freq temperature = .ok v) ↔ s.PowerFound gain freq temperature := by
  constructor
  · rintro ⟨v, hv⟩
    have hfreq : FitsUInt64 freq := by
      rw [Container.getPower, assertNotEmpty_eq_ok hne, ok_bind] at hv
      obtain ⟨freqi, hfreqi, -⟩ := bind_eq_ok.mp hv
      exact fits_of_toUInt64 hfreqi
    refine ⟨hfreq, fun tables lo hi htables haround => ?_⟩
    rw [getPower_of_around hne hfreq htables haround] at hv
    exact gainsFound_of_powerBetween hv
  · rintro ⟨hfreq, hfound⟩
    obtain ⟨tables, htables, -⟩ := exists_nearest hne (temperature.getD s.defaultTemp)
    have htablesNe : tables.1.entries ≠ [] := fun hnil => tables.2 (SortedMap.ext hnil)
    rcases exists_bounding htablesNe ⌊freq⌋₊ with
      ⟨entry, hend, hiters, -⟩ | ⟨lo, hi, haround, -, -⟩
    · obtain ⟨v, hv, -⟩ := atLinInterp_spec (hs.of_getTable hne htables hend.1).1 gain
      exact ⟨v, (getPower_of_atEnd hne hfreq htables hend.1 hiters).trans hv⟩
    · obtain ⟨v, hv, -⟩ := exists_powerBetween (lt_of_lt_floor haround.lo_lt)
        (haround.lo_lt.trans_le haround.le_hi) (hs.of_getTable hne htables haround.lo_mem).1
        (hfound tables lo hi htables haround)
      exact ⟨v, (getPower_of_around hne hfreq htables haround).trans hv⟩

theorem powerRight_of_fits (hs : s.AllIncreasing) (hne : s.data.entries ≠ [])
    (h : s.PowerFits gain freq temperature) : s.PowerRight gain freq temperature := by
  obtain ⟨⟨hfreq, hfound⟩, hfits⟩ := h
  refine right_of_tables hne (fun tables entry htables hend hiters => ?_)
    fun tables lo hi htables haround => ?_
  · obtain ⟨v, hv, hwithin, hexact⟩ :=
      atLinInterp_spec (hs.of_getTable hne htables hend.1).1 gain
    refine ⟨v, (getPower_of_atEnd hne hfreq htables hend.1 hiters).trans hv, hwithin, ?_⟩
    exact fun _ power hpower => hexact _ hpower rfl
  · obtain ⟨hle, hgain⟩ := hfits tables lo hi htables haround
    obtain ⟨v, hv, hv'⟩ := exists_powerBetween (lt_of_lt_floor haround.lo_lt)
      (haround.lo_lt.trans_le haround.le_hi) (hs.of_getTable hne htables haround.lo_mem).1
      (hfound tables lo hi htables haround)
    obtain ⟨hwithin, hexact⟩ := hv' hle
    refine ⟨hle, v, (getPower_of_around hne hfreq htables haround).trans hv, hwithin, ?_⟩
    intro heq power hpower
    exact hexact heq power hpower
      (hgain heq (Option.isSome_iff_exists.mpr ⟨power, SortedMap.get?_eq_some.mpr hpower⟩))

end Power

/-! ## The gain at a power -/

section Gain

variable {s : Container} {freq power : ℚ} {temperature : Option ℤ} {tables : FreqTableMap}

theorem clip_limits (table : PwrCalTable) (power : ℚ) :
    MetaRange.clip [⟨table.minPower, table.maxPower, 0, table.min_le_max⟩] power =
      .ok (table.coerce power) := by
  have hlimits := table.min_le_max
  rw [MetaRange.clip, MetaRange.checkMonotonic_eq_ok.mpr
    ⟨List.cons_ne_nil _ _, List.isChain_singleton _⟩]
  refine congrArg Except.ok ?_
  rw [MetaRange.clipFrom, PwrCalTable.coerce]
  change (if power < table.minPower then
    if |power - table.minPower| < |power - table.maxPower| then table.minPower else table.maxPower
    else if power ≤ table.maxPower then power else table.maxPower) = _
  split_ifs with hlow hnear hhigh
  · rw [min_eq_right (by linarith), max_eq_left hlow.le]
  · -- The limits are the same if the upper one is no farther.
    rw [abs_of_neg (by linarith), abs_of_neg (by linarith)] at hnear
    rw [min_eq_right (by linarith), max_eq_left hlow.le]
    linarith
  · rw [min_eq_right hhigh, max_eq_right (not_lt.mp hlow)]
  · rw [min_eq_left (not_le.mp hhigh).le, max_eq_right hlimits]

theorem getPowerLimits_eq {limits : PwrCalTable} (hfreq : FitsUInt64 freq)
    (htables : s.getTable temperature = .ok tables)
    (hlimits : atNearest tables.1 ⌊freq⌋₊ = .ok limits) :
    s.getPowerLimits freq temperature =
      .ok [⟨limits.minPower, limits.maxPower, 0, limits.min_le_max⟩] := by
  rw [Container.getPowerLimits, htables, ok_bind, toUInt64_of_fits hfreq, ok_bind, hlimits, ok_bind]

theorem getGain_of_atEnd {entry : ℕ × PwrCalTable} {limits : PwrCalTable}
    (hne : s.data.entries ≠ []) (hfreq : FitsUInt64 freq)
    (htables : s.getTable temperature = .ok tables) (hentry : entry ∈ tables.1.entries)
    (hiters : getBoundingIterators tables.1 ⌊freq⌋₊ = .ok (entry, entry))
    (hlimits : atNearest tables.1 ⌊freq⌋₊ = .ok limits) :
    s.getGain power freq temperature = atLinInterp entry.2.p2g (limits.coerce power) := by
  rw [Container.getGain, assertNotEmpty_eq_ok hne, ok_bind, toUInt64_of_fits hfreq, ok_bind,
    htables, ok_bind, getPowerLimits_eq hfreq htables hlimits, ok_bind, clip_limits]
  change (getBoundingIterators tables.1 ⌊freq⌋₊ >>= _) = _
  rw [hiters, ok_bind]
  dsimp only
  rw [atKey_of_mem hentry, ok_bind, if_pos rfl]

variable {lo hi : ℕ × PwrCalTable}

theorem exists_weighted (hlt : (lo.1 : ℚ) < hi.1) (freq atLo atHi : ℚ) :
    ∃ p, linearInterp freq lo.1 atLo hi.1 atHi = .ok p ∧
      (hi.1 - lo.1) * p = weighted lo hi freq atLo atHi := by
  refine ⟨_, if_neg hlt.ne, ?_⟩
  have hne : (hi.1 - lo.1 : ℚ) ≠ 0 := (sub_pos.mpr hlt).ne'
  rw [weighted]
  field_simp
  ring

theorem exists_bounds {map : SortedMap ℚ ℚ} (hne : map.entries ≠ []) (key : ℚ) :
    ∃ low high, getBoundingIterators map key = .ok (low, high) ∧ low ∈ map.entries ∧
      high ∈ map.entries ∧ ∀ entry ∈ map.entries, entry.1 = key → entry = high := by
  rcases exists_bounding hne key with ⟨entry, hend, hiters, -⟩ | ⟨low, high, haround, hiters, -⟩
  · exact ⟨entry, entry, hiters, hend.1, hend.1, fun other hother => hend.eq_of_key hother⟩
  · exact ⟨low, high, hiters, haround.lo_mem, haround.hi_mem,
      fun other hother => haround.eq_of_key hother⟩

/-- What `get_gain` does with the tables of two frequencies. -/
def gainBetween (lo hi : ℕ × PwrCalTable) (freq power : ℚ) : Except Halt ℚ := do
  let loIters ← getBoundingIterators lo.2.p2g power
  let hiIters ← getBoundingIterators hi.2.p2g power
  let pwr1 ← linearInterp freq lo.1 loIters.1.1 hi.1 hiIters.1.1
  let pwr2 ← linearInterp freq lo.1 loIters.2.1 hi.1 hiIters.2.1
  if pwr1 = pwr2 then
    let gain1 ← atNearest lo.2.p2g pwr1
    let gain2 ← atNearest hi.2.p2g pwr2
    linearInterp freq lo.1 gain1 hi.1 gain2
  else
    let gain11 ← atKey lo.2.p2g loIters.1.1
    let gain12 ← atKey lo.2.p2g loIters.2.1
    let gain21 ← atKey hi.2.p2g hiIters.1.1
    let gain22 ← atKey hi.2.p2g hiIters.2.1
    bilinearInterp freq power lo.1 pwr1 hi.1 pwr2 gain11 gain12 gain21 gain22

theorem getGain_of_around {limits : PwrCalTable} (hne : s.data.entries ≠ [])
    (hfreq : FitsUInt64 freq) (htables : s.getTable temperature = .ok tables)
    (haround : Around tables.1 ⌊freq⌋₊ lo hi) (hlimits : atNearest tables.1 ⌊freq⌋₊ = .ok limits) :
    s.getGain power freq temperature = gainBetween lo hi freq (limits.coerce power) := by
  have hne' : lo.1 ≠ hi.1 := (haround.lo_lt.trans_le haround.le_hi).ne
  rw [Container.getGain, assertNotEmpty_eq_ok hne, ok_bind, toUInt64_of_fits hfreq, ok_bind,
    htables, ok_bind, getPowerLimits_eq hfreq htables hlimits, ok_bind, clip_limits]
  change (getBoundingIterators tables.1 ⌊freq⌋₊ >>= _) = _
  rw [haround.bounding, ok_bind]
  dsimp only
  rw [atKey_of_mem haround.lo_mem, ok_bind, if_neg hne', atKey_of_mem haround.hi_mem]
  rfl

/-- **A gain is returned**: one within those that the tables have if the frequency is not after the
second one and they are in reach, and the one of the second table at its own frequency. -/
theorem exists_gainBetween (hlt : (lo.1 : ℚ) < freq) (hlohi : lo.1 < hi.1)
    (hlo : lo.2.p2g.entries ≠ []) (hhi : hi.2.p2g.entries ≠ []) (power : ℚ) :
    ∃ v, gainBetween lo hi freq power = .ok v ∧ (freq ≤ hi.1 → InReach lo hi power freq →
      Within ((lo.2.p2g.entries ++ hi.2.p2g.entries).map Prod.snd) v ∧
      (freq = hi.1 → ∀ gain, (power, gain) ∈ hi.2.p2g.entries → v = gain)) := by
  have hlohi' : (lo.1 : ℚ) < hi.1 := by exact_mod_cast hlohi
  have hin : ∀ entry, entry ∈ lo.2.p2g.entries ∨ entry ∈ hi.2.p2g.entries →
      Within ((lo.2.p2g.entries ++ hi.2.p2g.entries).map Prod.snd) entry.2 := by
    intro entry hentry
    rw [List.map_append]
    exact within_of_mem (List.mem_append.mpr (hentry.imp List.mem_map_of_mem List.mem_map_of_mem))
  -- The powers around the one asked for in the two tables, and their means.
  obtain ⟨lo1, lo2, hloIters, hlo1, hlo2, -⟩ := exists_bounds hlo power
  obtain ⟨hi1, hi2, hhiIters, hhi1, hhi2, hhiExact⟩ := exists_bounds hhi power
  obtain ⟨pwr1, hpwr1, hmean1⟩ := exists_weighted hlohi' freq lo1.1 hi1.1
  obtain ⟨pwr2, hpwr2, hmean2⟩ := exists_weighted hlohi' freq lo2.1 hi2.1
  have hpos : (0 : ℚ) < hi.1 - lo.1 := sub_pos.mpr hlohi'
  have hmeans : freq = hi.1 → pwr2 = hi2.1 := by
    rintro rfl
    refine mul_left_cancel₀ hpos.ne' ?_
    rw [hmean2, weighted, sub_self, zero_mul, zero_add]
  rw [gainBetween, hloIters, ok_bind, hhiIters, ok_bind]
  dsimp only
  rw [hpwr1, ok_bind, hpwr2, ok_bind]
  by_cases hsame : pwr1 = pwr2
  · -- The power is out of bounds.
    have hsub : ∀ a b : ℚ, a < b → b - b < b - a := fun a b hab => by linarith
    obtain ⟨near1, hnear1, hread1, -⟩ := exists_atNearest hsub hlo pwr1
    obtain ⟨near2, hnear2, hread2, hexact2⟩ := exists_atNearest hsub hhi pwr2
    rw [if_pos hsame, hread1, ok_bind, hread2, ok_bind]
    refine ⟨_, if_neg hlohi'.ne, fun hle _ => ?_⟩
    obtain ⟨v, hv, hbetween, hexact⟩ := linearInterp_spec near1.2 near2.2 hlt.le hle hlohi'
    rw [Except.ok.inj ((if_neg hlohi'.ne).symm.trans hv)]
    refine ⟨(hin _ (Or.inl hnear1)).of_between (hin _ (Or.inr hnear2)) hbetween, ?_⟩
    intro heq gain hgain
    have hstored := hhiExact _ hgain rfl
    obtain rfl := hexact2 _ hgain ((congrArg Prod.fst hstored).trans (hmeans heq).symm)
    exact hexact heq
  · rw [if_neg hsame, atKey_of_mem hlo1, ok_bind, atKey_of_mem hlo2, ok_bind, atKey_of_mem hhi1,
      ok_bind, atKey_of_mem hhi2, ok_bind]
    obtain ⟨v, hv⟩ := exists_bilinearInterp freq power lo1.2 lo2.2 hi1.2 hi2.2 hlohi'.ne hsame
    refine ⟨v, hv, fun hle hreach => ?_⟩
    rcases hreach lo1 lo2 hi1 hi2 hloIters hhiIters with hequal | ⟨hlow, hhigh⟩
    · rw [← hmean1, ← hmean2] at hequal
      exact absurd (mul_left_cancel₀ hpos.ne' hequal) hsame
    · -- The power is between the means.
      rw [← hmean1] at hlow
      rw [← hmean2] at hhigh
      have hpwrLow : pwr1 ≤ power := le_of_mul_le_mul_left hlow hpos
      have hpwrHigh : power ≤ pwr2 := le_of_mul_le_mul_left hhigh hpos
      obtain ⟨v', hv', hwithin, hexact⟩ := bilinearInterp_spec lo1.2 lo2.2 hi1.2 hi2.2 hlt hle
        (lt_of_le_of_ne (hpwrLow.trans hpwrHigh) hsame) hpwrLow hpwrHigh
      obtain rfl := Except.ok.inj (hv.symm.trans hv')
      refine ⟨hwithin _ (hin _ (Or.inl hlo1)) (hin _ (Or.inl hlo2)) (hin _ (Or.inr hhi1))
        (hin _ (Or.inr hhi2)), ?_⟩
      intro heq gain hgain
      have hstored := hhiExact _ hgain rfl
      rw [hexact heq ((congrArg Prod.fst hstored).trans (hmeans heq).symm), ← hstored]

theorem exists_limits (tables : FreqTableMap) (freq : ℚ) :
    ∃ limits, atNearest tables.1 ⌊freq⌋₊ = .ok limits ∧
      ∀ other ∈ tables.1.entries, other.1 = ⌊freq⌋₊ → other.2 = limits := by
  have htablesNe : tables.1.entries ≠ [] := fun hnil => tables.2 (SortedMap.ext hnil)
  obtain ⟨entry, -, hread, hexact⟩ := exists_atNearest (fun a b hab => by omega) htablesNe ⌊freq⌋₊
  exact ⟨entry.2, hread, fun other hother hkey => congrArg Prod.snd (hexact other hother hkey)⟩

theorem exists_getGain_iff (hs : s.AllIncreasing) (hne : s.data.entries ≠ []) :
    (∃ v, s.getGain power freq temperature = .ok v) ↔ FitsUInt64 freq := by
  constructor
  · rintro ⟨v, hv⟩
    rw [Container.getGain, assertNotEmpty_eq_ok hne, ok_bind] at hv
    obtain ⟨freqi, hfreqi, -⟩ := bind_eq_ok.mp hv
    exact fits_of_toUInt64 hfreqi
  · intro hfreq
    obtain ⟨tables, htables, -⟩ := exists_nearest hne (temperature.getD s.defaultTemp)
    have htablesNe : tables.1.entries ≠ [] := fun hnil => tables.2 (SortedMap.ext hnil)
    obtain ⟨limits, hlimits, -⟩ := exists_limits tables freq
    rcases exists_bounding htablesNe ⌊freq⌋₊ with
      ⟨entry, hend, hiters, -⟩ | ⟨lo, hi, haround, -, -⟩
    · obtain ⟨v, hv, -⟩ := atLinInterp_spec (p2g_ne_nil (hs.of_getTable hne htables hend.1))
        (limits.coerce power)
      exact ⟨v, (getGain_of_atEnd hne hfreq htables hend.1 hiters hlimits).trans hv⟩
    · obtain ⟨v, hv, -⟩ := exists_gainBetween (lt_of_lt_floor haround.lo_lt)
        (haround.lo_lt.trans_le haround.le_hi)
        (p2g_ne_nil (hs.of_getTable hne htables haround.lo_mem))
        (p2g_ne_nil (hs.of_getTable hne htables haround.hi_mem)) (limits.coerce power)
      exact ⟨v, (getGain_of_around hne hfreq htables haround hlimits).trans hv⟩

theorem gainRight_of_fits (hs : s.AllIncreasing) (hne : s.data.entries ≠ [])
    (h : s.GainFits power freq temperature) : s.GainRight power freq temperature := by
  obtain ⟨hfreq, hstored, hfits⟩ := h
  -- A power that the table of this frequency has stays as it is.
  have hcoerce : ∀ (tables : FreqTableMap) (entry : ℕ × PwrCalTable) (limits : PwrCalTable),
      s.getTable temperature = .ok tables → entry ∈ tables.1.entries → freq = entry.1 →
      (∀ other ∈ tables.1.entries, other.1 = ⌊freq⌋₊ → other.2 = limits) →
      ∀ gain, (power, gain) ∈ entry.2.gains → limits.coerce power = power := by
    intro tables entry limits htables hentry hfreqEq hlimits gain hgain
    obtain rfl := hlimits entry hentry (floor_eq_of_eq hfreqEq).symm
    exact hstored tables htables entry hentry hfreqEq ⟨gain, mem_gains.mp hgain⟩
  refine right_of_tables hne (fun tables entry htables hend hiters => ?_)
    fun tables lo hi htables haround => ?_
  · have hmap := hs.of_getTable hne htables hend.1
    obtain ⟨limits, hlimits, hexactLimits⟩ := exists_limits tables freq
    obtain ⟨v, hv, hwithin, hexact⟩ := atLinInterp_spec (p2g_ne_nil hmap) (limits.coerce power)
    rw [entries_p2g hmap] at hwithin hexact
    refine ⟨v, (getGain_of_atEnd hne hfreq htables hend.1 hiters hlimits).trans hv, hwithin, ?_⟩
    intro hfreqEq gain hgain
    exact hexact _ hgain
      (hcoerce tables entry limits htables hend.1 hfreqEq hexactLimits gain hgain).symm
  · have hlo := hs.of_getTable hne htables haround.lo_mem
    have hhi := hs.of_getTable hne htables haround.hi_mem
    obtain ⟨limits, hlimits, hexactLimits⟩ := exists_limits tables freq
    obtain ⟨hle, hreach⟩ := hfits tables lo hi limits htables haround hlimits
    obtain ⟨v, hv, hv'⟩ := exists_gainBetween (lt_of_lt_floor haround.lo_lt)
      (haround.lo_lt.trans_le haround.le_hi) (p2g_ne_nil hlo) (p2g_ne_nil hhi)
      (limits.coerce power)
    obtain ⟨hwithin, hexact⟩ := hv' hle hreach
    rw [entries_p2g hlo, entries_p2g hhi] at hwithin
    rw [entries_p2g hhi] at hexact
    refine ⟨hle, v, (getGain_of_around hne hfreq htables haround hlimits).trans hv, hwithin,
      fun hfreqEq gain hgain => hexact hfreqEq gain ?_⟩
    rwa [hcoerce tables hi limits htables haround.hi_mem hfreqEq hexactLimits gain hgain]

end Gain

/-! ## All lookups -/

/-- **A container that was built** and has tables: `get_power` returns exactly if the gains are
found, `get_gain` exactly if the frequency can be converted, and both return what is claimed under
their conditions. -/
theorem lookups_right_of_fits {s : Container} (hs : Built s) (hne : s.data ≠ .empty)
    (gain powerDbm freq : ℚ) (temperature : Option ℤ) :
    ((∃ v, s.getPower gain freq temperature = .ok v) ↔ s.PowerFound gain freq temperature) ∧
    ((∃ v, s.getGain powerDbm freq temperature = .ok v) ↔ FitsUInt64 freq) ∧
    (s.PowerFits gain freq temperature → s.PowerRight gain freq temperature) ∧
    (s.GainFits powerDbm freq temperature → s.GainRight powerDbm freq temperature) := by
  have hmaps := allIncreasing_of_built hs
  have hentries : s.data.entries ≠ [] := fun hnil => hne (SortedMap.ext hnil)
  exact ⟨exists_getPower_iff hmaps hentries, exists_getGain_iff hmaps hentries,
    powerRight_of_fits hmaps hentries, gainRight_of_fits hmaps hentries⟩

theorem Built.add {s : Container} (hs : Built s) (temp : ℤ) {freq : ℕ}
    (hfreq : freq < 18446744073709551616) {table : PwrCalTable} (hmap : Increasing table.g2p) :
    Built (s.add (temp, freq, table)) := by
  refine hs.addPowerTable hmap table.minPower table.maxPower freq (some temp) ?_
  rw [addPowerTable_natCast hfreq, makeTable, dif_pos table.min_le_max]
  rfl

theorem zero_le_ten : (0 : ℚ) ≤ 10 := by norm_num

/-- The table with the power of each gain of a list the same number as the gain. -/
def identityTable (gains : List ℚ) (h : gains.Pairwise (· < ·)) : PwrCalTable where
  g2p := ⟨gains.map fun gain => (gain, gain), List.pairwise_map.mpr h⟩
  minPower := 0
  maxPower := 10
  min_le_max := zero_le_ten

theorem zero_lt_ten : [0, 10].Pairwise fun a b : ℚ => a < b := by decide +kernel

theorem zero_lt_five : [0, 5].Pairwise fun a b : ℚ => a < b := by decide +kernel

/-- Tables at 1 kHz and 2 kHz with these gains. -/
def twoTables (gains1 gains2 : List ℚ) (h1 : gains1.Pairwise (· < ·))
    (h2 : gains2.Pairwise (· < ·)) : Container :=
  (({} : Container).add (20, 1000, identityTable gains1 h1)).add (20, 2000, identityTable gains2 h2)

theorem built_twoTables {gains1 gains2 : List ℚ} (hne1 : gains1 ≠ []) (hne2 : gains2 ≠ [])
    (h1 : gains1.Pairwise (· < ·)) (h2 : gains2.Pairwise (· < ·)) :
    Built (twoTables gains1 gains2 h1 h2) := by
  have hmap : ∀ {gains : List ℚ} (hne : gains ≠ []) (h : gains.Pairwise (· < ·)),
      Increasing (identityTable gains h).g2p := fun hne h =>
    ⟨fun hnil => hne (List.map_eq_nil_iff.mp hnil), List.pairwise_map.mpr h⟩
  exact ((Built.make [] [] 0).add 20 (by decide) (hmap hne1 h1)).add 20 (by decide) (hmap hne2 h2)

theorem tables_of_twoTables {gains1 gains2 : List ℚ} {h1 : gains1.Pairwise (· < ·)}
    {h2 : gains2.Pairwise (· < ·)} {temperature : Option ℤ} {tables : FreqTableMap}
    (htables : (twoTables gains1 gains2 h1 h2).getTable temperature = .ok tables) :
    tables.1.entries = [(1000, identityTable gains1 h1), (2000, identityTable gains2 h2)] := by
  have hne : (twoTables gains1 gains2 h1 h2).data.entries ≠ [] := List.cons_ne_nil _ _
  obtain ⟨entry, hentry, hread, -⟩ := exists_atNearest (fun a b hab => by omega) hne
    (temperature.getD (twoTables gains1 gains2 h1 h2).defaultTemp)
  obtain rfl := Except.ok.inj (htables.symm.trans hread)
  rw [List.mem_singleton.mp (show entry ∈ [_] from hentry)]
  rfl

/-- **The same gains at both frequencies**: what is between is returned. -/
theorem right_sameGains :
    (twoTables [0, 10] [0, 10] zero_lt_ten zero_lt_ten).PowerRight 5 1500 none ∧
      (twoTables [0, 10] [0, 10] zero_lt_ten zero_lt_ten).GainRight 5 1500 none := by
  have hbuilt := built_twoTables (List.cons_ne_nil _ _) (List.cons_ne_nil _ _) zero_lt_ten
    zero_lt_ten
  have hfreq : FitsUInt64 1500 := ⟨by norm_num, by norm_num⟩
  have hfloor : ⌊(1500 : ℚ)⌋₊ = 1500 := Nat.floor_ofNat 1500
  -- The two frequencies, and the powers around five, which both tables have.
  have haround : ∀ (tables : FreqTableMap) (lo hi : ℕ × PwrCalTable),
      (twoTables [0, 10] [0, 10] zero_lt_ten zero_lt_ten).getTable none = .ok tables →
      Around tables.1 ⌊(1500 : ℚ)⌋₊ lo hi → lo = (1000, identityTable [0, 10] zero_lt_ten) ∧
        hi = (2000, identityTable [0, 10] zero_lt_ten) := by
    intro tables lo hi htables haround
    have hlo := haround.lo_mem
    have hhi := haround.hi_mem
    have hlt := haround.lo_lt
    have hle := haround.le_hi
    rw [tables_of_twoTables htables, List.mem_pair] at hlo hhi
    rw [hfloor] at hlt hle
    constructor
    · rcases hlo with rfl | rfl
      · rfl
      · exact absurd hlt (by decide)
    · rcases hhi with rfl | rfl
      · exact absurd hle (by decide)
      · rfl
  have hgains : getBoundingIterators (identityTable [0, 10] zero_lt_ten).g2p 5 =
      .ok ((0, 0), (10, 10)) := by decide +kernel
  have hpowers : getBoundingIterators (identityTable [0, 10] zero_lt_ten).p2g 5 =
      .ok ((0, 0), (10, 10)) := by decide +kernel
  have hcoerce : (identityTable [0, 10] zero_lt_ten).coerce 5 = 5 := by decide +kernel
  have hle : (1500 : ℚ) ≤ ((2000 : ℕ) : ℚ) := by norm_num
  obtain ⟨-, -, hpower, hgain⟩ :=
    lookups_right_of_fits hbuilt (SortedMap.set_ne_empty _ _ _) 5 5 1500 none
  refine ⟨hpower ⟨⟨hfreq, ?_⟩, ?_⟩, hgain ⟨hfreq, ?_, ?_⟩⟩
  · intro tables lo hi htables h
    obtain ⟨rfl, rfl⟩ := haround tables lo hi htables h
    intro gain1 gain2 hiters
    obtain ⟨rfl, rfl⟩ := Prod.mk.inj (Except.ok.inj (hgains.symm.trans hiters))
    decide +kernel
  · intro tables lo hi htables h
    obtain ⟨rfl, rfl⟩ := haround tables lo hi htables h
    refine ⟨hle, fun heq => ?_⟩
    norm_num at heq
  · intro tables htables entry hentry heq
    rw [tables_of_twoTables htables, List.mem_pair] at hentry
    rcases hentry with rfl | rfl
    · exact fun _ => hcoerce
    · exact fun _ => hcoerce
  · intro tables lo hi limits htables h hlimits
    have hlimitsMem : limits = identityTable [0, 10] zero_lt_ten := by
      obtain ⟨entry, hentry, hread, -⟩ := exists_atNearest (fun a b hab => by omega)
        (fun hnil => tables.2 (SortedMap.ext hnil)) ⌊(1500 : ℚ)⌋₊
      obtain rfl := Except.ok.inj (hlimits.symm.trans hread)
      rw [tables_of_twoTables htables, List.mem_pair] at hentry
      rcases hentry with rfl | rfl
      · rfl
      · rfl
    obtain ⟨rfl, rfl⟩ := haround tables lo hi htables h
    refine ⟨hle, fun lo1 lo2 hi1 hi2 hlo hhi => Or.inr ?_⟩
    rw [hlimitsMem, hcoerce] at hlo hhi ⊢
    obtain ⟨rfl, rfl⟩ := Prod.mk.inj (Except.ok.inj (hpowers.symm.trans hlo))
    obtain ⟨rfl, rfl⟩ := Prod.mk.inj (Except.ok.inj (hpowers.symm.trans hhi))
    rw [weighted, weighted]
    norm_num

/-- **Other gains at the second frequency**: the gains around the one that is asked for are not in
its table. -/
theorem not_right_otherGains :
    ¬ ∀ s : Container, Built s → s.data ≠ .empty → ∀ (gain powerDbm freq : ℚ)
      (temperature : Option ℤ), FitsUInt64 freq →
      s.PowerRight gain freq temperature ∧ s.GainRight powerDbm freq temperature := by
  intro hright
  have hbuilt := built_twoTables (List.cons_ne_nil _ _) (List.cons_ne_nil _ _) zero_lt_ten
    zero_lt_five
  have hthrown : (twoTables [0, 10] [0, 5] zero_lt_ten zero_lt_five).getPower 10 1500 none =
      .error (.threw .outOfRange) := by decide +kernel
  obtain ⟨⟨tables, lo, hi, v, -, -, hv, -⟩, -⟩ :=
    hright _ hbuilt (SortedMap.set_ne_empty _ _ _) 10 10 1500 none ⟨by norm_num, by norm_num⟩
  rw [hthrown] at hv
  cases hv

end PwrCal
end Cal
end UhdHost
