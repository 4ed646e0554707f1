import Mathlib
import UhdHost.Cal.Container
import UhdHost.Library.Exceptions
import UhdHost.Types.TimeSpec

/-!
# The power calibration

`pwr_cal_impl` of `pwr_cal.cpp`: for each temperature and frequency the power at each gain, and the
gain at each power, with the limits of the power.

* `atomic_deserialize_iff`: when `deserialize` loads what it is given, or leaves what there was.
* `container_roundTrip_iff`: when what was serialized is read back.
-/

namespace UhdHost
namespace Cal
namespace PwrCal

open Exceptions Stateful

/-- `NORMAL_TEMPERATURE` -/
def normalTemperature : ℤ := 20

/-- `VERSION_MAJOR` -/
def versionMajor : ℤ := 1

/-- `VERSION_MINOR` -/
def versionMinor : ℤ := 0

/-- `reverse_map` -/
def reverseMap (map : SortedMap ℚ ℚ) : SortedMap ℚ ℚ :=
  SortedMap.empty.insertAll (map.entries.map Prod.swap)

/-- `pwr_cal_table`, which `add_power_table` alone makes. -/
@[ext]
structure PwrCalTable where
  g2p : SortedMap ℚ ℚ
  minPower : ℚ
  maxPower : ℚ
  min_le_max : minPower ≤ maxPower

/-- The other map of the table. -/
def PwrCalTable.p2g (table : PwrCalTable) : SortedMap ℚ ℚ := reverseMap table.g2p

/-- `freq_table_map`, which has a table as soon as there is one for its temperature. -/
abbrev FreqTableMap := { tables : SortedMap ℕ PwrCalTable // tables ≠ .empty }

/-- `pwr_cal_impl` -/
structure Container where
  name : Text := []
  serial : Text := []
  timestamp : ℕ := 0
  data : SortedMap ℤ FreqTableMap := .empty
  refGain : ℚ := 0
  defaultTemp : ℤ := normalTemperature

/-- `clear` -/
def Container.clear (s : Container) : Container := { s with data := .empty }

/-! ## Adding tables -/

/-- The tables at a temperature, if there are any. -/
def tablesAt (data : SortedMap ℤ FreqTableMap) (temp : ℤ) : SortedMap ℕ PwrCalTable :=
  ((data.get? temp).map Subtype.val).getD .empty

/-- A table with its temperature and frequency. -/
abbrev Placed := ℤ × ℕ × PwrCalTable

/-- Put a table in its place. -/
def place (data : SortedMap ℤ FreqTableMap) (placed : Placed) : SortedMap ℤ FreqTableMap :=
  data.set placed.1 ⟨(tablesAt data placed.1).set placed.2.1 placed.2.2, SortedMap.set_ne_empty _ _ _⟩

/-- Put a table in its place in the container. -/
def Container.add (s : Container) (placed : Placed) : Container :=
  { s with data := place s.data placed }

/-- A nonnegative number with six decimals, the nearest, or of two the even one. -/
def sixDecimals (x : ℚ) : String :=
  let floor := ⌊x * 1000000⌋.toNat
  let rest := x * 1000000 - floor
  let micros := if rest < 1 / 2 ∨ rest = 1 / 2 ∧ floor % 2 = 0 then floor else floor + 1
  let digits := toString (micros % 1000000)
  toString (micros / 1000000) ++ "." ++ String.ofList (List.replicate (6 - digits.length) '0') ++
    digits

/-- `std::to_string` of a `double` -/
def stdToString (x : ℚ) : String :=
  if x < 0 then "-" ++ sixDecimals (-x) else sixDecimals x

/-- The text of the exception of `add_power_table`. -/
def invalidLimits (minPower maxPower : ℚ) : String :=
  "Invalid min/max power levels: Min power must be smaller than max power! (Is: " ++
    stdToString minPower ++ " dBm, " ++ stdToString maxPower ++ " dBm)"

/-- The table that `add_power_table` makes. -/
def makeTable (gainPowerMap : SortedMap ℚ ℚ) (minPower maxPower : ℚ) : Except Halt PwrCalTable :=
  if h : minPower ≤ maxPower then .ok ⟨gainPowerMap, minPower, maxPower, h⟩
  else .error (.threw (.runtimeError (invalidLimits minPower maxPower)))

/-- `static_cast<uint64_t>` of a `double`: it drops the fraction, and what does not fit is not
defined. -/
def toUInt64 (x : ℚ) : Except Halt ℕ :=
  if -1 < x ∧ x < 18446744073709551616 then .ok (truncInt x).toNat else .error .undefined

/-- `add_power_table` -/
def addPowerTable (gainPowerMap : SortedMap ℚ ℚ) (minPower maxPower freq : ℚ)
    (temperature : Option ℤ) : EStateM Halt Container PUnit := do
  let table ← orThrow (makeTable gainPowerMap minPower maxPower)
  let s ← get
  let key ← orThrow (toUInt64 freq)
  modify fun s' => s'.add (temperature.getD s.defaultTemp, key, table)

/-! ## Serialization -/

/-- The table `FreqPowerMap`. -/
structure FbFreqPowerMap where
  freq : ℕ
  powers : Option (List (ℚ × ℚ))
  minPower : ℚ
  maxPower : ℚ
  deriving DecidableEq

/-- The table `TempFreqMap`. -/
structure FbTempFreqMap where
  temperature : ℤ
  freqs : Option (List FbFreqPowerMap)
  deriving DecidableEq

/-- The table `PowerCal`. -/
structure Tree where
  metadata : Option Metadata
  tempFreqMap : Option (List FbTempFreqMap)
  refGain : ℤ
  deriving DecidableEq

/-- A turn of the inner loop of `serialize`. -/
def fbFreq (entry : ℕ × PwrCalTable) : FbFreqPowerMap where
  freq := entry.1
  powers := some entry.2.g2p.entries
  minPower := entry.2.minPower
  maxPower := entry.2.maxPower

/-- A turn of the outer loop of `serialize`. -/
def fbTemp (entry : ℤ × FreqTableMap) : FbTempFreqMap where
  temperature := entry.1
  freqs := some (entry.2.1.entries.map fbFreq)

/-- The conversion of a `double` to `int32_t`. -/
def toInt32 (x : ℚ) : Except Halt ℤ :=
  if -2147483649 < x ∧ x < 2147483648 then .ok (truncInt x) else .error .undefined

/-- The tree that `serialize` builds. -/
def Container.tree (s : Container) : Except Halt Tree := do
  let refGain ← toInt32 s.refGain
  .ok {
    metadata := some ⟨some (cStr s.name), some (cStr s.serial), s.timestamp, versionMajor,
      versionMinor⟩
    tempFreqMap := some (s.data.entries.map fbTemp)
    refGain }

/-- A turn of the inner loop of `deserialize`, up to the table that is added.  The frequency goes to
`add_power_table` as a `double` and comes back from it. -/
def readTable (temperature : ℤ) (freq : FbFreqPowerMap) : Except Halt Placed := do
  let powers ← field freq.powers
  let power := SortedMap.empty.insertAll powers
  let table ← makeTable power freq.minPower freq.maxPower
  .ok (temperature, freq.freq, table)

/-- What the turns of the inner loop read, for one temperature. -/
def readTemp (temp : FbTempFreqMap) : List (Except Halt Placed) :=
  match temp.freqs with
  | none => [.error .undefined]
  | some freqs => freqs.map (readTable temp.temperature)

/-- A turn of the outer loop of `deserialize`. -/
def loadTemp (temp : FbTempFreqMap) : EStateM Halt Container PUnit := do
  let freqs ← orThrow (field temp.freqs)
  forM freqs fun freq => addEntry Container.add (readTable temp.temperature freq)

/-- Overwrite the metadata, and the reference gain if there is one. -/
def putMetadata (refGain : ℤ) (name serial : Text) (timestamp : ℕ) (s : Container) : Container :=
  { s with name, serial, timestamp, refGain := if 0 ≤ refGain then refGain else s.refGain }

/-- What `deserialize` reads of a buffer that was verified. -/
def Tree.header (calTable : Tree) : Except Halt (Header Placed) :=
  readHeader versionMajor (.runtimeError "pwr_cal: Compat number mismatch!") calTable.metadata
    (calTable.tempFreqMap.map fun tempFreqMap => tempFreqMap.flatMap readTemp)

section Buffer

variable {Buffer : Type} (fb : Flatbuffers Buffer Tree)

/-- `serialize` -/
def Container.serialize (s : Container) : Except Halt Buffer := do
  let tree ← s.tree
  .ok (fb.build tree)

/-- `deserialize` -/
def deserialize (data : Buffer) : EStateM Halt Container PUnit :=
  match fb.parse data with
  | none => throw (.threw (.runtimeError "pwr_cal: Invalid data provided!"))
  | some calTable =>
    loadTable (putMetadata calTable.refGain) Container.add calTable.header

end Buffer

/-! ## The loops of `deserialize` -/

section Loops

variable {temperature : ℤ} {freq : ℕ}

theorem toUInt64_natCast (hfreq : freq < 18446744073709551616) : toUInt64 freq = .ok freq := by
  have hlow : (-1 : ℚ) < freq := by
    have hnonneg : (0 : ℚ) ≤ freq := Nat.cast_nonneg freq
    linarith
  have hhigh : (freq : ℚ) < 18446744073709551616 := by exact_mod_cast hfreq
  rw [toUInt64, if_pos ⟨hlow, hhigh⟩, truncInt, if_pos (Nat.cast_nonneg freq), Int.floor_natCast,
    Int.toNat_natCast]

theorem addPowerTable_natCast (hfreq : freq < 18446744073709551616) (power : SortedMap ℚ ℚ)
    (minPower maxPower : ℚ) (s : Container) :
    addPowerTable power minPower maxPower freq (some temperature) s =
      addEntry Container.add (do
        let table ← makeTable power minPower maxPower
        .ok (temperature, freq, table)) s := by
  rw [addPowerTable, toUInt64_natCast hfreq]
  cases makeTable power minPower maxPower with
  | ok table => rfl
  | error halt => rfl

end Loops

/-! ## Atomicity -/

section Atomic

variable {Buffer : Type} (fb : Flatbuffers Buffer Tree)

/-- **The condition** for `deserialize` to be atomic: what the buffer has, if it is verified, is
loaded or leaves what there was. -/
def Container.Meets (s : Container) : Option Tree → Prop
  | none => True
  | some tree => LoadsInto (putMetadata tree.refGain) Container.add tree.header s s

theorem atomic_deserialize_iff (s : Container) (data : Buffer) :
    Atomic (deserialize fb data) s ↔ s.Meets (fb.parse data) := by
  rw [deserialize]
  cases fb.parse data with
  | none => exact iff_of_true (Or.inr ⟨_, rfl⟩) trivial
  | some tree => exact throwsInto_loadTable_iff _ _ _ _ _

end Atomic

/-! ## Round trips -/

section RoundTrip

variable {Buffer : Type} (fb : Flatbuffers Buffer Tree)

theorem tablesAt_set (data : SortedMap ℤ FreqTableMap) (temp : ℤ) (tables : FreqTableMap) :
    tablesAt (data.set temp tables) temp = tables.1 := by
  rw [tablesAt, SortedMap.get?_set, if_pos rfl]
  rfl

theorem setAll_ne_empty {tables : SortedMap ℕ PwrCalTable} {entries : List (ℕ × PwrCalTable)}
    (h : entries ≠ []) : tables.setAll entries ≠ .empty := by
  induction entries generalizing tables with
  | nil => exact absurd rfl h
  | cons entry entries ih =>
    cases entries with
    | nil => exact SortedMap.set_ne_empty _ _ _
    | cons next rest => exact ih (List.cons_ne_nil _ _)

theorem foldl_place {temp : ℤ} {entries : List (ℕ × PwrCalTable)} (h : entries ≠ [])
    (data : SortedMap ℤ FreqTableMap) :
    (entries.map fun entry => (temp, entry)).foldl place data =
      data.set temp ⟨(tablesAt data temp).setAll entries, setAll_ne_empty h⟩ := by
  induction entries generalizing data with
  | nil => exact absurd rfl h
  | cons entry entries ih =>
    cases entries with
    | nil => rfl
    | cons next rest =>
      rw [List.map_cons, List.foldl_cons, ih (List.cons_ne_nil _ _), place, SortedMap.set_set]
      congr 2
      rw [tablesAt_set]
      rfl

theorem foldl_place_entries (data : SortedMap ℤ FreqTableMap) :
    (data.entries.flatMap fun temp => temp.2.1.entries.map fun entry => (temp.1, entry)).foldl place
      .empty = data := by
  rw [List.foldl_flatMap]
  refine SortedMap.foldl_entries (fun data temp hnone => ?_) data
  have hne : temp.2.1.entries ≠ [] := fun h => temp.2.2 (SortedMap.ext h)
  rw [foldl_place hne]
  congr 1
  refine Subtype.ext ?_
  dsimp only
  rw [tablesAt, hnone]
  exact SortedMap.setAll_entries _

theorem readTable_fbFreq (temperature : ℤ) (entry : ℕ × PwrCalTable) :
    readTable temperature (fbFreq entry) = .ok (temperature, entry) := by
  have hpower : SortedMap.empty.insertAll entry.2.g2p.entries = entry.2.g2p :=
    SortedMap.insertAll_entries _
  change (makeTable (SortedMap.empty.insertAll entry.2.g2p.entries) _ _ >>= _) = _
  rw [hpower, makeTable, fbFreq, dif_pos entry.2.min_le_max]
  rfl

theorem foldl_add (s : Container) (placed : List Placed) :
    placed.foldl Container.add s = { s with data := placed.foldl place s.data } := by
  induction placed generalizing s with
  | nil => rfl
  | cons one placed ih => exact ih (s.add one)

/-- The two containers have the same metadata, reference gain and tables. -/
def Container.Same (s t : Container) : Prop :=
  s.name = t.name ∧ s.serial = t.serial ∧ s.timestamp = t.timestamp ∧ s.refGain = t.refGain ∧
    s.data = t.data

/-- The reference gain that is read back into `e`. -/
def readRefGain (refGain : ℤ) (e : Container) : ℚ := if 0 ≤ refGain then refGain else e.refGain

theorem deserialize_of_tree {s e : Container} {tree : Tree} (h : s.tree = .ok tree) :
    ∃ refGain, toInt32 s.refGain = .ok refGain ∧
      deserialize fb (fb.build tree) e.clear = .ok PUnit.unit { e with
        name := cStr s.name, serial := cStr s.serial, timestamp := s.timestamp
        refGain := readRefGain refGain e, data := s.data } := by
  obtain ⟨refGain, hrefGain, htree⟩ := bind_eq_ok.mp h
  obtain rfl := Except.ok.inj htree
  refine ⟨refGain, hrefGain, ?_⟩
  have hitems : (s.data.entries.map fbTemp).flatMap readTemp =
      (s.data.entries.flatMap fun temp => temp.2.1.entries.map fun entry => (temp.1, entry)).map
        (.ok : Placed → Except Halt Placed) := by
    rw [List.flatMap_map, List.map_flatMap]
    refine congrArg (List.flatMap · _) (funext fun temp => ?_)
    change (temp.2.1.entries.map fbFreq).map (readTable temp.1) = _
    rw [List.map_map, List.map_map]
    exact List.map_congr_left fun entry _ => readTable_fbFreq temp.1 entry
  rw [deserialize, fb.parse_build]
  dsimp only
  rw [Tree.header, Option.map_some, readHeader_of_fields, hitems, cStr_cStr, cStr_cStr,
    loadTable_of_none (rejected_map_ok _), Header.leaves, accepted_map_ok, foldl_add]
  exact congrArg (fun data => EStateM.Result.ok PUnit.unit { e with
    name := cStr s.name, serial := cStr s.serial, timestamp := s.timestamp
    refGain := readRefGain refGain e, data }) (foldl_place_entries s.data)

/-- A reference gain survives if it is a natural number that fits, or if it is negative, and the
container it would be read into has it. -/
def RefGainSurvives (refGain : ℚ) (e : Container) : Prop :=
  (0 ≤ refGain ∧ refGain < 2147483648 ∧ (⌊refGain⌋ : ℚ) = refGain) ∨
  (-2147483649 < refGain ∧ refGain ≤ -1 ∧ e.refGain = refGain)

theorem refGainSurvives_iff (x : ℚ) (e : Container) :
    (∃ refGain, toInt32 x = .ok refGain ∧ readRefGain refGain e = x) ↔ RefGainSurvives x e := by
  constructor
  · rintro ⟨refGain, hrefGain, hread⟩
    rw [toInt32] at hrefGain
    split_ifs at hrefGain with hfits
    obtain rfl := Except.ok.inj hrefGain
    rw [readRefGain, truncInt] at hread
    by_cases hx : 0 ≤ x
    · rw [if_pos hx, if_pos (Int.floor_nonneg.mpr hx)] at hread
      exact Or.inl ⟨hx, hfits.2, hread⟩
    · rw [if_neg hx] at hread
      split_ifs at hread with hceil
      · -- A negative number that is cut to zero.
        have hzero : ⌈x⌉ ≤ 0 := Int.ceil_le.mpr (by push_cast; linarith)
        rw [le_antisymm hzero hceil, Int.cast_zero] at hread
        exact absurd hread.le hx
      · refine Or.inr ⟨hfits.1, ?_, hread⟩
        have hceil' : ⌈x⌉ ≤ -1 := by omega
        have hle := Int.ceil_le.mp hceil'
        push_cast at hle
        exact hle
  · rintro (⟨hx, hfits, hfloor⟩ | ⟨hfits, hx, he⟩)
    · refine ⟨⌊x⌋, ?_, ?_⟩
      · rw [toInt32, if_pos ⟨by linarith, hfits⟩, truncInt, if_pos hx]
      · rw [readRefGain, if_pos (Int.floor_nonneg.mpr hx), hfloor]
    · have hneg : ¬ 0 ≤ x := by linarith
      have hceil : ⌈x⌉ ≤ -1 := Int.ceil_le.mpr (by push_cast; exact hx)
      refine ⟨⌈x⌉, ?_, ?_⟩
      · rw [toInt32, if_pos ⟨hfits, by linarith⟩, truncInt, if_neg hneg]
      · rw [readRefGain, if_neg (by omega), he]

theorem container_roundTrip_iff (s e : Container) :
    (∃ buffer t, s.serialize fb = .ok buffer ∧
      deserialize fb buffer e.clear = .ok PUnit.unit t ∧ t.Same s) ↔
      NoZero s.name ∧ NoZero s.serial ∧ RefGainSurvives s.refGain e := by
  rw [← refGainSurvives_iff]
  constructor
  · rintro ⟨buffer, t, hbuffer, ht, hsame⟩
    obtain ⟨tree, htree, hbuild⟩ := bind_eq_ok.mp hbuffer
    obtain rfl := Except.ok.inj hbuild
    obtain ⟨refGain, hrefGain, hload⟩ := deserialize_of_tree fb (e := e) htree
    rw [hload] at ht
    injection ht with _ ht
    subst ht
    obtain ⟨hname, hserial, -, hgain, -⟩ := hsame
    exact ⟨hname, hserial, refGain, hrefGain, hgain⟩
  · rintro ⟨hname, hserial, refGain, hrefGain, hgain⟩
    obtain ⟨tree, htree⟩ : ∃ tree, s.tree = .ok tree := by
      rw [Container.tree, hrefGain]
      exact ⟨_, rfl⟩
    obtain ⟨refGain', hrefGain', hload⟩ := deserialize_of_tree fb (e := e) htree
    rw [hrefGain, Except.ok.injEq] at hrefGain'
    subst hrefGain'
    refine ⟨fb.build tree, _, ?_, hload, hname, hserial, rfl, hgain, rfl⟩
    rw [Container.serialize, htree]
    rfl

end RoundTrip

end PwrCal
end Cal
end UhdHost
