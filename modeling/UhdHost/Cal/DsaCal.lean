import Mathlib
import UhdHost.Cal.Container
import UhdHost.Library.Exceptions

/-!
# The attenuator calibration

`dsa_cal_impl` of `dsa_cal.cpp`: for each band, by its greatest frequency, the settings of the
attenuators for each gain.  The number of gains and that of attenuators are parameters.

* `load_of_accepted` and `load_of_rejected`: what `deserialize` leaves once it has cleared the
  container and read the metadata.
-/

namespace UhdHost
namespace Cal
namespace DsaCal

open Exceptions Stateful

/-- `std::array` -/
abbrev StdArray (α : Type) (n : ℕ) := { values : List α // values.length = n }

/-- `dsa_steps` -/
abbrev DsaSteps (numGainStages numDsa : ℕ) := StdArray (StdArray ℕ numDsa) numGainStages

/-- `dsa_cal_impl` -/
structure Container (numGainStages numDsa : ℕ) where
  name : Text := []
  serial : Text := []
  timestamp : ℕ := 0
  data : SortedMap ℕ (Text × DsaSteps numGainStages numDsa) := .empty
  deriving DecidableEq

/-- The table `DsaStep`. -/
structure FbDsaStep where
  steps : Option (List ℕ)
  deriving DecidableEq

/-- The table `BandDsaMap`. -/
structure FbBandDsaMap where
  maxFreq : ℕ
  gains : Option (List FbDsaStep)
  name : Option Text
  deriving DecidableEq

/-- The table `DsaCal`. -/
structure Tree where
  metadata : Option Metadata
  bandDsaMap : Option (List FbBandDsaMap)
  deriving DecidableEq

/-- `VERSION_MAJOR` -/
def versionMajor : ℤ := 2

/-- `VERSION_MINOR` -/
def versionMinor : ℤ := 0

variable {numGainStages numDsa : ℕ}

/-- An entry of the map. -/
abbrev Band (numGainStages numDsa : ℕ) := ℕ × Text × DsaSteps numGainStages numDsa

/-- `clear` -/
def Container.clear (s : Container numGainStages numDsa) : Container numGainStages numDsa :=
  { s with data := .empty }

/-- `add_frequency_band` -/
def Container.addFrequencyBand (s : Container numGainStages numDsa)
    (band : Band numGainStages numDsa) : Container numGainStages numDsa :=
  { s with data := s.data.set band.1 band.2 }

/-! ## Serialization -/

/-- One turn of the loop of `serialize`. -/
def fbBand (band : Band numGainStages numDsa) : FbBandDsaMap where
  maxFreq := band.1
  gains := some (band.2.2.1.map fun values => ⟨some values.1⟩)
  name := some (cStr band.2.1)

/-- The tree that `serialize` builds. -/
def Container.tree (s : Container numGainStages numDsa) : Tree where
  metadata := some ⟨some (cStr s.name), some (cStr s.serial), s.timestamp, versionMajor,
    versionMinor⟩
  bandDsaMap := some (s.data.entries.map fbBand)

/-- The settings for one gain. -/
def readSteps (gain : FbDsaStep) : Except Halt (StdArray ℕ numDsa) := do
  let steps ← field gain.steps
  if h : steps.length = numDsa then .ok ⟨steps, h⟩
  else .error (.threw (.runtimeError "Invalid number of attenuator indizes"))

/-- The settings for the gains, one after the other. -/
def readGains : (gains : List FbDsaStep) → Except Halt (StdArray (StdArray ℕ numDsa) gains.length)
  | [] => .ok ⟨[], rfl⟩
  | gain :: gains => do
    let steps ← readSteps gain
    let rest ← readGains gains
    .ok ⟨steps :: rest.1, congrArg Nat.succ rest.2⟩

/-- What one turn of the loop of `deserialize` adds. -/
def readBand (band : FbBandDsaMap) : Except Halt (Band numGainStages numDsa) := do
  let name ← field band.name
  let gains ← field band.gains
  if h : gains.length = numGainStages then do
    let indizes ← readGains gains
    .ok (band.maxFreq, cStr name, ⟨indizes.1, indizes.2.trans h⟩)
  else .error (.threw (.runtimeError "Invalid number of gain indizes"))

/-- Overwrite the metadata. -/
def putMetadata (name serial : Text) (timestamp : ℕ) (s : Container numGainStages numDsa) :
    Container numGainStages numDsa :=
  { s with name, serial, timestamp }

/-- What `deserialize` reads of a buffer that was verified. -/
def Tree.header (calTable : Tree) : Except Halt (Header (Band numGainStages numDsa)) :=
  readHeader versionMajor (.runtimeError "dsa_cal: Compat number mismatch!") calTable.metadata
    (calTable.bandDsaMap.map fun bandDsaMap => bandDsaMap.map readBand)

section Buffer

variable {Buffer : Type} (fb : Flatbuffers Buffer Tree)

/-- `serialize` -/
def Container.serialize (s : Container numGainStages numDsa) : Buffer := fb.build s.tree

/-- What `deserialize` does with the container that was cleared. -/
def loadData (data : Buffer) : EStateM Halt (Container numGainStages numDsa) PUnit :=
  match fb.parse data with
  | none => throw (.threw (.runtimeError "dsa_cal: Invalid data provided! "))
  | some calTable => loadTable putMetadata Container.addFrequencyBand calTable.header

/-- `deserialize` -/
def deserialize (data : Buffer) : EStateM Halt (Container numGainStages numDsa) PUnit := do
  modify Container.clear
  loadData fb data

end Buffer

/-! ## Atomicity -/

section Atomic

variable {Buffer : Type} (fb : Flatbuffers Buffer Tree)

/-- **The condition** for `deserialize` to be atomic: the container that was cleared is loaded, or it
is left as it was before it was cleared. -/
def Container.Meets (s : Container numGainStages numDsa) : Option Tree → Prop
  | none => s.clear = s
  | some tree => LoadsInto putMetadata Container.addFrequencyBand tree.header s.clear s

theorem atomic_deserialize_iff (s : Container numGainStages numDsa) (data : Buffer) :
    Atomic (deserialize fb data) s ↔ s.Meets (fb.parse data) := by
  have hclear : Atomic (deserialize fb data) s ↔ ThrowsInto (loadData fb data) s.clear s := Iff.rfl
  rw [hclear]
  cases hparse : fb.parse data with
  | none =>
    have hthrow : loadData fb data s.clear =
        .error (.threw (.runtimeError "dsa_cal: Invalid data provided! ")) s.clear := by
      rw [loadData, hparse]
      rfl
    rw [throwsInto_of_error_iff hthrow]
    exact and_iff_right Halt.noConfusion
  | some tree =>
    have hload : (loadData fb data : EStateM Halt (Container numGainStages numDsa) PUnit) =
        loadTable putMetadata Container.addFrequencyBand tree.header := by
      rw [loadData, hparse]
    rw [hload]
    exact throwsInto_loadTable_iff _ _ _ _ _

/-! ## Round trips -/

theorem foldl_addFrequencyBand (s : Container numGainStages numDsa)
    (bands : List (Band numGainStages numDsa)) :
    bands.foldl Container.addFrequencyBand s = { s with data := s.data.setAll bands } := by
  induction bands generalizing s with
  | nil => rfl
  | cons band bands ih => exact ih (s.addFrequencyBand band)

theorem readSteps_mk (values : StdArray ℕ numDsa) :
    readSteps ⟨some values.1⟩ = .ok values := by
  rw [readSteps]
  change (if h : _ then _ else _) = _
  exact dif_pos values.2

theorem readGains_map (values : List (StdArray ℕ numDsa)) :
    ∃ h, readGains (values.map fun v => ⟨some v.1⟩) = .ok ⟨values, h⟩ := by
  induction values with
  | nil => exact ⟨rfl, rfl⟩
  | cons v values ih =>
    obtain ⟨h, hread⟩ := ih
    refine ⟨congrArg Nat.succ h, ?_⟩
    change (readSteps _ >>= _) = _
    rw [readSteps_mk, ok_bind, hread]
    rfl

/-- A band as it is read back: without what follows a zero in its name. -/
def readBack (named : Text × DsaSteps numGainStages numDsa) :
    Text × DsaSteps numGainStages numDsa := (cStr named.1, named.2)

theorem readBand_fbBand (band : Band numGainStages numDsa) :
    readBand (fbBand band) = .ok (band.1, readBack band.2) := by
  obtain ⟨maxFreq, name, values, hvalues⟩ := band
  obtain ⟨h, hread⟩ := readGains_map values
  have hlen : (values.map fun v : StdArray ℕ numDsa => (⟨some v.1⟩ : FbDsaStep)).length =
      numGainStages := by
    rw [List.length_map, hvalues]
  change (if h : _ then _ else _ : Except Halt (Band numGainStages numDsa)) = _
  rw [dif_pos hlen]
  rw [hread, ok_bind, cStr_cStr]
  rfl

theorem deserialize_serialize (s e : Container numGainStages numDsa) :
    deserialize fb (s.serialize fb) e = .ok PUnit.unit
      ⟨cStr s.name, cStr s.serial, s.timestamp, s.data.mapValues readBack⟩ := by
  have hitems : (s.data.entries.map fbBand).map readBand =
      (s.data.mapValues readBack).entries.map
        (.ok : Band numGainStages numDsa → Except Halt (Band numGainStages numDsa)) := by
    rw [List.map_map, SortedMap.mapValues, List.map_map]
    exact List.map_congr_left fun band _ => readBand_fbBand band
  have hheader : (s.tree.header : Except Halt (Header (Band numGainStages numDsa))) =
      .ok ⟨cStr s.name, cStr s.serial, s.timestamp,
        (s.data.mapValues readBack).entries.map .ok⟩ := by
    rw [Tree.header, Container.tree, Option.map_some, readHeader_of_fields, hitems, cStr_cStr,
      cStr_cStr]
  change loadData fb (s.serialize fb) e.clear = _
  rw [loadData, Container.serialize, fb.parse_build]
  dsimp only
  rw [hheader, loadTable_of_none (rejected_map_ok _), Header.leaves, accepted_map_ok,
    foldl_addFrequencyBand]
  rw [putMetadata, Container.clear, SortedMap.setAll_entries]

theorem container_roundTrip_iff (s e : Container numGainStages numDsa) :
    deserialize fb (s.serialize fb) e.clear = .ok PUnit.unit s ↔
      NoZero s.name ∧ NoZero s.serial ∧ ∀ band ∈ s.data.entries, NoZero band.2.1 := by
  rw [deserialize_serialize]
  have hbands : s.data.mapValues readBack = s.data ↔ ∀ band ∈ s.data.entries, NoZero band.2.1 := by
    rw [SortedMap.mapValues_eq_self_iff]
    refine forall_congr' fun band => forall_congr' fun _ => ?_
    rw [readBack, Prod.ext_iff, and_iff_left rfl]
    rfl
  rw [← hbands]
  obtain ⟨name, serial, timestamp, data⟩ := s
  constructor
  · intro h
    injection h with _ hs
    rw [Container.mk.injEq] at hs
    exact ⟨hs.1, hs.2.1, hs.2.2.2⟩
  · rintro ⟨hname, hserial, hdata⟩
    dsimp only at hname hserial hdata
    rw [hname, hserial, hdata]

end Atomic

end DsaCal
end Cal
end UhdHost
