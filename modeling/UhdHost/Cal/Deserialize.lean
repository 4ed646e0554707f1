import Mathlib
import UhdHost.Cal.DsaCal
import UhdHost.Cal.IqDcCal
import UhdHost.Cal.PwrCal

/-!
# Deserialization

The three containers overwrite their metadata and add entry after entry while they read; an entry
that is rejected leaves what was done so far.  The attenuator calibration clears its container before
it looks at the buffer.

* `deserialize_iff`: exactly when each container loads what it is given or leaves what there was, and
  exactly when what was serialized is read back.
-/

namespace UhdHost
namespace Cal

/-- **Deserialization of the three containers**: each is loaded, or left as it was, exactly under its
condition; and what was serialized is read back exactly if the strings, the names of the bands and
the reference gain survive. -/
theorem deserialize_iff {Buffer : Type} {numGainStages numDsa : ℕ}
    (pwr : Flatbuffers Buffer PwrCal.Tree) (dsa : Flatbuffers Buffer DsaCal.Tree)
    (iqDc : Flatbuffers Buffer IqDcCal.Tree) :
    ((∀ (s : PwrCal.Container) data,
        Atomic (PwrCal.deserialize pwr data) s ↔ s.Meets (pwr.parse data)) ∧
      (∀ (s : DsaCal.Container numGainStages numDsa) data,
        Atomic (DsaCal.deserialize dsa data) s ↔ s.Meets (dsa.parse data)) ∧
      ∀ (s : IqDcCal.Container) data,
        Atomic (IqDcCal.deserialize iqDc data) s ↔ s.Meets (iqDc.parse data)) ∧
    (∀ s e : PwrCal.Container,
      (∃ buffer t, s.serialize pwr = .ok buffer ∧
        PwrCal.deserialize pwr buffer e.clear = .ok PUnit.unit t ∧ t.Same s) ↔
      NoZero s.name ∧ NoZero s.serial ∧ PwrCal.RefGainSurvives s.refGain e) ∧
    (∀ s e : DsaCal.Container numGainStages numDsa,
      DsaCal.deserialize dsa (s.serialize dsa) e.clear = .ok PUnit.unit s ↔
      NoZero s.name ∧ NoZero s.serial ∧ ∀ band ∈ s.data.entries, NoZero band.2.1) ∧
    ∀ s e : IqDcCal.Container,
      (∃ t, IqDcCal.deserialize iqDc (s.serialize iqDc) e.clear = .ok PUnit.unit t ∧ t.Same s) ↔
      NoZero s.name ∧ NoZero s.serial :=
  ⟨⟨PwrCal.atomic_deserialize_iff pwr, DsaCal.atomic_deserialize_iff dsa,
      IqDcCal.atomic_deserialize_iff iqDc⟩,
    PwrCal.container_roundTrip_iff pwr, DsaCal.container_roundTrip_iff dsa,
    IqDcCal.container_roundTrip_iff iqDc⟩

/-- A container with a band, of the receiver. -/
def oneBand : DsaCal.Container 61 4 :=
  { data := SortedMap.empty.set 4000000000
      ("band".toList, ⟨List.replicate 61 ⟨List.replicate 4 0, List.length_replicate⟩,
        List.length_replicate⟩) }

/-- **Not atomic**: a buffer of an old version is refused, and the band is gone. -/
theorem not_atomic_oldVersion : ¬ ∀ (s : DsaCal.Container 61 4) (data : DsaCal.Tree),
    Atomic (DsaCal.deserialize (.ofTrees DsaCal.Tree) data) s := by
  intro hall
  have hmeets := (DsaCal.atomic_deserialize_iff (.ofTrees DsaCal.Tree) oneBand
    ⟨some ⟨some [], some [], 0, 1, 0⟩, some []⟩).mp (hall _ _)
  rcases hmeets with ⟨-, hsame⟩ | ⟨header, hheader, -⟩
  · exact SortedMap.set_ne_empty _ _ _ (congrArg DsaCal.Container.data hsame).symm
  · exact nomatch hheader

end Cal
end UhdHost
