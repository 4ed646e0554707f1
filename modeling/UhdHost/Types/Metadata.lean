import UhdHost.Types.Exception
import UhdHost.Types.TimeSpec

/-!
# Metadata of streams

`tx_metadata_t` and `rx_metadata_t` of `uhd/types/metadata.hpp`, and what the transmit streamer
does to its copy of the former.

The array of end-of-vector positions that `rx_metadata_t` points to belongs to the caller, and
every function that is passed metadata is passed the positions too.  They are kept apart from
the metadata here (`EovData`).
-/

namespace UhdHost

/-- `tx_metadata_t`.  No positions stand for a null pointer too. -/
structure TxMetadata where
  hasTimeSpec : Bool := false
  timeSpec : TimeSpec := default
  startOfBurst : Bool := false
  endOfBurst : Bool := false
  eovPositions : List ℕ := []
  deriving DecidableEq

namespace TxMetadata

/-- `tx_metadata_cache::check` -/
def check (cache : Option TxMetadata) (metadata : TxMetadata) : TxMetadata :=
  match cache with
  | none => metadata
  | some cached =>
    let timed :=
      if metadata.hasTimeSpec then metadata
      else { metadata with hasTimeSpec := cached.hasTimeSpec, timeSpec := cached.timeSpec }
    { timed with startOfBurst := cached.startOfBurst, endOfBurst := cached.endOfBurst }

theorem eovPositions_check (cache : Option TxMetadata) (metadata : TxMetadata) :
    (metadata.check cache).eovPositions = metadata.eovPositions := by
  cases cache with
  | none => rfl
  | some cached =>
    rw [check]
    split_ifs <;> rfl

/-- The time of the metadata is set for what comes after so many samples. -/
def advance (metadata : TxMetadata) (nsamps : ℕ) (sampRate : ℚ) : TxMetadata :=
  if metadata.hasTimeSpec then
    { metadata with timeSpec := metadata.timeSpec + TimeSpec.fromTicks nsamps sampRate }
  else metadata

end TxMetadata

/-- `rx_metadata_t::error_code_t` -/
inductive RxErrorCode where
  | none
  | timeout
  | lateCommand
  | brokenChain
  | overflow
  | alignment
  | badPacket
  deriving DecidableEq, Repr

/-- `rx_metadata_t`.  The defaults are what `reset` sets. -/
structure RxMetadata where
  hasTimeSpec : Bool := false
  timeSpec : TimeSpec := TimeSpec.ofSecs 0
  moreFragments : Bool := false
  fragmentOffset : ℕ := 0
  startOfBurst : Bool := false
  endOfBurst : Bool := false
  errorCode : RxErrorCode := .none
  outOfSequence : Bool := false
  deriving DecidableEq

/-- `eov_data_wrapper`: the array for the positions, where the caller has one. -/
structure EovData where
  /-- Whether there is an array. -/
  data : Bool := false
  remaining : ℕ := 0
  positions : List ℕ := []
  runningSampleCount : ℕ := 0
  deriving DecidableEq, Repr

namespace EovData

/-- The positions of a call, with the size of the array where there is one. -/
def ofSize : Option ℕ → EovData
  | none => {}
  | some size => { data := true, remaining := size }

/-- `push_back`.  The source asserts that there is room. -/
def pushBack (e : EovData) (value : ℕ) : EovData :=
  { e with positions := e.positions ++ [value], remaining := e.remaining - 1 }

/-- `update_running_sample_count` -/
def updateRunningSampleCount (e : EovData) (numSamples : ℕ) : EovData :=
  { e with runningSampleCount := e.runningSampleCount + numSamples }

/-- The array is there and full. -/
def exhausted (e : EovData) : Bool := e.data && e.remaining == 0

end EovData
end UhdHost
