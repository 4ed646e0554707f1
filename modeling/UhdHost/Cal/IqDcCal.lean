import Mathlib
import UhdHost.Cal.Container
import UhdHost.Library.Exceptions
import UhdHost.Library.Transition

/-!
# The I/Q and DC calibration

`iq_dc_cal_impl` of `iq_dc_cal.cpp`: for each frequency a scaling factor, two vectors of
coefficients, a delay and an offset, and between frequencies what is interpolated.

The two vectors of an entry are walked in parallel, and so are the vectors of two neighbours; the
length is that of the first vector, and nothing that stores an entry compares it with the other's.

* `exists_transform_iff`: two vectors are walked within bounds if the second is not the shorter.
* `getCalCoeff_of_alike`: with vectors of one length, the stored entry where there is one, and values
  between those of the neighbours elsewhere.
* `sound_iff_everyStep`: every container of a run is as claimed exactly when every call stores
  vectors of the one length that the others have.
-/

namespace UhdHost
namespace Cal
namespace IqDcCal

open Exceptions Stateful

/-- A complex number, by its parts. -/
abbrev Cplx := ℚ × ℚ

/-- `iq_dc_cal_entry` -/
structure Entry where
  scalingFactor : ℚ
  icrossCoeffs : List ℚ
  qinlineCoeffs : List ℚ
  groupDelay : ℚ
  dcOffset : Cplx
  deriving DecidableEq

/-- `iq_dc_cal_coeffs_t` -/
structure Coeffs where
  scalingFactor : ℚ
  coeffs : List Cplx
  groupDelay : ℚ
  dcOffset : Cplx
  deriving DecidableEq

/-- `iq_dc_cal_impl` -/
structure Container where
  name : Text := []
  serial : Text := []
  timestamp : ℕ := 0
  coeffs : SortedMap ℚ Entry := .empty
  interp : InterpMode := .linear
  deriving DecidableEq

/-! ## Reading -/

/-- `std::transform` of two vectors, under the length of the first. -/
def transform {α β γ : Type} (f : α → β → Except Halt γ) : List α → List β → Except Halt (List γ)
  | [], _ => .ok []
  | _ :: _, [] => .error .undefined
  | a :: as, b :: bs => do
    let c ← f a b
    let cs ← transform f as bs
    .ok (c :: cs)

/-- `_interpolate_cplx` -/
def interpolateCplx (freq lowFreq hiFreq : ℚ) (lowOffset hiOffset : Cplx) : Except Halt Cplx := do
  let re ← linearInterp freq lowFreq lowOffset.1 hiFreq hiOffset.1
  let im ← linearInterp freq lowFreq lowOffset.2 hiFreq hiOffset.2
  .ok (re, im)

/-- `_get_interpolated_entry`, between two neighbours. -/
def interpolate (interp : InterpMode) (freq lowFreq hiFreq : ℚ) (lowCoeff hiCoeff : Entry) :
    Except Halt Entry :=
  match interp with
  | .nearestNeighbor => do
    let retval := if hiFreq - freq < freq - lowFreq then hiCoeff else lowCoeff
    let dcOffset ← interpolateCplx freq lowFreq hiFreq lowCoeff.dcOffset hiCoeff.dcOffset
    .ok { retval with dcOffset }
  | .linear => do
    let interpolateCoeffs := transform fun i j => linearInterp freq lowFreq i hiFreq j
    let scalingFactor ←
      linearInterp freq lowFreq lowCoeff.scalingFactor hiFreq hiCoeff.scalingFactor
    let icrossCoeffs ← interpolateCoeffs lowCoeff.icrossCoeffs hiCoeff.icrossCoeffs
    let qinlineCoeffs ← interpolateCoeffs lowCoeff.qinlineCoeffs hiCoeff.qinlineCoeffs
    let groupDelay ← linearInterp freq lowFreq lowCoeff.groupDelay hiFreq hiCoeff.groupDelay
    let dcOffset ← interpolateCplx freq lowFreq hiFreq lowCoeff.dcOffset hiCoeff.dcOffset
    .ok { scalingFactor, icrossCoeffs, qinlineCoeffs, groupDelay, dcOffset }

/-- `_get_interpolated_entry` -/
def Container.getInterpolatedEntry (s : Container) (freq : ℚ) : Except Halt Entry :=
  match s.coeffs.next? freq, s.coeffs.entries.getLast?, s.coeffs.prev? freq with
  | none, none, _ => .error (.threw (.assertionError "!_coeffs.empty()"))
  | none, some last, _ => .ok last.2
  | some next, _, none => .ok next.2
  | some next, _, some prev => interpolate s.interp freq prev.1 next.1 prev.2 next.2

/-- `get_cal_coeff` -/
def Container.getCalCoeff (s : Container) (freq : ℚ) : Except Halt Coeffs := do
  let coeffs ← s.getInterpolatedEntry freq
  let cplxCoeffs ← transform (fun i q => .ok (i, q)) coeffs.icrossCoeffs coeffs.qinlineCoeffs
  .ok ⟨coeffs.scalingFactor, cplxCoeffs, coeffs.groupDelay, coeffs.dcOffset⟩

/-! ## Storing -/

/-- Store an entry. -/
def Container.add (s : Container) (entry : ℚ × Entry) : Container :=
  { s with coeffs := s.coeffs.set entry.1 entry.2 }

/-- `clear` -/
def Container.clear (s : Container) : Container := { s with coeffs := .empty }

/-- `set_cal_coeff` -/
def Container.setCalCoeff (s : Container) (freq scalingFactor : ℚ) (icross qinline : List ℚ)
    (delay dcOffsetReal dcOffsetImag : ℚ) : Container :=
  s.add (freq, ⟨scalingFactor, icross, qinline, delay, (dcOffsetReal, dcOffsetImag)⟩)

/-- The table `IQDCCalCoeff`. -/
structure FbCoeff where
  freq : ℚ
  scalingFactor : ℚ
  coeffReal : Option (List ℚ)
  coeffImag : Option (List ℚ)
  delay : ℚ
  dcOffsetReal : ℚ
  dcOffsetImag : ℚ
  deriving DecidableEq

/-- The table `IQDCCalCoeffs`. -/
structure Tree where
  metadata : Option Metadata
  coeffs : Option (List FbCoeff)
  deriving DecidableEq

/-- `VERSION_MAJOR` -/
def versionMajor : ℤ := 1

/-- `VERSION_MINOR` -/
def versionMinor : ℤ := 0

/-- One turn of the loop of `serialize`. -/
def fbCoeff (coeff : ℚ × Entry) : FbCoeff where
  freq := coeff.1
  scalingFactor := coeff.2.scalingFactor
  coeffReal := some coeff.2.icrossCoeffs
  coeffImag := some coeff.2.qinlineCoeffs
  delay := coeff.2.groupDelay
  dcOffsetReal := coeff.2.dcOffset.1
  dcOffsetImag := coeff.2.dcOffset.2

/-- The tree that `serialize` builds. -/
def Container.tree (s : Container) : Tree where
  metadata := some ⟨some (cStr s.name), some (cStr s.serial), s.timestamp, versionMajor,
    versionMinor⟩
  coeffs := some (s.coeffs.entries.map fbCoeff)

/-- What one turn of the loop of `deserialize` stores. -/
def readCoeff (coeff : FbCoeff) : Except Halt (ℚ × Entry) := do
  let coeffReal ← field coeff.coeffReal
  let coeffImag ← field coeff.coeffImag
  .ok (coeff.freq, ⟨coeff.scalingFactor, coeffReal, coeffImag, coeff.delay,
    (coeff.dcOffsetReal, coeff.dcOffsetImag)⟩)

/-- Overwrite the metadata. -/
def putMetadata (name serial : Text) (timestamp : ℕ) (s : Container) : Container :=
  { s with name, serial, timestamp }

/-- What `deserialize` reads of a buffer that was verified. -/
def Tree.header (calTable : Tree) : Except Halt (Header (ℚ × Entry)) :=
  readHeader versionMajor
    (.assertionError "cal_table->metadata()->version_major() == VERSION_MAJOR")
    calTable.metadata (calTable.coeffs.map fun coeffs => coeffs.map readCoeff)

section Buffer

variable {Buffer : Type} (fb : Flatbuffers Buffer Tree)

/-- `serialize` -/
def Container.serialize (s : Container) : Buffer := fb.build s.tree

/-- `deserialize` -/
def deserialize (data : Buffer) : EStateM Halt Container PUnit :=
  match fb.parse data with
  | none => throw (.threw (.runtimeError "iq_dc_cal: Invalid data provided!"))
  | some calTable => loadTable putMetadata Container.add calTable.header

end Buffer

/-! ## What is claimed -/

/-- The coefficients are those of the entry. -/
def Coeffs.Is (coeffs : Coeffs) (entry : Entry) : Prop :=
  coeffs.scalingFactor = entry.scalingFactor ∧
  coeffs.coeffs.map Prod.fst = entry.icrossCoeffs ∧
  coeffs.coeffs.map Prod.snd = entry.qinlineCoeffs ∧
  coeffs.groupDelay = entry.groupDelay ∧ coeffs.dcOffset = entry.dcOffset

/-- The components of a vector are between those of two others. -/
def AllBetween (low high values : List ℚ) : Prop :=
  ∀ (k : ℕ) (value : ℚ), values[k]? = some value →
    ∃ y0 y1, low[k]? = some y0 ∧ high[k]? = some y1 ∧ Between y0 y1 value

/-- The coefficients are between those of two entries, component by component. -/
def Coeffs.BetweenEntries (low high : Entry) (coeffs : Coeffs) : Prop :=
  Between low.scalingFactor high.scalingFactor coeffs.scalingFactor ∧
  AllBetween low.icrossCoeffs high.icrossCoeffs (coeffs.coeffs.map Prod.fst) ∧
  AllBetween low.qinlineCoeffs high.qinlineCoeffs (coeffs.coeffs.map Prod.snd) ∧
  Between low.groupDelay high.groupDelay coeffs.groupDelay ∧
  Between low.dcOffset.1 high.dcOffset.1 coeffs.dcOffset.1 ∧
  Between low.dcOffset.2 high.dcOffset.2 coeffs.dcOffset.2

/-- **What is claimed** of a container, in both modes and at every frequency: nothing is read that
is not there, an entry that is stored is returned, and between two neighbours values between theirs
are. -/
structure Container.Sound (s : Container) : Prop where
  reads : ∀ interp freq, { s with interp }.getCalCoeff freq ≠ .error .undefined
  stored : ∀ interp freq entry, s.coeffs.get? freq = some entry →
    ∃ coeffs, { s with interp }.getCalCoeff freq = .ok coeffs ∧ coeffs.Is entry
  between : ∀ interp freq low high, low ∈ s.coeffs.entries → high ∈ s.coeffs.entries →
    low.1 < freq → freq < high.1 →
    (∀ other ∈ s.coeffs.entries, other.1 ≤ low.1 ∨ high.1 ≤ other.1) →
    ∃ coeffs, { s with interp }.getCalCoeff freq = .ok coeffs ∧
      coeffs.BetweenEntries low.2 high.2

/-- The vectors of an entry have this length. -/
def Entry.HasLength (entry : Entry) (n : ℕ) : Prop :=
  entry.icrossCoeffs.length = n ∧ entry.qinlineCoeffs.length = n

/-- All vectors have one length. -/
def Container.Alike (s : Container) : Prop := ∃ n, ∀ entry ∈ s.coeffs.entries, entry.2.HasLength n

/-! ## Vectors in parallel -/

section Transform

variable {α β γ : Type} {f : α → β → Except Halt γ} {as : List α} {bs : List β}

theorem length_of_transform {cs : List γ} (h : transform f as bs = .ok cs) :
    cs.length = as.length := by
  induction as generalizing bs cs with
  | nil =>
    obtain rfl := Except.ok.inj h
    rfl
  | cons a as ih =>
    cases bs with
    | nil => exact nomatch h
    | cons b bs =>
      rw [transform] at h
      cases hf : f a b with
      | error e =>
        rw [hf] at h
        exact nomatch h
      | ok c =>
        cases hrest : transform f as bs with
        | error e =>
          rw [hf, hrest] at h
          exact nomatch h
        | ok cs' =>
          rw [hf, hrest] at h
          obtain rfl := Except.ok.inj h
          rw [List.length_cons, List.length_cons, ih hrest]

theorem exists_transform {P : α → β → γ → Prop} (hf : ∀ a b, ∃ c, f a b = .ok c ∧ P a b c)
    (hlen : as.length = bs.length) : ∃ cs, transform f as bs = .ok cs ∧
      ∀ (k : ℕ) (c : γ), cs[k]? = some c →
        ∃ a b, as[k]? = some a ∧ bs[k]? = some b ∧ P a b c := by
  induction as generalizing bs with
  | nil =>
    refine ⟨[], rfl, fun k c hc => ?_⟩
    rw [List.getElem?_nil] at hc
    exact nomatch hc
  | cons a as ih =>
    cases bs with
    | nil => exact nomatch hlen
    | cons b bs =>
      obtain ⟨c, hc, hP⟩ := hf a b
      obtain ⟨cs, hcs, hall⟩ := ih (Nat.succ.inj hlen)
      refine ⟨c :: cs, ?_, fun k d hd => ?_⟩
      · rw [transform, hc, hcs]
        rfl
      · cases k with
        | zero =>
          obtain rfl := Option.some.inj hd
          exact ⟨a, b, rfl, rfl, hP⟩
        | succ k => exact hall k d hd

theorem transform_pair {icross qinline : List ℚ} (hlen : icross.length = qinline.length) :
    transform (fun i q => .ok (i, q)) icross qinline = .ok (icross.zip qinline) := by
  induction icross generalizing qinline with
  | nil => rfl
  | cons i icross ih =>
    cases qinline with
    | nil => exact nomatch hlen
    | cons q qinline =>
      rw [transform, ih (Nat.succ.inj hlen)]
      rfl

end Transform

/-! ## Between two neighbours -/

section Interpolate

variable {interp : InterpMode} {freq lowFreq hiFreq : ℚ} {low high : Entry} {n : ℕ}

theorem allBetween_left {low high : List ℚ} (h : low.length = high.length) :
    AllBetween low high low := by
  intro k value hvalue
  obtain ⟨hk, -⟩ := List.getElem?_eq_some_iff.mp hvalue
  exact ⟨value, _, hvalue, List.getElem?_eq_getElem (h ▸ hk), between_left _ _⟩

theorem allBetween_right {low high : List ℚ} (h : low.length = high.length) :
    AllBetween low high high := by
  intro k value hvalue
  obtain ⟨hk, -⟩ := List.getElem?_eq_some_iff.mp hvalue
  exact ⟨_, value, List.getElem?_eq_getElem (h ▸ hk), hvalue, between_right _ _⟩

theorem eq_of_forall_getElem? {values high : List ℚ} (hlen : values.length = high.length)
    (h : ∀ (k : ℕ) (value : ℚ), values[k]? = some value → high[k]? = some value) :
    values = high := by
  refine List.ext_getElem hlen fun k hk hk' => ?_
  have hvalue := h k _ (List.getElem?_eq_getElem hk)
  rw [List.getElem?_eq_getElem hk', Option.some_inj] at hvalue
  exact hvalue.symm

/-- The two vectors of an entry, and its other values, are between those of two others. -/
def Entry.BetweenEntries (low high entry : Entry) : Prop :=
  Between low.scalingFactor high.scalingFactor entry.scalingFactor ∧
  AllBetween low.icrossCoeffs high.icrossCoeffs entry.icrossCoeffs ∧
  AllBetween low.qinlineCoeffs high.qinlineCoeffs entry.qinlineCoeffs ∧
  Between low.groupDelay high.groupDelay entry.groupDelay ∧
  Between low.dcOffset.1 high.dcOffset.1 entry.dcOffset.1 ∧
  Between low.dcOffset.2 high.dcOffset.2 entry.dcOffset.2

theorem interpolateCplx_spec (hlow : lowFreq < freq) (hhigh : freq ≤ hiFreq) (y0 y1 : Cplx) :
    ∃ y, interpolateCplx freq lowFreq hiFreq y0 y1 = .ok y ∧ Between y0.1 y1.1 y.1 ∧
      Between y0.2 y1.2 y.2 ∧ (freq = hiFreq → y = y1) := by
  have hne := hlow.trans_le hhigh
  obtain ⟨re, hre, hbetween, hend⟩ := linearInterp_spec y0.1 y1.1 hlow.le hhigh hne
  obtain ⟨im, him, hbetween', hend'⟩ :=
    linearInterp_spec y0.2 y1.2 hlow.le hhigh hne
  refine ⟨(re, im), ?_, hbetween, hbetween', fun h => Prod.ext (hend h) (hend' h)⟩
  rw [interpolateCplx, hre, him]
  rfl

theorem transform_linearInterp (hlow : lowFreq < freq) (hhigh : freq ≤ hiFreq) {v1 v2 : List ℚ}
    (hlen : v1.length = v2.length) :
    ∃ v, transform (fun i j => linearInterp freq lowFreq i hiFreq j) v1 v2 = .ok v ∧
      AllBetween v1 v2 v ∧ (freq = hiFreq → v = v2) := by
  obtain ⟨v, hv, hall⟩ := exists_transform (fun i j =>
    linearInterp_spec i j hlow.le hhigh (hlow.trans_le hhigh)) hlen
  refine ⟨v, hv, fun k value hvalue => ?_, fun hfreq => ?_⟩
  · obtain ⟨a, b, ha, hb, hbetween, -⟩ := hall k value hvalue
    exact ⟨a, b, ha, hb, hbetween⟩
  · refine eq_of_forall_getElem? ((length_of_transform hv).trans hlen) fun k value hvalue => ?_
    obtain ⟨a, b, -, hb, -, hend⟩ := hall k value hvalue
    rw [hend hfreq]
    exact hb

theorem interpolate_spec (interp : InterpMode) (hlow : lowFreq < freq) (hhigh : freq ≤ hiFreq)
    (hlowLen : low.HasLength n) (hhighLen : high.HasLength n) :
    ∃ entry, interpolate interp freq lowFreq hiFreq low high = .ok entry ∧ entry.HasLength n ∧
      low.BetweenEntries high entry ∧ (freq = hiFreq → entry = high) := by
  have hicross : low.icrossCoeffs.length = high.icrossCoeffs.length :=
    hlowLen.1.trans hhighLen.1.symm
  have hqinline : low.qinlineCoeffs.length = high.qinlineCoeffs.length :=
    hlowLen.2.trans hhighLen.2.symm
  obtain ⟨dc, hdc, hre, him, hdcEnd⟩ :=
    interpolateCplx_spec hlow hhigh low.dcOffset high.dcOffset
  cases interp with
  | nearestNeighbor =>
    by_cases hnear : hiFreq - freq < freq - lowFreq
    · refine ⟨{ high with dcOffset := dc }, ?_, hhighLen, ⟨between_right _ _,
        allBetween_right hicross, allBetween_right hqinline, between_right _ _, hre, him⟩, ?_⟩
      · rw [interpolate, hdc]
        simp only [if_pos hnear]
        rfl
      · intro hfreq
        rw [hdcEnd hfreq]
    · refine ⟨{ low with dcOffset := dc }, ?_, hlowLen, ⟨between_left _ _,
        allBetween_left hicross, allBetween_left hqinline, between_left _ _, hre, him⟩, ?_⟩
      · rw [interpolate, hdc]
        simp only [if_neg hnear]
        rfl
      · -- At its own frequency the second neighbour is the nearest.
        rintro rfl
        exact absurd (by linarith) hnear
  | linear =>
    have hne := hlow.trans_le hhigh
    obtain ⟨scaling, hscaling, hscalingBetween, hscalingEnd⟩ := linearInterp_spec
      low.scalingFactor high.scalingFactor hlow.le hhigh hne
    obtain ⟨icross, hi, hiBetween, hiEnd⟩ := transform_linearInterp hlow hhigh hicross
    obtain ⟨qinline, hq, hqBetween, hqEnd⟩ := transform_linearInterp hlow hhigh hqinline
    obtain ⟨delay, hdelay, hdelayBetween, hdelayEnd⟩ := linearInterp_spec
      low.groupDelay high.groupDelay hlow.le hhigh hne
    refine ⟨⟨scaling, icross, qinline, delay, dc⟩, ?_,
      ⟨(length_of_transform hi).trans hlowLen.1, (length_of_transform hq).trans hlowLen.2⟩,
      ⟨hscalingBetween, hiBetween, hqBetween, hdelayBetween, hre, him⟩, ?_⟩
    · simp only [interpolate, hscaling, hi, hq, hdelay, hdc]
      rfl
    · intro hfreq
      rw [hscalingEnd hfreq, hiEnd hfreq, hqEnd hfreq, hdelayEnd hfreq, hdcEnd hfreq]

end Interpolate

/-! ## What a container returns -/

section Read

variable {s : Container} {freq : ℚ} {entry : Entry} {n : ℕ}

theorem getCalCoeff_of_entry (h : s.getInterpolatedEntry freq = .ok entry)
    (hlen : entry.HasLength n) : ∃ coeffs, s.getCalCoeff freq = .ok coeffs ∧ coeffs.Is entry := by
  have hpair := hlen.1.trans hlen.2.symm
  refine ⟨⟨entry.scalingFactor, entry.icrossCoeffs.zip entry.qinlineCoeffs, entry.groupDelay,
    entry.dcOffset⟩, ?_, rfl, ?_, ?_, rfl, rfl⟩
  · rw [Container.getCalCoeff, h]
    change (transform _ _ _ >>= _) = _
    rw [transform_pair hpair]
    rfl
  · exact List.map_fst_zip hpair.le
  · exact List.map_snd_zip hpair.ge

theorem betweenEntries_of_is {low high : Entry} {coeffs : Coeffs} (his : coeffs.Is entry)
    (h : low.BetweenEntries high entry) : coeffs.BetweenEntries low high := by
  obtain ⟨hscaling, hicross, hqinline, hdelay, hdc⟩ := his
  rw [Coeffs.BetweenEntries, hscaling, hicross, hqinline, hdelay, hdc]
  exact h

theorem getInterpolatedEntry_of_neighbours {low high : ℚ × Entry}
    (hprev : s.coeffs.prev? freq = some low) (hnext : s.coeffs.next? freq = some high) :
    s.getInterpolatedEntry freq = interpolate s.interp freq low.1 high.1 low.2 high.2 := by
  rw [Container.getInterpolatedEntry, hprev, hnext]

theorem getInterpolatedEntry_spec (hall : ∀ entry ∈ s.coeffs.entries, entry.2.HasLength n)
    (hne : s.coeffs.entries ≠ []) : ∃ entry, s.getInterpolatedEntry freq = .ok entry ∧
      entry.HasLength n := by
  obtain ⟨last, hlast⟩ := Option.isSome_iff_exists.mp (List.getLast?_isSome.mpr hne)
  rw [Container.getInterpolatedEntry, hlast]
  cases hnext : s.coeffs.next? freq with
  | none => exact ⟨last.2, rfl, hall _ (List.mem_of_mem_getLast? hlast)⟩
  | some next =>
    obtain ⟨hnextMem, hle, -⟩ := SortedMap.next?_spec hnext
    cases hprev : s.coeffs.prev? freq with
    | none => exact ⟨next.2, rfl, hall _ hnextMem⟩
    | some prev =>
      obtain ⟨hprevMem, hlt, -⟩ := SortedMap.prev?_spec hprev
      obtain ⟨entry, hentry, hlen, -, -⟩ :=
        interpolate_spec s.interp hlt hle (hall _ hprevMem) (hall _ hnextMem)
      exact ⟨entry, hentry, hlen⟩

theorem getInterpolatedEntry_of_get? (hall : ∀ entry ∈ s.coeffs.entries, entry.2.HasLength n)
    (h : s.coeffs.get? freq = some entry) : s.getInterpolatedEntry freq = .ok entry := by
  have hnext := SortedMap.next?_of_get? h
  have hmem := SortedMap.get?_eq_some.mp h
  cases hprev : s.coeffs.prev? freq with
  | none => rw [Container.getInterpolatedEntry, hnext, hprev]
  | some prev =>
    obtain ⟨hprevMem, hlt, -⟩ := SortedMap.prev?_spec hprev
    obtain ⟨entry', hentry, -, -, hend⟩ :=
      interpolate_spec s.interp hlt le_rfl (hall _ hprevMem) (hall _ hmem)
    rw [getInterpolatedEntry_of_neighbours hprev hnext, hentry, hend rfl]

theorem sound_of_alike (h : s.Alike) : s.Sound := by
  obtain ⟨n, hall⟩ := h
  refine ⟨fun interp freq => ?_, fun interp freq entry hentry => ?_, ?_⟩
  · by_cases hne : s.coeffs.entries = []
    · have hempty : { s with interp }.getInterpolatedEntry freq =
          .error (.threw (.assertionError "!_coeffs.empty()")) := by
        have hnext : s.coeffs.next? freq = none := by
          rw [SortedMap.next?, SortedMap.fromKey, hne]
          rfl
        rw [Container.getInterpolatedEntry, hnext, hne]
        rfl
      rw [Container.getCalCoeff, hempty]
      intro hundefined
      injection hundefined with hhalt
      exact Halt.noConfusion hhalt
    · obtain ⟨entry, hentry, hlen⟩ : ∃ entry,
          { s with interp }.getInterpolatedEntry freq = .ok entry ∧ entry.HasLength n :=
        getInterpolatedEntry_spec (s := { s with interp }) hall hne
      obtain ⟨coeffs, hcoeffs, -⟩ := getCalCoeff_of_entry hentry hlen
      rw [hcoeffs]
      exact ok_ne_error
  · exact getCalCoeff_of_entry (getInterpolatedEntry_of_get? (s := { s with interp }) hall hentry)
      (hall _ (SortedMap.get?_eq_some.mp hentry))
  · intro interp freq low high hlow hhigh hlt hgt hbetween
    have hprev : s.coeffs.prev? freq = some low :=
      SortedMap.prev?_of_mem hlow hlt fun other hother hother' =>
        (hbetween other hother).elim id fun hge => absurd (hgt.trans_le hge) hother'.not_gt
    have hnext : s.coeffs.next? freq = some high :=
      SortedMap.next?_of_mem hhigh hgt.le fun other hother hother' =>
        (hbetween other hother).elim (fun hle => absurd (hlt.trans_le hother') hle.not_gt) id
    obtain ⟨entry, hentry, hlen, hentryBetween, -⟩ :=
      interpolate_spec interp hlt hgt.le (hall low hlow) (hall high hhigh)
    have hget : { s with interp }.getInterpolatedEntry freq = .ok entry :=
      (getInterpolatedEntry_of_neighbours (s := { s with interp }) hprev hnext).trans hentry
    obtain ⟨coeffs, hcoeffs, his⟩ := getCalCoeff_of_entry hget hlen
    exact ⟨coeffs, hcoeffs, betweenEntries_of_is his hentryBetween⟩

/-! ## What must be stored -/

theorem hasLength_of_is {coeffs : Coeffs} (h : coeffs.Is entry) :
    entry.HasLength coeffs.coeffs.length := by
  obtain ⟨-, hicross, hqinline, -, -⟩ := h
  rw [Entry.HasLength, ← hicross, ← hqinline, List.length_map, List.length_map]
  exact ⟨rfl, rfl⟩

theorem length_of_getCalCoeff {coeffs : Coeffs} (h : s.getCalCoeff freq = .ok coeffs)
    (hentry : s.getInterpolatedEntry freq = .ok entry) :
    coeffs.coeffs.length = entry.icrossCoeffs.length := by
  rw [Container.getCalCoeff, hentry, ok_bind] at h
  obtain ⟨cs, hcs, h⟩ := bind_eq_ok.mp h
  obtain rfl := Except.ok.inj h
  exact length_of_transform hcs

theorem length_of_interpolate {lowFreq hiFreq : ℚ} {low high : Entry}
    (h : interpolate .linear freq lowFreq hiFreq low high = .ok entry) :
    entry.icrossCoeffs.length = low.icrossCoeffs.length := by
  obtain ⟨_, -, h⟩ := bind_eq_ok.mp h
  obtain ⟨icross, hicross, h⟩ := bind_eq_ok.mp h
  obtain ⟨_, -, h⟩ := bind_eq_ok.mp h
  obtain ⟨_, -, h⟩ := bind_eq_ok.mp h
  obtain ⟨_, -, h⟩ := bind_eq_ok.mp h
  obtain rfl := Except.ok.inj h
  exact length_of_transform hicross

theorem alike_of_sound (h : s.Sound) : s.Alike := by
  have hown : ∀ entry ∈ s.coeffs.entries,
      entry.2.HasLength entry.2.icrossCoeffs.length := by
    intro entry hentry
    obtain ⟨coeffs, -, his⟩ := h.stored s.interp entry.1 entry.2 (SortedMap.get?_eq_some.mpr hentry)
    have hlen := hasLength_of_is his
    rw [← hlen.1] at hlen
    exact hlen
  have hchain : s.coeffs.entries.IsChain fun a b =>
      a.2.icrossCoeffs.length = b.2.icrossCoeffs.length := by
    rw [List.isChain_iff_forall_rel_of_append_cons_cons]
    intro low high before after hsplit
    obtain ⟨hprev, hnext⟩ := SortedMap.neighbours_of_append hsplit
    obtain ⟨coeffs, hcoeffs, his⟩ := h.stored .linear high.1 high.2
      (SortedMap.get?_eq_some.mpr (SortedMap.next?_spec hnext).1)
    have hget := getInterpolatedEntry_of_neighbours (s := { s with interp := .linear }) hprev hnext
    obtain ⟨entry, hentry, -⟩ := bind_eq_ok.mp hcoeffs
    rw [hentry] at hget
    rw [← length_of_interpolate hget.symm, ← length_of_getCalCoeff hcoeffs hentry,
      (hasLength_of_is his).1]
  cases hentries : s.coeffs.entries with
  | nil =>
    refine ⟨0, fun entry hentry => ?_⟩
    rw [hentries] at hentry
    exact absurd hentry List.not_mem_nil
  | cons head rest =>
    have hlens := (List.isChain_map (R := Eq) fun e : ℚ × Entry => e.2.icrossCoeffs.length).mpr hchain
    rw [hentries, List.map_cons] at hlens
    refine ⟨head.2.icrossCoeffs.length, fun entry hentry => ?_⟩
    have hsame : head.2.icrossCoeffs.length = entry.2.icrossCoeffs.length := by
      rw [hentries] at hentry
      rcases List.mem_cons.mp hentry with rfl | hrest
      · rfl
      · exact hlens.rel_cons (List.mem_map_of_mem hrest)
    rw [hsame]
    exact hown entry hentry

theorem sound_iff_alike : s.Sound ↔ s.Alike := ⟨alike_of_sound, sound_of_alike⟩

end Read

/-! ## Serialization -/

section Serialization

variable {Buffer : Type} (fb : Flatbuffers Buffer Tree)

/-- **The condition** for `deserialize` to be atomic: what the buffer has, if it is verified, is
loaded or leaves what there was. -/
def Container.Meets (s : Container) : Option Tree → Prop
  | none => True
  | some tree => LoadsInto putMetadata Container.add tree.header s s

theorem atomic_deserialize_iff (s : Container) (data : Buffer) :
    Atomic (deserialize fb data) s ↔ s.Meets (fb.parse data) := by
  rw [deserialize]
  cases fb.parse data with
  | none => exact iff_of_true (Or.inr ⟨_, rfl⟩) trivial
  | some tree => exact throwsInto_loadTable_iff _ _ _ _ _

theorem foldl_add (s : Container) (entries : List (ℚ × Entry)) :
    entries.foldl Container.add s = { s with coeffs := s.coeffs.setAll entries } := by
  induction entries generalizing s with
  | nil => rfl
  | cons entry entries ih => exact ih (s.add entry)

/-- The two containers have the same metadata and entries. -/
def Container.Same (s t : Container) : Prop :=
  s.name = t.name ∧ s.serial = t.serial ∧ s.timestamp = t.timestamp ∧ s.coeffs = t.coeffs

theorem deserialize_serialize (s e : Container) :
    deserialize fb (s.serialize fb) e.clear = .ok PUnit.unit { e with
      name := cStr s.name, serial := cStr s.serial, timestamp := s.timestamp, coeffs := s.coeffs } := by
  have hitems : (s.coeffs.entries.map fbCoeff).map readCoeff =
      s.coeffs.entries.map (.ok : ℚ × Entry → Except Halt (ℚ × Entry)) := by
    rw [List.map_map]
    exact List.map_congr_left fun entry _ => rfl
  rw [deserialize, Container.serialize, fb.parse_build]
  dsimp only
  rw [Tree.header, Container.tree, Option.map_some, readHeader_of_fields, hitems, cStr_cStr,
    cStr_cStr, loadTable_of_none (rejected_map_ok _), Header.leaves, accepted_map_ok, foldl_add]
  exact congrArg (fun coeffs => EStateM.Result.ok PUnit.unit { e with
    name := cStr s.name, serial := cStr s.serial, timestamp := s.timestamp, coeffs })
    (SortedMap.setAll_entries s.coeffs)

theorem container_roundTrip_iff (s e : Container) :
    (∃ t, deserialize fb (s.serialize fb) e.clear = .ok PUnit.unit t ∧ t.Same s) ↔
      NoZero s.name ∧ NoZero s.serial := by
  rw [deserialize_serialize]
  constructor
  · rintro ⟨t, ht, hname, hserial, -⟩
    injection ht with _ ht
    subst ht
    exact ⟨hname, hserial⟩
  · rintro ⟨hname, hserial⟩
    exact ⟨_, rfl, hname, hserial, rfl, rfl⟩

end Serialization

/-! ## Runs -/

section Runs

variable {Buffer : Type} (fb : Flatbuffers Buffer Tree)

/-- A call that stores entries. -/
inductive Call (Buffer : Type) where
  | setCalCoeff (freq scalingFactor : ℚ) (icross qinline : List ℚ)
      (delay dcOffsetReal dcOffsetImag : ℚ)
  | deserialize (data : Buffer)

/-- A call, which leaves a container whether it throws or not, unless what it does is not
defined. -/
def step (s : Container) : Call Buffer → Option Container
  | .setCalCoeff freq scalingFactor icross qinline delay dcOffsetReal dcOffsetImag =>
    some (s.setCalCoeff freq scalingFactor icross qinline delay dcOffsetReal dcOffsetImag)
  | .deserialize data =>
    match deserialize fb data s with
    | .ok _ t => some t
    | .error (.threw _) t => some t
    | .error .undefined _ => none

/-- The entries that a tree stores: none, if it is refused. -/
def Tree.entries (tree : Tree) : List (ℚ × Entry) :=
  match tree.header with
  | .ok header => accepted header.items
  | .error _ => []

/-- The entries that a call stores. -/
def Call.entries : Call Buffer → List (ℚ × Entry)
  | .setCalCoeff freq scalingFactor icross qinline delay dcOffsetReal dcOffsetImag =>
    [(freq, ⟨scalingFactor, icross, qinline, delay, (dcOffsetReal, dcOffsetImag)⟩)]
  | .deserialize data => ((fb.parse data).map Tree.entries).getD []

/-- **The condition** on a call: the vectors that it stores, and does not itself replace, and those
that are stored and stay, have one length. -/
def Meets (s : Container) (call : Call Buffer) : Prop :=
  ∃ n, (∀ entry, SortedMap.IsLast (call.entries fb) entry → entry.2.HasLength n) ∧
    ∀ entry ∈ s.coeffs.entries, (∀ later ∈ call.entries fb, later.1 ≠ entry.1) →
      entry.2.HasLength n

theorem coeffs_of_step {s t : Container} {call : Call Buffer} (h : step fb s call = some t) :
    t.coeffs = s.coeffs.setAll (call.entries fb) := by
  cases call with
  | setCalCoeff freq scalingFactor icross qinline delay dcOffsetReal dcOffsetImag =>
    obtain rfl := Option.some.inj h
    rfl
  | deserialize data =>
    rw [step, deserialize] at h
    rw [Call.entries]
    cases hparse : fb.parse data with
    | none =>
      rw [hparse] at h
      obtain rfl := Option.some.inj h
      rfl
    | some tree =>
      rw [hparse] at h
      dsimp only at h
      rw [Option.map_some, Option.getD_some, Tree.entries]
      cases hheader : tree.header with
      | error halt =>
        rw [hheader, loadTable_of_error] at h
        cases halt with
        | threw e =>
          obtain rfl := Option.some.inj h
          rfl
        | undefined => exact nomatch h
      | ok header =>
        have hleaves : (header.leaves putMetadata Container.add s).coeffs =
            s.coeffs.setAll (accepted header.items) := by
          rw [Header.leaves, foldl_add]
          rfl
        rw [hheader] at h
        cases hrejected : rejected header.items with
        | none =>
          rw [loadTable_of_none hrejected] at h
          obtain rfl := Option.some.inj h
          exact hleaves
        | some halt =>
          rw [loadTable_of_some hrejected] at h
          cases halt with
          | threw e =>
            obtain rfl := Option.some.inj h
            exact hleaves
          | undefined => exact nomatch h

theorem sound_of_step_iff {s t : Container} {call : Call Buffer} (h : step fb s call = some t) :
    t.Sound ↔ Meets fb s call := by
  rw [sound_iff_alike, Container.Alike, Meets]
  refine exists_congr fun n => ?_
  have hmem : ∀ entry, entry ∈ t.coeffs.entries ↔ SortedMap.IsLast (call.entries fb) entry ∨
      entry ∈ s.coeffs.entries ∧ ∀ later ∈ call.entries fb, later.1 ≠ entry.1 := by
    intro entry
    rw [coeffs_of_step fb h, SortedMap.mem_setAll]
  constructor
  · intro hall
    exact ⟨fun entry hlast => hall entry ((hmem entry).mpr (Or.inl hlast)),
      fun entry hentry hlater => hall entry ((hmem entry).mpr (Or.inr ⟨hentry, hlater⟩))⟩
  · rintro ⟨hstored, hkept⟩ entry hentry
    rcases (hmem entry).mp hentry with hlast | ⟨hentry, hlater⟩
    · exact hstored entry hlast
    · exact hkept entry hentry hlater

/-- A container that was made. -/
def make (name serial : Text) (timestamp : ℕ) : Container := { name, serial, timestamp }

theorem sound_make (name serial : Text) (timestamp : ℕ) : (make name serial timestamp).Sound :=
  sound_of_alike ⟨0, fun _ hentry => absurd hentry List.not_mem_nil⟩

/-- **A container returns what is claimed**, after every call of a run, exactly if every call meets
the condition. -/
theorem sound_iff_everyStep (name serial : Text) (timestamp : ℕ) (calls : List (Call Buffer))
    (s : Container) (hrun : Transition.run (step fb) (make name serial timestamp) calls = some s) :
    (∀ before t, before <+: calls →
        Transition.run (step fb) (make name serial timestamp) before = some t → t.Sound) ↔
      Transition.EveryStep (step fb) (Meets fb) (make name serial timestamp) calls :=
  Transition.forall_prefix_iff_everyStep (I := Container.Sound) (fun _ => id)
    (fun _ _ _ _ hstep hmeets => (sound_of_step_iff fb hstep).mpr hmeets)
    (fun _ _ _ _ hstep hnot hsound => hnot ((sound_of_step_iff fb hstep).mp hsound))
    (sound_make name serial timestamp) hrun

end Runs

/-- Store an entry with these two vectors at a frequency. -/
def setVectors (freq : ℚ) (icross qinline : List ℚ) : Call Tree :=
  .setCalCoeff freq 1 icross qinline 0 0 0

/-- A container with two entries whose vectors have two components. -/
theorem sound_twoTaps : ¬ ∃ before t,
    before <+: [setVectors 1000000000 [1, 2] [3, 4], setVectors 2000000000 [5, 6] [7, 8]] ∧
    Transition.run (step (.ofTrees Tree)) (make [] [] 0) before = some t ∧ ¬ t.Sound := by
  rintro ⟨before, t, hprefix, hrun, hnot⟩
  refine hnot ((sound_iff_everyStep (.ofTrees Tree) [] [] 0 [setVectors 1000000000 [1, 2] [3, 4],
    setVectors 2000000000 [5, 6] [7, 8]] _ rfl).mpr ⟨⟨2, ?_, ?_⟩, ?_⟩ before t hprefix hrun)
  · rintro entry ⟨before, after, hsplit, -⟩
    have hmem : entry ∈ before ++ entry :: after := by simp
    rw [← hsplit] at hmem
    rw [List.mem_singleton.mp hmem]
    exact ⟨rfl, rfl⟩
  · exact fun entry hentry => absurd hentry List.not_mem_nil
  · rintro t ht
    obtain rfl := Option.some.inj ht
    refine ⟨⟨2, ?_, ?_⟩, fun _ _ => trivial⟩
    · rintro entry ⟨before, after, hsplit, -⟩
      have hmem : entry ∈ before ++ entry :: after := by simp
      rw [← hsplit] at hmem
      rw [List.mem_singleton.mp hmem]
      exact ⟨rfl, rfl⟩
    · intro entry hentry _
      rw [List.mem_singleton.mp hentry]
      exact ⟨rfl, rfl⟩

/-- **Beyond the end**: with two components at one frequency and one at the next, what is between
reads the second component of the latter. -/
theorem not_sound_shorterNeighbour : ¬ ∀ (calls : List (Call Tree)) before t, before <+: calls →
    Transition.run (step (.ofTrees Tree)) (make [] [] 0) before = some t → t.Sound := by
  intro hall
  have hsound := hall [setVectors 1000000000 [1, 2] [3, 4], setVectors 2000000000 [5] [7]] _ _
    List.prefix_rfl rfl
  exact hsound.reads .linear 1500000000 (by decide +kernel)

end IqDcCal
end Cal
end UhdHost
