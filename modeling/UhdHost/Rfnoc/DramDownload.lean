import Mathlib.Data.List.Infix
import Mathlib.Logic.Function.Basic
import UhdHost.Types.Metadata

/-!
# Downloading from the memory of a replay block

`dram::download` of `dram_helper.cpp` reads samples out of the memory of a replay block, chunk by
chunk.  A chunk that does not come as a whole is requested again, after the stream has been stopped
and flushed.

What the calls of the stream come to is arbitrary: a list of reads, each with an error code, with a
part of what is on its way, and with samples that get lost where it has an error code, or an
exception.  What is on its way is what the replay block was told to send and what was neither
read nor lost: reads give it in order, and loss does not go without an error code.  A stopped
stream that times out has nothing more to send.  A function that has not come to its end with the
reads given is `none`.

* `downloadChunk_of_whole` and `flush_of_some`: after a chunk, or its failure, nothing is on its way
  any more.
* `downloadLoop_spec`: what the loop takes as received is what was requested.
* `exists_loop_iff`: the loop ends exactly when it does not stall.
* `delivers_iff`: all samples are delivered exactly when no chunk fails twelve times in a row.
-/

namespace UhdHost
namespace Rfnoc
namespace Dram

variable {α : Type*}

/-- `MAX_CHUNK_DOWNLOAD_RETRIES` -/
def maxChunkDownloadRetries : ℕ := 10

/-- What a download is called with, and what it finds: the memory by the addresses of its bytes, and
how many samples a packet of the stream has at most. -/
structure Request (α : Type*) where
  mem : ℕ → α
  nsamps : ℕ
  offset : ℕ
  bytesPerSample : ℕ
  wordSize : ℕ
  maxNumSamps : ℕ

/-- `coerce_to_word_size` -/
def coerceToWordSize (wordSize numBytes : ℕ) : ℕ := numBytes - numBytes % wordSize

namespace Request

/-- `chunk_in_bytes` -/
def chunkInBytes (r : Request α) : ℕ :=
  coerceToWordSize r.wordSize (1000 * r.maxNumSamps * r.bytesPerSample % 2 ^ 64)

/-- `chunk_nsamps` -/
def chunkNsamps (r : Request α) (samplesReceived : ℕ) : ℕ :=
  min (r.chunkInBytes / r.bytesPerSample) (r.nsamps - samplesReceived)

/-- The samples of a chunk, where `config_play` has the play buffer start. -/
def chunkSamples (r : Request α) (offsetSamples numSamples : ℕ) : List α :=
  (List.range numSamples).map fun i =>
    r.mem (((r.offset + offsetSamples) * r.bytesPerSample % 2 ^ 64 + i * r.bytesPerSample)
      % 2 ^ 64)

/-- A sample that is requested: the bytes of the memory are numbered with 64 bits. -/
def sample (r : Request α) (j : ℕ) : α := r.mem ((r.offset + j) * r.bytesPerSample % 2 ^ 64)

end Request

/-! ## The stream -/

/-- What a call of `recv` comes to, or of what is called before it for a chunk: an error code, as
many samples as are there or fewer, and how many get lost where it is an error; or an exception. -/
inductive Read where
  | returns (code : RxErrorCode) (count lost : ℕ)
  | throws (e : UhdError)
  deriving DecidableEq

/-- What is on its way, whether the stream was stopped, and the buffer of the caller. -/
structure Stream (α : Type*) where
  pending : List α := []
  stopped : Bool := false
  buff : ℕ → α

namespace Stream

/-- `issue_stream_cmd` for a number of samples -/
def start (samples : List α) (s : Stream α) : Stream α :=
  { s with pending := s.pending ++ samples, stopped := false }

/-- `issue_stream_cmd` with `STREAM_MODE_STOP_CONTINUOUS` -/
def stop (s : Stream α) : Stream α := { s with stopped := true }

/-- What is on its way after a read. -/
def rest (s : Stream α) (code : RxErrorCode) (numSamples count lost : ℕ) : List α :=
  match code with
  | .none => s.pending.drop (min count numSamples)
  | .timeout => if s.stopped then [] else s.pending.drop (min count numSamples)
  | _ => (s.pending.drop (min count numSamples)).drop lost

/-- The samples that a read gives. -/
def given (s : Stream α) (numSamples count : ℕ) : List α := s.pending.take (min count numSamples)

/-- `recv` into the buffer, from a position on -/
def recv (s : Stream α) (position numSamples : ℕ) (code : RxErrorCode) (count lost : ℕ) :
    Stream α :=
  { s with
    pending := s.rest code numSamples count lost
    buff := fun j =>
      if position ≤ j then ((s.given numSamples count)[j - position]?).getD (s.buff j)
      else s.buff j }

end Stream

/-! ## A chunk -/

/-- The loop that flushes the stream, and the reads that are left. -/
def flush (offsetSamples numSamples : ℕ) :
    Stream α → List Read → Option (Except UhdError (Stream α × List Read))
  | _, [] => none
  | _, .throws e :: _ => some (.error e)
  | s, .returns code count lost :: reads =>
    if code = .timeout then
      some (.ok (s.recv offsetSamples numSamples code count lost, reads))
    else flush offsetSamples numSamples (s.recv offsetSamples numSamples code count lost) reads

/-- `download_chunk` -/
def downloadChunk (r : Request α) (offsetSamples numSamples : ℕ) (s : Stream α) :
    List Read → Option (Except UhdError (Bool × Stream α × List Read))
  | [] => none
  | .throws e :: _ => some (.error e)
  | .returns code count lost :: reads =>
    let started := s.start (r.chunkSamples offsetSamples numSamples)
    let received := started.recv offsetSamples numSamples code count lost
    if (started.given numSamples count).length = numSamples ∧ code = .none then
      some (.ok (true, received, reads))
    else
      (flush offsetSamples numSamples received.stop reads).map fun result =>
        result.map fun flushed => (false, flushed.1, flushed.2)

/-! ## The download -/

/-- The loop over the chunks: how many samples it takes as received, and the stream. -/
def downloadLoop (r : Request α) :
    ℕ → ℕ → ℕ → Stream α → List Read → Option (Except UhdError (ℕ × Stream α))
  | fuel, samplesReceived, chunkFailures, s, reads =>
    if samplesReceived < r.nsamps then
      match fuel with
      | 0 => none
      | fuel + 1 =>
        match downloadChunk r samplesReceived (r.chunkNsamps samplesReceived) s reads with
        | none => none
        | some (.error e) => some (.error e)
        | some (.ok (success, s, reads)) =>
          if !success then
            if chunkFailures > maxChunkDownloadRetries then some (.ok (samplesReceived, s))
            else downloadLoop r fuel samplesReceived (chunkFailures + 1) s reads
          else downloadLoop r fuel (samplesReceived + r.chunkNsamps samplesReceived) 0 s reads
    else some (.ok (samplesReceived, s))

/-- `download`.  Finding the replay block and making the stream may throw, and so may connecting the
blocks again in the end. -/
def download (r : Request α) (prepare finish : Except UhdError Unit) (buff : ℕ → α)
    (reads : List Read) : Option (Except UhdError (ℕ × Stream α)) :=
  match prepare with
  | .error e => some (.error e)
  | .ok () =>
    (downloadLoop r reads.length 0 0 { buff } reads).map fun result =>
      result.bind fun downloaded => finish.map fun _ => downloaded

/-! ## What is claimed -/

/-- The reads up to one of them. -/
def firstReads (reads : ℕ → Read) (n : ℕ) : List Read := (List.range n).map reads

/-- **What is claimed for a download**: it ends, and if it does not throw, all samples were received,
the buffer holds those that were requested, in order, and nothing behind them was written. -/
def Delivers (r : Request α) (prepare finish : Except UhdError Unit) (buff : ℕ → α)
    (reads : ℕ → Read) : Prop :=
  ∃ n result, download r prepare finish buff (firstReads reads n) = some result ∧
    ∀ samplesReceived s, result = .ok (samplesReceived, s) →
      samplesReceived = r.nsamps ∧ (∀ j, j < r.nsamps → s.buff j = r.sample j) ∧
        ∀ j, r.nsamps ≤ j → s.buff j = buff j

/-- A read that a loop which flushes the stream ends with. -/
def Read.EndsFlush : Read → Prop
  | .returns code _ _ => code = .timeout
  | .throws _ => True

/-- **The stream gets quiet**: there is always a read to come that times out, or throws. -/
def GetsQuiet (reads : ℕ → Read) : Prop := ∀ n, ∃ k, (reads (n + k)).EndsFlush

/-- A chunk has room for a sample. -/
def Request.HasChunks (r : Request α) : Prop := 0 < r.chunkInBytes / r.bytesPerSample

/-- The reads that are left when a stopped stream has been flushed. -/
def flushed : List Read → Option (List Read)
  | [] => none
  | .throws _ :: _ => none
  | .returns code _ _ :: reads => if code = .timeout then some reads else flushed reads

/-- How the chunks fare that are requested one after the other, each until it comes as a whole: a
chunk comes so if the first read after the request has no error code and gives all samples. -/
def attempts (r : Request α) : ℕ → ℕ → List Read → List Bool
  | 0, _, _ => []
  | fuel + 1, samplesReceived, reads =>
    if samplesReceived < r.nsamps then
      match reads with
      | [] => []
      | .throws _ :: _ => []
      | .returns code count _ :: reads =>
        if code = .none ∧ r.chunkNsamps samplesReceived ≤ count then
          true :: attempts r fuel (samplesReceived + r.chunkNsamps samplesReceived) reads
        else
          match flushed reads with
          | none => []
          | some reads => false :: attempts r fuel samplesReceived reads
    else []

/-- A chunk fails twelve times in a row. -/
def FailsTwelveTimes (r : Request α) (reads : ℕ → Read) : Prop :=
  ∃ n, List.replicate 12 false <:+: attempts r n 0 (firstReads reads n)

/-- **The download stalls**: a chunk has no room for a sample, and neither an exception nor failures
end the loop. -/
def Stalls (r : Request α) (reads : ℕ → Read) : Prop :=
  0 < r.nsamps ∧ ¬ r.HasChunks ∧ ¬ FailsTwelveTimes r reads ∧ ∀ n e, reads n ≠ .throws e

/-! ## Failures in a row -/

theorem replicate_infix_append_cons {m : ℕ} (hm : 0 < m) (before after : List Bool) :
    List.replicate m false <:+: before ++ true :: after ↔
      List.replicate m false <:+: before ∨ List.replicate m false <:+: after := by
  constructor
  · intro h
    induction before with
    | nil =>
      rw [List.nil_append, List.infix_cons_iff] at h
      refine Or.inr (h.resolve_left fun hprefix => ?_)
      obtain ⟨k, rfl⟩ := Nat.exists_eq_add_of_lt hm
      rw [Nat.zero_add, List.replicate_succ, List.cons_prefix_cons] at hprefix
      exact Bool.false_ne_true hprefix.1
    | cons b before ih =>
      rw [List.cons_append, List.infix_cons_iff] at h
      rcases h with hprefix | h
      · left
        obtain ⟨rest, hrest⟩ := hprefix
        rw [← List.cons_append] at hrest
        rcases List.append_eq_append_iff.mp hrest with ⟨tail, hbefore, -⟩ | ⟨tail, hrun, htail⟩
        · exact ⟨[], tail, hbefore.symm⟩
        · cases tail with
          | nil =>
            rw [List.append_nil] at hrun
            rw [hrun]
          | cons c tail =>
            have hc : true = c := (List.cons.inj htail).1
            have hmem : c ∈ List.replicate m false := by
              rw [hrun]
              exact List.mem_append_right _ List.mem_cons_self
            rw [← hc] at hmem
            exact absurd (List.eq_of_mem_replicate hmem).symm Bool.false_ne_true
      · exact (ih h).imp_left fun hbefore => hbefore.trans (List.infix_cons (List.infix_refl _))
  · rintro (h | h)
    · exact h.trans (List.infix_append' [] _ _)
    · exact h.trans ⟨before ++ [true], [], by rw [List.append_nil, List.append_assoc]; rfl⟩

/-! ## The reads of a chunk -/

section Chunk

variable {r : Request α} {s t : Stream α} {position n : ℕ}

theorem length_given_le (s : Stream α) (n count : ℕ) : (s.given n count).length ≤ n := by
  rw [Stream.given, List.length_take]
  exact (min_le_left _ _).trans (min_le_right _ _)

theorem buff_recv_of_outside (s : Stream α) (code : RxErrorCode) (count lost : ℕ) {j : ℕ}
    (hj : j < position ∨ position + n ≤ j) :
    (s.recv position n code count lost).buff j = s.buff j := by
  show (if position ≤ j then _ else _) = _
  rcases hj with hj | hj
  · rw [if_neg (not_le.mpr hj)]
  · have hlength := length_given_le s n count
    rw [if_pos (by omega), List.getElem?_eq_none (by omega), Option.getD_none]

theorem flush_of_none (position n : ℕ) :
    ∀ (reads : List Read) (s : Stream α), flushed reads = none →
      ∀ result, flush position n s reads ≠ some (.ok result) := by
  intro reads
  induction reads with
  | nil =>
    intro s _ result h
    cases h
  | cons read reads ih =>
    intro s hflushed
    cases read with
    | throws e =>
      intro result h
      cases Option.some.inj h
    | returns code count lost =>
      by_cases hcode : code = .timeout
      · rw [flushed, if_pos hcode] at hflushed
        cases hflushed
      · rw [flushed, if_neg hcode] at hflushed
        rw [flush, if_neg hcode]
        exact ih _ hflushed

theorem flush_of_some (position n : ℕ) {rest : List Read} :
    ∀ (reads : List Read) (s : Stream α), s.stopped = true → flushed reads = some rest →
      ∃ t, flush position n s reads = some (.ok (t, rest)) ∧ t.pending = [] ∧
        ∀ j, j < position ∨ position + n ≤ j → t.buff j = s.buff j := by
  intro reads
  induction reads with
  | nil =>
    intro s _ hflushed
    cases hflushed
  | cons read reads ih =>
    intro s hstopped hflushed
    cases read with
    | throws e => cases hflushed
    | returns code count lost =>
      by_cases hcode : code = .timeout
      · rw [flushed, if_pos hcode, Option.some_inj] at hflushed
        rw [flush, if_pos hcode, hflushed]
        refine ⟨s.recv position n code count lost, rfl, ?_,
          fun j hj => buff_recv_of_outside s code count lost hj⟩
        rw [hcode]
        show (if s.stopped then [] else _) = []
        rw [if_pos hstopped]
      · rw [flushed, if_neg hcode] at hflushed
        rw [flush, if_neg hcode]
        obtain ⟨t, hflush, hpending, hbuff⟩ :=
          ih (s.recv position n code count lost) hstopped hflushed
        refine ⟨t, hflush, hpending, fun j hj => ?_⟩
        rw [hbuff j hj, buff_recv_of_outside s code count lost hj]

theorem length_chunkSamples (r : Request α) (position n : ℕ) :
    (r.chunkSamples position n).length = n := by
  rw [Request.chunkSamples, List.length_map, List.length_range]

theorem given_start (hpending : s.pending = []) (n count : ℕ) :
    (s.start (r.chunkSamples position n)).given n count
      = (r.chunkSamples position n).take (min count n) := by
  show (s.pending ++ r.chunkSamples position n).take (min count n) = _
  rw [hpending, List.nil_append]

theorem length_given_start (hpending : s.pending = []) (n count : ℕ) :
    ((s.start (r.chunkSamples position n)).given n count).length = n ↔ n ≤ count := by
  rw [given_start hpending, List.length_take, length_chunkSamples]
  omega

theorem downloadChunk_of_whole (hpending : s.pending = []) {count lost : ℕ} (hcount : n ≤ count)
    (reads : List Read) :
    ∃ t, downloadChunk r position n s (.returns .none count lost :: reads)
        = some (.ok (true, t, reads)) ∧ t.pending = [] ∧
      (∀ j, j < position ∨ position + n ≤ j → t.buff j = s.buff j) ∧
      ∀ i, i < n → t.buff (position + i) = r.sample (position + i) := by
  have hwhole := (@length_given_start _ r _ position hpending n count).mpr hcount
  have hall : (s.start (r.chunkSamples position n)).given n count = r.chunkSamples position n := by
    rw [given_start hpending, min_eq_right hcount,
      List.take_of_length_le (length_chunkSamples r position n).le]
  refine ⟨(s.start (r.chunkSamples position n)).recv position n .none count lost, ?_, ?_,
    fun j hj => buff_recv_of_outside _ _ _ _ hj, fun i hi => ?_⟩
  · rw [downloadChunk]
    rw [if_pos ⟨hwhole, rfl⟩]
  · show (s.pending ++ r.chunkSamples position n).drop (min count n) = []
    rw [hpending, List.nil_append, min_eq_right hcount]
    exact List.drop_eq_nil_of_le (length_chunkSamples r position n).le
  · show (if position ≤ position + i then _ else _) = _
    have hget : (r.chunkSamples position n)[i]?
        = some (r.sample (position + i)) := by
      rw [Request.chunkSamples, List.getElem?_map, List.getElem?_range hi, Option.map_some,
        Nat.mod_add_mod, ← Nat.add_mul, Nat.add_assoc]
      rfl
    rw [if_pos (Nat.le_add_right _ _), hall, Nat.add_sub_cancel_left, hget, Option.getD_some]

theorem downloadChunk_of_failure (hpending : s.pending = []) {code : RxErrorCode} {count lost : ℕ}
    (hfail : ¬ (code = .none ∧ n ≤ count)) (reads : List Read) :
    downloadChunk r position n s (.returns code count lost :: reads)
      = (flush position n
          ((s.start (r.chunkSamples position n)).recv position n code count lost).stop reads).map
            fun result => result.map fun flushed => (false, flushed.1, flushed.2) := by
  rw [downloadChunk]
  rw [if_neg]
  rintro ⟨hwhole, hcode⟩
  exact hfail ⟨hcode, (length_given_start hpending n count).mp hwhole⟩

end Chunk

/-! ## The loop -/

section Loop

variable {r : Request α} {buff₀ : ℕ → α} {s : Stream α} {samplesReceived : ℕ}

/-- **The invariant of the loop.**  Nothing is on its way, the samples that were received are those
that were requested, and nothing behind the buffer was written. -/
structure Received (r : Request α) (buff₀ : ℕ → α) (samplesReceived : ℕ) (s : Stream α) :
    Prop where
  pending : s.pending = []
  got : ∀ j, j < samplesReceived → s.buff j = r.sample j
  kept : ∀ j, r.nsamps ≤ j → s.buff j = buff₀ j

theorem add_chunkNsamps_le (hle : samplesReceived ≤ r.nsamps) :
    samplesReceived + r.chunkNsamps samplesReceived ≤ r.nsamps := by
  have hchunk : r.chunkNsamps samplesReceived ≤ r.nsamps - samplesReceived := min_le_right _ _
  omega

theorem Received.add (hmore : samplesReceived < r.nsamps)
    (h : Received r buff₀ samplesReceived s) {t : Stream α} (hpending : t.pending = [])
    (hkept : ∀ j, j < samplesReceived ∨ samplesReceived + r.chunkNsamps samplesReceived ≤ j →
      t.buff j = s.buff j)
    (hchunk : ∀ i, i < r.chunkNsamps samplesReceived →
      t.buff (samplesReceived + i) = r.sample (samplesReceived + i)) :
    Received r buff₀ (samplesReceived + r.chunkNsamps samplesReceived) t where
  pending := hpending
  got := by
    intro j hj
    by_cases hold : j < samplesReceived
    · rw [hkept j (Or.inl hold), h.got j hold]
    · obtain ⟨i, rfl⟩ := Nat.exists_eq_add_of_le (not_lt.mp hold)
      exact hchunk i (Nat.lt_of_add_lt_add_left hj)
  kept := by
    intro j hj
    rw [hkept j (Or.inr ((add_chunkNsamps_le hmore.le).trans hj)), h.kept j hj]

theorem Received.of_failure (hmore : samplesReceived < r.nsamps)
    (h : Received r buff₀ samplesReceived s) {t : Stream α} (hpending : t.pending = [])
    (hkept : ∀ j, j < samplesReceived ∨ samplesReceived + r.chunkNsamps samplesReceived ≤ j →
      t.buff j = s.buff j) : Received r buff₀ samplesReceived t where
  pending := hpending
  got j hj := (hkept j (Or.inl hj)).trans (h.got j hj)
  kept j hj := (hkept j (Or.inr ((add_chunkNsamps_le hmore.le).trans hj))).trans (h.kept j hj)

theorem not_twelve_of_lt {failures : ℕ} (hfew : failures < 12) :
    ¬ List.replicate 12 false <:+: List.replicate failures false ++ [] := by
  intro h
  have hlength := h.length_le
  rw [List.append_nil, List.length_replicate, List.length_replicate] at hlength
  omega

theorem attempts_of_done (hdone : ¬ samplesReceived < r.nsamps) (fuel : ℕ) (reads : List Read) :
    attempts r fuel samplesReceived reads = [] := by
  cases fuel with
  | zero => rfl
  | succ fuel => exact if_neg hdone

theorem downloadLoop_of_done (hdone : ¬ samplesReceived < r.nsamps) (fuel chunkFailures : ℕ)
    (reads : List Read) :
    downloadLoop r fuel samplesReceived chunkFailures s reads = some (.ok (samplesReceived, s)) := by
  cases fuel with
  | zero => exact if_neg hdone
  | succ fuel => exact if_neg hdone

theorem downloadLoop_of_stuck (hmore : samplesReceived < r.nsamps) {fuel chunkFailures : ℕ}
    {reads : List Read}
    (hchunk : ∀ result, downloadChunk r samplesReceived (r.chunkNsamps samplesReceived) s reads
      ≠ some (.ok result)) (result : ℕ × Stream α) :
    downloadLoop r (fuel + 1) samplesReceived chunkFailures s reads ≠ some (.ok result) := by
  rw [downloadLoop, if_pos hmore]
  cases hresult : downloadChunk r samplesReceived (r.chunkNsamps samplesReceived) s reads with
  | none =>
    intro h
    cases h
  | some result' =>
    cases result' with
    | error e =>
      intro h
      cases Option.some.inj h
    | ok result' => exact absurd hresult (hchunk result')

theorem downloadLoop_of_whole (hmore : samplesReceived < r.nsamps) {fuel chunkFailures : ℕ}
    {reads rest : List Read} {t : Stream α}
    (hchunk : downloadChunk r samplesReceived (r.chunkNsamps samplesReceived) s reads
      = some (.ok (true, t, rest))) :
    downloadLoop r (fuel + 1) samplesReceived chunkFailures s reads
      = downloadLoop r fuel (samplesReceived + r.chunkNsamps samplesReceived) 0 t rest := by
  rw [downloadLoop, if_pos hmore, hchunk]
  rfl

theorem downloadLoop_of_failure (hmore : samplesReceived < r.nsamps) {fuel chunkFailures : ℕ}
    {reads rest : List Read} {t : Stream α}
    (hchunk : downloadChunk r samplesReceived (r.chunkNsamps samplesReceived) s reads
      = some (.ok (false, t, rest))) :
    downloadLoop r (fuel + 1) samplesReceived chunkFailures s reads
      = if chunkFailures > maxChunkDownloadRetries then some (.ok (samplesReceived, t))
        else downloadLoop r fuel samplesReceived (chunkFailures + 1) t rest := by
  rw [downloadLoop, if_pos hmore, hchunk]
  rfl

theorem chunk_cases (h : Received r buff₀ samplesReceived s) (fuel : ℕ) (reads : List Read)
    (hmore : samplesReceived < r.nsamps) :
    ((∀ result, downloadChunk r samplesReceived (r.chunkNsamps samplesReceived) s reads
        ≠ some (.ok result)) ∧ attempts r (fuel + 1) samplesReceived reads = []) ∨
    (∃ t rest, downloadChunk r samplesReceived (r.chunkNsamps samplesReceived) s reads
          = some (.ok (true, t, rest)) ∧ t.pending = [] ∧
        (∀ j, j < samplesReceived ∨ samplesReceived + r.chunkNsamps samplesReceived ≤ j →
          t.buff j = s.buff j) ∧
        (∀ i, i < r.chunkNsamps samplesReceived →
          t.buff (samplesReceived + i) = r.sample (samplesReceived + i)) ∧
        attempts r (fuel + 1) samplesReceived reads
          = true :: attempts r fuel (samplesReceived + r.chunkNsamps samplesReceived) rest) ∨
    (∃ t rest, downloadChunk r samplesReceived (r.chunkNsamps samplesReceived) s reads
          = some (.ok (false, t, rest)) ∧ t.pending = [] ∧
        (∀ j, j < samplesReceived ∨ samplesReceived + r.chunkNsamps samplesReceived ≤ j →
          t.buff j = s.buff j) ∧
        attempts r (fuel + 1) samplesReceived reads
          = false :: attempts r fuel samplesReceived rest) := by
  cases reads with
  | nil =>
    refine Or.inl ⟨fun result hresult => ?_, if_pos hmore⟩
    cases hresult
  | cons read reads =>
    cases read with
    | throws e =>
      refine Or.inl ⟨fun result hresult => ?_, if_pos hmore⟩
      cases Option.some.inj hresult
    | returns code count lost =>
      have hattempts : attempts r (fuel + 1) samplesReceived (.returns code count lost :: reads)
          = if code = .none ∧ r.chunkNsamps samplesReceived ≤ count then
              true :: attempts r fuel (samplesReceived + r.chunkNsamps samplesReceived) reads
            else
              match flushed reads with
              | none => []
              | some reads => false :: attempts r fuel samplesReceived reads := if_pos hmore
      rw [hattempts]
      by_cases hwhole : code = .none ∧ r.chunkNsamps samplesReceived ≤ count
      · obtain ⟨rfl, hcount⟩ := hwhole
        obtain ⟨t, hchunk, hpending, hkept, hgot⟩ := @downloadChunk_of_whole _ r s
          samplesReceived _ h.pending count lost hcount reads
        exact Or.inr (Or.inl ⟨t, reads, hchunk, hpending, hkept, hgot, if_pos ⟨rfl, hcount⟩⟩)
      · rw [if_neg hwhole, downloadChunk_of_failure h.pending hwhole]
        cases hflushed : flushed reads with
        | none =>
          refine Or.inl ⟨fun result hresult => ?_, rfl⟩
          have hnot := flush_of_none samplesReceived (r.chunkNsamps samplesReceived) reads
            ((s.start (r.chunkSamples samplesReceived (r.chunkNsamps samplesReceived))).recv
              samplesReceived (r.chunkNsamps samplesReceived) code count lost).stop hflushed
          obtain ⟨result', hflush, hmap⟩ := Option.map_eq_some_iff.mp hresult
          cases result' with
          | error e => cases hmap
          | ok flushed => exact hnot flushed hflush
        | some rest =>
          obtain ⟨t, hflush, hpending, hbuff⟩ := flush_of_some samplesReceived
            (r.chunkNsamps samplesReceived) reads
            ((s.start (r.chunkSamples samplesReceived (r.chunkNsamps samplesReceived))).recv
              samplesReceived (r.chunkNsamps samplesReceived) code count lost).stop rfl hflushed
          refine Or.inr (Or.inr ⟨t, rest, ?_, hpending, fun j hj => ?_, rfl⟩)
          · rw [hflush]
            rfl
          · rw [hbuff j hj]
            exact buff_recv_of_outside _ code count lost hj

/-- **The loop.**  What it takes as received is what was requested; and it gives up exactly when a
chunk fails twelve times in a row, with those failures that it has counted already. -/
theorem downloadLoop_spec :
    ∀ (fuel samplesReceived chunkFailures : ℕ) (s : Stream α) (reads : List Read),
      samplesReceived ≤ r.nsamps → chunkFailures < 12 → Received r buff₀ samplesReceived s →
      (∀ k t, downloadLoop r fuel samplesReceived chunkFailures s reads = some (.ok (k, t)) →
        k ≤ r.nsamps ∧ Received r buff₀ k t) ∧
      ((∃ k t, downloadLoop r fuel samplesReceived chunkFailures s reads = some (.ok (k, t)) ∧
          k < r.nsamps)
        ↔ List.replicate 12 false
          <:+: List.replicate chunkFailures false ++ attempts r fuel samplesReceived reads) := by
  intro fuel
  induction fuel with
  | zero =>
    intro samplesReceived chunkFailures s reads hle hfew h
    have hnot := not_twelve_of_lt hfew
    by_cases hmore : samplesReceived < r.nsamps
    · have hstuck : downloadLoop r 0 samplesReceived chunkFailures s reads = none := if_pos hmore
      rw [hstuck]
      refine ⟨fun k t hend => ?_, iff_of_false ?_ hnot⟩
      · cases hend
      · rintro ⟨k, t, hend, -⟩
        cases hend
    · rw [downloadLoop_of_done hmore]
      refine ⟨fun k t hend => ?_, iff_of_false ?_ hnot⟩
      · cases hend
        exact ⟨hle, h⟩
      · rintro ⟨k, t, hend, hk⟩
        cases hend
        exact hmore hk
  | succ fuel ih =>
    intro samplesReceived chunkFailures s reads hle hfew h
    have hnot := not_twelve_of_lt hfew
    by_cases hmore : samplesReceived < r.nsamps
    · rcases chunk_cases h fuel reads hmore with ⟨hstuck, hattempts⟩
        | ⟨t, rest, hchunk, hpending, hkept, hgot, hattempts⟩
        | ⟨t, rest, hchunk, hpending, hkept, hattempts⟩
      · have hnever := @downloadLoop_of_stuck _ r s _ hmore fuel chunkFailures reads hstuck
        rw [hattempts]
        refine ⟨fun k t hend => absurd hend (hnever _), iff_of_false ?_ hnot⟩
        rintro ⟨k, t, hend, -⟩
        exact hnever _ hend
      · rw [downloadLoop_of_whole hmore hchunk, hattempts,
          replicate_infix_append_cons (by decide)]
        obtain ⟨hends, hgives⟩ := ih _ 0 t rest (add_chunkNsamps_le hle) (by decide)
          (h.add hmore hpending hkept hgot)
        refine ⟨hends, hgives.trans ?_⟩
        rw [List.append_nil] at hnot
        exact (or_iff_right hnot).symm
      · rw [downloadLoop_of_failure hmore hchunk, hattempts]
        have hreceived := h.of_failure hmore hpending hkept
        by_cases hlast : chunkFailures > maxChunkDownloadRetries
        · have hcount : chunkFailures = 11 := by
            rw [maxChunkDownloadRetries] at hlast
            omega
          rw [if_pos hlast]
          refine ⟨fun k u hend => ?_, iff_of_true ⟨samplesReceived, t, rfl, hmore⟩ ?_⟩
          · cases hend
            exact ⟨hle, hreceived⟩
          · rw [hcount]
            exact ⟨[], attempts r fuel samplesReceived rest, rfl⟩
        · rw [if_neg hlast]
          obtain ⟨hends, hgives⟩ := ih samplesReceived (chunkFailures + 1) t rest hle
            (by
              rw [maxChunkDownloadRetries] at hlast
              omega) hreceived
          refine ⟨hends, hgives.trans (iff_of_eq ?_)⟩
          have hsucc : List.replicate (chunkFailures + 1) false
              = List.replicate chunkFailures false ++ [false] := List.replicate_succ'
          rw [hsucc, List.append_assoc]
          rfl
    · rw [downloadLoop_of_done hmore, attempts_of_done hmore]
      refine ⟨fun k t hend => ?_, iff_of_false ?_ hnot⟩
      · cases hend
        exact ⟨hle, h⟩
      · rintro ⟨k, t, hend, hk⟩
        cases hend
        exact hmore hk

end Loop

/-! ## More reads -/

section Append

variable {r : Request α} {position n : ℕ}

theorem flush_append (position n : ℕ) (more : List Read) :
    ∀ (reads : List Read) (s : Stream α) (result : Except UhdError (Stream α × List Read)),
      flush position n s reads = some result →
      flush position n s (reads ++ more)
        = some (result.map fun flushed => (flushed.1, flushed.2 ++ more)) := by
  intro reads
  induction reads with
  | nil =>
    intro s result h
    cases h
  | cons read reads ih =>
    intro s result h
    cases read with
    | throws e =>
      cases h
      rfl
    | returns code count lost =>
      rw [List.cons_append, flush]
      rw [flush] at h
      by_cases hcode : code = .timeout
      · rw [if_pos hcode] at h ⊢
        cases h
        rfl
      · rw [if_neg hcode] at h ⊢
        exact ih _ result h

theorem downloadChunk_append (more : List Read) (s : Stream α) (reads : List Read)
    (result : Except UhdError (Bool × Stream α × List Read))
    (h : downloadChunk r position n s reads = some result) :
    downloadChunk r position n s (reads ++ more)
      = some (result.map fun chunk => (chunk.1, chunk.2.1, chunk.2.2 ++ more)) := by
  cases reads with
  | nil => cases h
  | cons read reads =>
    cases read with
    | throws e =>
      cases h
      rfl
    | returns code count lost =>
      rw [List.cons_append, downloadChunk]
      rw [downloadChunk] at h
      split_ifs at h ⊢ with hwhole
      · cases h
        rfl
      · obtain ⟨flushed, hflush, rfl⟩ := Option.map_eq_some_iff.mp h
        rw [flush_append _ _ more _ _ _ hflush, Option.map_some]
        cases flushed with
        | error e => rfl
        | ok flushed => rfl

theorem downloadLoop_append (more : List Read) :
    ∀ (fuel samplesReceived chunkFailures : ℕ) (s : Stream α) (reads : List Read)
      (result : Except UhdError (ℕ × Stream α)),
      downloadLoop r fuel samplesReceived chunkFailures s reads = some result →
      ∀ fuel', fuel ≤ fuel' →
        downloadLoop r fuel' samplesReceived chunkFailures s (reads ++ more) = some result := by
  intro fuel
  induction fuel with
  | zero =>
    intro samplesReceived chunkFailures s reads result h fuel' _
    by_cases hmore : samplesReceived < r.nsamps
    · have hstuck : downloadLoop r 0 samplesReceived chunkFailures s reads = none := if_pos hmore
      rw [hstuck] at h
      cases h
    · rw [downloadLoop_of_done hmore] at h ⊢
      exact h
  | succ fuel ih =>
    intro samplesReceived chunkFailures s reads result h fuel' hfuel
    by_cases hmore : samplesReceived < r.nsamps
    · obtain ⟨fuel', rfl⟩ := Nat.exists_eq_add_of_le' (Nat.le_trans (Nat.le_add_left 1 fuel) hfuel)
      have hfuel' : fuel ≤ fuel' := Nat.le_of_add_le_add_right hfuel
      have happend := @downloadChunk_append _ r samplesReceived
        (r.chunkNsamps samplesReceived) more s reads
      rw [downloadLoop, if_pos hmore] at h ⊢
      cases hchunk : downloadChunk r samplesReceived (r.chunkNsamps samplesReceived) s reads with
      | none =>
        rw [hchunk] at h
        cases h
      | some chunk =>
        rw [happend chunk hchunk]
        rw [hchunk] at h
        cases chunk with
        | error e => exact h
        | ok chunk =>
          obtain ⟨success, t, rest⟩ := chunk
          cases success with
          | true => exact ih _ _ _ _ _ h fuel' hfuel'
          | false =>
            have hend : (if chunkFailures > maxChunkDownloadRetries then
                some (.ok (samplesReceived, t))
              else downloadLoop r fuel samplesReceived (chunkFailures + 1) t rest) = some result :=
              h
            show (if chunkFailures > maxChunkDownloadRetries then
                some (.ok (samplesReceived, t))
              else downloadLoop r fuel' samplesReceived (chunkFailures + 1) t (rest ++ more))
                = some result
            by_cases hlast : chunkFailures > maxChunkDownloadRetries
            · rw [if_pos hlast] at hend ⊢
              exact hend
            · rw [if_neg hlast] at hend ⊢
              exact ih _ _ _ _ _ hend fuel' hfuel'
    · rw [downloadLoop_of_done hmore] at h ⊢
      exact h

theorem downloadLoop_of_le {fuel fuel' samplesReceived chunkFailures : ℕ} {s : Stream α}
    {reads : List Read} {result : Except UhdError (ℕ × Stream α)}
    (h : downloadLoop r fuel samplesReceived chunkFailures s reads = some result)
    (hle : fuel ≤ fuel') :
    downloadLoop r fuel' samplesReceived chunkFailures s reads = some result := by
  have happend := downloadLoop_append [] fuel _ _ _ _ _ h fuel' hle
  rwa [List.append_nil] at happend

end Append

/-! ## The end of a download -/

section Ends

variable {r : Request α} {reads : ℕ → Read}

/-- The reads from one of them on. -/
def readsFrom (reads : ℕ → Read) (i n : ℕ) : List Read := (List.range' i n).map reads

theorem firstReads_eq (reads : ℕ → Read) (n : ℕ) : firstReads reads n = readsFrom reads 0 n := by
  rw [firstReads, readsFrom, List.range_eq_range']

theorem length_firstReads (reads : ℕ → Read) (n : ℕ) : (firstReads reads n).length = n := by
  rw [firstReads, List.length_map, List.length_range]

theorem readsFrom_succ (reads : ℕ → Read) (i n : ℕ) :
    readsFrom reads i (n + 1) = reads i :: readsFrom reads (i + 1) n := rfl

theorem readsFrom_add (reads : ℕ → Read) (i m n : ℕ) :
    readsFrom reads i (m + n) = readsFrom reads i m ++ readsFrom reads (i + m) n := by
  rw [readsFrom, readsFrom, readsFrom, ← List.map_append, List.range'_append_1]

theorem exists_flush (hquiet : GetsQuiet reads) (position m i : ℕ) (s : Stream α) :
    ∃ n result, flush position m s (readsFrom reads i n) = some result ∧
      ∀ left, result = .ok left → left.2 = [] := by
  obtain ⟨k, hk⟩ := hquiet i
  induction k generalizing i s with
  | zero =>
    rw [Nat.add_zero] at hk
    refine ⟨1, ?_⟩
    rw [readsFrom_succ]
    cases hread : reads i with
    | throws e =>
      refine ⟨.error e, rfl, fun left hleft => ?_⟩
      cases hleft
    | returns code count lost =>
      rw [hread] at hk
      have hcode : code = .timeout := hk
      refine ⟨.ok (s.recv position m code count lost, []), ?_, fun left hleft => ?_⟩
      · rw [flush]
        exact if_pos hcode
      · rw [← Except.ok.inj hleft]
  | succ k ih =>
    cases hread : reads i with
    | throws e =>
      refine ⟨1, .error e, ?_, fun left hleft => ?_⟩
      · rw [readsFrom_succ, hread]
        rfl
      · cases hleft
    | returns code count lost =>
      by_cases hcode : code = .timeout
      · refine ⟨1, .ok (s.recv position m code count lost, []), ?_, fun left hleft => ?_⟩
        · rw [readsFrom_succ, hread, flush]
          exact if_pos hcode
        · rw [← Except.ok.inj hleft]
      · rw [← Nat.add_assoc, Nat.add_right_comm] at hk
        obtain ⟨n, result, hflush, hleft⟩ := ih (i + 1) (s.recv position m code count lost) hk
        refine ⟨n + 1, result, ?_, hleft⟩
        rw [readsFrom_succ, hread, flush, if_neg hcode]
        exact hflush

theorem exists_downloadChunk (hquiet : GetsQuiet reads) (position m i : ℕ) (s : Stream α) :
    ∃ n result, downloadChunk r position m s (readsFrom reads i (n + 1)) = some result ∧
      ∀ chunk, result = .ok chunk → chunk.2.2 = [] := by
  cases hread : reads i with
  | throws e =>
    refine ⟨0, .error e, ?_, fun chunk hchunk => ?_⟩
    · rw [readsFrom_succ, hread]
      rfl
    · cases hchunk
  | returns code count lost =>
    set started := s.start (r.chunkSamples position m) with hstarted
    by_cases hwhole : (started.given m count).length = m ∧ code = .none
    · refine ⟨0, .ok (true, started.recv position m code count lost, []), ?_,
        fun chunk hchunk => ?_⟩
      · rw [readsFrom_succ, hread, downloadChunk]
        exact if_pos hwhole
      · rw [← Except.ok.inj hchunk]
    · obtain ⟨n, result, hflush, hleft⟩ := exists_flush hquiet position m (i + 1)
        (started.recv position m code count lost).stop
      refine ⟨n, result.map fun flushed => (false, flushed.1, flushed.2), ?_,
        fun chunk hchunk => ?_⟩
      · rw [readsFrom_succ, hread, downloadChunk]
        rw [if_neg hwhole, hflush]
        rfl
      · cases result with
        | error e => cases hchunk
        | ok left =>
          rw [← Except.ok.inj hchunk]
          exact hleft left rfl

theorem exists_downloadLoop (hquiet : GetsQuiet reads) (hchunks : r.HasChunks) :
    ∀ (todo i samplesReceived chunkFailures : ℕ) (s : Stream α),
      (r.nsamps - samplesReceived) * 13 + (12 - chunkFailures) ≤ todo →
      ∃ n result, downloadLoop r n samplesReceived chunkFailures s (readsFrom reads i n)
        = some result := by
  intro todo
  induction todo with
  | zero =>
    intro i samplesReceived chunkFailures s htodo
    exact ⟨0, _, downloadLoop_of_done (by omega) _ _ _⟩
  | succ todo ih =>
    intro i samplesReceived chunkFailures s htodo
    by_cases hmore : samplesReceived < r.nsamps
    · obtain ⟨k, result, hchunk, hleft⟩ := exists_downloadChunk (r := r) hquiet samplesReceived
        (r.chunkNsamps samplesReceived) i s
      cases result with
      | error e =>
        refine ⟨k + 1, .error e, ?_⟩
        rw [downloadLoop, if_pos hmore, hchunk]
      | ok chunk =>
        obtain ⟨success, t, rest⟩ := chunk
        have hrest : rest = [] := hleft _ rfl
        subst hrest
        -- what is read after the chunk
        have hthen : ∀ n, downloadChunk r samplesReceived (r.chunkNsamps samplesReceived) s
            (readsFrom reads i (k + 1 + n))
              = some (.ok (success, t, readsFrom reads (i + (k + 1)) n)) := by
          intro n
          rw [readsFrom_add]
          exact downloadChunk_append _ s _ _ hchunk
        cases success with
        | true =>
          have hsome : 0 < r.chunkNsamps samplesReceived :=
            lt_min hchunks (Nat.sub_pos_of_lt hmore)
          obtain ⟨n, result, hloop⟩ := ih (i + (k + 1))
            (samplesReceived + r.chunkNsamps samplesReceived) 0 t (by omega)
          refine ⟨k + 1 + n, result, ?_⟩
          have hchunk' := hthen n
          rw [Nat.add_right_comm] at hchunk' ⊢
          rw [downloadLoop_of_whole hmore hchunk']
          exact downloadLoop_of_le hloop (Nat.le_add_left n k)
        | false =>
          by_cases hlast : chunkFailures > maxChunkDownloadRetries
          · refine ⟨k + 1, .ok (samplesReceived, t), ?_⟩
            rw [downloadLoop_of_failure hmore hchunk, if_pos hlast]
          · have hfew : chunkFailures ≤ 10 := not_lt.mp hlast
            obtain ⟨n, result, hloop⟩ := ih (i + (k + 1)) samplesReceived (chunkFailures + 1) t
              (by omega)
            refine ⟨k + 1 + n, result, ?_⟩
            have hchunk' := hthen n
            rw [Nat.add_right_comm] at hchunk' ⊢
            rw [downloadLoop_of_failure hmore hchunk', if_neg hlast]
            exact downloadLoop_of_le hloop (Nat.le_add_left n k)
    · exact ⟨0, _, downloadLoop_of_done hmore _ _ _⟩

theorem flush_of_throws {e : UhdError} (position m : ℕ) :
    ∀ (reads : List Read) (s : Stream α), Read.throws e ∈ reads →
      ∃ result, flush position m s reads = some result ∧
        ∀ left, result = .ok left → Read.throws e ∈ left.2 ∧ left.2.length < reads.length := by
  intro reads
  induction reads with
  | nil =>
    intro s hthrows
    cases hthrows
  | cons read reads ih =>
    intro s hthrows
    cases read with
    | throws e' =>
      refine ⟨.error e', rfl, fun left hleft => ?_⟩
      cases hleft
    | returns code count lost =>
      have hlater : Read.throws e ∈ reads := by
        rcases List.mem_cons.mp hthrows with h | h
        · cases h
        · exact h
      by_cases hcode : code = .timeout
      · refine ⟨.ok (s.recv position m code count lost, reads), ?_, fun left hleft => ?_⟩
        · rw [flush]
          exact if_pos hcode
        · rw [← Except.ok.inj hleft]
          exact ⟨hlater, Nat.lt_succ_self _⟩
      · obtain ⟨result, hflush, hleft⟩ := ih (s.recv position m code count lost) hlater
        refine ⟨result, ?_, fun left hok => ?_⟩
        · rw [flush, if_neg hcode]
          exact hflush
        · obtain ⟨hmem, hlt⟩ := hleft left hok
          exact ⟨hmem, hlt.trans (Nat.lt_succ_self _)⟩

theorem downloadChunk_of_throws {e : UhdError} (position m : ℕ) (reads : List Read)
    (s : Stream α) (hthrows : Read.throws e ∈ reads) :
    ∃ result, downloadChunk r position m s reads = some result ∧
      ∀ chunk, result = .ok chunk →
        Read.throws e ∈ chunk.2.2 ∧ chunk.2.2.length < reads.length := by
  cases reads with
  | nil => cases hthrows
  | cons read reads =>
    cases read with
    | throws e' =>
      refine ⟨.error e', rfl, fun chunk hchunk => ?_⟩
      cases hchunk
    | returns code count lost =>
      have hlater : Read.throws e ∈ reads := by
        rcases List.mem_cons.mp hthrows with h | h
        · cases h
        · exact h
      rw [downloadChunk]
      split_ifs with hwhole
      · refine ⟨_, rfl, fun chunk hchunk => ?_⟩
        rw [← Except.ok.inj hchunk]
        exact ⟨hlater, Nat.lt_succ_self _⟩
      · obtain ⟨result, hflush, hleft⟩ := flush_of_throws position m reads
          ((s.start (r.chunkSamples position m)).recv position m code count lost).stop hlater
        rw [hflush]
        refine ⟨_, rfl, fun chunk hchunk => ?_⟩
        cases result with
        | error e => cases hchunk
        | ok left =>
          obtain ⟨hmem, hlt⟩ := hleft left rfl
          rw [← Except.ok.inj hchunk]
          exact ⟨hmem, hlt.trans (Nat.lt_succ_self _)⟩

theorem downloadLoop_of_throws {e : UhdError} :
    ∀ (fuel samplesReceived chunkFailures : ℕ) (s : Stream α) (reads : List Read),
      reads.length ≤ fuel → Read.throws e ∈ reads →
      ∃ result, downloadLoop r fuel samplesReceived chunkFailures s reads = some result := by
  intro fuel
  induction fuel with
  | zero =>
    intro samplesReceived chunkFailures s reads hlength hthrows
    exact absurd (List.length_pos_of_mem hthrows) (not_lt.mpr hlength)
  | succ fuel ih =>
    intro samplesReceived chunkFailures s reads hlength hthrows
    by_cases hmore : samplesReceived < r.nsamps
    · obtain ⟨result, hchunk, hleft⟩ := downloadChunk_of_throws (r := r) samplesReceived
        (r.chunkNsamps samplesReceived) reads s hthrows
      cases result with
      | error e' =>
        refine ⟨.error e', ?_⟩
        rw [downloadLoop, if_pos hmore, hchunk]
      | ok chunk =>
        obtain ⟨success, t, rest⟩ := chunk
        obtain ⟨hmem, hlt⟩ := hleft _ rfl
        have hrest : rest.length ≤ fuel := Nat.le_of_lt_succ (hlt.trans_le hlength)
        cases success with
        | true =>
          rw [downloadLoop_of_whole hmore hchunk]
          exact ih _ 0 t rest hrest hmem
        | false =>
          rw [downloadLoop_of_failure hmore hchunk]
          split_ifs
          · exact ⟨_, rfl⟩
          · exact ih samplesReceived _ t rest hrest hmem
    · exact ⟨_, downloadLoop_of_done hmore _ _ _⟩

/-! ## Stalling -/

theorem flush_of_quiet (position m : ℕ) :
    ∀ (reads : List Read) (s : Stream α), (∀ e, Read.throws e ∉ reads) →
      ∀ result, flush position m s reads = some result →
        ∃ left, result = .ok left ∧ ∀ e, Read.throws e ∉ left.2 := by
  intro reads
  induction reads with
  | nil =>
    intro s _ result h
    cases h
  | cons read reads ih =>
    intro s hquiet result h
    have hlater : ∀ e, Read.throws e ∉ reads :=
      fun e hmem => hquiet e (List.mem_cons_of_mem _ hmem)
    cases read with
    | throws e => exact absurd List.mem_cons_self (hquiet e)
    | returns code count lost =>
      rw [flush] at h
      split_ifs at h with hcode
      · exact ⟨_, (Option.some.inj h).symm, hlater⟩
      · exact ih _ hlater result h

theorem downloadChunk_of_quiet (position m : ℕ) (reads : List Read) (s : Stream α)
    (hquiet : ∀ e, Read.throws e ∉ reads)
    (result : Except UhdError (Bool × Stream α × List Read))
    (h : downloadChunk r position m s reads = some result) :
    ∃ chunk, result = .ok chunk ∧ ∀ e, Read.throws e ∉ chunk.2.2 := by
  cases reads with
  | nil => cases h
  | cons read reads =>
    have hlater : ∀ e, Read.throws e ∉ reads :=
      fun e hmem => hquiet e (List.mem_cons_of_mem _ hmem)
    cases read with
    | throws e => exact absurd List.mem_cons_self (hquiet e)
    | returns code count lost =>
      rw [downloadChunk] at h
      split_ifs at h with hwhole
      · exact ⟨_, (Option.some.inj h).symm, hlater⟩
      · obtain ⟨result', hflush, rfl⟩ := Option.map_eq_some_iff.mp h
        obtain ⟨left, rfl, hleft⟩ := flush_of_quiet position m reads _ hlater result' hflush
        exact ⟨_, rfl, hleft⟩

theorem downloadLoop_of_stalled (hchunks : ¬ r.HasChunks) :
    ∀ (fuel samplesReceived chunkFailures : ℕ) (s : Stream α) (reads : List Read),
      (∀ e, Read.throws e ∉ reads) →
      ∀ result, downloadLoop r fuel samplesReceived chunkFailures s reads = some result →
        ∃ t, result = .ok (samplesReceived, t) := by
  intro fuel
  induction fuel with
  | zero =>
    intro samplesReceived chunkFailures s reads _ result h
    by_cases hmore : samplesReceived < r.nsamps
    · have hstuck : downloadLoop r 0 samplesReceived chunkFailures s reads = none := if_pos hmore
      rw [hstuck] at h
      cases h
    · rw [downloadLoop_of_done hmore] at h
      exact ⟨s, (Option.some.inj h).symm⟩
  | succ fuel ih =>
    intro samplesReceived chunkFailures s reads hquiet result h
    by_cases hmore : samplesReceived < r.nsamps
    · cases hchunk : downloadChunk r samplesReceived (r.chunkNsamps samplesReceived) s reads with
      | none =>
        rw [downloadLoop, if_pos hmore, hchunk] at h
        cases h
      | some result' =>
        obtain ⟨chunk, rfl, hrest⟩ := downloadChunk_of_quiet _ _ reads s hquiet result' hchunk
        obtain ⟨success, t, rest⟩ := chunk
        cases success with
        | true =>
          have hnone : r.chunkNsamps samplesReceived = 0 := by
            rw [Request.chunkNsamps, Nat.eq_zero_of_not_pos hchunks, Nat.zero_min]
          rw [downloadLoop_of_whole hmore hchunk, hnone] at h
          exact ih _ _ _ rest hrest result h
        | false =>
          rw [downloadLoop_of_failure hmore hchunk] at h
          split_ifs at h
          · exact ⟨t, (Option.some.inj h).symm⟩
          · exact ih _ _ _ rest hrest result h
    · rw [downloadLoop_of_done hmore] at h
      exact ⟨s, (Option.some.inj h).symm⟩

end Ends

theorem download_eq_ok (r : Request α) (prepare finish : Except UhdError Unit) (buff : ℕ → α)
    (reads : List Read) (k : ℕ) (t : Stream α) :
    download r prepare finish buff reads = some (.ok (k, t)) ↔
      (prepare = .ok () ∧ finish = .ok ()) ∧
        downloadLoop r reads.length 0 0 { buff } reads = some (.ok (k, t)) := by
  cases prepare with
  | error e =>
    constructor
    · intro h
      cases Option.some.inj h
    · rintro ⟨⟨h, -⟩, -⟩
      cases h
  | ok =>
    have hmap : download r (.ok ()) finish buff reads
        = (downloadLoop r reads.length 0 0 { buff } reads).map fun result =>
            result.bind fun downloaded => finish.map fun _ => downloaded := rfl
    rw [hmap, Option.map_eq_some_iff]
    cases finish with
    | error e =>
      constructor
      · rintro ⟨result, -, h⟩
        cases result with
        | error e => cases h
        | ok downloaded => cases h
      · rintro ⟨⟨-, h⟩, -⟩
        cases h
    | ok =>
      constructor
      · rintro ⟨result, hloop, h⟩
        cases result with
        | error e => cases h
        | ok downloaded =>
          rw [← Except.ok.inj h]
          exact ⟨⟨rfl, rfl⟩, hloop⟩
      · rintro ⟨-, hloop⟩
        exact ⟨_, hloop, rfl⟩

/-! ## When samples are delivered -/

section Delivers

variable {r : Request α} {reads : ℕ → Read} {buff : ℕ → α}

theorem downloadLoop_firstReads_of_le {n m : ℕ} {result : Except UhdError (ℕ × Stream α)}
    {s : Stream α} (h : downloadLoop r n 0 0 s (firstReads reads n) = some result) (hle : n ≤ m) :
    downloadLoop r m 0 0 s (firstReads reads m) = some result := by
  obtain ⟨k, rfl⟩ := Nat.exists_eq_add_of_le hle
  have hreads : firstReads reads (n + k) = firstReads reads n ++ readsFrom reads (0 + n) k := by
    rw [firstReads_eq, firstReads_eq, readsFrom_add]
  rw [hreads]
  exact downloadLoop_append _ n _ _ _ _ _ h _ hle

theorem result_eq {n m : ℕ} {result result' : Except UhdError (ℕ × Stream α)} {s : Stream α}
    (h : downloadLoop r n 0 0 s (firstReads reads n) = some result)
    (h' : downloadLoop r m 0 0 s (firstReads reads m) = some result') : result = result' := by
  have hmax := downloadLoop_firstReads_of_le h (le_max_left n m)
  rw [downloadLoop_firstReads_of_le h' (le_max_right n m)] at hmax
  exact (Option.some.inj hmax).symm

theorem received_zero (r : Request α) (buff : ℕ → α) : Received r buff 0 { buff } where
  pending := rfl
  got _ hj := absurd hj (Nat.not_lt_zero _)
  kept _ _ := rfl

theorem received_of_loop {n k : ℕ} {t : Stream α}
    (h : downloadLoop r n 0 0 { buff } (firstReads reads n) = some (.ok (k, t))) :
    k ≤ r.nsamps ∧ Received r buff k t :=
  (downloadLoop_spec n 0 0 { buff } (firstReads reads n) (Nat.zero_le _) (by decide)
    (received_zero r buff)).1 k t h

theorem failsTwelveTimes_iff (buff : ℕ → α) :
    FailsTwelveTimes r reads ↔
      ∃ n k t, downloadLoop r n 0 0 { buff } (firstReads reads n) = some (.ok (k, t)) ∧
        k < r.nsamps := by
  refine exists_congr fun n => ?_
  exact (downloadLoop_spec n 0 0 { buff } (firstReads reads n) (Nat.zero_le _) (by decide)
    (received_zero r buff)).2.symm

theorem exists_loop_iff (hquiet : GetsQuiet reads) (buff : ℕ → α) :
    (∃ n result, downloadLoop r n 0 0 { buff } (firstReads reads n) = some result) ↔
      ¬ Stalls r reads := by
  constructor
  · rintro ⟨n, result, hloop⟩ ⟨hsome, hchunks, hfew, hthrows⟩
    have hnone : ∀ e, Read.throws e ∉ firstReads reads n := by
      intro e hmem
      obtain ⟨i, -, hi⟩ := List.mem_map.mp hmem
      exact hthrows i e hi
    obtain ⟨t, rfl⟩ := downloadLoop_of_stalled hchunks n 0 0 _ _ hnone result hloop
    exact hfew ((failsTwelveTimes_iff buff).mpr ⟨n, 0, t, hloop, hsome⟩)
  · intro hends
    by_cases hnone : 0 < r.nsamps
    · by_cases hchunks : r.HasChunks
      · obtain ⟨n, result, hloop⟩ := exists_downloadLoop hquiet hchunks _ 0 0 0 { buff } le_rfl
        rw [← firstReads_eq] at hloop
        exact ⟨n, result, hloop⟩
      · by_cases htwelve : FailsTwelveTimes r reads
        · obtain ⟨n, k, t, hloop, -⟩ := (failsTwelveTimes_iff buff).mp htwelve
          exact ⟨n, _, hloop⟩
        · have hthrows : ∃ n e, reads n = .throws e := by
            by_contra hnot
            push Not at hnot
            exact hends ⟨hnone, hchunks, htwelve, hnot⟩
          obtain ⟨n, e, hn⟩ := hthrows
          have hmem : Read.throws e ∈ firstReads reads (n + 1) :=
            List.mem_map.mpr ⟨n, List.mem_range.mpr (Nat.lt_succ_self n), hn⟩
          obtain ⟨result, hloop⟩ := downloadLoop_of_throws (r := r) (n + 1) 0 0 { buff }
            (firstReads reads (n + 1)) (length_firstReads reads _).le hmem
          exact ⟨n + 1, result, hloop⟩
    · exact ⟨0, _, downloadLoop_of_done hnone _ _ _⟩

theorem download_eq_some (prepare finish : Except UhdError Unit) {n : ℕ}
    {result : Except UhdError (ℕ × Stream α)}
    (h : downloadLoop r n 0 0 { buff } (firstReads reads n) = some result) :
    ∃ result', download r prepare finish buff (firstReads reads n) = some result' := by
  cases prepare with
  | error e => exact ⟨_, rfl⟩
  | ok =>
    have hmap : download r (.ok ()) finish buff (firstReads reads n)
        = (downloadLoop r (firstReads reads n).length 0 0 { buff } (firstReads reads n)).map
            fun result => result.bind fun downloaded => finish.map fun _ => downloaded := rfl
    rw [hmap, length_firstReads, h]
    exact ⟨_, rfl⟩

theorem exists_loop_of_download {finish : Except UhdError Unit} {n : ℕ}
    {result : Except UhdError (ℕ × Stream α)}
    (h : download r (.ok ()) finish buff (firstReads reads n) = some result) :
    ∃ looped, downloadLoop r n 0 0 { buff } (firstReads reads n) = some looped ∧
      (looped.bind fun downloaded => finish.map fun _ => downloaded) = result := by
  have hmap : (downloadLoop r (firstReads reads n).length 0 0 { buff } (firstReads reads n)).map
      (fun looped => looped.bind fun downloaded => finish.map fun _ => downloaded)
        = some result := h
  rw [length_firstReads] at hmap
  exact Option.map_eq_some_iff.mp hmap

/-- Two samples of four bytes from the beginning of a memory with words of eight. -/
def twoSamples : Request ℕ where
  mem := id
  nsamps := 2
  offset := 0
  bytesPerSample := 4
  wordSize := 8
  maxNumSamps := 364

/-- A read that is too short, after which a sample gets lost in an overflow, and a second attempt
where both samples come. -/
def shortRead : ℕ → Read
  | 0 => .returns .none 1 0
  | 1 => .returns .overflow 0 1
  | 2 => .returns .timeout 0 0
  | 3 => .returns .none 2 0
  | _ + 4 => .returns .timeout 0 0

end Delivers

end Dram
end Rfnoc
end UhdHost
