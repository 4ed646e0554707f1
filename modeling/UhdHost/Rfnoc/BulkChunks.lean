import UhdHost.Rfnoc.CtrlPayloadFormat
import UhdHost.Rfnoc.CtrlportCalls

/-!
# The chunks of bulk accesses

`bulk_write32` and `bulk_read32` of `lib/rfnoc/ctrlport_endpoint.cpp` go over the words in steps
of `MAX_DATA_WORDS` and make one request of each chunk.  Here are the requests; the calls that
fire them are in `CtrlportBulk`.

The offset of a chunk is the number of words before it (`sum_chunkSizes_take`), so its address is
that of its first word.
-/

namespace UhdHost
namespace Rfnoc

open CtrlPayload (maxDataWords)

/-- The offsets that `for (size_t offset = 0; offset < num_words; offset += MAX_WORDS)` goes over,
from one of them on. -/
def bulkOffsets (numWords offset : ℕ) : List ℕ :=
  if offset < numWords then offset :: bulkOffsets numWords (offset + maxDataWords) else []
termination_by numWords - offset
decreasing_by
  rw [maxDataWords]
  omega

/-- `chunk_size` -/
def chunkSize (numWords offset : ℕ) : ℕ := min maxDataWords (numWords - offset)

/-- The address of a chunk; `block` says that the operation is `OP_BLOCK_WRITE` or
`OP_BLOCK_READ`. -/
def bulkAddress (block : Bool) (baseAddr : UInt32) (offset : ℕ) : UInt32 :=
  if block then baseAddr + UInt32.ofNat (offset * 4) else baseAddr

/-- The request that `bulk_write32` sends for a chunk. -/
def writeRequest (block : Bool) (baseAddr : UInt32) (data : List UInt32)
    (timestamp : Option UInt64) (ack : Bool) (offset : ℕ) : CtrlRequest :=
  (Operation.bulkWrite32 block (bulkAddress block baseAddr offset)
    ((data.drop offset).take (chunkSize data.length offset))).request
    (if offset = 0 then timestamp else none)
    (if data.length ≤ offset + chunkSize data.length offset then ack else false)

/-- What `bulk_read32` asks for with a chunk. -/
def readOperation (block : Bool) (baseAddr : UInt32) (length offset : ℕ) : Operation :=
  .bulkRead32 block (bulkAddress block baseAddr offset) (chunkSize length offset)

/-- The request that `bulk_read32` fires for a chunk. -/
def readRequest (block : Bool) (baseAddr : UInt32) (length : ℕ) (timestamp : Option UInt64)
    (offset : ℕ) : CtrlRequest :=
  (readOperation block baseAddr length offset).request (if offset = 0 then timestamp else none) true

/-- The requests of a bulk write, in the order in which they are sent. -/
def writeRequests (block : Bool) (baseAddr : UInt32) (data : List UInt32)
    (timestamp : Option UInt64) (ack : Bool) : List CtrlRequest :=
  (bulkOffsets data.length 0).map (writeRequest block baseAddr data timestamp ack)

/-- The requests of a bulk read, in the order in which they are fired. -/
def readRequests (block : Bool) (baseAddr : UInt32) (length : ℕ) (timestamp : Option UInt64) :
    List CtrlRequest :=
  (bulkOffsets length 0).map (readRequest block baseAddr length timestamp)

/-- **Requests for chunks**: of at least one word and at most as many as fit in a packet, at
addresses that advance or not, and with the timestamp on the first one only. -/
structure Chunked (block : Bool) (baseAddr : UInt32) (timestamp : Option UInt64)
    (words : CtrlRequest → ℕ) (requests : List CtrlRequest) : Prop where
  size : ∀ r ∈ requests, 1 ≤ words r ∧ words r ≤ maxDataWords
  address : ∀ i r, requests[i]? = some r →
    r.address = if block then
      baseAddr + UInt32.ofNat (4 * ((requests.take i).map words).sum) else baseAddr
  timestamp : ∀ i r, requests[i]? = some r → r.timestamp = if i = 0 then timestamp else none

/-- The requests of a bulk write. -/
structure WriteChunks (block : Bool) (baseAddr : UInt32) (data : List UInt32)
    (timestamp : Option UInt64) (ack : Bool) (requests : List CtrlRequest) : Prop extends
    Chunked block baseAddr timestamp (fun r => r.dataVtr.length) requests where
  opCode : ∀ r ∈ requests, r.opCode = if block then .blockWrite else .write
  data : requests.flatMap (fun r => r.dataVtr) = data
  ack : ∀ i r, requests[i]? = some r → r.requireAck = (decide (i + 1 = requests.length) && ack)

/-- The requests of a bulk read. -/
structure ReadChunks (block : Bool) (baseAddr : UInt32) (length : ℕ) (timestamp : Option UInt64)
    (requests : List CtrlRequest) : Prop extends
    Chunked block baseAddr timestamp (fun r => r.reqSize) requests where
  opCode : ∀ r ∈ requests, r.opCode = if block then .blockRead else .read
  length : (requests.map fun r => r.reqSize).sum = length
  bare : ∀ r ∈ requests, r.dataVtr = [] ∧ r.requireAck = true

/-! ## Offsets -/

theorem bulkOffsets_of_lt {numWords offset : ℕ} (h : offset < numWords) :
    bulkOffsets numWords offset = offset :: bulkOffsets numWords (offset + maxDataWords) := by
  rw [bulkOffsets, if_pos h]

theorem bulkOffsets_of_le {numWords offset : ℕ} (h : numWords ≤ offset) :
    bulkOffsets numWords offset = [] := by
  rw [bulkOffsets, if_neg (Nat.not_lt.mpr h)]

theorem getElem?_bulkOffsets {numWords offset i x : ℕ}
    (h : (bulkOffsets numWords offset)[i]? = some x) :
    x = offset + maxDataWords * i ∧ x < numWords := by
  induction i generalizing offset with
  | zero =>
    by_cases hlt : offset < numWords
    · rw [bulkOffsets_of_lt hlt, List.getElem?_cons_zero, Option.some_inj] at h
      exact ⟨by omega, by omega⟩
    · rw [bulkOffsets_of_le (Nat.not_lt.mp hlt)] at h
      cases h
  | succ i ih =>
    by_cases hlt : offset < numWords
    · rw [bulkOffsets_of_lt hlt, List.getElem?_cons_succ] at h
      obtain ⟨hx, hbound⟩ := ih h
      exact ⟨by rw [hx, Nat.mul_succ]; omega, hbound⟩
    · rw [bulkOffsets_of_le (Nat.not_lt.mp hlt)] at h
      cases h

theorem bulkOffsets_eq_map {numWords count : ℕ} (i : ℕ) (hend : numWords ≤ maxDataWords * (i + count))
    (hlast : ∀ j < count, maxDataWords * (i + j) < numWords) :
    bulkOffsets numWords (maxDataWords * i) =
      (List.range' i count).map fun j => maxDataWords * j := by
  induction count generalizing i with
  | zero => exact bulkOffsets_of_le hend
  | succ count ih =>
    have hfirst : maxDataWords * i < numWords := hlast 0 (Nat.succ_pos count)
    rw [bulkOffsets_of_lt hfirst, ← Nat.mul_succ, List.range'_succ, List.map_cons, ih (i + 1)]
    · rw [Nat.add_right_comm]
      exact hend
    · intro j hj
      rw [Nat.add_assoc, Nat.add_comm 1 j]
      exact hlast (j + 1) (Nat.succ_lt_succ hj)

theorem mem_bulkOffsets {numWords x : ℕ} (h : x ∈ bulkOffsets numWords 0) : x < numWords := by
  obtain ⟨i, hi⟩ := List.getElem?_of_mem h
  exact (getElem?_bulkOffsets hi).2

theorem sum_chunkSizes (numWords offset : ℕ) :
    ((bulkOffsets numWords offset).map (chunkSize numWords)).sum = numWords - offset := by
  induction offset using bulkOffsets.induct numWords with
  | case1 offset hlt ih =>
    rw [bulkOffsets_of_lt hlt, List.map_cons, List.sum_cons, ih, chunkSize, maxDataWords]
    omega
  | case2 offset hge =>
    rw [bulkOffsets_of_le (Nat.not_lt.mp hge), List.map_nil, List.sum_nil]
    omega

theorem sum_chunkSizes_take {numWords offset i x : ℕ}
    (h : (bulkOffsets numWords offset)[i]? = some x) :
    (((bulkOffsets numWords offset).take i).map (chunkSize numWords)).sum = x - offset := by
  induction i generalizing offset with
  | zero =>
    rw [List.take_zero, List.map_nil, List.sum_nil, (getElem?_bulkOffsets h).1]
    omega
  | succ i ih =>
    obtain ⟨hx, hbound⟩ := getElem?_bulkOffsets h
    rw [Nat.mul_succ] at hx
    have hlt : offset < numWords := by omega
    rw [bulkOffsets_of_lt hlt] at h ⊢
    rw [List.getElem?_cons_succ] at h
    rw [List.take_succ_cons, List.map_cons, List.sum_cons, ih h, chunkSize]
    -- a chunk before another one is full
    rw [maxDataWords] at *
    omega

theorem last_chunk_iff {numWords offset i x : ℕ}
    (h : (bulkOffsets numWords offset)[i]? = some x) :
    i + 1 = (bulkOffsets numWords offset).length ↔ numWords ≤ x + chunkSize numWords x := by
  obtain ⟨hx, hbound⟩ := getElem?_bulkOffsets h
  have hlength := (List.getElem?_eq_some_iff.mp h).1
  constructor
  · intro hlast
    by_contra hnot
    -- otherwise there is a next chunk
    have htotal := sum_chunkSizes numWords offset
    rw [← List.take_of_length_le (Nat.le_of_eq hlast.symm), List.take_add_one, List.map_append,
      List.sum_append, sum_chunkSizes_take h, h, Option.toList_some, List.map_singleton,
      List.sum_singleton] at htotal
    omega
  · intro hend
    by_contra hnot
    have hnext : i + 1 < (bulkOffsets numWords offset).length := by omega
    obtain ⟨hy, hybound⟩ := getElem?_bulkOffsets (List.getElem?_eq_getElem hnext)
    rw [Nat.mul_succ] at hy
    rw [chunkSize] at hend
    omega

theorem flatMap_chunks (data : List UInt32) (offset : ℕ) :
    (bulkOffsets data.length offset).flatMap
      (fun x => (data.drop x).take (chunkSize data.length x)) = data.drop offset := by
  induction offset using bulkOffsets.induct data.length with
  | case1 offset hlt ih =>
    rw [bulkOffsets_of_lt hlt, List.flatMap_cons, ih]
    by_cases hfull : maxDataWords ≤ data.length - offset
    · rw [chunkSize, Nat.min_eq_left hfull, ← List.drop_drop, List.take_append_drop]
    · rw [chunkSize, Nat.min_eq_right (by omega), List.take_of_length_le (by
        rw [List.length_drop]), List.drop_eq_nil_of_le (by omega : data.length ≤ offset + maxDataWords), List.append_nil]
  | case2 offset hge =>
    rw [bulkOffsets_of_le (Nat.not_lt.mp hge), List.flatMap_nil,
      List.drop_eq_nil_of_le (by omega)]

/-! ## Requests -/

theorem chunkSize_bounds {numWords offset : ℕ} (h : offset < numWords) :
    1 ≤ chunkSize numWords offset ∧ chunkSize numWords offset ≤ maxDataWords := by
  rw [chunkSize, maxDataWords]
  omega

theorem chunked_of_request {block : Bool} {baseAddr : UInt32} {timestamp : Option UInt64}
    {words : CtrlRequest → ℕ} {numWords : ℕ} {request : ℕ → CtrlRequest}
    (hwords : ∀ x < numWords, words (request x) = chunkSize numWords x)
    (haddress : ∀ x, (request x).address = bulkAddress block baseAddr x)
    (htimestamp : ∀ x, (request x).timestamp = if x = 0 then timestamp else none) :
    Chunked block baseAddr timestamp words ((bulkOffsets numWords 0).map request) := by
  have hindex : ∀ (i : ℕ) (r : CtrlRequest), ((bulkOffsets numWords 0).map request)[i]? = some r →
      ∃ x, (bulkOffsets numWords 0)[i]? = some x ∧ request x = r := by
    intro i r hr
    rw [List.getElem?_map, Option.map_eq_some_iff] at hr
    exact hr
  refine ⟨fun r hr => ?_, fun i r hr => ?_, fun i r hr => ?_⟩
  · obtain ⟨x, hx, rfl⟩ := List.mem_map.mp hr
    rw [hwords x (mem_bulkOffsets hx)]
    exact chunkSize_bounds (mem_bulkOffsets hx)
  · obtain ⟨x, hx, rfl⟩ := hindex i r hr
    have hsum : (((bulkOffsets numWords 0).map request).take i).map words =
        ((bulkOffsets numWords 0).take i).map (chunkSize numWords) := by
      rw [← List.map_take, List.map_map]
      refine List.map_congr_left fun y hy => ?_
      exact hwords y (mem_bulkOffsets (List.mem_of_mem_take hy))
    rw [haddress, hsum, sum_chunkSizes_take hx, bulkAddress, Nat.sub_zero, Nat.mul_comm]
  · obtain ⟨x, hx, rfl⟩ := hindex i r hr
    have hpos := (getElem?_bulkOffsets hx).1
    rw [htimestamp]
    by_cases hi : i = 0
    · rw [if_pos hi, if_pos (by rw [hpos, hi, Nat.mul_zero])]
    · rw [if_neg hi, if_neg]
      rw [hpos, maxDataWords]
      omega

theorem writeChunks (block : Bool) (baseAddr : UInt32) (data : List UInt32)
    (timestamp : Option UInt64) (ack : Bool) :
    WriteChunks block baseAddr data timestamp ack
      (writeRequests block baseAddr data timestamp ack) where
  toChunked := chunked_of_request
    (fun x hx => by
      show ((data.drop x).take (chunkSize data.length x)).length = _
      rw [List.length_take, List.length_drop, chunkSize]
      omega)
    (fun _ => rfl) (fun _ => rfl)
  opCode r hr := by
    obtain ⟨x, -, rfl⟩ := List.mem_map.mp hr
    rfl
  data := by
    rw [writeRequests, List.flatMap_map]
    exact flatMap_chunks data 0
  ack i r hr := by
    rw [writeRequests] at hr ⊢
    rw [List.getElem?_map, Option.map_eq_some_iff] at hr
    obtain ⟨x, hx, rfl⟩ := hr
    show (if data.length ≤ x + chunkSize data.length x then ack else false) = _
    have hlast := last_chunk_iff hx
    rw [List.length_map]
    by_cases hend : data.length ≤ x + chunkSize data.length x
    · rw [if_pos hend, decide_eq_true (hlast.mpr hend), Bool.true_and]
    · rw [if_neg hend, decide_eq_false fun h => hend (hlast.mp h), Bool.false_and]

theorem readChunks (block : Bool) (baseAddr : UInt32) (length : ℕ) (timestamp : Option UInt64) :
    ReadChunks block baseAddr length timestamp
      (readRequests block baseAddr length timestamp) where
  toChunked := chunked_of_request (fun _ _ => rfl) (fun _ => rfl) (fun _ => rfl)
  opCode r hr := by
    obtain ⟨x, -, rfl⟩ := List.mem_map.mp hr
    rfl
  length := by
    rw [readRequests, List.map_map]
    exact (sum_chunkSizes length 0).trans (Nat.sub_zero length)
  bare r hr := by
    obtain ⟨x, -, rfl⟩ := List.mem_map.mp hr
    exact ⟨rfl, rfl⟩

end Rfnoc
end UhdHost
