import UhdHost.Rfnoc.ChdrHeader
import UhdHost.Types.Endianness

/-!
# Management payloads

`mgmt_payload` of `uhd/rfnoc/chdr_types.hpp` and `rfnoc/chdr_types.cpp`: a header and a list of
hops, each of them a list of operations.  The header and every operation take one CHDR word: a word
of 64 bits, and as many words of padding as the width asks for.  The lowest byte of an operation
counts the operations of the hop that come after it, so the hop ends with the operation that has
none.

## Reading

`deserialize` copies words into a list and takes them off its front.  Which words are copied depends
on the padding of the object *before* the call.  What the standard library does not define, taking
an element off an empty list, is a result of its own (`MgmtFault.emptyList`).

## Sizes

What `serialize` writes has the size that `get_size_bytes` says.  `get_length` counts the padding
once for a hop and not once for an operation, and is right only where that is no difference
(`serialized_size_iff`).
-/

namespace UhdHost
namespace Rfnoc

/-- The value of `chdr_w_t`. -/
def ChdrW.code : ChdrW → BitVec 3
  | .w64 => 0
  | .w128 => 1
  | .w256 => 2
  | .w512 => 3

namespace Chdr

/-- `chdr_w_to_bits`, for whatever three bits say. -/
def chdrWToBits (code : BitVec 3) : ℕ :=
  if code = 0 then 64
  else if code = 1 then 128
  else if code = 2 then 256
  else if code = 3 then 512
  else 0

/-- `(chdr_w_to_bits(_chdr_w) / 64) - 1`, as a number of 64 bits -/
def paddingOf (code : BitVec 3) : ℕ := (chdrWToBits code / 64 + (2 ^ 64 - 1)) % 2 ^ 64

theorem chdrWToBits_code (w : ChdrW) : chdrWToBits w.code = w.bits := by cases w <;> decide

theorem paddingOf_code (w : ChdrW) : paddingOf w.code + 1 = w.stride := by cases w <;> decide

/-- `mgmt_op_t` -/
structure MgmtOp where
  /-- The code of the operation, 8 bits. -/
  opCode : BitVec 8
  /-- The payload, 48 bits. -/
  opPayload : BitVec 64 := 0
  /-- `_ops_pending` -/
  opsPending : BitVec 8 := 0
  deriving DecidableEq, Repr

/-- What `operator==` of `mgmt_op_t` compares. -/
def MgmtOp.key (op : MgmtOp) : BitVec 8 × BitVec 64 := (op.opCode, op.opPayload)

/-- `mgmt_hop_t` -/
structure MgmtHop where
  /-- `_ops` -/
  ops : List MgmtOp := []
  deriving DecidableEq, Repr

/-- What `operator==` of `mgmt_hop_t` compares. -/
def MgmtHop.key (hop : MgmtHop) : List (BitVec 8 × BitVec 64) := hop.ops.map MgmtOp.key

/-- `mgmt_payload`.  Whoever sets the width sets the padding too. -/
structure MgmtPayload where
  srcEpid : BitVec 16 := 0
  protover : BitVec 16 := 0
  /-- `_chdr_w` -/
  chdrW : BitVec 3 := 0
  paddingSize : ℕ := 0
  hops : List MgmtHop := []
  padding_eq : paddingSize = paddingOf chdrW := by decide

/-- Reading a payload has failed. -/
inductive MgmtFault where
  | thrown (e : UhdError)
  /-- `front` or `pop_front` of an empty list -/
  | emptyList
  deriving DecidableEq, Repr

/-! ## Writing -/

/-- The word of an operation that so many others of the hop come after. -/
def MgmtOp.word (op : MgmtOp) (left : ℕ) : BitVec 64 :=
  (op.opPayload <<< 16) ||| (op.opCode.setWidth 64 <<< 8) ||| (BitVec.ofNat 64 left <<< 0)

/-- `mgmt_hop_t::serialize`, of the operations from one on -/
def MgmtHop.serialize (conv : BitVec 64 → BitVec 64) (paddingSize : ℕ) :
    List MgmtOp → List (BitVec 64)
  | [] => []
  | op :: ops =>
    conv (op.word ops.length) :: (List.replicate paddingSize 0 ++ serialize conv paddingSize ops)

namespace MgmtPayload

/-- `operator==` -/
def Same (p q : MgmtPayload) : Prop :=
  p.srcEpid = q.srcEpid ∧ p.protover = q.protover ∧ p.chdrW = q.chdrW ∧
    p.hops.map MgmtHop.key = q.hops.map MgmtHop.key ∧ p.paddingSize = q.paddingSize

/-- The header word. -/
def header (p : MgmtPayload) : BitVec 64 :=
  (p.protover.setWidth 64 <<< 48) ||| ((p.chdrW.setWidth 64 &&& 0x7) <<< 45) |||
    ((BitVec.ofNat 64 p.hops.length &&& 0x3FF) <<< 16) ||| (p.srcEpid.setWidth 64 <<< 0)

/-- The words that `serialize` collects. -/
def target (p : MgmtPayload) (conv : BitVec 64 → BitVec 64) : List (BitVec 64) :=
  conv p.header :: (List.replicate p.paddingSize 0 ++
    p.hops.flatMap fun hop => MgmtHop.serialize conv p.paddingSize hop.ops)

/-- `serialize`: the words that are written, and the number of bytes that is returned. -/
def serialize (p : MgmtPayload) (maxSizeBytes : ℕ) (conv : BitVec 64 → BitVec 64) :
    Except UhdError (List (BitVec 64) × ℕ) :=
  if (p.target conv).length * 8 ≤ maxSizeBytes then
    .ok (p.target conv, (p.target conv).length * 8)
  else .error (.assertionError "target.size() * sizeof(uint64_t) <= max_size_bytes")

/-- `get_length` -/
def getLength (p : MgmtPayload) : ℕ :=
  ((p.hops.map fun hop => hop.ops.length + p.paddingSize).sum + (1 + p.paddingSize)) * 8

/-- `get_size_bytes` -/
def getSizeBytes (p : MgmtPayload) : ℕ :=
  (1 + (p.hops.map fun hop => hop.ops.length).sum) * (chdrWToBits p.chdrW / 8)

end MgmtPayload

/-! ## Reading -/

/-- So many calls of `pop_front`. -/
def popFronts : ℕ → List (BitVec 64) → Except MgmtFault (List (BitVec 64))
  | 0, src => .ok src
  | _ + 1, [] => .error .emptyList
  | n + 1, _ :: src => popFronts n src

theorem popFronts_eq (n : ℕ) (src : List (BitVec 64)) :
    popFronts n src = if n ≤ src.length then .ok (src.drop n) else .error .emptyList := by
  induction n generalizing src with
  | zero => rfl
  | succ n ih =>
    cases src with
    | nil => rfl
    | cons front src =>
      rw [popFronts, ih src, List.drop_succ_cons, List.length_cons]
      simp only [Nat.add_le_add_iff_right]

theorem length_of_popFronts {n : ℕ} {src rest : List (BitVec 64)}
    (h : popFronts n src = .ok rest) : rest.length ≤ src.length := by
  rw [popFronts_eq] at h
  split_ifs at h
  obtain rfl := Except.ok.inj h
  rw [List.length_drop]
  exact Nat.sub_le _ _

/-- The operation that a word holds. -/
def MgmtOp.ofWord (opWord : BitVec 64) : MgmtOp where
  opCode := ((opWord >>> 8) &&& 0xFF).setWidth 8
  opPayload := opWord >>> 16
  opsPending := (opWord &&& 0xFF).setWidth 8

/-- `mgmt_hop_t::deserialize`: the operations, and what is left of the list. -/
def MgmtHop.deserialize (conv : BitVec 64 → BitVec 64) (paddingSize : ℕ)
    (src : List (BitVec 64)) : Except MgmtFault (List MgmtOp × List (BitVec 64)) :=
  match src with
  | [] => .error (.thrown (.assertionError "!src.empty()"))
  | front :: src =>
    match _ : popFronts paddingSize src with
    | .error fault => .error fault
    | .ok rest =>
      if conv front &&& 0xFF = 0 then .ok ([MgmtOp.ofWord (conv front)], rest)
      else
        match deserialize conv paddingSize rest with
        | .error fault => .error fault
        | .ok (ops, rest) => .ok (MgmtOp.ofWord (conv front) :: ops, rest)
termination_by src.length
decreasing_by
  have := length_of_popFronts ‹popFronts paddingSize src = .ok rest›
  rw [List.length_cons]
  omega

/-- The loop over the hops. -/
def deserializeHops (conv : BitVec 64 → BitVec 64) (paddingSize : ℕ) :
    ℕ → List (BitVec 64) → Except MgmtFault (List MgmtHop × List (BitVec 64))
  | 0, src => .ok ([], src)
  | n + 1, src =>
    match MgmtHop.deserialize conv paddingSize src with
    | .error fault => .error fault
    | .ok (ops, rest) =>
      match deserializeHops conv paddingSize n rest with
      | .error fault => .error fault
      | .ok (hops, rest) => .ok (⟨ops⟩ :: hops, rest)

/-- A call of `deserialize`. -/
structure MgmtRead where
  /-- The words that were read, from the start of the buffer on. -/
  reads : ℕ
  result : Except MgmtFault MgmtPayload

namespace MgmtPayload

/-- The number of hops that a header announces. -/
def numHops (hdr : BitVec 64) : ℕ := ((hdr >>> 16) &&& 0x3FF).toNat

/-- The width that a header announces. -/
def widthCode (hdr : BitVec 64) : BitVec 3 := ((hdr >>> 45) &&& 0x7).setWidth 3

/-- The payload with the fields of a header. -/
def ofHeader (hdr : BitVec 64) (hops : List MgmtHop) : MgmtPayload where
  srcEpid := (hdr &&& 0xFFFF).setWidth 16
  protover := ((hdr >>> 48) &&& 0xFFFF).setWidth 16
  chdrW := widthCode hdr
  paddingSize := paddingOf (widthCode hdr)
  hops := hops
  padding_eq := rfl

/-- What comes after the header word: its padding, and the hops. -/
def deframeHops (conv : BitVec 64 → BitVec 64) (hdr : BitVec 64) (paddingSize : ℕ)
    (src : List (BitVec 64)) : Except MgmtFault MgmtPayload :=
  match popFronts paddingSize src with
  | .error fault => .error fault
  | .ok src =>
    match deserializeHops conv paddingSize (numHops hdr) src with
    | .error fault => .error fault
    | .ok (hops, _) => .ok (ofHeader hdr hops)

/-- What is made of the words that were copied. -/
def deframe (conv : BitVec 64 → BitVec 64) : List (BitVec 64) → Except MgmtFault MgmtPayload
  | [] => .error .emptyList
  | front :: src => deframeHops conv (conv front) (paddingOf (widthCode (conv front))) src

/-- `deserialize`, on an object that holds a payload, with the memory that starts at the buffer -/
def deserialize (old : MgmtPayload) (buff : ℕ → BitVec 64) (buffSize : ℕ)
    (conv : BitVec 64 → BitVec 64) : MgmtRead :=
  if 1 < buffSize then
    let copied := buffSize * (old.paddingSize + 1) % 2 ^ 64
    { reads := copied, result := deframe conv ((List.range copied).map buff) }
  else { reads := 0, result := .error (.thrown (.assertionError "buff_size > 1")) }

end MgmtPayload

/-! ## Sizes -/

variable (conv : BitVec 64 → BitVec 64)

theorem length_hop_serialize (paddingSize : ℕ) (ops : List MgmtOp) :
    (MgmtHop.serialize conv paddingSize ops).length = ops.length * (paddingSize + 1) := by
  induction ops with
  | nil => rw [MgmtHop.serialize, List.length_nil, List.length_nil, Nat.zero_mul]
  | cons op ops ih =>
    rw [MgmtHop.serialize, List.length_cons, List.length_append, List.length_replicate, ih,
      List.length_cons]
    ring

namespace MgmtPayload

/-- The number of operations. -/
def numOps (p : MgmtPayload) : ℕ := (p.hops.map fun hop => hop.ops.length).sum

theorem length_target (p : MgmtPayload) :
    (p.target conv).length = (1 + p.numOps) * (p.paddingSize + 1) := by
  have hhops : ∀ hops : List MgmtHop,
      (hops.flatMap fun hop => MgmtHop.serialize conv p.paddingSize hop.ops).length =
        (hops.map fun hop => hop.ops.length).sum * (p.paddingSize + 1) := by
    intro hops
    induction hops with
    | nil => rw [List.flatMap_nil, List.length_nil, List.map_nil, List.sum_nil, Nat.zero_mul]
    | cons hop hops ih =>
      rw [List.flatMap_cons, List.length_append, length_hop_serialize, ih, List.map_cons,
        List.sum_cons, Nat.add_mul]
  rw [target, List.length_cons, List.length_append, List.length_replicate, hhops, numOps]
  ring

theorem getLength_eq (p : MgmtPayload) :
    p.getLength = (1 + p.numOps + p.paddingSize * (1 + p.hops.length)) * 8 := by
  have hsum : ∀ hops : List MgmtHop, (hops.map fun hop => hop.ops.length + p.paddingSize).sum =
      (hops.map fun hop => hop.ops.length).sum + p.paddingSize * hops.length := by
    intro hops
    induction hops with
    | nil => rfl
    | cons hop hops ih =>
      rw [List.map_cons, List.sum_cons, ih, List.map_cons, List.sum_cons, List.length_cons]
      ring
  rw [getLength, hsum, numOps]
  ring

/-- A request for what a node is, with a CHDR width of 128 bits. -/
def probe : MgmtPayload where
  chdrW := ChdrW.w128.code
  paddingSize := 1
  hops := [⟨[⟨1, 0, 0⟩, ⟨4, 0, 0⟩]⟩]

/-- **The sizes.**  A payload of a width is written in `get_size_bytes` bytes; that is
`get_length` exactly if the width is 64 bits or there are as many operations as hops. -/
theorem serialized_size_iff (p : MgmtPayload) (w : ChdrW) (hw : p.chdrW = w.code) :
    (∀ maxSizeBytes out, p.serialize maxSizeBytes conv = .ok out →
        8 * out.1.length = out.2 ∧ out.2 = p.getLength ∧ out.2 = p.getSizeBytes) ↔
      w = .w64 ∨ p.numOps = p.hops.length := by
  have hpad : p.paddingSize + 1 = w.stride := by rw [p.padding_eq, hw, paddingOf_code]
  have hsize : (p.target conv).length * 8 = p.getSizeBytes := by
    have hbits : chdrWToBits p.chdrW / 8 = (p.paddingSize + 1) * 8 := by
      rw [hw, chdrWToBits_code, hpad]
      cases w <;> rfl
    rw [length_target, getSizeBytes, hbits, numOps, Nat.mul_assoc]
  have hlength : (p.target conv).length * 8 = p.getLength ↔
      p.paddingSize * p.numOps = p.paddingSize * p.hops.length := by
    have hexpand : (1 + p.numOps) * (p.paddingSize + 1) =
        1 + p.numOps + (p.paddingSize + p.paddingSize * p.numOps) := by ring
    have hexpand' : p.paddingSize * (1 + p.hops.length) =
        p.paddingSize + p.paddingSize * p.hops.length := by ring
    rw [length_target, getLength_eq, hexpand, hexpand']
    omega
  have hzero : p.paddingSize = 0 ↔ w = .w64 := by
    have hstride : w.stride = 1 ↔ w = .w64 := by cases w <;> decide
    rw [← hstride]
    omega
  rw [← hzero]
  constructor
  · intro h
    have hok : p.serialize ((p.target conv).length * 8) conv =
        .ok (p.target conv, (p.target conv).length * 8) := if_pos (Nat.le_refl _)
    have heq := hlength.mp (h _ _ hok).2.1
    rcases Nat.eq_zero_or_pos p.paddingSize with hnone | hsome
    · exact Or.inl hnone
    · exact Or.inr (Nat.eq_of_mul_eq_mul_left hsome heq)
  · intro h maxSizeBytes out hout
    rw [serialize] at hout
    split_ifs at hout
    obtain rfl := Except.ok.inj hout
    refine ⟨Nat.mul_comm _ _, hlength.mpr ?_, hsize⟩
    rcases h with hnone | heq
    · rw [hnone, Nat.zero_mul, Nat.zero_mul]
    · rw [heq]

theorem serialized_size_iff_probe :
    (∀ maxSizeBytes out, probe.serialize maxSizeBytes id = .ok out →
        8 * out.1.length = out.2 ∧ out.2 = probe.getLength ∧ out.2 = probe.getSizeBytes) ↔
      ChdrW.w128 = .w64 ∨ probe.numOps = probe.hops.length :=
  serialized_size_iff id probe .w128 rfl

/-- 48 bytes are written where `get_length` says 40, so a buffer of `get_length` bytes is
too small. -/
theorem probe_length_short :
    (∃ words, probe.serialize 48 id = .ok (words, 48)) ∧ probe.getSizeBytes = 48 ∧
      probe.getLength = 40 ∧ probe.serialize probe.getLength id =
        .error (.assertionError "target.size() * sizeof(uint64_t) <= max_size_bytes") :=
  ⟨⟨_, rfl⟩, by decide, by decide, rfl⟩

end MgmtPayload
end Chdr
end Rfnoc
end UhdHost
