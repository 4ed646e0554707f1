import UhdHost.Rfnoc.MgmtPayload

/-!
# Reading management payloads

What `mgmt_payload::deserialize` makes of the words that `serialize` has written.

A call copies `buff_size` times as many words as the CHDR width *of the object* has, so only an
object with a width of 64 bits stays within the buffer (`copied_cases`).  From there on the words
are read in lines of the width that the header announces: the header takes the first line, and an
operation every further line.  What was written is read back, by an object with a width of 64 bits,
if it is more than a word (`roundTrip_iff`).
-/

namespace UhdHost
namespace Rfnoc
namespace Chdr

open BitFields

variable {conv : BitVec 64 → BitVec 64}

/-! ## Words -/

theorem mask_0xFFFF : (0xFFFF : BitVec 64) = lowMask 64 16 := by decide

theorem and_0xFF (x : BitVec 64) : x &&& 0xFF = getField x 0 8 := by
  rw [getField, BitVec.ushiftRight_zero]
  rfl

/-- An operation that a word has room for. -/
structure MgmtOp.InRange (op : MgmtOp) (left : ℕ) : Prop where
  payload : op.opPayload.toNat < 2 ^ 48
  left : left < 256

theorem MgmtOp.InRange.word_eq {op : MgmtOp} {left : ℕ} (h : op.InRange left) :
    op.word left = field op.opPayload 16 48 ||| field (op.opCode.setWidth 64) 8 8 |||
      field (BitVec.ofNat 64 left) 0 8 := by
  have hcode : (op.opCode.setWidth 64).toNat < 2 ^ 8 := by
    rw [toNat_setWidth_of_le _ (by decide)]
    exact op.opCode.isLt
  have hleft : (BitVec.ofNat 64 left).toNat < 2 ^ 8 := by
    rw [BitVec.toNat_ofNat]
    exact Nat.lt_of_le_of_lt (Nat.mod_le _ _) h.left
  rw [MgmtOp.word, field, field, field, and_lowMask_of_lt (by decide) h.payload,
    and_lowMask_of_lt (by decide) hcode, and_lowMask_of_lt (by decide) hleft]

theorem MgmtOp.InRange.count_word {op : MgmtOp} {left : ℕ} (h : op.InRange left) :
    op.word left &&& 0xFF = 0 ↔ left = 0 := by
  have hleft : (BitVec.ofNat 64 left).toNat = left := by
    rw [BitVec.toNat_ofNat]
    exact Nat.mod_eq_of_lt (Nat.lt_trans h.left (by decide))
  have hlt : (BitVec.ofNat 64 left).toNat < 2 ^ 8 := by
    rw [hleft]
    exact h.left
  have hcount : op.word left &&& 0xFF = BitVec.ofNat 64 left := by
    rw [and_0xFF, h.word_eq, getField_or, getField_or,
      getField_field_of_disjoint _ (by decide) (by decide) (by decide),
      getField_field_of_disjoint _ (by decide) (by decide) (by decide),
      getField_field _ (by decide) (by decide), and_lowMask_of_lt (by decide) hlt,
      BitVec.or_zero, BitVec.zero_or]
  rw [hcount]
  constructor
  · intro hzero
    rw [← hleft, hzero]
    rfl
  · rintro rfl
    rfl

theorem MgmtOp.InRange.key_ofWord {op : MgmtOp} {left : ℕ} (h : op.InRange left) :
    (MgmtOp.ofWord (op.word left)).key = op.key := by
  have hcode : (op.opCode.setWidth 64).toNat < 2 ^ 8 := by
    rw [toNat_setWidth_of_le _ (by decide)]
    exact op.opCode.isLt
  have hreadCode : (op.word left >>> 8) &&& 0xFF = op.opCode.setWidth 64 := by
    have hmask : (op.word left >>> 8) &&& 0xFF = getField (op.word left) 8 8 := rfl
    rw [hmask, h.word_eq, getField_or, getField_or,
      getField_field_of_disjoint _ (by decide) (by decide) (by decide),
      getField_field _ (by decide) (by decide),
      getField_field_of_disjoint _ (by decide) (by decide) (by decide),
      and_lowMask_of_lt (by decide) hcode, BitVec.or_zero, BitVec.zero_or]
  have hreadPayload : op.word left >>> 16 = op.opPayload := by
    have hmask : op.word left >>> 16 = getField (op.word left) 16 48 := by
      rw [getField, and_lowMask_of_lt (by decide)]
      rw [BitVec.toNat_ushiftRight, Nat.shiftRight_eq_div_pow]
      exact Nat.div_lt_of_lt_mul (op.word left).isLt
    rw [hmask, h.word_eq, getField_or, getField_or, getField_field _ (by decide) (by decide),
      getField_field_of_disjoint _ (by decide) (by decide) (by decide),
      getField_field_of_disjoint _ (by decide) (by decide) (by decide),
      and_lowMask_of_lt (by decide) h.payload, BitVec.or_zero, BitVec.or_zero]
  rw [MgmtOp.key, MgmtOp.ofWord, MgmtOp.key, hreadCode, hreadPayload,
    setWidth_setWidth_of_le _ (by decide)]

/-! ## Lines -/

theorem hop_deserialize_nil (conv : BitVec 64 → BitVec 64) (paddingSize : ℕ) :
    MgmtHop.deserialize conv paddingSize [] =
      .error (.thrown (.assertionError "!src.empty()")) := by
  rw [MgmtHop.deserialize]

theorem hop_deserialize_short (conv : BitVec 64 → BitVec 64) {paddingSize : ℕ} (front : BitVec 64)
    {src : List (BitVec 64)} (hshort : src.length < paddingSize) :
    MgmtHop.deserialize conv paddingSize (front :: src) = .error .emptyList := by
  rw [MgmtHop.deserialize]
  split
  · next fault hpop =>
    rw [popFronts_eq, if_neg (Nat.not_le.mpr hshort)] at hpop
    rw [← Except.error.inj hpop]
  · next rest hpop =>
    rw [popFronts_eq, if_neg (Nat.not_le.mpr hshort)] at hpop
    cases hpop

theorem hop_deserialize_line (conv : BitVec 64 → BitVec 64) {paddingSize : ℕ} (front : BitVec 64)
    {src : List (BitVec 64)} (hline : paddingSize ≤ src.length) :
    MgmtHop.deserialize conv paddingSize (front :: src) =
      if conv front &&& 0xFF = 0 then .ok ([MgmtOp.ofWord (conv front)], src.drop paddingSize)
      else
        match MgmtHop.deserialize conv paddingSize (src.drop paddingSize) with
        | .error fault => .error fault
        | .ok (ops, rest) => .ok (MgmtOp.ofWord (conv front) :: ops, rest) := by
  rw [MgmtHop.deserialize]
  split
  · next fault hpop =>
    rw [popFronts_eq, if_pos hline] at hpop
    cases hpop
  · next rest hpop =>
    rw [popFronts_eq, if_pos hline] at hpop
    obtain rfl := Except.ok.inj hpop
    rfl

/-! ## What was written -/

/-- A hop that can be written. -/
structure MgmtHop.InRange (hop : MgmtHop) : Prop where
  nonempty : hop.ops ≠ []
  atMost : hop.ops.length ≤ 256
  payload : ∀ op ∈ hop.ops, op.opPayload.toNat < 2 ^ 48

theorem hop_deserialize_serialize (hconv : ∀ x, conv (conv x) = x) (paddingSize : ℕ)
    (rest : List (BitVec 64)) (ops : List MgmtOp) (hnonempty : ops ≠ []) (hatMost : ops.length ≤ 256)
    (hpayload : ∀ op ∈ ops, op.opPayload.toNat < 2 ^ 48) :
    ∃ ops', MgmtHop.deserialize conv paddingSize
        (MgmtHop.serialize conv paddingSize ops ++ rest) = .ok (ops', rest) ∧
      ops'.map MgmtOp.key = ops.map MgmtOp.key := by
  induction ops with
  | nil => exact absurd rfl hnonempty
  | cons op ops ih =>
    rw [List.length_cons] at hatMost
    have hop : op.InRange ops.length := ⟨hpayload op List.mem_cons_self, by omega⟩
    rw [MgmtHop.serialize, List.cons_append, List.append_assoc, hop_deserialize_line conv _ (by
      rw [List.length_append, List.length_replicate]
      exact Nat.le_add_right _ _), hconv, List.drop_left' List.length_replicate]
    by_cases hlast : ops = []
    · subst hlast
      rw [if_pos (hop.count_word.mpr rfl)]
      refine ⟨_, rfl, ?_⟩
      rw [List.map_singleton, List.map_singleton, hop.key_ofWord]
    · obtain ⟨ops', hread, hkeys⟩ := ih hlast (by omega) fun op' hmem =>
        hpayload op' (List.mem_cons_of_mem _ hmem)
      have hmore : ¬ op.word ops.length &&& 0xFF = 0 := fun hzero =>
        hlast (List.length_eq_zero_iff.mp (hop.count_word.mp hzero))
      rw [if_neg hmore, hread]
      refine ⟨_, rfl, ?_⟩
      rw [List.map_cons, List.map_cons, hop.key_ofWord, hkeys]

theorem hops_deserialize_serialize (hconv : ∀ x, conv (conv x) = x) (paddingSize : ℕ)
    (hops : List MgmtHop) (hhops : ∀ hop ∈ hops, hop.InRange) :
    ∃ hops', deserializeHops conv paddingSize hops.length
        (hops.flatMap fun hop => MgmtHop.serialize conv paddingSize hop.ops) = .ok (hops', []) ∧
      hops'.map MgmtHop.key = hops.map MgmtHop.key := by
  induction hops with
  | nil => exact ⟨[], rfl, rfl⟩
  | cons hop hops ih =>
    obtain ⟨hops', hread, hkeys⟩ := ih fun hop' hmem => hhops hop' (List.mem_cons_of_mem _ hmem)
    have hhop := hhops hop List.mem_cons_self
    obtain ⟨ops', hreadHop, hkeysHop⟩ := hop_deserialize_serialize hconv paddingSize
      (hops.flatMap fun hop => MgmtHop.serialize conv paddingSize hop.ops) hop.ops hhop.nonempty
      hhop.atMost hhop.payload
    rw [List.length_cons, List.flatMap_cons, deserializeHops, hreadHop]
    dsimp only
    rw [hread]
    refine ⟨_, rfl, ?_⟩
    rw [List.map_cons, List.map_cons, hkeys, MgmtHop.key, MgmtHop.key, hkeysHop]

namespace MgmtPayload

/-- A payload that can be written. -/
structure InRange (p : MgmtPayload) : Prop where
  atMost : p.hops.length ≤ 1023
  hops : ∀ hop ∈ p.hops, hop.InRange

theorem header_eq (p : MgmtPayload) :
    p.header = field (p.protover.setWidth 64) 48 16 ||| field (p.chdrW.setWidth 64) 45 3 |||
      field (BitVec.ofNat 64 p.hops.length) 16 10 ||| field (p.srcEpid.setWidth 64) 0 16 := by
  have hprotover : (p.protover.setWidth 64).toNat < 2 ^ 16 := by
    rw [toNat_setWidth_of_le _ (by decide)]
    exact p.protover.isLt
  have hsrcEpid : (p.srcEpid.setWidth 64).toNat < 2 ^ 16 := by
    rw [toNat_setWidth_of_le _ (by decide)]
    exact p.srcEpid.isLt
  rw [header, field, field, field, field, and_lowMask_of_lt (by decide) hprotover,
    and_lowMask_of_lt (by decide) hsrcEpid]
  rfl

theorem numHops_header (p : MgmtPayload) (hatMost : p.hops.length ≤ 1023) :
    numHops p.header = p.hops.length := by
  have hlt : p.hops.length < 2 ^ 10 := by omega
  have hcount : (BitVec.ofNat 64 p.hops.length).toNat = p.hops.length := by
    rw [BitVec.toNat_ofNat]
    exact Nat.mod_eq_of_lt (Nat.lt_trans hlt (by decide))
  have hfits : (BitVec.ofNat 64 p.hops.length).toNat < 2 ^ 10 := by
    rw [hcount]
    exact hlt
  have hmask : (p.header >>> 16) &&& 0x3FF = getField p.header 16 10 := rfl
  rw [numHops, hmask, p.header_eq, getField_or, getField_or, getField_or,
    getField_field_of_disjoint _ (by decide) (by decide) (by decide),
    getField_field_of_disjoint _ (by decide) (by decide) (by decide),
    getField_field _ (by decide) (by decide),
    getField_field_of_disjoint _ (by decide) (by decide) (by decide),
    and_lowMask_of_lt (by decide) hfits, BitVec.or_zero, BitVec.or_zero, BitVec.zero_or,
    hcount]

theorem widthCode_header (p : MgmtPayload) :
    widthCode p.header = p.chdrW := by
  have hwidth : (p.chdrW.setWidth 64).toNat < 2 ^ 3 := by
    rw [toNat_setWidth_of_le _ (by decide)]
    exact p.chdrW.isLt
  have hmask : (p.header >>> 45) &&& 0x7 = getField p.header 45 3 := rfl
  rw [widthCode, hmask, p.header_eq, getField_or, getField_or, getField_or,
    getField_field_of_disjoint _ (by decide) (by decide) (by decide),
    getField_field _ (by decide) (by decide),
    getField_field_of_disjoint _ (by decide) (by decide) (by decide),
    getField_field_of_disjoint _ (by decide) (by decide) (by decide),
    and_lowMask_of_lt (by decide) hwidth, BitVec.or_zero, BitVec.or_zero, BitVec.zero_or,
    setWidth_setWidth_of_le _ (by decide)]

theorem srcEpid_header (p : MgmtPayload) :
    (p.header &&& 0xFFFF).setWidth 16 = p.srcEpid := by
  have hsrcEpid : (p.srcEpid.setWidth 64).toNat < 2 ^ 16 := by
    rw [toNat_setWidth_of_le _ (by decide)]
    exact p.srcEpid.isLt
  have hmask : p.header &&& 0xFFFF = getField p.header 0 16 := by
    rw [getField, BitVec.ushiftRight_zero, mask_0xFFFF]
  rw [hmask, p.header_eq, getField_or, getField_or, getField_or,
    getField_field_of_disjoint _ (by decide) (by decide) (by decide),
    getField_field_of_disjoint _ (by decide) (by decide) (by decide),
    getField_field_of_disjoint _ (by decide) (by decide) (by decide),
    getField_field _ (by decide) (by decide), and_lowMask_of_lt (by decide) hsrcEpid,
    BitVec.or_zero, BitVec.zero_or, BitVec.zero_or, setWidth_setWidth_of_le _ (by decide)]

theorem protover_header (p : MgmtPayload) :
    ((p.header >>> 48) &&& 0xFFFF).setWidth 16 = p.protover := by
  have hprotover : (p.protover.setWidth 64).toNat < 2 ^ 16 := by
    rw [toNat_setWidth_of_le _ (by decide)]
    exact p.protover.isLt
  have hmask : (p.header >>> 48) &&& 0xFFFF = getField p.header 48 16 := by
    rw [getField, mask_0xFFFF]
  rw [hmask, p.header_eq, getField_or, getField_or, getField_or,
    getField_field _ (by decide) (by decide),
    getField_field_of_disjoint _ (by decide) (by decide) (by decide),
    getField_field_of_disjoint _ (by decide) (by decide) (by decide),
    getField_field_of_disjoint _ (by decide) (by decide) (by decide),
    and_lowMask_of_lt (by decide) hprotover, BitVec.or_zero, BitVec.or_zero, BitVec.or_zero,
    setWidth_setWidth_of_le _ (by decide)]

theorem deframe_target (hconv : ∀ x, conv (conv x) = x) (p : MgmtPayload) (hp : p.InRange) :
    ∃ q, deframe conv (p.target conv) = .ok q ∧ q.Same p := by
  obtain ⟨hops', hread, hkeys⟩ := hops_deserialize_serialize hconv p.paddingSize p.hops hp.hops
  have hpad : paddingOf (widthCode p.header) = p.paddingSize := by
    rw [p.widthCode_header, p.padding_eq]
  have hpop : popFronts p.paddingSize (List.replicate p.paddingSize 0 ++
      p.hops.flatMap fun hop => MgmtHop.serialize conv p.paddingSize hop.ops) =
        .ok (p.hops.flatMap fun hop => MgmtHop.serialize conv p.paddingSize hop.ops) := by
    rw [popFronts_eq, if_pos, List.drop_left' List.length_replicate]
    rw [List.length_append, List.length_replicate]
    exact Nat.le_add_right _ _
  refine ⟨ofHeader p.header hops', ?_, p.srcEpid_header, p.protover_header, p.widthCode_header,
    hkeys, hpad⟩
  rw [target, deframe, hconv, hpad, deframeHops, hpop]
  dsimp only
  rw [p.numHops_header hp.atMost, hread]

/-! ## The words that are copied -/

theorem paddingOf_cases (code : BitVec 3) :
    code = 0 ∧ paddingOf code = 0 ∨
      code ≠ 0 ∧ (paddingOf code = 1 ∨ paddingOf code = 3 ∨ paddingOf code = 7 ∨
        paddingOf code = 2 ^ 64 - 1) := by
  revert code
  decide

theorem copied_cases (old : MgmtPayload) {buffSize : ℕ} (hpos : 0 < buffSize)
    (hsize : 8 * buffSize < 2 ^ 64) :
    old.chdrW = 0 ∧ buffSize * (old.paddingSize + 1) % 2 ^ 64 = buffSize ∨
      old.chdrW ≠ 0 ∧ (buffSize < buffSize * (old.paddingSize + 1) % 2 ^ 64 ∨
        buffSize * (old.paddingSize + 1) % 2 ^ 64 = 0) := by
  rw [old.padding_eq]
  rcases paddingOf_cases old.chdrW with ⟨hcode, hpad⟩ | ⟨hcode, hpad⟩
  · refine Or.inl ⟨hcode, ?_⟩
    rw [hpad]
    omega
  · refine Or.inr ⟨hcode, ?_⟩
    rcases hpad with hpad | hpad | hpad | hpad
    · rw [hpad]
      omega
    · rw [hpad]
      omega
    · rw [hpad]
      omega
    · refine Or.inr ?_
      rw [hpad]
      exact Nat.mul_mod_left _ _

theorem deserialize_of_lt (old : MgmtPayload) (buff : ℕ → BitVec 64) {buffSize : ℕ}
    (hmore : 1 < buffSize) (conv : BitVec 64 → BitVec 64) :
    old.deserialize buff buffSize conv =
      { reads := buffSize * (old.paddingSize + 1) % 2 ^ 64
        result := deframe conv
          ((List.range (buffSize * (old.paddingSize + 1) % 2 ^ 64)).map buff) } :=
  if_pos hmore

theorem InRange.length_target_lt (conv : BitVec 64 → BitVec 64) {p : MgmtPayload} (hp : p.InRange)
    (w : ChdrW) (hw : p.chdrW = w.code) : (p.target conv).length < 2 ^ 22 := by
  have hsum : ∀ hops : List MgmtHop, (∀ hop ∈ hops, hop.InRange) →
      (hops.map fun hop => hop.ops.length).sum ≤ 256 * hops.length := by
    intro hops hhops
    induction hops with
    | nil => exact Nat.le_refl _
    | cons hop hops ih =>
      have hrest := ih fun hop' hmem => hhops hop' (List.mem_cons_of_mem _ hmem)
      have hhop := (hhops hop List.mem_cons_self).atMost
      rw [List.map_cons, List.sum_cons, List.length_cons]
      omega
  have hops : p.numOps ≤ 256 * 1023 :=
    Nat.le_trans (hsum p.hops hp.hops) (Nat.mul_le_mul_left _ hp.atMost)
  have hpad : p.paddingSize + 1 ≤ 8 := by
    rw [p.padding_eq, hw, paddingOf_code]
    exact w.stride_le
  rw [length_target]
  calc (1 + p.numOps) * (p.paddingSize + 1) ≤ (1 + 256 * 1023) * 8 :=
        Nat.mul_le_mul (by omega) hpad
    _ < 2 ^ 22 := by decide

/-- **What was written is read back**, and nothing else is read, exactly if the object that it
is read into has a width of 64 bits, and the words are more than one. -/
theorem roundTrip_iff (host link : Endianness) (p old : MgmtPayload) (w : ChdrW)
    (hw : p.chdrW = w.code) (hp : p.InRange) {maxSizeBytes : ℕ} {out : List (BitVec 64) × ℕ}
    (hout : p.serialize maxSizeBytes (Endianness.conv host link) = .ok out) (buff : ℕ → BitVec 64)
    (hbuff : ∀ i, (hi : i < out.1.length) → buff i = out.1[i]) :
    ((old.deserialize buff out.1.length (Endianness.conv host link)).reads ≤ out.1.length ∧
        ∃ q, (old.deserialize buff out.1.length (Endianness.conv host link)).result = .ok q ∧
          q.Same p) ↔
      old.chdrW = 0 ∧ (w ≠ .w64 ∨ p.hops ≠ []) := by
  have hconv : ∀ x : BitVec 64, Endianness.conv host link (Endianness.conv host link x) = x :=
    Endianness.conv_conv host link (by decide)
  have hwords : out.1 = p.target (Endianness.conv host link) := by
    rw [serialize] at hout
    split_ifs at hout
    rw [← Except.ok.inj hout]
  rw [hwords] at hbuff ⊢
  have hlt := hp.length_target_lt (Endianness.conv host link) w hw
  have hlength := length_target (Endianness.conv host link) p
  -- one word is written only for the header with a width of 64 bits
  have hone : 1 < (p.target (Endianness.conv host link)).length ↔ w ≠ .w64 ∨ p.hops ≠ [] := by
    have hpad : p.paddingSize + 1 = w.stride := by rw [p.padding_eq, hw, paddingOf_code]
    have hstride : w.stride = 1 ↔ w = .w64 := by cases w <;> decide
    have hpos := w.stride_pos
    rw [hlength, hpad]
    constructor
    · intro hmore
      by_contra hnot
      push Not at hnot
      rw [hstride.mpr hnot.1, numOps, hnot.2] at hmore
      exact absurd hmore (by decide)
    · rintro (hwide | hhops)
      · have htwo : 2 ≤ w.stride := by
          have := mt hstride.mp hwide
          omega
        exact Nat.lt_of_lt_of_le htwo (Nat.le_mul_of_pos_left _ (by omega))
      · obtain ⟨hop, hops, hcons⟩ := List.exists_cons_of_ne_nil hhops
        have hhop : 0 < hop.ops.length := List.length_pos_of_ne_nil
          (hp.hops hop (hcons ▸ List.mem_cons_self)).nonempty
        have hsome : 0 < p.numOps := by
          rw [numOps, hcons, List.map_cons, List.sum_cons]
          omega
        exact Nat.lt_of_lt_of_le (by omega) (Nat.le_mul_of_pos_right _ hpos)
  rw [← hone]
  by_cases hmore : 1 < (p.target (Endianness.conv host link)).length
  · rw [deserialize_of_lt old buff hmore]
    rcases copied_cases old (Nat.lt_trans Nat.zero_lt_one hmore) (by omega) with
      ⟨hcode, hcopied⟩ | ⟨hcode, hcopied⟩
    · have hmap : (List.range (p.target (Endianness.conv host link)).length).map buff =
          p.target (Endianness.conv host link) := by
        refine List.ext_getElem (by rw [List.length_map, List.length_range]) fun i _ hi => ?_
        rw [List.getElem_map, List.getElem_range, hbuff i hi]
      have hback : ∃ q, deframe (Endianness.conv host link)
          (p.target (Endianness.conv host link)) = .ok q ∧ q.Same p := deframe_target hconv p hp
      rw [hcopied, hmap]
      dsimp only
      exact ⟨fun _ => ⟨hcode, hmore⟩, fun _ => ⟨Nat.le_refl _, hback⟩⟩
    · refine ⟨fun h => ?_, fun h => absurd h.1 hcode⟩
      obtain ⟨hreads, q, hq, -⟩ := h
      rcases hcopied with hbeyond | hnone
      · exact absurd hreads (Nat.not_le.mpr hbeyond)
      · rw [hnone] at hq
        cases hq
  · refine ⟨fun h => ?_, fun h => absurd h.2 hmore⟩
    obtain ⟨-, q, hq, -⟩ := h
    rw [deserialize, if_neg hmore] at hq
    cases hq

theorem roundTrip_iff_probe :
    ((({} : MgmtPayload).deserialize (fun i => (probe.target id).getD i 0) 6 id).reads ≤ 6 ∧
        ∃ q, (({} : MgmtPayload).deserialize (fun i => (probe.target id).getD i 0) 6 id).result =
          .ok q ∧ q.Same probe) ↔
      ({} : MgmtPayload).chdrW = 0 ∧ (ChdrW.w128 ≠ .w64 ∨ probe.hops ≠ []) :=
  @roundTrip_iff .little .little probe {} .w128 rfl
    ⟨by decide, fun hop hmem => by
      rw [List.mem_singleton.mp hmem]
      exact ⟨by decide, by decide, by decide⟩⟩
    48 (probe.target id, 48) rfl _ fun i hi => by
      rw [List.getD_eq_getElem?_getD, List.getElem?_eq_getElem hi, Option.getD_some]

/-- An object with a width of 128 bits reads twelve words where six were written; and the only
word of a payload without hops is refused. -/
theorem roundTrip_stale :
    (probe.target id).length = 6 ∧
      ¬ (probe.deserialize (fun i => (probe.target id).getD i 0) 6 id).reads ≤ 6 ∧
      (({} : MgmtPayload).target id).length = 1 ∧
      (({} : MgmtPayload).deserialize (fun i => (({} : MgmtPayload).target id).getD i 0) 1
        id).result = .error (.thrown (.assertionError "buff_size > 1")) :=
  ⟨by decide, (by decide : ¬ 12 ≤ 6), by decide, rfl⟩

end MgmtPayload
end Chdr
end Rfnoc
end UhdHost
