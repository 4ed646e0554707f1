import UhdHost.Rfnoc.MgmtPayloadFormat

/-!
# Reading any words as a management payload

After the header, operations are read line by line, until as many operations with a count of zero
were read as the header announces hops.  If the words end between two lines, the loop finds an
empty list and throws; if they end within a line, padding is taken off an empty list.

So reading is safe exactly if it is refused at once, or the object has a width of 64 bits, the
header announces one of the four widths, and either the words are whole lines of that width or the
hops end before the line that is not complete (`safe_iff`).
-/

namespace UhdHost
namespace Rfnoc
namespace Chdr

variable {conv : BitVec 64 → BitVec 64} {paddingSize : ℕ}

/-- The number of complete lines whose operation ends a hop. -/
def hopEnds (conv : BitVec 64 → BitVec 64) (stride : ℕ) (src : List (BitVec 64)) : ℕ :=
  (List.range (src.length / stride)).countP fun i =>
    src[i * stride]?.any fun word => conv word &&& 0xFF == 0

theorem hopEnds_short {stride : ℕ} {src : List (BitVec 64)} (hshort : src.length < stride) :
    hopEnds conv stride src = 0 := by
  rw [hopEnds, Nat.div_eq_of_lt hshort]
  rfl

theorem hopEnds_line (front : BitVec 64) {src : List (BitVec 64)}
    (hline : paddingSize ≤ src.length) :
    hopEnds conv (paddingSize + 1) (front :: src) =
      hopEnds conv (paddingSize + 1) (src.drop paddingSize) +
        if conv front &&& 0xFF = 0 then 1 else 0 := by
  have hrest : (front :: src).length / (paddingSize + 1) =
      (src.drop paddingSize).length / (paddingSize + 1) + 1 := by
    rw [Nat.div_eq_sub_div (Nat.succ_pos _) (by rw [List.length_cons]; omega), List.length_cons,
      List.length_drop, Nat.add_sub_add_right]
  have hlater : ∀ i, (front :: src)[(i + 1) * (paddingSize + 1)]? =
      (src.drop paddingSize)[i * (paddingSize + 1)]? := fun i => by
    have hindex : (i + 1) * (paddingSize + 1) = paddingSize + i * (paddingSize + 1) + 1 := by ring
    rw [hindex, List.getElem?_cons_succ, List.getElem?_drop]
  have hfirst : ((front :: src)[0 * (paddingSize + 1)]?.any fun word => conv word &&& 0xFF == 0) =
      decide (conv front &&& 0xFF = 0) := by
    rw [Nat.zero_mul, List.getElem?_cons_zero, Option.any_some]
    rfl
  rw [hopEnds, hrest, List.range_succ_eq_map, List.countP_cons, hfirst, List.countP_map, hopEnds]
  simp only [Function.comp_def, Nat.succ_eq_add_one, hlater, decide_eq_true_iff]

theorem hop_deserialize_cases (conv : BitVec 64 → BitVec 64) (paddingSize : ℕ)
    (src : List (BitVec 64)) :
    MgmtHop.deserialize conv paddingSize src = .error .emptyList ∧
        src.length % (paddingSize + 1) ≠ 0 ∧ hopEnds conv (paddingSize + 1) src = 0 ∨
      (∃ e, MgmtHop.deserialize conv paddingSize src = .error (.thrown e)) ∧
        src.length % (paddingSize + 1) = 0 ∨
      ∃ ops rest, MgmtHop.deserialize conv paddingSize src = .ok (ops, rest) ∧
        src.length = ops.length * (paddingSize + 1) + rest.length ∧
        hopEnds conv (paddingSize + 1) src = hopEnds conv (paddingSize + 1) rest + 1 := by
  induction hlen : src.length using Nat.strong_induction_on generalizing src with
  | _ len ih =>
    subst hlen
    cases src with
    | nil => exact Or.inr (Or.inl ⟨⟨_, hop_deserialize_nil conv paddingSize⟩, Nat.zero_mod _⟩)
    | cons front src =>
      rcases Nat.lt_or_ge src.length paddingSize with hshort | hline
      · -- the line is not complete
        have hlt : (front :: src).length < paddingSize + 1 := by
          rw [List.length_cons]
          omega
        refine Or.inl ⟨hop_deserialize_short conv front hshort, ?_, hopEnds_short hlt⟩
        rw [Nat.mod_eq_of_lt hlt, List.length_cons]
        exact Nat.succ_ne_zero _
      have hlength : (front :: src).length =
          (src.drop paddingSize).length + (paddingSize + 1) := by
        rw [List.length_cons, List.length_drop]
        omega
      have hmod : (front :: src).length % (paddingSize + 1) =
          (src.drop paddingSize).length % (paddingSize + 1) := by
        rw [hlength, Nat.add_mod_right]
      rw [hop_deserialize_line conv front hline, hopEnds_line front hline]
      by_cases hend : conv front &&& 0xFF = 0
      · rw [if_pos hend, if_pos hend]
        refine Or.inr (Or.inr ⟨_, _, rfl, ?_, rfl⟩)
        rw [hlength, List.length_singleton, Nat.one_mul, Nat.add_comm]
      · rw [if_neg hend, if_neg hend, Nat.add_zero, hmod]
        rcases ih _ (by rw [hlength]; omega) (src.drop paddingSize) rfl with
          ⟨hread, hpart, hends⟩ | ⟨⟨e, hread⟩, hwhole⟩ | ⟨ops, rest, hread, hrest, hends⟩
        · rw [hread]
          exact Or.inl ⟨rfl, hpart, hends⟩
        · rw [hread]
          exact Or.inr (Or.inl ⟨⟨e, rfl⟩, hwhole⟩)
        · rw [hread]
          refine Or.inr (Or.inr ⟨_, _, rfl, ?_, hends⟩)
          rw [hlength, hrest, List.length_cons]
          ring

/-- The operations of hops. -/
def totalOps (hops : List MgmtHop) : ℕ := (hops.map fun hop => hop.ops.length).sum

theorem deserializeHops_cases (conv : BitVec 64 → BitVec 64) (paddingSize n : ℕ)
    (src : List (BitVec 64)) :
    (deserializeHops conv paddingSize n src = .error .emptyList ↔
        src.length % (paddingSize + 1) ≠ 0 ∧ hopEnds conv (paddingSize + 1) src < n) ∧
      ∀ hops rest, deserializeHops conv paddingSize n src = .ok (hops, rest) →
        totalOps hops * (paddingSize + 1) ≤ src.length := by
  induction n generalizing src with
  | zero =>
    refine ⟨⟨fun h => (by cases h), fun h => absurd h.2 (Nat.not_lt_zero _)⟩, fun hops rest h => ?_⟩
    obtain ⟨rfl, rfl⟩ := Prod.mk.inj (Except.ok.inj h)
    rw [totalOps, List.map_nil, List.sum_nil, Nat.zero_mul]
    exact Nat.zero_le _
  | succ n ih =>
    rw [deserializeHops]
    rcases hop_deserialize_cases conv paddingSize src with
      ⟨hread, hpart, hends⟩ | ⟨⟨e, hread⟩, hwhole⟩ | ⟨ops, rest, hread, hlength, hends⟩
    · rw [hread]
      exact ⟨⟨fun _ => ⟨hpart, by omega⟩, fun _ => rfl⟩, fun hops rest h => by cases h⟩
    · rw [hread]
      exact ⟨⟨fun h => (by cases h), fun h => absurd hwhole h.1⟩, fun hops rest h => by cases h⟩
    · obtain ⟨hempty, hok⟩ := ih rest
      have hmod : src.length % (paddingSize + 1) = rest.length % (paddingSize + 1) := by
        rw [hlength, Nat.mul_add_mod_self_right]
      rw [hread, hmod, hends, Nat.add_lt_add_iff_right, ← hempty]
      dsimp only
      rcases hrest : deserializeHops conv paddingSize n rest with fault | ⟨hops, left⟩
      · refine ⟨?_, fun hops rest h => by cases h⟩
        dsimp only
        constructor
        · intro h
          rw [Except.error.inj h]
        · intro h
          rw [Except.error.inj h]
      · refine ⟨⟨fun h => (by cases h), fun h => by cases h⟩, fun hops' rest' h => ?_⟩
        obtain ⟨rfl, rfl⟩ := Prod.mk.inj (Except.ok.inj h)
        have hle := hok hops left hrest
        rw [hlength, totalOps, List.map_cons, List.sum_cons, Nat.add_mul]
        exact Nat.add_le_add_left hle _

namespace MgmtPayload

/-- Nothing beyond the buffer was read, nothing was taken off an empty list, and what was read
can be written again into a buffer of the same size. -/
def Safe (conv : BitVec 64 → BitVec 64) (buffSize : ℕ) (d : MgmtRead) : Prop :=
  d.reads ≤ buffSize ∧ d.result ≠ .error .emptyList ∧
    ∀ q, d.result = .ok q → ∃ out, q.serialize (8 * buffSize) conv = .ok out

/-- The words are whole lines of the width that their header announces, or its hops end in
whole lines. -/
def InLines (conv : BitVec 64 → BitVec 64) (words : List (BitVec 64)) : Prop :=
  ∃ hdr, words.head?.map conv = some hdr ∧ ∃ w : ChdrW, widthCode hdr = w.code ∧
    w.stride ≤ words.length ∧ (words.length % w.stride = 0 ∨
      numHops hdr ≤ hopEnds conv w.stride (words.drop w.stride))

theorem code_cases (code : BitVec 3) :
    (∃ w : ChdrW, code = w.code) ∨
      (∀ w : ChdrW, code ≠ w.code) ∧ paddingOf code = 2 ^ 64 - 1 := by
  have hcodes : code = 0 ∨ code = 1 ∨ code = 2 ∨ code = 3 ∨
      (code ≠ 0 ∧ code ≠ 1 ∧ code ≠ 2 ∧ code ≠ 3) ∧ paddingOf code = 2 ^ 64 - 1 := by
    revert code
    decide
  rcases hcodes with rfl | rfl | rfl | rfl | ⟨⟨h0, h1, h2, h3⟩, hpad⟩
  · exact Or.inl ⟨.w64, rfl⟩
  · exact Or.inl ⟨.w128, rfl⟩
  · exact Or.inl ⟨.w256, rfl⟩
  · exact Or.inl ⟨.w512, rfl⟩
  · refine Or.inr ⟨fun w => ?_, hpad⟩
    cases w with
    | w64 => exact h0
    | w128 => exact h1
    | w256 => exact h2
    | w512 => exact h3

theorem deframeHops_emptyList_iff (conv : BitVec 64 → BitVec 64) (hdr : BitVec 64)
    (paddingSize : ℕ) (src : List (BitVec 64)) :
    deframeHops conv hdr paddingSize src = .error .emptyList ↔ src.length < paddingSize ∨
      (src.drop paddingSize).length % (paddingSize + 1) ≠ 0 ∧
        hopEnds conv (paddingSize + 1) (src.drop paddingSize) < numHops hdr := by
  rw [deframeHops, popFronts_eq]
  by_cases hline : paddingSize ≤ src.length
  · rw [if_pos hline, or_iff_right (Nat.not_lt.mpr hline),
      ← (deserializeHops_cases conv paddingSize (numHops hdr) (src.drop paddingSize)).1]
    dsimp only
    rcases deserializeHops conv paddingSize (numHops hdr) (src.drop paddingSize) with
      fault | ⟨hops, left⟩
    · dsimp only
      rw [Except.error.injEq, Except.error.injEq]
    · exact ⟨fun h => (by cases h), fun h => by cases h⟩
  · rw [if_neg hline]
    exact ⟨fun _ => Or.inl (Nat.lt_of_not_le hline), fun _ => rfl⟩

theorem deframe_emptyList_iff (conv : BitVec 64 → BitVec 64) {words : List (BitVec 64)}
    (hsize : words.length < 2 ^ 64) :
    deframe conv words ≠ .error .emptyList ↔ InLines conv words := by
  cases words with
  | nil =>
    refine ⟨fun h => absurd rfl h, fun h => ?_⟩
    obtain ⟨hdr, hhead, -⟩ := h
    cases hhead
  | cons front src =>
    rw [List.length_cons] at hsize
    rw [deframe, Ne, deframeHops_emptyList_iff, not_or, Nat.not_lt]
    constructor
    · rintro ⟨hline, hends⟩
      rcases code_cases (widthCode (conv front)) with ⟨w, hw⟩ | ⟨-, hpad⟩
      · have hpad := paddingOf_code w
        rw [hw] at hline hends
        refine ⟨_, rfl, w, hw, by rw [List.length_cons]; omega, ?_⟩
        have hdrop : (front :: src).drop w.stride = src.drop (paddingOf w.code) := by
          rw [← hpad, List.drop_succ_cons]
        have hmod : (front :: src).length % w.stride =
            (src.drop (paddingOf w.code)).length % (paddingOf w.code + 1) := by
          rw [← hpad, List.length_cons, List.length_drop, Nat.mod_eq_sub_mod (by omega),
            Nat.add_sub_add_right]
        rw [hmod, hdrop, ← hpad]
        by_contra hnot
        push Not at hnot
        exact hends hnot
      · rw [hpad] at hline
        omega
    · rintro ⟨hdr, hhead, w, hw, hle, hwhole⟩
      obtain rfl := Option.some.inj hhead
      have hpad := paddingOf_code w
      rw [List.length_cons] at hle hwhole
      have hdrop : (front :: src).drop w.stride = src.drop (paddingOf w.code) := by
        rw [← hpad, List.drop_succ_cons]
      have hmod : (src.length + 1) % w.stride =
          (src.drop (paddingOf w.code)).length % (paddingOf w.code + 1) := by
        rw [← hpad, List.length_drop, Nat.mod_eq_sub_mod (by omega), Nat.add_sub_add_right]
      rw [hmod, hdrop, ← hpad] at hwhole
      rw [hw]
      refine ⟨by omega, fun hends => ?_⟩
      rcases hwhole with hwhole | hwhole
      · exact hends.1 hwhole
      · omega

theorem length_target_of_deframe {words : List (BitVec 64)} {q : MgmtPayload}
    (h : deframe conv words = .ok q) : (q.target conv).length ≤ words.length := by
  cases words with
  | nil => cases h
  | cons front src =>
    rw [deframe, deframeHops, popFronts_eq] at h
    by_cases hline : paddingOf (widthCode (conv front)) ≤ src.length
    · rw [if_pos hline] at h
      dsimp only at h
      rcases hhops : deserializeHops conv (paddingOf (widthCode (conv front)))
        (numHops (conv front)) (src.drop (paddingOf (widthCode (conv front)))) with
        fault | ⟨hops, left⟩
      · rw [hhops] at h
        cases h
      · rw [hhops] at h
        obtain rfl := Except.ok.inj h
        have hle := (deserializeHops_cases conv _ _ _).2 hops left hhops
        have hops' : (ofHeader (conv front) hops).numOps = totalOps hops := rfl
        have hpad : (ofHeader (conv front) hops).paddingSize =
            paddingOf (widthCode (conv front)) := rfl
        rw [length_target, hops', hpad, Nat.add_mul, Nat.one_mul, List.length_cons]
        rw [List.length_drop] at hle
        omega
    · rw [if_neg hline] at h
      cases h

/-- **When reading is safe**: it is refused, or the object has a width of 64 bits and the words
are in lines. -/
theorem safe_iff (host link : Endianness) (old : MgmtPayload) (buff : ℕ → BitVec 64)
    (buffSize : ℕ) (hsize : 8 * buffSize < 2 ^ 64) :
    Safe (Endianness.conv host link) buffSize
        (old.deserialize buff buffSize (Endianness.conv host link)) ↔
      buffSize ≤ 1 ∨ old.chdrW = 0 ∧
        InLines (Endianness.conv host link) ((List.range buffSize).map buff) := by
  by_cases hmore : 1 < buffSize
  · have hlength : ((List.range buffSize).map buff).length = buffSize := by
      rw [List.length_map, List.length_range]
    have hlines : deframe (Endianness.conv host link) ((List.range buffSize).map buff) ≠
        .error .emptyList ↔ InLines (Endianness.conv host link) ((List.range buffSize).map buff) :=
      deframe_emptyList_iff _ (by omega)
    rw [deserialize_of_lt old buff hmore, Safe, or_iff_right (Nat.not_le.mpr hmore)]
    dsimp only
    rcases copied_cases old (Nat.lt_trans Nat.zero_lt_one hmore) hsize with
      ⟨hcode, hcopied⟩ | ⟨hcode, hcopied⟩
    · rw [hcopied, and_iff_right (Nat.le_refl _), and_iff_right hcode, hlines]
      refine ⟨fun h => h.1, fun h => ⟨h, fun q hq => ?_⟩⟩
      have hle := length_target_of_deframe hq
      rw [hlength] at hle
      exact ⟨_, if_pos (by omega)⟩
    · refine ⟨fun h => ?_, fun h => absurd h.1 hcode⟩
      rcases hcopied with hbeyond | hnone
      · exact absurd h.1 (Nat.not_le.mpr hbeyond)
      · rw [hnone] at h
        exact absurd rfl h.2.1
  · rw [deserialize, if_neg hmore, Safe]
    dsimp only
    refine ⟨fun _ => Or.inl (Nat.le_of_not_lt hmore), fun _ => ⟨Nat.zero_le _, fun h => ?_,
      fun q hq => by cases hq⟩⟩
    rw [Except.error.injEq] at h
    cases h

theorem safe_iff_probe :
    Safe (Endianness.conv .little .little) 6 (({} : MgmtPayload).deserialize
        (fun i => (probe.target id).getD i 0) 6 (Endianness.conv .little .little)) ↔
      6 ≤ 1 ∨ ({} : MgmtPayload).chdrW = 0 ∧ InLines (Endianness.conv .little .little)
        ((List.range 6).map fun i => (probe.target id).getD i 0) :=
  safe_iff .little .little {} _ 6 (by decide)

/-- A header with the width code 4, and a word: padding is taken off an empty list. -/
theorem unsafe_width :
    ¬ Safe (Endianness.conv .little .little) 2 (({} : MgmtPayload).deserialize
      (fun i => if i = 0 then 0x800000000000 else 0) 2 (Endianness.conv .little .little)) := by
  have hcode : widthCode (0x800000000000 : BitVec 64) = 4 := by decide
  have hempty : deframe (Endianness.conv .little .little) [0x800000000000, 0] =
      .error .emptyList := by
    by_contra hne
    obtain ⟨hdr, hhead, w, hw, -⟩ := (deframe_emptyList_iff _ (by decide)).mp hne
    obtain rfl := Option.some.inj hhead
    have hw' : widthCode (0x800000000000 : BitVec 64) = w.code := hw
    rw [hcode] at hw'
    cases w <;> exact absurd hw' (by decide)
  have hcopied : 2 * (({} : MgmtPayload).paddingSize + 1) % 2 ^ 64 = 2 := by decide
  have hwords : (List.range 2).map (fun i => if i = 0 then 0x800000000000 else 0) =
      ([0x800000000000, 0] : List (BitVec 64)) := by decide
  intro h
  rw [deserialize_of_lt _ _ (by decide), hcopied, hwords, hempty] at h
  exact h.2.1 rfl

end MgmtPayload
end Chdr
end Rfnoc
end UhdHost
