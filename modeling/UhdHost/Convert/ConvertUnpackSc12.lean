import Mathlib.Data.List.Range
import UhdHost.Types.SizeT

/-!
# Unpacking 12-bit samples

`convert_sc12_item32_1_to_star_1` of `convert_unpack_sc12.cpp`: a sample takes three bytes, and four
of them share three lines of 32 bits.  A call may start with any sample of such a group, and finds
out with which one by the address of its input: the group starts at a multiple of four.

* `convert_eq`: a call that gets to the end of the group it starts in writes the samples it is asked
  for, and no others.
* `writes_head_of_lt`: one that does not writes all samples of the group.
* `splits_iff`: when the calls for the parts of a packet do what one call for the packet does.

The type of the output is a parameter, with what makes one sample of the bits of its two components;
so is the order of the bytes of a line.  A loop that does not end is `none`.
-/

namespace UhdHost
namespace Convert

/-- `item32_sc12_3x` -/
structure Item32Sc12x3 where
  line0 : BitVec 32
  line1 : BitVec 32
  line2 : BitVec 32
  deriving DecidableEq

variable {α : Type*}

/-- How samples are loaded: `tohost`, and the sample for the bits of its two components. -/
structure Loader (α : Type*) where
  tohost : BitVec 32 → BitVec 32
  load : BitVec 16 → BitVec 16 → α

/-- `convert_sc12_item32_3_to_star_4` -/
def convertSc12Item32x3ToStar4 (ld : Loader α) (input : Item32Sc12x3) : α × α × α × α :=
  let line0 := ld.tohost input.line0
  let line1 := ld.tohost input.line1
  let line2 := ld.tohost input.line2
  let line01 : BitVec 64 := (line0.setWidth 64 <<< 32) ||| line1.setWidth 64
  let line12 : BitVec 64 := (line1.setWidth 64 <<< 32) ||| line2.setWidth 64
  (ld.load ((line0 >>> 16).setWidth 16 &&& 0xfff0) ((line0 >>> 4).setWidth 16 &&& 0xfff0),
    ld.load ((line01 >>> 24).setWidth 16 &&& 0xfff0) ((line1 >>> 12).setWidth 16 &&& 0xfff0),
    ld.load (line1.setWidth 16 &&& 0xfff0) ((line12 >>> 20).setWidth 16 &&& 0xfff0),
    ld.load ((line2 >>> 8).setWidth 16 &&& 0xfff0) ((line2 <<< 4).setWidth 16 &&& 0xfff0))

/-- One of the four samples of a group. -/
def nth (group : α × α × α × α) : ℕ → α
  | 0 => group.1
  | 1 => group.2.1
  | 2 => group.2.2.1
  | _ => group.2.2.2

/-- The lines at an address of the memory, which is given by its lines. -/
def itemAt (mem : ℕ → BitVec 32) (addr : ℕ) : Item32Sc12x3 :=
  ⟨mem (addr / 4), mem (addr / 4 + 1), mem (addr / 4 + 2)⟩

/-! ## A call -/

/-- What is written to the output: where, and what. -/
abbrev Writes (α : Type*) := List (ℕ × α)

/-- `head_samps` -/
def headSamps (ptr : ℕ) : ℕ := ptr % 4

/-- `rewind` -/
def rewind (ptr : ℕ) : ℕ :=
  match headSamps ptr with
  | 1 => 9
  | 2 => 6
  | 3 => 3
  | _ => 0

/-- `input[i]`, converted -/
def groupAt (ld : Loader α) (mem : ℕ → BitVec 32) (ptr i : ℕ) : α × α × α × α :=
  convertSc12Item32x3ToStar4 ld (itemAt mem (ptr - rewind ptr + 12 * i))

/-- The head case: the last samples of a group. -/
def writeHead (head : ℕ) (group : α × α × α × α) : Writes α :=
  match head with
  | 1 => [(0, nth group 3)]
  | 2 => [(0, nth group 2), (1, nth group 3)]
  | 3 => [(0, nth group 1), (1, nth group 2), (2, nth group 3)]
  | _ => []

/-- The loop of the body: what it writes, and what `i` and `o` are in the end. -/
def convertBody (groups : ℕ → α × α × α × α) (nsamps : ℕ) :
    ℕ → ℕ → ℕ → Option (Writes α × ℕ × ℕ)
  | fuel, i, o =>
    if (o + 3) % 2 ^ 64 < nsamps then
      match fuel with
      | 0 => none
      | fuel + 1 =>
        (convertBody groups nsamps fuel (i + 1) ((o + 4) % 2 ^ 64)).map fun rest =>
          ([(o, nth (groups i) 0), (o + 1, nth (groups i) 1), (o + 2, nth (groups i) 2),
            (o + 3, nth (groups i) 3)] ++ rest.1, rest.2)
    else some ([], i, o)

/-- The tail case: the first samples of a group. -/
def writeTail (tail o : ℕ) (group : α × α × α × α) : Writes α :=
  match tail with
  | 1 => [(o, nth group 0)]
  | 2 => [(o, nth group 0), (o + 1, nth group 1)]
  | 3 => [(o, nth group 0), (o + 1, nth group 1), (o + 2, nth group 2)]
  | _ => []

/-- `operator()`: what a call writes. -/
def convert (ld : Loader α) (mem : ℕ → BitVec 32) (ptr nsamps : ℕ) : Option (Writes α) :=
  let head := headSamps ptr
  (convertBody (groupAt ld mem ptr) nsamps nsamps (if head = 0 then 0 else 1) head).map fun body =>
    writeHead head (groupAt ld mem ptr 0) ++ body.1
      ++ writeTail (sizeSub nsamps body.2.2) body.2.2 (groupAt ld mem ptr body.2.1)

/-- `converter::conv` -/
def conv (ld : Loader α) (mem : ℕ → BitVec 32) (ptr num : ℕ) : Option (Writes α) :=
  if num ≠ 0 then convert ld mem ptr num else some []

/-- The calls of `_convert_to_out_buff` for the parts of a packet: each goes on where the one before
it ended. -/
def convParts (ld : Loader α) (mem : ℕ → BitVec 32) : ℕ → List ℕ → List (Option (Writes α))
  | _, [] => []
  | ptr, n :: ns => conv ld mem ptr n :: convParts ld mem (ptr + n * 3) ns

/-- A packet of samples in the memory, which starts with a group. -/
structure PacketBuffer where
  base : ℕ
  numSamps : ℕ
  aligned : base % 4 = 0
  fits : base + numSamps * 3 ≤ 2 ^ 64

/-! ## What is claimed -/

/-- As many samples are written as are asked for, one after the other. -/
def WritesExactly (n : ℕ) (w : Writes α) : Prop := w.map Prod.fst = List.range n

/-- **What is claimed for a split of a packet**: each call writes what it is asked for, the loops
end, and all calls together write what one call does. -/
def Splits (ld : Loader α) (mem : ℕ → BitVec 32) (b : PacketBuffer) (ns : List ℕ) : Prop :=
  ∃ ws whole, convParts ld mem b.base ns = ws.map some ∧ List.Forall₂ WritesExactly ns ws ∧
    conv ld mem b.base ns.sum = some whole ∧ WritesExactly ns.sum whole ∧
    (ws.map (List.map Prod.snd)).flatten = whole.map Prod.snd

/-- **The condition on a split**, where some samples were converted before: a call that starts
within a group gets to its end. -/
def FinishesGroups : ℕ → List ℕ → Prop
  | _, [] => True
  | k, n :: ns => (n = 0 ∨ (4 - k % 4) % 4 ≤ n) ∧ FinishesGroups (k + n) ns

/-! ## What a call writes -/

/-- A sample of the memory from an address on. -/
def sampleAt (ld : Loader α) (mem : ℕ → BitVec 32) (base k : ℕ) : α :=
  nth (convertSc12Item32x3ToStar4 ld (itemAt mem (base + 12 * (k / 4)))) (k % 4)

/-- Samples in a row, written one after the other. -/
def row (f : ℕ → α) (o n : ℕ) : Writes α := (List.range' o n).map fun j => (j, f j)

section Row

variable (f : ℕ → α) (o m n : ℕ)

@[simp] theorem row_zero : row f o 0 = [] := rfl

theorem row_succ : row f o (n + 1) = (o, f o) :: row f (o + 1) n := by
  rw [row, List.range'_succ, List.map_cons, row]

theorem row_append : row f o m ++ row f (o + m) n = row f o (m + n) := by
  rw [row, row, row, ← List.map_append, List.range'_append_1]

theorem row_append_zero : row f 0 m ++ row f m n = row f 0 (m + n) := by
  have h := row_append f 0 m n
  rw [Nat.zero_add] at h
  exact h

theorem writesExactly_row : WritesExactly n (row f 0 n) := by
  rw [WritesExactly, row, List.map_map, List.range_eq_range']
  exact List.map_id _

theorem map_snd_row : (row f 0 n).map Prod.snd = (List.range n).map f := by
  rw [row, List.map_map, List.range_eq_range']
  rfl

end Row

section Calls

variable {ld : Loader α} {mem : ℕ → BitVec 32} {base k n : ℕ}

theorem headSamps_eq (hbase : base % 4 = 0) (k : ℕ) :
    headSamps (base + k * 3) = (4 - k % 4) % 4 := by
  rw [headSamps]
  omega

theorem sub_rewind (hbase : base % 4 = 0) (k : ℕ) :
    base + k * 3 - rewind (base + k * 3) = base + 12 * (k / 4) := by
  rw [rewind, headSamps_eq hbase]
  have hk : k % 4 = 0 ∨ k % 4 = 1 ∨ k % 4 = 2 ∨ k % 4 = 3 := by omega
  rcases hk with hk | hk | hk | hk
  · rw [hk]
    show base + k * 3 - 0 = _
    omega
  · rw [hk]
    show base + k * 3 - 3 = _
    omega
  · rw [hk]
    show base + k * 3 - 6 = _
    omega
  · rw [hk]
    show base + k * 3 - 9 = _
    omega

theorem nth_groupAt (ld : Loader α) (mem : ℕ → BitVec 32) (hbase : base % 4 = 0) (k i j : ℕ) (hj : j < 4) :
    nth (groupAt ld mem (base + k * 3) i) j = sampleAt ld mem base (4 * (k / 4 + i) + j) := by
  have hdiv : (4 * (k / 4 + i) + j) / 4 = k / 4 + i := by omega
  have hmod : (4 * (k / 4 + i) + j) % 4 = j := by omega
  have haddr : base + 12 * (k / 4) + 12 * i = base + 12 * (k / 4 + i) := by omega
  rw [groupAt, sub_rewind hbase, sampleAt, hdiv, hmod, haddr]

theorem writeHead_eq (hbase : base % 4 = 0) (k : ℕ) :
    writeHead (headSamps (base + k * 3)) (groupAt ld mem (base + k * 3) 0)
      = row (fun j => sampleAt ld mem base (k + j)) 0 (headSamps (base + k * 3)) := by
  have hsample := fun j hj => nth_groupAt ld mem hbase k 0 j hj
  have hk : k % 4 = 0 ∨ k % 4 = 1 ∨ k % 4 = 2 ∨ k % 4 = 3 := by omega
  rw [headSamps_eq hbase]
  rcases hk with hk | hk | hk | hk
  · rw [hk]
    rfl
  · have h₁ := hsample 1 (by decide)
    have h₂ := hsample 2 (by decide)
    have h₃ := hsample 3 (by decide)
    rw [show 4 * (k / 4 + 0) + 1 = k by omega] at h₁
    rw [show 4 * (k / 4 + 0) + 2 = k + 1 by omega] at h₂
    rw [show 4 * (k / 4 + 0) + 3 = k + 2 by omega] at h₃
    rw [hk]
    show [_, _, _] = _
    rw [h₁, h₂, h₃]
    rfl
  · have h₂ := hsample 2 (by decide)
    have h₃ := hsample 3 (by decide)
    rw [show 4 * (k / 4 + 0) + 2 = k by omega] at h₂
    rw [show 4 * (k / 4 + 0) + 3 = k + 1 by omega] at h₃
    rw [hk]
    show [_, _] = _
    rw [h₂, h₃]
    rfl
  · have h₃ := hsample 3 (by decide)
    rw [show 4 * (k / 4 + 0) + 3 = k by omega] at h₃
    rw [hk]
    show [_] = _
    rw [h₃]
    rfl

theorem convertBody_eq (f : ℕ → α) {groups : ℕ → α × α × α × α} (hn : n + 4 ≤ 2 ^ 64) :
    ∀ (fuel i o : ℕ), n - o ≤ fuel → o ≤ n →
      (∀ j c, c < 4 → nth (groups (i + j)) c = f (o + 4 * j + c)) →
      convertBody groups n fuel i o
        = some (row f o (4 * ((n - o) / 4)), i + (n - o) / 4, o + 4 * ((n - o) / 4)) := by
  intro fuel
  induction fuel with
  | zero =>
    intro i o hfuel hle hgroups
    have heq : n - o = 0 := Nat.le_zero.mp hfuel
    have hstop : ¬ (o + 3) % 2 ^ 64 < n := by omega
    rw [convertBody, if_neg hstop, heq]
    rfl
  | succ fuel ih =>
    intro i o hfuel hle hgroups
    by_cases hmore : o + 3 < n
    · have hwrap : (o + 3) % 2 ^ 64 < n := by omega
      have hnext : (o + 4) % 2 ^ 64 = o + 4 := by omega
      have hrest := ih (i + 1) (o + 4) (by omega) (by omega) fun j c hc => by
        have h := hgroups (j + 1) c hc
        rw [show i + 1 + j = i + (j + 1) by omega, h]
        congr 1
        omega
      have hquot : (n - o) / 4 = (n - (o + 4)) / 4 + 1 := by omega
      have h := fun c hc => hgroups 0 c hc
      rw [convertBody, if_pos hwrap]
      rw [hnext, hrest, Option.map_some, hquot]
      refine congrArg some (Prod.ext ?_ (Prod.ext ?_ ?_))
      · have h₀ := h 0 (by decide)
        have h₁ := h 1 (by decide)
        have h₂ := h 2 (by decide)
        have h₃ := h 3 (by decide)
        rw [show 4 * ((n - (o + 4)) / 4 + 1) = 4 + 4 * ((n - (o + 4)) / 4) by omega, ← row_append,
          row_succ, row_succ, row_succ, row_succ, row_zero]
        rw [Nat.add_zero] at h₀ h₁ h₂ h₃
        rw [h₀, h₁, h₂, h₃]
        rfl
      · show i + 1 + (n - (o + 4)) / 4 = i + ((n - (o + 4)) / 4 + 1)
        omega
      · show o + 4 + 4 * ((n - (o + 4)) / 4) = o + 4 * ((n - (o + 4)) / 4 + 1)
        omega
    · have hstop : ¬ (o + 3) % 2 ^ 64 < n := by omega
      have hquot : (n - o) / 4 = 0 := by omega
      rw [convertBody, if_neg hstop, hquot]
      rfl

theorem writeTail_eq (f : ℕ → α) {group : α × α × α × α} {tail o : ℕ} (htail : tail < 4)
    (hgroup : ∀ c, c < 4 → nth group c = f (o + c)) :
    writeTail tail o group = row f o tail := by
  have h₀ := hgroup 0 (by decide)
  have h₁ := hgroup 1 (by decide)
  have h₂ := hgroup 2 (by decide)
  have hcases : tail = 0 ∨ tail = 1 ∨ tail = 2 ∨ tail = 3 := by omega
  rcases hcases with rfl | rfl | rfl | rfl
  · rfl
  · show [_] = _
    rw [h₀]
    rfl
  · show [_, _] = _
    rw [h₀, h₁]
    rfl
  · show [_, _, _] = _
    rw [h₀, h₁, h₂]
    rfl

theorem convert_eq (hbase : base % 4 = 0) (hn : n + 4 ≤ 2 ^ 64)
    (hhead : headSamps (base + k * 3) ≤ n) :
    convert ld mem (base + k * 3) n
      = some (row (fun j => sampleAt ld mem base (k + j)) 0 n) := by
  have hheadEq := headSamps_eq hbase k
  have hgroups : ∀ j c, c < 4 →
      nth (groupAt ld mem (base + k * 3)
        ((if headSamps (base + k * 3) = 0 then 0 else 1) + j)) c
        = sampleAt ld mem base (k + (headSamps (base + k * 3) + 4 * j + c)) := by
    intro j c hc
    rw [nth_groupAt ld mem hbase k _ c hc]
    congr 1
    split_ifs with hzero <;> omega
  rw [convert]
  rw [convertBody_eq (fun j => sampleAt ld mem base (k + j)) hn n _ _ (by omega) hhead hgroups,
    Option.map_some, writeHead_eq hbase]
  dsimp only
  have hsub : sizeSub n (headSamps (base + k * 3) + 4 * ((n - headSamps (base + k * 3)) / 4))
      = (n - headSamps (base + k * 3)) % 4 := by
    rw [sizeSub_of_le (by omega) (by omega)]
    omega
  rw [hsub, writeTail_eq (fun j => sampleAt ld mem base (k + j)) (Nat.mod_lt _ (by decide))
    (fun c hc => by
      rw [hgroups _ c hc]), row_append_zero, row_append_zero]
  congr 2
  omega

theorem writes_head_of_lt (hbase : base % 4 = 0) (hhead : n < headSamps (base + k * 3)) :
    convert ld mem (base + k * 3) n
      = some (row (fun j => sampleAt ld mem base (k + j)) 0 (headSamps (base + k * 3))) := by
  have hlt : headSamps (base + k * 3) < 4 := Nat.mod_lt _ (by decide)
  have hstop : ¬ (headSamps (base + k * 3) + 3) % 2 ^ 64 < n := by omega
  have hbody : ∀ fuel i, convertBody (groupAt ld mem (base + k * 3)) n fuel i
      (headSamps (base + k * 3)) = some ([], i, headSamps (base + k * 3)) := by
    intro fuel i
    cases fuel with
    | zero => rw [convertBody, if_neg hstop]
    | succ fuel => rw [convertBody, if_neg hstop]
  -- What remains to be converted wraps around, and is no case of the tail.
  have htail : ∀ o group, writeTail (sizeSub n (headSamps (base + k * 3))) o group
      = ([] : Writes α) := by
    intro o group
    have hwrap : 4 ≤ sizeSub n (headSamps (base + k * 3)) := by
      rw [sizeSub]
      omega
    obtain ⟨tail, htail⟩ := Nat.exists_eq_add_of_le hwrap
    rw [htail, Nat.add_comm]
    rfl
  rw [convert, hbody, Option.map_some, htail, List.append_nil, List.append_nil,
    writeHead_eq hbase]

theorem writesExactly_conv_iff (hbase : base % 4 = 0) (hn : n + 4 ≤ 2 ^ 64) {w : Writes α}
    (h : conv ld mem (base + k * 3) n = some w) :
    WritesExactly n w ↔ n = 0 ∨ (4 - k % 4) % 4 ≤ n := by
  rw [← headSamps_eq hbase]
  rw [conv] at h
  by_cases hzero : n = 0
  · rw [if_neg (not_not_intro hzero), Option.some_inj] at h
    rw [← h, hzero]
    exact iff_of_true rfl (Or.inl rfl)
  · rw [if_pos hzero] at h
    by_cases hhead : headSamps (base + k * 3) ≤ n
    · rw [convert_eq hbase hn hhead, Option.some_inj] at h
      rw [← h]
      exact iff_of_true (writesExactly_row _ _) (Or.inr hhead)
    · rw [writes_head_of_lt hbase (not_le.mp hhead), Option.some_inj] at h
      refine iff_of_false (fun hexact => hhead ?_) (fun hor => hor.elim hzero hhead)
      rw [← h, WritesExactly] at hexact
      have hlength := congrArg List.length hexact
      rw [List.length_map, row, List.length_map, List.length_range', List.length_range] at hlength
      exact hlength.le

theorem conv_eq (ld : Loader α) (mem : ℕ → BitVec 32) (hbase : base % 4 = 0)
    (hn : n + 4 ≤ 2 ^ 64) (hgood : n = 0 ∨ (4 - k % 4) % 4 ≤ n) :
    conv ld mem (base + k * 3) n
      = some (row (fun j => sampleAt ld mem base (k + j)) 0 n) := by
  rw [← headSamps_eq hbase] at hgood
  rw [conv]
  split_ifs with hzero
  · exact convert_eq hbase hn (hgood.resolve_left hzero)
  · rw [not_not] at hzero
    rw [hzero]
    rfl

/-! ## The parts of a packet -/

theorem parts_of_finishesGroups (hbase : base % 4 = 0) :
    ∀ (ns : List ℕ) (k : ℕ), ns.sum + 4 ≤ 2 ^ 64 → FinishesGroups k ns →
      ∃ ws, convParts ld mem (base + k * 3) ns = ws.map some ∧ List.Forall₂ WritesExactly ns ws ∧
        (ws.map (List.map Prod.snd)).flatten
          = (List.range' k ns.sum).map fun j => sampleAt ld mem base j := by
  intro ns
  induction ns with
  | nil =>
    intro k _ _
    exact ⟨[], rfl, List.Forall₂.nil, rfl⟩
  | cons n ns ih =>
    rintro k hsum ⟨hgood, hrest⟩
    rw [List.sum_cons] at hsum
    obtain ⟨ws, hws, hexact, hflatten⟩ := ih (k + n) (by omega) hrest
    have hcall := conv_eq ld mem hbase (by omega) hgood
    refine ⟨row (fun j => sampleAt ld mem base (k + j)) 0 n :: ws, ?_,
      List.Forall₂.cons (writesExactly_row _ n) hexact, ?_⟩
    · rw [convParts, hcall, List.map_cons]
      have haddr : base + k * 3 + n * 3 = base + (k + n) * 3 := by omega
      rw [haddr, hws]
    · have hrange : List.range' k n = (List.range n).map fun j => k + j :=
        List.range'_eq_map_range
      rw [List.map_cons, List.flatten_cons, hflatten, map_snd_row, List.sum_cons,
        ← List.range'_append_1, List.map_append, hrange, List.map_map]
      rfl

theorem finishesGroups_of_parts (hbase : base % 4 = 0) :
    ∀ (ns : List ℕ) (k : ℕ) (ws : List (Writes α)), ns.sum + 4 ≤ 2 ^ 64 →
      convParts ld mem (base + k * 3) ns = ws.map some → List.Forall₂ WritesExactly ns ws →
      FinishesGroups k ns := by
  intro ns
  induction ns with
  | nil =>
    intro k ws _ _ _
    exact trivial
  | cons n ns ih =>
    intro k ws hsum hws hexact
    rw [List.sum_cons] at hsum
    cases hexact with
    | @cons _ w _ ws hw hexact =>
      rw [convParts, List.map_cons, List.cons.injEq] at hws
      obtain ⟨hcall, hws⟩ := hws
      have haddr : base + k * 3 + n * 3 = base + (k + n) * 3 := by omega
      rw [haddr] at hws
      exact ⟨(writesExactly_conv_iff hbase (by omega) hcall).mp hw,
        ih (k + n) ws (by omega) hws hexact⟩

end Calls

/-- **Splitting a packet.**  For every packet that starts with a group and every split of its
samples: each call writes what it is asked for, and all together what one call does, exactly when
each one gets to the end of the group it starts in. -/
theorem splits_iff (ld : Loader α) (mem : ℕ → BitVec 32) (b : PacketBuffer) (ns : List ℕ)
    (hsum : ns.sum ≤ b.numSamps) : Splits ld mem b ns ↔ FinishesGroups 0 ns := by
  have hfits := b.fits
  have hroom : ns.sum + 4 ≤ 2 ^ 64 := by omega
  have hzero : b.base + 0 * 3 = b.base := by omega
  constructor
  · rintro ⟨ws, whole, hparts, hexact, -⟩
    rw [← hzero] at hparts
    exact finishesGroups_of_parts b.aligned ns 0 ws hroom hparts hexact
  · intro hgood
    obtain ⟨ws, hparts, hexact, hflatten⟩ := parts_of_finishesGroups b.aligned ns 0 hroom hgood
    have hwhole := conv_eq (k := 0) ld mem b.aligned hroom (Or.inr (Nat.zero_le ns.sum))
    rw [hzero] at hparts hwhole
    refine ⟨ws, _, hparts, hexact, hwhole, writesExactly_row _ _, ?_⟩
    rw [hflatten, map_snd_row, ← List.range_eq_range']
    simp only [Nat.zero_add]

/-- Samples as pairs of bits. -/
def pairLoader : Loader (BitVec 16 × BitVec 16) := ⟨id, Prod.mk⟩

/-- A packet of eight samples. -/
def smallPacket : PacketBuffer := ⟨16, 8, by decide, by decide⟩

/-- A packet that is read in parts of five and of three samples. -/
theorem splits_five_three :
    Splits pairLoader (fun j => BitVec.ofNat 32 j) smallPacket [5, 3] ↔ FinishesGroups 0 [5, 3] :=
  splits_iff pairLoader (fun j => BitVec.ofNat 32 j) smallPacket [5, 3] (by decide)

/-- After one sample, the next call writes three even if it is asked for one. -/
theorem head_overwritten : ¬ ∀ (ld : Loader (BitVec 16 × BitVec 16)) (mem : ℕ → BitVec 32)
    (b : PacketBuffer) (ns : List ℕ), ns.sum ≤ b.numSamps → Splits ld mem b ns := by
  intro hall
  obtain ⟨ws, -, hparts, hexact, -⟩ := hall pairLoader (fun _ => 0) smallPacket [1, 1] (by decide)
  rw [List.forall₂_cons_left_iff] at hexact
  obtain ⟨w, ws', -, hexact, rfl⟩ := hexact
  rw [List.forall₂_cons_left_iff] at hexact
  obtain ⟨w', ws'', hw', -, rfl⟩ := hexact
  have hsecond : conv pairLoader (fun _ => 0) 19 1 = some w' :=
    (List.cons.inj (List.cons.inj hparts).2).1
  have hthree : (conv pairLoader (fun _ => 0) 19 1).map (List.map Prod.fst) = some [0, 1, 2] := by
    decide +kernel
  rw [hsecond, Option.map_some, hw'] at hthree
  exact absurd hthree (by decide)

end Convert
end UhdHost
