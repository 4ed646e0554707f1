import Mathlib
import UhdHost.Usrp.ZbxSyncExpert

/-!
# The registers of the ZBX CPLD

The register map of `gen_zbx_cpld_regs.py`, and the class that is generated from it: the value of
every field is kept apart, and `get_reg` and `set_reg` put the fields of one address together and
take them apart.

Many fields are arrays of 256 elements, one register each, so that an array takes 1024 bytes.
`get_reg` and `set_reg` look for the array at the next lower multiple of 256, though, and find it
for the first 64 elements only.

* `field_getReg`: where the fields are found, the word has each of them in its place.
* `getReg_eq_zero`: everywhere else it is zero.
* `setReg_of_addr_eq`, `setReg_of_addr_ne`: what `set_reg` changes.

The fields that `zbx_cpld_ctrl` does not use (the identification of the board and its power supply)
are left out.
-/

namespace UhdHost
namespace Usrp
namespace ZbxCpld

open ZbxSyncExpert (ZbxLo)

/-! ## The register map -/

/-- The names of the values of the fields. -/
inductive Enumerator where
  | disable
  | enable
  | filter0_3
  | filter1
  | filter2
  | filter3
  | filter4
  | filter5
  | filter6
  | termination
  | noConnect
  | highband
  | lowband
  | rf1
  | rf2
  | rf3
  | invalid
  | bypassAmp
  | calLoopback
  | lowbandAmp
  | highbandAmp
  | txRx
  | rx2
  | internal
  | external
  deriving DecidableEq, Repr

/-- The fields.  What is there for each of the channels has the channel with it. -/
inductive Field where
  | scratch
  | currentRfConfig (c : Fin 2)
  | currentRfDsaConfig (c : Fin 2)
  | rfOption (c : Fin 2)
  | rfDsaOption (c : Fin 2)
  | swRfConfig (c : Fin 2)
  | swRfDsaConfig (c : Fin 2)
  | data
  | address
  | readFlag
  | loSelect
  | startTransaction
  | spiReady
  | dataValid
  | pulseSync (lo : ZbxLo)
  | bypassSyncRegister
  | rxRxLed (c : Fin 2)
  | rxTrxLed (c : Fin 2)
  | txTrxLed (c : Fin 2)
  | txIf2_1_2 (c : Fin 2)
  | txIf1_3 (c : Fin 2)
  | txIf1_4 (c : Fin 2)
  | txIf1_5 (c : Fin 2)
  | txIf1_6 (c : Fin 2)
  | tx_7 (c : Fin 2)
  | txRf_8 (c : Fin 2)
  | txRf_9 (c : Fin 2)
  | txAnt_10 (c : Fin 2)
  | txAnt_11 (c : Fin 2)
  | txLo_13 (c : Fin 2)
  | txLo_14 (c : Fin 2)
  | rxAnt_1 (c : Fin 2)
  | rx_2 (c : Fin 2)
  | rxRf_3 (c : Fin 2)
  | rx_4 (c : Fin 2)
  | rxIf1_5 (c : Fin 2)
  | rxIf1_6 (c : Fin 2)
  | rxIf2_7_8 (c : Fin 2)
  | rxLo_9 (c : Fin 2)
  | rxLo_10 (c : Fin 2)
  | rxRf_11 (c : Fin 2)
  | txDsa1 (c : Fin 2)
  | txDsa2 (c : Fin 2)
  | rxDsa1 (c : Fin 2)
  | rxDsa2 (c : Fin 2)
  | rxDsa3A (c : Fin 2)
  | rxDsa3B (c : Fin 2)
  | txTableSelect (c : Fin 2)
  | rxTableSelect (c : Fin 2)
  | txTableDsa1 (c : Fin 2)
  | txTableDsa2 (c : Fin 2)
  | rxTableDsa1 (c : Fin 2)
  | rxTableDsa2 (c : Fin 2)
  | rxTableDsa3A (c : Fin 2)
  | rxTableDsa3B (c : Fin 2)
  deriving DecidableEq, Repr

/-- A line of the register map: the address, the bits, the default, and the options. -/
structure Info where
  addr : ℕ
  lsb : ℕ
  width : ℕ
  default : ℕ := 0
  /-- An array of 256 elements. -/
  isArray : Bool := false
  readonly : Bool := false

namespace Field

/-- A field of an array. -/
def array (addr lsb width : ℕ) (default : ℕ := 0) : Info := ⟨addr, lsb, width, default, true, false⟩

/-- A field that is not written. -/
def ro (addr lsb width : ℕ) : Info := ⟨addr, lsb, width, 0, false, true⟩

/-- `REGS_TMPL` -/
def info : Field → Info
  | scratch => { addr := 0x000C, lsb := 0, width := 32 }
  | currentRfConfig c => ro 0x1000 (8 * c) 8
  | currentRfDsaConfig c => ro 0x1000 (16 + 8 * c) 8
  | rfOption c => { addr := 0x1004, lsb := 8 * c, width := 2 }
  | rfDsaOption c => { addr := 0x1004, lsb := 16 + 8 * c, width := 2 }
  | swRfConfig c => { addr := 0x1008, lsb := 8 * c, width := 8 }
  | swRfDsaConfig c => { addr := 0x1008, lsb := 16 + 8 * c, width := 8 }
  | data => { addr := 0x1020, lsb := 0, width := 16 }
  | address => { addr := 0x1020, lsb := 16, width := 7 }
  | readFlag => { addr := 0x1020, lsb := 23, width := 1, default := 1 }
  | loSelect => { addr := 0x1020, lsb := 24, width := 3 }
  | startTransaction => { addr := 0x1020, lsb := 28, width := 1 }
  | spiReady => ro 0x1020 30 1
  | dataValid => ro 0x1020 31 1
  | pulseSync lo => { addr := 0x1024, lsb := ZbxLo.all.idxOf lo, width := 1 }
  | bypassSyncRegister => { addr := 0x1024, lsb := 8, width := 1 }
  | rxRxLed c => array 0x1400 (16 * c) 1
  | rxTrxLed c => array 0x1400 (16 * c + 1) 1
  | txTrxLed c => array 0x1400 (16 * c + 2) 1
  | txIf2_1_2 c => array (0x2000 + 0x400 * c) 0 1
  | txIf1_3 c => array (0x2000 + 0x400 * c) 2 2
  | txIf1_4 c => array (0x2000 + 0x400 * c) 4 2
  | txIf1_5 c => array (0x2000 + 0x400 * c) 6 2
  | txIf1_6 c => array (0x2000 + 0x400 * c) 8 2
  | tx_7 c => array (0x2000 + 0x400 * c) 10 2
  | txRf_8 c => array (0x2000 + 0x400 * c) 12 3
  | txRf_9 c => array (0x2000 + 0x400 * c) 16 2
  | txAnt_10 c => array (0x2000 + 0x400 * c) 18 2
  | txAnt_11 c => array (0x2000 + 0x400 * c) 20 2
  | txLo_13 c => array (0x2000 + 0x400 * c) 24 1
  | txLo_14 c => array (0x2000 + 0x400 * c) 26 1
  | rxAnt_1 c => array (0x2800 + 0x400 * c) 0 2
  | rx_2 c => array (0x2800 + 0x400 * c) 2 1
  | rxRf_3 c => array (0x2800 + 0x400 * c) 4 3
  | rx_4 c => array (0x2800 + 0x400 * c) 8 1
  | rxIf1_5 c => array (0x2800 + 0x400 * c) 10 2
  | rxIf1_6 c => array (0x2800 + 0x400 * c) 12 2
  | rxIf2_7_8 c => array (0x2800 + 0x400 * c) 14 1
  | rxLo_9 c => array (0x2800 + 0x400 * c) 16 1
  | rxLo_10 c => array (0x2800 + 0x400 * c) 18 1
  | rxRf_11 c => array (0x2800 + 0x400 * c) 20 3
  | txDsa1 c => array (0x3000 + 0x400 * c) 0 5 31
  | txDsa2 c => array (0x3000 + 0x400 * c) 8 5 31
  | rxDsa1 c => array (0x3800 + 0x400 * c) 0 4 15
  | rxDsa2 c => array (0x3800 + 0x400 * c) 4 4 15
  | rxDsa3A c => array (0x3800 + 0x400 * c) 8 4 15
  | rxDsa3B c => array (0x3800 + 0x400 * c) 12 4 15
  | txTableSelect c => array (0x4000 + 0x400 * c) 0 8
  | rxTableSelect c => array (0x4800 + 0x400 * c) 0 8
  | txTableDsa1 c => array (0x5000 + 0x400 * c) 0 5 31
  | txTableDsa2 c => array (0x5000 + 0x400 * c) 8 5 31
  | rxTableDsa1 c => array (0x5800 + 0x400 * c) 0 4 15
  | rxTableDsa2 c => array (0x5800 + 0x400 * c) 4 4 15
  | rxTableDsa3A c => array (0x5800 + 0x400 * c) 8 4 15
  | rxTableDsa3B c => array (0x5800 + 0x400 * c) 12 4 15

/-- The enumerators of a field, in the order of their values. -/
def enums : Field → List Enumerator
  | bypassSyncRegister | rxRxLed _ | rxTrxLed _ | txTrxLed _ => [.disable, .enable]
  | txIf2_1_2 0 => [.filter2, .filter1]
  | txIf1_3 0 => [.filter0_3, .filter4, .filter6, .filter5]
  | txIf1_4 0 => [.termination, .filter1, .filter2, .filter3]
  | txIf1_5 0 => [.filter3, .filter2, .filter1, .termination]
  | txIf1_6 0 => [.filter5, .filter6, .filter4, .filter0_3]
  | tx_7 0 => [.termination, .noConnect, .highband, .lowband]
  | txRf_8 0 => [.invalid, .rf3, .rf1, .invalid, .rf2]
  | txRf_9 0 => [.rf3, .rf1, .rf2, .highband]
  | txAnt_10 0 => [.bypassAmp, .calLoopback, .lowbandAmp, .highbandAmp]
  | txAnt_11 0 => [.txRx, .highbandAmp, .lowbandAmp, .bypassAmp]
  | txLo_13 0 => [.internal, .external]
  | txLo_14 0 => [.external, .internal]
  | txIf2_1_2 1 => [.filter1, .filter2]
  | txIf1_3 1 => [.filter5, .filter6, .filter4, .filter0_3]
  | txIf1_4 1 => [.filter3, .filter2, .filter1, .termination]
  | txIf1_5 1 => [.termination, .filter1, .filter2, .filter3]
  | txIf1_6 1 => [.filter0_3, .filter4, .filter6, .filter5]
  | tx_7 1 => [.lowband, .highband, .noConnect, .termination]
  | txRf_8 1 => [.invalid, .rf2, .rf1, .invalid, .rf3]
  | txRf_9 1 => [.highband, .rf2, .rf1, .rf3]
  | txAnt_10 1 => [.highbandAmp, .lowbandAmp, .bypassAmp, .calLoopback]
  | txAnt_11 1 => [.txRx, .bypassAmp, .lowbandAmp, .highbandAmp]
  | txLo_13 1 => [.external, .internal]
  | txLo_14 1 => [.internal, .external]
  | rxAnt_1 0 => [.calLoopback, .termination, .txRx, .rx2]
  | rx_2 0 => [.highband, .lowband]
  | rxRf_3 0 => [.invalid, .rf2, .rf1, .invalid, .rf3]
  | rx_4 0 => [.lowband, .highband]
  | rxIf1_5 0 => [.filter4, .filter3, .filter2, .filter1]
  | rxIf1_6 0 => [.filter1, .filter2, .filter3, .filter4]
  | rxIf2_7_8 0 => [.filter2, .filter1]
  | rxLo_9 0 => [.internal, .external]
  | rxLo_10 0 => [.internal, .external]
  | rxRf_11 0 => [.invalid, .rf3, .rf1, .invalid, .rf2]
  | rxAnt_1 1 => [.calLoopback, .txRx, .rx2, .termination]
  | rx_2 1 => [.lowband, .highband]
  | rxRf_3 1 => [.invalid, .rf3, .rf1, .invalid, .rf2]
  | rx_4 1 => [.highband, .lowband]
  | rxIf1_5 1 => [.filter1, .filter2, .filter3, .filter4]
  | rxIf1_6 1 => [.filter4, .filter3, .filter2, .filter1]
  | rxIf2_7_8 1 => [.filter1, .filter2]
  | rxLo_9 1 => [.external, .internal]
  | rxLo_10 1 => [.internal, .external]
  | rxRf_11 1 => [.invalid, .rf2, .rf1, .invalid, .rf3]
  | _ => []

/-- The value of an enumerator. -/
def value (f : Field) (e : Enumerator) : ℕ := f.enums.idxOf e

/-- The fields that there are once. -/
def common : List Field :=
  [scratch, data, address, readFlag, loSelect, startTransaction, spiReady, dataValid,
    bypassSyncRegister] ++ ZbxLo.all.map pulseSync

/-- The fields of a channel. -/
def ofChan (c : Fin 2) : List Field :=
  [currentRfConfig c, currentRfDsaConfig c, rfOption c, rfDsaOption c, swRfConfig c,
    swRfDsaConfig c, rxRxLed c, rxTrxLed c, txTrxLed c, txIf2_1_2 c, txIf1_3 c, txIf1_4 c,
    txIf1_5 c, txIf1_6 c, tx_7 c, txRf_8 c, txRf_9 c, txAnt_10 c, txAnt_11 c, txLo_13 c,
    txLo_14 c, rxAnt_1 c, rx_2 c, rxRf_3 c, rx_4 c, rxIf1_5 c, rxIf1_6 c, rxIf2_7_8 c, rxLo_9 c,
    rxLo_10 c, rxRf_11 c, txDsa1 c, txDsa2 c, rxDsa1 c, rxDsa2 c, rxDsa3A c, rxDsa3B c,
    txTableSelect c, rxTableSelect c, txTableDsa1 c, txTableDsa2 c, rxTableDsa1 c, rxTableDsa2 c,
    rxTableDsa3A c, rxTableDsa3B c]

/-- All the fields. -/
def all : List Field := common ++ (ofChan 0 ++ ofChan 1)

/-- `get_array_size`, and 1 for a field that is no array -/
def length (f : Field) : ℕ := if f.info.isArray then 256 else 1

/-- The bits of the type of a field.  An enumeration has no other values than its enumerators. -/
def storage (f : Field) : ℕ :=
  if !f.enums.isEmpty then f.info.width
  else if f.info.width ≤ 8 then 8 else if f.info.width ≤ 16 then 16 else 32

/-- The address of the register that an element is in. -/
def addr (f : Field) (i : ℕ) : ℕ := f.info.addr + 4 * i

/-- The element of the field that `get_reg` and `set_reg` find at an address. -/
def index (f : Field) (a : ℕ) : Option ℕ :=
  if f.info.isArray then if f.info.addr = a - a % 256 then some (a % 256 / 4) else none
  else if f.info.addr = a then some 0 else none

end Field

/-! ## The generated class -/

/-- The values of the fields, with their indices: 0 for a field that is no array. -/
abbrev Regs := Field → ℕ → ℕ

namespace Regs

/-- `zbx_cpld_regs_t()` -/
def initial : Regs := fun f _ => f.info.default

/-- `set_field`, and an assignment to a field -/
def setField (regs : Regs) (f : Field) (i v : ℕ) : Regs :=
  Function.update regs f (Function.update (regs f) i (v % 2 ^ f.storage))

/-- What a field adds to the word at an address. -/
def part (regs : Regs) (a : ℕ) (f : Field) : ℕ :=
  match f.index a with
  | some i => (regs f i % 2 ^ f.info.width) <<< f.info.lsb
  | none => 0

/-- `get_reg` -/
def getReg (regs : Regs) (a : ℕ) : ℕ := Field.all.foldl (fun reg f => reg ||| regs.part a f) 0

/-- The value of a field in a word. -/
def fieldOf (f : Field) (word : ℕ) : ℕ := (word >>> f.info.lsb) % 2 ^ f.info.width

/-- `set_reg` -/
def setReg (regs : Regs) (a word : ℕ) : Regs := fun f i =>
  if f.index a = some i then fieldOf f word else regs f i

/-- The elements that are not read-only. -/
def slots : List (Field × ℕ) :=
  (Field.all.filter fun f => !f.info.readonly).flatMap fun f => (List.range f.length).map (f, ·)

/-- A `std::set` of addresses. -/
def asSet (addrs : List ℕ) : List ℕ := addrs.dedup.mergeSort

/-- `get_all_addrs` -/
def allAddrs : List ℕ := asSet (slots.map fun p => p.1.addr p.2)

/-- `get_changed_addrs`, with what was last saved -/
def changedAddrs (saved regs : Regs) : List ℕ :=
  asSet ((slots.filter fun p => saved p.1 p.2 ≠ regs p.1 p.2).map fun p => p.1.addr p.2)

end Regs

/-! ## The map as a whole -/

namespace Field

theorem mem_all (f : Field) : f ∈ all := by
  have hchan : ∀ {c : Fin 2} {f : Field}, f ∈ ofChan c → f ∈ all := by
    intro c f hf
    refine List.mem_append_right _ ?_
    fin_cases c
    · exact List.mem_append_left _ hf
    · exact List.mem_append_right _ hf
  cases f with
  | pulseSync lo =>
    refine List.mem_append_left _ (List.mem_append_right _ (List.mem_map_of_mem ?_))
    exact ZbxSyncExpert.mem_all_lo lo
  | _ =>
    first
    | exact List.mem_append_left _ (by decide)
    | rename_i c; exact hchan (c := c) (by simp [ofChan])

/-- Two fields do not overlap, and one that is an array is not in the same block as one that is
not. -/
def Apart (f g : Field) : Prop :=
  (f.info.addr = g.info.addr →
      f.info.lsb + f.info.width ≤ g.info.lsb ∨ g.info.lsb + g.info.width ≤ f.info.lsb) ∧
    (f.info.isArray = g.info.isArray ∨
      f.info.addr - f.info.addr % 256 ≠ g.info.addr - g.info.addr % 256)

instance (f g : Field) : Decidable (Apart f g) := by
  unfold Apart
  infer_instance

theorem pairwise_apart : all.Pairwise Apart := by decide +kernel

theorem apart {f g : Field} (h : f ≠ g) : Apart f g := by
  have hsymm : Std.Symm Apart := ⟨fun f g hfg =>
    ⟨fun heq => (hfg.1 heq.symm).symm, hfg.2.imp Eq.symm Ne.symm⟩⟩
  exact pairwise_apart.forall (mem_all f) (mem_all g) h

theorem addr_mod_of_isArray {f : Field} (h : f.info.isArray = true) : f.info.addr % 256 = 0 := by
  have hall : ∀ f ∈ all, f.info.isArray = true → f.info.addr % 256 = 0 := by decide +kernel
  exact hall f (mem_all f) h

variable {f g : Field} {i j a : ℕ}

/-- The elements that `get_reg` and `set_reg` find: 64 of an array. -/
def found (f : Field) : ℕ := if f.info.isArray then 64 else 1

theorem found_le_length (f : Field) : f.found ≤ f.length := by
  rw [found, length]
  split_ifs <;> decide

theorem index_of_isArray (h : f.info.isArray = true) :
    f.index a = some i ↔ f.info.addr = a - a % 256 ∧ a % 256 / 4 = i := by
  rw [index, if_pos h, Option.ite_none_right_eq_some, Option.some.injEq]

theorem index_of_not_isArray (h : f.info.isArray = false) :
    f.index a = some i ↔ f.info.addr = a ∧ 0 = i := by
  rw [index, if_neg (Bool.eq_false_iff.mp h), Option.ite_none_right_eq_some, Option.some.injEq]

theorem addr_eq_of_index (hf : f.index a = some i) (hg : g.index a = some j) :
    f.info.addr = g.info.addr := by
  rcases eq_or_ne f g with rfl | hne
  · rfl
  · have hblock := (apart hne).2
    cases hfa : f.info.isArray <;> cases hga : g.info.isArray
    · rw [((index_of_not_isArray hfa).mp hf).1, ((index_of_not_isArray hga).mp hg).1]
    · have hf' := ((index_of_not_isArray hfa).mp hf).1
      have hg' := ((index_of_isArray hga).mp hg).1
      have hmod := addr_mod_of_isArray hga
      rcases hblock with h | h
      · rw [hfa, hga] at h
        cases h
      · omega
    · have hf' := ((index_of_isArray hfa).mp hf).1
      have hg' := ((index_of_not_isArray hga).mp hg).1
      have hmod := addr_mod_of_isArray hfa
      rcases hblock with h | h
      · rw [hfa, hga] at h
        cases h
      · omega
    · rw [((index_of_isArray hfa).mp hf).1, ((index_of_isArray hga).mp hg).1]

theorem found_of_isArray (h : f.info.isArray = true) : f.found = 64 := if_pos h

theorem found_of_not_isArray (h : f.info.isArray = false) : f.found = 1 :=
  if_neg (Bool.eq_false_iff.mp h)

theorem index_addr (hi : i < f.found) : f.index (f.addr i) = some i := by
  cases harray : f.info.isArray with
  | true =>
    have hmod := addr_mod_of_isArray harray
    rw [found_of_isArray harray] at hi
    rw [index_of_isArray harray, addr]
    omega
  | false =>
    rw [found_of_not_isArray harray] at hi
    rw [index_of_not_isArray harray, addr]
    omega

theorem addr_of_index (hi : i < f.found) (hg : g.index (f.addr i) = some j) :
    g.addr j = f.addr i ∧ j < g.found := by
  have haddr := addr_eq_of_index (index_addr hi) hg
  have hle : f.found ≤ 64 := by
    rw [found]
    split_ifs <;> decide
  cases hga : g.info.isArray with
  | true =>
    obtain ⟨hblock, hj⟩ := (index_of_isArray hga).mp hg
    have hmod := addr_mod_of_isArray hga
    rw [found_of_isArray hga]
    rw [addr] at hblock hj ⊢
    rw [addr]
    omega
  | false =>
    obtain ⟨hg', hj⟩ := (index_of_not_isArray hga).mp hg
    rw [found_of_not_isArray hga]
    rw [addr] at hg' ⊢
    rw [addr]
    omega

end Field

/-! ## Words and fields -/

namespace Regs

variable {regs : Regs} {f g : Field} {i j a : ℕ}

theorem testBit_foldl_or (fs : List Field) (init k : ℕ) :
    (fs.foldl (fun reg f => reg ||| regs.part a f) init).testBit k =
      (init.testBit k || fs.any fun f => (regs.part a f).testBit k) := by
  induction fs generalizing init with
  | nil => rw [List.foldl_nil, List.any_nil, Bool.or_false]
  | cons f fs ih => rw [List.foldl_cons, ih, Nat.testBit_or, List.any_cons, Bool.or_assoc]

theorem testBit_part (h : f.index a = some i) (k : ℕ) :
    (regs.part a f).testBit k = (decide (f.info.lsb ≤ k) &&
      (decide (k - f.info.lsb < f.info.width) && (regs f i).testBit (k - f.info.lsb))) := by
  rw [part, h]
  dsimp only
  rw [Nat.testBit_shiftLeft, Nat.testBit_mod_two_pow]

theorem field_getReg (h : f.index a = some i) :
    fieldOf f (regs.getReg a) = regs f i % 2 ^ f.info.width := by
  refine Nat.eq_of_testBit_eq fun k => ?_
  rw [fieldOf, Nat.testBit_mod_two_pow, Nat.testBit_mod_two_pow, Nat.testBit_shiftRight, getReg,
    testBit_foldl_or, Nat.zero_testBit, Bool.false_or]
  by_cases hk : k < f.info.width
  · refine congrArg (decide (k < f.info.width) && ·) ?_
    have hself : (regs.part a f).testBit (f.info.lsb + k) = (regs f i).testBit k := by
      rw [testBit_part h, Nat.add_sub_cancel_left, decide_eq_true (Nat.le_add_right _ _),
        decide_eq_true hk, Bool.true_and, Bool.true_and]
    rw [← hself, Bool.eq_iff_iff, List.any_eq_true]
    constructor
    · rintro ⟨g, -, hg⟩
      rcases eq_or_ne g f with rfl | hne
      · exact hg
      · -- another field has none of these bits
        cases hindex : g.index a with
        | none =>
          rw [part, hindex] at hg
          exact absurd hg (by rw [Nat.zero_testBit]; exact Bool.false_ne_true)
        | some j =>
          rw [testBit_part hindex, Bool.and_eq_true, Bool.and_eq_true, decide_eq_true_iff,
            decide_eq_true_iff] at hg
          have hapart := (Field.apart hne).1 (Field.addr_eq_of_index hindex h)
          omega
    · exact fun hf => ⟨f, Field.mem_all f, hf⟩
  · rw [decide_eq_false hk, Bool.false_and, Bool.false_and]

theorem getReg_eq_zero (h : ∀ f ∈ Field.all, f.index a = none) : regs.getReg a = 0 := by
  refine Nat.eq_of_testBit_eq fun k => ?_
  rw [getReg, testBit_foldl_or, Nat.zero_testBit, Bool.false_or, List.any_eq_false]
  intro f hf
  rw [part, h f hf, Nat.zero_testBit]
  exact Bool.false_ne_true

theorem fieldOf_lt (f : Field) (word : ℕ) : fieldOf f word < 2 ^ f.info.width :=
  Nat.mod_lt _ (Nat.two_pow_pos _)

theorem setReg_of_addr_eq {word : ℕ} (hj : j < g.found) (h : g.addr j = a) :
    regs.setReg a word g j = fieldOf g word := by
  rw [setReg, if_pos]
  rw [← h]
  exact Field.index_addr hj

theorem setReg_of_addr_ne {word : ℕ} (hi : i < f.found) (h : g.addr j ≠ f.addr i) :
    regs.setReg (f.addr i) word g j = regs g j := by
  rw [setReg, if_neg]
  intro hindex
  exact h (Field.addr_of_index hi hindex).1

theorem mem_slots {f : Field} {i : ℕ} :
    (f, i) ∈ slots ↔ f.info.readonly = false ∧ i < f.length := by
  rw [slots, List.mem_flatMap]
  constructor
  · rintro ⟨g, hg, hmem⟩
    obtain ⟨j, hj, heq⟩ := List.mem_map.mp hmem
    obtain ⟨rfl, rfl⟩ := Prod.mk.inj heq
    exact ⟨Bool.not_eq_true' _ ▸ (List.mem_filter.mp hg).2, List.mem_range.mp hj⟩
  · rintro ⟨hro, hi⟩
    refine ⟨f, List.mem_filter.mpr ⟨Field.mem_all f, by rw [hro]; rfl⟩, ?_⟩
    exact List.mem_map.mpr ⟨i, List.mem_range.mpr hi, rfl⟩

theorem mem_asSet {addrs : List ℕ} : a ∈ asSet addrs ↔ a ∈ addrs := by
  rw [asSet, List.mem_mergeSort, List.mem_dedup]

theorem mem_changedAddrs {saved : Regs} : a ∈ changedAddrs saved regs ↔
    ∃ f i, (f.info.readonly = false ∧ i < f.length) ∧ saved f i ≠ regs f i ∧ f.addr i = a := by
  rw [changedAddrs, mem_asSet, List.mem_map]
  constructor
  · rintro ⟨⟨f, i⟩, hmem, haddr⟩
    obtain ⟨hslot, hne⟩ := List.mem_filter.mp hmem
    exact ⟨f, i, mem_slots.mp hslot, of_decide_eq_true hne, haddr⟩
  · rintro ⟨f, i, hslot, hne, haddr⟩
    exact ⟨(f, i), List.mem_filter.mpr ⟨mem_slots.mpr hslot, decide_eq_true hne⟩, haddr⟩

theorem changedAddrs_self (regs : Regs) : changedAddrs regs regs = [] := by
  refine List.eq_nil_iff_forall_not_mem.mpr fun a ha => ?_
  obtain ⟨f, i, -, hne, -⟩ := mem_changedAddrs.mp ha
  exact hne rfl

end Regs

end ZbxCpld
end Usrp
end UhdHost
