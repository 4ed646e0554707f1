import UhdHost.Library.BitFields
import UhdHost.Library.Transition
import UhdHost.Types.Exception

/-!
# Transfers over SPI

A transfer of `spi_core_4000.cpp` needs three registers of the core: the configuration of the
peripheral, which of the peripherals is selected, with the clock divider, and last the data, whose
write starts the transfer.  The first two are written only where their values differ from those
written last, which are cached.

The caches begin with zero, and so do those of peripherals that are configured anew.  No
configuration of a peripheral is zero, as it holds the number of bits; a selection of the first
peripheral without a divider is.

* `toNat_periphCtrl`: a configuration, field by field.
* `right_step_iff`: when a call starts a transfer with what it asked for.
* `right_iff_everyStep`: all the transfers of a run are right exactly when all its calls meet the
  condition.
-/

namespace UhdHost
namespace Usrp
namespace SpiCore

/-! ## The core -/

/-- `edge_t` -/
inductive Edge where
  | rise
  | fall
  deriving DecidableEq

/-- `spi_config_t` -/
structure SpiConfig where
  mosiEdge : Edge
  misoEdge : Edge
  divider : ℕ

/-- `spi_periph_config_t`, the GPIO lines of a peripheral -/
structure PeriphConfig where
  periphCs : BitVec 8
  periphSdi : BitVec 8
  periphSdo : BitVec 8
  periphClk : BitVec 8

/-- **Where the registers are.**  Those of the four peripherals are apart from the others. -/
structure RegisterMap where
  periphCfg : BitVec 32
  transactionCfg : BitVec 32
  transactionGo : BitVec 32
  periphCfg_ne_transactionCfg : ∀ k < 4, periphCfg + BitVec.ofNat 32 (k * 4) ≠ transactionCfg
  periphCfg_ne_transactionGo : ∀ k < 4, periphCfg + BitVec.ofNat 32 (k * 4) ≠ transactionGo
  transactionCfg_ne_transactionGo : transactionCfg ≠ transactionGo

/-- What a call of `transact_spi` asks for. -/
structure Transfer where
  whichPeriph : BitVec 32
  config : SpiConfig
  data : BitVec 32
  numBits : ℕ
  numBits_pos : 0 < numBits
  numBits_le : numBits ≤ 32
  readback : Bool

/-- A transfer that was started: what was asked for, with the peripheral's lines, and what the
registers held. -/
structure Started where
  transfer : Transfer
  periph : PeriphConfig
  registers : BitVec 32 → BitVec 32

/-- The core, with the registers of the hardware and the transfers that were started. -/
structure Core where
  periphCtrlCache : List (BitVec 32)
  transactionCfgCache : BitVec 32
  periphConfig : List PeriphConfig
  hardware : BitVec 32 → BitVec 32
  log : List Started

/-- A core that is made, on hardware that holds anything. -/
def make (hardware : BitVec 32 → BitVec 32) : Core :=
  { periphCtrlCache := []
    transactionCfgCache := 0
    periphConfig := []
    hardware
    log := [] }

def numPinsPerPort : ℕ := 12

def portNumberOffset : ℕ := 16

/-- The register of a peripheral. -/
def RegisterMap.periph (m : RegisterMap) (whichPeriph : ℕ) : BitVec 32 :=
  m.periphCfg + BitVec.ofNat 32 (whichPeriph * 4)

def poke32 (addr value : BitVec 32) (s : Core) : Core :=
  { s with hardware := Function.update s.hardware addr value }

/-- `set_spi_periph_config`, with what the core answers about itself. -/
def setSpiPeriphConfig (info : BitVec 32) (spc : List PeriphConfig) (s : Core) :
    Except UhdError Unit × Core :=
  if (info &&& 0xF).toNat < spc.length then
    (.error (.valueError ("Number of configurations passed (" ++ toString spc.length
      ++ ") exceeds the maximum number allowed by the bitfile per radio block. Maximum number: "
      ++ toString (info &&& 0xF).toNat)), s)
  else
    (.ok (), { s with
      periphConfig := spc
      periphCtrlCache := List.replicate spc.length 0 })

/-- `get_bitfield` -/
def getBitfield (pin : BitVec 32) (offset : ℕ) : BitVec 32 :=
  let adj := pin + if numPinsPerPort ≤ pin.toNat then
    BitVec.ofNat 32 (portNumberOffset - numPinsPerPort) else 0
  (adj &&& 0x1F) <<< offset

/-- The configuration of a peripheral for a transfer. -/
def periphCtrl (t : Transfer) (periph : PeriphConfig) : BitVec 32 :=
  let ctrl := if t.config.mosiEdge = .fall then 1#32 <<< 27 else 0
  let ctrl := ctrl ||| if t.config.misoEdge = .rise then 1#32 <<< 26 else 0
  let ctrl := ctrl ||| ((BitVec.ofNat 32 t.numBits &&& 0x3F) <<< 20)
  let ctrl := ctrl ||| getBitfield (periph.periphCs.setWidth 32) 15
  let ctrl := ctrl ||| getBitfield (periph.periphSdi.setWidth 32) 10
  let ctrl := ctrl ||| getBitfield (periph.periphSdo.setWidth 32) 5
  ctrl ||| getBitfield (periph.periphClk.setWidth 32) 0

/-- What selects the peripheral and sets the divider. -/
def transactionConfig (whichPeriph : BitVec 32) (divider : ℕ) : BitVec 32 :=
  ((whichPeriph &&& 0x3) <<< 16) ||| (BitVec.ofNat 32 divider &&& 0xFFFF)

/-- Writing the configuration of the peripheral, unless it was written last. -/
def sendPeriphCtrl (m : RegisterMap) (whichPeriph : ℕ) (ctrl : BitVec 32) (s : Core) : Core :=
  if s.periphCtrlCache[whichPeriph]? ≠ some ctrl then
    { poke32 (m.periph whichPeriph) ctrl s with
      periphCtrlCache := s.periphCtrlCache.set whichPeriph ctrl }
  else
    s

/-- Writing the selection and the divider, unless they were written last. -/
def sendTransactionCfg (m : RegisterMap) (cfg : BitVec 32) (s : Core) : Core :=
  if s.transactionCfgCache ≠ cfg then
    { poke32 m.transactionCfg cfg s with transactionCfgCache := cfg }
  else
    s

/-- Writing the data, which starts the transfer. -/
def go (m : RegisterMap) (t : Transfer) (periph : PeriphConfig) (s : Core) : Core :=
  let s := poke32 m.transactionGo (t.data <<< (32 - t.numBits)) s
  { s with log := s.log ++ [⟨t, periph, s.hardware⟩] }

/-- `transact_spi`.  The status is that in which the core is ready, where it gets so in time. -/
def transactSpi (m : RegisterMap) (t : Transfer) (status : Option (BitVec 32)) (s : Core) :
    Except UhdError (BitVec 32) × Core :=
  match s.periphConfig[t.whichPeriph.toNat]? with
  | none => (.error (.valueError "No configuration given for requested SPI peripheral."), s)
  | some periph =>
    if 0xFFFF < t.config.divider then
      (.error (.valueError "Clock divider exceeds maximum value (65535)."), s)
    else
      let s := sendPeriphCtrl m t.whichPeriph.toNat (periphCtrl t periph) s
      let s := sendTransactionCfg m (transactionConfig t.whichPeriph t.config.divider) s
      let s := go m t periph s
      if t.readback then
        match status with
        | none =>
          (.error (.ioError "SPI Read did not receive a SPI Ready within 5 seconds"), s)
        | some response => (.ok (0xFFFFFF &&& response), s)
      else
        (.ok 0, s)

/-- A call. -/
inductive Call where
  | setSpiPeriphConfig (info : BitVec 32) (spc : List PeriphConfig)
  | transactSpi (t : Transfer) (status : Option (BitVec 32))

/-- What a call leaves, whether it throws or not. -/
def Call.after (m : RegisterMap) (s : Core) : Call → Option Core
  | .setSpiPeriphConfig info spc => some (SpiCore.setSpiPeriphConfig info spc s).2
  | .transactSpi t status => some (SpiCore.transactSpi m t status s).2

/-! ## What is claimed -/

/-- The number that the register map has for a pin: the second port begins at 16. -/
def pinNumber (pin : BitVec 8) : ℕ :=
  if numPinsPerPort ≤ pin.toNat then
    portNumberOffset + (pin.toNat - numPinsPerPort)
  else
    pin.toNat

/-- The fields of the configuration that a transfer asks for. -/
def askedCtrl (t : Transfer) (periph : PeriphConfig) : ℕ :=
  (if t.config.mosiEdge = .fall then 2 ^ 27 else 0)
    + (if t.config.misoEdge = .rise then 2 ^ 26 else 0)
    + t.numBits * 2 ^ 20
    + pinNumber periph.periphCs * 2 ^ 15
    + pinNumber periph.periphSdi * 2 ^ 10
    + pinNumber periph.periphSdo * 2 ^ 5
    + pinNumber periph.periphClk

/-- **What is claimed** of a transfer that was started. -/
structure Started.Right (m : RegisterMap) (r : Started) : Prop where
  /-- The peripheral is the one that the two bits select. -/
  selects : ((r.registers m.transactionCfg >>> 16) &&& 0x3).toNat = r.transfer.whichPeriph.toNat
  /-- The divider, with the selection. -/
  transactionCfg : (r.registers m.transactionCfg).toNat
    = r.transfer.whichPeriph.toNat * 2 ^ 16 + r.transfer.config.divider
  /-- The configuration of that peripheral. -/
  periphCtrl : (r.registers (m.periph r.transfer.whichPeriph.toNat)).toNat
    = askedCtrl r.transfer r.periph
  /-- The bits of the data, in the uppermost places. -/
  data : (r.registers m.transactionGo).toNat
    = r.transfer.data.toNat % 2 ^ r.transfer.numBits * 2 ^ (32 - r.transfer.numBits)

/-- The lines of a peripheral have numbers of five bits. -/
def PeriphConfig.Fits (periph : PeriphConfig) : Prop :=
  periph.periphCs.toNat < 28 ∧ periph.periphSdi.toNat < 28 ∧ periph.periphSdo.toNat < 28 ∧
    periph.periphClk.toNat < 28

instance (periph : PeriphConfig) : Decidable periph.Fits :=
  inferInstanceAs (Decidable (_ ∧ _ ∧ _ ∧ _))

/-- **The condition for a call**: a transfer that is not refused is to one of the first four
peripherals, whose lines fit, and if it is to the first without a divider, and nothing else is
cached, then the register is zero. -/
def Meets (m : RegisterMap) (s : Core) : Call → Prop
  | .setSpiPeriphConfig _ _ => True
  | .transactSpi t _ => ∀ periph, s.periphConfig[t.whichPeriph.toNat]? = some periph →
      t.config.divider ≤ 0xFFFF →
      t.whichPeriph.toNat < 4 ∧ periph.Fits ∧
        (t.whichPeriph.toNat = 0 → t.config.divider = 0 → s.transactionCfgCache = 0 →
          s.hardware m.transactionCfg = 0)

/-! ## The values -/

section Values

variable {pin : BitVec 8} {t : Transfer} {periph : PeriphConfig}

theorem pinNumber_lt_iff : pinNumber pin < 32 ↔ pin.toNat < 28 := by
  unfold pinNumber numPinsPerPort portNumberOffset
  split_ifs <;> omega

theorem toNat_adjusted (pin : BitVec 8) :
    ((pin.setWidth 32 + if numPinsPerPort ≤ (pin.setWidth 32).toNat then
      BitVec.ofNat 32 (portNumberOffset - numPinsPerPort) else 0) &&& 0x1F).toNat
      = pinNumber pin % 32 := by
  have hpin := pin.isLt
  have hwide : (pin.setWidth 32).toNat = pin.toNat := BitFields.toNat_setWidth_of_le pin (by decide)
  have hmask : (0x1F : BitVec 32).toNat = 2 ^ 5 - 1 := rfl
  rw [BitVec.toNat_and, hmask, Nat.and_two_pow_sub_one_eq_mod, BitVec.toNat_add, hwide]
  unfold pinNumber numPinsPerPort portNumberOffset
  split_ifs with hport
  · have hoffset : (BitVec.ofNat 32 (16 - 12)).toNat = 4 := rfl
    rw [hoffset, Nat.mod_eq_of_lt (by omega : pin.toNat + 4 < 2 ^ 32)]
    omega
  · have hzero : (0 : BitVec 32).toNat = 0 := rfl
    rw [hzero, Nat.add_zero, Nat.mod_eq_of_lt (by omega : pin.toNat < 2 ^ 32)]

theorem toNat_or_getBitfield {x : BitVec 32} {offset c : ℕ} (h : offset + 5 ≤ 32)
    (hx : x.toNat = 2 ^ (offset + 5) * c) (pin : BitVec 8) :
    (x ||| getBitfield (pin.setWidth 32) offset).toNat
      = 2 ^ offset * (32 * c + pinNumber pin % 32) := by
  have hlt : pinNumber pin % 32 < 2 ^ 5 := Nat.mod_lt _ (by decide)
  rw [getBitfield, BitFields.toNat_or_shiftLeft h (Dvd.intro c hx.symm), toNat_adjusted, hx,
    Nat.pow_add, Nat.mul_add, Nat.mul_assoc, Nat.mul_comm (pinNumber pin % 32)]
  rw [toNat_adjusted]
  exact hlt

theorem toNat_edges (config : SpiConfig) :
    ((if config.mosiEdge = .fall then 1#32 <<< 27 else 0)
      ||| if config.misoEdge = .rise then 1#32 <<< 26 else 0).toNat
      = 2 ^ 26 * ((if config.mosiEdge = .fall then 2 else 0)
        + if config.misoEdge = .rise then 1 else 0) := by
  split_ifs <;> rfl

theorem toNat_numBits (t : Transfer) : (BitVec.ofNat 32 t.numBits &&& 0x3F).toNat = t.numBits := by
  have hle := t.numBits_le
  have hmask : (0x3F : BitVec 32).toNat = 2 ^ 6 - 1 := rfl
  rw [BitVec.toNat_and, hmask, Nat.and_two_pow_sub_one_eq_mod, BitVec.toNat_ofNat,
    Nat.mod_eq_of_lt (by omega : t.numBits < 2 ^ 32), Nat.mod_eq_of_lt (by omega)]

theorem toNat_edges_or_numBits (t : Transfer) :
    (((if t.config.mosiEdge = .fall then 1#32 <<< 27 else 0)
      ||| if t.config.misoEdge = .rise then 1#32 <<< 26 else 0)
      ||| ((BitVec.ofNat 32 t.numBits &&& 0x3F) <<< 20)).toNat
      = 2 ^ (15 + 5) * (64 * ((if t.config.mosiEdge = .fall then 2 else 0)
        + if t.config.misoEdge = .rise then 1 else 0) + t.numBits) := by
  have hlt : (BitVec.ofNat 32 t.numBits &&& 0x3F).toNat < 2 ^ 6 := by
    rw [toNat_numBits]
    exact Nat.lt_of_le_of_lt t.numBits_le (by decide)
  rw [BitFields.toNat_or_shiftLeft (by decide) (Dvd.intro _ (toNat_edges t.config).symm) hlt,
    toNat_edges, toNat_numBits]
  omega

theorem toNat_periphCtrl (t : Transfer) (periph : PeriphConfig) :
    (periphCtrl t periph).toNat
      = (if t.config.mosiEdge = .fall then 2 ^ 27 else 0)
        + (if t.config.misoEdge = .rise then 2 ^ 26 else 0)
        + t.numBits * 2 ^ 20
        + pinNumber periph.periphCs % 32 * 2 ^ 15
        + pinNumber periph.periphSdi % 32 * 2 ^ 10
        + pinNumber periph.periphSdo % 32 * 2 ^ 5
        + pinNumber periph.periphClk % 32 := by
  have hcs := toNat_or_getBitfield (by decide) (toNat_edges_or_numBits t) periph.periphCs
  have hsdi := @toNat_or_getBitfield _ 10 _ (by decide) hcs periph.periphSdi
  have hsdo := @toNat_or_getBitfield _ 5 _ (by decide) hsdi periph.periphSdo
  have hclk := @toNat_or_getBitfield _ 0 _ (by decide) hsdo periph.periphClk
  rw [periphCtrl, hclk]
  split_ifs <;> omega

theorem periphCtrl_ne_zero (t : Transfer) (periph : PeriphConfig) : periphCtrl t periph ≠ 0 := by
  intro hzero
  have hpos := t.numBits_pos
  have hvalue := toNat_periphCtrl t periph
  rw [hzero] at hvalue
  have hnat : (0 : BitVec 32).toNat = 0 := rfl
  omega

theorem toNat_periphCtrl_eq_iff (t : Transfer) (periph : PeriphConfig) :
    (periphCtrl t periph).toNat = askedCtrl t periph ↔ periph.Fits := by
  rw [toNat_periphCtrl, askedCtrl, PeriphConfig.Fits, ← pinNumber_lt_iff, ← pinNumber_lt_iff,
    ← pinNumber_lt_iff, ← pinNumber_lt_iff]
  omega

theorem toNat_transactionConfig {whichPeriph : BitVec 32} {divider : ℕ}
    (hwhich : whichPeriph.toNat < 4) (hdivider : divider ≤ 0xFFFF) :
    (transactionConfig whichPeriph divider).toNat = whichPeriph.toNat * 2 ^ 16 + divider := by
  have hselect : (whichPeriph &&& 0x3).toNat = whichPeriph.toNat := by
    have hmask : (0x3 : BitVec 32).toNat = 2 ^ 2 - 1 := rfl
    rw [BitVec.toNat_and, hmask, Nat.and_two_pow_sub_one_eq_mod, Nat.mod_eq_of_lt hwhich]
  have hlow : (BitVec.ofNat 32 divider &&& 0xFFFF).toNat = divider := by
    have hmask : (0xFFFF : BitVec 32).toNat = 2 ^ 16 - 1 := rfl
    rw [BitVec.toNat_and, hmask, Nat.and_two_pow_sub_one_eq_mod, BitVec.toNat_ofNat,
      Nat.mod_eq_of_lt (by omega : divider < 2 ^ 32), Nat.mod_eq_of_lt (by omega)]
  have hdvd : 2 ^ (0 + 16) ∣ ((whichPeriph &&& 0x3) <<< 16).toNat := by
    rw [BitVec.toNat_shiftLeft, hselect, Nat.shiftLeft_eq, Nat.mod_eq_of_lt (by omega)]
    exact Dvd.intro_left _ rfl
  have hword := BitFields.toNat_or_shiftLeft (by decide) hdvd
    (hlow.trans_lt (Nat.lt_succ_of_le hdivider))
  rw [BitVec.shiftLeft_zero] at hword
  rw [transactionConfig, hword, BitVec.toNat_shiftLeft, hselect, hlow, Nat.shiftLeft_eq,
    Nat.mod_eq_of_lt (by omega), Nat.pow_zero, Nat.mul_one]

theorem toNat_data (t : Transfer) : (t.data <<< (32 - t.numBits)).toNat
    = t.data.toNat % 2 ^ t.numBits * 2 ^ (32 - t.numBits) := by
  have hsplit : 2 ^ 32 = 2 ^ t.numBits * 2 ^ (32 - t.numBits) := by
    rw [← Nat.pow_add, Nat.add_sub_cancel' t.numBits_le]
  rw [BitVec.toNat_shiftLeft, Nat.shiftLeft_eq, hsplit, Nat.mul_mod_mul_right]

end Values

/-! ## What is cached -/

section Cached

variable {m : RegisterMap} {s : Core} {t : Transfer} {periph : PeriphConfig}

theorem RegisterMap.periph_ne (m : RegisterMap) {k l : ℕ} (hk : k < 4) (hl : l < 4) (h : k ≠ l) :
    m.periph k ≠ m.periph l := by
  intro heq
  have hoffset : BitVec.ofNat 32 (k * 4) = BitVec.ofNat 32 (l * 4) :=
    (BitVec.add_right_inj _).mp heq
  have hnat := congrArg BitVec.toNat hoffset
  rw [BitVec.toNat_ofNat, BitVec.toNat_ofNat, Nat.mod_eq_of_lt (by omega),
    Nat.mod_eq_of_lt (by omega)] at hnat
  omega

theorem RegisterMap.periph_ne_transactionCfg (m : RegisterMap) {k : ℕ} (hk : k < 4) :
    m.periph k ≠ m.transactionCfg := m.periphCfg_ne_transactionCfg k hk

theorem RegisterMap.periph_ne_transactionGo (m : RegisterMap) {k : ℕ} (hk : k < 4) :
    m.periph k ≠ m.transactionGo := m.periphCfg_ne_transactionGo k hk

/-- **The invariant.**  A cache that is not zero holds what its register does. -/
structure Inv (m : RegisterMap) (s : Core) : Prop where
  length : s.periphCtrlCache.length = s.periphConfig.length
  ctrl : ∀ k < 4, ∀ c, s.periphCtrlCache[k]? = some c → c = 0 ∨ s.hardware (m.periph k) = c
  cfg : s.transactionCfgCache = 0 ∨ s.hardware m.transactionCfg = s.transactionCfgCache

theorem inv_make (m : RegisterMap) (hardware : BitVec 32 → BitVec 32) : Inv m (make hardware) where
  length := rfl
  ctrl k _ c hc := by cases hc
  cfg := Or.inl rfl

theorem Inv.setSpiPeriphConfig (h : Inv m s) (info : BitVec 32) (spc : List PeriphConfig) :
    Inv m (setSpiPeriphConfig info spc s).2 := by
  rw [SpiCore.setSpiPeriphConfig]
  split_ifs with hmany
  · exact h
  · refine ⟨List.length_replicate, fun k _ c hc => Or.inl ?_, h.cfg⟩
    exact List.eq_of_mem_replicate (List.mem_of_getElem? hc)

theorem Inv.sendPeriphCtrl (h : Inv m s) {k : ℕ} (hk : k < 4) (hlen : k < s.periphConfig.length)
    {ctrl : BitVec 32} (hctrl : ctrl ≠ 0) :
    Inv m (sendPeriphCtrl m k ctrl s) ∧
      (SpiCore.sendPeriphCtrl m k ctrl s).hardware (m.periph k) = ctrl := by
  rw [SpiCore.sendPeriphCtrl]
  split_ifs with hcache
  · refine ⟨⟨?_, fun l hl c hc => ?_, ?_⟩, Function.update_self ..⟩
    · rw [List.length_set]
      exact h.length
    · rcases eq_or_ne l k with rfl | hne
      · right
        rw [List.getElem?_set_self (h.length ▸ hlen), Option.some_inj] at hc
        exact (Function.update_self ..).trans hc
      · rw [List.getElem?_set_ne hne.symm] at hc
        exact (h.ctrl l hl c hc).imp_right fun heq =>
          (Function.update_of_ne (m.periph_ne hl hk hne) ..).trans heq
    · exact h.cfg.imp_right fun heq =>
        (Function.update_of_ne (m.periph_ne_transactionCfg hk).symm ..).trans heq
  · refine ⟨h, (h.ctrl k hk ctrl (not_not.mp hcache)).resolve_left hctrl⟩

theorem hardware_sendPeriphCtrl {k : ℕ} {ctrl addr : BitVec 32} (h : addr ≠ m.periph k) (s : Core) :
    (sendPeriphCtrl m k ctrl s).hardware addr = s.hardware addr := by
  rw [sendPeriphCtrl]
  split_ifs
  · exact Function.update_of_ne h ..
  · rfl

@[simp] theorem transactionCfgCache_sendPeriphCtrl (m : RegisterMap) (k : ℕ) (ctrl : BitVec 32)
    (s : Core) : (sendPeriphCtrl m k ctrl s).transactionCfgCache = s.transactionCfgCache := by
  rw [sendPeriphCtrl]
  split_ifs <;> rfl

@[simp] theorem log_sendPeriphCtrl (m : RegisterMap) (k : ℕ) (ctrl : BitVec 32) (s : Core) :
    (sendPeriphCtrl m k ctrl s).log = s.log := by
  rw [sendPeriphCtrl]
  split_ifs <;> rfl

theorem Inv.sendTransactionCfg (h : Inv m s) (cfg : BitVec 32) :
    Inv m (sendTransactionCfg m cfg s) ∧
      ((SpiCore.sendTransactionCfg m cfg s).hardware m.transactionCfg = cfg ↔
        (cfg = 0 → s.transactionCfgCache = 0 → s.hardware m.transactionCfg = 0)) := by
  rw [SpiCore.sendTransactionCfg]
  split_ifs with hcache
  · refine ⟨⟨h.length, fun k hk c hc => ?_, Or.inr (Function.update_self ..)⟩, ?_⟩
    · exact (h.ctrl k hk c hc).imp_right fun heq =>
        (Function.update_of_ne (m.periph_ne_transactionCfg hk) ..).trans heq
    · exact iff_of_true (Function.update_self ..) fun hzero hnone =>
        absurd (hnone.trans hzero.symm) hcache
  · have hcfg := not_not.mp hcache
    refine ⟨h, ?_⟩
    rw [← hcfg]
    constructor
    · intro heq hzero _
      exact heq.trans hzero
    · intro hzero
      rcases h.cfg with hnone | heq
      · exact (hzero hnone hnone).trans hnone.symm
      · exact heq

theorem hardware_sendTransactionCfg {cfg addr : BitVec 32} (h : addr ≠ m.transactionCfg)
    (s : Core) : (sendTransactionCfg m cfg s).hardware addr = s.hardware addr := by
  rw [sendTransactionCfg]
  split_ifs
  · exact Function.update_of_ne h ..
  · rfl

@[simp] theorem log_sendTransactionCfg (m : RegisterMap) (cfg : BitVec 32) (s : Core) :
    (sendTransactionCfg m cfg s).log = s.log := by
  rw [sendTransactionCfg]
  split_ifs <;> rfl

theorem Inv.go (h : Inv m s) (t : Transfer) (periph : PeriphConfig) : Inv m (go m t periph s) where
  length := h.length
  ctrl k hk c hc := (h.ctrl k hk c hc).imp_right fun heq =>
    (Function.update_of_ne (m.periph_ne_transactionGo hk) ..).trans heq
  cfg := h.cfg.imp_right fun heq =>
    (Function.update_of_ne m.transactionCfg_ne_transactionGo ..).trans heq

/-- A transfer that is not refused, up to its start. -/
def start (m : RegisterMap) (t : Transfer) (periph : PeriphConfig) (s : Core) : Core :=
  go m t periph (sendTransactionCfg m (transactionConfig t.whichPeriph t.config.divider)
    (sendPeriphCtrl m t.whichPeriph.toNat (periphCtrl t periph) s))

theorem transactSpi_snd (m : RegisterMap) (t : Transfer) (status : Option (BitVec 32)) (s : Core) :
    (∃ periph, s.periphConfig[t.whichPeriph.toNat]? = some periph ∧ t.config.divider ≤ 0xFFFF ∧
        (transactSpi m t status s).2 = start m t periph s) ∨
      (∀ periph, s.periphConfig[t.whichPeriph.toNat]? = some periph →
        ¬ t.config.divider ≤ 0xFFFF) ∧ (transactSpi m t status s).2 = s := by
  unfold transactSpi
  cases hperiph : s.periphConfig[t.whichPeriph.toNat]? with
  | none => exact Or.inr ⟨fun periph h => absurd h (Option.some_ne_none periph).symm, rfl⟩
  | some periph =>
    by_cases hdivider : 0xFFFF < t.config.divider
    · right
      refine ⟨fun _ _ => Nat.not_le_of_lt hdivider, ?_⟩
      dsimp only
      rw [if_pos hdivider]
    · left
      refine ⟨periph, rfl, Nat.le_of_not_lt hdivider, ?_⟩
      dsimp only
      rw [if_neg hdivider]
      split_ifs
      · cases status <;> rfl
      · rfl

theorem log_start (m : RegisterMap) (t : Transfer) (periph : PeriphConfig) (s : Core) :
    (start m t periph s).log = s.log ++ [⟨t, periph, (start m t periph s).hardware⟩] := by
  show (sendTransactionCfg m _ (sendPeriphCtrl m _ _ s)).log ++ _ = _
  rw [log_sendTransactionCfg, log_sendPeriphCtrl]
  rfl

theorem toNat_select (w : BitVec 32) : ((w >>> 16) &&& 0x3).toNat = w.toNat / 2 ^ 16 % 4 := by
  have hmask : (0x3 : BitVec 32).toNat = 2 ^ 2 - 1 := rfl
  rw [BitVec.toNat_and, hmask, Nat.and_two_pow_sub_one_eq_mod, BitVec.toNat_ushiftRight,
    Nat.shiftRight_eq_div_pow]

theorem select_iff {w : BitVec 32} (hwhich : t.whichPeriph.toNat < 4)
    (hdivider : t.config.divider ≤ 0xFFFF) :
    ((w >>> 16) &&& 0x3).toNat = t.whichPeriph.toNat ∧
        w.toNat = t.whichPeriph.toNat * 2 ^ 16 + t.config.divider
      ↔ w = transactionConfig t.whichPeriph t.config.divider := by
  rw [toNat_select]
  constructor
  · intro h
    exact BitVec.eq_of_toNat_eq (h.2.trans (toNat_transactionConfig hwhich hdivider).symm)
  · rintro rfl
    rw [toNat_transactionConfig hwhich hdivider]
    omega

theorem transactionConfig_eq_zero_iff (hwhich : t.whichPeriph.toNat < 4)
    (hdivider : t.config.divider ≤ 0xFFFF) :
    transactionConfig t.whichPeriph t.config.divider = 0 ↔
      t.whichPeriph.toNat = 0 ∧ t.config.divider = 0 := by
  have hvalue := toNat_transactionConfig hwhich hdivider
  rw [← BitVec.toNat_inj, hvalue]
  have hzero : (0 : BitVec 32).toNat = 0 := rfl
  omega

theorem Inv.start (h : Inv m s) (hperiph : s.periphConfig[t.whichPeriph.toNat]? = some periph)
    (hdivider : t.config.divider ≤ 0xFFFF) (hwhich : t.whichPeriph.toNat < 4) :
    Inv m (start m t periph s) ∧
      (Started.Right m ⟨t, periph, (SpiCore.start m t periph s).hardware⟩ ↔
        periph.Fits ∧ (t.whichPeriph.toNat = 0 → t.config.divider = 0 →
          s.transactionCfgCache = 0 → s.hardware m.transactionCfg = 0)) := by
  have hlen := (List.getElem?_eq_some_iff.mp hperiph).1
  obtain ⟨h₁, hctrl⟩ := h.sendPeriphCtrl hwhich hlen (periphCtrl_ne_zero t periph)
  obtain ⟨h₂, hcfg⟩ := h₁.sendTransactionCfg (transactionConfig t.whichPeriph t.config.divider)
  refine ⟨h₂.go t periph, ?_⟩
  have hgo : (SpiCore.start m t periph s).hardware m.transactionGo
      = t.data <<< (32 - t.numBits) := Function.update_self ..
  have hperiphReg : (SpiCore.start m t periph s).hardware (m.periph t.whichPeriph.toNat)
      = periphCtrl t periph :=
    (Function.update_of_ne (m.periph_ne_transactionGo hwhich) ..).trans
      ((hardware_sendTransactionCfg (m.periph_ne_transactionCfg hwhich) _).trans hctrl)
  have hcfgReg : (SpiCore.start m t periph s).hardware m.transactionCfg
      = (SpiCore.sendTransactionCfg m (transactionConfig t.whichPeriph t.config.divider)
        (SpiCore.sendPeriphCtrl m t.whichPeriph.toNat (periphCtrl t periph) s)).hardware
          m.transactionCfg :=
    Function.update_of_ne m.transactionCfg_ne_transactionGo ..
  rw [transactionCfgCache_sendPeriphCtrl,
    hardware_sendPeriphCtrl (m.periph_ne_transactionCfg hwhich).symm, ← hcfgReg,
    ← select_iff hwhich hdivider, transactionConfig_eq_zero_iff hwhich hdivider] at hcfg
  constructor
  · intro hright
    refine ⟨(toNat_periphCtrl_eq_iff t periph).mp (hperiphReg ▸ hright.periphCtrl), ?_⟩
    intro hzero hnone
    exact hcfg.mp ⟨hright.selects, hright.transactionCfg⟩ ⟨hzero, hnone⟩
  · rintro ⟨hfits, hzero⟩
    have hselect := hcfg.mpr fun hnone => hzero hnone.1 hnone.2
    refine ⟨hselect.1, hselect.2, ?_, ?_⟩
    · show ((SpiCore.start m t periph s).hardware (m.periph t.whichPeriph.toNat)).toNat = _
      rw [hperiphReg]
      exact (toNat_periphCtrl_eq_iff t periph).mpr hfits
    · show ((SpiCore.start m t periph s).hardware m.transactionGo).toNat = _
      rw [hgo]
      exact toNat_data t

theorem which_lt_of_right {registers : BitVec 32 → BitVec 32}
    (h : Started.Right m ⟨t, periph, registers⟩) : t.whichPeriph.toNat < 4 := by
  have hselects : ((registers m.transactionCfg >>> 16) &&& 0x3).toNat = t.whichPeriph.toNat :=
    h.selects
  rw [toNat_select] at hselects
  omega

end Cached

/-! ## Runs -/

section Runs

variable {m : RegisterMap} {s : Core}

/-- All the transfers that were started were right. -/
def AllRight (m : RegisterMap) (s : Core) : Prop := ∀ r ∈ s.log, r.Right m

theorem allRight_start_iff (hs : AllRight m s) (t : Transfer) (periph : PeriphConfig) :
    AllRight m (start m t periph s) ↔
      Started.Right m ⟨t, periph, (start m t periph s).hardware⟩ := by
  rw [AllRight, log_start]
  constructor
  · intro h
    exact h _ List.mem_concat_self
  · intro h r hr
    rcases List.mem_append.mp hr with hr | hr
    · exact hs r hr
    · exact List.mem_singleton.mp hr ▸ h

theorem right_step (h : Inv m s) (hs : AllRight m s) (call : Call) {u : Core}
    (hu : call.after m s = some u) :
    (Meets m s call → Inv m u ∧ AllRight m u) ∧ (AllRight m u → Meets m s call) := by
  cases call with
  | setSpiPeriphConfig info spc =>
    cases hu
    refine ⟨fun _ => ⟨h.setSpiPeriphConfig info spc, ?_⟩, fun _ => trivial⟩
    rw [setSpiPeriphConfig]
    split_ifs <;> exact hs
  | transactSpi t status =>
    cases hu
    rcases transactSpi_snd m t status s with ⟨periph, hperiph, hdivider, heq⟩ | ⟨hrefused, heq⟩
    · rw [heq, allRight_start_iff hs]
      constructor
      · intro hmeets
        obtain ⟨hwhich, hfits, hzero⟩ := hmeets periph hperiph hdivider
        have hstart := h.start hperiph hdivider hwhich
        exact ⟨hstart.1, hstart.2.mpr ⟨hfits, hzero⟩⟩
      · intro hright periph' hperiph' _
        obtain rfl : periph = periph' := Option.some.inj (hperiph.symm.trans hperiph')
        have hwhich := which_lt_of_right hright
        exact ⟨hwhich, (h.start hperiph hdivider hwhich).2.mp hright⟩
    · rw [heq]
      exact ⟨fun _ => ⟨h, hs⟩, fun _ periph hperiph hdivider =>
        absurd hdivider (hrefused periph hperiph)⟩

theorem log_prefix_after {call : Call} {u : Core} (hu : call.after m s = some u) :
    s.log <+: u.log := by
  cases call with
  | setSpiPeriphConfig info spc =>
    cases hu
    rw [setSpiPeriphConfig]
    split_ifs <;> exact List.prefix_rfl
  | transactSpi t status =>
    cases hu
    rcases transactSpi_snd m t status s with ⟨periph, -, -, heq⟩ | ⟨-, heq⟩
    · rw [heq, log_start]
      exact List.prefix_append ..
    · exact ⟨[], by rw [List.append_nil, heq]⟩

/-- **Every transfer of a run** found in the registers what it asked for exactly when every call
meets the condition. -/
theorem right_iff_everyStep (m : RegisterMap) (hardware : BitVec 32 → BitVec 32)
    (calls : List Call) {u : Core}
    (h : Transition.run (Call.after m) (make hardware) calls = some u) :
    (∀ r ∈ u.log, r.Right m) ↔
      Transition.EveryStep (Call.after m) (Meets m) (make hardware) calls := by
  rw [← Transition.forall_prefix_iff_everyStep (I := fun s => Inv m s ∧ AllRight m s)
    (K := AllRight m) (fun s hs => hs.2)
    (fun s call t hs ht => (right_step hs.1 hs.2 call ht).1)
    (fun s call t hs ht hmeets hright => hmeets ((right_step hs.1 hs.2 call ht).2 hright))
    ⟨inv_make m hardware, fun r hr => absurd hr List.not_mem_nil⟩ h]
  constructor
  · intro hall before v hbefore hv r hr
    obtain ⟨after, rfl⟩ := hbefore
    obtain ⟨w, hw, hafter⟩ := Transition.run_append_eq_some.mp h
    obtain rfl : w = v := Option.some.inj (hw.symm.trans hv)
    have hgrows : w.log <+: u.log :=
      Transition.run_log_prefix (fun s call t => log_prefix_after) hafter
    exact hall r (hgrows.subset hr)
  · intro hall
    exact hall calls u List.prefix_rfl h

/-- The registers of the digital interface of an X4x0, from the address of the first on. -/
def x400 : RegisterMap where
  periphCfg := 0x8E000
  transactionCfg := 0x8E010
  transactionGo := 0x8E014
  periphCfg_ne_transactionCfg := by decide
  periphCfg_ne_transactionGo := by decide
  transactionCfg_ne_transactionGo := by decide

/-- A peripheral on the second port. -/
def secondPort : PeriphConfig := ⟨12, 13, 14, 15⟩

/-- A transfer of eight bits to the first peripheral. -/
def eightBits (divider : ℕ) : Transfer where
  whichPeriph := 0
  config := ⟨.fall, .rise, divider⟩
  data := 0xA5
  numBits := 8
  numBits_pos := by decide
  numBits_le := by decide
  readback := false

/-- Two transfers, the second with what the first has written already. -/
def sameTwice : List Call := [.setSpiPeriphConfig 4 [secondPort],
  .transactSpi (eightBits 10) none, .transactSpi (eightBits 10) none]

/-- On hardware that holds ones everywhere, these are right. -/
theorem right_sameTwice :
    ∃ u, Transition.run (Call.after x400) (make fun _ => 0xFFFFFFFF) sameTwice = some u ∧
      ∀ r ∈ u.log, r.Right x400 := by
  refine ⟨_, rfl, (right_iff_everyStep x400 (fun _ => 0xFFFFFFFF) sameTwice rfl).mpr
    ⟨trivial, fun u hu => ⟨?_, fun v hv => ⟨?_, fun _ _ => trivial⟩⟩⟩⟩
  · cases hu
    intro periph hperiph _
    cases hperiph
    exact ⟨by decide, by decide, fun _ h => by cases h⟩
  · cases hu
    cases hv
    intro periph hperiph _
    cases hperiph
    exact ⟨by decide, by decide, fun _ h => by cases h⟩

/-- **Without a divider.**  The first transfer to the first peripheral takes the register to be zero
already. -/
theorem not_right_withoutDivider :
    ¬ ∀ u, Transition.run (Call.after x400) (make fun _ => 0xFFFFFFFF)
        [.setSpiPeriphConfig 4 [secondPort], .transactSpi (eightBits 0) none] = some u →
      ∀ r ∈ u.log, r.Right x400 := by
  intro h
  have hcfg := (h _ rfl _ (List.mem_singleton_self _)).transactionCfg
  revert hcfg
  decide +kernel

end Runs

end SpiCore
end Usrp
end UhdHost
