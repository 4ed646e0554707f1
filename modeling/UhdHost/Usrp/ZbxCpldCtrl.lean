import UhdHost.Types.Exception
import UhdHost.Usrp.ZbxCpldRegs

/-!
# The control of the ZBX CPLD

`zbx_cpld_ctrl`: a cache of the registers of the CPLD, with the values that were last saved.  What
differs from those is written by the next commit, which saves the values then.

* `Setter.assignments`: what each of the setters assigns, or the assertion that fails.
* `Call.run`: what a call leaves and returns; a poke of it may throw.
* `Right`: in every state of a run the cache is coherent, and the getters return what the CPLD has.

A peek does not throw here, and a poke may; the CPLD has what was written at once.
-/

namespace UhdHost
namespace Usrp
namespace ZbxCpld

open ZbxSyncExpert (ZbxLo)

/-! ## The state -/

/-- `zbx_cpld_ctrl`, and the CPLD. -/
structure Ctrl where
  /-- `_regs` -/
  regs : Regs
  /-- `_state` of these -/
  saved : Regs
  /-- The registers of the CPLD, by address. -/
  hw : ℕ → ℕ

/-- Which poke of a call throws, and what. -/
abbrev Fault := Option (ℕ × UhdError)

/-- A field, the index, and the value that is assigned. -/
abbrev Assignment := Field × ℕ × ℕ

/-- What a call leaves, and what it returns or throws: 0 if it returns nothing. -/
abbrev Outcome := Ctrl × Except UhdError ℕ

namespace Ctrl

/-- Assign to the fields, one after the other. -/
def assign (as : List Assignment) (s : Ctrl) : Ctrl :=
  { s with regs := as.foldl (fun regs a => regs.setField a.1 a.2.1 a.2.2) s.regs }

/-- `save_state` -/
def saveState (s : Ctrl) : Ctrl := { s with saved := s.regs }

/-- Poke the registers at the addresses. -/
def poke (addrs : List ℕ) (s : Ctrl) : Ctrl :=
  { s with hw := addrs.foldl (fun hw a => Function.update hw a (s.regs.getReg a)) s.hw }

/-- `commit`, of what has changed -/
def commit (fault : Fault) (s : Ctrl) : Outcome :=
  match fault with
  | some (n, e) =>
    if n < (Regs.changedAddrs s.saved s.regs).length then
      (s.poke ((Regs.changedAddrs s.saved s.regs).take n), .error e)
    else ((s.poke (Regs.changedAddrs s.saved s.regs)).saveState, .ok 0)
  | none => ((s.poke (Regs.changedAddrs s.saved s.regs)).saveState, .ok 0)

/-- `zbx_cpld_ctrl()`, which writes all the registers -/
def construct (hw : ℕ → ℕ) : Ctrl :=
  Ctrl.saveState (Ctrl.poke Regs.allAddrs ⟨Regs.initial, Regs.initial, hw⟩)

/-- `update_field` -/
def updateField (f : Field) (i : ℕ) (s : Ctrl) : Ctrl :=
  let s := { s with regs := s.regs.setReg (f.addr i) (s.hw (f.addr i)) }
  if (Regs.changedAddrs s.saved s.regs).all (· = f.addr i) then s.saveState else s

end Ctrl

/-! ## The setters -/

/-- `atr_mode_target` -/
inductive AtrModeTarget where
  | dsa
  | pathLed
  deriving DecidableEq, Repr

/-- `atr_mode` -/
inductive AtrMode where
  | swDefined
  | classicAtr
  | fpgaState
  deriving DecidableEq, Repr

/-- The value of an `atr_mode`. -/
def AtrMode.value : AtrMode → ℕ
  | swDefined => 0
  | classicAtr => 1
  | fpgaState => 2

/-- `dsa_type` -/
inductive DsaType where
  | dsa1
  | dsa2
  | dsa3A
  | dsa3B
  deriving DecidableEq, Repr

/-- `tx_amp` -/
inductive TxAmp where
  | bypass
  | lowband
  | highband
  deriving DecidableEq, Repr

/-- The value of a `tx_amp`. -/
def TxAmp.value : TxAmp → ℕ
  | bypass => 0
  | lowband => 1
  | highband => 2

/-- `TX_DSA_CPLD_MAP`, where it has an entry -/
def txDsaField (c : Fin 2) : DsaType → Option Field
  | .dsa1 => some (.txDsa1 c)
  | .dsa2 => some (.txDsa2 c)
  | _ => none

/-- `RX_DSA_CPLD_MAP` -/
def rxDsaField (c : Fin 2) : DsaType → Field
  | .dsa1 => .rxDsa1 c
  | .dsa2 => .rxDsa2 c
  | .dsa3A => .rxDsa3A c
  | .dsa3B => .rxDsa3B c

/-- The field for the source of an LO. -/
def loField : ZbxLo → Field
  | .tx0Lo1 => .txLo_14 0
  | .tx0Lo2 => .txLo_13 0
  | .tx1Lo1 => .txLo_14 1
  | .tx1Lo2 => .txLo_13 1
  | .rx0Lo1 => .rxLo_9 0
  | .rx0Lo2 => .rxLo_10 0
  | .rx1Lo1 => .rxLo_9 1
  | .rx1Lo2 => .rxLo_10 1

/-- The calls that assign to fields and commit.  An index is a `uint8_t`, or less than the length of
the arrays. -/
inductive Setter where
  | setScratch (value : ℕ)
  | setAtrMode (channel : ℕ) (target : AtrModeTarget) (mode : AtrMode)
  | setSwConfig (channel : ℕ) (target : AtrModeTarget) (rfConfig : ℕ)
  | setTxGainSwitches (channel : ℕ) (idx : Fin 256) (dsa1 dsa2 amp : ℕ)
  | setRxGainSwitches (channel : ℕ) (idx : Fin 256) (dsa1 dsa2 dsa3A dsa3B : ℕ)
  | setRxGainSwitchesTable (channel : ℕ) (idx : Fin 256) (tableIdx : ℕ)
  | setTxGainSwitchesTable (channel : ℕ) (idx : Fin 256) (tableIdx : ℕ)
  | setTxDsa (channel : ℕ) (idx : Fin 256) (txDsa : DsaType) (att : ℕ)
  | setRxDsa (channel : ℕ) (idx : Fin 256) (rxDsa : DsaType) (att : ℕ)
  | setTxAntennaSwitches (channel : ℕ) (idx : Fin 256) (antenna : String) (amp : TxAmp)
  | setRxAntennaSwitches (channel : ℕ) (idx : Fin 256) (antenna : String)
  | setRxRfFilter (channel : ℕ) (idx : Fin 256) (rfFir : ℕ)
  | setRxIf1Filter (channel : ℕ) (idx : Fin 256) (if1Fir : ℕ)
  | setRxIf2Filter (channel : ℕ) (idx : Fin 256) (if2Fir : ℕ)
  | setTxRfFilter (channel : ℕ) (idx : Fin 256) (rfFir : ℕ)
  | setTxIf1Filter (channel : ℕ) (idx : Fin 256) (if1Fir : ℕ)
  | setTxIf2Filter (channel : ℕ) (idx : Fin 256) (if2Fir : ℕ)
  | setLeds (channel : ℕ) (idx : Fin 256) (rx trxRx trxTx : Bool)
  | setLoSource (idx : Fin 256) (lo : ZbxLo) (internal : Bool)
  | setLoSyncBypass (enable : Bool)

/-- What a setter assigns, for a channel that there is; an assertion fails otherwise. -/
def onChan (channel : ℕ) (check : Bool) (what : String) (as : Fin 2 → List Assignment) :
    Except UhdError (List Assignment × ℕ) :=
  if h : channel < 2 then
    if check then .ok (as ⟨channel, h⟩, 0) else .error (.assertionError what)
  else .error (.assertionError what)

/-- An enumerator is assigned to a field. -/
def put (f : Field) (idx : Fin 256) (e : Enumerator) : Assignment := (f, idx, f.value e)

/-- `ENABLE` or `DISABLE` is assigned to a field. -/
def putIf (f : Field) (idx : Fin 256) (b : Bool) : Assignment :=
  put f idx (if b then .enable else .disable)

/-- The enumerator for a filter: the last one is for everything else. -/
def select (n : ℕ) : List Enumerator → Enumerator
  | [] => .invalid
  | [e] => e
  | e :: es => if n = 0 then e else select (n - 1) es

/-- What a setter assigns, and what it returns, or what it throws before. -/
def Setter.assignments : Setter → Except UhdError (List Assignment × ℕ)
  | setScratch value => .ok ([(.scratch, 0, value)], 0)
  | setAtrMode channel target mode =>
    onChan channel true "channel == 0 || channel == 1" fun c =>
      match target with
      | .dsa => [(.rfDsaOption c, 0, mode.value)]
      | .pathLed => [(.rfOption c, 0, mode.value)]
  | setSwConfig channel target rfConfig =>
    onChan channel true "channel == 0 || channel == 1" fun c =>
      match target with
      | .dsa => [(.swRfDsaConfig c, 0, rfConfig)]
      | .pathLed => [(.swRfConfig c, 0, rfConfig)]
  | setTxGainSwitches channel idx dsa1 dsa2 _ =>
    onChan channel true "channel < ZBX_NUM_CHANS" fun c =>
      [(.txDsa1 c, idx, dsa1), (.txDsa2 c, idx, dsa2)]
  -- there is no assertion in this one
  | setRxGainSwitches channel idx dsa1 dsa2 dsa3A dsa3B =>
    if h : channel < 2 then
      .ok ([(.rxDsa1 ⟨channel, h⟩, idx, dsa1), (.rxDsa2 ⟨channel, h⟩, idx, dsa2),
        (.rxDsa3A ⟨channel, h⟩, idx, dsa3A), (.rxDsa3B ⟨channel, h⟩, idx, dsa3B)], 0)
    else .ok ([], 0)
  | setRxGainSwitchesTable channel idx tableIdx =>
    onChan channel true "channel < ZBX_NUM_CHANS" fun c => [(.rxTableSelect c, idx, tableIdx)]
  | setTxGainSwitchesTable channel idx tableIdx =>
    onChan channel true "channel < ZBX_NUM_CHANS" fun c => [(.txTableSelect c, idx, tableIdx)]
  | setTxDsa channel idx txDsa att =>
    if h : channel < 2 then
      match txDsaField ⟨channel, h⟩ txDsa with
      | some f => .ok ([(f, idx, min att 31)], min att 31)
      | none => .error (.assertionError "tx_dsa == dsa_type::DSA1 || tx_dsa == dsa_type::DSA2")
    else .error (.assertionError "channel == 0 || channel == 1")
  | setRxDsa channel idx rxDsa att =>
    if h : channel < 2 then
      .ok ([(rxDsaField ⟨channel, h⟩ rxDsa, idx, min att 15)], min att 15)
    else .error (.assertionError "channel == 0 || channel == 1")
  | setTxAntennaSwitches channel idx antenna amp =>
    onChan channel true "channel < ZBX_NUM_CHANS" fun c =>
      let e := match amp with
        | .bypass => Enumerator.bypassAmp
        | .lowband => .lowbandAmp
        | .highband => .highbandAmp
      if antenna = "TX/RX0" then
        -- `ATR_ADDR_TX` and `ATR_ADDR_XX`
        (if (idx : ℕ) = 2 ∨ (idx : ℕ) = 3 then [put (.txAnt_11 c) idx e] else []) ++
          [put (.txAnt_10 c) idx e]
      else if antenna = "CAL_LOOPBACK" then
        [put (.txAnt_10 c) idx .calLoopback, put (.rxAnt_1 c) idx .calLoopback,
          put (.txAnt_11 c) idx .bypassAmp]
      else []
  | setRxAntennaSwitches channel idx antenna =>
    onChan channel true "channel < ZBX_NUM_CHANS" fun c =>
      if antenna = "TX/RX0" then [put (.rxAnt_1 c) idx .txRx, put (.txAnt_11 c) idx .txRx]
      else if antenna = "CAL_LOOPBACK" then
        [put (.rxAnt_1 c) idx .calLoopback, put (.txAnt_10 c) idx .calLoopback,
          put (.txAnt_11 c) idx .bypassAmp]
      else if antenna = "TERMINATION" then [put (.rxAnt_1 c) idx .termination]
      else if antenna = "RX1" then [put (.rxAnt_1 c) idx .rx2]
      else []
  | setRxRfFilter channel idx rfFir =>
    onChan channel (rfFir < 4) "channel < ZBX_NUM_CHANS && rf_fir < 4" fun c =>
      if rfFir = 0 then [put (.rx_4 c) idx .highband, put (.rx_2 c) idx .highband]
      else
        let e := select (rfFir - 1) [.rf1, .rf2, .rf3]
        [put (.rx_4 c) idx .lowband, put (.rx_2 c) idx .lowband, put (.rxRf_11 c) idx e,
          put (.rxRf_3 c) idx e]
  | setRxIf1Filter channel idx if1Fir =>
    onChan channel (if1Fir ≠ 0 && if1Fir < 5)
      "channel < ZBX_NUM_CHANS && if1_fir != 0 && if1_fir < 5" fun c =>
        let e := select (if1Fir - 1) [.filter1, .filter2, .filter3, .filter4]
        [put (.rxIf1_5 c) idx e, put (.rxIf1_6 c) idx e]
  | setRxIf2Filter channel idx if2Fir =>
    onChan channel (if2Fir ≠ 0 && if2Fir < 3)
      "channel < ZBX_NUM_CHANS && if2_fir != 0 && if2_fir < 3" fun c =>
        [put (.rxIf2_7_8 c) idx (select (if2Fir - 1) [.filter1, .filter2])]
  | setTxRfFilter channel idx rfFir =>
    onChan channel (rfFir < 4) "channel < ZBX_NUM_CHANS && rf_fir < 4" fun c =>
      if rfFir = 0 then [put (.txRf_9 c) idx .highband, put (.tx_7 c) idx .highband]
      else
        let e := select (rfFir - 1) [.rf1, .rf2, .rf3]
        [put (.txRf_9 c) idx e, put (.txRf_8 c) idx e, put (.tx_7 c) idx .lowband]
  | setTxIf1Filter channel idx if1Fir =>
    onChan channel (if1Fir ≠ 0 && if1Fir < 7)
      "channel < ZBX_NUM_CHANS && if1_fir != 0 && if1_fir < 7" fun c =>
        if if1Fir < 4 then
          let e := select (if1Fir - 1) [.filter1, .filter2, .filter3]
          [put (.txIf1_6 c) idx .filter0_3, put (.txIf1_3 c) idx .filter0_3,
            put (.txIf1_4 c) idx e, put (.txIf1_5 c) idx e]
        else
          let e := select (if1Fir - 4) [.filter4, .filter5, .filter6]
          [put (.txIf1_4 c) idx .termination, put (.txIf1_5 c) idx .termination,
            put (.txIf1_3 c) idx e, put (.txIf1_6 c) idx e]
  | setTxIf2Filter channel idx if2Fir =>
    onChan channel (if2Fir ≠ 0 && if2Fir < 3)
      "channel < ZBX_NUM_CHANS && if2_fir != 0 && if2_fir < 3" fun c =>
        [put (.txIf2_1_2 c) idx (select (if2Fir - 1) [.filter1, .filter2])]
  | setLeds channel idx rx trxRx trxTx =>
    onChan channel true "channel < ZBX_NUM_CHANS" fun c =>
      [putIf (.rxRxLed c) idx rx, putIf (.rxTrxLed c) idx trxRx, putIf (.txTrxLed c) idx trxTx]
  | setLoSource idx lo internal =>
    .ok ([put (loField lo) idx (if internal then .internal else .external)], 0)
  | setLoSyncBypass enable => .ok ([putIf .bypassSyncRegister 0 enable], 0)

/-! ## The calls -/

/-- The calls of the class.  What the CPLD changes by itself (the configuration at the moment, the
register for the LO SPI) is read with the call. -/
inductive Call where
  | set (setter : Setter)
  | getScratch
  | getCurrentConfig (channel : ℕ) (target : AtrModeTarget) (reading : ℕ)
  | getTxDsa (channel : ℕ) (idx : Fin 256) (txDsa : DsaType) (updateCache : Bool)
  | getRxDsa (channel : ℕ) (idx : Fin 256) (rxDsa : DsaType) (updateCache : Bool)
  | getTxAmpSettings (channel : ℕ) (idx : Fin 256) (updateCache : Bool)
  | loPoke16 (lo : ZbxLo) (addr data : ℕ)
  /-- `readings` is what is read until the timeout. -/
  | loPeek16 (lo : ZbxLo) (addr : ℕ) (readings : List ℕ)
  | loSpiReady (reading : ℕ)
  | getLoSource (idx : Fin 256) (lo : ZbxLo)
  | pulseLoSync (refChan : ℕ) (los : List ZbxLo)
  | updateTxDsaSettings (dsa1 dsa2 : List ℕ)
  | updateRxDsaSettings (dsa1 dsa2 dsa3A dsa3B : List ℕ)

/-- The field of the configuration at the moment. -/
def currentField (c : Fin 2) : AtrModeTarget → Field
  | .dsa => .currentRfDsaConfig c
  | .pathLed => .currentRfConfig c

/-- `amp_map` of `get_tx_amp_settings` -/
def ampOf (c : Fin 2) (value : ℕ) : TxAmp :=
  match (Field.txAnt_10 c).enums[value]? with
  | some .lowbandAmp => .lowband
  | some .highbandAmp => .highband
  | _ => .bypass

/-- The address of the register for the LO SPI. -/
def loSpiOffset : ℕ := 0x1020

namespace Ctrl

/-- `_lo_spi_transact`, of which the only poke may throw -/
def loSpiTransact (lo : ZbxLo) (addr data : ℕ) (read : Bool) (fault : Fault) (s : Ctrl) : Outcome :=
  let s := s.assign [(.address, 0, addr), (.data, 0, data), (.readFlag, 0, if read then 1 else 0),
    (.loSelect, 0, ZbxLo.all.idxOf lo), (.startTransaction, 0, 1)]
  match fault with
  | some (0, e) => (s, .error e)
  | _ => (((s.poke [loSpiOffset]).assign [(.startTransaction, 0, 0)]).saveState, .ok 0)

/-- The loop of `lo_peek16`, which ends where the data is valid. -/
def pollLoSpi : List ℕ → Ctrl → Ctrl
  | [], s => s
  | reading :: readings, s =>
    let s := { s with regs := s.regs.setReg loSpiOffset reading }
    if s.regs .dataValid 0 ≠ 0 then s else pollLoSpi readings s

/-- `lo_peek16` -/
def loPeek16 (lo : ZbxLo) (addr : ℕ) (readings : List ℕ) (fault : Fault) (s : Ctrl) : Outcome :=
  match s.loSpiTransact lo addr 0 true fault with
  | (s, .error e) => (s, .error e)
  | (s, .ok _) =>
    let s := (pollLoSpi readings s).saveState
    if s.regs .dataValid 0 = 0 then
      (s, .error (.ioError
        "Unable to read back from LO SPI! Transaction timed out after 50 ms."))
    else if s.regs .address 0 ≠ addr then (s, .error (.assertionError "_regs.ADDRESS == addr"))
    else if s.regs .loSelect 0 ≠ ZbxLo.all.idxOf lo then
      (s, .error (.assertionError "_regs.LO_SELECT == zbx_cpld_regs_t::LO_SELECT_t(lo)"))
    else (s, .ok (s.regs .data 0))

/-- `pulse_lo_sync` -/
def pulseLoSync (los : List ZbxLo) (fault : Fault) (s : Ctrl) : Outcome :=
  if s.regs .bypassSyncRegister 0 = Field.bypassSyncRegister.value .enable then
    (s, .error (.runtimeError "Cannot pulse LO SYNC when bypass is enabled!"))
  else
    match (s.assign (los.map fun lo => (.pulseSync lo, 0, 1))).commit fault with
    | (s, .error e) => (s, .error e)
    | (s, .ok _) => ((s.assign (ZbxLo.all.map fun lo => (.pulseSync lo, 0, 0))).saveState, .ok 0)

/-- `write_register_vector`, one vector after the other, and the commit -/
def writeVectors (fault : Fault) : List (Field × List ℕ) → Ctrl → Outcome
  | [], s => s.commit fault
  | (f, values) :: vectors, s =>
    if f.length < values.length then
      (s, .error (.runtimeError ("Number of values passed for register vector("
        ++ toString values.length ++ ") exceeds size of register (" ++ toString f.length ++ ")")))
    else writeVectors fault vectors (s.assign (values.zipIdx.map fun v => (f, v.2, v.1)))

end Ctrl

/-- What a call does. -/
def Call.run (fault : Fault) (s : Ctrl) : Call → Outcome
  | set setter =>
    match setter.assignments with
    | .error e => (s, .error e)
    | .ok (as, result) =>
      ((s.assign as).commit fault).map id fun committed => committed.map fun _ => result
  | getScratch => (s, .ok (s.hw (Field.scratch.addr 0)))
  | getCurrentConfig channel target reading =>
    if h : channel < 2 then
      let s := Ctrl.saveState { s with regs := s.regs.setReg 0x1000 reading }
      (s, .ok (s.regs (currentField ⟨channel, h⟩ target) 0))
    else (s, .error (.assertionError "channel == 0 || channel == 1"))
  | getTxDsa channel idx txDsa updateCache =>
    if h : channel < 2 then
      match txDsaField ⟨channel, h⟩ txDsa with
      | some f =>
        let s := if updateCache then s.updateField f idx else s
        (s, .ok (s.regs f idx))
      | none =>
        (s, .error (.assertionError "tx_dsa == dsa_type::DSA1 || tx_dsa == dsa_type::DSA2"))
    else (s, .error (.assertionError "channel == 0 || channel == 1"))
  | getRxDsa channel idx rxDsa updateCache =>
    if h : channel < 2 then
      let f := rxDsaField ⟨channel, h⟩ rxDsa
      let s := if updateCache then s.updateField f idx else s
      (s, .ok (s.regs f idx))
    else (s, .error (.assertionError "channel == 0 || channel == 1"))
  | getTxAmpSettings channel idx updateCache =>
    if h : channel < 2 then
      -- the registers of channel 0 are read for both channels
      let s := if updateCache then (s.updateField (.txAnt_10 0) idx).updateField (.txAnt_11 0) idx
        else s
      (s, .ok (ampOf ⟨channel, h⟩ (s.regs (.txAnt_10 ⟨channel, h⟩) idx)).value)
    else (s, .error (.systemError "invalid code path"))
  | loPoke16 lo addr data => s.loSpiTransact lo addr data false fault
  | loPeek16 lo addr readings => s.loPeek16 lo addr readings fault
  | loSpiReady reading => (s, .ok (reading &&& 2 ^ 30))
  | getLoSource idx lo =>
    (s, .ok (if s.regs (loField lo) idx = (loField lo).value .internal then 0 else 1))
  | pulseLoSync _ los => s.pulseLoSync los fault
  | updateTxDsaSettings dsa1 dsa2 =>
    s.writeVectors fault [(.txTableDsa1 0, dsa1), (.txTableDsa2 0, dsa2), (.txTableDsa1 1, dsa1),
      (.txTableDsa2 1, dsa2)]
  | updateRxDsaSettings dsa1 dsa2 dsa3A dsa3B =>
    s.writeVectors fault [(.rxTableDsa1 0, dsa1), (.rxTableDsa2 0, dsa2), (.rxTableDsa3A 0, dsa3A),
      (.rxTableDsa3B 0, dsa3B), (.rxTableDsa1 1, dsa1), (.rxTableDsa2 1, dsa2),
      (.rxTableDsa3A 1, dsa3A), (.rxTableDsa3B 1, dsa3B)]

/-- A step: a call, and which of its pokes throws. -/
def step (s : Ctrl) (c : Call × Fault) : Option Ctrl := some (c.1.run c.2 s).1

/-! ## What is claimed -/

/-- The fields that the CPLD keeps as they were written: those that are not read-only, nor in the
register for the LO SPI, nor a pulse. -/
def Field.kept : Field → Bool
  | currentRfConfig _ | currentRfDsaConfig _ => false
  | data | address | readFlag | loSelect | startTransaction | spiReady | dataValid => false
  | pulseSync _ => false
  | _ => true

/-- The elements below `limit f` of a field have the value of the CPLD, or their register is to be
written by the next commit. -/
def Coherent (limit : Field → ℕ) (s : Ctrl) : Prop :=
  ∀ f : Field, f.kept = true → ∀ i < limit f,
    Regs.fieldOf f (s.hw (f.addr i)) = s.regs f i % 2 ^ f.info.width ∨
      f.addr i ∈ Regs.changedAddrs s.saved s.regs

/-- What a getter that refreshes the cache should return, and the index that it is about. -/
def Call.expected (s : Ctrl) : Call → Option (ℕ × ℕ)
  | getCurrentConfig channel target reading =>
    if h : channel < 2 then some (0, Regs.fieldOf (currentField ⟨channel, h⟩ target) reading)
    else none
  | getTxDsa channel idx txDsa true =>
    if h : channel < 2 then
      (txDsaField ⟨channel, h⟩ txDsa).map fun f => (idx, Regs.fieldOf f (s.hw (f.addr idx)))
    else none
  | getRxDsa channel idx rxDsa true =>
    if h : channel < 2 then
      some (idx, Regs.fieldOf (rxDsaField ⟨channel, h⟩ rxDsa)
        (s.hw ((rxDsaField ⟨channel, h⟩ rxDsa).addr idx)))
    else none
  | getTxAmpSettings channel idx true =>
    if h : channel < 2 then
      some (idx, (ampOf ⟨channel, h⟩ (Regs.fieldOf (.txAnt_10 ⟨channel, h⟩)
        (s.hw ((Field.txAnt_10 ⟨channel, h⟩).addr idx)))).value)
    else none
  | _ => none

/-- A getter that refreshes the cache, for an index below the limit, returns what the CPLD has. -/
def Answers (limit : ℕ) (s : Ctrl) (c : Call × Fault) : Prop :=
  ∀ e ∈ c.1.expected s, e.1 < limit → (c.1.run c.2 s).2 = .ok e.2

/-- In every state of a run the cache is coherent, and all the getters return what they should. -/
def Right (limit : Field → ℕ) (top : ℕ) (hw : ℕ → ℕ) (calls : List (Call × Fault)) : Prop :=
  (∀ before u, before <+: calls →
      Transition.run step (Ctrl.construct hw) before = some u → Coherent limit u) ∧
    Transition.EveryStep step (Answers top) (Ctrl.construct hw) calls

/-- Whether a call saves the values without a commit. -/
def Call.savesOnly : Call → Bool
  | getCurrentConfig channel _ _ => channel < 2
  | loPoke16 .. | loPeek16 .. => true
  | _ => false

/-- A call does not save what is still to be written, nor return it, and none but its first poke
throws. -/
structure Careful (s : Ctrl) (c : Call × Fault) : Prop where
  fault : ∀ p ∈ c.2, p.1 = 0
  saved : c.1.savesOnly = true →
    ∀ f : Field, f.kept = true → ∀ i < f.found, s.saved f i = s.regs f i
  amp : ∀ idx, c.1 = .getTxAmpSettings 1 idx true →
    s.saved (.txAnt_10 1) idx = s.regs (.txAnt_10 1) idx

end ZbxCpld
end Usrp
end UhdHost
