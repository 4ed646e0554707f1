import UhdHost.Library.Transition

/-!
# The registers behind a GPIO bank

`gpio_atr_3000.cpp` drives the pins of a bank by the ATR engine or by a static value, pin by pin,
as the mode says.  The register of the idle state has two tasks: for a pin in the mode ATR it holds
what the engine puts out in the idle state, for a pin in the mode GPIO the static value.  Both
values are cached, and the register is written from the caches when one of them was set, but not
when a mode was set.

* `getLsbD_setWithMask`: setting with a mask, bit by bit.
* `caught_step`: the caches hold what the calls asked for at any time.
* `holds_iff_everyStep`: the registers do so after every call exactly when no call changes the mode
  of a pin whose two values differ.
-/

namespace UhdHost
namespace Usrp
namespace GpioAtr

/-! ## The driver -/

/-- `gpio_atr_mode_t` -/
inductive Mode where
  | atr
  | gpio
  deriving DecidableEq

/-- `gpio_ddr_t` -/
inductive Ddr where
  | input
  | output
  deriving DecidableEq

/-- `gpio_atr_reg_t` -/
inductive AtrReg where
  | idle
  | rxOnly
  | txOnly
  | fullDuplex
  deriving DecidableEq

/-- The registers of the hardware. -/
inductive Register where
  | idle
  | rx
  | tx
  | duplex
  | ddr
  | disable
  deriving DecidableEq

/-- The attributes whose state is cached. -/
inductive Attr where
  | ctrl
  | ddr
  | out
  | atr0x
  | atrRx
  | atrTx
  | atrXx
  deriving DecidableEq

def maskSetAll : BitVec 32 := 0xFFFFFFFF

/-- What `set_with_mask` makes of a value, in each of its forms. -/
def setWithMask (old value mask : BitVec 32) : BitVec 32 := (value &&& mask) ||| (old &&& ~~~mask)

/-- The driver, with the soft copies of its registers and the caches of the idle register, and the
registers of the hardware. -/
structure Driver where
  soft : Register → BitVec 32
  atrIdleCache : BitVec 32
  gpioOutCache : BitVec 32
  attrRegState : Attr → BitVec 32
  hardware : Register → BitVec 32

namespace Driver

/-- `set_with_mask` of `masked_reg_t` -/
def setReg (r : Register) (value mask : BitVec 32) (s : Driver) : Driver :=
  { s with soft := Function.update s.soft r (setWithMask (s.soft r) value mask) }

/-- `flush` of `masked_reg_t` -/
def flush (r : Register) (s : Driver) : Driver :=
  { s with hardware := Function.update s.hardware r (s.soft r) }

/-- `flush` of `atr_idle_reg_t` -/
def flushIdle (s : Driver) : Driver :=
  flush .idle { s with
    soft := Function.update s.soft .idle
      ((s.atrIdleCache &&& ~~~ s.soft .disable) ||| (s.gpioOutCache &&& s.soft .disable)) }

/-- `_update_attr_state` -/
def updateAttrState (attr : Attr) (val mask : BitVec 32) (s : Driver) : Driver :=
  { s with
    attrRegState := Function.update s.attrRegState attr
      ((s.attrRegState attr &&& ~~~ mask) ||| (val &&& mask)) }

/-- `set_atr_mode` -/
def setAtrMode (mode : Mode) (mask : BitVec 32) (s : Driver) : Driver :=
  let value := if mode = .atr then ~~~ maskSetAll else maskSetAll
  ((s.setReg .disable value mask).flush .disable).updateAttrState .ctrl (~~~ value) mask

/-- `set_gpio_ddr` -/
def setGpioDdr (dir : Ddr) (mask : BitVec 32) (s : Driver) : Driver :=
  let value := if dir = .input then ~~~ maskSetAll else maskSetAll
  ((s.setReg .ddr value mask).flush .ddr).updateAttrState .ddr value mask

/-- `set_atr_reg` -/
def setAtrReg (atr : AtrReg) (value mask : BitVec 32) (s : Driver) : Driver :=
  match atr with
  | .idle =>
    (flushIdle { s with
      atrIdleCache := setWithMask s.atrIdleCache value mask }).updateAttrState .atr0x value mask
  | .rxOnly => ((s.setReg .rx value mask).flush .rx).updateAttrState .atrRx value mask
  | .txOnly => ((s.setReg .tx value mask).flush .tx).updateAttrState .atrTx value mask
  | .fullDuplex => ((s.setReg .duplex value mask).flush .duplex).updateAttrState .atrXx value mask

/-- `set_gpio_out` -/
def setGpioOut (value mask : BitVec 32) (s : Driver) : Driver :=
  (flushIdle { s with
    gpioOutCache := setWithMask s.gpioOutCache value mask }).updateAttrState .out value mask

/-- The constructor, on a hardware that holds anything. -/
def construct (hardware : Register → BitVec 32) : Driver :=
  (((((flushIdle
    { soft := fun _ => 0
      atrIdleCache := 0
      gpioOutCache := 0
      attrRegState := fun _ => 0
      hardware }).flush .rx).flush .tx).flush .duplex).flush .ddr).flush .disable

/-- `gpio_atr_3000::make` -/
def make (writeonly : Bool) (hardware : Register → BitVec 32) : Driver :=
  let iface := construct hardware
  let iface := if writeonly then iface.setGpioDdr .output maskSetAll else iface
  iface.setGpioDdr .output maskSetAll

end Driver

/-- A call. -/
inductive Call where
  | setAtrMode (mode : Mode) (mask : BitVec 32)
  | setGpioDdr (dir : Ddr) (mask : BitVec 32)
  | setGpioOut (value mask : BitVec 32)
  | setAtrReg (atr : AtrReg) (value mask : BitVec 32)

def Call.run : Call → Driver → Driver
  | .setAtrMode mode mask => Driver.setAtrMode mode mask
  | .setGpioDdr dir mask => Driver.setGpioDdr dir mask
  | .setGpioOut value mask => Driver.setGpioOut value mask
  | .setAtrReg atr value mask => Driver.setAtrReg atr value mask

/-! ## What is claimed -/

/-- What calls ask for, for a pin. -/
inductive Field where
  | gpioMode
  | ddr
  | out
  | atr (atr : AtrReg)
  deriving DecidableEq

/-- What a call asks for a pin. -/
def Call.asks (pin : ℕ) : Field → Call → Option Bool
  | .gpioMode, .setAtrMode mode mask => if mask.getLsbD pin then some (mode = .gpio) else none
  | .ddr, .setGpioDdr dir mask => if mask.getLsbD pin then some (dir = .output) else none
  | .out, .setGpioOut value mask => if mask.getLsbD pin then some (value.getLsbD pin) else none
  | .atr atr, .setAtrReg atr' value mask =>
    if atr' = atr ∧ mask.getLsbD pin then some (value.getLsbD pin) else none
  | _, _ => none

/-- What a bank that is made begins with: pins in the mode ATR, that are outputs. -/
def initially : Field → Bool
  | .ddr => true
  | _ => false

/-- The last value that calls have asked for. -/
def asked (pin : ℕ) (f : Field) (calls : List Call) : Bool :=
  (calls.filterMap (Call.asks pin f)).getLastD (initially f)

/-- A driver, and the calls that it has seen. -/
structure Session where
  driver : Driver
  calls : List Call

def Session.step (s : Session) (call : Call) : Option Session :=
  some ⟨call.run s.driver, s.calls ++ [call]⟩

/-- **What is claimed**: for each pin the registers hold what the calls asked for, and the idle
register what the mode says. -/
structure Holds (s : Session) : Prop where
  ddr : ∀ pin < 32, (s.driver.hardware .ddr).getLsbD pin = asked pin .ddr s.calls
  rx : ∀ pin < 32, (s.driver.hardware .rx).getLsbD pin = asked pin (.atr .rxOnly) s.calls
  tx : ∀ pin < 32, (s.driver.hardware .tx).getLsbD pin = asked pin (.atr .txOnly) s.calls
  duplex : ∀ pin < 32,
    (s.driver.hardware .duplex).getLsbD pin = asked pin (.atr .fullDuplex) s.calls
  idle : ∀ pin < 32, (s.driver.hardware .idle).getLsbD pin =
    if asked pin .gpioMode s.calls then asked pin .out s.calls else asked pin (.atr .idle) s.calls

/-- **The condition for a call**: it does not change the mode of a pin whose GPIO output and ATR
idle value differ. -/
def Meets (s : Session) : Call → Prop
  | .setAtrMode mode mask => ∀ pin < 32, mask.getLsbD pin = true →
      asked pin .gpioMode s.calls ≠ decide (mode = .gpio) →
      asked pin .out s.calls = asked pin (.atr .idle) s.calls
  | _ => True

/-! ## Bits -/

section Bits

variable {pin : ℕ} {f : Field} {calls : List Call} {call : Call}

theorem getLsbD_setWithMask (old value mask : BitVec 32) (pin : ℕ) (hpin : pin < 32) :
    (setWithMask old value mask).getLsbD pin
      = if mask.getLsbD pin then value.getLsbD pin else old.getLsbD pin := by
  rw [setWithMask, BitVec.getLsbD_or, BitVec.getLsbD_and, BitVec.getLsbD_and, BitVec.getLsbD_not]
  cases mask.getLsbD pin <;> simp [hpin]

theorem asked_concat (pin : ℕ) (f : Field) (calls : List Call) (call : Call) :
    asked pin f (calls ++ [call]) = (call.asks pin f).getD (asked pin f calls) := by
  rw [asked, asked, List.filterMap_append]
  cases h : call.asks pin f with
  | none =>
    rw [List.filterMap_cons_none h, List.filterMap_nil, List.append_nil]
    rfl
  | some b =>
    rw [List.filterMap_cons_some h, List.filterMap_nil, List.getLastD_concat]
    rfl

end Bits

/-! ## What is cached -/

section Cached

variable {s : Session} {r : Register} {f : Field} {call : Call} {value mask : BitVec 32}

/-- What a register is for; the idle register has two tasks. -/
def Register.field : Register → Option Field
  | .idle => none
  | .rx => some (.atr .rxOnly)
  | .tx => some (.atr .txOnly)
  | .duplex => some (.atr .fullDuplex)
  | .ddr => some .ddr
  | .disable => some .gpioMode

theorem Register.eq_of_field {r r' : Register} (h : r.field = r'.field) : r = r' := by
  revert h
  cases r <;> cases r' <;> decide

/-- **The invariant.**  Soft copies and caches hold what was asked for, and all registers but the
idle register are as their soft copies. -/
structure Caught (s : Session) : Prop where
  flushed : ∀ r, r ≠ .idle → s.driver.hardware r = s.driver.soft r
  soft : ∀ r f, r.field = some f → ∀ pin < 32, (s.driver.soft r).getLsbD pin = asked pin f s.calls
  atrIdle : ∀ pin < 32, s.driver.atrIdleCache.getLsbD pin = asked pin (.atr .idle) s.calls
  gpioOut : ∀ pin < 32, s.driver.gpioOutCache.getLsbD pin = asked pin .out s.calls

/-- The call asks for the bits of a value under a mask, for one field. -/
def AsksFor (call : Call) (f : Field) (value mask : BitVec 32) : Prop :=
  ∀ pin < 32, ∀ g, call.asks pin g
    = if g = f ∧ mask.getLsbD pin = true then some (value.getLsbD pin) else none

theorem AsksFor.asked_other (h : AsksFor call f value mask) {g : Field} (hg : g ≠ f)
    (calls : List Call) {pin : ℕ} (hpin : pin < 32) :
    asked pin g (calls ++ [call]) = asked pin g calls := by
  rw [asked_concat, h pin hpin, if_neg fun hand => hg hand.1]
  rfl

theorem AsksFor.asked_self (h : AsksFor call f value mask) (calls : List Call) {old : BitVec 32}
    {pin : ℕ} (hpin : pin < 32) (hold : old.getLsbD pin = asked pin f calls) :
    (setWithMask old value mask).getLsbD pin = asked pin f (calls ++ [call]) := by
  rw [getLsbD_setWithMask _ _ _ _ hpin, asked_concat, h pin hpin, hold]
  cases mask.getLsbD pin with
  | false => rw [if_neg Bool.false_ne_true, if_neg fun hand => Bool.false_ne_true hand.2]; rfl
  | true => rw [if_pos rfl, if_pos ⟨rfl, rfl⟩]; rfl

theorem getLsbD_all (on : Prop) [Decidable on] {pin : ℕ} (hpin : pin < 32) :
    (if on then ~~~ maskSetAll else maskSetAll).getLsbD pin = !decide on := by
  have hall : maskSetAll = BitVec.allOnes 32 := by decide
  rw [hall]
  split_ifs with hon
  · rw [BitVec.not_allOnes, BitVec.getLsbD_zero, decide_eq_true hon]
    rfl
  · rw [BitVec.getLsbD_allOnes, decide_eq_false hon, decide_eq_true hpin]
    rfl

theorem asksFor_setAtrMode (mode : Mode) (mask : BitVec 32) :
    AsksFor (.setAtrMode mode mask) .gpioMode
      (if mode = .atr then ~~~ maskSetAll else maskSetAll) mask := by
  intro pin hpin g
  rw [getLsbD_all _ hpin]
  cases g with
  | gpioMode =>
    show (if mask.getLsbD pin = true then some (decide (mode = .gpio)) else none) = _
    cases mode <;> cases mask.getLsbD pin <;> rfl
  | ddr => rfl
  | out => rfl
  | atr atr => rfl

theorem asksFor_setGpioDdr (dir : Ddr) (mask : BitVec 32) :
    AsksFor (.setGpioDdr dir mask) .ddr
      (if dir = .input then ~~~ maskSetAll else maskSetAll) mask := by
  intro pin hpin g
  rw [getLsbD_all _ hpin]
  cases g with
  | gpioMode => rfl
  | ddr =>
    show (if mask.getLsbD pin = true then some (decide (dir = .output)) else none) = _
    cases dir <;> cases mask.getLsbD pin <;> rfl
  | out => rfl
  | atr atr => rfl

theorem asksFor_setGpioOut (value mask : BitVec 32) :
    AsksFor (.setGpioOut value mask) .out value mask := by
  intro pin hpin g
  cases g with
  | gpioMode => rfl
  | ddr => rfl
  | out =>
    show (if mask.getLsbD pin = true then some (value.getLsbD pin) else none) = _
    cases mask.getLsbD pin <;> rfl
  | atr atr => rfl

theorem asksFor_setAtrReg (atr : AtrReg) (value mask : BitVec 32) :
    AsksFor (.setAtrReg atr value mask) (.atr atr) value mask := by
  intro pin hpin g
  cases g with
  | gpioMode => rfl
  | ddr => rfl
  | out => rfl
  | atr atr' =>
    show (if atr = atr' ∧ mask.getLsbD pin = true then some (value.getLsbD pin) else none) = _
    refine if_congr ?_ rfl rfl
    constructor
    · rintro ⟨rfl, hmask⟩
      exact ⟨rfl, hmask⟩
    · rintro ⟨hatr, hmask⟩
      cases hatr
      exact ⟨rfl, hmask⟩

theorem Caught.setReg (h : Caught s) (hr : r.field = some f) (hcall : AsksFor call f value mask)
    (hatr : f ≠ .atr .idle) (hout : f ≠ .out) (attr : Attr) (val : BitVec 32) :
    Caught ⟨((s.driver.setReg r value mask).flush r).updateAttrState attr val mask,
      s.calls ++ [call]⟩ where
  flushed r' hr' := by
    show Function.update s.driver.hardware r (Function.update s.driver.soft r _ r) r'
      = Function.update s.driver.soft r _ r'
    by_cases heq : r' = r
    · rw [heq, Function.update_self, Function.update_self]
    · rw [Function.update_of_ne heq, Function.update_of_ne heq]
      exact h.flushed r' hr'
  soft r' f' hf' pin hpin := by
    show (Function.update s.driver.soft r _ r').getLsbD pin = _
    by_cases heq : r' = r
    · subst heq
      rw [Function.update_self]
      obtain rfl : f = f' := Option.some.inj (hr.symm.trans hf')
      exact hcall.asked_self s.calls hpin (h.soft r' f hr pin hpin)
    · rw [Function.update_of_ne heq]
      have hne : f' ≠ f := by
        rintro rfl
        exact heq (Register.eq_of_field (hf'.trans hr.symm))
      rw [hcall.asked_other hne s.calls hpin]
      exact h.soft r' f' hf' pin hpin
  atrIdle pin hpin := by
    rw [hcall.asked_other hatr.symm s.calls hpin]
    exact h.atrIdle pin hpin
  gpioOut pin hpin := by
    rw [hcall.asked_other hout.symm s.calls hpin]
    exact h.gpioOut pin hpin

theorem Caught.flushIdle (h : Caught s) (hcall : AsksFor call f value mask)
    (hf : ∀ r : Register, r.field ≠ some f) (t : Driver) (hsoft : t.soft = s.driver.soft)
    (hhardware : t.hardware = s.driver.hardware)
    (hatr : ∀ pin < 32, t.atrIdleCache.getLsbD pin = asked pin (.atr .idle) (s.calls ++ [call]))
    (hout : ∀ pin < 32, t.gpioOutCache.getLsbD pin = asked pin .out (s.calls ++ [call]))
    (attr : Attr) (val : BitVec 32) :
    Caught ⟨t.flushIdle.updateAttrState attr val mask, s.calls ++ [call]⟩ where
  flushed r hr := by
    show Function.update t.hardware .idle _ r = Function.update t.soft .idle _ r
    rw [Function.update_of_ne hr, Function.update_of_ne hr, hsoft, hhardware]
    exact h.flushed r hr
  soft r g hg pin hpin := by
    have hr : r ≠ .idle := by
      rintro rfl
      cases hg
    have hne : g ≠ f := by
      rintro rfl
      exact hf r hg
    show (Function.update t.soft .idle _ r).getLsbD pin = _
    rw [Function.update_of_ne hr, hsoft, hcall.asked_other hne s.calls hpin]
    exact h.soft r g hg pin hpin
  atrIdle := hatr
  gpioOut := hout

theorem caught_step (h : Caught s) (call : Call) :
    Caught ⟨call.run s.driver, s.calls ++ [call]⟩ := by
  cases call with
  | setAtrMode mode mask =>
    exact h.setReg rfl (asksFor_setAtrMode mode mask) (by decide) (by decide) _ _
  | setGpioDdr dir mask =>
    exact h.setReg rfl (asksFor_setGpioDdr dir mask) (by decide) (by decide) _ _
  | setGpioOut value mask =>
    have hcall := asksFor_setGpioOut value mask
    have hatr : ∀ pin < 32, s.driver.atrIdleCache.getLsbD pin
        = asked pin (.atr .idle) (s.calls ++ [.setGpioOut value mask]) := by
      intro pin hpin
      rw [hcall.asked_other (by decide) s.calls hpin]
      exact h.atrIdle pin hpin
    exact h.flushIdle hcall (by intro r; cases r <;> decide)
      { s.driver with gpioOutCache := setWithMask s.driver.gpioOutCache value mask } rfl rfl hatr
      (fun pin hpin => hcall.asked_self s.calls hpin (h.gpioOut pin hpin)) _ _
  | setAtrReg atr value mask =>
    have hcall := asksFor_setAtrReg atr value mask
    cases atr with
    | idle =>
      have hout : ∀ pin < 32, s.driver.gpioOutCache.getLsbD pin
          = asked pin .out (s.calls ++ [.setAtrReg .idle value mask]) := by
        intro pin hpin
        rw [hcall.asked_other (by decide) s.calls hpin]
        exact h.gpioOut pin hpin
      exact h.flushIdle hcall (by intro r; cases r <;> decide)
        { s.driver with atrIdleCache := setWithMask s.driver.atrIdleCache value mask } rfl rfl
        (fun pin hpin => hcall.asked_self s.calls hpin (h.atrIdle pin hpin)) hout _ _
    | rxOnly => exact h.setReg rfl hcall (by decide) (by decide) _ _
    | txOnly => exact h.setReg rfl hcall (by decide) (by decide) _ _
    | fullDuplex => exact h.setReg rfl hcall (by decide) (by decide) _ _

theorem Caught.holds_iff (h : Caught s) :
    Holds s ↔ ∀ pin < 32, (s.driver.hardware .idle).getLsbD pin =
      if asked pin .gpioMode s.calls then asked pin .out s.calls
      else asked pin (.atr .idle) s.calls := by
  have hreg : ∀ r f, r.field = some f → r ≠ .idle → ∀ pin < 32,
      (s.driver.hardware r).getLsbD pin = asked pin f s.calls := by
    intro r f hf hr pin hpin
    rw [h.flushed r hr]
    exact h.soft r f hf pin hpin
  constructor
  · intro hs
    exact hs.idle
  · intro hidle
    exact ⟨hreg .ddr _ rfl (by decide), hreg .rx _ rfl (by decide), hreg .tx _ rfl (by decide),
      hreg .duplex _ rfl (by decide), hidle⟩

/-- What the idle register is written with. -/
def Driver.idleValue (t : Driver) : BitVec 32 :=
  (t.atrIdleCache &&& ~~~ t.soft .disable) ||| (t.gpioOutCache &&& t.soft .disable)

theorem hardware_flushIdle (t : Driver) (attr : Attr) (val mask : BitVec 32) :
    (t.flushIdle.updateAttrState attr val mask).hardware .idle = t.idleValue := by
  show Function.update t.hardware .idle (Function.update t.soft .idle t.idleValue .idle) .idle
    = t.idleValue
  rw [Function.update_self, Function.update_self]

theorem soft_disable_flushIdle (t : Driver) (attr : Attr) (val mask : BitVec 32) :
    (t.flushIdle.updateAttrState attr val mask).soft .disable = t.soft .disable := by
  show Function.update t.soft .idle t.idleValue .disable = t.soft .disable
  exact Function.update_of_ne (by decide) _ _

theorem hardware_setReg_idle (hr : r ≠ .idle) (s : Driver) (attr : Attr)
    (value mask val : BitVec 32) :
    (((s.setReg r value mask).flush r).updateAttrState attr val mask).hardware .idle
      = s.hardware .idle :=
  Function.update_of_ne hr.symm ..

theorem holds_flushIdle {t : Driver} {calls : List Call} {attr : Attr} {val mask : BitVec 32}
    (h : Caught ⟨t.flushIdle.updateAttrState attr val mask, calls⟩) :
    Holds ⟨t.flushIdle.updateAttrState attr val mask, calls⟩ := by
  rw [h.holds_iff]
  intro pin hpin
  have hdisable : (t.soft .disable).getLsbD pin = asked pin .gpioMode calls := by
    rw [← soft_disable_flushIdle t attr val mask]
    exact h.soft .disable .gpioMode rfl pin hpin
  have hatr : t.atrIdleCache.getLsbD pin = asked pin (.atr .idle) calls := h.atrIdle pin hpin
  have hout : t.gpioOutCache.getLsbD pin = asked pin .out calls := h.gpioOut pin hpin
  rw [hardware_flushIdle, Driver.idleValue, BitVec.getLsbD_or, BitVec.getLsbD_and,
    BitVec.getLsbD_and,
    BitVec.getLsbD_not, hdisable, hatr, hout, decide_eq_true hpin, Bool.true_and]
  cases asked pin .gpioMode calls with
  | false => rw [if_neg Bool.false_ne_true, Bool.not_false, Bool.and_true, Bool.and_false,
      Bool.or_false]
  | true => rw [if_pos rfl, Bool.not_true, Bool.and_false, Bool.and_true, Bool.false_or]

end Cached

/-! ## Runs -/

section Runs

variable {s t : Session} {call : Call}

theorem holds_of_other (hc : Caught ⟨call.run s.driver, s.calls ++ [call]⟩) (hs : Holds s)
    {f : Field} {value mask : BitVec 32} (hcall : AsksFor call f value mask)
    (hidle : (call.run s.driver).hardware .idle = s.driver.hardware .idle)
    (hmode : Field.gpioMode ≠ f) (hout : Field.out ≠ f) (hatr : Field.atr .idle ≠ f) :
    Holds ⟨call.run s.driver, s.calls ++ [call]⟩ := by
  rw [hc.holds_iff]
  intro pin hpin
  rw [hidle, hcall.asked_other hmode s.calls hpin, hcall.asked_other hout s.calls hpin,
    hcall.asked_other hatr s.calls hpin]
  exact hs.idle pin hpin

theorem holds_setAtrMode_iff (hc : Caught s) (hs : Holds s) (mode : Mode) (mask : BitVec 32) :
    Holds ⟨s.driver.setAtrMode mode mask, s.calls ++ [.setAtrMode mode mask]⟩
      ↔ Meets s (.setAtrMode mode mask) := by
  have hcall := asksFor_setAtrMode mode mask
  have hafter : Caught ⟨s.driver.setAtrMode mode mask, s.calls ++ [.setAtrMode mode mask]⟩ :=
    caught_step hc (.setAtrMode mode mask)
  have hidle : (s.driver.setAtrMode mode mask).hardware .idle = s.driver.hardware .idle :=
    hardware_setReg_idle (by decide) ..
  rw [hafter.holds_iff]
  refine forall_congr' fun pin => forall_congr' fun hpin => ?_
  have hout : Field.out ≠ .gpioMode := by decide
  have hatr : Field.atr .idle ≠ .gpioMode := by decide
  have hasks : (Call.setAtrMode mode mask).asks pin .gpioMode
      = if mask.getLsbD pin = true then some (decide (mode = .gpio)) else none := rfl
  rw [hidle, hs.idle pin hpin, hcall.asked_other hout s.calls hpin,
    hcall.asked_other hatr s.calls hpin, asked_concat, hasks]
  cases mask.getLsbD pin with
  | false =>
    rw [if_neg Bool.false_ne_true]
    exact iff_of_true rfl fun h => absurd h Bool.false_ne_true
  | true =>
    rw [if_pos rfl, Option.getD_some]
    cases asked pin .gpioMode s.calls <;> cases decide (mode = .gpio) <;> simp [eq_comm]

theorem holds_step_iff (hc : Caught s) (hs : Holds s) (call : Call) :
    Holds ⟨call.run s.driver, s.calls ++ [call]⟩ ↔ Meets s call := by
  have hafter := caught_step hc call
  cases call with
  | setAtrMode mode mask => exact holds_setAtrMode_iff hc hs mode mask
  | setGpioDdr dir mask =>
    exact iff_of_true (holds_of_other hafter hs (asksFor_setGpioDdr dir mask)
      (hardware_setReg_idle (by decide) ..) (by decide) (by decide) (by decide)) trivial
  | setGpioOut value mask => exact iff_of_true (holds_flushIdle hafter) trivial
  | setAtrReg atr value mask =>
    refine iff_of_true ?_ trivial
    have hcall := asksFor_setAtrReg atr value mask
    cases atr with
    | idle => exact holds_flushIdle hafter
    | rxOnly =>
      exact holds_of_other hafter hs hcall (hardware_setReg_idle (by decide) ..) (by decide)
        (by decide) (by decide)
    | txOnly =>
      exact holds_of_other hafter hs hcall (hardware_setReg_idle (by decide) ..) (by decide)
        (by decide) (by decide)
    | fullDuplex =>
      exact holds_of_other hafter hs hcall (hardware_setReg_idle (by decide) ..) (by decide)
        (by decide) (by decide)

/-- A bank that is made. -/
def Session.make (writeonly : Bool) (hardware : Register → BitVec 32) : Session :=
  ⟨Driver.make writeonly hardware, []⟩

theorem soft_make (writeonly : Bool) (hardware : Register → BitVec 32) (r : Register) :
    (Driver.make writeonly hardware).soft r = if r = .ddr then maskSetAll else 0 := by
  have hidle : (0#32 &&& ~~~0#32) ||| (0#32 &&& 0#32) = 0 := by decide
  have honce : setWithMask 0 maskSetAll maskSetAll = maskSetAll := by decide
  have htwice : setWithMask (setWithMask 0 maskSetAll maskSetAll) maskSetAll maskSetAll
      = maskSetAll := by decide
  cases writeonly with
  | false =>
    cases r with
    | idle => exact hidle
    | ddr => exact honce
    | rx => rfl
    | tx => rfl
    | duplex => rfl
    | disable => rfl
  | true =>
    cases r with
    | idle => exact hidle
    | ddr => exact htwice
    | rx => rfl
    | tx => rfl
    | duplex => rfl
    | disable => rfl

theorem hardware_make (writeonly : Bool) (hardware : Register → BitVec 32) (r : Register) :
    (Driver.make writeonly hardware).hardware r = (Driver.make writeonly hardware).soft r := by
  cases writeonly <;> cases r <;> rfl

theorem caught_make (writeonly : Bool) (hardware : Register → BitVec 32) :
    Caught (Session.make writeonly hardware) where
  flushed r hr := hardware_make writeonly hardware r
  soft r f hf := by
    show ∀ pin < 32, ((Driver.make writeonly hardware).soft r).getLsbD pin = asked pin f []
    rw [soft_make]
    cases r <;> cases hf <;> decide
  atrIdle pin hpin := by
    cases writeonly <;> exact BitVec.getLsbD_zero
  gpioOut pin hpin := by
    cases writeonly <;> exact BitVec.getLsbD_zero

theorem holds_make (writeonly : Bool) (hardware : Register → BitVec 32) :
    Holds (Session.make writeonly hardware) := by
  rw [(caught_make writeonly hardware).holds_iff]
  intro pin hpin
  show ((Driver.make writeonly hardware).hardware .idle).getLsbD pin = false
  rw [hardware_make, soft_make, if_neg (by decide)]
  exact BitVec.getLsbD_zero

/-- **The registers hold what the calls asked for**, after each of them, exactly when no call
changes the mode of a pin whose two values differ. -/
theorem holds_iff_everyStep (writeonly : Bool) (hardware : Register → BitVec 32)
    (calls : List Call) (h : Transition.run Session.step (Session.make writeonly hardware) calls
      = some t) :
    (∀ before u, before <+: calls →
        Transition.run Session.step (Session.make writeonly hardware) before = some u → Holds u)
      ↔ Transition.EveryStep Session.step Meets (Session.make writeonly hardware) calls := by
  refine Transition.forall_prefix_iff_everyStep (I := fun s => Caught s ∧ Holds s)
    (fun s hs => hs.2) ?_ ?_ ⟨caught_make writeonly hardware, holds_make writeonly hardware⟩ h
  · rintro s call t hs ht hmeets
    cases ht
    exact ⟨caught_step hs.1 call, (holds_step_iff hs.1 hs.2 call).mpr hmeets⟩
  · rintro s call t hs ht hmeets hholds
    cases ht
    exact hmeets ((holds_step_iff hs.1 hs.2 call).mp hholds)

/-- A value and a mode of the first pin, in the order in which the idle register follows. -/
def modeFirst : List Call := [.setAtrMode .gpio 1, .setGpioOut 1 1, .setAtrReg .idle 1 1,
  .setAtrMode .atr 1]

/-- In that order all the registers hold what was asked for. -/
theorem holds_modeFirst :
    ∃ t, Transition.run Session.step (Session.make false fun _ => 0) modeFirst = some t ∧
      ∀ before u, before <+: modeFirst →
        Transition.run Session.step (Session.make false fun _ => 0) before = some u →
        Holds u := by
  refine ⟨_, rfl, (holds_iff_everyStep false (fun _ => 0) modeFirst rfl).mpr
    ⟨?_, fun t ht => ⟨trivial, fun u hu => ⟨trivial, fun v hv => ⟨?_, fun _ _ => trivial⟩⟩⟩⟩⟩
  · show ∀ pin < 32, _ → _ → asked pin .out [] = asked pin (.atr .idle) []
    exact fun _ _ _ _ => rfl
  · cases ht
    cases hu
    cases hv
    show ∀ pin < 32, _
    decide +kernel

/-- **The other order.**  The output is set while the pin is in the mode ATR, then the mode: the
pin puts out the value of the idle state. -/
theorem not_holds_modeLast : ¬ ∀ before u, before <+: [.setGpioOut 1 1, .setAtrMode .gpio 1] →
    Transition.run Session.step (Session.make false fun _ => 0) before = some u → Holds u := by
  intro h
  have hidle := (h _ _ List.prefix_rfl rfl).idle 0 (by decide)
  revert hidle
  decide +kernel

end Runs

end GpioAtr
end Usrp
end UhdHost
