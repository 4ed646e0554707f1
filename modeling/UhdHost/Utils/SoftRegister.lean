import UhdHost.Library.BitFields
import UhdHost.Library.Transition

/-!
# Soft registers

`soft_register_t` and `soft_regmap_t` of `uhd/utils/soft_register.hpp`: registers of a device with a
copy of what is in them, which fields are set in and read from.  A register that is flushed
optimally is written only if its copy has changed since it was last written or read.

That saves the writes and nothing else, if the device keeps the registers of the map (`Bus.Keeps`):
whatever is called, in whatever order, the copies, the device, what is read and what is thrown are
those of a map in which every flush writes (`run_optimized`).

The registers of a map share the interface that `initialize` hands to them.  The mutexes of the map
and of `soft_register_sync_t` make a call one step.
-/

namespace UhdHost
namespace Utils

open BitFields

/-- `soft_reg_field_t` -/
structure SoftRegField where
  width : ℕ
  shift : ℕ
  deriving DecidableEq

/-- `soft_reg_field::mask` -/
def SoftRegField.mask (n : ℕ) (field : SoftRegField) : BitVec n :=
  if n ≠ field.width then lowMask n field.width <<< field.shift
  else BitVec.allOnes n <<< field.shift

/-- `soft_reg_flush_mode_t` -/
inductive SoftRegFlushMode where
  | optimizedFlush
  | alwaysFlush
  deriving DecidableEq

/-- What a type of registers and the constructor fix. -/
structure SoftRegConfig where
  bitwidth : ℕ := 32
  readable : Bool
  writable : Bool
  wrAddr : ℕ
  rdAddr : ℕ

/-- `soft_register_t` -/
structure SoftRegister (bitwidth : ℕ) where
  /-- `_iface` is set. -/
  hasIface : Bool := false
  softCopy : BitVec bitwidth := 0
  /-- the flag of `dirty_tracked` -/
  dirty : Bool := true

/-- `set` -/
def SoftRegister.set {n : ℕ} (r : SoftRegister n) (field : SoftRegField) (value : BitVec n) :
    SoftRegister n :=
  let new := (r.softCopy &&& ~~~field.mask n) ||| ((value <<< field.shift) &&& field.mask n)
  { r with softCopy := new, dirty := r.dirty || decide (r.softCopy ≠ new) }

/-- `get` -/
def SoftRegister.get {n : ℕ} (r : SoftRegister n) (field : SoftRegField) : BitVec n :=
  (r.softCopy &&& field.mask n) >>> field.shift

/-- `uhd::not_implemented_error` -/
inductive SoftRegError where
  | notImplementedError (what : String)
  deriving DecidableEq

/-- `wb_iface`, of a device with the states `σ`. -/
structure Bus (σ : Type) where
  poke32 : ℕ → BitVec 32 → σ → σ
  poke64 : ℕ → BitVec 64 → σ → σ
  peek32 : ℕ → σ → BitVec 32
  peek64 : ℕ → σ → BitVec 64

namespace Bus

variable {σ : Type} (bus : Bus σ) (c : SoftRegConfig)

/-- The access of `flush`. -/
def poke (value : BitVec c.bitwidth) (device : σ) : σ :=
  if c.bitwidth ≤ 32 then bus.poke32 c.wrAddr (value.setWidth 32) device
  else bus.poke64 c.wrAddr (value.setWidth 64) device

/-- The access of `refresh`. -/
def peek (device : σ) : BitVec c.bitwidth :=
  if c.bitwidth ≤ 32 then (bus.peek32 c.rdAddr device).setWidth c.bitwidth
  else (bus.peek64 c.rdAddr device).setWidth c.bitwidth

end Bus

variable {ι σ : Type} [DecidableEq ι]

/-- **The device keeps the registers.**  To write once more what a register was last written with
changes nothing, also after other registers were written, and neither does to write what was
read. -/
structure Bus.Keeps (bus : Bus σ) (cfg : ι → SoftRegConfig) : Prop where
  again : ∀ i value device, bus.poke (cfg i) value (bus.poke (cfg i) value device) =
    bus.poke (cfg i) value device
  others : ∀ i j value other device, i ≠ j → (cfg i).writable = true → (cfg j).writable = true →
    bus.poke (cfg i) value device = device →
    bus.poke (cfg i) value (bus.poke (cfg j) other device) = bus.poke (cfg j) other device
  readBack : ∀ i device, (cfg i).readable = true → (cfg i).writable = true →
    bus.poke (cfg i) (bus.peek (cfg i) device) device = device

/-- `soft_regmap_t` and the device, with what the calls have returned and thrown. -/
structure SoftRegmap (cfg : ι → SoftRegConfig) (σ : Type) where
  regs : ∀ i, SoftRegister (cfg i).bitwidth := fun _ => {}
  device : σ
  log : List (Except SoftRegError ℕ) := []

/-- A part of a call. -/
inductive SoftRegOp (cfg : ι → SoftRegConfig) where
  | attach (i : ι)
  | set (i : ι) (field : SoftRegField) (value : BitVec (cfg i).bitwidth)
  | get (i : ι) (field : SoftRegField)
  | flush (i : ι)
  | refresh (i : ι)

/-- A call of a register, or of the map. -/
inductive SoftRegCall (cfg : ι → SoftRegConfig) where
  /-- `initialize` -/
  | initializeReg (i : ι) (sync : Bool)
  | set (i : ι) (field : SoftRegField) (value : BitVec (cfg i).bitwidth)
  | get (i : ι) (field : SoftRegField)
  | flush (i : ι)
  | refresh (i : ι)
  | write (i : ι) (field : SoftRegField) (value : BitVec (cfg i).bitwidth)
  | read (i : ι) (field : SoftRegField)
  | initializeAll (sync : Bool)
  | flushAll
  | refreshAll

namespace SoftRegmap

variable {cfg : ι → SoftRegConfig} (bus : Bus σ) (mode : ι → SoftRegFlushMode)

omit [DecidableEq ι] in
/-- `initialize` of a register -/
def initializeOps (cfg : ι → SoftRegConfig) (i : ι) (sync : Bool) : List (SoftRegOp cfg) :=
  .attach i :: ((if sync && (cfg i).writable then [.flush i] else []) ++
    if sync && (cfg i).readable then [.refresh i] else [])

omit [DecidableEq ι] in
/-- The parts of a call, where the map has these registers in this order. -/
def ops (reglist : List ι) : SoftRegCall cfg → List (SoftRegOp cfg)
  | .initializeReg i sync => initializeOps cfg i sync
  | .set i field value => [.set i field value]
  | .get i field => [.get i field]
  | .flush i => [.flush i]
  | .refresh i => [.refresh i]
  | .write i field value => [.set i field value, .flush i]
  | .read i field => [.refresh i, .get i field]
  | .initializeAll sync => reglist.flatMap fun i => initializeOps cfg i sync
  | .flushAll => reglist.map .flush
  | .refreshAll => reglist.map .refresh

/-- A register becomes another. -/
def update (s : SoftRegmap cfg σ) (i : ι) (r : SoftRegister (cfg i).bitwidth) : SoftRegmap cfg σ :=
  { s with regs := Function.update s.regs i r }

/-- `flush` -/
def flush (s : SoftRegmap cfg σ) (i : ι) : Except SoftRegError (SoftRegmap cfg σ) :=
  if (cfg i).writable && (s.regs i).hasIface then
    if mode i = .alwaysFlush ∨ (s.regs i).dirty = true then
      if (cfg i).bitwidth ≤ 64 then
        .ok ({ s with device := bus.poke (cfg i) (s.regs i).softCopy s.device }.update i
          { s.regs i with dirty := false })
      else .error (.notImplementedError "soft_register only supports up to 64 bits.")
    else .ok s
  else .error (.notImplementedError "soft_register is not writable or uninitialized.")

/-- `refresh` -/
def refresh (s : SoftRegmap cfg σ) (i : ι) : Except SoftRegError (SoftRegmap cfg σ) :=
  if (cfg i).readable && (s.regs i).hasIface then
    if (cfg i).bitwidth ≤ 64 then
      .ok (s.update i { s.regs i with softCopy := bus.peek (cfg i) s.device, dirty := false })
    else .error (.notImplementedError "soft_register only supports up to 64 bits.")
  else .error (.notImplementedError "soft_register is not readable or uninitialized.")

/-- A part of a call. -/
def exec (s : SoftRegmap cfg σ) : SoftRegOp cfg → Except SoftRegError (SoftRegmap cfg σ)
  | .attach i => .ok (s.update i { s.regs i with hasIface := true })
  | .set i field value => .ok (s.update i ((s.regs i).set field value))
  | .get i field => .ok { s with log := s.log ++ [.ok ((s.regs i).get field).toNat] }
  | .flush i => s.flush bus mode i
  | .refresh i => s.refresh bus i

/-- A call, up to the part that throws. -/
def call (s : SoftRegmap cfg σ) : List (SoftRegOp cfg) → SoftRegmap cfg σ
  | [] => s
  | op :: rest =>
    match s.exec bus mode op with
    | .ok t => call t rest
    | .error e => { s with log := s.log ++ [.error e] }

/-- Calls, one after the other. -/
def run (reglist : List ι) (s : SoftRegmap cfg σ) (calls : List (SoftRegCall cfg)) :
    SoftRegmap cfg σ :=
  calls.foldl (fun s c => s.call bus mode (ops reglist c)) s

/-- **A copy that is clean is in the device.** -/
def Coherent (s : SoftRegmap cfg σ) : Prop :=
  ∀ i, (cfg i).writable = true → (s.regs i).dirty = false → (cfg i).bitwidth ≤ 64 ∧
    bus.poke (cfg i) (s.regs i).softCopy s.device = s.device

variable {bus} {s t : SoftRegmap cfg σ}

/-- Only the register that changes has to be looked at, if it is clean then. -/
theorem Coherent.update (hs : s.Coherent bus) {i : ι} {r : SoftRegister (cfg i).bitwidth}
    (hr : (cfg i).writable = true → r.dirty = false →
      (cfg i).bitwidth ≤ 64 ∧ bus.poke (cfg i) r.softCopy s.device = s.device) :
    (s.update i r).Coherent bus := by
  intro j hj hclean
  by_cases hji : j = i
  · subst hji
    simp only [SoftRegmap.update, Function.update_self] at hclean ⊢
    exact hr hj hclean
  · simp only [SoftRegmap.update, Function.update_of_ne hji] at hclean ⊢
    exact hs j hj hclean

/-- **An optimized flush that does not write would have changed nothing.** -/
theorem flush_optimized (hs : s.Coherent bus) (i : ι) :
    s.flush bus mode i = s.flush bus (fun _ => .alwaysFlush) i := by
  have halways : SoftRegFlushMode.alwaysFlush = .alwaysFlush ∨ (s.regs i).dirty = true := Or.inl rfl
  rw [flush, flush, if_pos halways]
  by_cases hwrites : mode i = .alwaysFlush ∨ (s.regs i).dirty = true
  · rw [if_pos hwrites]
  · rw [if_neg hwrites]
    split_ifs with hready hwide
    · have hclean : (s.regs i).dirty = false := Bool.eq_false_iff.mpr (not_or.mp hwrites).2
      have hkept := (hs i (Bool.and_eq_true_iff.mp hready).1 hclean).2
      have hsame : { s.regs i with dirty := false } = s.regs i := by rw [← hclean]
      rw [update, hkept, hsame, Function.update_eq_self]
    · have hclean : (s.regs i).dirty = false := Bool.eq_false_iff.mpr (not_or.mp hwrites).2
      exact absurd (hs i (Bool.and_eq_true_iff.mp hready).1 hclean).1 hwide
    · rfl

theorem Coherent.flush (hbus : bus.Keeps cfg) (hs : s.Coherent bus) {i : ι}
    (h : s.flush bus mode i = .ok t) : t.Coherent bus := by
  rw [SoftRegmap.flush] at h
  split_ifs at h with hready hwrites hwide
  · obtain rfl := Except.ok.inj h
    have hi : (cfg i).writable = true := (Bool.and_eq_true_iff.mp hready).1
    intro j hj hclean
    by_cases hji : j = i
    · subst hji
      simp only [SoftRegmap.update, Function.update_self]
      exact ⟨hwide, hbus.again _ _ _⟩
    · simp only [SoftRegmap.update, Function.update_of_ne hji] at hclean ⊢
      obtain ⟨hnarrow, hkept⟩ := hs j hj hclean
      exact ⟨hnarrow, hbus.others j i _ _ _ hji hj hi hkept⟩
  · exact Except.ok.inj h ▸ hs

theorem Coherent.refresh (hbus : bus.Keeps cfg) (hs : s.Coherent bus) {i : ι}
    (h : s.refresh bus i = .ok t) : t.Coherent bus := by
  rw [SoftRegmap.refresh] at h
  split_ifs at h with hready hwide
  obtain rfl := Except.ok.inj h
  have hi : (cfg i).readable = true := (Bool.and_eq_true_iff.mp hready).1
  exact hs.update fun hwritable _ => ⟨hwide, hbus.readBack i _ hi hwritable⟩

theorem Coherent.exec (hbus : bus.Keeps cfg) (hs : s.Coherent bus) {op : SoftRegOp cfg}
    (h : s.exec bus mode op = .ok t) : t.Coherent bus := by
  cases op with
  | attach i =>
    obtain rfl := Except.ok.inj h
    exact hs.update (hs i)
  | set i field value =>
    obtain rfl := Except.ok.inj h
    refine hs.update fun hwritable hclean => ?_
    -- a copy that is still clean is the one it was
    rw [SoftRegister.set, Bool.or_eq_false_iff, decide_eq_false_iff_not, not_not] at hclean
    rw [SoftRegister.set, ← hclean.2]
    exact hs i hwritable hclean.1
  | get i field =>
    obtain rfl := Except.ok.inj h
    exact hs
  | flush i => exact hs.flush mode hbus h
  | refresh i => exact hs.refresh hbus h

theorem exec_optimized (hs : s.Coherent bus) (op : SoftRegOp cfg) :
    s.exec bus mode op = s.exec bus (fun _ => .alwaysFlush) op := by
  cases op with
  | flush i => exact flush_optimized mode hs i
  | attach | set | get | refresh => rfl

theorem call_optimized (hbus : bus.Keeps cfg) (hs : s.Coherent bus) (ops : List (SoftRegOp cfg)) :
    s.call bus mode ops = s.call bus (fun _ => .alwaysFlush) ops ∧
      (s.call bus mode ops).Coherent bus := by
  induction ops generalizing s with
  | nil => exact ⟨rfl, hs⟩
  | cons op rest ih =>
    rw [call, call, ← exec_optimized mode hs op]
    cases hop : s.exec bus mode op with
    | ok t => exact ih (hs.exec mode hbus hop)
    | error e => exact ⟨rfl, hs⟩

/-- **Optimized flushes save writes and nothing else.**  If the device keeps the registers of the
map, then after any calls, whichever registers are flushed optimally, the copies, the device, what
was read and what was thrown are those of a map in which every flush writes. -/
theorem run_optimized (hbus : bus.Keeps cfg) (reglist : List ι) (device : σ)
    (calls : List (SoftRegCall cfg)) :
    run bus mode reglist { device := device } calls =
      run bus (fun _ => .alwaysFlush) reglist { device := device } calls := by
  have hall : ∀ s : SoftRegmap cfg σ, s.Coherent bus →
      run bus mode reglist s calls = run bus (fun _ => .alwaysFlush) reglist s calls := by
    induction calls with
    | nil => exact fun _ _ => rfl
    | cons c calls ih =>
      intro s hs
      obtain ⟨heq, hcoherent⟩ := call_optimized mode hbus hs (ops reglist c)
      rw [run, run, List.foldl_cons, List.foldl_cons, ← heq]
      exact ih _ hcoherent
  exact hall _ fun i _ hclean => by cases hclean

/-- A device with a memory of words. -/
def memoryBus : Bus (ℕ → BitVec 32) where
  poke32 addr value device := Function.update device addr value
  poke64 _ _ device := device
  peek32 addr device := device addr
  peek64 _ _ := 0

/-- A register that is read and written, and one that is written. -/
def twoRegisters : Bool → SoftRegConfig
  | false => { readable := true, writable := true, wrAddr := 0, rdAddr := 0 }
  | true => { readable := false, writable := true, wrAddr := 4, rdAddr := 4 }

theorem memoryBus_keeps : memoryBus.Keeps twoRegisters where
  again i value device := by cases i <;> exact Function.update_idem ..
  others i j value other device hij _ _ h := by
    have hkept : memoryBus.poke (twoRegisters j) other
        (memoryBus.poke (twoRegisters i) value device) =
          memoryBus.poke (twoRegisters i) value (memoryBus.poke (twoRegisters j) other device) := by
      cases i <;> cases j
      · exact absurd rfl hij
      · exact Function.update_comm (by decide) ..
      · exact Function.update_comm (by decide) ..
      · exact absurd rfl hij
    rw [← hkept, h]
  readBack i device hread _ := by
    cases i with
    | false =>
      change Function.update device 0 (((device 0).setWidth 32).setWidth 32) = device
      rw [BitVec.setWidth_eq, BitVec.setWidth_eq, Function.update_eq_self]
    | true => cases hread

/-- A field is written, flushed once more, and another one is read. -/
def twoCalls : List (SoftRegCall twoRegisters) :=
  [.initializeAll false, .write true ⟨4, 8⟩ 5#32, .flush true, .read false ⟨16, 0⟩]

theorem run_optimized_two :
    run memoryBus (fun _ => .optimizedFlush) [false, true] { device := fun _ => 0 } twoCalls =
      run memoryBus (fun _ => .alwaysFlush) [false, true] { device := fun _ => 0 } twoCalls :=
  run_optimized _ memoryBus_keeps _ _ twoCalls

end SoftRegmap
end Utils
end UhdHost
