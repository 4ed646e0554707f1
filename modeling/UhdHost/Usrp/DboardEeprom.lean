import Mathlib.Tactic.Ring
import UhdHost.Types.Exception

/-!
# The EEPROM of a daughterboard

`dboard_eeprom_t` of `lib/usrp/dboard_eeprom.cpp`: the first 32 bytes of the EEPROM have the ID, the
serial and the revision of a daughterboard, between a byte that says what it is and a checksum.

* `load_of_store`: what was stored is loaded, the serial up to nine characters of it.  A revision
  that is empty, 0 or 65535 is none, and the one that the object had stays.
* `load_set`: a change of any byte of what can be loaded is found.

Strings are lists of their bytes, except for the revision.  The accesses of the I2C interface belong
to the device: `load` begins with the bytes that were read, and `store` ends with those to write.
-/

namespace UhdHost
namespace Usrp

/-- `dboard_eeprom_t` -/
structure DboardEeprom where
  /-- `dboard_id_t::none()` is 0xffff. -/
  id : UInt16 := 0xffff
  serial : List UInt8 := []
  revision : String := ""
  deriving DecidableEq

namespace DboardEeprom

/-- `bytes_to_string` -/
def bytesToString (bytes : List UInt8) : List UInt8 :=
  bytes.takeWhile fun byte => !(decide (byte < 32) || decide (127 < byte))

/-- `string_to_bytes` -/
def stringToBytes (str : List UInt8) (maxLength : ℕ) : List UInt8 :=
  let bytes := str.take maxLength
  if bytes.length < maxLength - 1 then bytes ++ [0] else bytes

/-- `std::isspace` -/
def isSpace (c : Char) : Bool := c.toNat = 32 || (9 ≤ c.toNat && c.toNat ≤ 13)

/-- `std::stoul` with the whole string, after the blanks. -/
def stoul (chars : List Char) : Option ℕ :=
  let digits := match chars with
    | '+' :: rest => rest
    | '-' :: rest => rest
    | _ => chars
  if digits ≠ [] ∧ digits.all Char.isDigit = true then
    let magnitude := digits.foldl (fun n c => 10 * n + (c.toNat - 48)) 0
    if magnitude < 2 ^ 64 then
      -- a number with a sign is taken around
      some (if chars.head? = some '-' then (2 ^ 64 - magnitude) % 2 ^ 64 else magnitude)
    else none
  else none

/-- `cast::from_str` for numbers of 16 bits -/
def fromStr (val : String) : Except UhdError UInt16 :=
  let refused := .error (.runtimeError ("Cannot convert \x60" ++ val ++ "' to uint16_t!"))
  if val.toList.head? = some '-' then refused
  else
    match stoul (val.toList.dropWhile isSpace) with
    | some n => if n ≤ 65535 then .ok (UInt16.ofNat n) else refused
    | none => refused

/-- `checksum` -/
def checksum (bytes : List UInt8) : UInt8 := (bytes.take 31).foldl (fun sum byte => sum - byte) 0

/-- What `load` asserts. -/
def Valid (bytes : List UInt8) : Prop :=
  32 ≤ bytes.length ∧ bytes.getD 0 0 = 0xdb ∧ bytes.getD 31 0 = checksum bytes

instance (bytes : List UInt8) : Decidable (Valid bytes) := by
  unfold Valid
  infer_instance

/-- Two bytes, the lower one first. -/
def word (bytes : List UInt8) (lsb : ℕ) : UInt16 :=
  (bytes.getD lsb 0).toUInt16 ||| ((bytes.getD (lsb + 1) 0).toUInt16 <<< 8)

/-- `load` -/
def load (e : DboardEeprom) (bytes : List UInt8) : DboardEeprom :=
  if Valid bytes then
    { id := word bytes 1
      serial := bytesToString ((bytes.drop 9).take 9)
      revision :=
        if word bytes 3 ≠ 0 ∧ word bytes 3 ≠ 0xffff then toString (word bytes 3).toNat
        else e.revision }
  else { e with id := 0xffff, serial := [] }

/-- All bytes but the checksum. -/
def body (id revision : UInt16) (serial : List UInt8) : List UInt8 :=
  [0xdb, id.toUInt8, (id >>> 8).toUInt8, revision.toUInt8, (revision >>> 8).toUInt8, 0, 0, 0, 0] ++
    (serial ++ List.replicate (22 - serial.length) 0)

/-- `store` -/
def store (e : DboardEeprom) : Except UhdError (List UInt8) := do
  let revision ← if e.revision = "" then pure 0 else fromStr e.revision
  let bytes := body e.id revision (stringToBytes e.serial 9)
  pure (bytes ++ [checksum bytes])

/-! ## What was stored -/

theorem word_bytes (x : UInt16) :
    x.toUInt8.toUInt16 ||| ((x >>> 8).toUInt8.toUInt16 <<< 8) = x := by
  apply UInt16.toBitVec_inj.mp
  apply BitVec.eq_of_getLsbD_eq
  intro i hi
  have height : UInt16.toBitVec 8 % 16 = 8#16 := rfl
  rw [UInt16.toBitVec_or, UInt16.toBitVec_shiftLeft, UInt8.toBitVec_toUInt16,
    UInt8.toBitVec_toUInt16, UInt16.toBitVec_toUInt8, UInt16.toBitVec_toUInt8,
    UInt16.toBitVec_shiftRight, BitVec.getLsbD_or, height]
  by_cases hlow : i < 8
  · simp [hlow, hi]
  · have hback : 8 + (i - 8) = i := by omega
    have hhigh : i - 8 < 8 := by omega
    simp [hlow, hi, hhigh, hback]

/-- The serial, and zeros up to the checksum. -/
theorem stringToBytes_zeros (serial : List UInt8) :
    stringToBytes serial 9 ++ List.replicate (22 - (stringToBytes serial 9).length) 0 =
      serial.take 9 ++ List.replicate (22 - (serial.take 9).length) 0 := by
  have hlength : (serial.take 9).length ≤ 9 := List.length_take_le 9 serial
  unfold stringToBytes
  dsimp only
  split_ifs with hshort
  · rw [List.append_assoc, List.length_append, List.length_singleton]
    have hcount : 22 - (serial.take 9).length = 22 - ((serial.take 9).length + 1) + 1 := by omega
    rw [hcount, List.replicate_succ, List.singleton_append]
  · rfl

theorem length_body (id revision : UInt16) (serial : List UInt8) :
    (body id revision (stringToBytes serial 9)).length = 31 := by
  have hlength : (serial.take 9).length ≤ 9 := List.length_take_le 9 serial
  rw [body, stringToBytes_zeros, List.length_append, List.length_append, List.length_replicate]
  change 9 + _ = 31
  omega

theorem checksum_append {bytes : List UInt8} (hlength : bytes.length = 31) (rest : List UInt8) :
    checksum (bytes ++ rest) = checksum bytes := by
  rw [checksum, checksum, ← hlength, List.take_left', List.take_length]
  rfl

/-- What is read of the serial. -/
theorem bytesToString_zeros {serial : List UInt8}
    (hserial : ∀ byte ∈ serial, 32 ≤ byte ∧ byte ≤ 127) {n : ℕ} (hn : serial.length ≤ n) (m : ℕ) :
    bytesToString ((serial ++ List.replicate m 0).take n) = serial := by
  have hzeros : ∀ k, (List.replicate k (0 : UInt8)).takeWhile
      (fun byte => !(decide (byte < 32) || decide (127 < byte))) = [] := by
    intro k
    cases k <;> rfl
  rw [List.take_append, List.take_of_length_le hn, List.take_replicate, bytesToString,
    List.takeWhile_append_of_pos, hzeros, List.append_nil]
  intro byte hbyte
  obtain ⟨hlow, hhigh⟩ := hserial byte hbyte
  rw [decide_eq_false (UInt8.not_lt.mpr hlow), decide_eq_false (UInt8.not_lt.mpr hhigh)]
  rfl

theorem valid_body (id revision : UInt16) (serial : List UInt8) :
    Valid (body id revision (stringToBytes serial 9) ++
      [checksum (body id revision (stringToBytes serial 9))]) := by
  have hlength := length_body id revision serial
  refine ⟨?_, rfl, ?_⟩
  · rw [List.length_append, hlength]
    exact Nat.le_refl 32
  · rw [checksum_append hlength, List.getD_eq_getElem?_getD, List.getElem?_append_right
      (Nat.le_of_eq hlength), hlength, Nat.sub_self, List.getElem?_cons_zero, Option.getD_some]

/-- What `store` writes. -/
theorem exists_of_store (e : DboardEeprom) {bytes : List UInt8} (h : e.store = .ok bytes) :
    ∃ n, (if e.revision = "" then n = 0 else fromStr e.revision = .ok n) ∧
      bytes = body e.id n (stringToBytes e.serial 9) ++
        [checksum (body e.id n (stringToBytes e.serial 9))] := by
  rw [store] at h
  split_ifs at h ⊢ with hempty
  · exact ⟨0, rfl, (Except.ok.inj h).symm⟩
  · cases hn : fromStr e.revision with
    | error _ =>
      rw [hn] at h
      cases h
    | ok n =>
      rw [hn] at h
      exact ⟨n, rfl, (Except.ok.inj h).symm⟩

/-- The bytes from which `load` reads the serial. -/
theorem serial_body (id revision : UInt16) (serial rest : List UInt8) :
    ((body id revision (stringToBytes serial 9) ++ rest).drop 9).take 9 =
      (serial.take 9 ++ List.replicate (22 - (serial.take 9).length) 0).take 9 := by
  have hlength : (serial.take 9).length ≤ 9 := List.length_take_le 9 serial
  change ((stringToBytes serial 9 ++
    List.replicate (22 - (stringToBytes serial 9).length) 0) ++ rest).take 9 = _
  rw [stringToBytes_zeros, List.take_append_of_le_length]
  rw [List.length_append, List.length_replicate]
  omega

/-- **What was stored is loaded**, into an object that may hold anything: the ID, up to nine
characters of the serial, and the number of the revision in decimal, if it is one that counts. -/
theorem load_of_store (e old : DboardEeprom) {bytes : List UInt8} (h : e.store = .ok bytes)
    (hserial : ∀ byte ∈ e.serial, 32 ≤ byte ∧ byte ≤ 127) :
    ∃ n, (if e.revision = "" then n = 0 else fromStr e.revision = .ok n) ∧
      old.load bytes =
        { id := e.id
          serial := e.serial.take 9
          revision := if n = 0 ∨ n = 0xffff then old.revision else toString n.toNat } := by
  obtain ⟨n, hn, rfl⟩ := e.exists_of_store h
  refine ⟨n, hn, ?_⟩
  rw [load, if_pos (valid_body e.id n e.serial), serial_body, bytesToString_zeros
    (fun byte hbyte => hserial byte (List.mem_of_mem_take hbyte)) (List.length_take_le 9 e.serial)]
  have hid : word (body e.id n (stringToBytes e.serial 9) ++
      [checksum (body e.id n (stringToBytes e.serial 9))]) 1 = e.id := word_bytes e.id
  have hrev : word (body e.id n (stringToBytes e.serial 9) ++
      [checksum (body e.id n (stringToBytes e.serial 9))]) 3 = n := word_bytes n
  rw [hid, hrev]
  by_cases hnone : n = 0 ∨ n = 0xffff
  · rw [if_pos hnone, if_neg fun hcounts => hnone.elim hcounts.1 hcounts.2]
  · rw [if_neg hnone, if_pos (not_or.mp hnone)]

theorem load_of_store_revision : ∃ bytes,
    store { id := 0x0067, serial := [51, 69], revision := "7" } = .ok bytes ∧
      ∃ n, fromStr "7" = .ok n ∧ load {} bytes =
        { id := 0x0067
          serial := [51, 69]
          revision := if n = 0 ∨ n = 0xffff then "" else toString n.toNat } := by
  have h : store { id := 0x0067, serial := [51, 69], revision := "7" } = .ok _ := rfl
  exact ⟨_, h, load_of_store _ {} h (List.forall_mem_cons.mpr
    ⟨by decide, List.forall_mem_singleton.mpr (by decide)⟩)⟩

/-! ## What was changed -/

theorem foldl_sub_add (bytes : List UInt8) (s d : UInt8) :
    bytes.foldl (fun sum byte => sum - byte) (s + d) =
      bytes.foldl (fun sum byte => sum - byte) s + d := by
  induction bytes generalizing s with
  | nil => rfl
  | cons byte bytes ih =>
    have hcomm : s + d - byte = s - byte + d := by grind
    rw [List.foldl_cons, List.foldl_cons, hcomm, ih]

theorem foldl_sub_set {bytes : List UInt8} {i : ℕ} (hi : i < bytes.length) (v s : UInt8) :
    (bytes.set i v).foldl (fun sum byte => sum - byte) s =
      bytes.foldl (fun sum byte => sum - byte) s + (bytes.getD i 0 - v) := by
  induction bytes generalizing i s with
  | nil => cases hi
  | cons byte bytes ih =>
    cases i with
    | zero =>
      have hsum : s - v = s - byte + (byte - v) := by grind
      rw [List.set_cons_zero, List.foldl_cons, List.foldl_cons, hsum, foldl_sub_add]
      rfl
    | succ j => exact ih (Nat.lt_of_succ_lt_succ hi) (s - byte)

/-- **A change of any one byte is found**: of what can be loaded, whether it was stored or not,
nothing is loaded any more, neither the ID nor the serial. -/
theorem load_set {bytes : List UInt8} (h : Valid bytes) {i : ℕ} (hi : i < 32) {v : UInt8}
    (hv : v ≠ bytes.getD i 0) (old : DboardEeprom) :
    old.load (bytes.set i v) = { old with id := 0xffff, serial := [] } := by
  refine if_neg ?_
  rintro ⟨-, -, hsum⟩
  obtain ⟨hlength, -, hold⟩ := h
  have hi' : i < bytes.length := Nat.lt_of_lt_of_le hi hlength
  by_cases hlast : i = 31
  · rw [hlast, checksum, List.take_set_of_le (Nat.le_refl 31), ← checksum, ← hold,
      List.getD_eq_getElem?_getD, List.getElem?_set_self (hlast ▸ hi')] at hsum
    exact hv (hlast ▸ hsum)
  · have hbefore : i < 31 := by omega
    have htake : (bytes.take 31).getD i 0 = bytes.getD i 0 := by
      rw [List.getD_eq_getElem?_getD, List.getElem?_take_of_lt hbefore, List.getD_eq_getElem?_getD]
    rw [checksum, List.take_set, foldl_sub_set (by rw [List.length_take]; omega), htake, ← checksum,
      ← hold, List.getD_eq_getElem?_getD, List.getElem?_set_ne hlast,
      ← List.getD_eq_getElem?_getD] at hsum
    refine hv ?_
    grind

theorem load_set_magic : ∃ bytes, store { id := 0x0067, serial := [51, 69], revision := "7" } =
    .ok bytes ∧ load {} (bytes.set 1 0) = {} :=
  ⟨_, rfl, load_set (by decide) (by decide) (by decide) {}⟩

end DboardEeprom
end Usrp
end UhdHost
