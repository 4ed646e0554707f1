import UhdHost.Types.Exception
import UhdHost.Types.SizeT
import UhdHost.Library.Transition

/-!
# Reading Intel HEX files

The reader of `ihex.cpp`: a file is read word by word, each word is a record, and the records are
handed to a handler.

A record is taken apart with string streams.  A stream reads as many digits as there are and leaves
the rest alone, it takes a sign for a number, and from an empty text it reads nothing.  So the tests
of the reader, the checksum and the comparison of the byte count with the length of the line, are
passed by lines that are not records: a line may be shorter than its byte count says, and its last
byte is then taken again and again.  A byte count with a minus sign is a large number, and the bytes
are written past the end of the buffer.

* `isRecord_iff`: the lines that pass the tests and are well written are the records.
* `readRecord_overrun_iff`: the buffer is left exactly by the lines that are too long for it.
* `everyStep_good_iff`: what is delivered is what the records say, where each line is a record and
  the addresses are counted from the last extended address.
* `claimed_iff_linesWritten`: the condition on a text under which every handler gets what is in the
  file.
-/

namespace UhdHost
namespace Ihex

/-! ## Numbers in a text -/

/-- What a computation ends with that does not end normally: a byte is written past the end of the
buffer, or an exception. -/
inductive Fault where
  | overrun
  | thrown (e : UhdError)
  deriving DecidableEq

/-- The value of a digit. -/
def hexDigit (c : Char) : Option ℕ :=
  if 48 ≤ c.toNat ∧ c.toNat ≤ 57 then some (c.toNat - 48)
  else if 97 ≤ c.toNat ∧ c.toNat ≤ 102 then some (c.toNat - 87)
  else if 65 ≤ c.toNat ∧ c.toNat ≤ 70 then some (c.toNat - 55)
  else none

/-- The value of the digits that a text begins with, after a value. -/
def digits : ℕ → List Char → ℕ
  | acc, [] => acc
  | acc, c :: text =>
    match hexDigit c with
    | some value => digits (16 * acc + value) text
    | none => acc

/-- The number that a text without a sign begins with: there may be a mark of the base. -/
def magnitude (text : List Char) : ℕ :=
  if text.take 2 = ['0', 'x'] ∨ text.take 2 = ['0', 'X'] then digits 0 (text.drop 2)
  else digits 0 text

/-- The number that a text begins with; zero if it begins with none. -/
def scan (text : List Char) : ℤ :=
  if text.head? = some '-' then -(magnitude text.tail : ℤ)
  else if text.head? = some '+' then magnitude text.tail
  else magnitude text

/-- `std::istringstream(text) >> std::hex >> value`, where the value has `w` bits: an empty text
leaves it. -/
def extract (w old : ℕ) (text : List Char) : ℕ :=
  if text = [] then old else (scan text % 2 ^ w).toNat

/-- `record.substr(pos, n)` -/
def substr (record : List Char) (pos n : ℕ) : Except Fault (List Char) :=
  if record.length < pos then .error (.thrown .outOfRange) else .ok ((record.drop pos).take n)

/-! ## Records -/

/-- The sum of the numbers that the pairs of characters begin with. -/
def pairSum : List Char → ℕ
  | [] => 0
  | [c] => extract 32 0 [c]
  | c :: d :: text => extract 32 0 [c, d] + pairSum text

/-- `checksum`: the sum is a byte. -/
def checksum (record : List Char) : Bool := pairSum record.tail % 256 = 0

/-- The fields of a record, which the reader keeps from one to the next. -/
structure Header where
  len : ℕ
  addr : ℕ
  type : ℕ
  deriving DecidableEq

/-- The data of a record, from the byte `i` on: so many bytes as are given, and the value that was
read last.  The first byte is never read from an empty text, as then there are no data. -/
def parseData (record : List Char) : ℕ → ℕ → ℕ → Except Fault (List ℕ)
  | 0, _, _ => .ok []
  | n + 1, i, val => do
    let text ← substr record (9 + 2 * i) 2
    let val := extract 32 val text
    -- `data` has 255 bytes
    if 255 ≤ i then .error .overrun
    else
      let rest ← parseData record n (i + 1) val
      pure (val % 256 :: rest)

/-- The comparison of the byte count with the length of the record, in numbers of 64 bits. -/
def tooMany (len length : ℕ) : Bool := 2 * sizeSub length 9 % 2 ^ 64 < len

/-- `parse_record`: nothing where it returns `false`. -/
def parseRecord (old : Header) (record : List Char) : Except Fault (Option (Header × List ℕ)) := do
  let first ← substr record 0 1
  if first ≠ [':'] then pure none
  else
    let len := extract 16 old.len (← substr record 1 2)
    let addr := extract 16 old.addr (← substr record 3 4)
    let type := extract 16 old.type (← substr record 7 2)
    if tooMany len record.length then pure none
    else
      let data ← parseData record len 0 0
      pure (some (⟨len, addr, type⟩, data))

/-! ## The reader -/

/-- What a handler is called with: the two halves of the address and the data. -/
structure Call where
  lower : ℕ
  upper : ℕ
  data : List ℕ
  deriving DecidableEq

/-- The variables of `read`. -/
structure State where
  header : Header := ⟨0, 0, 0⟩
  upper : ℕ := 0
  deriving DecidableEq

/-- What a record that is accepted is for. -/
inductive Event where
  | data (call : Call)
  | ended
  | extended
  | start (call : Call)
  deriving DecidableEq

/-- An exception of the reader. -/
def refuse (what : String) : Fault := .thrown (.ioError ("ihex_reader::read(): " ++ what))

/-- Two bytes of the data as a number. -/
def word (data : List ℕ) (i : ℕ) : ℕ := data.getD i 0 * 256 + data.getD (i + 1) 0

/-- The format `%X` -/
def upperHex (n : ℕ) : String := String.ofList ((Nat.toDigits 16 n).map Char.toUpper)

namespace State

variable (st : State)

/-- What `read` does with a record, by its type. -/
def dispatch (header : Header) (data : List ℕ) : Except Fault (State × Event) :=
  if header.type = 0 then
    .ok (⟨header, st.upper⟩, .data ⟨header.addr, st.upper, data⟩)
  else if header.type = 1 then
    if header.addr ≠ 0 ∨ header.len ≠ 0 then
      .error (refuse "For EOF record, address must be 0, length must be 0.")
    else .ok (⟨header, st.upper⟩, .ended)
  else if header.type = 4 then
    if header.addr ≠ 0 ∨ header.len ≠ 2 then
      .error (refuse "For ELA record, address must be 0, length must be 2.")
    else .ok (⟨header, word data 0⟩, .extended)
  else if header.type = 5 then
    if header.addr ≠ 0 ∨ header.len ≠ 4 then
      .error (refuse "For SLA record, address must be 0, length must be 4.")
    else .ok (⟨{ header with addr := word data 2 }, word data 0⟩,
      .start ⟨word data 2, word data 0, []⟩)
  else
    .error (refuse ("unsupported record type: " ++ upperHex header.type ++ "."))

/-- A turn of the loop of `read`, up to the call of the handler. -/
def readRecord (record : List Char) : Except Fault (State × Event) :=
  if checksum record = true then
    match parseRecord st.header record with
    | .error fault => .error fault
    | .ok none => .error (refuse "bad intel hex record checksum")
    | .ok (some (header, data)) => st.dispatch header data
  else
    .error (refuse "bad intel hex record checksum")

end State

/-- `read`, from a record on, with the calls of the handler so far; the handler answers by the calls
before. -/
def read (handler : List Call → Call → ℤ) :
    State → List Call → List (List Char) → Except Fault (List Call)
  | _, _, [] => .error (refuse "No EOF record found.")
  | st, calls, record :: rest =>
    match st.readRecord record with
    | .error fault => .error fault
    | .ok (_, .ended) => .ok calls
    | .ok (next, .extended) => read handler next calls rest
    | .ok (next, .data call) =>
      if handler calls call < 0 then .error (refuse "record handler returned failure code")
      else read handler next (calls ++ [call]) rest
    | .ok (next, .start call) => read handler next (calls ++ [call]) rest

/-- `std::isspace` -/
def isSpace (c : Char) : Bool := c.toNat = 32 ∨ 9 ≤ c.toNat ∧ c.toNat ≤ 13

/-- `file >> record`, until the file ends: empty records are skipped. -/
def records (text : List Char) : List (List Char) :=
  (text.splitOnP isSpace).filter fun record => decide (0 < record.length)

/-- `ihex_reader::read` -/
def readFile (handler : List Call → Call → ℤ) (text : List Char) : Except Fault (List Call) :=
  read handler {} [] (records text)

/-- `_vector_writer_callback` -/
def vectorWriterCallback (vector : List ℕ) (call : Call) : List ℕ :=
  call.data.foldl (fun vector byte => vector ++ [byte]) vector

/-- `to_vector`: the handler that appends the data never fails. -/
def toVector (text : List Char) : Except Fault (List ℕ) :=
  (readFile (fun _ _ => 0) text).map fun calls => calls.foldl vectorWriterCallback []

/-! ## What is claimed -/

/-- The bytes that a text of pairs of digits stands for. -/
def hexBytes : List Char → Option (List ℕ)
  | [] => some []
  | [_] => none
  | c :: d :: text =>
    match hexDigit c, hexDigit d with
    | some high, some low => (hexBytes text).map fun bytes => (16 * high + low) :: bytes
    | _, _ => none

/-- **A record**: a colon, the number of the data, the address, the type, the data and a checksum,
and nothing else. -/
def IsRecord (record : List Char) (addr type : ℕ) (data : List ℕ) : Prop :=
  ∃ high low sum rest, record = ':' :: rest ∧
    hexBytes rest = some (data.length :: high :: low :: type :: (data ++ [sum])) ∧
    addr = 256 * high + low ∧ (data.length + high + low + type + data.sum + sum) % 256 = 0

/-- **What is in a file**, from a line on: the calls that its records stand for, up to the record
that ends it.  The base of the addresses is what the last extended address says. -/
inductive Reads : ℕ → List (List Char) → List Call → Prop where
  | ended {base : ℕ} {record : List Char} {rest : List (List Char)} (h : IsRecord record 0 1 []) :
      Reads base (record :: rest) []
  | data {base addr : ℕ} {record : List Char} {bytes : List ℕ} {rest : List (List Char)}
      {calls : List Call} (h : IsRecord record addr 0 bytes) (hrest : Reads base rest calls) :
      Reads base (record :: rest) (⟨addr, base, bytes⟩ :: calls)
  | extended {base : ℕ} {record : List Char} {bytes : List ℕ} {rest : List (List Char)}
      {calls : List Call} (h : IsRecord record 0 4 bytes) (hlen : bytes.length = 2)
      (hrest : Reads (word bytes 0) rest calls) : Reads base (record :: rest) calls
  | start {base : ℕ} {record : List Char} {bytes : List ℕ} {rest : List (List Char)}
      {calls : List Call} (h : IsRecord record 0 5 bytes) (hlen : bytes.length = 4)
      (hrest : Reads base rest calls) :
      Reads base (record :: rest) (⟨word bytes 2, word bytes 0, []⟩ :: calls)

/-- **What is claimed** of a text: whatever the handler answers, the buffer is never left, and what
is delivered when the reader returns is what is in the file; and the vector is its data. -/
def Claimed (text : List Char) : Prop :=
  (∀ handler, readFile handler text ≠ .error .overrun ∧
    ∀ calls, readFile handler text = .ok calls → Reads 0 (records text) calls) ∧
  ∀ vector, toVector text = .ok vector →
    ∃ calls, Reads 0 (records text) calls ∧ vector = calls.flatMap Call.data

/-- The byte count of a line, as the reader reads it. -/
def byteCount (record : List Char) : ℕ := extract 16 0 ((record.drop 1).take 2)

/-- A line is well written: behind the colon there are digits, as many as the byte count says. -/
def Written (record : List Char) : Prop :=
  (∀ c ∈ record.tail, hexDigit c ≠ none) ∧ record.length = 11 + 2 * byteCount record

/-- A line that passes the tests and has more data than the buffer. -/
def Overlong (record : List Char) : Prop :=
  checksum record = true ∧ record.head? = some ':' ∧
    tooMany (byteCount record) record.length = false ∧ 255 < byteCount record ∧
      519 ≤ record.length

/-- A place in a file: the variables of the reader and the base of the addresses that the last
extended address has set. -/
structure Place where
  st : State := {}
  base : ℕ := 0

/-- The next place, if the line passes the tests and does not end the file. -/
def Place.follow (place : Place) (record : List Char) : Option Place :=
  match place.st.readRecord record with
  | .error _ => none
  | .ok (_, .ended) => none
  | .ok (next, .extended) => some ⟨next, next.upper⟩
  | .ok (next, .data _) => some ⟨next, place.base⟩
  | .ok (next, .start _) => some ⟨next, place.base⟩

/-- The lines from a place on pass the tests, up to one that ends the file. -/
def Place.Finishes (place : Place) (lines : List (List Char)) : Prop :=
  ∃ before last rest place' st, lines = before ++ last :: rest ∧
    Transition.run Place.follow place before = some place' ∧
      place'.st.readRecord last = .ok (st, .ended)

/-- A line is well written, and data are not behind a start address with another upper half. -/
def Place.Good (place : Place) (record : List Char) : Prop :=
  Written record ∧ ∀ next call, place.st.readRecord record = .ok (next, .data call) →
    place.st.upper = place.base

/-- **The condition** on a text: no line that is reached is too long for the buffer; and if all
lines up to the end record pass the tests of the reader, they are well written and no data follow a
start address that changed the upper half of the addresses. -/
def Meets (text : List Char) : Prop :=
  Transition.EveryStep Place.follow (fun _ record => ¬ Overlong record) {} (records text) ∧
    (Place.Finishes {} (records text) →
      Transition.EveryStep Place.follow Place.Good {} (records text))

/-! ## Numbers that are written in digits -/

section Numbers

variable {c d : Char} {x y : ℕ} {text : List Char} {bytes : List ℕ}

theorem ne_of_hexDigit (hc : hexDigit c = some x) {e : Char} (he : hexDigit e = none) : c ≠ e := by
  rintro rfl
  rw [hc] at he
  cases he

theorem hexDigit_lt (hc : hexDigit c = some x) : x < 16 := by
  unfold hexDigit at hc
  split_ifs at hc <;> cases hc <;> omega

theorem scan_of_digits (hc : hexDigit c = some x) (hd : hexDigit d = some y) (text : List Char) :
    scan (c :: d :: text) = digits 0 (c :: d :: text) := by
  have hmark : ¬ ((c :: d :: text).take 2 = ['0', 'x'] ∨ (c :: d :: text).take 2 = ['0', 'X']) := by
    rintro (h | h)
    · injection h with _ h
      injection h with h _
      exact ne_of_hexDigit hd (by decide) h
    · injection h with _ h
      injection h with h _
      exact ne_of_hexDigit hd (by decide) h
  have hminus : (c :: d :: text).head? ≠ some '-' := fun h =>
    ne_of_hexDigit hc (by decide) (Option.some.inj h)
  have hplus : (c :: d :: text).head? ≠ some '+' := fun h =>
    ne_of_hexDigit hc (by decide) (Option.some.inj h)
  rw [scan, if_neg hminus, if_neg hplus, magnitude, if_neg hmark]

theorem digits_cons (hc : hexDigit c = some x) (acc : ℕ) (text : List Char) :
    digits acc (c :: text) = digits (16 * acc + x) text := by
  rw [digits, hc]

theorem extract_pair (hc : hexDigit c = some x) (hd : hexDigit d = some y) {w : ℕ} (hw : 8 ≤ w)
    (old : ℕ) : extract w old [c, d] = 16 * x + y := by
  have hx := hexDigit_lt hc
  have hy := hexDigit_lt hd
  have hpow : 2 ^ 8 ≤ 2 ^ w := Nat.pow_le_pow_right (by decide) hw
  rw [extract, if_neg (List.cons_ne_nil _ _), scan_of_digits hc hd, digits_cons hc, digits_cons hd]
  rw [digits, Nat.mul_zero, Nat.zero_add]
  have hmod : ((16 * x + y : ℕ) : ℤ) % 2 ^ w = (16 * x + y : ℕ) := by
    refine Int.emod_eq_of_lt (Int.natCast_nonneg _) ?_
    exact_mod_cast lt_of_lt_of_le (show 16 * x + y < 2 ^ 8 by omega) hpow
  rw [hmod, Int.toNat_natCast]

theorem extract_quad {e f : Char} {z t : ℕ} (hc : hexDigit c = some x) (hd : hexDigit d = some y)
    (he : hexDigit e = some z) (hf : hexDigit f = some t) (old : ℕ) :
    extract 16 old [c, d, e, f] = 256 * (16 * x + y) + (16 * z + t) := by
  have hx := hexDigit_lt hc
  have hy := hexDigit_lt hd
  have hz := hexDigit_lt he
  have ht := hexDigit_lt hf
  rw [extract, if_neg (List.cons_ne_nil _ _), scan_of_digits hc hd, digits_cons hc, digits_cons hd,
    digits_cons he, digits_cons hf, digits]
  omega

theorem exists_of_hexBytes_cons {byte : ℕ} (h : hexBytes text = some (byte :: bytes)) :
    ∃ c d x y rest, text = c :: d :: rest ∧ hexDigit c = some x ∧ hexDigit d = some y ∧
      byte = 16 * x + y ∧ hexBytes rest = some bytes := by
  match text with
  | [] => cases h
  | [c] => cases h
  | c :: d :: rest =>
    rw [hexBytes] at h
    cases hc : hexDigit c with
    | none =>
      rw [hc] at h
      cases h
    | some x =>
      cases hd : hexDigit d with
      | none =>
        rw [hc, hd] at h
        cases h
      | some y =>
        rw [hc, hd] at h
        obtain ⟨tail, htail, heq⟩ := Option.map_eq_some_iff.mp h
        injection heq with hbyte hbytes
        exact ⟨c, d, x, y, rest, rfl, hc, hd, hbyte.symm, hbytes ▸ htail⟩

theorem eq_nil_of_hexBytes (h : hexBytes text = some []) : text = [] := by
  match text with
  | [] => rfl
  | [c] => cases h
  | c :: d :: rest =>
    rw [hexBytes] at h
    cases hc : hexDigit c with
    | none =>
      rw [hc] at h
      cases h
    | some x =>
      cases hd : hexDigit d with
      | none =>
        rw [hc, hd] at h
        cases h
      | some y =>
        rw [hc, hd] at h
        obtain ⟨tail, -, heq⟩ := Option.map_eq_some_iff.mp h
        cases heq

theorem pairSum_of_hexBytes (h : hexBytes text = some bytes) : pairSum text = bytes.sum := by
  induction bytes generalizing text with
  | nil => rw [eq_nil_of_hexBytes h, pairSum, List.sum_nil]
  | cons byte bytes ih =>
    obtain ⟨c, d, x, y, rest, rfl, hc, hd, rfl, hrest⟩ := exists_of_hexBytes_cons h
    rw [pairSum, extract_pair hc hd (by decide), ih hrest, List.sum_cons]

theorem length_of_hexBytes (h : hexBytes text = some bytes) : text.length = 2 * bytes.length := by
  induction bytes generalizing text with
  | nil => rw [eq_nil_of_hexBytes h, List.length_nil, List.length_nil]
  | cons byte bytes ih =>
    obtain ⟨c, d, x, y, rest, rfl, -, -, -, hrest⟩ := exists_of_hexBytes_cons h
    rw [List.length_cons, List.length_cons, List.length_cons, ih hrest]
    omega

theorem lt_of_hexBytes (h : hexBytes text = some bytes) : ∀ byte ∈ bytes, byte < 256 := by
  induction bytes generalizing text with
  | nil => exact fun byte hbyte => absurd hbyte List.not_mem_nil
  | cons first bytes ih =>
    obtain ⟨c, d, x, y, rest, rfl, hc, hd, rfl, hrest⟩ := exists_of_hexBytes_cons h
    intro byte hbyte
    rcases List.mem_cons.mp hbyte with rfl | hbyte
    · have hx := hexDigit_lt hc
      have hy := hexDigit_lt hd
      omega
    · exact ih hrest byte hbyte

theorem exists_hexBytes (hdigits : ∀ c ∈ text, hexDigit c ≠ none) {n : ℕ}
    (hlen : text.length = 2 * n) : ∃ bytes, hexBytes text = some bytes := by
  induction n generalizing text with
  | zero =>
    rw [List.eq_nil_of_length_eq_zero hlen]
    exact ⟨[], rfl⟩
  | succ n ih =>
    match text with
    | [] => exact ⟨[], rfl⟩
    | [c] =>
      rw [List.length_singleton] at hlen
      omega
    | c :: d :: rest =>
      rw [List.length_cons, List.length_cons] at hlen
      obtain ⟨bytes, hbytes⟩ := @ih rest (fun e he => hdigits e
        (List.mem_cons_of_mem _ (List.mem_cons_of_mem _ he))) (by omega)
      obtain ⟨x, hx⟩ := Option.ne_none_iff_exists'.mp (hdigits c List.mem_cons_self)
      obtain ⟨y, hy⟩ := Option.ne_none_iff_exists'.mp
        (hdigits d (List.mem_cons_of_mem _ List.mem_cons_self))
      refine ⟨(16 * x + y) :: bytes, ?_⟩
      rw [hexBytes, hx, hy, hbytes]
      rfl

theorem digits_of_hexBytes (h : hexBytes text = some bytes) : ∀ c ∈ text, hexDigit c ≠ none := by
  induction bytes generalizing text with
  | nil =>
    rw [eq_nil_of_hexBytes h]
    exact fun c hc => absurd hc List.not_mem_nil
  | cons byte bytes ih =>
    obtain ⟨c, d, x, y, rest, rfl, hc, hd, -, hrest⟩ := exists_of_hexBytes_cons h
    intro e he
    rcases List.mem_cons.mp he with rfl | he
    · exact hc ▸ Option.some_ne_none x
    · rcases List.mem_cons.mp he with rfl | he
      · exact hd ▸ Option.some_ne_none y
      · exact ih hrest e he

end Numbers

/-! ## Records that are read -/

section Records

variable {record : List Char} {addr type : ℕ} {data : List ℕ}

theorem ok_bind {α β : Type} (a : α) (f : α → Except Fault β) : (Except.ok a >>= f) = f a := rfl

theorem error_eq_error_iff {α β : Type} {fault fault' : Fault} :
    (Except.error fault : Except Fault α) = .error fault' ↔
      (Except.error fault : Except Fault β) = .error fault' := by
  rw [Except.error.injEq, Except.error.injEq]

theorem substr_of_le {pos : ℕ} (h : pos ≤ record.length) (n : ℕ) :
    substr record pos n = .ok ((record.drop pos).take n) :=
  if_neg (not_lt.mpr h)

theorem parseData_of_hexBytes {more : List ℕ} {i : ℕ} (val : ℕ)
    (h : hexBytes (record.drop (9 + 2 * i)) = some (data ++ more)) (hlen : i + data.length ≤ 255) :
    parseData record data.length i val = .ok data := by
  induction data generalizing i val with
  | nil => rfl
  | cons byte data ih =>
    obtain ⟨c, d, x, y, rest, hdrop, hc, hd, hbyte, hrest⟩ := exists_of_hexBytes_cons h
    rw [List.length_cons] at hlen ⊢
    have hle : 9 + 2 * i ≤ record.length := by
      by_contra hgt
      rw [List.drop_eq_nil_of_le (by omega)] at hdrop
      cases hdrop
    have htail : record.drop (9 + 2 * (i + 1)) = rest := by
      rw [Nat.mul_succ, ← Nat.add_assoc, ← List.drop_drop, hdrop]
      rfl
    have hx := hexDigit_lt hc
    have hy := hexDigit_lt hd
    rw [parseData, substr_of_le hle, hdrop]
    dsimp only [bind, Except.bind]
    rw [if_neg (by omega), ih _ (htail ▸ hrest) (by omega)]
    dsimp only [pure, Except.pure]
    rw [show (c :: d :: rest).take 2 = [c, d] from rfl, extract_pair hc hd (by decide),
      Nat.mod_eq_of_lt (by omega), hbyte]

theorem length_parseData {n i val : ℕ} (h : parseData record n i val = .ok data) :
    data.length = n := by
  induction n generalizing i val data with
  | zero =>
    cases h
    rfl
  | succ n ih =>
    rw [parseData] at h
    cases htext : substr record (9 + 2 * i) 2 with
    | error fault =>
      rw [htext] at h
      cases h
    | ok text =>
      rw [htext] at h
      dsimp only [bind, Except.bind] at h
      split_ifs at h with hi
      cases hrest : parseData record n (i + 1) (extract 32 val text) with
      | error fault =>
        rw [hrest] at h
        cases h
      | ok rest =>
        rw [hrest] at h
        cases h
        rw [List.length_cons, ih hrest]

theorem parseData_overrun_iff {n i : ℕ} (val : ℕ) (hi : i ≤ 255) :
    parseData record n i val = .error .overrun ↔ 255 < i + n ∧ 519 ≤ record.length := by
  induction n generalizing i val with
  | zero =>
    refine iff_of_false (fun h => ?_) (fun h => by omega)
    cases h
  | succ n ih =>
    rw [parseData]
    by_cases hle : 9 + 2 * i ≤ record.length
    · rw [substr_of_le hle]
      dsimp only [bind, Except.bind]
      by_cases hlast : 255 ≤ i
      · rw [if_pos hlast]
        exact iff_of_true rfl ⟨by omega, by omega⟩
      · have hnext : i + (n + 1) = i + 1 + n := by omega
        rw [if_neg hlast, hnext, ← ih (extract 32 val ((record.drop (9 + 2 * i)).take 2))
          (Nat.lt_of_not_le hlast)]
        cases parseData record n (i + 1) (extract 32 val ((record.drop (9 + 2 * i)).take 2)) with
        | error fault => exact Iff.rfl
        | ok rest =>
          refine iff_of_false (fun h => ?_) (fun h => ?_)
          · cases h
          · cases h
    · rw [substr, if_pos (not_le.mp hle)]
      refine iff_of_false (fun h => ?_) (fun h => by omega)
      cases h

theorem written_of_isRecord (h : IsRecord record addr type data) : Written record := by
  obtain ⟨high, low, sum, rest, rfl, hrest, -, -⟩ := h
  have hlen := length_of_hexBytes hrest
  have hdigits := digits_of_hexBytes hrest
  obtain ⟨c, d, x, y, rest', rfl, hc, hd, hn, -⟩ := exists_of_hexBytes_cons hrest
  refine ⟨hdigits, ?_⟩
  change rest'.length + 1 + 1 + 1 = 11 + 2 * extract 16 0 [c, d]
  rw [extract_pair hc hd (by decide), ← hn]
  simp only [List.length_cons, List.length_append, List.length_nil] at hlen ⊢
  omega

theorem exists_isRecord (hsum : checksum record = true) (hcolon : record.head? = some ':')
    (hwritten : Written record) : ∃ addr type data, IsRecord record addr type data := by
  obtain ⟨hdigits, hlength⟩ := hwritten
  obtain ⟨rest, rfl⟩ := List.head?_eq_some_iff.mp hcolon
  rw [List.tail_cons] at hdigits
  rw [List.length_cons] at hlength
  obtain ⟨bytes, hbytes⟩ := @exists_hexBytes rest hdigits (5 + byteCount (':' :: rest)) (by omega)
  have hlen := length_of_hexBytes hbytes
  match bytes with
  | [] => simp only [List.length_nil] at hlen; omega
  | [_] => simp only [List.length_cons, List.length_nil] at hlen; omega
  | [_, _] => simp only [List.length_cons, List.length_nil] at hlen; omega
  | [_, _, _] => simp only [List.length_cons, List.length_nil] at hlen; omega
  | n :: high :: low :: type :: tail =>
    obtain ⟨c, d, x, y, rest', rfl, hc, hd, hn, -⟩ := exists_of_hexBytes_cons hbytes
    have hcount : byteCount (':' :: c :: d :: rest') = n := by
      change extract 16 0 [c, d] = n
      rw [extract_pair hc hd (by decide), ← hn]
    rw [hcount] at hlength
    simp only [List.length_cons] at hlen hlength
    have hne : tail ≠ [] := fun h => by
      rw [h, List.length_nil] at hlen
      omega
    have htail := List.dropLast_append_getLast hne
    have hdata : tail.dropLast.length = n := by
      rw [List.length_dropLast]
      omega
    refine ⟨256 * high + low, type, tail.dropLast, high, low, tail.getLast hne, _, rfl, ?_, rfl, ?_⟩
    · rw [hdata, htail, hbytes]
    · have htotal := pairSum_of_hexBytes hbytes
      rw [← htail, List.sum_cons, List.sum_cons, List.sum_cons, List.sum_cons, List.sum_append,
        List.sum_singleton] at htotal
      have hzero := of_decide_eq_true hsum
      rw [List.tail_cons, htotal] at hzero
      rw [hdata]
      omega

theorem head?_of_take {record : List Char} (h : record.take 1 = [':']) :
    record.head? = some ':' := by
  cases record with
  | nil => cases h
  | cons c record =>
    injection h with hc
    rw [hc, List.head?_cons]

theorem parseRecord_of_noColon (hcolon : record.take 1 ≠ [':']) (old : Header) :
    parseRecord old record = .ok none := by
  unfold parseRecord
  rw [substr_of_le (Nat.zero_le _), List.drop_zero]
  dsimp only [bind, Except.bind]
  rw [if_pos hcolon]
  rfl

theorem parseRecord_of_short (hcolon : record.take 1 = [':']) (hlt : record.length < 7)
    (old : Header) : parseRecord old record = .error (.thrown .outOfRange) := by
  have hshort : substr record 7 2 = .error (.thrown .outOfRange) := if_pos hlt
  have hle : 1 ≤ record.length := by
    cases record with
    | nil => cases hcolon
    | cons c record => exact Nat.succ_pos _
  unfold parseRecord
  rw [substr_of_le (Nat.zero_le _), List.drop_zero, substr_of_le hle, hshort]
  dsimp only [bind, Except.bind]
  rw [if_neg (not_not.mpr hcolon), substr]
  split_ifs <;> rfl

theorem parseRecord_of_colon {record : List Char} (hcolon : record.take 1 = [':'])
    (hle : 7 ≤ record.length) (old : Header) : parseRecord old record =
      if tooMany (byteCount record) record.length = true then .ok none
      else (parseData record (byteCount record) 0 0).map fun data =>
        some (⟨byteCount record, extract 16 old.addr ((record.drop 3).take 4),
          extract 16 old.type ((record.drop 7).take 2)⟩, data) := by
  have hcount : extract 16 old.len ((record.drop 1).take 2) = byteCount record := by
    have hne : (record.drop 1).take 2 ≠ [] := by
      intro hnil
      have hlength := congrArg List.length hnil
      rw [List.length_take, List.length_drop, List.length_nil] at hlength
      omega
    rw [byteCount, extract, extract, if_neg hne, if_neg hne]
  unfold parseRecord
  rw [substr_of_le (Nat.zero_le _), List.drop_zero, substr_of_le (by omega),
    substr_of_le (by omega), substr_of_le hle, ok_bind, if_neg (not_not.mpr hcolon), ok_bind,
    ok_bind, ok_bind, hcount]
  refine if_congr Iff.rfl rfl ?_
  cases parseData record (byteCount record) 0 0 with
  | error fault => rfl
  | ok data => rfl

theorem parseRecord_of_isRecord (h : IsRecord record addr type data) (old : Header) :
    parseRecord old record = .ok (some (⟨data.length, addr, type⟩, data)) := by
  obtain ⟨high, low, sum, rest, rfl, hrest, rfl, -⟩ := h
  have hlen := length_of_hexBytes hrest
  have hlt := lt_of_hexBytes hrest _ List.mem_cons_self
  have hlength : (':' :: rest).length = 11 + 2 * data.length := by
    simp only [List.length_cons, List.length_append, List.length_nil] at hlen ⊢
    omega
  have htooMany : tooMany data.length (11 + 2 * data.length) = false := by
    rw [tooMany, sizeSub_of_le (by omega) (by omega)]
    exact decide_eq_false (by omega)
  obtain ⟨c₁, d₁, x₁, y₁, rest₁, rfl, hc₁, hd₁, hn, hrest₁⟩ := exists_of_hexBytes_cons hrest
  obtain ⟨c₂, d₂, x₂, y₂, rest₂, rfl, hc₂, hd₂, rfl, hrest₂⟩ := exists_of_hexBytes_cons hrest₁
  obtain ⟨c₃, d₃, x₃, y₃, rest₃, rfl, hc₃, hd₃, rfl, hrest₃⟩ := exists_of_hexBytes_cons hrest₂
  obtain ⟨c₄, d₄, x₄, y₄, rest₄, rfl, hc₄, hd₄, rfl, hrest₄⟩ := exists_of_hexBytes_cons hrest₃
  have hcount : byteCount (':' :: c₁ :: d₁ :: c₂ :: d₂ :: c₃ :: d₃ :: c₄ :: d₄ :: rest₄)
      = data.length := (extract_pair hc₁ hd₁ (by decide) 0).trans hn.symm
  have haddr := extract_quad hc₂ hd₂ hc₃ hd₃ old.addr
  have htype := extract_pair hc₄ hd₄ (show 8 ≤ 16 by decide) old.type
  have hdata := @parseData_of_hexBytes
    (':' :: c₁ :: d₁ :: c₂ :: d₂ :: c₃ :: d₃ :: c₄ :: d₄ :: rest₄) data [sum] 0 0 hrest₄ (by omega)
  rw [parseRecord_of_colon rfl (by omega), hlength, hcount, htooMany, if_neg Bool.false_ne_true,
    hdata, ← haddr, ← htype]
  rfl

theorem parseRecord_eq_some {old header : Header}
    (h : parseRecord old record = .ok (some (header, data))) :
    record.head? = some ':' ∧ data.length = header.len := by
  by_cases hcolon : record.take 1 = [':']
  · refine ⟨head?_of_take hcolon, ?_⟩
    rcases Nat.lt_or_ge record.length 7 with hlt | hle
    · rw [parseRecord_of_short hcolon hlt] at h
      cases h
    · rw [parseRecord_of_colon hcolon hle] at h
      split_ifs at h with hmany
      · cases h
      · cases hdata : parseData record (byteCount record) 0 0 with
        | error fault =>
          rw [hdata] at h
          cases h
        | ok bytes =>
          rw [hdata] at h
          cases h
          exact length_parseData hdata
  · rw [parseRecord_of_noColon hcolon] at h
    cases h

theorem parseRecord_overrun_iff (old : Header) : parseRecord old record = .error .overrun ↔
    record.head? = some ':' ∧ tooMany (byteCount record) record.length = false ∧
      255 < byteCount record ∧ 519 ≤ record.length := by
  by_cases hcolon : record.take 1 = [':']
  · rw [and_iff_right (head?_of_take hcolon)]
    rcases Nat.lt_or_ge record.length 7 with hlt | hle
    · rw [parseRecord_of_short hcolon hlt]
      refine iff_of_false (fun h => ?_) (fun h => ?_)
      · cases h
      · omega
    · rw [parseRecord_of_colon hcolon hle]
      have hdata := @parseData_overrun_iff record (byteCount record) 0 0 (by decide)
      rw [Nat.zero_add] at hdata
      by_cases hmany : tooMany (byteCount record) record.length = true
      · rw [if_pos hmany, hmany]
        refine iff_of_false (fun h => ?_) (fun h => ?_)
        · cases h
        · cases h.1
      · rw [if_neg hmany, ← hdata, and_iff_right (Bool.eq_false_of_not_eq_true hmany)]
        cases parseData record (byteCount record) 0 0 with
        | error fault => exact error_eq_error_iff
        | ok data =>
          refine iff_of_false (fun h => ?_) (fun h => ?_)
          · cases h
          · cases h
  · rw [parseRecord_of_noColon hcolon]
    refine iff_of_false (fun h => ?_) (fun h => hcolon ?_)
    · cases h
    · obtain ⟨rest, rfl⟩ := List.head?_eq_some_iff.mp h.1
      rfl

theorem isRecord_unique {addr' type' : ℕ} {data' : List ℕ} (h : IsRecord record addr type data)
    (h' : IsRecord record addr' type' data') : addr = addr' ∧ type = type' ∧ data = data' := by
  have heq := (parseRecord_of_isRecord h ⟨0, 0, 0⟩).symm.trans
    (parseRecord_of_isRecord h' ⟨0, 0, 0⟩)
  injection heq with heq
  injection heq with heq
  injection heq with hheader hdata
  injection hheader with _ haddr htype
  exact ⟨haddr, htype, hdata⟩

theorem isRecord_iff {old header : Header} (hsum : checksum record = true)
    (h : parseRecord old record = .ok (some (header, data))) :
    IsRecord record header.addr header.type data ↔ Written record := by
  refine ⟨written_of_isRecord, fun hwritten => ?_⟩
  obtain ⟨addr, type, data', hrecord⟩ :=
    exists_isRecord hsum (parseRecord_eq_some h).1 hwritten
  have heq := h.symm.trans (parseRecord_of_isRecord hrecord old)
  injection heq with heq
  injection heq with heq
  injection heq with hheader hdata
  rw [hheader, hdata]
  exact hrecord

end Records

/-! ## Lines that are read -/

section Lines

variable {st next : State} {record : List Char} {event : Event} {handler : List Call → Call → ℤ}
  {place : Place} {calls more : List Call} {lines rest : List (List Char)}

theorem dispatch_cases {header : Header} {data : List ℕ}
    (h : st.dispatch header data = .ok (next, event)) :
    (header.type = 0 ∧ event = .data ⟨header.addr, st.upper, data⟩) ∨
    (header.type = 1 ∧ header.addr = 0 ∧ header.len = 0 ∧ event = .ended) ∨
    (header.type = 4 ∧ header.addr = 0 ∧ header.len = 2 ∧ event = .extended ∧
      next.upper = word data 0) ∨
    (header.type = 5 ∧ header.addr = 0 ∧ header.len = 4 ∧
      event = .start ⟨word data 2, word data 0, []⟩) := by
  unfold State.dispatch at h
  split_ifs at h with hdata hended hbad hextended hbad hstart hbad
  · cases h
    exact Or.inl ⟨hdata, rfl⟩
  · cases h
    obtain ⟨haddr, hlen⟩ := not_or.mp hbad
    exact Or.inr (Or.inl ⟨hended, not_not.mp haddr, not_not.mp hlen, rfl⟩)
  · cases h
    obtain ⟨haddr, hlen⟩ := not_or.mp hbad
    exact Or.inr (Or.inr (Or.inl ⟨hextended, not_not.mp haddr, not_not.mp hlen, rfl, rfl⟩))
  · cases h
    obtain ⟨haddr, hlen⟩ := not_or.mp hbad
    exact Or.inr (Or.inr (Or.inr ⟨hstart, not_not.mp haddr, not_not.mp hlen, rfl⟩))

theorem dispatch_ne_overrun (header : Header) (data : List ℕ) :
    st.dispatch header data ≠ .error .overrun := by
  unfold State.dispatch
  split_ifs <;> intro h <;> cases h

theorem readRecord_eq_ok (h : st.readRecord record = .ok (next, event)) :
    checksum record = true ∧ ∃ header data,
      parseRecord st.header record = .ok (some (header, data)) ∧
      st.dispatch header data = .ok (next, event) := by
  unfold State.readRecord at h
  split_ifs at h with hsum
  refine ⟨hsum, ?_⟩
  cases hparse : parseRecord st.header record with
  | error fault =>
    rw [hparse] at h
    cases h
  | ok parsed =>
    cases parsed with
    | none =>
      rw [hparse] at h
      cases h
    | some fields =>
      rw [hparse] at h
      exact ⟨fields.1, fields.2, rfl, h⟩

theorem readRecord_overrun_iff : st.readRecord record = .error .overrun ↔ Overlong record := by
  unfold State.readRecord
  by_cases hsum : checksum record = true
  · rw [if_pos hsum, Overlong, and_iff_right hsum, ← parseRecord_overrun_iff st.header]
    cases parseRecord st.header record with
    | error fault => exact error_eq_error_iff
    | ok parsed =>
      refine iff_of_false ?_ (fun h => ?_)
      · cases parsed with
        | none => exact fun h => by cases h
        | some fields => exact dispatch_ne_overrun fields.1 fields.2
      · cases h
  · rw [if_neg hsum]
    refine iff_of_false (fun h => ?_) (fun h => hsum h.1)
    cases h

theorem follow_of_error {fault : Fault} (h : place.st.readRecord record = .error fault) :
    place.follow record = none := by
  rw [Place.follow, h]

theorem follow_of_ended (h : place.st.readRecord record = .ok (next, .ended)) :
    place.follow record = none := by
  rw [Place.follow, h]

theorem follow_of_extended (h : place.st.readRecord record = .ok (next, .extended)) :
    place.follow record = some ⟨next, next.upper⟩ := by
  rw [Place.follow, h]

theorem follow_of_data {call : Call} (h : place.st.readRecord record = .ok (next, .data call)) :
    place.follow record = some ⟨next, place.base⟩ := by
  rw [Place.follow, h]

theorem follow_of_start {call : Call} (h : place.st.readRecord record = .ok (next, .start call)) :
    place.follow record = some ⟨next, place.base⟩ := by
  rw [Place.follow, h]

theorem everyStep_of_follow {good : Place → List Char → Prop} {place' : Place}
    (h : place.follow record = some place') :
    Transition.EveryStep Place.follow good place (record :: rest) ↔
      good place record ∧ Transition.EveryStep Place.follow good place' rest := by
  rw [Transition.everyStep_cons]
  refine and_congr_right fun _ => ⟨fun hall => hall place' h, fun hrest t ht => ?_⟩
  rw [h, Option.some_inj] at ht
  exact ht ▸ hrest

theorem everyStep_of_last {good : Place → List Char → Prop} (h : place.follow record = none) :
    Transition.EveryStep Place.follow good place (record :: rest) ↔ good place record := by
  rw [Transition.everyStep_cons, and_iff_left_iff_imp]
  intro _ t ht
  rw [h] at ht
  cases ht

theorem not_finishes_nil : ¬ place.Finishes [] := by
  rintro ⟨before, last, rest, place', st, hlines, -⟩
  exact List.append_ne_nil_of_right_ne_nil _ (List.cons_ne_nil _ _) hlines.symm

theorem finishes_of_ended (h : place.st.readRecord record = .ok (next, .ended)) :
    place.Finishes (record :: rest) :=
  ⟨[], record, rest, place, next, rfl, rfl, h⟩

theorem finishes_of_follow {place' : Place} (h : place.follow record = some place') :
    place.Finishes (record :: rest) ↔ place'.Finishes rest := by
  constructor
  · rintro ⟨before, last, after, final, st, hlines, hrun, hended⟩
    cases before with
    | nil =>
      injection hlines with hrecord _
      injection hrun with hplace
      rw [← hplace, ← hrecord] at hended
      rw [follow_of_ended hended] at h
      cases h
    | cons first before =>
      injection hlines with hrecord hrest
      obtain ⟨middle, hmiddle, hrun⟩ := Transition.run_cons_eq_some.mp hrun
      rw [← hrecord, h, Option.some_inj] at hmiddle
      exact ⟨before, last, after, final, st, hrest, hmiddle ▸ hrun, hended⟩
  · rintro ⟨before, last, after, final, st, rfl, hrun, hended⟩
    exact ⟨record :: before, last, after, final, st, rfl,
      Transition.run_cons_eq_some.mpr ⟨place', h, hrun⟩, hended⟩

theorem not_finishes_of_error {fault : Fault} (h : place.st.readRecord record = .error fault) :
    ¬ place.Finishes (record :: rest) := by
  rintro ⟨before, last, after, final, st, hlines, hrun, hended⟩
  cases before with
  | nil =>
    injection hlines with hrecord _
    injection hrun with hplace
    rw [← hplace, ← hrecord, h] at hended
    cases hended
  | cons first before =>
    injection hlines with hrecord _
    obtain ⟨middle, hmiddle, -⟩ := Transition.run_cons_eq_some.mp hrun
    rw [← hrecord, follow_of_error h] at hmiddle
    cases hmiddle

/-! ## Files that are read -/

theorem turn_cases (place : Place) (record : List Char) :
    (∃ fault, place.st.readRecord record = .error fault) ∨
    (∃ next, place.st.readRecord record = .ok (next, .ended)) ∨
    ∃ place' new, place.follow record = some place' ∧ ∀ handler calls rest,
      read handler place.st calls (record :: rest) = read handler place'.st (calls ++ new) rest ∨
      (∃ call, handler calls call < 0) ∧ read handler place.st calls (record :: rest) =
        .error (refuse "record handler returned failure code") := by
  cases hread : place.st.readRecord record with
  | error fault => exact Or.inl ⟨fault, rfl⟩
  | ok out =>
    obtain ⟨next, event⟩ := out
    refine Or.inr ?_
    cases event with
    | ended => exact Or.inl ⟨next, rfl⟩
    | extended =>
      refine Or.inr ⟨_, [], follow_of_extended hread, fun handler calls rest => Or.inl ?_⟩
      rw [read, hread, List.append_nil]
    | data call =>
      refine Or.inr ⟨_, [call], follow_of_data hread, fun handler calls rest => ?_⟩
      rw [read, hread]
      dsimp only
      split_ifs with hfailed
      · exact Or.inr ⟨⟨call, hfailed⟩, rfl⟩
      · exact Or.inl rfl
    | start call =>
      refine Or.inr ⟨_, [call], follow_of_start hread, fun handler calls rest => Or.inl ?_⟩
      rw [read, hread]

theorem read_of_error {fault : Fault} (h : st.readRecord record = .error fault) :
    read handler st calls (record :: rest) = .error fault := by
  rw [read, h]

theorem read_of_ended (h : st.readRecord record = .ok (next, .ended)) :
    read handler st calls (record :: rest) = .ok calls := by
  rw [read, h]

theorem read_log {all : List Call} (h : read handler place.st calls lines = .ok all) :
    ∃ more, all = calls ++ more := by
  induction lines generalizing place calls with
  | nil => cases h
  | cons record rest ih =>
    rcases turn_cases place record with ⟨fault, hfault⟩ | ⟨next, hended⟩ | ⟨place', new, -, hturn⟩
    · rw [read_of_error hfault] at h
      cases h
    · rw [read_of_ended hended] at h
      cases h
      exact ⟨[], (List.append_nil _).symm⟩
    · rcases hturn handler calls rest with hgoes | ⟨-, hfailed⟩
      · rw [hgoes] at h
        obtain ⟨more, hmore⟩ := ih h
        exact ⟨new ++ more, by rw [hmore, List.append_assoc]⟩
      · rw [hfailed] at h
        cases h

theorem not_everyStep_of_overrun (h : read handler place.st calls lines = .error .overrun) :
    ¬ Transition.EveryStep Place.follow (fun _ record => ¬ Overlong record) place lines := by
  induction lines generalizing place calls with
  | nil => cases h
  | cons record rest ih =>
    rcases turn_cases place record with ⟨fault, hfault⟩ | ⟨next, hended⟩ |
      ⟨place', new, hfollow, hturn⟩
    · rw [read_of_error hfault] at h
      cases h
      exact fun hall => hall.1 (readRecord_overrun_iff.mp hfault)
    · rw [read_of_ended hended] at h
      cases h
    · rcases hturn handler calls rest with hgoes | ⟨-, hfailed⟩
      · rw [everyStep_of_follow hfollow]
        exact fun hall => ih (hgoes ▸ h) hall.2
      · rw [hfailed] at h
        cases h

theorem overrun_of_not_everyStep (calls : List Call)
    (h : ¬ Transition.EveryStep Place.follow (fun _ record => ¬ Overlong record) place lines) :
    read (fun _ _ => 0) place.st calls lines = .error .overrun := by
  induction lines generalizing place calls with
  | nil => exact absurd trivial h
  | cons record rest ih =>
    by_cases hlong : Overlong record
    · exact read_of_error (readRecord_overrun_iff.mpr hlong)
    · rcases turn_cases place record with ⟨fault, hfault⟩ | ⟨next, hended⟩ |
        ⟨place', new, hfollow, hturn⟩
      · exact absurd ((everyStep_of_last (follow_of_error hfault)).mpr hlong) h
      · exact absurd ((everyStep_of_last (follow_of_ended hended)).mpr hlong) h
      · rw [everyStep_of_follow hfollow, and_iff_right hlong] at h
        rcases hturn (fun _ _ => 0) calls rest with hgoes | ⟨⟨call, hfailed⟩, -⟩
        · rw [hgoes]
          exact ih _ h
        · exact absurd hfailed (lt_irrefl 0)

theorem finishes_of_read {all : List Call} (h : read handler place.st calls lines = .ok all) :
    place.Finishes lines := by
  induction lines generalizing place calls with
  | nil => cases h
  | cons record rest ih =>
    rcases turn_cases place record with ⟨fault, hfault⟩ | ⟨next, hended⟩ |
      ⟨place', new, hfollow, hturn⟩
    · rw [read_of_error hfault] at h
      cases h
    · exact finishes_of_ended hended
    · rcases hturn handler calls rest with hgoes | ⟨-, hfailed⟩
      · exact (finishes_of_follow hfollow).mpr (ih (hgoes ▸ h))
      · rw [hfailed] at h
        cases h

theorem exists_read_of_finishes (calls : List Call) (h : place.Finishes lines) :
    ∃ all, read (fun _ _ => 0) place.st calls lines = .ok all := by
  induction lines generalizing place calls with
  | nil => exact absurd h not_finishes_nil
  | cons record rest ih =>
    rcases turn_cases place record with ⟨fault, hfault⟩ | ⟨next, hended⟩ |
      ⟨place', new, hfollow, hturn⟩
    · exact absurd h (not_finishes_of_error hfault)
    · exact ⟨calls, read_of_ended hended⟩
    · rcases hturn (fun _ _ => 0) calls rest with hgoes | ⟨⟨call, hfailed⟩, -⟩
      · rw [hgoes]
        exact ih _ ((finishes_of_follow hfollow).mp h)
      · exact absurd hfailed (lt_irrefl 0)

/-! ## What the records say -/

theorem written_of_reads {base : ℕ} (h : Reads base (record :: rest) more) : Written record := by
  cases h with
  | ended h => exact written_of_isRecord h
  | data h _ => exact written_of_isRecord h
  | extended h _ _ => exact written_of_isRecord h
  | start h _ _ => exact written_of_isRecord h

section FirstRecord

variable {base addr : ℕ} {bytes : List ℕ} {call : Call}

theorem reads_data_iff (h : IsRecord record addr 0 bytes) :
    Reads base (record :: rest) (call :: more) ↔
      call = ⟨addr, base, bytes⟩ ∧ Reads base rest more := by
  constructor
  · intro hreads
    cases hreads with
    | data h' hrest =>
      obtain ⟨rfl, -, rfl⟩ := isRecord_unique h h'
      exact ⟨rfl, hrest⟩
    | extended h' _ _ => exact absurd (isRecord_unique h h').2.1 (by decide)
    | start h' _ _ => exact absurd (isRecord_unique h h').2.1 (by decide)
  · rintro ⟨rfl, hrest⟩
    exact .data h hrest

theorem reads_extended_iff (h : IsRecord record 0 4 bytes) (hlen : bytes.length = 2) :
    Reads base (record :: rest) more ↔ Reads (word bytes 0) rest more := by
  constructor
  · intro hreads
    cases hreads with
    | ended h' => exact absurd (isRecord_unique h h').2.1 (by decide)
    | data h' _ => exact absurd (isRecord_unique h h').2.1 (by decide)
    | extended h' _ hrest =>
      obtain ⟨-, -, rfl⟩ := isRecord_unique h h'
      exact hrest
    | start h' _ _ => exact absurd (isRecord_unique h h').2.1 (by decide)
  · exact .extended h hlen

theorem reads_start_iff (h : IsRecord record 0 5 bytes) (hlen : bytes.length = 4) :
    Reads base (record :: rest) (call :: more) ↔
      call = ⟨word bytes 2, word bytes 0, []⟩ ∧ Reads base rest more := by
  constructor
  · intro hreads
    cases hreads with
    | data h' _ => exact absurd (isRecord_unique h h').2.1 (by decide)
    | extended h' _ _ => exact absurd (isRecord_unique h h').2.1 (by decide)
    | start h' _ hrest =>
      obtain ⟨-, -, rfl⟩ := isRecord_unique h h'
      exact ⟨rfl, hrest⟩
  · rintro ⟨rfl, hrest⟩
    exact .start h hlen hrest

end FirstRecord

theorem good_of_written (hwritten : Written record)
    (hread : place.st.readRecord record = .ok (next, event)) (hdata : ∀ call, event ≠ .data call) :
    place.Good record := by
  refine ⟨hwritten, fun _ call h => ?_⟩
  rw [hread] at h
  injection h with h
  injection h with _ h
  exact absurd h (hdata call)

theorem everyStep_good_iff (h : read handler place.st calls lines = .ok (calls ++ more)) :
    Transition.EveryStep Place.follow Place.Good place lines ↔ Reads place.base lines more := by
  induction lines generalizing place calls more with
  | nil => cases h
  | cons record rest ih =>
    rw [read] at h
    cases hread : place.st.readRecord record with
    | error fault =>
      rw [hread] at h
      cases h
    | ok out =>
      obtain ⟨next, event⟩ := out
      obtain ⟨hsum, header, bytes, hparse, hdispatch⟩ := readRecord_eq_ok hread
      have hrecord := isRecord_iff hsum hparse
      have hlen := (parseRecord_eq_some hparse).2
      rw [hread] at h
      by_cases hwritten : Written record
      · have his := hrecord.mpr hwritten
        rcases dispatch_cases hdispatch with ⟨htype, rfl⟩ | ⟨htype, haddr, hzero, rfl⟩ |
          ⟨htype, haddr, htwo, rfl, hupper⟩ | ⟨htype, haddr, hfour, rfl⟩
        · rw [htype] at his
          dsimp only at h
          split_ifs at h with hfailed
          obtain ⟨tail, htail⟩ := @read_log handler ⟨next, place.base⟩ _ _ _ h
          rw [← List.append_cons, List.append_cancel_left_eq] at htail
          rw [htail, List.append_cons calls _ tail] at h
          rw [everyStep_of_follow (follow_of_data hread), htail, reads_data_iff his,
            @ih ⟨next, place.base⟩ _ _ h]
          refine and_congr_left fun _ => ⟨fun hgood => ?_, fun heq => ⟨hwritten, fun _ _ _ => ?_⟩⟩
          · rw [hgood.2 next _ hread]
          · injection heq
        · rw [htype, haddr, List.eq_nil_of_length_eq_zero (hlen.trans hzero)] at his
          injection h with h
          rw [List.append_right_eq_self.mp h.symm, everyStep_of_last (follow_of_ended hread)]
          exact iff_of_true (good_of_written hwritten hread fun _ h => by cases h) (.ended his)
        · rw [htype, haddr] at his
          rw [everyStep_of_follow (follow_of_extended hread),
            reads_extended_iff his (hlen.trans htwo), ← hupper, @ih ⟨next, next.upper⟩ _ _ h]
          exact and_iff_right (good_of_written hwritten hread fun _ h => by cases h)
        · rw [htype, haddr] at his
          obtain ⟨tail, htail⟩ := @read_log handler ⟨next, place.base⟩ _ _ _ h
          rw [← List.append_cons, List.append_cancel_left_eq] at htail
          rw [htail, List.append_cons calls _ tail] at h
          rw [everyStep_of_follow (follow_of_start hread), htail,
            reads_start_iff his (hlen.trans hfour), @ih ⟨next, place.base⟩ _ _ h,
            and_iff_right rfl]
          exact and_iff_right (good_of_written hwritten hread fun _ h => by cases h)
      · refine iff_of_false (fun hall => hwritten hall.1.1) (fun hreads => hwritten ?_)
        exact written_of_reads hreads

end Lines

/-! ## When the claim holds -/

section Main

variable {text : List Char}

theorem foldl_vectorWriterCallback (vector : List ℕ) (calls : List Call) :
    calls.foldl vectorWriterCallback vector = vector ++ calls.flatMap Call.data := by
  induction calls generalizing vector with
  | nil => exact (List.append_nil vector).symm
  | cons call calls ih =>
    have hdata := @List.foldl_append_eq_append _ _ call.data (fun byte => [byte]) vector
    rw [← List.flatMap_def, List.flatMap_singleton'] at hdata
    rw [List.foldl_cons, ih, vectorWriterCallback, hdata, List.append_assoc, List.flatMap_cons]

theorem toVector_eq_ok {vector : List ℕ} : toVector text = .ok vector ↔
    ∃ calls, readFile (fun _ _ => 0) text = .ok calls ∧ vector = calls.flatMap Call.data := by
  rw [toVector]
  cases readFile (fun _ _ => 0) text with
  | error fault =>
    refine iff_of_false (fun h => ?_) ?_
    · cases h
    · rintro ⟨calls, h, -⟩
      cases h
  | ok calls =>
    have hdata := foldl_vectorWriterCallback [] calls
    rw [List.nil_append] at hdata
    constructor
    · intro h
      injection h with h
      exact ⟨calls, rfl, h ▸ hdata⟩
    · rintro ⟨all, h, rfl⟩
      injection h with h
      rw [← h]
      exact congrArg Except.ok hdata

/-- **A file is read as it is claimed** exactly where no line that is reached is too long, and the
lines of a file that is accepted are well written and leave the base of the addresses. -/
theorem claimed_iff_linesWritten : Claimed text ↔ Meets text := by
  constructor
  · rintro ⟨hread, -⟩
    obtain ⟨hbounded, hreads⟩ := hread fun _ _ => 0
    refine ⟨?_, fun hfinishes => ?_⟩
    · by_contra hlong
      exact hbounded (@overrun_of_not_everyStep {} (records text) [] hlong)
    · obtain ⟨all, hall⟩ := @exists_read_of_finishes {} (records text) [] hfinishes
      exact (@everyStep_good_iff (fun _ _ => 0) {} [] all (records text) hall).mpr (hreads all hall)
  · rintro ⟨hbounded, hgood⟩
    have hreads : ∀ handler calls, readFile handler text = .ok calls →
        Reads 0 (records text) calls := fun handler calls h =>
      (@everyStep_good_iff handler {} [] calls (records text) h).mp
        (hgood (@finishes_of_read handler {} [] (records text) calls h))
    refine ⟨fun handler => ⟨fun h => ?_, hreads handler⟩, fun vector hvector => ?_⟩
    · exact @not_everyStep_of_overrun handler {} [] (records text) h hbounded
    · obtain ⟨calls, hcalls, rfl⟩ := toVector_eq_ok.mp hvector
      exact ⟨calls, hreads _ calls hcalls, rfl⟩

/-- **A line that is shorter than it says**: two bytes are counted, one character pair is there, and
it is delivered twice. -/
theorem not_claimed_shortLine : ¬ Claimed ":02000000FE\n:00000001FF\n".toList := by
  rintro ⟨hread, -⟩
  have hreads := (hread fun _ _ => 0).2 [⟨0, 0, [254, 254]⟩] (by decide +kernel)
  have hrecords : records ":02000000FE\n:00000001FF\n".toList =
      [":02000000FE".toList, ":00000001FF".toList] := by decide +kernel
  rw [hrecords] at hreads
  exact absurd (written_of_reads hreads).2 (by decide +kernel)

end Main

end Ihex
end UhdHost
