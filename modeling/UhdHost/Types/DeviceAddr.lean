import UhdHost.Library.Repetitions
import UhdHost.Types.Dict
import UhdHost.Types.Exception

/-!
# Device addresses

`device_addr_t` (`device_addr.cpp`): a dictionary of strings that is written as text with
delimiters, and lists of such that are combined into one, with the index of the motherboard behind
each key.

* `matchKey_append_decimal`: the regular expression splits a key and its index where they were put
  together, if it matches the key at all (`Format`).
* `separateKeys_indexed`: the keys of one address after the other lead back to the addresses.
* `tokens_eq` and `ofString_toString`: so does the text, whatever format the keys have.
* `separates_and_parses`: both, for every list.
-/

namespace UhdHost
namespace DeviceAddr

open Repetitions

/-! ## The code -/

/-- `std::string` -/
abbrev Text := List Char

/-- `device_addr_t` -/
abbrev Addr := Dict Text Text

/-- `std::isspace` -/
def isSpace (c : Char) : Bool := c ∈ [' ', '\t', '\n', '\x0b', '\x0c', '\r']

/-- `trim` -/
def trim (text : Text) : Text := (text.dropWhile isSpace).rdropWhile isSpace

/-- `tokenizer`, which drops the tokens that are empty -/
def tokens (delim : Char) (text : Text) : List Text :=
  (text.splitOn delim).filter fun token => !token.isEmpty

/-- The key and the value of a pair, padded with an empty value where there is one token only. -/
def readPair (toks : List Text) : Option (Text × Text) :=
  match if toks.length = 1 then toks ++ [[]] else toks with
  | [key, val] => if (trim key).isEmpty then none else some (trim key, trim val)
  | _ => none

/-- `device_addr_t(args)` -/
def ofString (args : Text) : Except UhdError Addr :=
  (tokens ',' args).foldlM
    (fun addr pair =>
      if (trim pair).isEmpty then .ok addr
      else
        match readPair (tokens '=' pair) with
        | some (key, val) => .ok (addr.set key val)
        | none => .error (.valueError ("invalid args string: " ++ String.ofList args)))
    Dict.empty

/-- `to_string` -/
def toString (addr : Addr) : Text :=
  List.intercalate [','] (addr.pairs.map fun p => p.1 ++ '=' :: p.2)

/-- How a number is formatted with `%d`. -/
def decimal (n : ℕ) : Text := Nat.toDigits 10 n

/-- The regular expression `^(\D+\d*\D+)(\d*)$`, without its groups. -/
def keyFormat : List (Repetition Char) :=
  [⟨fun c => !c.isDigit, 1⟩, ⟨Char.isDigit, 0⟩, ⟨fun c => !c.isDigit, 1⟩, ⟨Char.isDigit, 0⟩]

/-- `c_str` -/
def cStr (text : Text) : Text := text.takeWhile (· ≠ '\x00')

/-- `key_part` and `num_part` of a key that matches. -/
def matchKey (key : Text) : Option (Text × Text) :=
  match matchAll keyFormat (cStr key) with
  | some [a, b, c, num] => some (a ++ b ++ c, num)
  | _ => none

/-- `from_str<size_t>`, of digits -/
def toSizeT (digits : Text) : Except UhdError ℕ :=
  if Nat.ofDigitChars 10 digits 0 < 2 ^ 64 then .ok (Nat.ofDigitChars 10 digits 0)
  else
    .error (.runtimeError ("Cannot convert `" ++ String.ofList digits ++ "' to numeric type!"))

/-- `resize`, to no less than there is -/
def resize (n : ℕ) (addrs : List Addr) : List Addr :=
  addrs ++ List.replicate (n - addrs.length) Dict.empty

/-- What the loop over the keys has filled: the addresses, and what applies to all of them. -/
structure Separated where
  addrs : List Addr
  globals : List (Text × Text)
  deriving DecidableEq

/-- The body of the loop over the keys. -/
def separateKey (s : Separated) (p : Text × Text) : Except UhdError Separated :=
  match matchKey p.1 with
  | none => .error (.stdRuntimeError ("unknown key format: " ++ String.ofList p.1))
  | some (keyPart, numPart) =>
    if numPart.isEmpty then .ok { s with globals := s.globals ++ [p] }
    else
      (toSizeT numPart).bind fun num =>
        .ok { s with
          addrs := (resize (max (num + 1) s.addrs.length) s.addrs).modify num (·.set keyPart p.2) }

/-- The part of `separate_device_addr` that does not deal with the deprecated way. -/
def separateIndexed (addr : Addr) : Except UhdError (List Addr) :=
  (addr.pairs.foldlM separateKey ⟨[Dict.empty], []⟩).map fun s =>
    s.addrs.map fun my => s.globals.foldl
      (fun my p => if my.hasKey p.1 then my else my.set p.1 p.2) my

/-- `"addr"` -/
def addrKey : Text := ['a', 'd', 'd', 'r']

/-- The list of addresses in the value of `addr`. -/
def deprecatedAddrs (addr : Addr) : List Text :=
  if addr.hasKey addrKey && !(addr.getD addrKey []).isEmpty then
    (addr.getD addrKey []).splitOn ' '
  else []

/-- `separate_device_addr`: with a list of addresses, that is replaced by indexed keys first. -/
def separate (addr : Addr) : Except UhdError (List Addr) :=
  if 1 < (deprecatedAddrs addr).length then
    separateIndexed ((addr.pop addrKey).setAll
      ((deprecatedAddrs addr).zipIdx.map fun p => (addrKey ++ decimal p.2, p.1)))
  else separateIndexed addr

/-- What the keys of an address become when it is the one at `i`. -/
def indexed (addr : Addr) (i : ℕ) : List (Text × Text) :=
  addr.pairs.map fun p => (p.1 ++ decimal i, p.2)

/-- `combine_device_addrs` -/
def combine (addrs : List Addr) : Addr :=
  addrs.zipIdx.foldl (fun addr a => addr.setAll (indexed a.1 a.2)) Dict.empty

/-! ## What is claimed -/

/-- A key that starts and ends with a character that is no digit, and is none of the delimiters. -/
structure KeyOk (key : Text) : Prop where
  ne_nil : key ≠ []
  head : ∀ c ∈ key.head?, c.isDigit = false
  last : ∀ c ∈ key.getLast?, c.isDigit = false
  comma : ',' ∉ key
  equals : '=' ∉ key
  nul : '\x00' ∉ key
  trimmed : trim key = key

/-- A value without delimiters and surrounding blanks. -/
structure ValueOk (val : Text) : Prop where
  comma : ',' ∉ val
  equals : '=' ∉ val
  trimmed : trim val = val

/-- Addresses that are not empty, no more than a vector holds, with keys and values as they should
be. -/
structure WellFormed (addrs : List Addr) : Prop where
  length : addrs.length < 2 ^ 64
  ne_nil : ∀ addr ∈ addrs, addr.pairs ≠ []
  key : ∀ addr ∈ addrs, ∀ p ∈ addr.pairs, KeyOk p.1
  value : ∀ addr ∈ addrs, ∀ p ∈ addr.pairs, ValueOk p.2

/-- The addresses come back when they are combined and separated. -/
def Separates (addrs : List Addr) : Prop := separate (combine addrs) = .ok addrs

/-- Each address comes back from its text. -/
def Parses (addrs : List Addr) : Prop := ∀ addr ∈ addrs, ofString (toString addr) = .ok addr

/-- A key of other characters than digits, with digits in one place within it at most. -/
def Format (key : Text) : Prop :=
  ∃ a b c, key = a ++ b ++ c ∧ 1 ≤ a.length ∧ 1 ≤ c.length ∧ (∀ x ∈ a, x.isDigit = false) ∧
    (∀ x ∈ b, x.isDigit = true) ∧ ∀ x ∈ c, x.isDigit = false

/-! ## The text -/

section Parsing

variable {key val text : Text} {addr : Addr}

theorem mem_dropWhile {p : Char → Bool} {c : Char} (h : c ∈ text) (hp : p c = false) :
    c ∈ text.dropWhile p := by
  rw [← List.takeWhile_append_dropWhile (p := p) (l := text), List.mem_append] at h
  refine h.resolve_left fun hmem => ?_
  rw [List.mem_takeWhile_imp hmem] at hp
  cases hp

theorem mem_trim {c : Char} (h : c ∈ text) (hc : isSpace c = false) : c ∈ trim text := by
  rw [trim, List.rdropWhile, List.mem_reverse]
  exact mem_dropWhile (List.mem_reverse.mpr (mem_dropWhile h hc)) hc

theorem tokens_eq {delim : Char} {ts : List Text} (hdelim : ∀ t ∈ ts, delim ∉ t)
    (hne : ∀ t ∈ ts, t ≠ []) : tokens delim (List.intercalate [delim] ts) = ts := by
  rcases eq_or_ne ts [] with rfl | hts
  · rfl
  · rw [tokens, List.splitOn_intercalate delim hdelim hts, List.filter_eq_self]
    intro t ht
    rw [Bool.not_eq_true', List.isEmpty_eq_false_iff]
    exact hne t ht

theorem readPair_pair (hkey : KeyOk key) (hval : ValueOk val) :
    readPair (tokens '=' (key ++ '=' :: val)) = some (key, val) := by
  have hne : (!key.isEmpty) = true := by
    rw [Bool.not_eq_true', List.isEmpty_eq_false_iff]
    exact hkey.ne_nil
  have htrim : (trim key).isEmpty = false := by
    rw [hkey.trimmed, List.isEmpty_eq_false_iff]
    exact hkey.ne_nil
  rw [tokens, List.splitOn_append_cons_self_of_not_mem hkey.equals,
    List.splitOn_eq_singleton hval.equals,
    List.filter_cons_of_pos (p := fun token : Text => !token.isEmpty) hne]
  rcases eq_or_ne val [] with rfl | hv
  · rw [List.filter_cons_of_neg (by decide), List.filter_nil, readPair,
      if_pos List.length_singleton]
    dsimp only [List.cons_append, List.nil_append]
    rw [htrim, hkey.trimmed]
    rfl
  · have hv' : (!val.isEmpty) = true := by
      rw [Bool.not_eq_true', List.isEmpty_eq_false_iff]
      exact hv
    rw [List.filter_cons_of_pos (p := fun token : Text => !token.isEmpty) hv', List.filter_nil,
      readPair, if_neg (by rw [List.length_cons, List.length_singleton]; decide)]
    dsimp only
    rw [htrim, hkey.trimmed, hval.trimmed]
    rfl

theorem ofString_toString (hkey : ∀ p ∈ addr.pairs, KeyOk p.1)
    (hval : ∀ p ∈ addr.pairs, ValueOk p.2) : ofString (toString addr) = .ok addr := by
  have htokens : tokens ',' (toString addr) = addr.pairs.map fun p => p.1 ++ '=' :: p.2 := by
    refine tokens_eq (fun t ht => ?_) fun t ht => ?_
    · obtain ⟨p, hp, rfl⟩ := List.mem_map.mp ht
      intro hmem
      rcases List.mem_append.mp hmem with h | h
      · exact (hkey p hp).comma h
      · rcases List.mem_cons.mp h with h | h
        · exact absurd h (by decide)
        · exact (hval p hp).comma h
    · obtain ⟨p, -, rfl⟩ := List.mem_map.mp ht
      exact List.append_ne_nil_of_right_ne_nil p.1 (List.cons_ne_nil _ _)
  -- the pairs are read one after the other into what there already is
  have hread : ∀ (args : Text) (ps : List (Text × Text)) (d : Addr), (∀ p ∈ ps, KeyOk p.1) →
      (∀ p ∈ ps, ValueOk p.2) → (ps.map fun p => p.1 ++ '=' :: p.2).foldlM
        (fun (addr : Addr) (pair : Text) =>
          if (trim pair).isEmpty then .ok addr
          else
            match readPair (tokens '=' pair) with
            | some (key, val) => .ok (addr.set key val)
            | none => .error (.valueError ("invalid args string: " ++ String.ofList args))) d
          = (.ok (d.setAll ps) : Except UhdError Addr) := by
    intro args ps
    induction ps with
    | nil => exact fun d _ _ => rfl
    | cons p ps ih =>
      intro d hk hv
      have hblank : (trim (p.1 ++ '=' :: p.2)).isEmpty = false := by
        rw [List.isEmpty_eq_false_iff]
        exact List.ne_nil_of_mem (mem_trim (c := '=')
          (List.mem_append_right _ List.mem_cons_self) (by decide))
      rw [List.map_cons, List.foldlM_cons, hblank, if_neg Bool.false_ne_true,
        readPair_pair (hk p List.mem_cons_self) (hv p List.mem_cons_self)]
      exact ih _ (fun q hq => hk q (List.mem_cons_of_mem p hq))
        fun q hq => hv q (List.mem_cons_of_mem p hq)
  rw [ofString, htokens, hread _ _ _ hkey hval, Dict.setAll_empty_pairs]

end Parsing

/-! ## The keys and their indices -/

section Indices

variable {key : Text} {i j : ℕ}

theorem decimal_ne_nil (i : ℕ) : decimal i ≠ [] := Nat.toDigits_ne_nil

theorem isDigit_of_mem_decimal {c : Char} (h : c ∈ decimal i) : c.isDigit = true :=
  Nat.isDigit_of_mem_toDigits (by decide) (by decide) h

theorem toSizeT_decimal (h : i < 2 ^ 64) : toSizeT (decimal i) = .ok i := by
  rw [toSizeT, decimal, Nat.ofDigitChars_ten_toDigits, if_pos h]

theorem decimal_injective : Function.Injective decimal := by
  intro i j h
  rw [← Nat.ofDigitChars_ten_toDigits (n := i), ← Nat.ofDigitChars_ten_toDigits (n := j)]
  exact congrArg (Nat.ofDigitChars 10 · 0) h

theorem eq_of_append_decimal {key' : Text} (hk : KeyOk key) (hk' : KeyOk key')
    (h : key ++ decimal i = key' ++ decimal j) : key = key' ∧ i = j := by
  obtain ⟨hkey, hdec⟩ := eq_of_append_eq_append h hk.last hk'.last
    (fun _ => isDigit_of_mem_decimal) fun _ => isDigit_of_mem_decimal
  exact ⟨hkey, decimal_injective hdec⟩

theorem cStr_append_decimal (hk : KeyOk key) : cStr (key ++ decimal i) = key ++ decimal i := by
  rw [cStr, List.takeWhile_eq_self_iff]
  intro c hc
  rw [decide_eq_true_iff]
  rintro rfl
  rcases List.mem_append.mp hc with h | h
  · exact hk.nul h
  · exact absurd (isDigit_of_mem_decimal h) (by decide)

theorem matchKey_append_decimal (hk : KeyOk key) (hf : Format key) :
    matchKey (key ++ decimal i) = some (key, decimal i) := by
  obtain ⟨a, b, c, rfl, ha, hc, hadig, hbdig, hcdig⟩ := hf
  have hcut : Cut keyFormat [a, b, c, decimal i] :=
    .cons ⟨ha, fun x hx => congrArg not (hadig x hx)⟩ <| .cons ⟨Nat.zero_le _, hbdig⟩ <|
      .cons ⟨hc, fun x hx => congrArg not (hcdig x hx)⟩ <|
        .cons ⟨Nat.zero_le _, fun _ => isDigit_of_mem_decimal⟩ .nil
  obtain ⟨found, hfound⟩ := exists_matchAll_of_cut hcut
  have hflat : ∀ a b c d : Text, [a, b, c, d].flatten = a ++ b ++ c ++ d := by
    intro a b c d
    rw [List.flatten_cons, List.flatten_cons, List.flatten_cons, List.flatten_cons,
      List.flatten_nil, List.append_nil, List.append_assoc, List.append_assoc]
  rw [hflat] at hfound
  obtain ⟨hsame, hpieces⟩ := cut_of_matchAll hfound
  obtain ⟨a', _, -, hpieces₁, rfl⟩ := List.forall₂_cons_left_iff.mp hpieces
  obtain ⟨b', _, -, hpieces₂, rfl⟩ := List.forall₂_cons_left_iff.mp hpieces₁
  obtain ⟨c', _, ⟨hc', hcdig'⟩, hpieces₃, rfl⟩ := List.forall₂_cons_left_iff.mp hpieces₂
  obtain ⟨d', _, ⟨-, hddig'⟩, hpieces₄, rfl⟩ := List.forall₂_cons_left_iff.mp hpieces₃
  obtain rfl := List.forall₂_nil_left_iff.mp hpieces₄
  rw [hflat] at hsame
  -- the last repetition of non-digits is not empty, so that the first group ends with one
  have hlast : ∀ x ∈ (a' ++ b' ++ c').getLast?, x.isDigit = false := by
    intro x hx
    rw [List.getLast?_append_of_ne_nil _ (List.ne_nil_of_length_pos hc')] at hx
    rw [← Bool.not_eq_true']
    exact hcdig' x (List.mem_of_getLast? hx)
  obtain ⟨hkey, hnum⟩ := eq_of_append_eq_append hsame hlast hk.last hddig'
    fun _ => isDigit_of_mem_decimal
  rw [matchKey, cStr_append_decimal hk, hfound]
  dsimp only
  rw [hkey, hnum]

end Indices

/-! ## Separating what was combined -/

section Separating

variable {key val : Text} {addr : Addr} {addrs done rest : List Addr} {s : Separated} {i : ℕ}

theorem separateKey_append_decimal (hk : KeyOk key) (hf : Format key) (hi : i < 2 ^ 64) :
    separateKey s (key ++ decimal i, val) = .ok { s with
      addrs := (resize (max (i + 1) s.addrs.length) s.addrs).modify i (·.set key val) } := by
  have hne : (decimal i).isEmpty = false := List.isEmpty_eq_false_iff.mpr (decimal_ne_nil i)
  rw [separateKey, matchKey_append_decimal hk hf]
  dsimp only
  rw [hne, if_neg Bool.false_ne_true, toSizeT_decimal hi]
  rfl

theorem resize_concat (done : List Addr) (addr : Addr) :
    resize (max (done.length + 1) (done ++ [addr]).length) (done ++ [addr]) = done ++ [addr] := by
  rw [resize, List.length_append, List.length_singleton, max_self, Nat.sub_self,
    List.replicate_zero, List.append_nil]

theorem modify_concat (done : List Addr) (addr : Addr) (f : Addr → Addr) :
    (done ++ [addr]).modify done.length f = done ++ [f addr] := by
  induction done with
  | nil => rfl
  | cons first done ih =>
    rw [List.cons_append, List.length_cons, List.modify_succ_cons, ih, List.cons_append]

theorem separateKeys_concat {ps : List (Text × Text)} (hk : ∀ p ∈ ps, KeyOk p.1)
    (hf : ∀ p ∈ ps, Format p.1) (hi : done.length < 2 ^ 64) (globals : List (Text × Text)) :
    (ps.map fun p => (p.1 ++ decimal done.length, p.2)).foldlM separateKey
      ⟨done ++ [addr], globals⟩ = .ok ⟨done ++ [addr.setAll ps], globals⟩ := by
  induction ps generalizing addr with
  | nil => rfl
  | cons p ps ih =>
    rw [List.map_cons, List.foldlM_cons, separateKey_append_decimal (hk p List.mem_cons_self)
      (hf p List.mem_cons_self) hi, resize_concat, modify_concat]
    exact ih (fun q hq => hk q (List.mem_cons_of_mem p hq))
      fun q hq => hf q (List.mem_cons_of_mem p hq)

/-- What the loop has come to: the next address is the one behind those that are done. -/
def Next (done : List Addr) (s : Separated) : Prop :=
  resize (max (done.length + 1) s.addrs.length) s.addrs = done ++ [Dict.empty]

theorem next_nil : Next [] ⟨[Dict.empty], []⟩ := by
  rw [Next]
  exact resize_concat [] Dict.empty

theorem next_self (done : List Addr) (globals : List (Text × Text)) :
    Next done ⟨done, globals⟩ := by
  rw [Next, resize]
  dsimp only
  rw [Nat.max_eq_left (Nat.le_add_right _ _), Nat.add_sub_cancel_left]
  rfl

theorem separateKeys_indexed (hnext : Next done s) (hne : addr.pairs ≠ [])
    (hk : ∀ p ∈ addr.pairs, KeyOk p.1) (hf : ∀ p ∈ addr.pairs, Format p.1)
    (hi : done.length < 2 ^ 64) :
    (indexed addr done.length).foldlM separateKey s = .ok ⟨done ++ [addr], s.globals⟩ := by
  have hall : (addr.pairs.map fun p => (p.1 ++ decimal done.length, p.2)).foldlM separateKey
      ⟨done ++ [Dict.empty], s.globals⟩ =
        .ok ⟨done ++ [Dict.empty.setAll addr.pairs], s.globals⟩ :=
    separateKeys_concat hk hf hi s.globals
  rw [Dict.setAll_empty_pairs] at hall
  rw [indexed, ← hall]
  obtain ⟨p, ps, hpairs⟩ := List.exists_cons_of_ne_nil hne
  rw [hpairs] at hk hf ⊢
  rw [List.map_cons, List.foldlM_cons, List.foldlM_cons,
    separateKey_append_decimal (hk p List.mem_cons_self) (hf p List.mem_cons_self) hi,
    separateKey_append_decimal (hk p List.mem_cons_self) (hf p List.mem_cons_self) hi,
    resize_concat, hnext]

theorem separateKeys_all (hnext : Next done s) (hrest : rest ≠ [])
    (hne : ∀ addr ∈ rest, addr.pairs ≠ []) (hk : ∀ addr ∈ rest, ∀ p ∈ addr.pairs, KeyOk p.1)
    (hf : ∀ addr ∈ rest, ∀ p ∈ addr.pairs, Format p.1)
    (hlen : done.length + rest.length ≤ 2 ^ 64) :
    ((rest.zipIdx done.length).flatMap fun a => indexed a.1 a.2).foldlM separateKey s
      = .ok ⟨done ++ rest, s.globals⟩ := by
  induction rest generalizing done s with
  | nil => exact absurd rfl hrest
  | cons addr rest ih =>
    rw [List.length_cons] at hlen
    rw [List.zipIdx_cons, List.flatMap_cons, List.foldlM_append,
      separateKeys_indexed hnext (hne addr List.mem_cons_self) (hk addr List.mem_cons_self)
        (hf addr List.mem_cons_self) (by omega)]
    rcases eq_or_ne rest [] with rfl | hrest'
    · rfl
    · have hlength : (done ++ [addr]).length = done.length + 1 := by
        rw [List.length_append, List.length_singleton]
      have hcat : done ++ addr :: rest = (done ++ [addr]) ++ rest := by
        rw [List.append_assoc, List.singleton_append]
      rw [hcat, ← hlength]
      exact ih (next_self (done ++ [addr]) s.globals) hrest'
        (fun a ha => hne a (List.mem_cons_of_mem addr ha))
        (fun a ha => hk a (List.mem_cons_of_mem addr ha))
        (fun a ha => hf a (List.mem_cons_of_mem addr ha)) (by omega)

theorem pairs_combine (hk : ∀ addr ∈ addrs, ∀ p ∈ addr.pairs, KeyOk p.1) :
    (combine addrs).pairs = addrs.zipIdx.flatMap fun a => indexed a.1 a.2 := by
  have hfold : ∀ (l : List (Addr × ℕ)) (d : Addr),
      l.foldl (fun addr a => addr.setAll (indexed a.1 a.2)) d
        = d.setAll (l.flatMap fun a => indexed a.1 a.2) := by
    intro l
    induction l with
    | nil => exact fun d => rfl
    | cons a l ih =>
      intro d
      rw [List.foldl_cons, ih, List.flatMap_cons, Dict.setAll_append]
  have hmem : ∀ a ∈ addrs.zipIdx, ∀ p ∈ a.1.pairs, KeyOk p.1 := fun a ha =>
    hk a.1 (List.fst_mem_of_mem_zipIdx ha)
  rw [combine, hfold, Dict.pairs_setAll]
  · rfl
  rw [show (Dict.empty : Addr).pairs = [] from rfl, List.nil_append, List.map_flatMap,
    List.nodup_flatMap]
  constructor
  · intro a ha
    rw [indexed, List.map_map]
    refine (List.nodup_map_iff_inj_on (List.Nodup.of_map Prod.fst a.1.nodup)).mpr ?_
    intro p hp q hq heq
    have hkey := (eq_of_append_decimal (hmem a ha p hp) (hmem a ha q hq) heq).1
    exact List.inj_on_of_nodup_map a.1.nodup hp hq hkey
  · have hidx : (addrs.zipIdx.map Prod.snd).Nodup := by
      rw [List.zipIdx_map_snd]
      exact List.nodup_range'
    refine List.Pairwise.imp_of_mem (fun {a b} ha hb hne => ?_) (List.pairwise_map.mp hidx)
    rw [Function.onFun, List.disjoint_left]
    intro key hka hkb
    rw [indexed, List.map_map, List.mem_map] at hka hkb
    obtain ⟨p, hp, rfl⟩ := hka
    obtain ⟨q, hq, heq⟩ := hkb
    exact hne (eq_of_append_decimal (hmem b hb q hq) (hmem a ha p hp) heq).2.symm

theorem deprecatedAddrs_combine (hk : ∀ addr ∈ addrs, ∀ p ∈ addr.pairs, KeyOk p.1) :
    deprecatedAddrs (combine addrs) = [] := by
  have hkeys : addrKey ∉ (combine addrs).keys := by
    rw [Dict.keys, pairs_combine hk, List.map_flatMap, List.mem_flatMap]
    rintro ⟨a, -, hmem⟩
    rw [indexed, List.map_map, List.mem_map] at hmem
    obtain ⟨p, -, heq⟩ := hmem
    have hlast : 'r' ∈ (p.1 ++ decimal a.2).getLast? := by
      rw [show p.1 ++ decimal a.2 = addrKey from heq]
      exact Option.mem_some_self 'r'
    rw [List.getLast?_append_of_ne_nil _ (decimal_ne_nil a.2)] at hlast
    exact absurd (isDigit_of_mem_decimal (List.mem_of_getLast? hlast)) (by decide)
  rw [deprecatedAddrs, Bool.eq_false_iff.mpr fun h => hkeys (Dict.hasKey_iff.mp h),
    Bool.false_and, if_neg Bool.false_ne_true]

theorem separates_of_format (h : WellFormed addrs) (hne : addrs ≠ [])
    (hf : ∀ addr ∈ addrs, ∀ p ∈ addr.pairs, Format p.1) : Separates addrs := by
  have hall := separateKeys_all next_nil hne h.ne_nil h.key hf
    (by rw [List.length_nil, Nat.zero_add]; exact h.length.le)
  rw [List.length_nil, List.nil_append] at hall
  rw [Separates, separate, deprecatedAddrs_combine h.key, if_neg (by decide), separateIndexed,
    pairs_combine h.key, hall]
  exact congrArg Except.ok (List.map_id addrs)

end Separating

/-! ## The lists that come back -/

/-- **Every list parses, and each one with an element and with keys of the format is separated.** -/
theorem separates_and_parses (addrs : List Addr) (h : WellFormed addrs) :
    Parses addrs ∧
      (addrs ≠ [] → (∀ addr ∈ addrs, ∀ p ∈ addr.pairs, Format p.1) → Separates addrs) ∧
      (addrs = [] → separate (combine addrs) = .ok [Dict.empty]) := by
  refine ⟨fun addr haddr => ofString_toString (h.key addr haddr) (h.value addr haddr),
    separates_of_format h, ?_⟩
  rintro rfl
  rfl

theorem all_not_isDigit {o : Option Char} :
    o.all (fun c => !c.isDigit) = true ↔ ∀ c ∈ o, c.isDigit = false := by
  rw [Option.all_eq_true]
  exact forall_congr' fun c => imp_congr_right fun _ => by rw [Bool.not_eq_true']

instance (key : Text) : Decidable (KeyOk key) :=
  decidable_of_iff
    (key ≠ [] ∧ key.head?.all (fun c => !c.isDigit) = true ∧
      key.getLast?.all (fun c => !c.isDigit) = true ∧ ',' ∉ key ∧ '=' ∉ key ∧ '\x00' ∉ key ∧
      trim key = key)
    ⟨fun ⟨ne_nil, head, last, comma, equals, nul, trimmed⟩ =>
      ⟨ne_nil, all_not_isDigit.mp head, all_not_isDigit.mp last, comma, equals, nul, trimmed⟩,
      fun h => ⟨h.ne_nil, all_not_isDigit.mpr h.head, all_not_isDigit.mpr h.last, h.comma,
        h.equals, h.nul, h.trimmed⟩⟩

instance (val : Text) : Decidable (ValueOk val) :=
  decidable_of_iff (',' ∉ val ∧ '=' ∉ val ∧ trim val = val)
    ⟨fun ⟨comma, equals, trimmed⟩ => ⟨comma, equals, trimmed⟩,
      fun h => ⟨h.comma, h.equals, h.trimmed⟩⟩

instance (addrs : List Addr) : Decidable (WellFormed addrs) :=
  decidable_of_iff
    (addrs.length < 2 ^ 64 ∧ (∀ addr ∈ addrs, addr.pairs ≠ []) ∧
      (∀ addr ∈ addrs, ∀ p ∈ addr.pairs, KeyOk p.1) ∧
      ∀ addr ∈ addrs, ∀ p ∈ addr.pairs, ValueOk p.2)
    ⟨fun ⟨length, ne_nil, key, value⟩ => ⟨length, ne_nil, key, value⟩,
      fun h => ⟨h.length, h.ne_nil, h.key, h.value⟩⟩

/-- Two motherboards, with `addr=10.2,rx_0_cpu=1` and `addr=10.3,name=`. -/
def twoAddrs : List Addr :=
  [⟨[(addrKey, ['1', '0', '.', '2']), (['r', 'x', '_', '0', '_', 'c', 'p', 'u'], ['1'])],
      by decide⟩,
    ⟨[(addrKey, ['1', '0', '.', '3']), (['n', 'a', 'm', 'e'], [])], by decide⟩]

theorem format_twoAddrs : ∀ addr ∈ twoAddrs, ∀ p ∈ addr.pairs, Format p.1 := by
  simp only [twoAddrs, List.forall_mem_cons, List.not_mem_nil, false_imp_iff, implies_true,
    and_true]
  refine ⟨⟨?_, ?_⟩, ?_, ?_⟩
  · exact ⟨['a'], [], ['d', 'd', 'r'], rfl, by decide, by decide, by simp, by simp, by simp⟩
  · exact ⟨['r', 'x', '_'], ['0'], ['_', 'c', 'p', 'u'], rfl, by decide, by decide, by simp,
      by simp, by simp⟩
  · exact ⟨['a'], [], ['d', 'd', 'r'], rfl, by decide, by decide, by simp, by simp, by simp⟩
  · exact ⟨['n'], [], ['a', 'm', 'e'], rfl, by decide, by decide, by simp, by simp, by simp⟩

theorem separates_and_parses_twoAddrs :
    WellFormed twoAddrs ∧ Parses twoAddrs ∧ Separates twoAddrs := by
  have hok : WellFormed twoAddrs := by decide +kernel
  obtain ⟨hparses, hseparates, -⟩ := separates_and_parses twoAddrs hok
  exact ⟨hok, hparses, hseparates (List.cons_ne_nil _ _) format_twoAddrs⟩

/-- No address becomes one that is empty; and keys of one character, or with digits in two places,
are not told from their indices. -/
theorem not_separates :
    ¬ (WellFormed [] → Separates []) ∧
      ¬ (WellFormed [⟨[(['a'], ['1'])], by decide⟩] →
        Separates [⟨[(['a'], ['1'])], by decide⟩]) ∧
      ¬ (WellFormed [⟨[(['a', '0', 'b', '1', 'c'], ['1'])], by decide⟩] →
        Separates [⟨[(['a', '0', 'b', '1', 'c'], ['1'])], by decide⟩]) := by
  refine ⟨fun h => ?_, fun h => ?_, fun h => ?_⟩
  · exact absurd (Except.ok.inj (h (by decide))) (by decide)
  · exact absurd (h (by decide +kernel)) (by unfold Separates; decide +kernel)
  · exact absurd (h (by decide +kernel)) (by unfold Separates; decide +kernel)

end DeviceAddr
end UhdHost
