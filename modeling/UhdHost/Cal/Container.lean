import Mathlib
import UhdHost.Cal.Interpolation
import UhdHost.Library.Stateful

/-!
# What the calibration containers share

A container is serialized as a tree of fields, which the flatbuffers library turns into bytes and
back.  A field that is a string, a vector or a table may be missing from bytes that the library
verifies; the containers do not look, and what they then do is not defined.

* `forM_addEntry`: a loop that reads entries one after the other and adds each at once leaves those
  before the first that is rejected.
* `throwsInto_loadTable_iff`: when a table is loaded, or leaves what there was.
-/

namespace UhdHost
namespace Cal

open Stateful

/-- A string, as its characters; it may have a zero among them. -/
abbrev Text := List Char

/-- What is passed on as a C string: the characters before the first zero. -/
def cStr (text : Text) : Text := text.takeWhile (· ≠ '\x00')

/-- The flatbuffers library, for one type of tree: a buffer that is verified is parsed into a tree,
and one that was built from a tree into that tree. -/
structure Flatbuffers (Buffer Tree : Type) where
  parse : Buffer → Option Tree
  build : Tree → Buffer
  parse_build : ∀ tree, parse (build tree) = some tree

/-- A library whose buffers are the trees. -/
def Flatbuffers.ofTrees (Tree : Type) : Flatbuffers Tree Tree := ⟨some, id, fun _ => rfl⟩

/-- The table `Metadata`. -/
structure Metadata where
  name : Option Text
  serial : Option Text
  timestamp : ℕ
  versionMajor : ℤ
  versionMinor : ℤ
  deriving DecidableEq

/-- Read a field that may be missing. -/
def field {α : Type} : Option α → Except Halt α
  | some a => .ok a
  | none => .error .undefined

/-- From `start` the computation succeeds, or it throws and ends in `s`. -/
def ThrowsInto {σ : Type} (x : EStateM Halt σ PUnit) (start s : σ) : Prop :=
  (∃ t, x start = .ok PUnit.unit t) ∨ ∃ e, x start = .error (.threw e) s

/-- **Atomic**: a computation succeeds, or it throws and changes nothing. -/
def Atomic {σ : Type} (x : EStateM Halt σ PUnit) (s : σ) : Prop := ThrowsInto x s s

section ThrowsInto

variable {σ : Type} {x : EStateM Halt σ PUnit} {start s t : σ} {halt : Halt}

theorem throwsInto_of_ok (h : x start = .ok PUnit.unit t) : ThrowsInto x start s := Or.inl ⟨t, h⟩

theorem throwsInto_of_error_iff (h : x start = .error halt t) :
    ThrowsInto x start s ↔ halt ≠ .undefined ∧ t = s := by
  rw [ThrowsInto, h]
  constructor
  · rintro (⟨t, ht⟩ | ⟨e, he⟩)
    · exact nomatch ht
    · injection he with hhalt hs
      exact ⟨by rw [hhalt]; exact Halt.noConfusion, hs⟩
  · rintro ⟨hne, rfl⟩
    cases halt with
    | threw e => exact Or.inr ⟨e, rfl⟩
    | undefined => exact absurd rfl hne

end ThrowsInto

/-! ## Loops over entries -/

section Loop

variable {σ α β ε : Type}

/-- The entries before the first that is rejected. -/
def accepted : List (Except ε α) → List α
  | [] => []
  | .ok a :: items => a :: accepted items
  | .error _ :: _ => []

/-- Why the first entry that is rejected is rejected. -/
def rejected : List (Except ε α) → Option ε
  | [] => none
  | .ok _ :: items => rejected items
  | .error e :: _ => some e

/-- Read an entry and add it. -/
def addEntry (add : σ → α → σ) (item : Except ε α) : EStateM ε σ PUnit := do
  let a ← orThrow item
  modify fun s => add s a

theorem forM_addEntry (add : σ → α → σ) (items : List (Except ε α)) (s : σ) :
    forM items (addEntry add) s =
      (rejected items).elim (.ok PUnit.unit ((accepted items).foldl add s))
        fun e => .error e ((accepted items).foldl add s) := by
  induction items generalizing s with
  | nil => rfl
  | cons item items ih =>
    cases item with
    | ok a =>
      have hone : addEntry add (.ok a : Except ε α) s = .ok PUnit.unit (add s a) := rfl
      rw [List.forM_cons, bind_of_ok hone, ih]
      rfl
    | error e => rfl

theorem forM_addEntry_of_none {add : σ → α → σ} {items : List (Except ε α)}
    (h : rejected items = none) (s : σ) :
    forM items (addEntry add) s = .ok PUnit.unit ((accepted items).foldl add s) := by
  rw [forM_addEntry, h, Option.elim_none]

theorem forM_addEntry_of_some {add : σ → α → σ} {items : List (Except ε α)} {e : ε}
    (h : rejected items = some e) (s : σ) :
    forM items (addEntry add) s = .error e ((accepted items).foldl add s) := by
  rw [forM_addEntry, h, Option.elim_some]

theorem rejected_map_ok (as : List α) : rejected (as.map (.ok : α → Except ε α)) = none := by
  induction as with
  | nil => rfl
  | cons a as ih => exact ih

theorem accepted_map_ok (as : List α) : accepted (as.map (.ok : α → Except ε α)) = as := by
  induction as with
  | nil => rfl
  | cons a as ih => exact congrArg (a :: ·) ih

end Loop

/-! ## Loading a table -/

section Load

variable {σ α : Type}

/-- What `deserialize` reads of a tree: the metadata, and the entries as they are read one after the
other. -/
structure Header (α : Type) where
  name : Text
  serial : Text
  timestamp : ℕ
  items : List (Except Halt α)

/-- Read the metadata, check the version, and get at the entries. -/
def readHeader (versionMajor : ℤ) (mismatch : UhdError) (metadata : Option Metadata)
    (items : Option (List (Except Halt α))) : Except Halt (Header α) := do
  let metadata ← field metadata
  if metadata.versionMajor ≠ versionMajor then .error (.threw mismatch)
  else do
    let name ← field metadata.name
    let serial ← field metadata.serial
    let items ← field items
    .ok ⟨cStr name, cStr serial, metadata.timestamp, items⟩

/-- What `deserialize` does with a tree: it overwrites the metadata and adds the entries.  Where a
field is missing nothing is defined, and the order in which the fields are read is of no account. -/
def loadTable (put : Text → Text → ℕ → σ → σ) (add : σ → α → σ)
    (header : Except Halt (Header α)) : EStateM Halt σ PUnit := do
  let header ← orThrow header
  modify (put header.name header.serial header.timestamp)
  forM header.items (addEntry add)

variable {put : Text → Text → ℕ → σ → σ} {add : σ → α → σ} {header : Header α} {s : σ}

/-- What a table leaves: the metadata, and the entries before the first that is rejected. -/
def Header.leaves (put : Text → Text → ℕ → σ → σ) (add : σ → α → σ) (header : Header α) (s : σ) : σ :=
  (accepted header.items).foldl add (put header.name header.serial header.timestamp s)

theorem loadTable_of_error (halt : Halt) :
    loadTable put add (.error halt) s = .error halt s := rfl

theorem loadTable_of_none (h : rejected header.items = none) :
    loadTable put add (.ok header) s = .ok PUnit.unit (header.leaves put add s) :=
  forM_addEntry_of_none h _

theorem loadTable_of_some {halt : Halt} (h : rejected header.items = some halt) :
    loadTable put add (.ok header) s = .error halt (header.leaves put add s) :=
  forM_addEntry_of_some h _

/-- **The condition** for a table to be loaded, or to leave what there was: it is refused where
nothing has changed, or no entry is rejected, or the entries before the one that is rejected leave
what there was. -/
def LoadsInto (put : Text → Text → ℕ → σ → σ) (add : σ → α → σ)
    (header : Except Halt (Header α)) (start s : σ) : Prop :=
  ((∃ e, header = .error (.threw e)) ∧ start = s) ∨ ∃ h, header = .ok h ∧
    (rejected h.items = none ∨
      (∃ e, rejected h.items = some (.threw e)) ∧ h.leaves put add start = s)

theorem throwsInto_loadTable_iff (put : Text → Text → ℕ → σ → σ) (add : σ → α → σ)
    (header : Except Halt (Header α)) (start s : σ) :
    ThrowsInto (loadTable put add header) start s ↔ LoadsInto put add header start s := by
  have hthrew : ∀ halt : Halt, halt ≠ .undefined ↔ ∃ e, halt = .threw e := by
    intro halt
    cases halt with
    | threw e => exact iff_of_true Halt.noConfusion ⟨e, rfl⟩
    | undefined => exact iff_of_false (fun h => h rfl) fun ⟨_, he⟩ => nomatch he
  cases header with
  | error halt =>
    rw [throwsInto_of_error_iff (loadTable_of_error halt), hthrew]
    constructor
    · rintro ⟨⟨e, rfl⟩, hsame⟩
      exact Or.inl ⟨⟨e, rfl⟩, hsame⟩
    · rintro (⟨⟨e, he⟩, hsame⟩ | ⟨h, hh, -⟩)
      · exact ⟨⟨e, Except.error.inj he⟩, hsame⟩
      · exact nomatch hh
  | ok header =>
    cases hrejected : rejected header.items with
    | none =>
      exact iff_of_true (throwsInto_of_ok (loadTable_of_none hrejected))
        (Or.inr ⟨header, rfl, Or.inl hrejected⟩)
    | some halt =>
      rw [throwsInto_of_error_iff (loadTable_of_some hrejected), hthrew]
      constructor
      · rintro ⟨⟨e, rfl⟩, hsame⟩
        exact Or.inr ⟨header, rfl, Or.inr ⟨⟨e, hrejected⟩, hsame⟩⟩
      · rintro (⟨⟨e, he⟩, -⟩ | ⟨h, hh, hor⟩)
        · exact nomatch he
        · obtain rfl := Except.ok.inj hh
          rw [hrejected] at hor
          rcases hor with hnone | ⟨⟨e, he⟩, hsame⟩
          · exact nomatch hnone
          · exact ⟨⟨e, Option.some.inj he⟩, hsame⟩

theorem readHeader_of_fields (versionMajor versionMinor : ℤ) (mismatch : UhdError)
    (name serial : Text) (timestamp : ℕ) (items : List (Except Halt α)) :
    readHeader versionMajor mismatch
      (some ⟨some name, some serial, timestamp, versionMajor, versionMinor⟩) (some items) =
      .ok ⟨cStr name, cStr serial, timestamp, items⟩ :=
  if_neg (not_not.mpr rfl)

/-- A string that survives being passed on as a C string. -/
def NoZero (text : Text) : Prop := cStr text = text

theorem cStr_cStr (text : Text) : cStr (cStr text) = cStr text := by
  rw [cStr, cStr, List.takeWhile_takeWhile]
  simp

end Load

end Cal
end UhdHost
