import Mathlib.Data.List.Basic
import UhdHost.Types.Exception

/-!
# Properties of blocks

`property_base_t`, `property_t`, `dirtifier_t` and `res_source_info` of `uhd/rfnoc`, and what
`prop_accessor_t` does to a property.

A property belongs to a node and is known there by where it is sourced and by its ID (`PropKey`).
It has a value of some data type, and keeps track of whether that value was initialised (`valid`)
and whether it was changed and the change not resolved yet (`dirty`).  Values are compared by
equality.

The type that `dynamic_cast` looks at is the field `dataType`.  A setter is typed in the source,
so that only forwarding compares types.
-/

namespace UhdHost
namespace Rfnoc

/-! ## Where properties are sourced -/

/-- `res_source_info::source_t` -/
inductive SourceType where
  | user
  | inputEdge
  | outputEdge
  | framework
  deriving DecidableEq, Repr

namespace SourceType

def isEdge : SourceType → Bool
  | .inputEdge | .outputEdge => true
  | .user | .framework => false

/-- The other side of an edge. -/
def inverted : SourceType → SourceType
  | .inputEdge => .outputEdge
  | t => if t = .outputEdge then .inputEdge else t

end SourceType

/-- `res_source_info` -/
structure ResSourceInfo where
  type : SourceType
  /-- `instance`; for an edge, the number of the port -/
  inst : ℕ := 0
  deriving DecidableEq, Repr

namespace ResSourceInfo

/-- `to_string` -/
def toString (info : ResSourceInfo) : String :=
  (match info.type with
    | .user => "USER"
    | .inputEdge => "INPUT_EDGE"
    | .outputEdge => "OUTPUT_EDGE"
    | .framework => "INVALID") ++ ":" ++ Nat.repr info.inst

/-- `invert_edge` -/
def invertEdge (edgeDirection : SourceType) : Except UhdError SourceType :=
  if edgeDirection.isEdge then .ok edgeDirection.inverted
  else .error (.assertionError "edge_direction == INPUT_EDGE || edge_direction == OUTPUT_EDGE")

end ResSourceInfo

/-- The ID of a property, as the constructor of `property_base_t` accepts it. -/
structure PropId where
  name : String
  noColon : ':' ∉ name.toList := by decide
  deriving DecidableEq

/-- What a property is known by on its node. -/
structure PropKey where
  srcInfo : ResSourceInfo
  id : PropId
  deriving DecidableEq

/-! ## Properties -/

/-- `property_base_t::access_t` -/
inductive AccessMode where
  | none
  | ro
  | rw
  | rwlocked
  deriving DecidableEq, Repr

/-- A property whose data is of one of the types `T` and has values in `V`. -/
structure Property (T V : Type) where
  id : PropId
  srcInfo : ResSourceInfo
  dataType : T
  value : V
  /-- the flag of `dirty_tracked` -/
  dirty : Bool := true
  valid : Bool := true
  accessMode : AccessMode := .ro
  /-- This is a `dirtifier_t`. -/
  alwaysDirty : Bool := false
  deriving DecidableEq

namespace Property

variable {T V : Type}

def key (p : Property T V) : PropKey := ⟨p.srcInfo, p.id⟩

/-- `is_dirty` -/
def isDirty (p : Property T V) : Bool := p.alwaysDirty || p.dirty

/-- `read_access_granted` -/
def readAccessGranted (p : Property T V) : Bool := p.accessMode != .none

/-- `write_access_granted`: the bit that `RWLOCKED` does not have -/
def writeAccessGranted (p : Property T V) : Bool := p.accessMode == .rw

/-- `get` -/
def get (p : Property T V) : Except UhdError V :=
  if !p.valid then
    .error (.accessError ("Attempting to read property `" ++ p.id.name ++ "@"
      ++ p.srcInfo.toString ++ "' before it was initialized!"))
  else if p.readAccessGranted then .ok p.value
  else
    .error (.accessError ("Attempting to read property `" ++ p.id.name
      ++ "' without access privileges!"))

/-- `clone`: a property like any other new one -/
def clone (p : Property T V) (newSrcInfo : ResSourceInfo) : Except UhdError (Property T V) :=
  match p.get with
  | .ok v => .ok { id := p.id, srcInfo := newSrcInfo, dataType := p.dataType, value := v }
  | .error e => .error e

/-- `mark_clean` -/
def markClean (p : Property T V) : Property T V := { p with dirty := false }

/-- `prop_accessor_t::set_access` -/
def setAccess (p : Property T V) (access : AccessMode) : Property T V :=
  { p with accessMode := access }

section Values

variable [DecidableEq V]

/-- Assignment to the `dirty_tracked` data of the property. -/
def assign (p : Property T V) (v : V) : Property T V :=
  { p with value := v, dirty := p.dirty || decide (p.value ≠ v), valid := true }

/-- `set` -/
def set (p : Property T V) (v : V) : Except UhdError (Property T V) :=
  if p.writeAccessGranted then .ok (p.assign v)
  else if p.accessMode = .rwlocked then
    if p.value ≠ v then
      .error (.resolveError ("Attempting to overwrite property `" ++ p.id.name ++ "@"
        ++ p.srcInfo.toString ++ "' with a new value after it was locked!"))
    else .ok p
  else
    .error (.accessError ("Attempting to write to property `" ++ p.id.name
      ++ "' without access privileges!"))

/-- `force_dirty` -/
def forceDirty (p : Property T V) : Except UhdError (Property T V) :=
  if p.alwaysDirty then .ok p
  else if p.writeAccessGranted then .ok { p with dirty := true }
  else if p.accessMode = .rwlocked then
    if !p.dirty then
      .error (.resolveError ("Attempting to overwrite property `" ++ p.id.name
        ++ "' with dirty flag after it was locked!"))
    else .ok p
  else
    .error (.accessError ("Attempting to flag dirty property `" ++ p.id.name
      ++ "' without access privileges!"))

/-- `prop_accessor_t::forward<false>`: what becomes of the property `dst`.  The destination can
be written to while the value is forwarded, and no longer. -/
def forward [DecidableEq T] (source dst : Property T V) : Except UhdError (Property T V) :=
  if source.alwaysDirty then
    .error (.typeError "Cannot forward to or from dirtifier property!")
  else if !source.valid then
    .error (.resolveError ("Unable to forward invalid property " ++ source.id.name))
  else if dst.alwaysDirty || decide (source.dataType ≠ dst.dataType) then
    .error (.typeError ("Unable to cast property " ++ dst.id.name
      ++ " to the same type as property " ++ source.id.name))
  else
    match (source.setAccess .ro).get with
    | .error e => .error e
    | .ok v =>
      match (dst.setAccess .rw).set v with
      | .error e => .error e
      | .ok written => .ok (written.setAccess dst.accessMode)

end Values

/-! ## What the operations leave -/

@[simp] theorem key_markClean (p : Property T V) : p.markClean.key = p.key := rfl

@[simp] theorem key_setAccess (p : Property T V) (access : AccessMode) :
    (p.setAccess access).key = p.key := rfl

theorem get_eq_ok {p : Property T V} {v : V} :
    p.get = .ok v ↔ p.valid = true ∧ p.readAccessGranted = true ∧ p.value = v := by
  unfold get
  cases p.valid <;> cases p.readAccessGranted <;> simp

theorem clone_eq_ok {p q : Property T V} {newSrcInfo : ResSourceInfo}
    (h : p.clone newSrcInfo = .ok q) :
    p.valid = true ∧
      q = { id := p.id, srcInfo := newSrcInfo, dataType := p.dataType, value := p.value } := by
  unfold clone at h
  cases hget : p.get with
  | error e =>
    rw [hget] at h
    exact absurd h (by simp)
  | ok v =>
    obtain ⟨hvalid, -, rfl⟩ := get_eq_ok.mp hget
    rw [hget] at h
    injection h with h
    exact ⟨hvalid, h.symm⟩

variable [DecidableEq V]

@[simp] theorem key_assign (p : Property T V) (v : V) : (p.assign v).key = p.key := rfl

theorem key_set {p q : Property T V} {v : V} (h : p.set v = .ok q) : q.key = p.key := by
  unfold set at h
  split_ifs at h <;> (injection h with h; rw [← h])
  rfl

omit [DecidableEq V] in
theorem key_forceDirty {p q : Property T V} (h : p.forceDirty = .ok q) : q.key = p.key := by
  unfold forceDirty at h
  split_ifs at h <;> (injection h with h; rw [← h])
  rfl

theorem forward_eq_ok [DecidableEq T] {source dst q : Property T V}
    (h : source.forward dst = .ok q) :
    source.valid = true ∧ source.dataType = dst.dataType ∧ q = dst.assign source.value := by
  unfold forward at h
  split_ifs at h with halways hvalid htype
  have hvalid : source.valid = true := by simpa using hvalid
  have htype : source.dataType = dst.dataType := by
    simp only [Bool.or_eq_true, decide_eq_true_eq, not_or, not_not] at htype
    exact htype.2
  have hget : (source.setAccess .ro).get = .ok source.value :=
    get_eq_ok.mpr ⟨hvalid, rfl, rfl⟩
  have hset : (dst.setAccess .rw).set source.value = .ok ((dst.setAccess .rw).assign source.value) :=
    if_pos rfl
  rw [hget] at h
  dsimp only at h
  rw [hset] at h
  injection h with h
  exact ⟨hvalid, htype, h.symm⟩

end Property

end Rfnoc
end UhdHost
