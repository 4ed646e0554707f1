import UhdHost.Library.DirtyLoop
import UhdHost.Library.Stateful
import UhdHost.Library.Transition
import UhdHost.Types.Exception

/-!
# The buffers of a replay block

A port of `replay_block_control.cpp`, with the buffers in the memory of the block that it records
into and plays from.  The offset and the size of a buffer are properties.  Their resolvers check
them, each by itself, and put them into registers; that a buffer ends within the memory is checked
on the properties when a command is given.

Setting a property makes the graph resolve what is dirty.  What the graph does besides is arbitrary:
neighbours may forward the types of the items, the resolvers of other properties and other blocks
may throw, and the dirty properties are resolved in any order.

* `put_of_run` and `error_of_run`: a resolver that returns has put its property into the register,
  and one that throws leaves all as it was, or makes a size whole units.
* `keeps_run`: after every call, whether it returns or throws, the registers hold all properties
  that are not dirty.
* `programs_of_meets` and `everyStep_programs`: a command that is accepted programs a region that
  lies in the memory and is a multiple of the sizes of words and items, where the sum of offset and
  size does not wrap around, no call before has failed with a property that did not get into its
  register, and what is recorded is whole items.
-/

namespace UhdHost
namespace Rfnoc
namespace ReplayBuffers

open Stateful

/-- What a block is made with.  The memory is whole words, and its size is a 64-bit number. -/
structure Config where
  wordSize : ℕ
  memSize : ℕ
  fpgaCompat : ℕ
  /-- `get_item_size_table` -/
  itemSizes : String → Option ℕ
  memSize_lt : memSize < 2 ^ 64
  words : wordSize ∣ memSize

/-- The two buffers of a port. -/
inductive Side where
  | record
  | play
  deriving DecidableEq

/-- What a side is called at the beginning of a message. -/
def Side.name : Side → String
  | .record => "Record"
  | .play => "Play"

/-- The properties of a port that its buffers depend on. -/
inductive BufferProp where
  | offset (side : Side)
  | size (side : Side)
  | type (side : Side)
  deriving DecidableEq

instance : Fintype BufferProp where
  elems := {.offset .record, .offset .play, .size .record, .size .play, .type .record, .type .play}
  complete p := by rcases p with (_ | _) | (_ | _) | (_ | _) <;> decide

/-- What a property is called in a message. -/
def BufferProp.name : BufferProp → String
  | .offset .record => "record_offset"
  | .offset .play => "play_offset"
  | .size .record => "record_size"
  | .size .play => "play_size"
  | .type _ => "type"

/-- A region of the memory. -/
structure Region where
  offset : ℕ
  size : ℕ
  deriving DecidableEq

/-- The properties of a port, and the registers that they are put into. -/
structure Buffers where
  type : Side → String
  value : Side → Region
  dirty : BufferProp → Bool
  regs : Side → Region
  playItemSize : ℕ

/-- What comes of something that may throw, with the state that it leaves. -/
abbrev Outcome (σ : Type) := Except (UhdError × σ) σ

/-! ## The resolvers -/

/-- `get_bytes_per_item` -/
def getBytesPerItem (c : Config) (format : String) : Except UhdError ℕ :=
  let firstTerm := String.ofList (format.toList.takeWhile fun ch => ch ≠ '_')
  match c.itemSizes format with
  | some n => .ok n
  | none =>
    match c.itemSizes firstTerm with
    | some n => .ok n
    | none => .error (.keyError ("[convert] Cannot find an item size for: `" ++ firstTerm ++ "'"))

namespace Buffers

/-- Setting an offset. -/
def setOffset (side : Side) (v : ℕ) (b : Buffers) : Buffers :=
  { b with
    value := Function.update b.value side { b.value side with offset := v }
    dirty := Function.update b.dirty (.offset side)
      (b.dirty (.offset side) || decide ((b.value side).offset ≠ v)) }

/-- Setting a size. -/
def setSize (side : Side) (v : ℕ) (b : Buffers) : Buffers :=
  { b with
    value := Function.update b.value side { b.value side with size := v }
    dirty := Function.update b.dirty (.size side)
      (b.dirty (.size side) || decide ((b.value side).size ≠ v)) }

/-- Setting a type. -/
def setType (side : Side) (v : String) (b : Buffers) : Buffers :=
  { b with
    type := Function.update b.type side v
    dirty := Function.update b.dirty (.type side)
      (b.dirty (.type side) || decide (b.type side ≠ v)) }

end Buffers

/-- A property that is set, of the buffers or another one. -/
inductive Assignment where
  | offset (side : Side) (v : ℕ)
  | size (side : Side) (v : ℕ)
  | type (side : Side) (v : String)
  | other

def Assignment.run : Assignment → Buffers → Buffers
  | .offset side v, b => b.setOffset side v
  | .size side v, b => b.setSize side v
  | .type side v, b => b.setType side v
  | .other, b => b

namespace Buffers

/-- The register of an offset is written. -/
def pokeOffset (side : Side) (b : Buffers) : Buffers :=
  { b with
    regs := Function.update b.regs side { b.regs side with offset := (b.value side).offset } }

/-- The register of a size is written. -/
def pokeSize (side : Side) (b : Buffers) : Buffers :=
  { b with regs := Function.update b.regs side { b.regs side with size := (b.value side).size } }

/-- The register of the item size is written. -/
def pokeItemSize (itemSize : ℕ) (b : Buffers) : Buffers :=
  { b with playItemSize := itemSize % 2 ^ 32 }

/-- What `_set_record_offset` and `_set_play_offset` do. -/
def putOffset (c : Config) (side : Side) (_locked : BufferProp → Bool) (b : Buffers) :
    Outcome Buffers :=
  if (b.value side).offset % c.wordSize ≠ 0 then
    .error (.valueError (side.name ++ " offset must be a multiple of word size."), b)
  else if (b.value side).offset > c.memSize then
    .error (.valueError (side.name ++ " offset is out of bounds."), b)
  else .ok (b.pokeOffset side)

/-- `_set_record_offset` -/
def setRecordOffset (c : Config) := putOffset c .record

/-- `_set_play_offset` -/
def setPlayOffset (c : Config) := putOffset c .play

/-- A size that is not whole units is made whole, and then there is an exception; the property may
be locked. -/
def rejectSize (side : Side) (unit : ℕ) (what : String) (locked : BufferProp → Bool) (b : Buffers) :
    Outcome Buffers :=
  let coerced := (b.value side).size - (b.value side).size % unit
  if locked (.size side) then
    if (b.value side).size ≠ coerced then
      .error (.resolveError ("Attempting to overwrite property `" ++ (BufferProp.size side).name
        ++ "' with a new value after it was locked!"), b)
    else .error (.valueError what, b)
  else .error (.valueError what, b.setSize side coerced)

/-- `_set_record_size` -/
def setRecordSize (c : Config) (locked : BufferProp → Bool) (b : Buffers) : Outcome Buffers :=
  if (b.value .record).size % c.wordSize ≠ 0 then
    b.rejectSize .record c.wordSize "Record buffer size must be a multiple of word size." locked
  else .ok (b.pokeSize .record)

/-- `_set_play_size` -/
def setPlaySize (c : Config) (locked : BufferProp → Bool) (b : Buffers) : Outcome Buffers :=
  if (b.value .play).size % c.wordSize ≠ 0 then
    b.rejectSize .play c.wordSize "Play buffer size must be a multiple of word size." locked
  else
    match getBytesPerItem c (b.type .play) with
    | .error e => .error (e, b)
    | .ok itemSize =>
      if (b.value .play).size % itemSize ≠ 0 then
        b.rejectSize .play itemSize "Play buffer size must be a multiple of item size." locked
      else .ok (b.pokeSize .play)

/-- `_set_play_type` -/
def setPlayType (c : Config) (_locked : BufferProp → Bool) (b : Buffers) : Outcome Buffers :=
  match getBytesPerItem c (b.type .play) with
  | .error e => .error (e, b)
  | .ok itemSize => .ok (b.pokeItemSize itemSize)

/-- `clean_props` -/
def clean (b : Buffers) : Buffers := { b with dirty := fun _ => false }

end Buffers

/-- The resolvers, in the order in which they are added. -/
def resolvers (c : Config) : List (DirtyLoop.Resolver BufferProp Buffers (UhdError × Buffers)) :=
  [⟨[.offset .record], [], Buffers.setRecordOffset c⟩,
    ⟨[.size .record], [.size .record], Buffers.setRecordSize c⟩,
    ⟨[.type .play], [], Buffers.setPlayType c⟩,
    ⟨[.offset .play], [], Buffers.setPlayOffset c⟩,
    ⟨[.size .play], [.size .play], Buffers.setPlaySize c⟩]

/-- `resolve_props`, for properties in an order -/
def resolveProps (c : Config) (order : List BufferProp) (b : Buffers) : Outcome Buffers :=
  let todo := order.filter b.dirty
  match DirtyLoop.resolveLoop Buffers.dirty (resolvers c) (todo.length + 6 * 3) todo [] [] b with
  | some outcome => outcome
  | none => .error (.runtimeError "the list of dirty properties does not end", b)

/-- `init_props`, for resolvers that are left: what they write is locked, and where that goes wrong
there is a warning. -/
def initProps : List (DirtyLoop.Resolver BufferProp Buffers (UhdError × Buffers)) → Buffers →
    Except UhdError Buffers
  | [], b => .ok b.clean
  | r :: rs, b =>
    match r.run (fun p => decide (p ∈ r.outputs)) b with
    | .ok b => initProps rs b
    | .error (.resolveError _, b) => initProps rs b
    | .error (e, _) => .error e

/-! ## The graph -/

/-- What a graph that resolves properties does to a port: a neighbour forwards a type; the block is
resolved, with its properties in any order, and cleaned; the resolver of another property of the
block throws, when some had their turn; or something else does. -/
inductive GraphStep where
  | forwardType (side : Side) (type : String)
  | resolve (order : { order : List BufferProp // ∀ p, p ∈ order })
  | interrupt (order : List BufferProp) (e : UhdError)
  | throws (e : UhdError)

def GraphStep.run (c : Config) : GraphStep → Buffers → Outcome Buffers
  | .forwardType side type, b => .ok (b.setType side type)
  | .resolve order, b => (resolveProps c order.1 b).map Buffers.clean
  | .interrupt order e, b => (resolveProps c order b).bind fun b => .error (e, b)
  | .throws e, b => .error (e, b)

/-- `resolve_all`: in the end nothing may be dirty. -/
def resolveAll (c : Config) : List GraphStep → Buffers → Outcome Buffers
  | [], b =>
    if ∃ p, b.dirty p = true then .error (.resolveError "Could not resolve properties.", b)
    else .ok b
  | step :: steps, b => (step.run c b).bind (resolveAll c steps)

/-! ## The commands -/

/-- A port: the buffers, the follow mode, the registers of the play commands, how many times
recording was started, and how many commands the block has room for. -/
structure Block where
  buffers : Buffers
  followMode : Bool := false
  recordRestarts : ℕ := 0
  numWords : ℕ := 0
  time : ℕ := 0
  command : ℕ := 0
  cmdFifoSpaces : ℕ

inductive StreamMode where
  | startContinuous
  | stopContinuous
  | numSampsAndDone
  | numSampsAndMore
  | invalid
  deriving DecidableEq

/-- `stream_cmd_t`, with the ticks of its time unless it is to be executed now. -/
structure StreamCmd where
  mode : StreamMode
  numSamps : ℕ := 0
  ticks : Option ℕ := none

def playCmdStop : ℕ := 0

def playCmdFinite : ℕ := 1

def playCmdContinuous : ℕ := 2

/-- `play_cmd` -/
def playCmd : StreamMode → Except UhdError ℕ
  | .stopContinuous => .ok playCmdStop
  | .numSampsAndDone => .ok playCmdFinite
  | .numSampsAndMore => .ok playCmdFinite
  | .startContinuous => .ok playCmdContinuous
  | .invalid => .error (.valueError "Requested invalid stream command.")

/-- `_validate_record_buffer` -/
def validateRecordBuffer (c : Config) (b : Buffers) : Except UhdError PUnit :=
  if ((b.value .record).offset + (b.value .record).size) % 2 ^ 64 > c.memSize then
    .error (.valueError "Record buffer goes out of bounds.")
  else .ok PUnit.unit

/-- `_validate_play_buffer` -/
def validatePlayBuffer (c : Config) (b : Buffers) : Except UhdError PUnit :=
  (getBytesPerItem c (b.type .play)).bind fun itemSize =>
    if (b.value .play).size % itemSize ≠ 0 then
      .error (.valueError "Play size must be must be a multiple of item size.")
    else if ((b.value .play).offset + (b.value .play).size) % 2 ^ 64 > c.memSize then
      .error (.valueError "Play buffer goes out of bounds.")
    else .ok PUnit.unit

namespace Block

/-- Something that happens to the buffers. -/
def onBuffers (f : Buffers → Outcome Buffers) : EStateM UhdError Block PUnit := fun s =>
  match f s.buffers with
  | .ok b => .ok PUnit.unit { s with buffers := b }
  | .error (e, b) => .error e { s with buffers := b }

/-- `set_property` -/
def setProperty (c : Config) (assignment : Assignment) (steps : List GraphStep) :
    EStateM UhdError Block PUnit :=
  onBuffers fun b => resolveAll c steps (assignment.run b)

/-- `record_restart` -/
def recordRestart (c : Config) : EStateM UhdError Block PUnit := do
  let s ← get
  orThrow (validateRecordBuffer c s.buffers)
  modify fun s => { s with recordRestarts := s.recordRestarts + 1 }

/-- `record` -/
def record (c : Config) (offset size : ℕ) (first second : List GraphStep) :
    EStateM UhdError Block PUnit := do
  setProperty c (.offset .record offset) first
  setProperty c (.size .record size) second
  recordRestart c

/-- `set_property` for the follow mode, when nothing else is dirty: the graph has nothing to do, or
throws. -/
def setFollowMode (followMode : Bool) (outcome : Except UhdError PUnit) :
    EStateM UhdError Block PUnit := do
  modify fun s => { s with followMode }
  orThrow outcome

/-- `config_play` -/
def configPlay (c : Config) (offset size : ℕ) (followMode : Bool) (first second : List GraphStep)
    (outcome : Except UhdError PUnit) : EStateM UhdError Block PUnit := do
  setProperty c (.offset .play offset) first
  setProperty c (.size .play size) second
  let s ← get
  orThrow (validatePlayBuffer c s.buffers)
  setFollowMode followMode outcome

/-- Making sure that there is room for a command, where the block tells: a stop command may pass. -/
def takeSpace (c : Config) (playCmd spaces : ℕ) : EStateM UhdError Block PUnit := do
  let s ← get
  onlyIf (c.fpgaCompat ≥ 0x00010001 ∧ playCmd ≠ playCmdStop ∧ s.cmdFifoSpaces = 0) do
    modify fun s => { s with cmdFifoSpaces := spaces }
    onlyIf (spaces = 0) (throw (.opFailed "[Replay] Play command queue is full"))

/-- The conditions for the follow mode. -/
def checkFollowMode (playCmd : ℕ) (s : Block) : Except UhdError PUnit :=
  if s.followMode then
    if playCmd = playCmdContinuous then
      .error (.valueError "Follow mode cannot be used with continuous playback.")
    else if (s.buffers.value .record).size < (s.buffers.value .play).size then
      .error (.valueError
        "Follow mode cannot be used when play size is larger than record size.")
    else if (s.buffers.value .record).offset ≠ (s.buffers.value .play).offset then
      .error (.valueError
        "Follow mode cannot be used when play offset and record offset are not equal.")
    else .ok PUnit.unit
  else .ok PUnit.unit

/-- The time of a command, the command register, and the room for commands after it. -/
def poke (c : Config) (cmd : StreamCmd) (playCmd spaces : ℕ) (s : Block) : Block :=
  { s with
    time := cmd.ticks.getD s.time
    command := playCmd % 4 + (if cmd.ticks.isSome then 2 ^ 31 else 0)
      + (if cmd.mode = .numSampsAndMore then 2 ^ 30 else 0) + (if s.followMode then 2 ^ 29 else 0)
    cmdFifoSpaces :=
      if c.fpgaCompat ≥ 0x00010001 then
        if playCmd = playCmdStop then spaces else s.cmdFifoSpaces - 1
      else s.cmdFifoSpaces }

/-- `issue_stream_cmd`, where a look at the register says how many commands there is room for -/
def issueStreamCmd (c : Config) (cmd : StreamCmd) (spaces : ℕ) : EStateM UhdError Block PUnit := do
  let s ← get
  orThrow (validatePlayBuffer c s.buffers)
  let playCmd ← orThrow (playCmd cmd.mode)
  takeSpace c playCmd spaces
  orThrow (s.checkFollowMode playCmd)
  onlyIf (playCmd = playCmdFinite) do
    let itemSize ← orThrow (getBytesPerItem c (s.buffers.type .play))
    modify fun s => { s with numWords := cmd.numSamps * itemSize % 2 ^ 64 / c.wordSize }
  modify (poke c cmd playCmd spaces)

/-- The command of `play`, with no number of iterations where it is repeated until it is stopped. -/
def playCommand (c : Config) (size : ℕ) (iterations ticks : Option ℕ) (s : Block) :
    Except UhdError StreamCmd :=
  match iterations with
  | none => .ok { mode := .startContinuous, ticks }
  | some n => (getBytesPerItem c (s.buffers.type .play)).map fun itemSize =>
      { mode := .numSampsAndDone, numSamps := n * size % 2 ^ 64 / itemSize, ticks }

/-- `play` -/
def play (c : Config) (offset size : ℕ) (iterations ticks : Option ℕ)
    (first second : List GraphStep) (outcome : Except UhdError PUnit) (spaces : ℕ) :
    EStateM UhdError Block PUnit := do
  configPlay c offset size false first second outcome
  let s ← get
  let cmd ← orThrow (s.playCommand c size iterations ticks)
  issueStreamCmd c cmd spaces

/-- `stop` -/
def stop (c : Config) (spaces : ℕ) : EStateM UhdError Block PUnit :=
  issueStreamCmd c { mode := .stopContinuous } spaces

end Block

/-- The block as it is constructed, where the register says how many commands there is room for. -/
def construct (c : Config) (spaces : ℕ) : Except UhdError Block :=
  (getBytesPerItem c "sc16").bind fun itemSize =>
    (initProps (resolvers c)
      { type := fun _ => "sc16"
        value := fun _ => ⟨0, c.memSize⟩
        dirty := fun _ => true
        regs := fun _ => ⟨0, c.memSize⟩
        playItemSize := itemSize % 2 ^ 32 }).map fun buffers =>
      { buffers, cmdFifoSpaces := if c.fpgaCompat ≥ 0x00010001 then spaces else 0 }

/-! ## Calls -/

/-- A call, with what the graph does during it.  Setting a property stands for `set_record_type` and
`set_play_type`, and for what is set elsewhere in the graph. -/
inductive Call where
  | record (offset size : ℕ) (first second : List GraphStep)
  | recordRestart
  | configPlay (offset size : ℕ) (followMode : Bool) (first second : List GraphStep)
      (outcome : Except UhdError PUnit)
  | play (offset size : ℕ) (iterations ticks : Option ℕ) (first second : List GraphStep)
      (outcome : Except UhdError PUnit) (spaces : ℕ)
  | stop (spaces : ℕ)
  | issueStreamCmd (cmd : StreamCmd) (spaces : ℕ)
  | setProperty (assignment : Assignment) (steps : List GraphStep)

namespace Call

def run (c : Config) : Call → EStateM UhdError Block PUnit
  | .record offset size first second => Block.record c offset size first second
  | .recordRestart => Block.recordRestart c
  | .configPlay offset size followMode first second outcome =>
    Block.configPlay c offset size followMode first second outcome
  | .play offset size iterations ticks first second outcome spaces =>
    Block.play c offset size iterations ticks first second outcome spaces
  | .stop spaces => Block.stop c spaces
  | .issueStreamCmd cmd spaces => Block.issueStreamCmd c cmd spaces
  | .setProperty assignment steps => Block.setProperty c assignment steps

/-- The block after a call, whether it returned or threw. -/
def after (c : Config) (s : Block) (call : Call) : Option Block := some (stateAfter (call.run c s))

/-- The buffer that a command is for. -/
def side : Call → Option Side
  | .record _ _ _ _ => some .record
  | .recordRestart => some .record
  | .configPlay _ _ _ _ _ _ => some .play
  | .play _ _ _ _ _ _ _ _ => some .play
  | .stop _ => some .play
  | .issueStreamCmd _ _ => some .play
  | .setProperty _ _ => none

end Call

/-! ## What is claimed -/

/-- A size is whole items of a type. -/
def WholeItems (c : Config) (type : String) (size : ℕ) : Prop :=
  ∀ n, getBytesPerItem c type = .ok n → n ∣ size

/-- The item size in the register is that of the type; only the play buffer has such a register. -/
def ItemSizeHeld (c : Config) (b : Buffers) : Side → Prop
  | .record => True
  | .play => ∀ n, getBytesPerItem c (b.type .play) = .ok n → b.playItemSize = n % 2 ^ 32

/-- **A region is in order**: the registers hold one that lies in the memory, and is whole words and
whole items, of the item size in force. -/
structure InMemory (c : Config) (side : Side) (b : Buffers) : Prop where
  within : (b.regs side).offset + (b.regs side).size ≤ c.memSize
  words : c.wordSize ∣ (b.regs side).size
  items : WholeItems c (b.type side) (b.regs side).size
  itemSize : ItemSizeHeld c b side

/-- **What is claimed for a call**: if it is accepted, the region it programs is in order. -/
def Programs (c : Config) (s : Block) (call : Call) : Prop :=
  ∀ side, call.side = some side → ∀ t, Returns (call.run c) s PUnit.unit t →
    InMemory c side t.buffers

/-! ## The condition -/

/-- The register of a property holds its value. -/
def Holds (c : Config) (b : Buffers) : BufferProp → Prop
  | .offset side => (b.regs side).offset = (b.value side).offset
  | .size side => (b.regs side).size = (b.value side).size
  | .type side => ItemSizeHeld c b side

/-- The buffer that a property is of. -/
def BufferProp.side : BufferProp → Side
  | .offset side => side
  | .size side => side
  | .type side => side

/-- No call has failed with a property of a buffer that did not get into its register. -/
def NonePending (c : Config) (side : Side) (b : Buffers) : Prop :=
  ∀ p : BufferProp, p.side = side → b.dirty p = true → Holds c b p

/-- The sum that is checked is within the memory. -/
def SumChecks (c : Config) (region : Region) : Prop :=
  (region.offset + region.size) % 2 ^ 64 ≤ c.memSize

/-- What is checked of a region that is given to a command. -/
structure Checks (c : Config) (region : Region) : Prop where
  offset : c.wordSize ∣ region.offset
  inside : region.offset ≤ c.memSize
  size : c.wordSize ∣ region.size
  sum : SumChecks c region

/-- The sum of offset and size does not wrap around. -/
def NoWrap (region : Region) : Prop := region.offset + region.size < 2 ^ 64

/-- The type of the items after what a graph does. -/
def typeAfter (side : Side) : List GraphStep → String → String
  | [], type => type
  | .forwardType side' type' :: steps, type =>
    typeAfter side steps (if side' = side then type' else type)
  | .resolve _ :: steps, type => typeAfter side steps type
  | .interrupt _ _ :: steps, type => typeAfter side steps type
  | .throws _ :: steps, type => typeAfter side steps type

/-- **The condition for a call.**  Where the checks pass the sum does not wrap around, nothing is
pending that the command relies on, and what is recorded into is whole items. -/
def Meets (c : Config) (s : Block) : Call → Prop
  | .record offset size first second => Checks c ⟨offset, size⟩ →
      NoWrap ⟨offset, size⟩ ∧
        WholeItems c (typeAfter .record (first ++ second) (s.buffers.type .record)) size
  | .recordRestart => SumChecks c (s.buffers.value .record) →
      NoWrap (s.buffers.value .record) ∧ NonePending c .record s.buffers ∧
        WholeItems c (s.buffers.type .record) (s.buffers.value .record).size
  | .configPlay offset size _ _ _ _ => Checks c ⟨offset, size⟩ → NoWrap ⟨offset, size⟩
  | .play offset size _ _ _ _ _ _ => Checks c ⟨offset, size⟩ → NoWrap ⟨offset, size⟩
  | .stop _ => SumChecks c (s.buffers.value .play) →
      NoWrap (s.buffers.value .play) ∧ NonePending c .play s.buffers
  | .issueStreamCmd _ _ => SumChecks c (s.buffers.value .play) →
      NoWrap (s.buffers.value .play) ∧ NonePending c .play s.buffers
  | .setProperty _ _ => True

/-! ## What the resolvers do -/

section Resolvers

variable {c : Config} {locked : BufferProp → Bool} {b t : Buffers} {e : UhdError}
  {r : DirtyLoop.Resolver BufferProp Buffers (UhdError × Buffers)} {p q : BufferProp}

/-- **What a resolver that returns has done** for its property. -/
inductive Put (c : Config) (b : Buffers) : BufferProp → Buffers → Prop where
  | offset (side : Side) (hword : c.wordSize ∣ (b.value side).offset)
      (hinside : (b.value side).offset ≤ c.memSize) : Put c b (.offset side) (b.pokeOffset side)
  | size (side : Side) (hword : c.wordSize ∣ (b.value side).size) :
      Put c b (.size side) (b.pokeSize side)
  | itemSize (n : ℕ) (hn : getBytesPerItem c (b.type .play) = .ok n) :
      Put c b (.type .play) (b.pokeItemSize n)

theorem put_of_putOffset {side : Side} (h : b.putOffset c side locked = .ok t) :
    Put c b (.offset side) t := by
  rw [Buffers.putOffset] at h
  split_ifs at h with hword hinside
  rw [← Except.ok.inj h]
  exact .offset side (Nat.dvd_of_mod_eq_zero (not_not.mp hword)) (not_lt.mp hinside)

theorem rejectSize_ne_ok (side : Side) (unit : ℕ) (what : String) (locked : BufferProp → Bool)
    (b t : Buffers) : b.rejectSize side unit what locked ≠ .ok t := by
  intro h
  rw [Buffers.rejectSize] at h
  split_ifs at h

theorem put_of_run (hr : r ∈ resolvers c) (h : r.run locked b = .ok t) :
    ∃ p, r.inputs = [p] ∧ Put c b p t := by
  rw [resolvers, List.mem_cons, List.mem_cons, List.mem_cons, List.mem_cons, List.mem_singleton]
    at hr
  rcases hr with rfl | rfl | rfl | rfl | rfl
  · have hrun : b.putOffset c .record locked = .ok t := h
    exact ⟨_, rfl, put_of_putOffset hrun⟩
  · refine ⟨_, rfl, ?_⟩
    have hrun : b.setRecordSize c locked = .ok t := h
    rw [Buffers.setRecordSize] at hrun
    split_ifs at hrun with hword
    · exact absurd hrun (rejectSize_ne_ok _ _ _ _ _ _)
    · rw [← Except.ok.inj hrun]
      exact .size .record (Nat.dvd_of_mod_eq_zero (not_not.mp hword))
  · refine ⟨_, rfl, ?_⟩
    have hrun : b.setPlayType c locked = .ok t := h
    rw [Buffers.setPlayType] at hrun
    cases hn : getBytesPerItem c (b.type .play) with
    | error e =>
      rw [hn] at hrun
      cases hrun
    | ok n =>
      rw [hn] at hrun
      rw [← Except.ok.inj hrun]
      exact .itemSize n hn
  · have hrun : b.putOffset c .play locked = .ok t := h
    exact ⟨_, rfl, put_of_putOffset hrun⟩
  · refine ⟨_, rfl, ?_⟩
    have hrun : b.setPlaySize c locked = .ok t := h
    rw [Buffers.setPlaySize] at hrun
    split_ifs at hrun with hword
    · exact absurd hrun (rejectSize_ne_ok _ _ _ _ _ _)
    · cases hn : getBytesPerItem c (b.type .play) with
      | error e =>
        rw [hn] at hrun
        cases hrun
      | ok n =>
        rw [hn] at hrun
        by_cases hitem : (b.value .play).size % n ≠ 0
        · have hreject := (if_pos hitem).symm.trans hrun
          exact absurd hreject (rejectSize_ne_ok _ _ _ _ _ _)
        · have hpoke := (if_neg hitem).symm.trans hrun
          rw [← Except.ok.inj hpoke]
          exact .size .play (Nat.dvd_of_mod_eq_zero (not_not.mp hword))

theorem rejectSize_eq_error {side : Side} {unit : ℕ} {what : String}
    (h : b.rejectSize side unit what locked = .error (e, t)) :
    t = b ∨ ∃ v, locked (.size side) = false ∧ t = b.setSize side v := by
  rw [Buffers.rejectSize] at h
  split_ifs at h with hlocked
  · exact Or.inl (Prod.ext_iff.mp (Except.error.inj h)).2.symm
  · exact Or.inl (Prod.ext_iff.mp (Except.error.inj h)).2.symm
  · exact Or.inr ⟨_, Bool.eq_false_iff.mpr hlocked, (Prod.ext_iff.mp (Except.error.inj h)).2.symm⟩

theorem putOffset_eq_error {side : Side} (h : b.putOffset c side locked = .error (e, t)) :
    t = b := by
  rw [Buffers.putOffset] at h
  split_ifs at h
  · exact (Prod.ext_iff.mp (Except.error.inj h)).2.symm
  · exact (Prod.ext_iff.mp (Except.error.inj h)).2.symm

theorem error_of_run (hr : r ∈ resolvers c) (h : r.run locked b = .error (e, t)) :
    t = b ∨ ∃ side v, r.outputs = [.size side] ∧ locked (.size side) = false ∧
      t = b.setSize side v := by
  rw [resolvers, List.mem_cons, List.mem_cons, List.mem_cons, List.mem_cons, List.mem_singleton]
    at hr
  rcases hr with rfl | rfl | rfl | rfl | rfl
  · have hrun : b.putOffset c .record locked = .error (e, t) := h
    exact Or.inl (putOffset_eq_error hrun)
  · have hrun : b.setRecordSize c locked = .error (e, t) := h
    rw [Buffers.setRecordSize] at hrun
    split_ifs at hrun
    rcases rejectSize_eq_error hrun with hsame | ⟨v, hlocked, hsize⟩
    · exact Or.inl hsame
    · exact Or.inr ⟨.record, v, rfl, hlocked, hsize⟩
  · left
    have hrun : b.setPlayType c locked = .error (e, t) := h
    rw [Buffers.setPlayType] at hrun
    cases hn : getBytesPerItem c (b.type .play) with
    | error e' =>
      rw [hn] at hrun
      exact (Prod.ext_iff.mp (Except.error.inj hrun)).2.symm
    | ok n =>
      rw [hn] at hrun
      cases hrun
  · have hrun : b.putOffset c .play locked = .error (e, t) := h
    exact Or.inl (putOffset_eq_error hrun)
  · have hrun : b.setPlaySize c locked = .error (e, t) := h
    have hreject : ∀ unit what, b.rejectSize .play unit what locked = .error (e, t) →
        t = b ∨ ∃ side v, [BufferProp.size .play] = [.size side] ∧ locked (.size side) = false ∧
          t = b.setSize side v := by
      intro unit what hrejected
      rcases rejectSize_eq_error hrejected with hsame | ⟨v, hlocked, hsize⟩
      · exact Or.inl hsame
      · exact Or.inr ⟨.play, v, rfl, hlocked, hsize⟩
    rw [Buffers.setPlaySize] at hrun
    split_ifs at hrun
    · exact hreject _ _ hrun
    · cases hn : getBytesPerItem c (b.type .play) with
      | error e' =>
        rw [hn] at hrun
        exact Or.inl (Prod.ext_iff.mp (Except.error.inj hrun)).2.symm
      | ok n =>
        rw [hn] at hrun
        by_cases hitem : (b.value .play).size % n ≠ 0
        · exact hreject _ _ ((if_pos hitem).symm.trans hrun)
        · cases (if_neg hitem).symm.trans hrun

theorem exists_resolver (hp : p ≠ .type .record) :
    ∃ r ∈ resolvers c, p ∈ r.inputs := by
  rcases p with (_ | _) | (_ | _) | (_ | _)
  · exact ⟨_, List.mem_cons_self, List.mem_cons_self⟩
  · exact ⟨_, List.mem_of_getElem? (rfl : (resolvers c)[3]? = some _), List.mem_cons_self⟩
  · exact ⟨_, List.mem_of_getElem? (rfl : (resolvers c)[1]? = some _), List.mem_cons_self⟩
  · exact ⟨_, List.mem_of_getElem? (rfl : (resolvers c)[4]? = some _), List.mem_cons_self⟩
  · exact absurd rfl hp
  · exact ⟨_, List.mem_of_getElem? (rfl : (resolvers c)[2]? = some _), List.mem_cons_self⟩

end Resolvers

/-! ## The invariant -/

section Invariant

variable {c : Config} {b t : Buffers} {p q : BufferProp} {side : Side}

/-- **What the registers of a buffer hold at any time**: an offset within the memory, and whole
words. -/
structure Sound (c : Config) (region : Region) : Prop where
  offset : c.wordSize ∣ region.offset
  inside : region.offset ≤ c.memSize
  size : c.wordSize ∣ region.size

/-- **The invariant.**  The registers are sound, and hold all that is not dirty. -/
structure Inv (c : Config) (b : Buffers) : Prop where
  sound : ∀ side, Sound c (b.regs side)
  holds : ∀ p, b.dirty p = false → Holds c b p

theorem Put.unchanged (h : Put c b p t) :
    t.type = b.type ∧ t.value = b.value ∧ t.dirty = b.dirty := by
  cases h with
  | offset side => exact ⟨rfl, rfl, rfl⟩
  | size side => exact ⟨rfl, rfl, rfl⟩
  | itemSize n => exact ⟨rfl, rfl, rfl⟩

theorem Put.holds_self (h : Put c b p t) : Holds c t p := by
  cases h with
  | offset side =>
    show (Function.update b.regs side _ side).offset = _
    rw [Function.update_self]
    rfl
  | size side =>
    show (Function.update b.regs side _ side).size = _
    rw [Function.update_self]
    rfl
  | itemSize n hn =>
    intro m hm
    have hsame : n = m := Except.ok.inj (hn.symm.trans hm)
    rw [← hsame]
    rfl

theorem Put.holds (h : Put c b p t) (hq : Holds c b q) : Holds c t q := by
  by_cases hpq : q = p
  · rw [hpq]
    exact h.holds_self
  · cases h with
    | offset side =>
      cases q with
      | offset side' =>
        have hne : side' ≠ side := fun heq => hpq (congrArg _ heq)
        show (Function.update b.regs side _ side').offset = _
        rw [Function.update_of_ne hne]
        exact hq
      | size side' =>
        show (Function.update b.regs side _ side').size = _
        by_cases heq : side' = side
        · rw [heq, Function.update_self]
          rw [heq] at hq
          exact hq
        · rw [Function.update_of_ne heq]
          exact hq
      | type side' => exact hq
    | size side =>
      cases q with
      | offset side' =>
        show (Function.update b.regs side _ side').offset = _
        by_cases heq : side' = side
        · rw [heq, Function.update_self]
          rw [heq] at hq
          exact hq
        · rw [Function.update_of_ne heq]
          exact hq
      | size side' =>
        have hne : side' ≠ side := fun heq => hpq (congrArg _ heq)
        show (Function.update b.regs side _ side').size = _
        rw [Function.update_of_ne hne]
        exact hq
      | type side' => exact hq
    | itemSize n hn =>
      cases q with
      | offset side' => exact hq
      | size side' => exact hq
      | type side' =>
        cases side' with
        | record => trivial
        | play => exact absurd rfl hpq

theorem Put.sound (h : Put c b p t) (hb : ∀ side, Sound c (b.regs side)) :
    ∀ side, Sound c (t.regs side) := by
  cases h with
  | offset side hword hinside =>
    exact (Function.forall_update_iff b.regs fun _ region => Sound c region).mpr
      ⟨⟨hword, hinside, (hb side).size⟩, fun side' _ => hb side'⟩
  | size side hword =>
    exact (Function.forall_update_iff b.regs fun _ region => Sound c region).mpr
      ⟨⟨(hb side).offset, (hb side).inside, hword⟩, fun side' _ => hb side'⟩
  | itemSize n => exact hb

theorem Put.inv (h : Put c b p t) (hb : Inv c b) : Inv c t where
  sound := h.sound hb.sound
  holds q hq := by
    rw [h.unchanged.2.2] at hq
    exact h.holds (hb.holds q hq)

theorem dirty_update {dirty : BufferProp → Bool} {changed : Prop} [Decidable changed]
    (h : Function.update dirty p (dirty p || decide changed) q = false) :
    dirty q = false ∧ (q = p → ¬ changed) := by
  by_cases hq : q = p
  · rw [hq, Function.update_self, Bool.or_eq_false_iff, decide_eq_false_iff_not] at h
    rw [hq]
    exact ⟨h.1, fun _ => h.2⟩
  · rw [Function.update_of_ne hq] at h
    exact ⟨h, fun heq => absurd heq hq⟩

theorem Inv.setOffset (hb : Inv c b) (side : Side) (v : ℕ) : Inv c (b.setOffset side v) where
  sound := hb.sound
  holds q hq := by
    obtain ⟨hclean, hsame⟩ := dirty_update hq
    have hold := hb.holds q hclean
    cases q with
    | offset side' =>
      show _ = (Function.update b.value side _ side').offset
      by_cases heq : side' = side
      · rw [heq, Function.update_self]
        rw [heq] at hold hsame
        exact hold.trans (not_not.mp (hsame rfl))
      · rw [Function.update_of_ne heq]
        exact hold
    | size side' =>
      show _ = (Function.update b.value side _ side').size
      by_cases heq : side' = side
      · rw [heq, Function.update_self]
        rw [heq] at hold
        exact hold
      · rw [Function.update_of_ne heq]
        exact hold
    | type side' => exact hold

theorem Inv.setSize (hb : Inv c b) (side : Side) (v : ℕ) : Inv c (b.setSize side v) where
  sound := hb.sound
  holds q hq := by
    obtain ⟨hclean, hsame⟩ := dirty_update hq
    have hold := hb.holds q hclean
    cases q with
    | offset side' =>
      show _ = (Function.update b.value side _ side').offset
      by_cases heq : side' = side
      · rw [heq, Function.update_self]
        rw [heq] at hold
        exact hold
      · rw [Function.update_of_ne heq]
        exact hold
    | size side' =>
      show _ = (Function.update b.value side _ side').size
      by_cases heq : side' = side
      · rw [heq, Function.update_self]
        rw [heq] at hold hsame
        exact hold.trans (not_not.mp (hsame rfl))
      · rw [Function.update_of_ne heq]
        exact hold
    | type side' => exact hold

theorem Inv.setType (hb : Inv c b) (side : Side) (v : String) : Inv c (b.setType side v) where
  sound := hb.sound
  holds q hq := by
    obtain ⟨hclean, hsame⟩ := dirty_update hq
    have hold := hb.holds q hclean
    cases q with
    | offset side' => exact hold
    | size side' => exact hold
    | type side' =>
      cases side' with
      | record => trivial
      | play =>
        intro n hn
        have htype : Function.update b.type side v .play = b.type .play := by
          by_cases heq : side = .play
          · subst heq
            rw [Function.update_self]
            exact (not_not.mp (hsame rfl)).symm
          · exact Function.update_of_ne (Ne.symm heq) _ _
        have hn' : getBytesPerItem c (Function.update b.type side v .play) = .ok n := hn
        rw [htype] at hn'
        exact hold n hn'

theorem Inv.assign (hb : Inv c b) (assignment : Assignment) : Inv c (assignment.run b) := by
  cases assignment with
  | offset side v => exact hb.setOffset side v
  | size side v => exact hb.setSize side v
  | type side v => exact hb.setType side v
  | other => exact hb

end Invariant

/-! ## Resolving -/

section Resolving

variable {c : Config} {b t : Buffers} {p : BufferProp} {order : List BufferProp} {e : UhdError}

theorem resolveLoop_ne_none (c : Config) (todo : List BufferProp) (b : Buffers) :
    DirtyLoop.resolveLoop Buffers.dirty (resolvers c) (todo.length + 6 * 3) todo [] [] b ≠ none :=
  DirtyLoop.resolveLoop_ne_none List.nodup_nil le_rfl

theorem resolveLoop_of_resolveProps {outcome : Outcome Buffers}
    (h : resolveProps c order b = outcome) :
    DirtyLoop.resolveLoop Buffers.dirty (resolvers c) ((order.filter b.dirty).length + 6 * 3)
      (order.filter b.dirty) [] [] b = some outcome := by
  have hends := resolveLoop_ne_none c (order.filter b.dirty) b
  rw [resolveProps] at h
  cases hloop : DirtyLoop.resolveLoop Buffers.dirty (resolvers c)
      ((order.filter b.dirty).length + 6 * 3) (order.filter b.dirty) [] [] b with
  | none => exact absurd hloop hends
  | some outcome' =>
    rw [hloop] at h
    rw [← h]

theorem resolveProps_eq_ok (hb : Inv c b) (h : resolveProps c order b = .ok t) :
    Inv c t ∧ t.type = b.type ∧ t.value = b.value ∧ ∀ p ∈ order, Holds c t p := by
  have hloop := resolveLoop_of_resolveProps h
  have hput : ∀ r ∈ resolvers c, ∀ locked u v, r.run locked u = .ok v →
      ∃ p, r.inputs = [p] ∧ Put c u p v := fun r hr locked u v hrun => put_of_run hr hrun
  have hkept : Inv c t ∧ t.type = b.type ∧ t.value = b.value :=
    DirtyLoop.resolveLoop_keeps (J := fun u => Inv c u ∧ u.type = b.type ∧ u.value = b.value)
      (fun r hr locked u v hu hrun => by
        obtain ⟨p, -, hv⟩ := hput r hr locked u v hrun
        obtain ⟨htype, hvalue, -⟩ := hv.unchanged
        exact ⟨hv.inv hu.1, htype.trans hu.2.1, hvalue.trans hu.2.2⟩) ⟨hb, rfl, rfl⟩ hloop
  refine ⟨hkept.1, hkept.2.1, hkept.2.2, fun p hp => ?_⟩
  have hholds : ∀ r ∈ resolvers c, ∀ locked u v, Holds c u p → r.run locked u = .ok v →
      Holds c v p := by
    intro r hr locked u v hu hrun
    obtain ⟨q, -, hv⟩ := hput r hr locked u v hrun
    exact hv.holds hu
  cases hdirty : b.dirty p with
  | false =>
    exact DirtyLoop.resolveLoop_keeps (J := fun u => Holds c u p) hholds (hb.holds p hdirty) hloop
  | true =>
    by_cases hrecord : p = .type .record
    · rw [hrecord]
      trivial
    · obtain ⟨r, hr, hin⟩ := exists_resolver (c := c) hrecord
      refine DirtyLoop.resolveLoop_reaches (J := fun _ => True) (K := fun u => Holds c u p)
        (fun _ _ _ _ _ _ _ => trivial)
        (fun r hr locked u v _ hu hrun => hholds r hr locked u v hu hrun)
        ⟨r, hr, hin, fun locked u v _ hrun => ?_⟩ trivial
        (List.mem_filter.mpr ⟨hp, hdirty⟩) List.not_mem_nil hloop
      obtain ⟨q, hq, hv⟩ := hput r hr locked u v hrun
      rw [hq] at hin
      rw [List.mem_singleton.mp hin]
      exact hv.holds_self

theorem resolveProps_eq_error (hb : Inv c b) (h : resolveProps c order b = .error (e, t)) :
    Inv c t := by
  refine DirtyLoop.resolveLoop_fails (J := Inv c) (E := fun failed => Inv c failed.2)
    (fun r hr locked u v hu hrun => ?_) (fun r hr locked u failed hu hrun => ?_) hb
    (resolveLoop_of_resolveProps h)
  · obtain ⟨p, -, hv⟩ := put_of_run hr hrun
    exact hv.inv hu
  · rcases error_of_run (e := failed.1) (t := failed.2) hr hrun with hsame | ⟨side, v, -, -, hsize⟩
    · rw [hsame]
      exact hu
    · rw [hsize]
      exact hu.setSize side v

theorem inv_clean (hb : Inv c b) (hholds : ∀ p, Holds c b p) : Inv c b.clean where
  sound := hb.sound
  holds p _ := hholds p

/-- What holds of what is left, by a return or an exception. -/
def After {σ : Type} (P : σ → Prop) : Outcome σ → Prop
  | .ok s => P s
  | .error (_, s) => P s

theorem After.bind {σ : Type} {P : σ → Prop} {outcome : Outcome σ} {f : σ → Outcome σ}
    (h : After P outcome) (hf : ∀ s, outcome = .ok s → P s → After P (f s)) :
    After P (outcome.bind f) := by
  cases outcome with
  | ok s => exact hf s rfl h
  | error failed => exact h

theorem after_resolveProps (hb : Inv c b) (order : List BufferProp) :
    After (Inv c) (resolveProps c order b) := by
  cases h : resolveProps c order b with
  | ok t => exact (resolveProps_eq_ok hb h).1
  | error failed => exact resolveProps_eq_error (e := failed.1) (t := failed.2) hb h

theorem GraphStep.after_run (hb : Inv c b) (step : GraphStep) : After (Inv c) (step.run c b) := by
  cases step with
  | forwardType side type => exact hb.setType side type
  | resolve order =>
    show After (Inv c) ((resolveProps c order.1 b).map Buffers.clean)
    cases h : resolveProps c order.1 b with
    | ok t =>
      obtain ⟨hinv, -, -, hholds⟩ := resolveProps_eq_ok hb h
      exact inv_clean hinv fun p => hholds p (order.2 p)
    | error failed => exact resolveProps_eq_error (e := failed.1) (t := failed.2) hb h
  | interrupt order e => exact (after_resolveProps hb order).bind fun s _ hs => hs
  | throws e => exact hb

theorem after_resolveAll (steps : List GraphStep) (hb : Inv c b) :
    After (Inv c) (resolveAll c steps b) := by
  induction steps generalizing b with
  | nil =>
    rw [resolveAll]
    split_ifs
    · exact hb
    · exact hb
  | cons step steps ih => exact (step.after_run hb).bind fun s _ hs => ih hs

/-- **What the graph has done when it returns**: nothing is dirty, the types are those that were
forwarded, and the regions are those that were set. -/
theorem resolveAll_eq_ok (steps : List GraphStep) (hb : Inv c b)
    (h : resolveAll c steps b = .ok t) :
    (∀ p, Holds c t p) ∧ (∀ side, t.type side = typeAfter side steps (b.type side)) ∧
      t.value = b.value := by
  have hafter := after_resolveAll steps hb
  rw [h] at hafter
  induction steps generalizing b with
  | nil =>
    rw [resolveAll] at h
    split_ifs at h with hdirty
    have heq := Except.ok.inj h
    rw [← heq]
    refine ⟨fun p => hb.holds p ?_, fun side => rfl, rfl⟩
    rw [Bool.eq_false_iff]
    exact fun hp => hdirty ⟨p, hp⟩
  | cons step steps ih =>
    have hbind : (step.run c b).bind (resolveAll c steps) = .ok t := h
    have hrun := step.after_run hb
    cases hstep : step.run c b with
    | error failed =>
      rw [hstep] at hbind
      cases hbind
    | ok u =>
      rw [hstep] at hbind hrun
      obtain ⟨hholds, htype, hvalue⟩ := ih hrun hbind
      cases step with
      | forwardType side' type =>
        rw [← Except.ok.inj hstep] at htype hvalue
        refine ⟨hholds, fun side => ?_, hvalue⟩
        rw [htype side, typeAfter]
        congr 1
        show Function.update b.type side' type side = _
        by_cases heq : side = side'
        · rw [heq, Function.update_self, if_pos rfl]
        · rw [Function.update_of_ne heq, if_neg (Ne.symm heq)]
      | resolve order =>
        have hmap : (resolveProps c order.1 b).map Buffers.clean = .ok u := hstep
        cases hres : resolveProps c order.1 b with
        | ok v =>
          rw [hres] at hmap
          obtain ⟨-, htype', hvalue', -⟩ := resolveProps_eq_ok hb hres
          rw [← Except.ok.inj hmap] at htype hvalue
          refine ⟨hholds, fun side => ?_, hvalue.trans hvalue'⟩
          rw [htype side, typeAfter, ← htype']
          rfl
        | error failed =>
          rw [hres] at hmap
          cases hmap
      | interrupt order e =>
        have hinterrupt : (resolveProps c order b).bind (fun b => .error (e, b)) = .ok u := hstep
        cases hres : resolveProps c order b with
        | ok v =>
          rw [hres] at hinterrupt
          cases hinterrupt
        | error failed =>
          rw [hres] at hinterrupt
          cases hinterrupt
      | throws e => cases hstep

end Resolving

/-! ## The commands -/

section Commands

variable {c : Config} {s t u v : Block} {side : Side} {assignment : Assignment}
  {steps first second : List GraphStep} {cmd : StreamCmd} {spaces : ℕ} {r : PUnit}

/-- The invariant, of a block. -/
def BlockInv (c : Config) (s : Block) : Prop := Inv c s.buffers

theorem onBuffers_of_ok {f : Buffers → Outcome Buffers} {b : Buffers}
    (h : f s.buffers = .ok b) :
    Block.onBuffers f s = .ok PUnit.unit { s with buffers := b } := by
  rw [Block.onBuffers, h]

theorem onBuffers_of_error {f : Buffers → Outcome Buffers} {e : UhdError} {b : Buffers}
    (h : f s.buffers = .error (e, b)) : Block.onBuffers f s = .error e { s with buffers := b } := by
  rw [Block.onBuffers, h]

theorem keeps_setProperty (c : Config) (assignment : Assignment) (steps : List GraphStep) :
    Keeps (BlockInv c) (Block.setProperty c assignment steps) := by
  intro s hs
  have hafter := after_resolveAll steps (Inv.assign hs assignment)
  rw [Block.setProperty]
  cases h : resolveAll c steps (assignment.run s.buffers) with
  | ok b =>
    rw [h] at hafter
    rw [onBuffers_of_ok h]
    exact hafter
  | error failed =>
    rw [h] at hafter
    rw [onBuffers_of_error (e := failed.1) (b := failed.2) h]
    exact hafter

theorem returns_setProperty (hs : BlockInv c s)
    (h : Returns (Block.setProperty c assignment steps) s r t) :
    BlockInv c t ∧ (∀ p, Holds c t.buffers p) ∧
      (∀ side, t.buffers.type side = typeAfter side steps ((assignment.run s.buffers).type side)) ∧
      t.buffers.value = (assignment.run s.buffers).value := by
  refine ⟨(keeps_setProperty c assignment steps).of_returns hs h, ?_⟩
  rw [Returns, Block.setProperty] at h
  cases hall : resolveAll c steps (assignment.run s.buffers) with
  | ok b =>
    rw [onBuffers_of_ok hall] at h
    injection h with _ ht
    rw [← ht]
    exact resolveAll_eq_ok steps (Inv.assign hs assignment) hall
  | error failed =>
    rw [onBuffers_of_error (e := failed.1) (b := failed.2) hall] at h
    cases h

theorem typeAfter_append (side : Side) (first second : List GraphStep) (type : String) :
    typeAfter side (first ++ second) type = typeAfter side second (typeAfter side first type) := by
  induction first generalizing type with
  | nil => rfl
  | cons step first ih =>
    cases step with
    | forwardType side' type' => exact ih _
    | resolve order => exact ih _
    | interrupt order e => exact ih _
    | throws e => exact ih _

theorem returns_setRegion (hs : BlockInv c s) {offset size : ℕ}
    (hoffset : Returns (Block.setProperty c (.offset side offset) first) s r u)
    (hsize : Returns (Block.setProperty c (.size side size) second) u r v) :
    BlockInv c v ∧ (∀ p, Holds c v.buffers p) ∧ v.buffers.value side = ⟨offset, size⟩ ∧
      v.buffers.type side = typeAfter side (first ++ second) (s.buffers.type side) := by
  obtain ⟨hu, -, htypeU, hvalueU⟩ := returns_setProperty hs hoffset
  obtain ⟨hv, hholds, htypeV, hvalueV⟩ := returns_setProperty hu hsize
  refine ⟨hv, hholds, ?_, ?_⟩
  · rw [hvalueV]
    show Function.update u.buffers.value side { u.buffers.value side with size } side = _
    rw [Function.update_self, hvalueU]
    show Region.mk (Function.update s.buffers.value side { s.buffers.value side with offset }
      side).offset size = _
    rw [Function.update_self]
  · rw [htypeV, typeAfter_append]
    exact congrArg _ (htypeU side)

theorem keeps_issueStreamCmd (c : Config) (cmd : StreamCmd) (spaces : ℕ) (b : Buffers) :
    Keeps (fun s => s.buffers = b) (Block.issueStreamCmd c cmd spaces) := by
  refine keeps_bind (keeps_get _) fun s => keeps_bind (keeps_orThrow _ _) fun _ =>
    keeps_bind (keeps_orThrow _ _) fun playCmd => keeps_bind ?_ fun _ =>
      keeps_bind (keeps_orThrow _ _) fun _ => keeps_bind ?_ fun _ => keeps_modify fun _ ht => ht
  · refine keeps_bind (keeps_get _) fun t => keeps_onlyIf fun _ =>
      keeps_bind (keeps_modify fun _ ht => ht) fun _ => keeps_onlyIf fun _ => keeps_throw _ _
  · exact keeps_onlyIf fun _ => keeps_bind (keeps_orThrow _ _) fun _ => keeps_modify fun _ ht => ht

theorem keeps_recordRestart (c : Config) (b : Buffers) :
    Keeps (fun s => s.buffers = b) (Block.recordRestart c) :=
  keeps_bind (keeps_get _) fun _ => keeps_bind (keeps_orThrow _ _) fun _ =>
    keeps_modify fun _ ht => ht

theorem keeps_setFollowMode (followMode : Bool) (outcome : Except UhdError PUnit) (b : Buffers) :
    Keeps (fun s => s.buffers = b) (Block.setFollowMode followMode outcome) :=
  keeps_bind (keeps_modify fun _ ht => ht) fun _ => keeps_orThrow _ _

theorem keeps_of_buffers {α : Type} {x : EStateM UhdError Block α}
    (h : ∀ b, Keeps (fun s => s.buffers = b) x) : Keeps (BlockInv c) x := by
  intro s hs
  have hsame : (stateAfter (x s)).buffers = s.buffers := h s.buffers s rfl
  rw [BlockInv, hsame]
  exact hs

theorem keeps_configPlay (c : Config) (offset size : ℕ) (followMode : Bool)
    (first second : List GraphStep) (outcome : Except UhdError PUnit) :
    Keeps (BlockInv c) (Block.configPlay c offset size followMode first second outcome) :=
  keeps_bind (keeps_setProperty c _ first) fun _ =>
    keeps_bind (keeps_setProperty c _ second) fun _ => keeps_bind (keeps_get _) fun _ =>
      keeps_bind (keeps_orThrow _ _) fun _ =>
        keeps_of_buffers (keeps_setFollowMode followMode outcome)

theorem keeps_run (c : Config) (call : Call) : Keeps (BlockInv c) (call.run c) := by
  cases call with
  | record offset size first second =>
    exact keeps_bind (keeps_setProperty c _ first) fun _ =>
      keeps_bind (keeps_setProperty c _ second) fun _ => keeps_of_buffers (keeps_recordRestart c)
  | recordRestart => exact keeps_of_buffers (keeps_recordRestart c)
  | configPlay offset size followMode first second outcome =>
    exact keeps_configPlay c offset size followMode first second outcome
  | play offset size iterations ticks first second outcome spaces =>
    exact keeps_bind (keeps_configPlay c offset size false first second outcome) fun _ =>
      keeps_bind (keeps_get _) fun _ => keeps_bind (keeps_orThrow _ _) fun cmd =>
        keeps_of_buffers (keeps_issueStreamCmd c cmd spaces)
  | stop spaces => exact keeps_of_buffers (keeps_issueStreamCmd c _ spaces)
  | issueStreamCmd cmd spaces => exact keeps_of_buffers (keeps_issueStreamCmd c cmd spaces)
  | setProperty assignment steps => exact keeps_setProperty c assignment steps

/-! ## What is accepted -/

theorem validateRecordBuffer_eq_ok {b : Buffers} (h : validateRecordBuffer c b = .ok r) :
    SumChecks c (b.value .record) := by
  rw [validateRecordBuffer] at h
  split_ifs at h with hsum
  exact not_lt.mp hsum

theorem validatePlayBuffer_eq_ok {b : Buffers} (h : validatePlayBuffer c b = .ok r) :
    SumChecks c (b.value .play) ∧ WholeItems c (b.type .play) (b.value .play).size := by
  rw [validatePlayBuffer] at h
  cases hn : getBytesPerItem c (b.type .play) with
  | error e =>
    rw [hn] at h
    cases h
  | ok n =>
    rw [hn] at h
    by_cases hitem : (b.value .play).size % n ≠ 0
    · cases (if_pos hitem).symm.trans h
    · have hbounds := (if_neg hitem).symm.trans h
      by_cases hsum : ((b.value .play).offset + (b.value .play).size) % 2 ^ 64 > c.memSize
      · cases (if_pos hsum).symm.trans hbounds
      · refine ⟨not_lt.mp hsum, fun m hm => ?_⟩
        have hsame : n = m := Except.ok.inj (hn.symm.trans hm)
        rw [← hsame]
        exact Nat.dvd_of_mod_eq_zero (not_not.mp hitem)

theorem returns_recordRestart (h : Returns (Block.recordRestart c) s r t) :
    SumChecks c (s.buffers.value .record) ∧ t.buffers = s.buffers := by
  refine ⟨?_, (keeps_recordRestart c s.buffers).of_returns rfl h⟩
  obtain ⟨s', u, hget, h⟩ := returns_bind.mp h
  obtain ⟨rfl, rfl⟩ := returns_get.mp hget
  obtain ⟨r', u', hcheck, -⟩ := returns_bind.mp h
  exact validateRecordBuffer_eq_ok (returns_orThrow.mp hcheck).1

theorem returns_issueStreamCmd (h : Returns (Block.issueStreamCmd c cmd spaces) s r t) :
    (SumChecks c (s.buffers.value .play) ∧
      WholeItems c (s.buffers.type .play) (s.buffers.value .play).size) ∧
      t.buffers = s.buffers := by
  refine ⟨?_, (keeps_issueStreamCmd c cmd spaces s.buffers).of_returns rfl h⟩
  obtain ⟨s', u, hget, h⟩ := returns_bind.mp h
  obtain ⟨rfl, rfl⟩ := returns_get.mp hget
  obtain ⟨r', u', hcheck, -⟩ := returns_bind.mp h
  exact validatePlayBuffer_eq_ok (returns_orThrow.mp hcheck).1

theorem inMemory_of_holds {b : Buffers} (hsound : Sound c (b.regs side))
    (hholds : ∀ p : BufferProp, p.side = side → Holds c b p) (hsum : SumChecks c (b.value side))
    (hwrap : NoWrap (b.value side)) (hitems : WholeItems c (b.type side) (b.value side).size) :
    InMemory c side b := by
  have hoffset : (b.regs side).offset = (b.value side).offset := hholds (.offset side) rfl
  have hsize : (b.regs side).size = (b.value side).size := hholds (.size side) rfl
  refine ⟨?_, hsound.size, ?_, hholds (.type side) rfl⟩
  · rw [hoffset, hsize, ← Nat.mod_eq_of_lt hwrap]
    exact hsum
  · rw [hsize]
    exact hitems

theorem checks_of_holds {b : Buffers} (hsound : Sound c (b.regs side))
    (hholds : ∀ p, Holds c b p) (hsum : SumChecks c (b.value side)) :
    Checks c (b.value side) := by
  have hoffset : (b.regs side).offset = (b.value side).offset := hholds (.offset side)
  have hsize : (b.regs side).size = (b.value side).size := hholds (.size side)
  refine ⟨?_, ?_, ?_, hsum⟩
  · rw [← hoffset]
    exact hsound.offset
  · rw [← hoffset]
    exact hsound.inside
  · rw [← hsize]
    exact hsound.size

theorem holds_of_nonePending {b : Buffers} (hb : Inv c b) (h : NonePending c side b)
    (p : BufferProp) (hp : p.side = side) : Holds c b p := by
  cases hdirty : b.dirty p with
  | false => exact hb.holds p hdirty
  | true => exact h p hp hdirty

theorem inMemory_of_configPlay (hs : BlockInv c s) {offset size : ℕ} {followMode : Bool}
    {outcome : Except UhdError PUnit}
    (hmeets : Checks c ⟨offset, size⟩ → NoWrap ⟨offset, size⟩)
    (h : Returns (Block.configPlay c offset size followMode first second outcome) s r t) :
    InMemory c .play t.buffers := by
  obtain ⟨r₁, u, hoffset, h⟩ := returns_bind.mp h
  obtain ⟨r₂, v, hsize, h⟩ := returns_bind.mp h
  obtain ⟨v', w, hget, h⟩ := returns_bind.mp h
  obtain ⟨rfl, rfl⟩ := returns_get.mp hget
  obtain ⟨r₃, w', hcheck, hfollow⟩ := returns_bind.mp h
  obtain ⟨hok, rfl⟩ := returns_orThrow.mp hcheck
  have hbuffers : t.buffers = v.buffers :=
    (keeps_setFollowMode followMode outcome v.buffers).of_returns rfl hfollow
  obtain ⟨hinv, hholds, hvalue, -⟩ := returns_setRegion hs hoffset hsize
  obtain ⟨hsum, hitems⟩ := validatePlayBuffer_eq_ok hok
  have hwrap : NoWrap (v.buffers.value .play) := by
    have hchecks := checks_of_holds (hinv.sound .play) hholds hsum
    rw [hvalue] at hchecks ⊢
    exact hmeets hchecks
  rw [hbuffers]
  exact inMemory_of_holds (hinv.sound .play) (fun p _ => hholds p) hsum hwrap hitems

theorem inMemory_of_issueStreamCmd (hs : BlockInv c s)
    (hmeets : SumChecks c (s.buffers.value .play) →
      NoWrap (s.buffers.value .play) ∧ NonePending c .play s.buffers)
    (h : Returns (Block.issueStreamCmd c cmd spaces) s r t) : InMemory c .play t.buffers := by
  obtain ⟨⟨hsum, hitems⟩, hbuffers⟩ := returns_issueStreamCmd h
  obtain ⟨hwrap, hpending⟩ := hmeets hsum
  rw [hbuffers]
  exact inMemory_of_holds (hs.sound .play) (holds_of_nonePending hs hpending) hsum hwrap hitems

theorem programs_of_meets (hs : BlockInv c s) (call : Call) (hmeets : Meets c s call) :
    Programs c s call := by
  intro side hside t h
  cases call with
  | record offset size first second =>
    cases Option.some.inj hside
    obtain ⟨r₁, u, hoffset, h⟩ := returns_bind.mp h
    obtain ⟨r₂, v, hsize, hrestart⟩ := returns_bind.mp h
    obtain ⟨hsum, hbuffers⟩ := returns_recordRestart hrestart
    obtain ⟨hinv, hholds, hvalue, htype⟩ := returns_setRegion hs hoffset hsize
    have hchecks := checks_of_holds (hinv.sound .record) hholds hsum
    rw [hvalue] at hchecks
    obtain ⟨hwrap, hitems⟩ := hmeets hchecks
    rw [hbuffers]
    refine inMemory_of_holds (hinv.sound .record) (fun p _ => hholds p) hsum ?_ ?_
    · rw [hvalue]
      exact hwrap
    · rw [hvalue, htype]
      exact hitems
  | recordRestart =>
    cases Option.some.inj hside
    obtain ⟨hsum, hbuffers⟩ := returns_recordRestart h
    obtain ⟨hwrap, hpending, hitems⟩ := hmeets hsum
    rw [hbuffers]
    exact inMemory_of_holds (hs.sound .record) (holds_of_nonePending hs hpending) hsum hwrap hitems
  | configPlay offset size followMode first second outcome =>
    cases Option.some.inj hside
    exact inMemory_of_configPlay hs hmeets h
  | play offset size iterations ticks first second outcome spaces =>
    cases Option.some.inj hside
    obtain ⟨r₁, u, hconfig, h⟩ := returns_bind.mp h
    obtain ⟨u', w, hget, h⟩ := returns_bind.mp h
    obtain ⟨rfl, rfl⟩ := returns_get.mp hget
    obtain ⟨cmd, w', hcmd, hissue⟩ := returns_bind.mp h
    obtain ⟨-, rfl⟩ := returns_orThrow.mp hcmd
    rw [(returns_issueStreamCmd hissue).2]
    exact inMemory_of_configPlay hs hmeets hconfig
  | stop spaces =>
    cases Option.some.inj hside
    exact inMemory_of_issueStreamCmd hs hmeets h
  | issueStreamCmd cmd spaces =>
    cases Option.some.inj hside
    exact inMemory_of_issueStreamCmd hs hmeets h
  | setProperty assignment steps => cases hside

end Commands

/-! ## From the construction on -/

section Runs

variable {c : Config} {b b' : Buffers} {s : Block} {spaces : ℕ}

/-- All registers are sound, and hold their properties. -/
structure InSync (c : Config) (b : Buffers) : Prop where
  sound : ∀ side, Sound c (b.regs side)
  holds : ∀ p, Holds c b p

theorem inSync_initProps
    (rs : List (DirtyLoop.Resolver BufferProp Buffers (UhdError × Buffers)))
    (hrs : ∀ r ∈ rs, r ∈ resolvers c) (hb : InSync c b) (h : initProps rs b = .ok b') :
    InSync c b' := by
  induction rs generalizing b with
  | nil =>
    rw [← Except.ok.inj h]
    exact ⟨hb.sound, hb.holds⟩
  | cons r rs ih =>
    have hr := hrs r List.mem_cons_self
    have hrest : ∀ r ∈ rs, r ∈ resolvers c := fun r hr => hrs r (List.mem_cons_of_mem _ hr)
    cases hrun : r.run (fun p => decide (p ∈ r.outputs)) b with
    | ok u =>
      rw [initProps, hrun] at h
      obtain ⟨p, -, hu⟩ := put_of_run hr hrun
      exact ih hrest ⟨hu.sound hb.sound, fun q => hu.holds (hb.holds q)⟩ h
    | error failed =>
      obtain ⟨e, u⟩ := failed
      have hsame : u = b := by
        rcases error_of_run hr hrun with hsame | ⟨side, v, hout, hlocked, -⟩
        · exact hsame
        · rw [hout, decide_eq_false_iff_not] at hlocked
          exact absurd List.mem_cons_self hlocked
      rw [initProps, hrun] at h
      cases e with
      | resolveError what =>
        rw [hsame] at h
        exact ih hrest hb h
      | _ => cases h

theorem blockInv_construct (h : construct c spaces = .ok s) : BlockInv c s := by
  rw [construct] at h
  cases hn : getBytesPerItem c "sc16" with
  | error e =>
    rw [hn] at h
    cases h
  | ok n =>
    rw [hn] at h
    set b₀ : Buffers :=
      { type := fun _ => "sc16"
        value := fun _ => ⟨0, c.memSize⟩
        dirty := fun _ => true
        regs := fun _ => ⟨0, c.memSize⟩
        playItemSize := n % 2 ^ 32 } with hb₀
    have hsync : InSync c b₀ := by
      refine ⟨fun side => ⟨Nat.dvd_zero _, Nat.zero_le _, c.words⟩, fun p => ?_⟩
      rcases p with side | side | side
      · rfl
      · rfl
      · cases side with
        | record => trivial
        | play =>
          intro m hm
          have hsame : n = m := Except.ok.inj (hn.symm.trans hm)
          rw [← hsame]
    have hmap : (initProps (resolvers c) b₀).map (fun buffers =>
        { buffers, cmdFifoSpaces := if c.fpgaCompat ≥ 0x00010001 then spaces else 0 : Block })
          = .ok s := h
    cases hinit : initProps (resolvers c) b₀ with
    | error e =>
      rw [hinit] at hmap
      cases hmap
    | ok b =>
      rw [hinit] at hmap
      rw [← Except.ok.inj hmap]
      have hb := inSync_initProps (resolvers c) (fun r hr => hr) hsync hinit
      exact ⟨hb.sound, fun p _ => hb.holds p⟩

/-- **What is accepted is in order.**  In every run from the construction on in which every call
meets the condition, every command that is accepted programs a region that lies in the memory and is
whole words and whole items. -/
theorem everyStep_programs (h : construct c spaces = .ok s) {calls : List Call}
    (hmeets : Transition.EveryStep (Call.after c) (Meets c) s calls) :
    Transition.EveryStep (Call.after c) (Programs c) s calls := by
  refine Transition.everyStep_of_imp (I := BlockInv c) (fun t call u ht hu => ?_)
    (fun t call ht => programs_of_meets ht call) (blockInv_construct h) hmeets
  rw [← Option.some.inj hu]
  exact keeps_run c call t ht

/-- A memory of 1024 bytes, with words of eight and items of four. -/
def smallBlock : Config where
  wordSize := 8
  memSize := 1024
  fpgaCompat := 0x00010001
  itemSizes := fun format => if format = "sc16" then some 4 else none
  memSize_lt := by decide
  words := by decide

/-- All properties, in one order. -/
def inOrder : { order : List BufferProp // ∀ p, p ∈ order } where
  val := [.offset .record, .size .record, .type .record, .offset .play, .size .play, .type .play]
  property p := by rcases p with (_ | _) | (_ | _) | (_ | _) <;> decide

/-- Recording, and playing what was recorded. -/
def recordAndPlay : List Call :=
  [.record 512 256 [.resolve inOrder] [.resolve inOrder],
    .play 512 256 (some 1) none [.resolve inOrder] [.resolve inOrder] (.ok PUnit.unit) 8]

theorem dvd_of_smallBlock {format : String} {n size : ℕ} (hsize : 4 ∣ size)
    (h : getBytesPerItem smallBlock format = .ok n) : n ∣ size := by
  have hfour : ∀ format m, smallBlock.itemSizes format = some m → m = 4 := by
    intro format m hm
    have hite : (if format = "sc16" then some 4 else none) = some m := hm
    split_ifs at hite
    exact (Option.some.inj hite).symm
  rw [getBytesPerItem] at h
  cases hwhole : smallBlock.itemSizes format with
  | some m =>
    rw [hwhole] at h
    rw [← Except.ok.inj h, hfour _ _ hwhole]
    exact hsize
  | none =>
    rw [hwhole] at h
    cases hfirst : smallBlock.itemSizes
        (String.ofList (format.toList.takeWhile fun ch => ch ≠ '_')) with
    | some m =>
      rw [hfirst] at h
      rw [← Except.ok.inj h, hfour _ _ hfirst]
      exact hsize
    | none =>
      rw [hfirst] at h
      cases h

/-- Recording into a region and playing it is in order. -/
theorem recordAndPlay_in_order :
    ∃ s, construct smallBlock 4 = .ok s ∧
      Transition.EveryStep (Call.after smallBlock) (Programs smallBlock) s recordAndPlay := by
  have hok : (construct smallBlock 4).isOk = true := by decide +kernel
  cases hs : construct smallBlock 4 with
  | error e =>
    rw [hs] at hok
    cases hok
  | ok s =>
    refine ⟨s, rfl, everyStep_programs hs ⟨fun _ => ⟨?_, fun n hn => ?_⟩, fun t _ =>
      ⟨fun _ => ?_, fun u _ => trivial⟩⟩⟩
    · show 512 + 256 < 2 ^ 64
      decide
    · exact dvd_of_smallBlock (by decide) hn
    · show 512 + 256 < 2 ^ 64
      decide

/-- **A sum that wraps around.**  A region from the second word on, of all but the last eight of
2^64 bytes, is accepted. -/
theorem wrapped_sum_accepted :
    ¬ ∀ s, construct smallBlock 4 = .ok s →
      ∀ calls, Transition.EveryStep (Call.after smallBlock) (Programs smallBlock) s calls := by
  intro hclaim
  have hrun : ((construct smallBlock 4).toOption.bind fun s =>
      outcome (Call.run smallBlock
        (.record 8 (2 ^ 64 - 8) [.resolve inOrder] [.resolve inOrder])) s
        fun _ t => t.buffers.regs .record) = some ⟨8, 2 ^ 64 - 8⟩ := by decide +kernel
  obtain ⟨s, hs, hout⟩ := Option.bind_eq_some_iff.mp hrun
  obtain ⟨r, t, hreturns, hregs⟩ := outcome_eq_some.mp hout
  have hconstruct : construct smallBlock 4 = .ok s := by
    cases h : construct smallBlock 4 with
    | error e =>
      rw [h] at hs
      cases hs
    | ok s' =>
      rw [h] at hs
      rw [Option.some.inj hs]
  have hwithin := ((hclaim s hconstruct [_]).1 .record rfl t hreturns).within
  rw [hregs] at hwithin
  exact absurd hwithin (by decide)

end Runs

end ReplayBuffers
end Rfnoc
end UhdHost
