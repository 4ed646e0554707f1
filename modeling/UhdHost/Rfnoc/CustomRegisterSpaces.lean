import Mathlib
import UhdHost.Rfnoc.CtrlportCalls
import UhdHost.Types.Exception

/-!
# Custom register spaces

`define_custom_register_space` of `lib/rfnoc/ctrlport_endpoint.cpp` puts a space of addresses with its
own poke and peek functions in front of the device.  The spaces are kept in a `std::map` by their start
address, and `poke32` and `peek32` look for the one that contains an address.  They stop at the first
space that begins after it.

The end address is a sum of 32 bits, and a space whose end is not above its start is refused: a space
of no addresses, and every sum that wraps.  `Separate` is what all definitions keep: no space is empty,
and each ends before the next begins.  With it the search finds a space exactly if one contains the
address (`customSpace_eq_none_iff`), although it stops early.
-/

namespace UhdHost
namespace Rfnoc

variable {σ : Type}

/-! ## The spaces -/

/-- `custom_register_space`.  What its functions do they do to a state of the program. -/
structure CustomRegisterSpace (σ : Type) where
  endAddr : UInt32
  pokeFn : UInt32 → UInt32 → EStateM CallError σ Unit
  peekFn : UInt32 → EStateM CallError σ UInt32

/-- `_custom_register_spaces`: the start addresses with the spaces, in order. -/
abbrev CustomRegisterSpaces (σ : Type) := List (UInt32 × CustomRegisterSpace σ)

/-- `std::map::emplace`: a key that is there keeps its value. -/
def emplace (startAddr : UInt32) (space : CustomRegisterSpace σ) :
    CustomRegisterSpaces σ → CustomRegisterSpaces σ
  | [] => [(startAddr, space)]
  | entry :: rest =>
    if startAddr < entry.1 then (startAddr, space) :: entry :: rest
    else if startAddr = entry.1 then entry :: rest
    else entry :: emplace startAddr space rest

/-- The test for a space that is there and one that is to be defined. -/
def overlaps (startAddr endAddr : UInt32) (entry : UInt32 × CustomRegisterSpace σ) : Bool :=
  (entry.1 ≤ startAddr && startAddr < entry.2.endAddr) ||
    (startAddr < entry.1 && entry.1 < endAddr)

/-- `define_custom_register_space` -/
def defineCustomRegisterSpace (startAddr length : UInt32)
    (pokeFn : UInt32 → UInt32 → EStateM CallError σ Unit)
    (peekFn : UInt32 → EStateM CallError σ UInt32) :
    EStateM UhdError (CustomRegisterSpaces σ) Unit := fun spaces =>
  let endAddr := startAddr + length
  if endAddr ≤ startAddr then
    .error (.valueError "Length of custom register space causes an invalid register space") spaces
  else if spaces.any (overlaps startAddr endAddr) then
    .error (.rfnocError "Register space overlaps with existing register space") spaces
  else .ok () (emplace startAddr ⟨endAddr, pokeFn, peekFn⟩ spaces)

/-- The loop of `poke32` and `peek32` that looks for the space of an address. -/
def customSpace (addr : UInt32) : CustomRegisterSpaces σ → Option (CustomRegisterSpace σ)
  | [] => none
  | entry :: rest =>
    if entry.1 ≤ addr then
      if entry.1 ≤ addr ∧ addr < entry.2.endAddr then some entry.2 else customSpace addr rest
    else none

section Calls

variable (sendRequestPacket : CtrlRequest → EStateM CallError σ (Option CtrlPayload))

/-- `poke32` at the device. -/
def pokeDevice (addr data : UInt32) (timestamp : Option UInt64) (ack : Bool) :
    EStateM CallError σ Unit := do
  let _ ← sendRequestPacket ((Operation.poke32 addr data).request timestamp ack)

/-- `peek32` at the device. -/
def peekDevice (addr : UInt32) (timestamp : Option UInt64) : EStateM CallError σ UInt32 := do
  match ← sendRequestPacket ((Operation.peek32 addr).request timestamp true) with
  | none => throw (.assertionError "bool(response)")
  | some response =>
    match response.dataVtr with
    | [] => throw (.assertionError "not response.value().data_vtr.empty()")
    | word :: _ => return word

/-- `poke32` -/
def poke32 (spaces : CustomRegisterSpaces σ) (addr data : UInt32) (timestamp : Option UInt64)
    (ack : Bool) : EStateM CallError σ Unit :=
  match customSpace addr spaces with
  | some space => space.pokeFn addr data
  | none => pokeDevice sendRequestPacket addr data timestamp ack

/-- `peek32` -/
def peek32 (spaces : CustomRegisterSpaces σ) (addr : UInt32) (timestamp : Option UInt64) :
    EStateM CallError σ UInt32 :=
  match customSpace addr spaces with
  | some space => space.peekFn addr
  | none => peekDevice sendRequestPacket addr timestamp

end Calls

/-! ## A sequence of definitions -/

/-- The arguments of a call of `define_custom_register_space`. -/
structure SpaceDefinition (σ : Type) where
  startAddr : UInt32
  length : UInt32
  pokeFn : UInt32 → UInt32 → EStateM CallError σ Unit
  peekFn : UInt32 → EStateM CallError σ UInt32

/-- The call. -/
def SpaceDefinition.call (d : SpaceDefinition σ) : EStateM UhdError (CustomRegisterSpaces σ) Unit :=
  defineCustomRegisterSpace d.startAddr d.length d.pokeFn d.peekFn

/-- The spaces after a call, whether it throws or not. -/
def afterCall (spaces : CustomRegisterSpaces σ) (d : SpaceDefinition σ) : CustomRegisterSpaces σ :=
  match d.call spaces with
  | .ok _ spaces' => spaces'
  | .error _ spaces' => spaces'

/-- The spaces of an endpoint after a sequence of calls. -/
def definedSpaces (calls : List (SpaceDefinition σ)) : CustomRegisterSpaces σ :=
  calls.foldl afterCall []

/-- The addresses of a space. -/
def spaceAddresses (entry : UInt32 × CustomRegisterSpace σ) : Set UInt32 :=
  {addr | entry.1 ≤ addr ∧ addr < entry.2.endAddr}

/-- No space is empty, and each ends before the next begins. -/
structure Separate (spaces : CustomRegisterSpaces σ) : Prop where
  nonempty : ∀ entry ∈ spaces, entry.1 < entry.2.endAddr
  ordered : spaces.Pairwise fun a b => a.2.endAddr ≤ b.1

theorem mem_emplace {startAddr : UInt32} {space : CustomRegisterSpace σ}
    {spaces : CustomRegisterSpaces σ} {entry : UInt32 × CustomRegisterSpace σ}
    (h : entry ∈ emplace startAddr space spaces) : entry = (startAddr, space) ∨ entry ∈ spaces := by
  induction spaces with
  | nil => exact Or.inl (List.mem_singleton.mp h)
  | cons first rest ih =>
    rw [emplace] at h
    split_ifs at h
    · exact List.mem_cons.mp h
    · exact Or.inr h
    · rcases List.mem_cons.mp h with rfl | h
      · exact Or.inr List.mem_cons_self
      · exact (ih h).imp_right (List.mem_cons_of_mem first)

theorem apart_of_not_overlaps {startAddr endAddr : UInt32}
    {entry : UInt32 × CustomRegisterSpace σ} (h : ¬ overlaps startAddr endAddr entry = true) :
    (entry.1 ≤ startAddr ∧ entry.2.endAddr ≤ startAddr) ∨
      (startAddr < entry.1 ∧ endAddr ≤ entry.1) := by
  simp only [overlaps, Bool.or_eq_true, Bool.and_eq_true, decide_eq_true_eq, not_or, not_and,
    UInt32.not_lt] at h
  rcases UInt32.le_total entry.1 startAddr with hle | hge
  · exact Or.inl ⟨hle, h.1 hle⟩
  · rcases UInt32.lt_or_eq_of_le hge with hlt | heq
    · exact Or.inr ⟨hlt, h.2 hlt⟩
    · exact Or.inl ⟨heq ▸ UInt32.le_refl _, h.1 (heq ▸ UInt32.le_refl _)⟩

theorem Separate.emplace {spaces : CustomRegisterSpaces σ} (h : Separate spaces)
    {startAddr : UInt32} {space : CustomRegisterSpace σ} (hlt : startAddr < space.endAddr)
    (hapart : ∀ entry ∈ spaces, ¬ overlaps startAddr space.endAddr entry = true) :
    Separate (emplace startAddr space spaces) := by
  refine ⟨fun entry hentry => ?_, ?_⟩
  · rcases mem_emplace hentry with rfl | hentry
    · exact hlt
    · exact h.nonempty entry hentry
  · obtain ⟨hnonempty, hordered⟩ := h
    induction spaces with
    | nil => exact List.pairwise_singleton _ _
    | cons first rest ih =>
      obtain ⟨hfirst, hrest⟩ := List.pairwise_cons.mp hordered
      have hplace := apart_of_not_overlaps (hapart first List.mem_cons_self)
      have hsome := hnonempty first List.mem_cons_self
      rw [Rfnoc.emplace]
      split_ifs with hbefore heq
      · rcases hplace with ⟨hle, -⟩ | ⟨-, hend⟩
        · exact absurd hbefore (UInt32.not_lt.mpr hle)
        · refine List.pairwise_cons.mpr ⟨fun entry hentry => ?_, hordered⟩
          rcases List.mem_cons.mp hentry with rfl | hentry
          · exact hend
          · exact UInt32.le_trans hend
              (UInt32.le_trans (UInt32.le_of_lt hsome) (hfirst entry hentry))
      · exact hordered
      · refine List.pairwise_cons.mpr ⟨fun entry hentry => ?_,
          ih (fun e he => hapart e (List.mem_cons_of_mem first he))
            (fun e he => hnonempty e (List.mem_cons_of_mem first he)) hrest⟩
        rcases mem_emplace hentry with rfl | hentry
        · rcases hplace with ⟨-, hend⟩ | ⟨hlt', -⟩
          · exact hend
          · exact absurd hlt' hbefore
        · exact hfirst entry hentry

theorem call_cases (d : SpaceDefinition σ) (spaces : CustomRegisterSpaces σ) :
    (∃ e, d.call spaces = .error e spaces) ∨
      (d.startAddr < d.startAddr + d.length ∧
        (∀ entry ∈ spaces, ¬ overlaps d.startAddr (d.startAddr + d.length) entry = true) ∧
        d.call spaces = .ok () (emplace d.startAddr
          ⟨d.startAddr + d.length, d.pokeFn, d.peekFn⟩ spaces)) := by
  simp only [SpaceDefinition.call, defineCustomRegisterSpace]
  split_ifs with hlength hoverlap
  · exact Or.inl ⟨_, rfl⟩
  · exact Or.inl ⟨_, rfl⟩
  · refine Or.inr ⟨UInt32.not_le.mp hlength, fun entry hentry h => hoverlap ?_, rfl⟩
    exact List.any_eq_true.mpr ⟨entry, hentry, h⟩

theorem Separate.afterCall {spaces : CustomRegisterSpaces σ} (h : Separate spaces)
    (d : SpaceDefinition σ) : Separate (afterCall spaces d) := by
  rw [Rfnoc.afterCall]
  rcases call_cases d spaces with ⟨e, herror⟩ | ⟨hlt, hapart, hok⟩
  · rw [herror]
    exact h
  · rw [hok]
    exact h.emplace hlt hapart

theorem separate_definedSpaces (calls : List (SpaceDefinition σ)) :
    Separate (definedSpaces calls) := by
  have hall : ∀ spaces : CustomRegisterSpaces σ, Separate spaces →
      Separate (calls.foldl afterCall spaces) := by
    induction calls with
    | nil => exact fun spaces h => h
    | cons d calls ih => exact fun spaces h => ih _ (h.afterCall d)
  exact hall [] ⟨fun entry h => absurd h List.not_mem_nil, List.Pairwise.nil⟩

/-! ## The search -/

namespace Separate

variable {spaces : CustomRegisterSpaces σ} {addr : UInt32}

theorem customSpace_of_mem (h : Separate spaces) {entry : UInt32 × CustomRegisterSpace σ}
    (hentry : entry ∈ spaces) (haddr : addr ∈ spaceAddresses entry) :
    customSpace addr spaces = some entry.2 := by
  obtain ⟨hnonempty, hordered⟩ := h
  induction spaces with
  | nil => exact absurd hentry List.not_mem_nil
  | cons first rest ih =>
    obtain ⟨hfirst, hrest⟩ := List.pairwise_cons.mp hordered
    rw [customSpace]
    rcases List.mem_cons.mp hentry with rfl | hentry
    · rw [if_pos haddr.1, if_pos ⟨haddr.1, haddr.2⟩]
    · have hsome := hnonempty first List.mem_cons_self
      have hend : first.2.endAddr ≤ addr := UInt32.le_trans (hfirst entry hentry) haddr.1
      rw [if_pos (UInt32.le_trans (UInt32.le_of_lt hsome) hend),
        if_neg fun hin => absurd hin.2 (UInt32.not_lt.mpr hend)]
      exact ih hentry (fun e he => hnonempty e (List.mem_cons_of_mem first he)) hrest

theorem eq_of_mem (h : Separate spaces) {a b : UInt32 × CustomRegisterSpace σ} (ha : a ∈ spaces)
    (hb : b ∈ spaces) (haddr : addr ∈ spaceAddresses a) (haddr' : addr ∈ spaceAddresses b) :
    a = b := by
  by_contra hne
  have hsep : ∀ x ∈ spaces, ∀ y ∈ spaces, x ≠ y → x.2.endAddr ≤ y.1 ∨ y.2.endAddr ≤ x.1 := by
    have hsymm : Std.Symm fun x y : UInt32 × CustomRegisterSpace σ =>
        x.2.endAddr ≤ y.1 ∨ y.2.endAddr ≤ x.1 := ⟨fun _ _ => Or.symm⟩
    have hpairs : spaces.Pairwise fun x y => x.2.endAddr ≤ y.1 ∨ y.2.endAddr ≤ x.1 :=
      h.ordered.imp fun hle => Or.inl hle
    exact fun x hx y hy hxy => hpairs.forall hx hy hxy
  rcases hsep a ha b hb hne with hle | hle
  · exact absurd haddr.2 (UInt32.not_lt.mpr (UInt32.le_trans hle haddr'.1))
  · exact absurd haddr'.2 (UInt32.not_lt.mpr (UInt32.le_trans hle haddr.1))

end Separate

theorem exists_of_customSpace {spaces : CustomRegisterSpaces σ} {addr : UInt32}
    {space : CustomRegisterSpace σ} (h : customSpace addr spaces = some space) :
    ∃ entry ∈ spaces, entry.2 = space ∧ addr ∈ spaceAddresses entry := by
  induction spaces with
  | nil => cases h
  | cons first rest ih =>
    rw [customSpace] at h
    split_ifs at h with hle hin
    · exact ⟨first, List.mem_cons_self, Option.some_inj.mp h, hin⟩
    · obtain ⟨entry, hentry, heq, haddr⟩ := ih h
      exact ⟨entry, List.mem_cons_of_mem first hentry, heq, haddr⟩

theorem Separate.customSpace_eq_none_iff {spaces : CustomRegisterSpaces σ} (h : Separate spaces)
    {addr : UInt32} :
    customSpace addr spaces = none ↔ ∀ entry ∈ spaces, addr ∉ spaceAddresses entry := by
  constructor
  · intro hnone entry hentry haddr
    rw [h.customSpace_of_mem hentry haddr] at hnone
    cases hnone
  · intro hno
    cases hspace : customSpace addr spaces with
    | none => rfl
    | some space =>
      obtain ⟨entry, hentry, -, haddr⟩ := exists_of_customSpace hspace
      exact absurd haddr (hno entry hentry)

/-! ## What is dispatched where -/

end Rfnoc
end UhdHost
