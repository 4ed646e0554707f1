import Mathlib.Algebra.Order.Ring.Nat
import Mathlib.Data.Nat.GCD.Basic
import UhdHost.Library.DirtyLoop
import UhdHost.Rfnoc.Property
import UhdHost.Types.SizeT

/-!
# The packet size of the replay block

An output port of `replay_block_control.cpp`, with the properties that its packet size depends on
and their resolvers: the size itself, the atomic item size, and the MTU of the edge, whose resolver
is that of `noc_block_base`.  The packets have to hold whole chunks: the least common multiple of
the item size, the atomic item size and the word size.

* `chosen_coercePayloadSize`: what `_set_payload_size` makes of a request where a chunk fits.
* `exists_resolveProps`: the properties are resolved without an exception, in any order that does
  not make the MTU smaller after it was used, and the size is the one chosen for the request.

The item size is that of the type of the port, whose property no resolver here has as an input.
-/

namespace UhdHost
namespace Rfnoc
namespace ReplayPayload

/-- What a port is made with, or set to: the word size of the memory, the item size of the type, and
the width of CHDR in bits. -/
structure Config where
  wordSize : ℕ
  playItemSize : ℕ
  chdrW : ℕ

/-- `get_chdr_hdr_len` -/
def Config.getChdrHdrLen (cfg : Config) (accountForTs : Bool) : ℕ :=
  cfg.chdrW / 8 * if accountForTs ∧ cfg.chdrW = 64 then 2 else 1

/-- The properties that the packet size depends on, and it. -/
inductive PayloadProp where
  | payloadSize
  | atomicItemSize
  | mtu
  deriving DecidableEq

instance : Fintype PayloadProp where
  elems := {.payloadSize, .atomicItemSize, .mtu}
  complete p := by cases p <;> decide

/-- What a property is called in a message. -/
def PayloadProp.name : PayloadProp → String
  | .payloadSize => "payload_size"
  | .atomicItemSize => "atomic_item_size"
  | .mtu => "mtu"

/-- An output port: its properties, `_mtu`, and the words per packet that the register holds. -/
structure OutputPort where
  value : PayloadProp → ℕ
  dirty : PayloadProp → Bool
  mtu : ℕ
  wordsPerPkt : ℕ

/-- `std::lcm<uint32_t>` -/
def lcm32 (a b : ℕ) : ℕ := Nat.lcm (a % 2 ^ 32) (b % 2 ^ 32) % 2 ^ 32

/-- `std::lcm<size_t>` -/
def lcm64 (a b : ℕ) : ℕ := Nat.lcm a b % 2 ^ 64

/-- What `_set_payload_size` makes of a request, with the largest payload and the smallest chunk. -/
def coercePayloadSize (maxPyldSize minChunk payloadSize : ℕ) : ℕ :=
  let newPyldSize := if payloadSize > maxPyldSize then maxPyldSize % 2 ^ 32 else payloadSize
  let newPyldSize :=
    if newPyldSize % minChunk ≠ 0 then newPyldSize - newPyldSize % minChunk else newPyldSize
  if newPyldSize < minChunk then minChunk else newPyldSize

namespace OutputPort

/-- `set` of a property that a resolver may write, and that may be locked -/
def set (locked : PayloadProp → Bool) (p : PayloadProp) (v : ℕ) (s : OutputPort) :
    Except UhdError OutputPort :=
  if locked p then
    if s.value p ≠ v then
      .error (.resolveError ("Attempting to overwrite property `" ++ p.name
        ++ "' with a new value after it was locked!"))
    else .ok s
  else .ok { s with
    value := Function.update s.value p v
    dirty := Function.update s.dirty p (s.dirty p || decide (s.value p ≠ v)) }

/-- `get_max_payload_size`, with room for a timestamp -/
def getMaxPayloadSize (cfg : Config) (s : OutputPort) : ℕ := sizeSub s.mtu (cfg.getChdrHdrLen true)

/-- `min_chunk` -/
def minChunk (cfg : Config) (s : OutputPort) : ℕ :=
  lcm32 (lcm32 cfg.playItemSize (s.value .atomicItemSize)) cfg.wordSize

/-- `_set_payload_size` -/
def setPayloadSize (cfg : Config) (locked : PayloadProp → Bool) (s : OutputPort) :
    Except UhdError OutputPort :=
  let newPyldSize :=
    coercePayloadSize (s.getMaxPayloadSize cfg) (s.minChunk cfg) (s.value .payloadSize)
  { s with wordsPerPkt := newPyldSize / cfg.wordSize % 2 ^ 16 }.set locked .payloadSize newPyldSize

/-- The resolver of the atomic item size. -/
def resolveAtomicItemSize (cfg : Config) (locked : PayloadProp → Bool) (s : OutputPort) :
    Except UhdError OutputPort :=
  (s.set locked .atomicItemSize (lcm64 (s.value .atomicItemSize) cfg.wordSize)).bind fun s =>
    (s.set locked .atomicItemSize (min (s.value .atomicItemSize) s.mtu)).bind fun s =>
      if s.value .atomicItemSize % cfg.wordSize > 0 then
        s.set locked .atomicItemSize
          (s.value .atomicItemSize - s.value .atomicItemSize % cfg.wordSize)
      else .ok s

/-- The resolver of the MTU that the constructor of `noc_block_base` adds. -/
def resolveMtu (locked : PayloadProp → Bool) (s : OutputPort) : Except UhdError OutputPort :=
  (s.set locked .mtu (min (s.value .mtu) s.mtu)).map fun s => { s with mtu := s.value .mtu }

/-- `clean_props` -/
def clean (s : OutputPort) : OutputPort := { s with dirty := fun _ => false }

end OutputPort

/-- The resolvers, in the order in which they are added. -/
def resolvers (cfg : Config) : List (DirtyLoop.Resolver PayloadProp OutputPort UhdError) :=
  [⟨[.mtu], [.mtu], OutputPort.resolveMtu⟩,
    ⟨[.payloadSize, .mtu, .atomicItemSize], [.payloadSize], OutputPort.setPayloadSize cfg⟩,
    ⟨[.atomicItemSize, .mtu], [.atomicItemSize], OutputPort.resolveAtomicItemSize cfg⟩]

/-- What suffices for the list of dirty properties. -/
def resolveFuel (todo : List PayloadProp) : ℕ := todo.length + 3 * 4

/-- `resolve_props`, with the dirty properties in an order, and `clean_props` -/
def resolveProps (cfg : Config) (todo : List PayloadProp) (s : OutputPort) :
    Except UhdError OutputPort :=
  match DirtyLoop.resolveLoop OutputPort.dirty (resolvers cfg) (resolveFuel todo) todo [] [] s with
  | some result => result.map OutputPort.clean
  | none => .error (.runtimeError "the list of dirty properties does not end")

/-! ## What is claimed -/

/-- What the packets have to hold whole. -/
def chunk (cfg : Config) (s : OutputPort) : ℕ :=
  Nat.lcm (Nat.lcm cfg.playItemSize (s.value .atomicItemSize)) cfg.wordSize

/-- The MTU that the port is going to have. -/
def newMtu (s : OutputPort) : ℕ := min (s.value .mtu) s.mtu

/-- **The size for a request**, where a chunk fits: whole chunks that fit, and as many as were
requested, or one if that is less than a chunk. -/
structure Chosen (chunk maxPayload request size : ℕ) : Prop where
  dvd : chunk ∣ size
  pos : 0 < size
  fits : size ≤ maxPayload
  largest : chunk ≤ request →
    size ≤ request ∧ ∀ n, chunk ∣ n → n ≤ request → n ≤ maxPayload → n ≤ size
  small : request < chunk → size = chunk

/-! ## The size for a request -/

section Sizes

variable {maxPayload c request size : ℕ}

theorem lcm32_eq {a b : ℕ} (hpos : 0 < Nat.lcm a b) (hlt : Nat.lcm a b < 2 ^ 32) :
    lcm32 a b = Nat.lcm a b := by
  have ha : a < 2 ^ 32 := (Nat.le_of_dvd hpos (Nat.dvd_lcm_left a b)).trans_lt hlt
  have hb : b < 2 ^ 32 := (Nat.le_of_dvd hpos (Nat.dvd_lcm_right a b)).trans_lt hlt
  rw [lcm32, Nat.mod_eq_of_lt ha, Nat.mod_eq_of_lt hb, Nat.mod_eq_of_lt hlt]

theorem le_sub_mod {n m : ℕ} (hdvd : c ∣ m) (hle : m ≤ n) : m ≤ n - n % c := by
  obtain ⟨k, rfl⟩ := hdvd
  have hn : n - n % c = c * (n / c) := by
    have hdiv := Nat.div_add_mod n c
    omega
  rw [hn]
  rcases Nat.eq_zero_or_pos c with rfl | hc
  · rw [Nat.zero_mul, Nat.zero_mul]
  · exact Nat.mul_le_mul_left c ((Nat.le_div_iff_mul_le hc).mpr (Nat.mul_comm c k ▸ hle))

theorem chosen_coercePayloadSize (hc : 0 < c) (hfit : c ≤ maxPayload) (hrequest : request < 2 ^ 32) :
    Chosen c maxPayload request (coercePayloadSize maxPayload c request) := by
  have hlimited : (if request > maxPayload then maxPayload % 2 ^ 32 else request)
      = min request maxPayload := by
    split_ifs with hmore
    · rw [min_eq_right hmore.le, Nat.mod_eq_of_lt (hmore.trans hrequest)]
    · rw [min_eq_left (not_lt.mp hmore)]
  have hwhole : ∀ n, (if n % c ≠ 0 then n - n % c else n) = n - n % c := by
    intro n
    split_ifs with hrest
    · rfl
    · rw [not_not.mp hrest, Nat.sub_zero]
  rw [coercePayloadSize]
  rw [hlimited, hwhole]
  by_cases hsmall : request < c
  · have hless : min request maxPayload - min request maxPayload % c < c :=
      (Nat.sub_le _ _).trans_lt ((min_le_left _ _).trans_lt hsmall)
    rw [if_pos hless]
    exact ⟨dvd_refl c, hc, hfit, fun hle => absurd hsmall (not_lt.mpr hle), fun _ => rfl⟩
  · have hone : c ≤ min request maxPayload - min request maxPayload % c :=
      le_sub_mod (dvd_refl c) (le_min (not_lt.mp hsmall) hfit)
    rw [if_neg (not_lt.mpr hone)]
    refine ⟨Nat.dvd_sub_mod _, hc.trans_le hone, ?_, fun _ => ⟨?_, fun n hdvd hn hmax => ?_⟩,
      fun hlt => absurd hlt hsmall⟩
    · exact (Nat.sub_le _ _).trans (min_le_right _ _)
    · exact (Nat.sub_le _ _).trans (min_le_left _ _)
    · exact le_sub_mod hdvd (le_min hn hmax)

theorem coercePayloadSize_of_chosen (h : Chosen c maxPayload request size) :
    coercePayloadSize maxPayload c size = size := by
  have hone : c ≤ size := Nat.le_of_dvd h.pos h.dvd
  have hrest : ¬ size % c ≠ 0 := not_not_intro (Nat.mod_eq_zero_of_dvd h.dvd)
  rw [coercePayloadSize]
  rw [if_neg (not_lt.mpr h.fits), if_neg hrest, if_neg (not_lt.mpr hone)]

end Sizes

/-! ## The resolvers -/

section Resolvers

variable {cfg : Config} {locked : PayloadProp → Bool} {s t : OutputPort} {p : PayloadProp} {v : ℕ}

theorem exists_set (h : locked p = true → s.value p = v) :
    ∃ t, s.set locked p v = .ok t ∧ t.value = Function.update s.value p v ∧ t.mtu = s.mtu ∧
      t.wordsPerPkt = s.wordsPerPkt := by
  rw [OutputPort.set]
  by_cases hlocked : locked p = true
  · have hsame := h hlocked
    rw [if_pos hlocked, if_neg (not_not_intro hsame)]
    refine ⟨s, rfl, ?_, rfl, rfl⟩
    rw [← hsame, Function.update_eq_self]
  · rw [if_neg hlocked]
    exact ⟨_, rfl, rfl, rfl, rfl⟩

theorem exists_resolveAtomicItemSize {a : ℕ}
    (hlcm : lcm64 (s.value .atomicItemSize) cfg.wordSize = a)
    (hdvd : cfg.wordSize ∣ a) (hfits : a ≤ s.mtu)
    (hlocked : locked .atomicItemSize = true → s.value .atomicItemSize = a) :
    ∃ t, s.resolveAtomicItemSize cfg locked = .ok t ∧
      t.value = Function.update s.value .atomicItemSize a ∧ t.mtu = s.mtu ∧
      t.wordsPerPkt = s.wordsPerPkt := by
  obtain ⟨s₁, hset₁, hvalue₁, hmtu₁, hwords₁⟩ := exists_set hlocked
  have ha₁ : s₁.value .atomicItemSize = a := by
    rw [hvalue₁, Function.update_self]
  obtain ⟨s₂, hset₂, hvalue₂, hmtu₂, hwords₂⟩ :=
    @exists_set locked s₁ .atomicItemSize a fun _ => ha₁
  have ha₂ : s₂.value .atomicItemSize = a := by
    rw [hvalue₂, Function.update_self]
  have hrest : ¬ s₂.value .atomicItemSize % cfg.wordSize > 0 := by
    rw [ha₂, Nat.mod_eq_zero_of_dvd hdvd]
    exact Nat.lt_irrefl 0
  refine ⟨s₂, ?_, ?_, hmtu₂.trans hmtu₁, hwords₂.trans hwords₁⟩
  · rw [OutputPort.resolveAtomicItemSize, hlcm, hset₁]
    show (s₁.set locked .atomicItemSize (min (s₁.value .atomicItemSize) s₁.mtu)).bind _ = _
    rw [ha₁, hmtu₁, min_eq_left hfits, hset₂]
    show (if s₂.value .atomicItemSize % cfg.wordSize > 0 then _ else _) = _
    rw [if_neg hrest]
  · rw [hvalue₂, hvalue₁, Function.update_idem]

end Resolvers

/-! ## A resolution -/

/-- The size that the request of a port comes to. -/
def newSize (cfg : Config) (s : OutputPort) : ℕ :=
  coercePayloadSize (newMtu s - cfg.getChdrHdrLen true) (chunk cfg s) (s.value .payloadSize)

/-- **The invariant of a resolution**, for a port before it: the MTU is the new one, the atomic item
size is as it was or whole words, and once the resolver of the packet size was run the size is the
one chosen for the request, and in the register. -/
structure Resolving (cfg : Config) (s₀ : OutputPort) (written : List PayloadProp) (s : OutputPort) :
    Prop where
  mtu : s.mtu = newMtu s₀
  room : newMtu s₀ ≤ s.value .mtu
  mtuWritten : .mtu ∈ written → s.value .mtu = newMtu s₀
  item : s.value .atomicItemSize = s₀.value .atomicItemSize ∨
    s.value .atomicItemSize = Nat.lcm (s₀.value .atomicItemSize) cfg.wordSize
  itemWritten : .atomicItemSize ∈ written →
    s.value .atomicItemSize = Nat.lcm (s₀.value .atomicItemSize) cfg.wordSize
  request : .payloadSize ∉ written → s.value .payloadSize = s₀.value .payloadSize
  size : .payloadSize ∈ written → s.value .payloadSize = newSize cfg s₀
  words : .payloadSize ∈ written → s.wordsPerPkt = s.value .payloadSize / cfg.wordSize % 2 ^ 16

/-- **What has to fit**: a chunk, with the header, into a packet and into 32 bits. -/
structure ChunkFits (cfg : Config) (s : OutputPort) : Prop where
  pos : 0 < chunk cfg s
  lt : chunk cfg s < 2 ^ 32
  fits : chunk cfg s + cfg.getChdrHdrLen true ≤ newMtu s
  mtu_lt : s.mtu < 2 ^ 64
  request_lt : s.value .payloadSize < 2 ^ 32

section Resolution

variable {cfg : Config} {s₀ s : OutputPort} {written : List PayloadProp}

theorem chunk_eq (cfg : Config) (s₀ : OutputPort) :
    Nat.lcm (Nat.lcm cfg.playItemSize (Nat.lcm (s₀.value .atomicItemSize) cfg.wordSize))
      cfg.wordSize = chunk cfg s₀ := by
  rw [chunk, Nat.lcm_assoc, Nat.lcm_assoc, Nat.lcm_assoc, Nat.lcm_self]

theorem minChunk_eq (hfit : ChunkFits cfg s₀) (h : Resolving cfg s₀ written s) :
    s.minChunk cfg = chunk cfg s₀ := by
  have hchunk : Nat.lcm (Nat.lcm cfg.playItemSize (s.value .atomicItemSize)) cfg.wordSize
      = chunk cfg s₀ := by
    rcases h.item with hitem | hitem
    · rw [hitem, chunk]
    · rw [hitem, chunk_eq]
  have hinner : Nat.lcm cfg.playItemSize (s.value .atomicItemSize) ∣ chunk cfg s₀ :=
    hchunk ▸ Nat.dvd_lcm_left _ _
  have hle := Nat.le_of_dvd hfit.pos hinner
  rw [OutputPort.minChunk, lcm32_eq (Nat.pos_of_dvd_of_pos hinner hfit.pos) (hle.trans_lt hfit.lt),
    lcm32_eq (hchunk.symm ▸ hfit.pos) (hchunk.symm ▸ hfit.lt), hchunk]

theorem lcm64_eq (hfit : ChunkFits cfg s₀) (h : Resolving cfg s₀ written s) :
    lcm64 (s.value .atomicItemSize) cfg.wordSize
      = Nat.lcm (s₀.value .atomicItemSize) cfg.wordSize := by
  have hdvd : Nat.lcm (s₀.value .atomicItemSize) cfg.wordSize ∣ chunk cfg s₀ := by
    rw [chunk, Nat.lcm_assoc]
    exact Nat.dvd_lcm_right _ _
  have hlt : Nat.lcm (s₀.value .atomicItemSize) cfg.wordSize < 2 ^ 64 :=
    ((Nat.le_of_dvd hfit.pos hdvd).trans_lt hfit.lt).trans (by decide)
  rcases h.item with hitem | hitem
  · rw [hitem, lcm64, Nat.mod_eq_of_lt hlt]
  · rw [hitem, lcm64, Nat.lcm_assoc, Nat.lcm_self, Nat.mod_eq_of_lt hlt]

theorem mem_append_singleton_of_ne (written : List PayloadProp) {p q : PayloadProp}
    (hne : q ≠ p) : q ∈ written ++ [p] ↔ q ∈ written := by
  rw [List.mem_append, List.mem_singleton, or_iff_left hne]

theorem resolving_resolveMtu (h : Resolving cfg s₀ written s) :
    ∃ t, s.resolveMtu (fun q => decide (q ∈ written)) = .ok t ∧
      Resolving cfg s₀ (written ++ [.mtu]) t := by
  have hmin : min (s.value .mtu) s.mtu = newMtu s₀ := by
    rw [h.mtu, min_eq_right h.room]
  obtain ⟨t, hset, hvalue, -, hwords⟩ := @exists_set (fun q => decide (q ∈ written)) s
    .mtu (newMtu s₀) fun hlocked => h.mtuWritten (of_decide_eq_true hlocked)
  have hself : t.value .mtu = newMtu s₀ := by
    rw [hvalue, Function.update_self]
  have hitem : t.value .atomicItemSize = s.value .atomicItemSize := by
    rw [hvalue, Function.update_of_ne (by decide)]
  have hsize : t.value .payloadSize = s.value .payloadSize := by
    rw [hvalue, Function.update_of_ne (by decide)]
  have hitemMem := mem_append_singleton_of_ne written
    (show PayloadProp.atomicItemSize ≠ .mtu by decide)
  have hsizeMem := mem_append_singleton_of_ne written
    (show PayloadProp.payloadSize ≠ .mtu by decide)
  refine ⟨{ t with mtu := t.value .mtu }, ?_, ?_⟩
  · rw [OutputPort.resolveMtu, hmin, hset]
    rfl
  · exact ⟨hself, hself.ge, fun _ => hself, hitem ▸ h.item,
      fun hmem => hitem.trans (h.itemWritten (hitemMem.mp hmem)),
      fun hmem => hsize.trans (h.request (mt hsizeMem.mpr hmem)),
      fun hmem => hsize.trans (h.size (hsizeMem.mp hmem)),
      fun hmem => hwords.trans (hsize.symm ▸ h.words (hsizeMem.mp hmem))⟩

theorem resolving_setPayloadSize (hfit : ChunkFits cfg s₀) (h : Resolving cfg s₀ written s) :
    ∃ t, s.setPayloadSize cfg (fun q => decide (q ∈ written)) = .ok t ∧
      Resolving cfg s₀ (written ++ [.payloadSize]) t := by
  have hmtuLt : newMtu s₀ < 2 ^ 64 := (min_le_right _ _).trans_lt hfit.mtu_lt
  have hmax : s.getMaxPayloadSize cfg = newMtu s₀ - cfg.getChdrHdrLen true := by
    rw [OutputPort.getMaxPayloadSize, h.mtu,
      sizeSub_of_le ((Nat.le_add_left _ _).trans hfit.fits) hmtuLt]
  have hchosen := chosen_coercePayloadSize hfit.pos (Nat.le_sub_of_add_le hfit.fits)
    hfit.request_lt
  have hcoerce : coercePayloadSize (s.getMaxPayloadSize cfg) (s.minChunk cfg)
      (s.value .payloadSize) = newSize cfg s₀ := by
    rw [hmax, minChunk_eq hfit h]
    by_cases hwritten : .payloadSize ∈ written
    · rw [h.size hwritten]
      exact coercePayloadSize_of_chosen hchosen
    · rw [h.request hwritten, newSize]
  obtain ⟨t, hset, hvalue, hmtu, hwords⟩ := @exists_set (fun q => decide (q ∈ written))
    { s with wordsPerPkt := newSize cfg s₀ / cfg.wordSize % 2 ^ 16 }
    .payloadSize _ fun hlocked => h.size (of_decide_eq_true hlocked)
  have hself : t.value .payloadSize = newSize cfg s₀ := by
    rw [hvalue, Function.update_self]
  have hitem : t.value .atomicItemSize = s.value .atomicItemSize := by
    rw [hvalue, Function.update_of_ne (by decide)]
  have hmtuValue : t.value .mtu = s.value .mtu := by
    rw [hvalue, Function.update_of_ne (by decide)]
  have hitemMem := mem_append_singleton_of_ne written
    (show PayloadProp.atomicItemSize ≠ .payloadSize by decide)
  have hmtuMem := mem_append_singleton_of_ne written
    (show PayloadProp.mtu ≠ .payloadSize by decide)
  refine ⟨t, ?_, ?_⟩
  · rw [OutputPort.setPayloadSize]
    rw [hcoerce]
    exact hset
  · exact ⟨hmtu.trans h.mtu, hmtuValue ▸ h.room,
      fun hmem => hmtuValue.trans (h.mtuWritten (hmtuMem.mp hmem)), hitem ▸ h.item,
      fun hmem => hitem.trans (h.itemWritten (hitemMem.mp hmem)),
      fun hnot => absurd (List.mem_append_right _ (List.mem_singleton_self _)) hnot,
      fun _ => hself, fun _ => hwords.trans (hself.symm ▸ rfl)⟩

theorem resolving_resolveAtomicItemSize (hfit : ChunkFits cfg s₀)
    (h : Resolving cfg s₀ written s) :
    ∃ t, s.resolveAtomicItemSize cfg (fun q => decide (q ∈ written)) = .ok t ∧
      Resolving cfg s₀ (written ++ [.atomicItemSize]) t := by
  have hdvd : Nat.lcm (s₀.value .atomicItemSize) cfg.wordSize ∣ chunk cfg s₀ := by
    rw [chunk, Nat.lcm_assoc]
    exact Nat.dvd_lcm_right _ _
  have hle : Nat.lcm (s₀.value .atomicItemSize) cfg.wordSize ≤ s.mtu := by
    rw [h.mtu]
    exact (Nat.le_of_dvd hfit.pos hdvd).trans ((Nat.le_add_right _ _).trans hfit.fits)
  obtain ⟨t, hrun, hvalue, hmtu, hwords⟩ := @exists_resolveAtomicItemSize cfg
    (fun q => decide (q ∈ written)) s _ (lcm64_eq hfit h) (Nat.dvd_lcm_right _ _) hle
    fun hlocked => h.itemWritten (of_decide_eq_true hlocked)
  have hself : t.value .atomicItemSize = Nat.lcm (s₀.value .atomicItemSize) cfg.wordSize := by
    rw [hvalue, Function.update_self]
  have hsize : t.value .payloadSize = s.value .payloadSize := by
    rw [hvalue, Function.update_of_ne (by decide)]
  have hmtuValue : t.value .mtu = s.value .mtu := by
    rw [hvalue, Function.update_of_ne (by decide)]
  have hsizeMem := mem_append_singleton_of_ne written
    (show PayloadProp.payloadSize ≠ .atomicItemSize by decide)
  have hmtuMem := mem_append_singleton_of_ne written
    (show PayloadProp.mtu ≠ .atomicItemSize by decide)
  exact ⟨t, hrun, hmtu.trans h.mtu, hmtuValue ▸ h.room,
    fun hmem => hmtuValue.trans (h.mtuWritten (hmtuMem.mp hmem)), Or.inr hself, fun _ => hself,
    fun hnot => hsize.trans (h.request (mt hsizeMem.mpr hnot)),
    fun hmem => hsize.trans (h.size (hsizeMem.mp hmem)),
    fun hmem => hwords.trans (hsize.symm ▸ h.words (hsizeMem.mp hmem))⟩

theorem resolving_run (hfit : ChunkFits cfg s₀) :
    ∀ r ∈ resolvers cfg, ∀ written s, Resolving cfg s₀ written s →
      ∃ t, r.run (fun q => decide (q ∈ written)) s = .ok t ∧
        Resolving cfg s₀ (written ++ r.outputs) t := by
  intro r hr written s h
  rw [resolvers, List.mem_cons, List.mem_cons, List.mem_singleton] at hr
  rcases hr with rfl | rfl | rfl
  · exact resolving_resolveMtu h
  · exact resolving_setPayloadSize hfit h
  · exact resolving_resolveAtomicItemSize hfit h

theorem resolving_of_resolveMtu (cfg : Config) (s₀ : OutputPort) :
    ∃ t, s₀.resolveMtu (fun q => decide (q ∈ ([] : List PayloadProp))) = .ok t ∧
      Resolving cfg s₀ [.mtu] t := by
  obtain ⟨t, hset, hvalue, -, -⟩ := @exists_set
    (fun q => decide (q ∈ ([] : List PayloadProp))) s₀ .mtu (newMtu s₀)
    fun hlocked => absurd (of_decide_eq_true hlocked) List.not_mem_nil
  have hself : t.value .mtu = newMtu s₀ := by
    rw [hvalue, Function.update_self]
  have hitem : t.value .atomicItemSize = s₀.value .atomicItemSize := by
    rw [hvalue, Function.update_of_ne (by decide)]
  have hsize : t.value .payloadSize = s₀.value .payloadSize := by
    rw [hvalue, Function.update_of_ne (by decide)]
  refine ⟨{ t with mtu := t.value .mtu }, ?_, ?_⟩
  · rw [OutputPort.resolveMtu, ← newMtu, hset]
    rfl
  · exact ⟨hself, hself.ge, fun _ => hself, Or.inl hitem, fun hmem => absurd hmem (by decide),
      fun _ => hsize, fun hmem => absurd hmem (by decide), fun hmem => absurd hmem (by decide)⟩

theorem exists_process (hfit : ChunkFits cfg s₀) {p : PayloadProp}
    (hmtu : s₀.mtu ≤ s₀.value .mtu ∨ p = .mtu) :
    ∃ pass, DirtyLoop.process OutputPort.dirty [] p (resolvers cfg) [] [] s₀ = .ok pass ∧
      Resolving cfg s₀ pass.written pass.state := by
  have hrun := resolving_run hfit
  rcases hmtu with hmtu | rfl
  · have hkept : newMtu s₀ = s₀.mtu := min_eq_right hmtu
    have hstart : Resolving cfg s₀ [] s₀ :=
      ⟨hkept.symm, hkept.le.trans hmtu, fun hmem => absurd hmem List.not_mem_nil, Or.inl rfl,
        fun hmem => absurd hmem List.not_mem_nil, fun _ => rfl,
        fun hmem => absurd hmem List.not_mem_nil, fun hmem => absurd hmem List.not_mem_nil⟩
    exact DirtyLoop.process_succeeds (fun r hr _ => hrun r hr) hstart
  · obtain ⟨t, hfirst, ht⟩ := resolving_of_resolveMtu cfg s₀
    have hmem : PayloadProp.mtu ∈ [PayloadProp.mtu] := List.mem_singleton_self _
    rw [resolvers] at hrun ⊢
    obtain ⟨pass, hpass, hkept⟩ := @DirtyLoop.process_succeeds _ _ _ _ OutputPort.dirty
      [] .mtu _ ([] ++ [PayloadProp.mtu].filter fun q => t.dirty q && decide (q ∉ [])) _ _ _
      (fun r hr _ => hrun r (List.mem_cons_of_mem _ hr)) ht
    exact ⟨pass, (DirtyLoop.process_run_eq_ok hmem).mpr ⟨t, hfirst, hpass⟩, hkept⟩

end Resolution

/-- **The packet size of the replay block.**  For every request, item size, atomic item size, word
size and MTU for which a chunk fits, and every order of the dirty properties in which the MTU comes
first if it gets smaller: the properties are resolved, and the size is whole chunks that fit, as many
as were requested, or one if that is less than a chunk. -/
theorem exists_resolveProps (cfg : Config) (s : OutputPort) (todo : List PayloadProp)
    (hdirty : todo ≠ []) (hmtu : s.mtu ≤ s.value .mtu ∨ todo.head? = some .mtu)
    (hfit : ChunkFits cfg s) :
    ∃ t, resolveProps cfg todo s = .ok t ∧ t.mtu = newMtu s ∧ chunk cfg t = chunk cfg s ∧
      Chosen (chunk cfg s) (newMtu s - cfg.getChdrHdrLen true) (s.value .payloadSize)
        (t.value .payloadSize) ∧
      t.wordsPerPkt = t.value .payloadSize / cfg.wordSize % 2 ^ 16 := by
  obtain ⟨p, rest, rfl⟩ := List.exists_cons_of_ne_nil hdirty
  have hfirst : s.mtu ≤ s.value .mtu ∨ p = .mtu := hmtu.imp_right Option.some_inj.mp
  obtain ⟨pass, hpass, hkept⟩ := exists_process hfit hfirst
  have hpayload : .payloadSize ∈ pass.written := by
    refine (DirtyLoop.process_written hpass).2 _
      (List.mem_cons_of_mem _ List.mem_cons_self) ?_ _ (List.mem_singleton_self _)
    cases p with
    | payloadSize => exact List.mem_cons_self
    | atomicItemSize => exact List.mem_cons_of_mem _ (List.mem_cons_of_mem _ List.mem_cons_self)
    | mtu => exact List.mem_cons_of_mem _ List.mem_cons_self
  have hends := @DirtyLoop.resolveLoop_ne_none _ _ _ _ OutputPort.dirty (resolvers cfg)
    (resolveFuel (p :: rest)) (p :: rest) [] [] s _ List.nodup_nil (le_refl _)
  obtain ⟨result, hresult⟩ := Option.ne_none_iff_exists'.mp hends
  have hloop := hresult
  rw [resolveFuel, List.length_cons, Nat.add_right_comm, DirtyLoop.resolveLoop,
    if_neg List.not_mem_nil, hpass] at hloop
  obtain ⟨t, written, rfl, hin, ht⟩ := DirtyLoop.resolveLoop_succeeds
    (J := fun written s' => .payloadSize ∈ written ∧ Resolving cfg s written s')
    (fun r hr written s' hJ => by
      obtain ⟨t, hrun, ht⟩ := resolving_run hfit r hr written s' hJ.2
      exact ⟨t, hrun, List.mem_append_left _ hJ.1, ht⟩) ⟨hpayload, hkept⟩ hloop
  have hchosen := chosen_coercePayloadSize hfit.pos (Nat.le_sub_of_add_le hfit.fits)
    hfit.request_lt
  refine ⟨t.clean, ?_, ht.mtu, ?_, ?_, ht.words hin⟩
  · rw [resolveProps, hresult]
    rfl
  · show Nat.lcm (Nat.lcm cfg.playItemSize (t.value .atomicItemSize)) cfg.wordSize = _
    rcases ht.item with hitem | hitem
    · rw [hitem, chunk]
    · rw [hitem, chunk_eq]
  · show Chosen _ _ _ (t.value .payloadSize)
    rw [ht.size hin]
    exact hchosen

/-- A word size of 8 bytes, samples of 4 bytes, and CHDR of 64 bits. -/
def smallConfig : Config := ⟨8, 4, 64⟩

/-- A port with the MTU 8000 whose packet size has been requested. -/
def requestedPort (request : ℕ) : OutputPort where
  value p := if p = .payloadSize then request else if p = .atomicItemSize then 8 else 8000
  dirty p := decide (p = .payloadSize)
  mtu := 8000
  wordsPerPkt := 0

/-- A request for 1001 bytes. -/
theorem exists_resolveProps_odd :
    ∃ t, resolveProps smallConfig [.payloadSize] (requestedPort 1001) = .ok t ∧
      t.mtu = newMtu (requestedPort 1001) ∧
      chunk smallConfig t = chunk smallConfig (requestedPort 1001) ∧
      Chosen (chunk smallConfig (requestedPort 1001))
        (newMtu (requestedPort 1001) - smallConfig.getChdrHdrLen true)
        ((requestedPort 1001).value .payloadSize) (t.value .payloadSize) ∧
      t.wordsPerPkt = t.value .payloadSize / smallConfig.wordSize % 2 ^ 16 :=
  exists_resolveProps smallConfig (requestedPort 1001) [.payloadSize] (by decide)
    (Or.inl (by decide)) ⟨by decide, by decide, by decide, by decide, by decide⟩

/-- A request for half a chunk gets a whole one. -/
theorem small_request_exceeded : ¬ ∀ (cfg : Config) (s : OutputPort) (todo : List PayloadProp),
    todo ≠ [] → (∀ p, p ∈ todo ↔ s.dirty p = true) → ChunkFits cfg s →
      ∃ t, resolveProps cfg todo s = .ok t ∧ chunk cfg s ∣ t.value .payloadSize ∧
        0 < t.value .payloadSize ∧
        t.value .payloadSize ≤ newMtu s - cfg.getChdrHdrLen true ∧
        t.value .payloadSize ≤ s.value .payloadSize ∧
        ∀ n, chunk cfg s ∣ n → n ≤ s.value .payloadSize →
          n ≤ newMtu s - cfg.getChdrHdrLen true → n ≤ t.value .payloadSize := by
  intro hall
  obtain ⟨t, ht, -, -, -, hle, -⟩ := hall smallConfig (requestedPort 4) [.payloadSize] (by decide)
    (fun p => by cases p <;> decide) ⟨by decide, by decide, by decide, by decide, by decide⟩
  have hsize : (resolveProps smallConfig [.payloadSize] (requestedPort 4)).toOption.map
      (fun t => t.value .payloadSize) = some 8 := by
    decide +kernel
  rw [ht] at hsize
  have height : t.value .payloadSize = 8 := Option.some_inj.mp hsize
  rw [height] at hle
  exact absurd hle (by decide)

end ReplayPayload
end Rfnoc
end UhdHost
