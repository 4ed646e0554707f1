import Mathlib.Data.List.DropRight
import UhdHost.Library.Walks
import UhdHost.Rfnoc.Topology

/-!
# Paths along static edges

`get_block_chain` and `connect_through_blocks` of `graph_utils.cpp`.

A block ID string of the source stands for a `BlockId` here, and a *place* is a block together with
one of its ports.  `get_block_chain` goes from place to place: each look through the list of static
edges (`lookThrough`) follows every edge that begins where the last one led to, and does not stop at
the first one it finds.  It looks again and again until a look finds nothing or leads to a
terminator block, and nothing else ends it: on a cycle without a terminator it goes on for ever.  So
it is modelled with fuel, and a chain is what it returns with some amount of fuel.

`connect_through_blocks` puts the chain of the source and the chain of the destination one after the
other, without asking whether they meet.

* `exists_getBlockChain_iff`: a chain is returned unless the search comes to a place that it
  comes back to.
* `getBlockChain_blockChain`: a chain that is returned is a path along the static edges that begins
  where it should.
* `exists_connected_iff`: when what was connected can be ordered to a path.
* `connectsThrough_iff`: all of this, for every list of edges, source and destination.
-/

namespace UhdHost
namespace Rfnoc
namespace GraphUtils

open Walks

/-- `block_id_t` -/
structure BlockId where
  deviceNo : ℕ
  blockName : String
  blockCtr : ℕ
  deriving DecidableEq, Repr

/-- A block, and one of its ports. -/
abbrev Place := BlockId × ℕ

/-- A static edge between blocks. -/
abbrev Edge := GraphEdge BlockId

/-- `NODE_ID_SEP` -/
def nodeIdSep : String := "SEP"

/-- `TERMINATOR_BLOCKS` -/
def terminatorBlocks : List (String × Option ℕ) :=
  [(nodeIdSep, none), ("Radio", none), ("NullSrcSink", some 0)]

/-- `check_terminator_block` -/
def checkTerminatorBlock (place : Place) : Bool :=
  terminatorBlocks.any fun termBlock =>
    decide (place.1.blockName = termBlock.1)
      && (termBlock.2.isNone || decide (some place.2 = termBlock.2))

/-- `match(NODE_ID_SEP)`, for the block of a place -/
def IsSep (place : Place) : Prop := place.1.blockName = nodeIdSep

instance (place : Place) : Decidable (IsSep place) :=
  inferInstanceAs (Decidable (place.1.blockName = nodeIdSep))

theorem checkTerminatorBlock_of_isSep {place : Place} (h : IsSep place) :
    checkTerminatorBlock place = true := by
  rw [IsSep] at h
  simp [checkTerminatorBlock, terminatorBlocks, h]

/-- The place at the source of an edge. -/
def src (e : Edge) : Place := (e.srcBlockid, e.srcPort)

/-- The place at the destination of an edge. -/
def dst (e : Edge) : Place := (e.dstBlockid, e.dstPort)

/-- The end at which an edge is found. -/
def near (sourceChain : Bool) (e : Edge) : Place := if sourceChain then src e else dst e

/-- The end that an edge leads to. -/
def far (sourceChain : Bool) (e : Edge) : Place := if sourceChain then dst e else src e

/-! ## The search -/

/-- One look through the list of edges: the edges that are followed, and the place they lead to. -/
def lookThrough (sourceChain : Bool) : List Edge → Place → List Edge × Place
  | [], current => ([], current)
  | edge :: edges, current =>
    if near sourceChain edge = current then
      if checkTerminatorBlock (far sourceChain edge) then ([edge], far sourceChain edge)
      else
        (edge :: (lookThrough sourceChain edges (far sourceChain edge)).1,
          (lookThrough sourceChain edges (far sourceChain edge)).2)
    else lookThrough sourceChain edges current

/-- `get_block_chain`, with at most so many looks through the list -/
def getBlockChain (edges : List Edge) (sourceChain : Bool) : ℕ → Place → Option (List Edge)
  | 0, _ => none
  | fuel + 1, current =>
    if (lookThrough sourceChain edges current).1 = [] then some []
    else if checkTerminatorBlock (lookThrough sourceChain edges current).2 then
      some (lookThrough sourceChain edges current).1
    else
      (getBlockChain edges sourceChain fuel (lookThrough sourceChain edges current).2).map
        ((lookThrough sourceChain edges current).1 ++ ·)

/-- The place from which the list is looked through once more after a look from here, if it is. -/
def nextPlace (edges : List Edge) (sourceChain : Bool) (current : Place) : Option Place :=
  if (lookThrough sourceChain edges current).1 = [] then none
  else if checkTerminatorBlock (lookThrough sourceChain edges current).2 then none
  else some (lookThrough sourceChain edges current).2

/-- A path along edges.  Only its last edge may lead to a terminator block. -/
inductive BlockChain (sourceChain : Bool) : Place → List Edge → Place → Prop where
  | nil (p : Place) : BlockChain sourceChain p [] p
  | last {p : Place} (e : Edge) (hp : near sourceChain e = p) :
      BlockChain sourceChain p [e] (far sourceChain e)
  | step {p q : Place} (e : Edge) {chain : List Edge} (hp : near sourceChain e = p)
      (hfar : checkTerminatorBlock (far sourceChain e) = false)
      (h : BlockChain sourceChain (far sourceChain e) chain q) :
      BlockChain sourceChain p (e :: chain) q

section Search

variable {sourceChain : Bool} {edges : List Edge}

theorem BlockChain.append {p q r : Place} {chain chain' : List Edge}
    (h : BlockChain sourceChain p chain q) (hq : chain = [] ∨ checkTerminatorBlock q = false)
    (h' : BlockChain sourceChain q chain' r) : BlockChain sourceChain p (chain ++ chain') r := by
  induction h with
  | nil _ => exact h'
  | last e hp =>
    rcases hq with hq | hq
    · exact absurd hq (List.cons_ne_nil _ _)
    · exact BlockChain.step e hp hq h'
  | @step p q e chain hp hfar _ ih =>
    refine BlockChain.step e hp hfar (ih ?_ h')
    rcases hq with hq | hq
    · exact absurd hq (List.cons_ne_nil _ _)
    · exact Or.inr hq

theorem BlockChain.exists_mem_far {p q : Place} {chain : List Edge}
    (h : BlockChain sourceChain p chain q) (hchain : chain ≠ []) :
    ∃ e ∈ chain, far sourceChain e = q := by
  induction h with
  | nil _ => exact absurd rfl hchain
  | last e _ => exact ⟨e, List.mem_cons_self, rfl⟩
  | @step p q e chain _ _ h ih =>
    rcases eq_or_ne chain [] with rfl | hne
    · cases h with
      | nil _ => exact ⟨e, List.mem_cons_self, rfl⟩
    · obtain ⟨e', he', hq⟩ := ih hne
      exact ⟨e', List.mem_cons_of_mem e he', hq⟩

theorem blockChain_lookThrough (edges : List Edge) (current : Place) :
    BlockChain sourceChain current (lookThrough sourceChain edges current).1
      (lookThrough sourceChain edges current).2 := by
  induction edges generalizing current with
  | nil => exact BlockChain.nil current
  | cons edge edges ih =>
    rw [lookThrough]
    split_ifs with hnear hterm
    · exact BlockChain.last edge hnear
    · exact BlockChain.step edge hnear (Bool.eq_false_iff.mpr hterm) (ih _)
    · exact ih current

theorem lookThrough_subset (edges : List Edge) (current : Place) :
    (lookThrough sourceChain edges current).1 ⊆ edges := by
  induction edges generalizing current with
  | nil => exact List.Subset.refl []
  | cons edge edges ih =>
    rw [lookThrough]
    split_ifs with hnear hterm
    · exact List.cons_subset.mpr ⟨List.mem_cons_self, List.nil_subset _⟩
    · exact List.cons_subset_cons edge (ih _)
    · exact List.Subset.trans (ih current) (List.subset_cons_self edge edges)

theorem getBlockChain_blockChain {fuel : ℕ} {p : Place} {chain : List Edge}
    (h : getBlockChain edges sourceChain fuel p = some chain) :
    chain ⊆ edges ∧ ∃ q, BlockChain sourceChain p chain q := by
  induction fuel generalizing p chain with
  | zero => exact absurd h (by rw [getBlockChain]; exact Option.some_ne_none chain ∘ Eq.symm)
  | succ fuel ih =>
    rw [getBlockChain] at h
    split_ifs at h with hnone hterm
    · cases h
      exact ⟨List.nil_subset _, p, BlockChain.nil p⟩
    · cases h
      exact ⟨lookThrough_subset edges p, _, blockChain_lookThrough edges p⟩
    · obtain ⟨rest, hrest, rfl⟩ := Option.map_eq_some_iff.mp h
      obtain ⟨hsubset, q, hchain⟩ := ih hrest
      exact ⟨List.append_subset.mpr ⟨lookThrough_subset edges p, hsubset⟩, q,
        (blockChain_lookThrough edges p).append (Or.inr (Bool.eq_false_iff.mpr hterm)) hchain⟩

/-! ## Whether it ends -/

theorem ends_of_getBlockChain {fuel : ℕ} {p : Place} {chain : List Edge}
    (h : getBlockChain edges sourceChain fuel p = some chain) :
    Ends (nextPlace edges sourceChain) p := by
  induction fuel generalizing p chain with
  | zero => exact absurd h (by rw [getBlockChain]; exact Option.some_ne_none chain ∘ Eq.symm)
  | succ fuel ih =>
    rw [getBlockChain] at h
    split_ifs at h with hnone hterm
    · exact Ends.stop (by rw [nextPlace, if_pos hnone])
    · exact Ends.stop (by rw [nextPlace, if_neg hnone, if_pos hterm])
    · obtain ⟨rest, hrest, -⟩ := Option.map_eq_some_iff.mp h
      exact Ends.next (by rw [nextPlace, if_neg hnone, if_neg hterm]) (ih hrest)

theorem exists_getBlockChain_of_ends {p : Place} (h : Ends (nextPlace edges sourceChain) p) :
    ∃ fuel chain, getBlockChain edges sourceChain fuel p = some chain := by
  induction h with
  | @stop p hstop =>
    refine ⟨1, ?_⟩
    rw [getBlockChain]
    rw [nextPlace] at hstop
    split_ifs at hstop ⊢ with hnone hterm
    · exact ⟨_, rfl⟩
    · exact ⟨_, rfl⟩
  | @next p q hnext _ ih =>
    obtain ⟨fuel, chain, hchain⟩ := ih
    refine ⟨fuel + 1, ?_⟩
    rw [getBlockChain]
    rw [nextPlace] at hnext
    split_ifs at hnext ⊢ with hnone hterm
    rw [Option.some_inj.mp hnext, hchain]
    exact ⟨_, rfl⟩

theorem getBlockChain_add {fuel : ℕ} {p : Place} {chain : List Edge}
    (h : getBlockChain edges sourceChain fuel p = some chain) (more : ℕ) :
    getBlockChain edges sourceChain (fuel + more) p = some chain := by
  induction fuel generalizing p chain with
  | zero => exact absurd h (by rw [getBlockChain]; exact Option.some_ne_none chain ∘ Eq.symm)
  | succ fuel ih =>
    rw [Nat.succ_add_eq_add_succ, Nat.add_succ]
    rw [getBlockChain] at h ⊢
    split_ifs at h ⊢ with hnone hterm
    · exact h
    · exact h
    · obtain ⟨rest, hrest, rfl⟩ := Option.map_eq_some_iff.mp h
      rw [ih hrest, Option.map_some]

theorem getBlockChain_unique {fuel fuel' : ℕ} {p : Place} {chain chain' : List Edge}
    (h : getBlockChain edges sourceChain fuel p = some chain)
    (h' : getBlockChain edges sourceChain fuel' p = some chain') : chain = chain' := by
  have hsum := getBlockChain_add h fuel'
  rw [Nat.add_comm, getBlockChain_add h' fuel] at hsum
  exact (Option.some_inj.mp hsum).symm

theorem finite_nextPlace (edges : List Edge) (sourceChain : Bool) :
    {q | ∃ p, nextPlace edges sourceChain p = some q}.Finite := by
  refine (List.finite_toSet (edges.map (far sourceChain))).subset ?_
  rintro q ⟨p, hnext⟩
  rw [nextPlace] at hnext
  split_ifs at hnext with hnone hterm
  rw [← Option.some_inj.mp hnext]
  obtain ⟨e, he, hfar⟩ := (blockChain_lookThrough edges p).exists_mem_far hnone
  exact List.mem_map.mpr ⟨e, lookThrough_subset edges p he, hfar⟩

theorem exists_getBlockChain_iff (p : Place) :
    (∃ fuel chain, getBlockChain edges sourceChain fuel p = some chain) ↔
      ¬ ReturnsFrom (nextPlace edges sourceChain) p := by
  rw [← ends_iff_no_return (finite_nextPlace edges sourceChain)]
  constructor
  · rintro ⟨fuel, chain, h⟩
    exact ends_of_getBlockChain h
  · exact exists_getBlockChain_of_ends

/-! ## The ends of a path -/

/-- Where a path leads to. -/
def chainEnd (sourceChain : Bool) (p : Place) (chain : List Edge) : Place :=
  (chain.getLast?.map (far sourceChain)).getD p

theorem BlockChain.eq_chainEnd {p q : Place} {chain : List Edge}
    (h : BlockChain sourceChain p chain q) : q = chainEnd sourceChain p chain := by
  induction h with
  | nil _ => rfl
  | last e _ => rfl
  | @step p q e chain _ _ h ih =>
    rw [ih, chainEnd, chainEnd]
    rcases chain with _ | ⟨e', chain⟩
    · rfl
    · rw [List.getLast?_cons_cons, List.getLast?_eq_some_getLast (List.cons_ne_nil e' chain)]
      rfl

theorem BlockChain.of_append {p q : Place} {chain rest : List Edge}
    (h : BlockChain sourceChain p (chain ++ rest) q) : ∃ r, BlockChain sourceChain p chain r := by
  generalize hall : chain ++ rest = all at h
  induction h generalizing chain with
  | nil p =>
    rw [(List.append_eq_nil_iff.mp hall).1]
    exact ⟨p, BlockChain.nil p⟩
  | @last p e hp =>
    rcases chain with _ | ⟨e', chain⟩
    · exact ⟨p, BlockChain.nil p⟩
    · obtain ⟨rfl, hnil⟩ := List.cons.inj hall
      rw [(List.append_eq_nil_iff.mp hnil).1]
      exact ⟨_, BlockChain.last e' hp⟩
  | @step p q e all hp hfar _ ih =>
    rcases chain with _ | ⟨e', chain⟩
    · exact ⟨p, BlockChain.nil p⟩
    · obtain ⟨rfl, hrest⟩ := List.cons.inj hall
      obtain ⟨r, hr⟩ := ih hrest
      exact ⟨r, BlockChain.step e' hp hfar hr⟩

theorem BlockChain.walk {p q : Place} {chain : List Edge} (h : BlockChain sourceChain p chain q) :
    Walk p (chain.map fun e => (near sourceChain e, far sourceChain e)) q := by
  induction h with
  | nil p => exact Walk.nil p
  | last e hp => exact Walk.cons _ hp (Walk.nil _)
  | step e hp _ _ ih => exact Walk.cons _ hp ih

/-! ## Stream endpoints on a path -/

theorem not_isSep_of_checkTerminatorBlock {p : Place} (h : checkTerminatorBlock p = false) :
    ¬ IsSep p :=
  fun hsep => Bool.noConfusion ((checkTerminatorBlock_of_isSep hsep).symm.trans h)

theorem BlockChain.not_isSep_near {p q : Place} {chain : List Edge}
    (h : BlockChain sourceChain p chain q) (hp : checkTerminatorBlock p = false) :
    ∀ e ∈ chain, ¬ IsSep (near sourceChain e) := by
  induction h with
  | nil _ => exact fun e he => absurd he List.not_mem_nil
  | last e hnear =>
    intro e' he'
    rw [List.mem_singleton.mp he', hnear]
    exact not_isSep_of_checkTerminatorBlock hp
  | step e hnear hnext _ ih =>
    intro e' he'
    rcases List.mem_cons.mp he' with rfl | he'
    · rw [hnear]
      exact not_isSep_of_checkTerminatorBlock hp
    · exact ih hnext e' he'

theorem BlockChain.near_not_isSep {p q : Place} {e : Edge} {chain : List Edge}
    (h : BlockChain sourceChain p (e :: chain) q) :
    ∀ e' ∈ chain, ¬ IsSep (near sourceChain e') := by
  cases h with
  | last _ _ => exact fun e' he' => absurd he' List.not_mem_nil
  | step _ _ hfar h => exact h.not_isSep_near hfar

theorem BlockChain.isSep_start {p q : Place} {chain : List Edge} {e : Edge}
    (h : BlockChain sourceChain p chain q) (he : e ∈ chain) (hsep : IsSep (near sourceChain e)) :
    IsSep p := by
  cases h with
  | nil _ => exact absurd he List.not_mem_nil
  | last e' hp =>
    rw [List.mem_singleton.mp he, hp] at hsep
    exact hsep
  | step e' hp hfar h =>
    rcases List.mem_cons.mp he with rfl | he
    · exact hp ▸ hsep
    · exact absurd hsep ((BlockChain.step e' hp hfar h).near_not_isSep e he)

theorem BlockChain.eq_of_isSep_near {p q : Place} {chain : List Edge} {e e' : Edge}
    (h : BlockChain sourceChain p chain q) (he : e ∈ chain) (hsep : IsSep (near sourceChain e))
    (he' : e' ∈ chain) (hsep' : IsSep (near sourceChain e')) : e = e' := by
  rcases chain with _ | ⟨first, chain⟩
  · exact absurd he List.not_mem_nil
  · have hrest := h.near_not_isSep
    rcases List.mem_cons.mp he with rfl | he
    · rcases List.mem_cons.mp he' with rfl | he'
      · rfl
      · exact absurd hsep' (hrest e' he')
    · exact absurd hsep (hrest e he)

theorem BlockChain.exists_last {p q : Place} {chain : List Edge} {e : Edge}
    (h : BlockChain sourceChain p chain q) (he : e ∈ chain) (hsep : IsSep (far sourceChain e)) :
    ∃ before, chain = before ++ [e] ∧ (∀ e' ∈ before, ¬ IsSep (far sourceChain e')) ∧
      BlockChain sourceChain p before (near sourceChain e) := by
  induction h with
  | nil _ => exact absurd he List.not_mem_nil
  | last e' hp =>
    cases List.mem_singleton.mp he
    exact ⟨[], rfl, fun e' he' => absurd he' List.not_mem_nil, hp ▸ BlockChain.nil _⟩
  | step e' hp hfar h ih =>
    have hnot : ¬ IsSep (far sourceChain e') := not_isSep_of_checkTerminatorBlock hfar
    rcases List.mem_cons.mp he with rfl | he
    · exact absurd hsep hnot
    · obtain ⟨before, rfl, hbefore, hchain⟩ := ih he
      refine ⟨e' :: before, rfl, ?_, BlockChain.step e' hp hfar hchain⟩
      intro e'' he''
      rcases List.mem_cons.mp he'' with rfl | he''
      · exact hnot
      · exact hbefore e'' he''

theorem BlockChain.isSep_end {p q : Place} {chain : List Edge} {e : Edge}
    (h : BlockChain sourceChain p chain q) (he : e ∈ chain) (hsep : IsSep (far sourceChain e)) :
    IsSep q := by
  obtain ⟨before, rfl, -, -⟩ := h.exists_last he hsep
  rw [h.eq_chainEnd, chainEnd, List.getLast?_concat]
  exact hsep

end Search

/-! ## The connections -/

/-- The arguments of `connect` of the graph. -/
structure Connection where
  src : Place
  dst : Place
  skipPropertyPropagation : Bool
  deriving DecidableEq, Repr

/-- A connection without its flag. -/
def Connection.arc (c : Connection) : Place × Place := (c.src, c.dst)

/-- `connect` of the graph: the connections that were made, or what it throws.  Whether it throws is
up to the graph. -/
def connect (throws : List Connection → Connection → Option UhdError) (made : List Connection)
    (c : Connection) : Except UhdError (List Connection) :=
  match throws made c with
  | some error => .error error
  | none => .ok (made ++ [c])

/-- What `connect_through_blocks` remembers of the edges it has gone through. -/
structure SepEnds where
  srcToSep : Option Place := none
  sepToDst : Option Place := none
  skipPp : Bool
  deriving DecidableEq, Repr

/-- The loop of `connect_through_blocks` over the edges of the chain. -/
def connectEdges (throws : List Connection → Connection → Option UhdError) :
    List Edge → SepEnds → List Connection → Except UhdError (SepEnds × List Connection)
  | [], ends, made => .ok (ends, made)
  | edge :: chain, ends, made =>
    if IsSep (dst edge) then
      connectEdges throws chain { ends with srcToSep := some (src edge) } made
    else if IsSep (src edge) then
      connectEdges throws chain { ends with sepToDst := some (dst edge) } made
    else do
      let made ← connect throws made ⟨src edge, dst edge, ends.skipPp⟩
      connectEdges throws chain { ends with skipPp := false } made

/-- The end of `connect_through_blocks`: the dynamic connection between the stream endpoints. -/
def connectSeps (throws : List Connection → Connection → Option UhdError) (ends : SepEnds)
    (made : List Connection) : Except UhdError (List Connection) :=
  match ends.srcToSep, ends.sepToDst with
  | some s, some d => connect throws made ⟨s, d, ends.skipPp⟩
  | none, none => .ok made
  | _, _ => .error (.runtimeError "[graph_utils] Incomplete path. Only one SEP edge found.")

/-- What is left of a chain when everything after the last edge into a place is popped. -/
def popAfter (place : Place) (chain : List Edge) : List Edge :=
  chain.rdropWhile fun edge => decide (dst edge ≠ place)

/-- The chain that `connect_through_blocks` puts together of the chain of the source and the chain
of the destination.  The latter is only looked for if the destination is not on the former. -/
def joinChains (d : Place) (sourceChain destChain : List Edge) : List Edge :=
  if ∃ edge ∈ sourceChain, dst edge = d then popAfter d sourceChain
  else sourceChain ++ destChain

/-- All connections of a chain, and what they add to those of the graph. -/
def connectChain (throws : List Connection → Connection → Option UhdError)
    (blockChain : List Edge) (skipPropertyPropagation : Bool) : Except UhdError (List Connection) :=
  (connectEdges throws blockChain { skipPp := skipPropertyPropagation } []).bind fun done =>
    connectSeps throws done.1 done.2

/-- `connect_through_blocks`: the chain it returns and the connections it has made -/
def connectThroughBlocks (throws : List Connection → Connection → Option UhdError)
    (edges : List Edge) (fuel : ℕ) (s d : Place) (skipPropertyPropagation : Bool) :
    Option (Except UhdError (List Edge × List Connection)) :=
  (getBlockChain edges true fuel s).bind fun sourceChain =>
    (if ∃ edge ∈ sourceChain, dst edge = d then some []
      else getBlockChain edges false fuel d).map fun destChain =>
        (connectChain throws (joinChains d sourceChain destChain) skipPropertyPropagation).map
          fun made => (joinChains d sourceChain destChain, made)

/-! ## What is connected -/

/-- What the loop remembers as the end of the path before the stream endpoints. -/
def srcToSep : List Edge → Option Place
  | [] => none
  | edge :: chain => (srcToSep chain).or (if IsSep (dst edge) then some (src edge) else none)

/-- What the loop remembers as the beginning of the path after the stream endpoints. -/
def sepToDst : List Edge → Option Place
  | [] => none
  | edge :: chain =>
    (sepToDst chain).or (if ¬ IsSep (dst edge) ∧ IsSep (src edge) then some (dst edge) else none)

/-- An edge of a chain as an arc. -/
def arc (edge : Edge) : Place × Place := (src edge, dst edge)

/-- The edges of a chain that are connected as they are. -/
def inner (chain : List Edge) : List (Place × Place) :=
  (chain.filter fun edge => decide (¬ IsSep (dst edge) ∧ ¬ IsSep (src edge))).map arc

/-- The dynamic connection. -/
def joined (chain : List Edge) : List (Place × Place) :=
  match srcToSep chain, sepToDst chain with
  | some s, some d => [(s, d)]
  | _, _ => []

/-- All that is connected. -/
def connected (chain : List Edge) : List (Place × Place) := inner chain ++ joined chain

/-- An edge of the chain leads to a stream endpoint. -/
def EntersSep (chain : List Edge) : Prop := ∃ edge ∈ chain, IsSep (dst edge)

/-- An edge of the chain leads from a stream endpoint to something else. -/
def LeavesSep (chain : List Edge) : Prop := ∃ edge ∈ chain, ¬ IsSep (dst edge) ∧ IsSep (src edge)

theorem exists_srcToSep {chain : List Edge} {s : Place} (h : srcToSep chain = some s) :
    ∃ edge ∈ chain, IsSep (dst edge) ∧ src edge = s := by
  induction chain with
  | nil => exact absurd h (by rw [srcToSep]; exact Option.some_ne_none s ∘ Eq.symm)
  | cons edge chain ih =>
    rw [srcToSep] at h
    rcases Option.or_eq_some_iff.mp h with h | ⟨-, h⟩
    · obtain ⟨edge', hmem, hedge⟩ := ih h
      exact ⟨edge', List.mem_cons_of_mem edge hmem, hedge⟩
    · split_ifs at h with hsep
      exact ⟨edge, List.mem_cons_self, hsep, Option.some_inj.mp h⟩

theorem exists_sepToDst {chain : List Edge} {d : Place} (h : sepToDst chain = some d) :
    ∃ edge ∈ chain, (¬ IsSep (dst edge) ∧ IsSep (src edge)) ∧ dst edge = d := by
  induction chain with
  | nil => exact absurd h (by rw [sepToDst]; exact Option.some_ne_none d ∘ Eq.symm)
  | cons edge chain ih =>
    rw [sepToDst] at h
    rcases Option.or_eq_some_iff.mp h with h | ⟨-, h⟩
    · obtain ⟨edge', hmem, hedge⟩ := ih h
      exact ⟨edge', List.mem_cons_of_mem edge hmem, hedge⟩
    · split_ifs at h with hsep
      exact ⟨edge, List.mem_cons_self, hsep, Option.some_inj.mp h⟩

theorem srcToSep_eq_none {chain : List Edge} : srcToSep chain = none ↔ ¬ EntersSep chain := by
  induction chain with
  | nil =>
    refine iff_of_true rfl ?_
    rintro ⟨edge, hmem, -⟩
    exact absurd hmem List.not_mem_nil
  | cons edge chain ih =>
    rw [srcToSep, Option.or_eq_none_iff, ih, EntersSep, EntersSep, List.exists_mem_cons_iff, not_or,
      and_comm]
    refine and_congr_left fun _ => ?_
    split_ifs with hsep
    · exact ⟨False.elim, fun h => absurd hsep h⟩
    · exact ⟨fun _ => hsep, fun _ => rfl⟩

theorem sepToDst_eq_none {chain : List Edge} : sepToDst chain = none ↔ ¬ LeavesSep chain := by
  induction chain with
  | nil =>
    refine iff_of_true rfl ?_
    rintro ⟨edge, hmem, -⟩
    exact absurd hmem List.not_mem_nil
  | cons edge chain ih =>
    rw [sepToDst, Option.or_eq_none_iff, ih, LeavesSep, LeavesSep, List.exists_mem_cons_iff, not_or,
      and_comm]
    refine and_congr_left fun _ => ?_
    split_ifs with hsep
    · exact ⟨False.elim, fun h => absurd hsep h⟩
    · exact ⟨fun _ => hsep, fun _ => rfl⟩

theorem connect_eq_ok {throws : List Connection → Connection → Option UhdError}
    {made made' : List Connection} {c : Connection} (h : connect throws made c = .ok made') :
    made' = made ++ [c] := by
  rw [connect] at h
  split at h
  · cases h
  · exact (Except.ok.inj h).symm

theorem connectEdges_eq_ok {throws : List Connection → Connection → Option UhdError}
    {chain : List Edge} {ends ends' : SepEnds} {made made' : List Connection}
    (h : connectEdges throws chain ends made = .ok (ends', made')) :
    ends'.srcToSep = (srcToSep chain).or ends.srcToSep ∧
      ends'.sepToDst = (sepToDst chain).or ends.sepToDst ∧
      made'.map Connection.arc = made.map Connection.arc ++ inner chain := by
  induction chain generalizing ends made with
  | nil =>
    cases h
    exact ⟨rfl, rfl, (List.append_nil _).symm⟩
  | cons edge chain ih =>
    rw [connectEdges] at h
    split_ifs at h with hdst hsrc
    · obtain ⟨hs, hd, hmade⟩ := ih h
      refine ⟨?_, ?_, ?_⟩
      · rw [hs, srcToSep, if_pos hdst, Option.or_assoc, Option.some_or]
      · rw [hd, sepToDst, if_neg (fun h => h.1 hdst), Option.or_none]
      · rw [hmade, inner, inner, List.filter_cons_of_neg (by simp [hdst])]
    · obtain ⟨hs, hd, hmade⟩ := ih h
      refine ⟨?_, ?_, ?_⟩
      · rw [hs, srcToSep, if_neg hdst, Option.or_none]
      · rw [hd, sepToDst, if_pos ⟨hdst, hsrc⟩, Option.or_assoc, Option.some_or]
      · rw [hmade, inner, inner, List.filter_cons_of_neg (by simp [hsrc])]
    · rcases hconnect : connect throws made ⟨src edge, dst edge, ends.skipPp⟩ with error | made₁
      · rw [hconnect] at h
        cases h
      · rw [hconnect] at h
        obtain ⟨hs, hd, hmade⟩ := ih h
        refine ⟨?_, ?_, ?_⟩
        · rw [hs, srcToSep, if_neg hdst, Option.or_none]
        · rw [hd, sepToDst, if_neg (fun h => hsrc h.2), Option.or_none]
        · rw [hmade, connect_eq_ok hconnect, inner, inner,
            List.filter_cons_of_pos (by simp [hdst, hsrc]), List.map_append, List.append_assoc]
          rfl

/-- A graph that makes every connection. -/
def neverThrows (_ : List Connection) (_ : Connection) : Option UhdError := none

theorem exists_connectEdges_neverThrows (chain : List Edge) (ends : SepEnds)
    (made : List Connection) :
    ∃ ends' made', connectEdges neverThrows chain ends made = .ok (ends', made') := by
  induction chain generalizing ends made with
  | nil => exact ⟨ends, made, rfl⟩
  | cons edge chain ih =>
    rw [connectEdges]
    split_ifs with hdst hsrc
    · exact ih _ _
    · exact ih _ _
    · exact ih _ _

theorem connectChain_eq_ok {throws : List Connection → Connection → Option UhdError}
    {chain : List Edge} {made : List Connection} {skip : Bool}
    (h : connectChain throws chain skip = .ok made) :
    (EntersSep chain ↔ LeavesSep chain) ∧ made.map Connection.arc = connected chain := by
  rw [connectChain] at h
  rcases hedges : connectEdges throws chain { skipPp := skip } [] with error | ⟨ends, made'⟩
  · rw [hedges] at h
    cases h
  · rw [hedges] at h
    have hseps : connectSeps throws ends made' = .ok made := h
    obtain ⟨hs, hd, hmade⟩ := connectEdges_eq_ok hedges
    rw [Option.or_none] at hs hd
    rw [List.map_nil, List.nil_append] at hmade
    rw [connectSeps, hs, hd] at hseps
    rw [← not_iff_not, ← srcToSep_eq_none, ← sepToDst_eq_none, connected, joined]
    rcases hsrc : srcToSep chain with _ | s
    · rcases hdst : sepToDst chain with _ | d
      · rw [hsrc, hdst] at hseps
        rw [← Except.ok.inj hseps, List.append_nil]
        exact ⟨Iff.rfl, hmade⟩
      · rw [hsrc, hdst] at hseps
        cases hseps
    · rcases hdst : sepToDst chain with _ | d
      · rw [hsrc, hdst] at hseps
        cases hseps
      · rw [hsrc, hdst] at hseps
        rw [connect_eq_ok hseps, List.map_append, hmade]
        exact ⟨by simp, rfl⟩

theorem exists_connectChain_neverThrows {chain : List Edge}
    (h : EntersSep chain ↔ LeavesSep chain) (skip : Bool) :
    ∃ made, connectChain neverThrows chain skip = .ok made := by
  obtain ⟨ends, made, hedges⟩ :=
    exists_connectEdges_neverThrows chain { skipPp := skip } []
  obtain ⟨hs, hd, -⟩ := connectEdges_eq_ok hedges
  rw [Option.or_none] at hs hd
  rw [← not_iff_not, ← srcToSep_eq_none, ← sepToDst_eq_none] at h
  rw [connectChain, hedges, Except.bind, connectSeps, hs, hd]
  rcases hsrc : srcToSep chain with _ | s
  · rw [h.mp hsrc]
    exact ⟨made, rfl⟩
  · rcases hdst : sepToDst chain with _ | d
    · exact absurd (hsrc.symm.trans (h.mpr hdst)) (Option.some_ne_none s)
    · exact ⟨_, rfl⟩

/-! ## Whether it is a path -/

/-- A chain is returned, and it is a path along the static edges that begins at the place. -/
def ReturnsPath (edges : List Edge) (sourceChain : Bool) (p : Place) : Prop :=
  ∃ fuel chain, getBlockChain edges sourceChain fuel p = some chain ∧ chain ⊆ edges ∧
    ∃ q, Walk p (chain.map fun e => (near sourceChain e, far sourceChain e)) q

/-- Whenever the call returns, what it has connected is one path between the two places. -/
def ConnectsPath (edges : List Edge) (s d : Place) : Prop :=
  ∀ throws fuel skip chain made,
    connectThroughBlocks throws edges fuel s d skip = some (.ok (chain, made)) →
      ∃ path, path.Perm (made.map Connection.arc) ∧ Walk s path d

/-- Both searches return paths, and what is connected is a path. -/
def ConnectsThrough (edges : List Edge) (s d : Place) : Prop :=
  ReturnsPath edges true s ∧ ReturnsPath edges false d ∧ ConnectsPath edges s d

/-- The two chains fit.  If the destination is on the chain of the source, then the part up to it
does not lead from a stream endpoint to a stream endpoint.  Otherwise the chains have stream
endpoints at one kind of edge only (then the call throws); or they have none and end at the same
place; or the one leads to a stream endpoint and the other comes from one, and neither does both. -/
def Fit (s d : Place) (sourceChain destChain : List Edge) : Prop :=
  if ∃ edge ∈ sourceChain, dst edge = d then
    ¬ (EntersSep (popAfter d sourceChain) ∧ LeavesSep (popAfter d sourceChain))
  else
    ¬ (EntersSep (sourceChain ++ destChain) ↔ LeavesSep (sourceChain ++ destChain)) ∨
      (¬ EntersSep (sourceChain ++ destChain) ∧ ¬ LeavesSep (sourceChain ++ destChain) ∧
        chainEnd true s sourceChain = chainEnd false d destChain) ∨
      (EntersSep sourceChain ∧ ¬ LeavesSep sourceChain ∧
        LeavesSep destChain ∧ ¬ EntersSep destChain)

/-- The chains of the source and of the destination fit. -/
def ChainsFit (edges : List Edge) (s d : Place) : Prop :=
  ∀ fuel fuel' chain chain', getBlockChain edges true fuel s = some chain →
    getBlockChain edges false fuel' d = some chain' → Fit s d chain chain'

section Paths

variable {s d q r : Place} {chain chain' : List Edge}

theorem entersSep_append :
    EntersSep (chain ++ chain') ↔ EntersSep chain ∨ EntersSep chain' := by
  simp only [EntersSep, List.mem_append, or_and_right, exists_or]

theorem leavesSep_append :
    LeavesSep (chain ++ chain') ↔ LeavesSep chain ∨ LeavesSep chain' := by
  simp only [LeavesSep, List.mem_append, or_and_right, exists_or]

theorem inner_of_no_sep (henters : ¬ EntersSep chain) (hleaves : ¬ LeavesSep chain) :
    inner chain = chain.map arc := by
  rw [inner, List.filter_eq_self.mpr]
  refine fun e he => decide_eq_true ⟨fun h => henters ⟨e, he, h⟩, ?_⟩
  exact fun h => hleaves ⟨e, he, fun h' => henters ⟨e, he, h'⟩, h⟩

theorem connected_of_no_sep (henters : ¬ EntersSep chain) (hleaves : ¬ LeavesSep chain) :
    connected chain = chain.map arc := by
  rw [connected, joined, srcToSep_eq_none.mpr henters, inner_of_no_sep henters hleaves,
    List.append_nil]

theorem inner_append : inner (chain ++ chain') = inner chain ++ inner chain' := by
  rw [inner, List.filter_append, List.map_append]
  rfl

theorem srcToSep_append : srcToSep (chain ++ chain') = (srcToSep chain').or (srcToSep chain) := by
  induction chain with
  | nil => exact Option.or_none.symm
  | cons e chain ih => rw [List.cons_append, srcToSep, srcToSep, ih, Option.or_assoc]

theorem sepToDst_append : sepToDst (chain ++ chain') = (sepToDst chain').or (sepToDst chain) := by
  induction chain with
  | nil => exact Option.or_none.symm
  | cons e chain ih => rw [List.cons_append, sepToDst, sepToDst, ih, Option.or_assoc]

theorem not_isSep_snd {a : Place × Place} (h : a ∈ connected chain) : ¬ IsSep a.2 := by
  rcases List.mem_append.mp h with h | h
  · obtain ⟨e, he, rfl⟩ := List.mem_map.mp h
    exact (of_decide_eq_true (List.mem_filter.mp he).2).1
  · rw [joined] at h
    rcases hsrc : srcToSep chain with _ | s
    · rw [hsrc] at h
      exact absurd h List.not_mem_nil
    · rcases hdst : sepToDst chain with _ | d
      · rw [hsrc, hdst] at h
        exact absurd h List.not_mem_nil
      · rw [hsrc, hdst] at h
        rw [List.mem_singleton.mp h]
        obtain ⟨e, -, ⟨hnot, -⟩, rfl⟩ := exists_sepToDst hdst
        exact hnot

theorem not_isSep_fst (hsep : ∀ e ∈ chain, IsSep (dst e) → ¬ IsSep (src e)) {a : Place × Place}
    (h : a ∈ connected chain) : ¬ IsSep a.1 := by
  rcases List.mem_append.mp h with h | h
  · obtain ⟨e, he, rfl⟩ := List.mem_map.mp h
    exact (of_decide_eq_true (List.mem_filter.mp he).2).2
  · rw [joined] at h
    rcases hsrc : srcToSep chain with _ | s
    · rw [hsrc] at h
      exact absurd h List.not_mem_nil
    · rcases hdst : sepToDst chain with _ | d
      · rw [hsrc, hdst] at h
        exact absurd h List.not_mem_nil
      · rw [hsrc, hdst] at h
        rw [List.mem_singleton.mp h]
        obtain ⟨e, he, hto, rfl⟩ := exists_srcToSep hsrc
        exact hsep e he hto

theorem connected_ne_nil (henters : EntersSep chain) (hleaves : LeavesSep chain) :
    connected chain ≠ [] := by
  rcases hsrc : srcToSep chain with _ | s
  · exact absurd henters (srcToSep_eq_none.mp hsrc)
  · rcases hdst : sepToDst chain with _ | d
    · exact absurd hleaves (sepToDst_eq_none.mp hdst)
    · rw [connected, joined, hsrc, hdst]
      exact List.append_ne_nil_of_right_ne_nil _ (List.cons_ne_nil _ _)

theorem not_isSep_of_walk {path : List (Place × Place)} (henters : EntersSep chain)
    (hleaves : LeavesSep chain) (hperm : path.Perm (connected chain)) (hwalk : Walk s path d) :
    ¬ IsSep d := by
  have hpath : path ≠ [] := fun hnil =>
    connected_ne_nil henters hleaves (List.nil_perm.mp (hnil ▸ hperm))
  obtain ⟨a, ha, rfl⟩ := hwalk.exists_mem_snd hpath
  exact not_isSep_snd (hperm.mem_iff.mp ha)

theorem not_isSep_of_walk_start {path : List (Place × Place)}
    (hsep : ∀ e ∈ chain, IsSep (dst e) → ¬ IsSep (src e)) (henters : EntersSep chain)
    (hleaves : LeavesSep chain) (hperm : path.Perm (connected chain)) (hwalk : Walk s path d) :
    ¬ IsSep s := by
  have hpath : path ≠ [] := fun hnil =>
    connected_ne_nil henters hleaves (List.nil_perm.mp (hnil ▸ hperm))
  obtain ⟨a, ha, rfl⟩ := hwalk.exists_mem_fst hpath
  exact not_isSep_fst hsep (hperm.mem_iff.mp ha)

theorem walk_arc (h : BlockChain true s chain q) : Walk s (chain.map arc) q := h.walk

theorem walk_arc_reverse (h : BlockChain false d chain q) : Walk q (chain.map arc).reverse d := by
  have hwalk := h.walk.reverse
  rw [List.map_map] at hwalk
  exact hwalk

theorem blockChain_popAfter (h : BlockChain true s chain q)
    (hd : ∃ edge ∈ chain, dst edge = d) : BlockChain true s (popAfter d chain) d := by
  obtain ⟨rest, hrest⟩ := List.rdropWhile_prefix (fun e : Edge => decide (dst e ≠ d)) chain
  have hsplit : popAfter d chain ++ rest = chain := hrest
  obtain ⟨r, hr⟩ := (hsplit.symm ▸ h).of_append
  have hne : popAfter d chain ≠ [] := by
    intro hnil
    obtain ⟨e, he, hdst⟩ := hd
    exact of_decide_eq_true (List.rdropWhile_eq_nil_iff.mp hnil e he) hdst
  have hlast := List.rdropWhile_last_not (fun e : Edge => decide (dst e ≠ d)) chain hne
  have hend : chainEnd true s (popAfter d chain) = d := by
    rw [chainEnd, List.getLast?_eq_some_getLast hne]
    exact not_not.mp fun hnot => hlast (decide_eq_true hnot)
  rw [← hr.eq_chainEnd] at hend
  exact hend ▸ hr

theorem exists_connected_popAfter_iff (h : BlockChain true s chain q)
    (hd : ∃ edge ∈ chain, dst edge = d)
    (hiff : EntersSep (popAfter d chain) ↔ LeavesSep (popAfter d chain)) :
    (∃ path, path.Perm (connected (popAfter d chain)) ∧ Walk s path d) ↔
      ¬ (EntersSep (popAfter d chain) ∧ LeavesSep (popAfter d chain)) := by
  have hchain := blockChain_popAfter h hd
  constructor
  · rintro ⟨path, hperm, hwalk⟩ ⟨henters, hleaves⟩
    obtain ⟨e, he, hsep⟩ := henters
    exact not_isSep_of_walk ⟨e, he, hsep⟩ hleaves hperm hwalk (hchain.isSep_end he hsep)
  · intro hnot
    have henters : ¬ EntersSep (popAfter d chain) := fun hent => hnot ⟨hent, hiff.mp hent⟩
    rw [connected_of_no_sep henters (fun hleaves => henters (hiff.mpr hleaves))]
    exact ⟨_, List.Perm.refl _, walk_arc hchain⟩

theorem exists_connected_of_sep (h : BlockChain true s chain q) (h' : BlockChain false d chain' r)
    (henters : EntersSep chain) (hleaves : ¬ LeavesSep chain) (hleaves' : LeavesSep chain')
    (henters' : ¬ EntersSep chain') :
    ∃ path, path.Perm (connected (chain ++ chain')) ∧ Walk s path d := by
  obtain ⟨x, hx, hxsep⟩ := henters
  obtain ⟨z, hz, hznot, hzsep⟩ := hleaves'
  obtain ⟨before, rfl, hbefore, hwalk⟩ := h.exists_last hx hxsep
  obtain ⟨after, rfl, hafter, hwalk'⟩ := h'.exists_last hz hzsep
  have hinner : inner (before ++ [x]) = before.map arc := by
    have hx' : inner [x] = [] := by
      rw [inner, List.filter_cons_of_neg]
      · rfl
      · exact fun hnot => (of_decide_eq_true hnot).1 hxsep
    rw [inner_append, inner_of_no_sep, hx']
    · exact List.append_nil _
    · rintro ⟨e, he, hsep⟩
      exact hbefore e he hsep
    · rintro ⟨e, he, hsep⟩
      exact hleaves ⟨e, List.mem_append_left _ he, hsep⟩
  have hinner' : inner (after ++ [z]) = after.map arc := by
    have hz' : inner [z] = [] := by
      rw [inner, List.filter_cons_of_neg]
      · rfl
      · exact fun hnot => (of_decide_eq_true hnot).2 hzsep
    rw [inner_append, inner_of_no_sep, hz']
    · exact List.append_nil _
    · rintro ⟨e, he, hsep⟩
      exact henters' ⟨e, List.mem_append_left _ he, hsep⟩
    · rintro ⟨e, he, -, hsep⟩
      exact hafter e he hsep
  have hsrc : srcToSep (before ++ [x] ++ (after ++ [z])) = some (src x) := by
    have hx' : srcToSep [x] = some (src x) := by
      rw [srcToSep, if_pos (show IsSep (dst x) from hxsep)]
      rfl
    rw [srcToSep_append, srcToSep_eq_none.mpr henters', Option.none_or, srcToSep_append, hx',
      Option.some_or]
  have hdst : sepToDst (before ++ [x] ++ (after ++ [z])) = some (dst z) := by
    have hz' : sepToDst [z] = some (dst z) := by
      rw [sepToDst, if_pos ⟨hznot, show IsSep (src z) from hzsep⟩]
      rfl
    rw [sepToDst_append, sepToDst_append, hz', Option.some_or, Option.some_or]
  refine ⟨before.map arc ++ ((src x, dst z) :: (after.map arc).reverse), ?_,
    (walk_arc hwalk).append (Walk.cons _ rfl (walk_arc_reverse hwalk'))⟩
  rw [connected, joined, hsrc, hdst, inner_append, hinner, hinner', List.append_assoc]
  refine List.Perm.append_left _ ?_
  exact (List.perm_append_singleton _ _).symm.trans ((List.reverse_perm _).append_right _)

theorem exists_connected_append_iff (h : BlockChain true s chain q)
    (h' : BlockChain false d chain' r)
    (hiff : EntersSep (chain ++ chain') ↔ LeavesSep (chain ++ chain')) :
    (∃ path, path.Perm (connected (chain ++ chain')) ∧ Walk s path d) ↔
      (¬ EntersSep (chain ++ chain') ∧ ¬ LeavesSep (chain ++ chain') ∧ q = r) ∨
        (EntersSep chain ∧ ¬ LeavesSep chain ∧ LeavesSep chain' ∧ ¬ EntersSep chain') := by
  by_cases henters : EntersSep (chain ++ chain')
  · have hleaves := hiff.mp henters
    constructor
    · rintro ⟨path, hperm, hwalk⟩
      have hd : ¬ IsSep d := not_isSep_of_walk henters hleaves hperm hwalk
      have henters' : ¬ EntersSep chain' := by
        rintro ⟨e, he, hsep⟩
        exact hd (h'.isSep_start he hsep)
      have hnot : ¬ LeavesSep chain := by
        rintro ⟨e, he, hedst, hesrc⟩
        refine not_isSep_of_walk_start ?_ henters hleaves hperm hwalk (h.isSep_start he hesrc)
        intro e' he' hsep' hsrc'
        rcases List.mem_append.mp he' with he' | he'
        · exact hedst (h.eq_of_isSep_near he hesrc he' hsrc' ▸ hsep')
        · exact henters' ⟨e', he', hsep'⟩
      refine Or.inr ⟨(entersSep_append.mp henters).resolve_right henters', hnot,
        (leavesSep_append.mp hleaves).resolve_left hnot, henters'⟩
    · rintro (⟨hnot, -, -⟩ | ⟨hent, hnot, hleaves', hnot'⟩)
      · exact absurd henters hnot
      · exact exists_connected_of_sep h h' hent hnot hleaves' hnot'
  · have hleaves : ¬ LeavesSep (chain ++ chain') := fun hl => henters (hiff.mpr hl)
    rw [connected_of_no_sep henters hleaves, List.map_append]
    have hjoin := exists_perm_walk_append_iff (walk_arc h) (walk_arc_reverse h')
    have hreverse : (chain.map arc ++ (chain'.map arc).reverse).Perm
        (chain.map arc ++ chain'.map arc) :=
      (List.reverse_perm _).append_left _
    constructor
    · rintro ⟨path, hperm, hwalk⟩
      exact Or.inl ⟨henters, hleaves, hjoin.mp ⟨path, hperm.trans hreverse.symm, hwalk⟩⟩
    · rintro (⟨-, -, hqr⟩ | ⟨hent, -, -, -⟩)
      · obtain ⟨path, hperm, hwalk⟩ := hjoin.mpr hqr
        exact ⟨path, hperm.trans hreverse, hwalk⟩
      · exact absurd (entersSep_append.mpr (Or.inl hent)) henters

theorem blockChain_of_returned {edges : List Edge} {sourceChain : Bool} {fuel : ℕ} {p : Place}
    (h : getBlockChain edges sourceChain fuel p = some chain) :
    BlockChain sourceChain p chain (chainEnd sourceChain p chain) := by
  obtain ⟨-, q, hchain⟩ := getBlockChain_blockChain h
  exact hchain.eq_chainEnd ▸ hchain

theorem connectThroughBlocks_eq_ok {throws : List Connection → Connection → Option UhdError}
    {edges : List Edge} {fuel : ℕ} {skip : Bool} {made : List Connection} {all : List Edge}
    (h : connectThroughBlocks throws edges fuel s d skip = some (.ok (all, made))) :
    ∃ chain chain', getBlockChain edges true fuel s = some chain ∧
      ((∃ edge ∈ chain, dst edge = d) ∨ getBlockChain edges false fuel d = some chain') ∧
      connectChain throws (joinChains d chain chain') skip = .ok made := by
  rw [connectThroughBlocks] at h
  obtain ⟨chain, hchain, h⟩ := Option.bind_eq_some_iff.mp h
  obtain ⟨chain', hchain', h⟩ := Option.map_eq_some_iff.mp h
  refine ⟨chain, chain', hchain, ?_, ?_⟩
  · split_ifs at hchain' with hd
    · exact Or.inl hd
    · exact Or.inr hchain'
  · rcases hmade : connectChain throws (joinChains d chain chain') skip with error | made'
    · rw [hmade] at h
      cases h
    · rw [hmade] at h
      cases h
      rfl

theorem exists_connected_iff (h : BlockChain true s chain (chainEnd true s chain))
    (h' : BlockChain false d chain' (chainEnd false d chain')) :
    ((EntersSep (joinChains d chain chain') ↔ LeavesSep (joinChains d chain chain')) →
      ∃ path, path.Perm (connected (joinChains d chain chain')) ∧ Walk s path d) ↔
      Fit s d chain chain' := by
  rw [joinChains, Fit]
  split_ifs with hd
  · constructor
    · intro hpath hboth
      have hiff := iff_of_true hboth.1 hboth.2
      exact (exists_connected_popAfter_iff h hd hiff).mp (hpath hiff) hboth
    · intro hnot hiff
      exact (exists_connected_popAfter_iff h hd hiff).mpr hnot
  · constructor
    · intro hpath
      by_cases hiff : EntersSep (chain ++ chain') ↔ LeavesSep (chain ++ chain')
      · exact Or.inr ((exists_connected_append_iff h h' hiff).mp (hpath hiff))
      · exact Or.inl hiff
    · rintro (hnot | hfit) hiff
      · exact absurd hiff hnot
      · exact (exists_connected_append_iff h h' hiff).mpr hfit

end Paths

theorem connectThroughBlocks_of_chains {throws : List Connection → Connection → Option UhdError}
    {edges : List Edge} {s d : Place} {fuel fuel' : ℕ} {chain chain' : List Edge} {skip : Bool}
    {made : List Connection} (h : getBlockChain edges true fuel s = some chain)
    (h' : getBlockChain edges false fuel' d = some chain')
    (hmade : connectChain throws (joinChains d chain chain') skip = .ok made) :
    connectThroughBlocks throws edges (fuel + fuel') s d skip =
      some (.ok (joinChains d chain chain', made)) := by
  have h₂ := getBlockChain_add h' fuel
  rw [Nat.add_comm] at h₂
  rw [connectThroughBlocks, getBlockChain_add h fuel', Option.bind_some, h₂]
  split_ifs with hon
  · have hjoin : joinChains d chain [] = joinChains d chain chain' := by
      rw [joinChains, joinChains, if_pos hon, if_pos hon]
    rw [Option.map_some, hjoin, hmade]
    rfl
  · rw [Option.map_some, hmade]
    rfl

theorem returnsPath_iff {edges : List Edge} {sourceChain : Bool} {p : Place} :
    ReturnsPath edges sourceChain p ↔ ¬ ReturnsFrom (nextPlace edges sourceChain) p := by
  rw [← exists_getBlockChain_iff]
  constructor
  · rintro ⟨fuel, chain, h, -⟩
    exact ⟨fuel, chain, h⟩
  · rintro ⟨fuel, chain, h⟩
    obtain ⟨hsubset, q, hchain⟩ := getBlockChain_blockChain h
    exact ⟨fuel, chain, h, hsubset, q, hchain.walk⟩

/-- **The claim about paths, for every list of static edges, every source and every destination.**
The searches return paths, and what is connected is one path whenever the call returns, if and only
if neither search comes to a place that it comes back to, and the two chains fit. -/
theorem connectsThrough_iff (edges : List Edge) (s d : Place) :
    ConnectsThrough edges s d ↔ ¬ ReturnsFrom (nextPlace edges true) s ∧
      ¬ ReturnsFrom (nextPlace edges false) d ∧ ChainsFit edges s d := by
  rw [ConnectsThrough, returnsPath_iff, returnsPath_iff]
  refine and_congr_right fun hs => and_congr_right fun hd => ?_
  obtain ⟨fuel₁, chain₁, h₁⟩ := (exists_getBlockChain_iff s).mpr hs
  obtain ⟨fuel₂, chain₂, h₂⟩ := (exists_getBlockChain_iff d).mpr hd
  have hfit := exists_connected_iff (blockChain_of_returned h₁) (blockChain_of_returned h₂)
  have hchains : ChainsFit edges s d ↔ Fit s d chain₁ chain₂ := by
    refine ⟨fun h => h _ _ _ _ h₁ h₂, fun h fuel fuel' chain chain' hc hc' => ?_⟩
    rw [getBlockChain_unique hc h₁, getBlockChain_unique hc' h₂]
    exact h
  rw [hchains, ← hfit]
  constructor
  · intro hpath hiff
    obtain ⟨made, hmade⟩ := exists_connectChain_neverThrows hiff false
    rw [← (connectChain_eq_ok hmade).2]
    exact hpath _ _ _ _ _ (connectThroughBlocks_of_chains h₁ h₂ hmade)
  · intro hpath throws fuel skip all made hreturns
    obtain ⟨chain, chain', hc, hc', hmade⟩ := connectThroughBlocks_eq_ok hreturns
    rw [getBlockChain_unique hc h₁] at hc' hmade
    have hjoin : joinChains d chain₁ chain' = joinChains d chain₁ chain₂ := by
      rcases hc' with hon | hc'
      · rw [joinChains, joinChains, if_pos hon, if_pos hon]
      · rw [getBlockChain_unique hc' h₂]
    rw [hjoin] at hmade
    obtain ⟨hiff, hmade⟩ := connectChain_eq_ok hmade
    rw [hmade]
    exact hpath hiff

/-- Two blocks of a device. -/
def ddc : BlockId := ⟨0, "DDC", 0⟩

@[inherit_doc ddc]
def duc : BlockId := ⟨0, "DUC", 0⟩

/-- A loop of two static edges, without a terminator. -/
def loop : List Edge := [⟨ddc, 0, duc, 0, .static, true⟩, ⟨duc, 0, ddc, 0, .static, true⟩]

/-- **Round and round.**  On a loop of two blocks the search never ends, from the one or from the
other.  And where there are no static edges at all, nothing is connected and nothing is thrown. -/
theorem search_never_ends :
    (∀ fuel, getBlockChain loop true fuel (ddc, 0) = none) ∧
      ¬ ConnectsThrough loop (ddc, 0) (duc, 0) ∧
      connectThroughBlocks neverThrows [] 1 (ddc, 0) (duc, 0) false = some (.ok ([], [])) ∧
      ¬ ConnectsThrough [] (ddc, 0) (duc, 0) := by
  have hnext : nextPlace loop true (ddc, 0) = some (ddc, 0) := by decide
  have hreturns : ReturnsFrom (nextPlace loop true) (ddc, 0) :=
    ⟨(ddc, 0), Relation.ReflTransGen.refl, Relation.TransGen.single hnext⟩
  have hempty : connectThroughBlocks neverThrows [] 1 (ddc, 0) (duc, 0) false =
      some (.ok ([], [])) := by rfl
  refine ⟨fun fuel => ?_, fun h => ?_, hempty, fun h => ?_⟩
  · rw [Option.eq_none_iff_forall_ne_some]
    exact fun chain hchain => (exists_getBlockChain_iff _).mp ⟨fuel, chain, hchain⟩ hreturns
  · exact (returnsPath_iff.mp h.1) hreturns
  · obtain ⟨path, hperm, hwalk⟩ := h.2.2 _ _ _ _ _ hempty
    rw [List.map_nil] at hperm
    rw [hperm.eq_nil] at hwalk
    exact absurd hwalk.eq_of_nil (by decide)

end GraphUtils
end Rfnoc
end UhdHost
