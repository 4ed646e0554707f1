import Mathlib
import UhdHost.Usrp.ZbxCpldCtrl

/-!
# The cache of the registers of the ZBX CPLD

* `SavedRight`: as far as `get_reg` and `set_reg` reach, what was saved is what the CPLD has.  Every
  call keeps that, unless it saves the values while others are to be written (`Inv.run`).
* `SavedRight.coherent`, `Inv.answers`: so the cache and the getters are right.
* `not_coherent_construct`: but they do not reach to the end of the arrays, and what the constructor
  writes there is not what it has in its cache.
-/

namespace UhdHost
namespace Usrp
namespace ZbxCpld

open ZbxSyncExpert (ZbxLo)

/-! ## The fields that are kept -/

namespace Field

variable {f : Field} {i : ℕ}

theorem readonly_of_kept (h : f.kept = true) : f.info.readonly = false := by
  have hall : ∀ f ∈ all, f.kept = true → f.info.readonly = false := by decide +kernel
  exact hall f (mem_all f) h

theorem index_of_kept (h : f.kept = true) : f.index 0x1000 = none ∧ f.index loSpiOffset = none := by
  have hall : ∀ f ∈ all, f.kept = true → f.index 0x1000 = none ∧ f.index loSpiOffset = none := by
    decide +kernel
  exact hall f (mem_all f) h

theorem addr_ne_loSpiOffset (h : f.kept = true) (hi : i < f.found) : f.addr i ≠ loSpiOffset := by
  intro haddr
  have hsome := index_addr hi
  rw [haddr, (index_of_kept h).2] at hsome
  cases hsome

theorem width_le_storage (f : Field) : f.info.width ≤ f.storage := by
  have hall : ∀ f ∈ all, f.info.width ≤ f.storage := by decide +kernel
  exact hall f (mem_all f)

theorem default_lt (f : Field) : f.info.default < 2 ^ f.storage := by
  have hall : ∀ f ∈ all, f.info.default < 2 ^ f.storage := by decide +kernel
  exact hall f (mem_all f)

end Field

/-! ## What the parts of a call do -/

/-- The values fit into the types of the fields. -/
def Regs.Bounded (regs : Regs) : Prop := ∀ f i, regs f i < 2 ^ f.storage

namespace Regs

variable {regs : Regs}

theorem setField_of_ne {f g : Field} {i v : ℕ} (h : g ≠ f) : regs.setField f i v g = regs g := by
  rw [setField, Function.update_of_ne h]

theorem Bounded.setField (h : regs.Bounded) (f : Field) (i v : ℕ) :
    (regs.setField f i v).Bounded := by
  intro g j
  rw [Regs.setField]
  rcases eq_or_ne g f with rfl | hg
  · rw [Function.update_self]
    rcases eq_or_ne j i with rfl | hj
    · rw [Function.update_self]
      exact Nat.mod_lt _ (Nat.two_pow_pos _)
    · rw [Function.update_of_ne hj]
      exact h g j
  · rw [Function.update_of_ne hg]
    exact h g j

theorem Bounded.setReg (h : regs.Bounded) (a word : ℕ) : (regs.setReg a word).Bounded := by
  intro g j
  rw [Regs.setReg]
  split_ifs
  · exact (fieldOf_lt g word).trans_le (Nat.pow_le_pow_right Nat.two_pos g.width_le_storage)
  · exact h g j

theorem setReg_of_index_eq_none {f : Field} {a word : ℕ} (h : f.index a = none) (i : ℕ) :
    regs.setReg a word f i = regs f i := by
  rw [setReg, h, if_neg]
  intro hsome
  cases hsome

end Regs

namespace Ctrl

variable {s t : Ctrl} {fault : Fault} {f : Field} {i : ℕ}

theorem hw_poke (addrs : List ℕ) (s : Ctrl) (a : ℕ) :
    (s.poke addrs).hw a = if a ∈ addrs then s.regs.getReg a else s.hw a := by
  have hfold : ∀ (addrs : List ℕ) (hw : ℕ → ℕ),
      addrs.foldl (fun hw a => Function.update hw a (s.regs.getReg a)) hw a =
        if a ∈ addrs then s.regs.getReg a else hw a := by
    intro addrs
    induction addrs with
    | nil => exact fun hw => (if_neg List.not_mem_nil).symm
    | cons b addrs ih =>
      intro hw
      rw [List.foldl_cons, ih]
      by_cases ha : a ∈ addrs
      · rw [if_pos ha, if_pos (List.mem_cons_of_mem b ha)]
      · rw [if_neg ha]
        rcases eq_or_ne a b with rfl | hne
        · rw [Function.update_self, if_pos List.mem_cons_self]
        · rw [Function.update_of_ne hne, if_neg]
          exact fun hmem => ha ((List.mem_cons.mp hmem).resolve_left hne)
  exact hfold addrs s.hw

theorem regs_assign_of_kept {as : List Assignment} (has : ∀ a ∈ as, a.1.kept = false)
    (hf : f.kept = true) : (s.assign as).regs f = s.regs f := by
  have hfold : ∀ (as : List Assignment) (regs : Regs), (∀ a ∈ as, a.1.kept = false) →
      as.foldl (fun regs a => regs.setField a.1 a.2.1 a.2.2) regs f = regs f := by
    intro as
    induction as with
    | nil => exact fun regs _ => rfl
    | cons a as ih =>
      intro regs has
      rw [List.foldl_cons, ih _ fun b hb => has b (List.mem_cons_of_mem a hb)]
      refine Regs.setField_of_ne fun heq => ?_
      have hkept := has a List.mem_cons_self
      rw [← heq, hf] at hkept
      cases hkept
  exact hfold as s.regs has

theorem bounded_assign (h : s.regs.Bounded) (as : List Assignment) :
    (s.assign as).regs.Bounded := by
  have hfold : ∀ (as : List Assignment) (regs : Regs), regs.Bounded →
      Regs.Bounded (as.foldl (fun regs a => regs.setField a.1 a.2.1 a.2.2) regs) := by
    intro as
    induction as with
    | nil => exact fun regs h => h
    | cons a as ih => exact fun regs h => ih _ (h.setField a.1 a.2.1 a.2.2)
  exact hfold as s.regs h

theorem commit_cases (hfault : ∀ p ∈ fault, p.1 = 0) (s : Ctrl) :
    (∃ e, s.commit fault = (s, .error e)) ∨
      s.commit fault = ((s.poke (Regs.changedAddrs s.saved s.regs)).saveState, .ok 0) := by
  cases fault with
  | none => exact Or.inr rfl
  | some p =>
    obtain ⟨n, e⟩ := p
    obtain rfl : n = 0 := hfault _ rfl
    rw [commit]
    split_ifs
    · exact Or.inl ⟨e, rfl⟩
    · exact Or.inr rfl

theorem loSpiTransact_cases (lo : ZbxLo) (addr data : ℕ) (read : Bool) (fault : Fault)
    (s : Ctrl) : ∃ as bs : List Assignment, (∀ a ∈ as ++ bs, a.1.kept = false) ∧
      ((∃ e, s.loSpiTransact lo addr data read fault = (s.assign as, .error e)) ∨
        s.loSpiTransact lo addr data read fault =
          ((((s.assign as).poke [loSpiOffset]).assign bs).saveState, .ok 0)) := by
  refine ⟨[(.address, 0, addr), (.data, 0, data), (.readFlag, 0, if read then 1 else 0),
    (.loSelect, 0, ZbxLo.all.idxOf lo), (.startTransaction, 0, 1)], [(.startTransaction, 0, 0)],
    ?_, ?_⟩
  · intro a ha
    fin_cases ha <;> rfl
  · rcases fault with _ | ⟨_ | n, e⟩
    · exact Or.inr rfl
    · exact Or.inl ⟨e, rfl⟩
    · exact Or.inr rfl

theorem pollLoSpi_eq (readings : List ℕ) (s : Ctrl) :
    (s.pollLoSpi readings).saved = s.saved ∧ (s.pollLoSpi readings).hw = s.hw ∧
      ∀ f : Field, f.kept = true → ∀ i, (s.pollLoSpi readings).regs f i = s.regs f i := by
  induction readings generalizing s with
  | nil => exact ⟨rfl, rfl, fun _ _ _ => rfl⟩
  | cons reading readings ih =>
    have hreg : ∀ f : Field, f.kept = true → ∀ i,
        s.regs.setReg loSpiOffset reading f i = s.regs f i := fun f hf i =>
      Regs.setReg_of_index_eq_none (Field.index_of_kept hf).2 i
    rw [pollLoSpi]
    dsimp only
    split_ifs
    · exact ⟨rfl, rfl, hreg⟩
    · obtain ⟨hsaved, hhw, hregs⟩ := ih { s with regs := s.regs.setReg loSpiOffset reading }
      exact ⟨hsaved, hhw, fun f hf i => (hregs f hf i).trans (hreg f hf i)⟩

theorem fst_loPeek16 {lo : ZbxLo} {addr v : ℕ} {readings : List ℕ}
    (h : s.loSpiTransact lo addr 0 true fault = (t, .ok v)) :
    (s.loPeek16 lo addr readings fault).1 = (t.pollLoSpi readings).saveState := by
  rw [loPeek16, h]
  dsimp only
  split_ifs <;> rfl

end Ctrl

/-! ## What was saved -/

/-- What was saved is what the CPLD has, as far as `get_reg` and `set_reg` reach. -/
def SavedRight (s : Ctrl) : Prop :=
  ∀ f : Field, f.kept = true → ∀ i < f.found,
    Regs.fieldOf f (s.hw (f.addr i)) = s.saved f i % 2 ^ f.info.width

/-- Nothing is to be written, as far as `get_reg` and `set_reg` reach. -/
def Clean (s : Ctrl) : Prop :=
  ∀ f : Field, f.kept = true → ∀ i < f.found, s.saved f i = s.regs f i

namespace SavedRight

variable {s t : Ctrl} {fault : Fault}

theorem of_eq (h : SavedRight s) (hsaved : t.saved = s.saved) (hhw : t.hw = s.hw) :
    SavedRight t := by
  intro f hf i hi
  rw [hsaved, hhw]
  exact h f hf i hi

theorem saveState (h : SavedRight s) (hclean : Clean s)
    (hregs : ∀ f : Field, f.kept = true → ∀ i, t.regs f i = s.regs f i)
    (hhw : ∀ f : Field, f.kept = true → ∀ i < f.found, t.hw (f.addr i) = s.hw (f.addr i)) :
    SavedRight t.saveState := by
  intro f hf i hi
  have hvalue : t.saveState.saved f i = s.saved f i := (hregs f hf i).trans (hclean f hf i hi).symm
  rw [hvalue]
  exact (congrArg (Regs.fieldOf f) (hhw f hf i hi)).trans (h f hf i hi)

theorem of_notMem_changedAddrs (h : SavedRight s) {f : Field} (hf : f.kept = true) {i : ℕ}
    (hi : i < f.found) (hmem : f.addr i ∉ Regs.changedAddrs s.saved s.regs) :
    Regs.fieldOf f (s.hw (f.addr i)) = s.regs f i % 2 ^ f.info.width := by
  have heq : s.saved f i = s.regs f i := by
    by_contra hne
    exact hmem (Regs.mem_changedAddrs.mpr
      ⟨f, i, ⟨f.readonly_of_kept hf, hi.trans_le f.found_le_length⟩, hne, rfl⟩)
  rw [h f hf i hi, heq]

theorem coherent (h : SavedRight s) : Coherent Field.found s := by
  intro f hf i hi
  by_cases hmem : f.addr i ∈ Regs.changedAddrs s.saved s.regs
  · exact Or.inr hmem
  · exact Or.inl (h.of_notMem_changedAddrs hf hi hmem)

theorem poke (h : SavedRight s) :
    SavedRight (s.poke (Regs.changedAddrs s.saved s.regs)).saveState := by
  intro f hf i hi
  show Regs.fieldOf f ((s.poke _).hw (f.addr i)) = s.regs f i % 2 ^ f.info.width
  rw [Ctrl.hw_poke]
  split_ifs with hmem
  · exact Regs.field_getReg (Field.index_addr hi)
  · exact h.of_notMem_changedAddrs hf hi hmem

theorem commit (h : SavedRight s) (hfault : ∀ p ∈ fault, p.1 = 0) :
    SavedRight (s.commit fault).1 := by
  rcases Ctrl.commit_cases hfault s with ⟨e, heq⟩ | heq
  · rw [heq]
    exact h
  · rw [heq]
    exact h.poke

theorem updateField (h : SavedRight s) (f : Field) (i : ℕ) : SavedRight (s.updateField f i) := by
  rw [Ctrl.updateField]
  split_ifs with hall
  · intro g hg j hj
    show Regs.fieldOf g (s.hw (g.addr j)) =
      s.regs.setReg (f.addr i) (s.hw (f.addr i)) g j % 2 ^ g.info.width
    by_cases haddr : g.addr j = f.addr i
    · rw [Regs.setReg_of_addr_eq hj haddr, Nat.mod_eq_of_lt (Regs.fieldOf_lt _ _), haddr]
    · -- nothing but the register of `f` has changed
      have hother : SavedRight { s with regs := s.regs.setReg (f.addr i) (s.hw (f.addr i)) } :=
        h.of_eq rfl rfl
      refine hother.of_notMem_changedAddrs hg hj fun hmem => ?_
      exact haddr (of_decide_eq_true (List.all_eq_true.mp hall _ hmem))
  · exact h.of_eq rfl rfl

theorem writeVectors (h : SavedRight s) (hfault : ∀ p ∈ fault, p.1 = 0)
    (vectors : List (Field × List ℕ)) : SavedRight (s.writeVectors fault vectors).1 := by
  induction vectors generalizing s with
  | nil => exact h.commit hfault
  | cons vector vectors ih =>
    rw [Ctrl.writeVectors]
    split_ifs
    · exact h
    · exact ih (h.of_eq rfl rfl)

theorem clean_saveState (s : Ctrl) : Clean s.saveState := fun _ _ _ _ => rfl

theorem loSpiTransact (h : SavedRight s) (hclean : Clean s) (lo : ZbxLo) (addr data : ℕ)
    (read : Bool) : SavedRight (s.loSpiTransact lo addr data read fault).1 := by
  obtain ⟨as, bs, hother, ⟨e, heq⟩ | heq⟩ := Ctrl.loSpiTransact_cases lo addr data read fault s
  · rw [heq]
    exact h.of_eq rfl rfl
  · rw [heq]
    refine h.saveState hclean (fun f hf i => ?_) fun f hf i hi => ?_
    · rw [Ctrl.regs_assign_of_kept (fun b hb => hother b (List.mem_append_right as hb)) hf]
      exact congrFun
        (Ctrl.regs_assign_of_kept (fun a ha => hother a (List.mem_append_left bs ha)) hf) i
    · refine (Ctrl.hw_poke [loSpiOffset] (s.assign as) (f.addr i)).trans (if_neg fun hmem => ?_)
      exact Field.addr_ne_loSpiOffset hf hi (List.mem_singleton.mp hmem)

theorem loPeek16 (h : SavedRight s) (hclean : Clean s) (lo : ZbxLo) (addr : ℕ)
    (readings : List ℕ) : SavedRight (s.loPeek16 lo addr readings fault).1 := by
  have htransact : SavedRight (s.loSpiTransact lo addr 0 true fault).1 :=
    h.loSpiTransact hclean lo addr 0 true
  obtain ⟨as, bs, -, ⟨e, heq⟩ | heq⟩ := Ctrl.loSpiTransact_cases lo addr 0 true fault s
  · rw [Ctrl.loPeek16, heq]
    rw [heq] at htransact
    exact htransact
  · rw [Ctrl.fst_loPeek16 heq]
    rw [heq] at htransact
    obtain ⟨-, hhw, hregs⟩ := Ctrl.pollLoSpi_eq readings _
    exact htransact.saveState (clean_saveState _) hregs fun f _ i _ => congrFun hhw (f.addr i)

theorem pulseLoSync (h : SavedRight s) (hfault : ∀ p ∈ fault, p.1 = 0) (los : List ZbxLo) :
    SavedRight (s.pulseLoSync los fault).1 := by
  have hcommit : SavedRight ((s.assign (los.map fun lo => (.pulseSync lo, 0, 1))).commit fault).1 :=
    commit (h.of_eq rfl rfl) hfault
  rw [Ctrl.pulseLoSync]
  split_ifs
  · exact h
  · rcases Ctrl.commit_cases hfault (s.assign (los.map fun lo => (.pulseSync lo, 0, 1))) with
      ⟨e, heq⟩ | heq
    · rw [heq] at hcommit ⊢
      exact hcommit
    · rw [heq] at hcommit ⊢
      refine hcommit.saveState (clean_saveState _) (fun f hf i => ?_) fun _ _ _ _ => rfl
      refine congrFun (Ctrl.regs_assign_of_kept (fun a ha => ?_) hf) i
      obtain ⟨lo, -, rfl⟩ := List.mem_map.mp ha
      rfl

end SavedRight

/-! ## What the constructor leaves -/

theorem savedRight_construct (hw : ℕ → ℕ) : SavedRight (Ctrl.construct hw) := by
  intro f hf i hi
  have hmem : f.addr i ∈ Regs.allAddrs := by
    rw [Regs.allAddrs, Regs.mem_asSet]
    exact List.mem_map.mpr ⟨(f, i), Regs.mem_slots.mpr
      ⟨f.readonly_of_kept hf, hi.trans_le f.found_le_length⟩, rfl⟩
  refine (congrArg (Regs.fieldOf f)
    ((Ctrl.hw_poke Regs.allAddrs ⟨Regs.initial, Regs.initial, hw⟩ _).trans (if_pos hmem))).trans ?_
  exact Regs.field_getReg (Field.index_addr hi)

theorem not_coherent_construct (hw : ℕ → ℕ) : ¬ Coherent Field.length (Ctrl.construct hw) := by
  intro h
  have hmem : (Field.txDsa1 0).addr 64 ∈ Regs.allAddrs := by
    rw [Regs.allAddrs, Regs.mem_asSet]
    exact List.mem_map.mpr ⟨(.txDsa1 0, 64), Regs.mem_slots.mpr ⟨rfl, by decide⟩, rfl⟩
  have hzero : (Ctrl.construct hw).hw ((Field.txDsa1 0).addr 64) = 0 := by
    refine ((Ctrl.hw_poke Regs.allAddrs ⟨Regs.initial, Regs.initial, hw⟩ _).trans
      (if_pos hmem)).trans ?_
    exact Regs.getReg_eq_zero (by decide +kernel)
  rcases h (.txDsa1 0) rfl 64 (by decide) with heq | hchanged
  · rw [hzero] at heq
    have hne : Regs.fieldOf (.txDsa1 0) 0 ≠ 31 % 2 ^ 5 := by decide
    exact hne heq
  · have hnil : Regs.changedAddrs (Ctrl.construct hw).saved (Ctrl.construct hw).regs = [] :=
      Regs.changedAddrs_self _
    rw [hnil] at hchanged
    cases hchanged

/-! ## The values fit into their types -/

section Bounded

variable {s : Ctrl} {fault : Fault}

theorem regs_commit (fault : Fault) (s : Ctrl) : (s.commit fault).1.regs = s.regs := by
  cases fault with
  | none => rfl
  | some p =>
    unfold Ctrl.commit
    dsimp only
    split_ifs <;> rfl

theorem regs_updateField (f : Field) (i : ℕ) (s : Ctrl) :
    (s.updateField f i).regs = s.regs.setReg (f.addr i) (s.hw (f.addr i)) := by
  rw [Ctrl.updateField]
  split_ifs <;> rfl

theorem bounded_pollLoSpi (readings : List ℕ) (h : s.regs.Bounded) :
    (s.pollLoSpi readings).regs.Bounded := by
  induction readings generalizing s with
  | nil => exact h
  | cons reading readings ih =>
    rw [Ctrl.pollLoSpi]
    dsimp only
    split_ifs
    · exact h.setReg loSpiOffset reading
    · exact ih (h.setReg loSpiOffset reading)

theorem bounded_loSpiTransact (h : s.regs.Bounded) (lo : ZbxLo) (addr data : ℕ) (read : Bool) :
    (s.loSpiTransact lo addr data read fault).1.regs.Bounded := by
  obtain ⟨as, bs, -, ⟨e, heq⟩ | heq⟩ := Ctrl.loSpiTransact_cases lo addr data read fault s
  · rw [heq]
    exact Ctrl.bounded_assign h as
  · rw [heq]
    exact Ctrl.bounded_assign (s := (s.assign as).poke _) (Ctrl.bounded_assign h as) bs

theorem bounded_loPeek16 (h : s.regs.Bounded) (lo : ZbxLo) (addr : ℕ) (readings : List ℕ) :
    (s.loPeek16 lo addr readings fault).1.regs.Bounded := by
  have htransact : (s.loSpiTransact lo addr 0 true fault).1.regs.Bounded :=
    bounded_loSpiTransact h lo addr 0 true
  obtain ⟨as, bs, -, ⟨e, heq⟩ | heq⟩ := Ctrl.loSpiTransact_cases lo addr 0 true fault s
  · rw [Ctrl.loPeek16, heq]
    rw [heq] at htransact
    exact htransact
  · rw [Ctrl.fst_loPeek16 heq]
    rw [heq] at htransact
    exact bounded_pollLoSpi readings htransact

theorem bounded_writeVectors (h : s.regs.Bounded) (vectors : List (Field × List ℕ)) :
    (s.writeVectors fault vectors).1.regs.Bounded := by
  induction vectors generalizing s with
  | nil =>
    rw [Ctrl.writeVectors, regs_commit]
    exact h
  | cons vector vectors ih =>
    rw [Ctrl.writeVectors]
    split_ifs
    · exact h
    · exact ih (Ctrl.bounded_assign h _)

theorem bounded_pulseLoSync (h : s.regs.Bounded) (los : List ZbxLo) :
    (s.pulseLoSync los fault).1.regs.Bounded := by
  have hcommit : ((s.assign (los.map fun lo => (.pulseSync lo, 0, 1))).commit
      fault).1.regs.Bounded := by
    rw [regs_commit]
    exact Ctrl.bounded_assign h _
  rw [Ctrl.pulseLoSync]
  split_ifs
  · exact h
  · rcases hrun : (s.assign (los.map fun lo => (.pulseSync lo, 0, 1))).commit fault with
      ⟨u, e | v⟩ <;> rw [hrun] at hcommit
    · exact hcommit
    · exact Ctrl.bounded_assign hcommit _

end Bounded

/-! ## Runs -/

/-- What every careful call keeps. -/
structure Inv (s : Ctrl) : Prop where
  saved : SavedRight s
  bounded : s.regs.Bounded

namespace Inv

variable {s : Ctrl}

theorem construct (hw : ℕ → ℕ) : Inv (Ctrl.construct hw) :=
  ⟨savedRight_construct hw, fun f _ => f.default_lt⟩

theorem commit {fault : Fault} (h : Inv s) (hfault : ∀ p ∈ fault, p.1 = 0) :
    Inv (s.commit fault).1 := by
  refine ⟨h.saved.commit hfault, ?_⟩
  rw [regs_commit]
  exact h.bounded

theorem updateField (h : Inv s) (f : Field) (i : ℕ) : Inv (s.updateField f i) := by
  refine ⟨h.saved.updateField f i, ?_⟩
  rw [regs_updateField]
  exact h.bounded.setReg _ _

theorem run {c : Call × Fault} (h : Inv s) (hc : Careful s c) : Inv (c.1.run c.2 s).1 := by
  obtain ⟨call, fault⟩ := c
  have hfault : ∀ p ∈ fault, p.1 = 0 := hc.fault
  cases call with
  | set setter =>
    rw [Call.run]
    cases setter.assignments with
    | error e => exact h
    | ok result => exact commit ⟨h.saved.of_eq rfl rfl, Ctrl.bounded_assign h.bounded _⟩ hfault
  | getScratch => exact h
  | getCurrentConfig channel target reading =>
    rw [Call.run]
    by_cases hchan : channel < 2
    · rw [dif_pos hchan]
      refine ⟨h.saved.saveState (hc.saved (decide_eq_true hchan)) (fun f hf i => ?_)
        fun _ _ _ _ => rfl, h.bounded.setReg _ _⟩
      exact Regs.setReg_of_index_eq_none (Field.index_of_kept hf).1 i
    · rw [dif_neg hchan]
      exact h
  | getTxDsa channel idx txDsa updateCache =>
    rw [Call.run]
    by_cases hchan : channel < 2
    · rw [dif_pos hchan]
      cases txDsaField ⟨channel, hchan⟩ txDsa with
      | none => exact h
      | some f =>
        cases updateCache with
        | false => exact h
        | true => exact h.updateField f idx
    · rw [dif_neg hchan]
      exact h
  | getRxDsa channel idx rxDsa updateCache =>
    rw [Call.run]
    by_cases hchan : channel < 2
    · rw [dif_pos hchan]
      cases updateCache with
      | false => exact h
      | true => exact h.updateField _ idx
    · rw [dif_neg hchan]
      exact h
  | getTxAmpSettings channel idx updateCache =>
    rw [Call.run]
    by_cases hchan : channel < 2
    · rw [dif_pos hchan]
      cases updateCache with
      | false => exact h
      | true => exact (h.updateField _ idx).updateField _ idx
    · rw [dif_neg hchan]
      exact h
  | loPoke16 lo addr data =>
    exact ⟨h.saved.loSpiTransact (hc.saved rfl) lo addr data false,
      bounded_loSpiTransact h.bounded lo addr data false⟩
  | loPeek16 lo addr readings =>
    exact ⟨h.saved.loPeek16 (hc.saved rfl) lo addr readings,
      bounded_loPeek16 h.bounded lo addr readings⟩
  | loSpiReady reading => exact h
  | getLoSource idx lo => exact h
  | pulseLoSync refChan los =>
    exact ⟨h.saved.pulseLoSync hfault los, bounded_pulseLoSync h.bounded los⟩
  | updateTxDsaSettings dsa1 dsa2 =>
    exact ⟨h.saved.writeVectors hfault _, bounded_writeVectors h.bounded _⟩
  | updateRxDsaSettings dsa1 dsa2 dsa3A dsa3B =>
    exact ⟨h.saved.writeVectors hfault _, bounded_writeVectors h.bounded _⟩

theorem regs_updateField_self {f : Field} {i : ℕ} (hi : i < f.found) :
    (s.updateField f i).regs f i = Regs.fieldOf f (s.hw (f.addr i)) := by
  rw [regs_updateField]
  exact Regs.setReg_of_addr_eq hi rfl

theorem hw_updateField (f : Field) (i : ℕ) (s : Ctrl) : (s.updateField f i).hw = s.hw := by
  rw [Ctrl.updateField]
  split_ifs <;> rfl

theorem regs_txAnt_10_zero {i : ℕ} (hi : i < 64) :
    ((s.updateField (.txAnt_10 0) i).updateField (.txAnt_11 0) i).regs (.txAnt_10 0) i =
      Regs.fieldOf (.txAnt_10 0) (s.hw ((Field.txAnt_10 0).addr i)) := by
  rw [regs_updateField, hw_updateField]
  exact Regs.setReg_of_addr_eq hi rfl

theorem regs_txAnt_10_one {i : ℕ} (hi : i < 64) :
    ((s.updateField (.txAnt_10 0) i).updateField (.txAnt_11 0) i).regs (.txAnt_10 1) i =
      s.regs (.txAnt_10 1) i := by
  have hne : (Field.txAnt_10 1).addr i ≠ (Field.txAnt_10 0).addr i :=
    fun heq => absurd (Nat.add_right_cancel heq) (by decide)
  rw [regs_updateField, regs_updateField]
  exact (Regs.setReg_of_addr_ne (f := .txAnt_11 0) hi hne).trans
    (Regs.setReg_of_addr_ne (f := .txAnt_10 0) hi hne)

theorem currentField_eq (c : Fin 2) (target : AtrModeTarget) :
    (currentField c target).found = 1 ∧ (currentField c target).addr 0 = 0x1000 := by
  cases target <;> exact ⟨rfl, rfl⟩

theorem found_txDsaField {c : Fin 2} {txDsa : DsaType} {f : Field}
    (h : txDsaField c txDsa = some f) : f.found = 64 := by
  cases txDsa with
  | dsa1 => exact Option.some.inj h ▸ rfl
  | dsa2 => exact Option.some.inj h ▸ rfl
  | dsa3A => cases h
  | dsa3B => cases h

theorem found_rxDsaField (c : Fin 2) (rxDsa : DsaType) : (rxDsaField c rxDsa).found = 64 := by
  cases rxDsa <;> rfl

theorem answers {c : Call × Fault} (h : Inv s) (hc : Careful s c) : Answers 64 s c := by
  obtain ⟨call, fault⟩ := c
  intro e he hlt
  cases call with
  | getCurrentConfig channel target reading =>
    by_cases hchan : channel < 2
    · have he' : some (0, Regs.fieldOf (currentField ⟨channel, hchan⟩ target) reading) = some e :=
        (dif_pos hchan).symm.trans he
      rw [Call.run, dif_pos hchan, ← Option.some.inj he']
      obtain ⟨hfound, haddr⟩ := currentField_eq ⟨channel, hchan⟩ target
      exact congrArg Except.ok (Regs.setReg_of_addr_eq (hfound ▸ Nat.one_pos) haddr)
    · cases (dif_neg hchan).symm.trans he
  | getTxDsa channel idx txDsa updateCache =>
    cases updateCache with
    | false => cases he
    | true =>
      by_cases hchan : channel < 2
      · have he' : (txDsaField ⟨channel, hchan⟩ txDsa).map
            (fun f => ((idx : ℕ), Regs.fieldOf f (s.hw (f.addr idx)))) = some e :=
          (dif_pos hchan).symm.trans he
        obtain ⟨f, hf, rfl⟩ := Option.map_eq_some_iff.mp he'
        rw [Call.run, dif_pos hchan, hf]
        refine congrArg Except.ok (regs_updateField_self ?_)
        rw [found_txDsaField hf]
        exact hlt
      · cases (dif_neg hchan).symm.trans he
  | getRxDsa channel idx rxDsa updateCache =>
    cases updateCache with
    | false => cases he
    | true =>
      by_cases hchan : channel < 2
      · have he' := (dif_pos hchan).symm.trans he
        rw [Call.run, dif_pos hchan]
        rw [← Option.some.inj he'] at hlt ⊢
        refine congrArg Except.ok (regs_updateField_self ?_)
        rw [found_rxDsaField]
        exact hlt
      · cases (dif_neg hchan).symm.trans he
  | getTxAmpSettings channel idx updateCache =>
    cases updateCache with
    | false => cases he
    | true =>
      by_cases hchan : channel < 2
      · have he' := (dif_pos hchan).symm.trans he
        rw [Call.run, dif_pos hchan]
        rw [← Option.some.inj he'] at hlt ⊢
        refine congrArg Except.ok (congrArg (fun v => (ampOf ⟨channel, hchan⟩ v).value) ?_)
        obtain rfl | rfl : channel = 0 ∨ channel = 1 := by omega
        · exact regs_txAnt_10_zero hlt
        · -- nothing has been read for this channel, but what was saved is right
          have hlt' : s.regs (.txAnt_10 1) idx < 2 ^ 2 := h.bounded (.txAnt_10 1) idx
          have hsaved := h.saved (.txAnt_10 1) rfl idx hlt
          rw [hc.amp idx rfl] at hsaved
          exact ((regs_txAnt_10_one hlt).trans (Nat.mod_eq_of_lt hlt').symm).trans hsaved.symm
      · cases (dif_neg hchan).symm.trans he
  | _ => cases he

theorem of_run {calls : List (Call × Fault)} {u : Ctrl} (h : Inv s)
    (hgood : Transition.EveryStep step Careful s calls)
    (hrun : Transition.run step s calls = some u) : Inv u :=
  Transition.run_invariant_of_everyStep
    (fun _ _ _ hs hc hstep => Option.some.inj hstep ▸ hs.run hc) h hgood hrun

end Inv

/-- **The cache is never right to the end of the arrays**, and it is right as far as `get_reg` and
`set_reg` reach in every run of careful calls. -/
theorem right_found_of_careful (hw : ℕ → ℕ) (calls : List (Call × Fault)) :
    ¬ Right Field.length 256 hw calls ∧
      (Transition.EveryStep step Careful (Ctrl.construct hw) calls →
        Right Field.found 64 hw calls) := by
  constructor
  · intro hright
    exact not_coherent_construct hw (hright.1 [] _ List.nil_prefix rfl)
  · intro hcareful
    constructor
    · rintro before u ⟨after, rfl⟩ hrun
      exact ((Inv.construct hw).of_run (Transition.everyStep_of_append_left hcareful)
        hrun).saved.coherent
    · have hboth : Transition.EveryStep step (fun s c => Answers 64 s c ∧ Careful s c)
          (Ctrl.construct hw) calls :=
        (Transition.everyStep_iff_of_good
          (fun _ _ _ hs hc hstep => Option.some.inj hstep ▸ Inv.run hs hc)
          (fun _ _ hs => and_iff_right_of_imp fun hc => hs.answers hc)
          (Inv.construct hw) calls).mpr hcareful
      exact Transition.everyStep_of_imp (I := fun _ => True) (fun _ _ _ _ _ => trivial)
        (fun _ _ _ h => h.1) trivial hboth

theorem right_found_setTxDsa :
    Right Field.found 64 (fun _ => 0)
      [(.set (.setTxDsa 0 5 .dsa1 7), none), (.getTxDsa 0 5 .dsa1 true, none)] := by
  refine (right_found_of_careful _ _).2 ⟨?_, fun s _ => ⟨?_, fun _ _ => trivial⟩⟩
  · exact ⟨fun p hp => (Option.not_mem_none p hp).elim, nofun, nofun⟩
  · exact ⟨fun p hp => (Option.not_mem_none p hp).elim, nofun, nofun⟩

/-- The second of the vectors is rejected when the first one is in the cache already, and then the
cache is saved by a getter. -/
def rejected : List (Call × Fault) :=
  [(.updateTxDsaSettings [5] (List.replicate 257 0), none), (.getCurrentConfig 0 .dsa 0, none)]

theorem fst_writeVectors_of_rejected {s : Ctrl} {fault : Fault} {f g : Field} {xs ys : List ℕ}
    {vectors : List (Field × List ℕ)} (hf : ¬ f.length < xs.length) (hg : g.length < ys.length) :
    (s.writeVectors fault ((f, xs) :: (g, ys) :: vectors)).1 =
      s.assign (xs.zipIdx.map fun v => (f, v.2, v.1)) := by
  rw [Ctrl.writeVectors, if_neg hf, Ctrl.writeVectors, if_pos hg]

theorem not_right_of_rejected (hw : ℕ → ℕ) : ¬ Right Field.found 64 hw rejected := by
  intro hright
  obtain ⟨u, hu⟩ := Transition.exists_run (fun s c => ⟨(c.1.run c.2 s).1, rfl⟩)
    (Ctrl.construct hw) rejected
  have hcoherent := hright.1 rejected u List.prefix_rfl hu
  obtain ⟨t, ht, hu⟩ := Transition.run_cons_eq_some.mp hu
  obtain ⟨v, hv, hu⟩ := Transition.run_cons_eq_some.mp hu
  rw [Transition.run_nil, Option.some_inj] at hu
  have ht' : t = (Ctrl.construct hw).assign [(.txTableDsa1 0, 0, 5)] := by
    refine (Option.some.inj ht).symm.trans (fst_writeVectors_of_rejected (by decide) ?_)
    rw [List.length_replicate]
    decide
  subst hu
  have hstate : v = Ctrl.saveState { t with regs := t.regs.setReg 0x1000 0 } :=
    (Option.some.inj hv).symm
  have hfive : v.regs (.txTableDsa1 0) 0 = 5 := by
    rw [hstate, ht']
    rfl
  have hdefault : Regs.fieldOf (.txTableDsa1 0) (v.hw ((Field.txTableDsa1 0).addr 0)) = 31 := by
    rw [hstate, ht']
    exact savedRight_construct hw (.txTableDsa1 0) rfl 0 (by decide)
  rcases hcoherent (.txTableDsa1 0) rfl 0 (by decide) with heq | hchanged
  · rw [hdefault, hfive] at heq
    exact absurd heq (by decide)
  · have hsaved : v.saved = v.regs := by
      rw [hstate]
      rfl
    rw [hsaved, Regs.changedAddrs_self] at hchanged
    cases hchanged

theorem not_right_zero :
    ¬ Right Field.length 256 (fun _ => 0) [] ∧ ¬ Right Field.found 64 (fun _ => 0) rejected :=
  ⟨fun h => not_coherent_construct _ (h.1 [] _ List.nil_prefix rfl), not_right_of_rejected _⟩

end ZbxCpld
end Usrp
end UhdHost
