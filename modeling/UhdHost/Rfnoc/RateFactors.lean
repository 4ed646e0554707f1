import UhdHost.Rfnoc.DdcRates
import UhdHost.Rfnoc.DucRates

/-!
# The factors between the rates

Which factors a DDC and a DUC can have, what they are split into, and what a request is coerced to
(`set_decim` and `coerce_decim` of `ddc_block_control.cpp`, `set_interp` and `coerce_interp` of
`duc_block_control.cpp`).

* `mem_validFactors_iff`: the valid factors are the products of a power of two for the halfbands and
  a factor for the CIC.
* `splitFactor_spec`: the loop over the halfbands ends where they are all enabled, or where the rest
  is odd.  The product stays the same.
* `cicFactor_le`: so the rest is no more than the factor of the CIC in *any* such product, and
  within what the CIC can do.
* `fields_of_word`: the word in the register holds the two, side by side.
-/

namespace UhdHost
namespace Rfnoc
namespace RateChanger

namespace Config

variable (cfg : Config)

/-! ## What is claimed -/

/-- The factor is a product that halfbands and CIC can have. -/
def IsProduct (f : ℕ) : Prop :=
  ∃ h ≤ cfg.numHalfbands, ∃ c, 1 ≤ c ∧ c ≤ cfg.cicMax ∧ f = 2 ^ h * c

/-- The word is that of a number of halfbands and of a factor of the CIC, both in range, which make
up `f`.  Its low byte is the CIC, as long as `f` is an `int`. -/
def Programmed (f : ℕ) (word : BitVec 32) : Prop :=
  ∃ hb ≤ cfg.numHalfbands, ∃ cic, 1 ≤ cic ∧ cic ≤ cfg.cicMax ∧ 2 ^ hb * cic = f ∧
    word = BitVec.ofNat 32 ((hb <<< 8) ||| cic) ∧
    (f < 2 ^ 31 → word.toNat / 2 ^ 8 = hb ∧ word.toNat % 2 ^ 8 = cic)

/-- `set_decim` or `set_interp` programs each product. -/
def Programs : Prop :=
  ∀ f, cfg.IsProduct f → ∀ s : Channel, ∃ t word, s.setFactor cfg f = .ok t ∧
    t.regs.factorWord = some word ∧ cfg.Programmed f word

/-- The request is coerced to a product that no other is closer to. -/
def Coerces (requested : ℚ) : Prop :=
  ∃ f : ℕ, cfg.coerce requested = .ok f ∧ cfg.IsProduct f ∧
    ∀ g : ℕ, cfg.IsProduct g → |requested - f| ≤ |requested - g|

/-! ## The set of the factors -/

variable {cfg} {f : ℕ}

theorem mem_validFactors_iff : f ∈ cfg.validFactors ↔ cfg.IsProduct f := by
  rw [validFactors, List.mem_filter, List.mem_range, Nat.lt_succ_iff]
  simp only [Bool.or_eq_true, beq_iff_eq, List.any_eq_true, List.mem_range]
  constructor
  · rintro ⟨-, rfl | ⟨hb, hhb, cic, hcic, rfl⟩⟩
    · exact ⟨0, Nat.zero_le _, 1, le_refl _, cfg.cicMax_pos, rfl⟩
    · exact ⟨hb, Nat.le_of_lt_succ hhb, cic + 1, Nat.le_add_left _ _, hcic, rfl⟩
  · rintro ⟨h, hh, c, hc, hle, rfl⟩
    refine ⟨Nat.mul_le_mul (Nat.pow_le_pow_right Nat.two_pos hh) hle, Or.inr ?_⟩
    refine ⟨h, Nat.lt_succ_of_le hh, c - 1, by omega, ?_⟩
    rw [Nat.sub_add_cancel hc]

theorem coerces_of_nonneg {requested : ℚ} (h : 0 ≤ requested) : cfg.Coerces requested := by
  obtain ⟨f, hf, ⟨hmem, hnearest⟩, -⟩ := coerce_of_nonneg cfg h
  exact ⟨f, hf, mem_validFactors_iff.mp hmem, fun g hg =>
    hnearest g (mem_validFactors_iff.mpr hg)⟩

/-! ## Halving -/

theorem splitFactor_spec (n m : ℕ) :
    2 ^ (splitFactor n m).1 * (splitFactor n m).2 = m ∧ (splitFactor n m).1 ≤ n ∧
      ((splitFactor n m).1 = n ∨ (splitFactor n m).2 % 2 = 1) := by
  induction n generalizing m with
  | zero => exact ⟨by rw [splitFactor, pow_zero, one_mul], le_refl _, Or.inl rfl⟩
  | succ n ih =>
    rw [splitFactor]
    by_cases heven : m % 2 = 0
    · rw [if_pos heven]
      obtain ⟨hprod, hle, hend⟩ := ih (m / 2)
      refine ⟨?_, Nat.succ_le_succ hle, hend.imp_left fun h => congrArg (· + 1) h⟩
      dsimp only
      rw [pow_succ, mul_right_comm, hprod, Nat.div_mul_cancel (Nat.dvd_of_mod_eq_zero heven)]
    · rw [if_neg heven]
      exact ⟨by rw [pow_zero, one_mul], Nat.zero_le _, Or.inr (Nat.mod_two_ne_zero.mp heven)⟩

theorem two_pow_hbEnable_mul_cicFactor (cfg : Config) (f : ℕ) :
    2 ^ cfg.hbEnable f * cfg.cicFactor f = f :=
  (splitFactor_spec cfg.numHalfbands f).1

theorem hbEnable_le (f : ℤ) : cfg.hbEnable f ≤ cfg.numHalfbands :=
  (splitFactor_spec cfg.numHalfbands f.toNat).2.1

theorem le_hbEnable {h c : ℕ} (hh : h ≤ cfg.numHalfbands) (hf : f = 2 ^ h * c) :
    h ≤ cfg.hbEnable f := by
  by_contra hlt
  rw [not_le] at hlt
  obtain ⟨-, -, hend⟩ := splitFactor_spec cfg.numHalfbands (f : ℤ).toNat
  have hodd : cfg.cicFactor f % 2 = 1 := by
    refine hend.resolve_left fun hall => ?_
    exact absurd (hh.trans_eq hall.symm) (not_le.mpr hlt)
  obtain ⟨d, rfl⟩ := Nat.exists_eq_add_of_lt hlt
  have hprod := two_pow_hbEnable_mul_cicFactor cfg f
  have hsame : cfg.cicFactor f = 2 * (2 ^ d * c) := by
    refine Nat.eq_of_mul_eq_mul_left (Nat.two_pow_pos (cfg.hbEnable f)) ?_
    rw [hprod]
    nth_rewrite 1 [hf]
    ring
  rw [hsame, Nat.mul_mod_right] at hodd
  exact absurd hodd Nat.zero_ne_one

theorem cicFactor_le {h c : ℕ} (hh : h ≤ cfg.numHalfbands) (hf : f = 2 ^ h * c) :
    cfg.cicFactor f ≤ c := by
  have hprod := two_pow_hbEnable_mul_cicFactor cfg f
  refine Nat.le_of_mul_le_mul_left (c := 2 ^ cfg.hbEnable f) ?_ (Nat.two_pow_pos _)
  rw [hprod, hf]
  exact Nat.mul_le_mul_right c (Nat.pow_le_pow_right Nat.two_pos (hf ▸ le_hbEnable hh hf))

theorem cicFactor_pos (hf : 0 < f) : 0 < cfg.cicFactor f := by
  refine Nat.pos_of_ne_zero fun hzero => hf.ne' ?_
  rw [← two_pow_hbEnable_mul_cicFactor cfg f, hzero, mul_zero]

/-! ## The word -/

theorem fields_of_word {hb cic : ℕ} (hhb : hb < 2 ^ 24) (hcic : cic < 2 ^ 8) :
    (BitVec.ofNat 32 ((hb <<< 8) ||| cic)).toNat / 2 ^ 8 = hb ∧
      (BitVec.ofNat 32 ((hb <<< 8) ||| cic)).toNat % 2 ^ 8 = cic := by
  have hor : (hb <<< 8) ||| cic = hb * 2 ^ 8 + cic := by
    rw [← Nat.shiftLeft_add_eq_or_of_lt hcic, Nat.shiftLeft_eq]
  rw [hor, BitVec.toNat_ofNat, Nat.mod_eq_of_lt (by omega)]
  constructor
  · omega
  · omega

theorem hbEnable_lt (hpos : 0 < f) (hf : f < 2 ^ 31) : cfg.hbEnable f < 31 := by
  have hle : 2 ^ cfg.hbEnable f ≤ f := by
    nth_rewrite 2 [← two_pow_hbEnable_mul_cicFactor cfg f]
    exact Nat.le_mul_of_pos_right _ (cicFactor_pos hpos)
  exact (Nat.pow_lt_pow_iff_right (by decide)).mp (hle.trans_lt hf)

theorem programmed_factorWord (hf : cfg.IsProduct f) :
    cfg.Programmed f (cfg.factorWord f) ∧ 0 < cfg.cicFactor f ∧ cfg.cicFactor f ≤ cfg.cicMax := by
  obtain ⟨h, hh, c, hc, hmax, heq⟩ := hf
  have hpos : 0 < f := by
    rw [heq]
    exact Nat.mul_pos (Nat.two_pow_pos h) hc
  have hcic : 0 < cfg.cicFactor f := cicFactor_pos hpos
  have hle : cfg.cicFactor f ≤ cfg.cicMax := (cicFactor_le hh heq).trans hmax
  refine ⟨⟨cfg.hbEnable f, hbEnable_le f, cfg.cicFactor f, hcic, hle,
    two_pow_hbEnable_mul_cicFactor cfg f, rfl, fun hint => ?_⟩, hcic, hle⟩
  exact fields_of_word ((hbEnable_lt hpos hint).trans (by decide))
    (Nat.lt_succ_of_le (hle.trans cfg.cicMax_le))

theorem programs (cfg : Config) : cfg.Programs := by
  intro f hf s
  obtain ⟨hword, hpos, hle⟩ := programmed_factorWord hf
  have hset : s.setFactor cfg f = .ok _ := if_pos ⟨hpos, hle⟩
  exact ⟨_, cfg.factorWord f, hset, rfl, hword⟩

end Config

/-! ## The two blocks -/

/-- Both blocks program every product, and coerce a request to a nearest one. -/
def AllFactors (ddc : Ddc.Block) (duc : Duc.Block) (chan : ℕ) (Request : ℚ → Prop) : Prop :=
  ((ddc.config chan).Programs ∧ (duc.config chan).Programs) ∧
    ∀ requested, Request requested →
      (ddc.config chan).Coerces requested ∧ (duc.config chan).Coerces requested

theorem coerce_of_neg (cfg : Config) {requested : ℚ} (h : requested < 0) :
    cfg.coerce requested = .error (.assertionError ("requested_" ++ cfg.factorKey ++ " >= 0")) :=
  if_pos h

/-- **Every request that is not negative is coerced to a product that is nearest to it, and every
product is programmed.** -/
theorem allFactors_nonneg (ddc : Ddc.Block) (duc : Duc.Block) (chan : ℕ) :
    AllFactors ddc duc chan (fun requested => 0 ≤ requested) ∧
      ∀ requested < 0, (∃ e, (ddc.config chan).coerce requested = .error e) ∧
        ∃ e, (duc.config chan).coerce requested = .error e :=
  ⟨⟨⟨(ddc.config chan).programs, (duc.config chan).programs⟩, fun _ h =>
    ⟨Config.coerces_of_nonneg h, Config.coerces_of_nonneg h⟩⟩, fun _ h =>
    ⟨⟨_, coerce_of_neg _ h⟩, _, coerce_of_neg _ h⟩⟩

/-- A DDC and a DUC with three halfbands and a CIC up to 255 do not coerce -1. -/
theorem not_allFactors_negative :
    ¬ AllFactors ⟨true, 3, 255, 1, 200000000, by decide, by decide⟩
      ⟨true, 3, 255, 200000000, by decide, by decide⟩ 0 fun _ => True := by
  rintro ⟨-, hcoerces⟩
  obtain ⟨⟨f, hf, -⟩, -⟩ := hcoerces (-1) trivial
  rw [coerce_of_neg _ (by norm_num)] at hf
  cases hf

end RateChanger
end Rfnoc
end UhdHost
