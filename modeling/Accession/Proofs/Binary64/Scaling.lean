import Accession.Proofs.Binary64.Rounding
set_option autoImplicit false

namespace Accession.Binary64

/-- Decimals up to this are read, however they are rounded. -/
def reach : ℚ := (2 ^ 53 - 5 / 2) * 2 ^ 971

theorem reach_lt : reach * (1 + 1 / 2 ^ 53) ^ 2 < overflow := by
  have hfactor : ((2 : ℚ) ^ 53 - 5 / 2) * (1 + 1 / 2 ^ 53) ^ 2 < 2 ^ 53 - 1 / 2 := by norm_num
  rw [reach, mul_right_comm]
  exact mul_lt_mul_of_pos_right hfactor (by positivity)

theorem two_pow_le_reach : 2 ^ 53 ≤ reach := by
  have hmono : (2 : ℚ) ^ 1 ≤ 2 ^ 971 := pow_le_pow_right₀ one_le_two (by decide)
  have hplaces : (0 : ℚ) ≤ 2 ^ 53 - 5 / 2 := by norm_num
  calc (2 : ℚ) ^ 53 ≤ (2 ^ 53 - 5 / 2) * 2 ^ 1 := by norm_num
    _ ≤ (2 ^ 53 - 5 / 2) * 2 ^ 971 := mul_le_mul_of_nonneg_left hmono hplaces

theorem pow_ten_mono {j k : Nat} (h : j ≤ k) : (10 : ℚ) ^ j ≤ 10 ^ k :=
  pow_le_pow_right₀ (by norm_num) h

theorem pow_ten_lt_iff (a b n : Nat) :
    ((10 : ℚ) ^ a < n * 2 ^ b ↔ Nat.pow 10 a < n * Nat.pow 2 b) ∧
      ((n : ℚ) * 2 ^ b < 10 ^ a ↔ n * Nat.pow 2 b < Nat.pow 10 a) := by
  constructor <;> exact_mod_cast Iff.rfl

theorem reach_lt_pow_ten : reach < 10 ^ (maxPowerOfTen + 1) := by
  have hlast := (pow_ten_lt_iff (maxPowerOfTen + 1) 971 (2 ^ 53)).2.2 (by decide +kernel)
  have hplaces : (2 : ℚ) ^ 53 - 5 / 2 < (2 ^ 53 : Nat) := by norm_num
  rw [reach]
  exact lt_trans (mul_lt_mul_of_pos_right hplaces (by positivity)) hlast

theorem pow_ten_lt {k : Nat} (h : k ≤ maxPowerOfTen) : (10 : ℚ) ^ k < overflow := by
  have hlast := (pow_ten_lt_iff maxPowerOfTen 971 (5 * 2 ^ 50)).1.2 (by decide +kernel)
  have hplaces : ((5 * 2 ^ 50 : Nat) : ℚ) < 2 ^ 53 - 1 / 2 := by norm_num
  refine lt_of_le_of_lt (pow_ten_mono h) (lt_trans hlast ?_)
  rw [overflow]
  exact mul_lt_mul_of_pos_right hplaces (by positivity)

namespace Magnitude

theorem ratio_spec (x : Magnitude) :
    0 < x.ratio.2 ∧ (x.ratio.1 : ℚ) / x.ratio.2 = x.value := by
  unfold ratio value
  split
  · rename_i he
    obtain ⟨k, hk⟩ := Int.eq_ofNat_of_zero_le he
    rw [hk, Int.toNat_natCast, zpow_natCast]
    refine ⟨Nat.one_pos, ?_⟩
    push_cast [Nat.pow_eq]
    rw [div_one]
  · rename_i he
    obtain ⟨k, hk⟩ := Int.eq_ofNat_of_zero_le (show 0 ≤ -x.exponent by omega)
    rw [show x.exponent = -(k : Int) by omega, neg_neg, Int.toNat_natCast, zpow_neg, zpow_natCast]
    refine ⟨Nat.two_pow_pos k, ?_⟩
    push_cast [Nat.pow_eq]
    rw [div_eq_mul_inv]

theorem mul_spec (x y : Magnitude) :
    ∃ num den : Nat, 0 < den ∧ (num : ℚ) / den = x.value * y.value ∧ x.mul y = round num den := by
  obtain ⟨hx, hxvalue⟩ := x.ratio_spec
  obtain ⟨hy, hyvalue⟩ := y.ratio_spec
  refine ⟨x.ratio.1 * y.ratio.1, x.ratio.2 * y.ratio.2, Nat.mul_pos hx hy, ?_, rfl⟩
  rw [← hxvalue, ← hyvalue]
  push_cast
  rw [mul_div_mul_comm]

theorem div_spec (x : Magnitude) {y : Magnitude} (hy : 0 < y.value) :
    ∃ num den : Nat, 0 < den ∧ (num : ℚ) / den = x.value / y.value ∧ x.div y = round num den := by
  obtain ⟨hxden, hxvalue⟩ := x.ratio_spec
  obtain ⟨hyden, hyvalue⟩ := y.ratio_spec
  have hynum : 0 < y.ratio.1 := by
    refine Nat.pos_of_ne_zero ?_
    intro hzero
    rw [hzero, Nat.cast_zero, zero_div] at hyvalue
    exact hy.ne hyvalue
  refine ⟨x.ratio.1 * y.ratio.2, x.ratio.2 * y.ratio.1, Nat.mul_pos hxden hynum, ?_, rfl⟩
  rw [← hxvalue, ← hyvalue, div_div_div_eq]
  push_cast
  rfl

end Magnitude

section Powers

variable {k : Nat}

theorem powerOfTen_ratio (k : Nat) : ((Nat.pow 10 k : Nat) : ℚ) / (1 : Nat) = 10 ^ k := by
  push_cast [Nat.pow_eq]
  rw [div_one]

theorem one_le_powerOfTen {y : Magnitude} (h : powerOfTen k = some y) :
    1 ≤ y.value ∧ (1 ≤ k → 5 ≤ y.value) := by
  have hround := one_le_round Nat.one_pos h (powerOfTen_ratio k ▸ one_le_pow₀ (by norm_num))
  rw [powerOfTen_ratio] at hround
  refine ⟨hround.1, fun hk => ?_⟩
  have hten := pow_ten_mono hk
  linarith [hround.2]

theorem powerOfTen_le (h : k ≤ maxPowerOfTen) :
    ∃ y, powerOfTen k = some y ∧ y.value ≤ 10 ^ k * (1 + 1 / 2 ^ 53) := by
  have hsome : (powerOfTen k).isSome = true := by
    refine round_isSome Nat.one_pos ?_
    rw [powerOfTen_ratio]
    exact pow_ten_lt h
  obtain ⟨y, hy⟩ := Option.isSome_iff_exists.1 hsome
  have hround := round_le Nat.one_pos hy (powerOfTen_ratio k ▸ one_le_pow₀ (by norm_num))
  rw [powerOfTen_ratio] at hround
  exact ⟨y, hy, hround⟩

end Powers

section Reading

variable {x y : Magnitude}

theorem scaleWithin_finite {e : Int} (h : scaleWithin x e = some y) : y.Finite := by
  unfold scaleWithin at h
  split at h
  · obtain ⟨p, -, hmul⟩ := Option.bind_eq_some_iff.1 h
    obtain ⟨num, den, hden, -, hround⟩ := x.mul_spec p
    exact round_finite hden (hround ▸ hmul)
  · obtain ⟨p, hp, hdiv⟩ := Option.bind_eq_some_iff.1 h
    obtain ⟨num, den, hden, -, hround⟩ := x.div_spec
      (lt_of_lt_of_le one_pos (one_le_powerOfTen hp).1)
    exact round_finite hden (hround ▸ hdiv)

theorem scaleByTen_finite {e : Int} {steps : Nat} (finite : x.Finite)
    (h : scaleByTen x e steps = some y) : y.Finite := by
  induction steps generalizing x e with
  | zero => exact scaleWithin_finite h
  | succ steps ih =>
    rw [scaleByTen] at h
    split at h
    · exact scaleWithin_finite h
    split at h
    · cases h
      exact finite
    split at h
    · cases h
    · obtain ⟨z, hz, hscale⟩ := Option.bind_eq_some_iff.1 h
      obtain ⟨p, hp, hdiv⟩ := Option.bind_eq_some_iff.1 hz
      obtain ⟨num, den, hden, -, hround⟩ := x.div_spec
        (lt_of_lt_of_le one_pos (one_le_powerOfTen hp).1)
      exact ih (round_finite hden (hround ▸ hdiv)) hscale

theorem ofDecimal_finite {digits : Nat} {e : Int} (h : ofDecimal digits e = some y) :
    y.Finite := by
  obtain ⟨x, hx, hscale⟩ := Option.bind_eq_some_iff.1 h
  exact scaleByTen_finite (round_finite Nat.one_pos hx) hscale

theorem div_powerOfTen {k : Nat} (hk : k ≤ maxPowerOfTen) (hx : x.value ≤ 2 ^ 62) :
    ∃ y, (powerOfTen k).bind x.div = some y ∧ (k = maxPowerOfTen → y.value ≤ 2 ^ 62) := by
  obtain ⟨p, hp, -⟩ := powerOfTen_le hk
  obtain ⟨hone, hfive⟩ := one_le_powerOfTen hp
  have hpos : 0 < p.value := lt_of_lt_of_le one_pos hone
  obtain ⟨num, den, hden, hratio, hround⟩ := x.div_spec hpos
  have hsmaller : x.value / p.value ≤ x.value := div_le_self x.value_nonneg hone
  have hbound : (2 : ℚ) ^ 62 < overflow := by
    have hplaces : (2 : ℚ) ^ 62 < 10 ^ 19 := by norm_num
    exact lt_trans hplaces (pow_ten_lt (by decide))
  obtain ⟨y, hy⟩ := Option.isSome_iff_exists.1 (round_isSome hden (by rw [hratio]; linarith))
  refine ⟨y, by rw [hp, Option.bind_some, hround, hy], ?_⟩
  rintro rfl
  have hshare : x.value / p.value ≤ x.value / 5 :=
    div_le_div_of_nonneg_left x.value_nonneg (by norm_num) (hfive (by decide))
  have hdouble := round_le_double hden hy
  rw [hratio] at hdouble
  linarith

theorem scaleByTen_neg {e steps : Nat} (hsteps : e ≤ maxPowerOfTen * (steps + 1)) (hpos : 0 < e)
    (hx : x.value ≤ 2 ^ 62) : (scaleByTen x (-e) steps).isSome = true := by
  have hwithin : ∀ {e : Nat} {x : Magnitude}, 0 < e → e ≤ maxPowerOfTen → x.value ≤ 2 ^ 62 →
      (scaleWithin x (-e)).isSome = true := by
    intro e x hpos he hx
    obtain ⟨y, hy, -⟩ := div_powerOfTen he hx
    rw [scaleWithin, if_neg (by omega), neg_neg, Int.toNat_natCast, hy, Option.isSome_some]
  induction steps generalizing x e with
  | zero => exact hwithin hpos (by omega) hx
  | succ steps ih =>
    rw [scaleByTen]
    split
    · exact hwithin hpos (by omega) hx
    rename_i hfar
    split
    · rfl
    rw [if_neg (by omega)]
    obtain ⟨y, hy, hbound⟩ := div_powerOfTen (k := maxPowerOfTen) (Nat.le_refl _) hx
    rw [hy, Option.bind_some, show -(e : Int) + maxPowerOfTen = -((e - maxPowerOfTen : Nat) : Int) by
      omega]
    exact ih (by rw [maxPowerOfTen] at *; omega) (by omega) (hbound rfl)

theorem ofDecimal_neg {digits e : Nat} (hdigits : digits ≤ 10 ^ 18) (hpos : 0 < e) :
    (ofDecimal digits (-e)).isSome = true := by
  have hratio : ((digits : Nat) : ℚ) / (1 : Nat) = digits := by
    rw [Nat.cast_one, div_one]
  have hcast : (digits : ℚ) ≤ 10 ^ 18 := by exact_mod_cast hdigits
  obtain ⟨x, hx⟩ : ∃ x, ofNat digits = some x := by
    refine Option.isSome_iff_exists.1 (round_isSome Nat.one_pos ?_)
    rw [hratio]
    exact lt_of_le_of_lt hcast (pow_ten_lt (by decide))
  have hdouble := round_le_double Nat.one_pos hx
  rw [hratio] at hdouble
  have hbound : x.value ≤ 2 ^ 62 := by
    have hroom : 2 * (10 : ℚ) ^ 18 + 1 ≤ 2 ^ 62 := by norm_num
    linarith
  rw [ofDecimal, hx, Option.bind_some, Int.natAbs_neg, Int.natAbs_natCast]
  refine scaleByTen_neg ?_ hpos hbound
  have hdiv := Nat.div_add_mod e maxPowerOfTen
  have hmod := Nat.mod_lt e (show 0 < maxPowerOfTen by decide)
  rw [maxPowerOfTen] at *
  omega

/-- There is a value for digits with zeros after them, if it is not above `reach`. -/
theorem ofDecimal_natCast {digits e : Nat} (hdigits : 0 < digits) (he : e ≤ maxPowerOfTen)
    (h : (digits : ℚ) * 10 ^ e ≤ reach) : (ofDecimal digits e).isSome = true := by
  have hratio : ((digits : Nat) : ℚ) / (1 : Nat) = digits := by
    rw [Nat.cast_one, div_one]
  have hone : (1 : ℚ) ≤ digits := by exact_mod_cast hdigits
  have hten : (1 : ℚ) ≤ 10 ^ e := one_le_pow₀ (by norm_num)
  have hgrown : (1 : ℚ) ≤ (1 + 1 / 2 ^ 53) ^ 2 := one_le_pow₀ (by norm_num)
  have hreach : 0 ≤ reach := le_trans (by positivity) h
  obtain ⟨x, hx⟩ : ∃ x, ofNat digits = some x := by
    refine Option.isSome_iff_exists.1 (round_isSome Nat.one_pos ?_)
    rw [hratio]
    calc (digits : ℚ) ≤ digits * 10 ^ e := le_mul_of_one_le_right (by positivity) hten
      _ ≤ reach := h
      _ ≤ reach * (1 + 1 / 2 ^ 53) ^ 2 := le_mul_of_one_le_right hreach hgrown
      _ < overflow := reach_lt
  have hxvalue := round_le Nat.one_pos hx (by rw [hratio]; exact hone)
  rw [hratio] at hxvalue
  obtain ⟨p, hp, hpvalue⟩ := powerOfTen_le he
  obtain ⟨num, den, hden, hproduct, hround⟩ := x.mul_spec p
  rw [ofDecimal, hx, Option.bind_some, Int.natAbs_natCast, scaleByTen, Int.natAbs_natCast,
    if_pos he, scaleWithin, if_pos (by omega), Int.toNat_natCast, hp, Option.bind_some, hround]
  refine round_isSome hden ?_
  rw [hproduct]
  calc x.value * p.value
      ≤ digits * (1 + 1 / 2 ^ 53) * (10 ^ e * (1 + 1 / 2 ^ 53)) := by
        have hp0 := p.value_nonneg
        gcongr
    _ = digits * 10 ^ e * (1 + 1 / 2 ^ 53) ^ 2 := by ring
    _ ≤ reach * (1 + 1 / 2 ^ 53) ^ 2 := by gcongr
    _ < overflow := reach_lt

end Reading

end Accession.Binary64
