import Accession.Binary64.Basic
import Mathlib.Algebra.Order.Field.Power
import Mathlib.Algebra.Order.Field.Rat
import Mathlib.Tactic.FieldSimp
import Mathlib.Tactic.GCongr
import Mathlib.Tactic.Linarith
import Mathlib.Tactic.NormNum
import Mathlib.Tactic.Positivity
import Mathlib.Tactic.Ring
set_option autoImplicit false

namespace Accession.Binary64

def Magnitude.value (x : Magnitude) : ℚ := x.significand * 2 ^ x.exponent

structure Magnitude.Finite (x : Magnitude) : Prop where
  significand : x.significand < significandLimit
  low : minExponent ≤ x.exponent
  high : x.exponent ≤ maxExponent

/-- Ratios below this are rounded to a finite magnitude: half a place past the largest one. -/
def overflow : ℚ := (2 ^ 53 - 1 / 2) * 2 ^ 971

theorem Magnitude.value_nonneg (x : Magnitude) : 0 ≤ x.value := by
  unfold value
  positivity

theorem overflow_lt : overflow < 2 ^ (1024 : Int) := by
  calc overflow = (2 ^ 53 - 1 / 2) * 2 ^ 971 := rfl
    _ < 2 ^ 53 * 2 ^ 971 := by
      gcongr
      norm_num
    _ = 2 ^ (1024 : Int) := by
      rw [← pow_add]
      exact (zpow_natCast 2 1024).symm

section Nearest

theorem nearestEven_cases (num den : Nat) :
    nearestEven num den = num / den ∨ nearestEven num den = num / den + 1 := by
  unfold nearestEven
  dsimp only
  split
  · exact .inl rfl
  · split
    · exact .inr rfl
    · split
      · exact .inl rfl
      · exact .inr rfl

theorem div_le_nearestEven (num den : Nat) : num / den ≤ nearestEven num den := by
  obtain h | h := nearestEven_cases num den <;> omega

variable {num den : Nat} (hden : 0 < den)

include hden

theorem two_mul_nearestEven_le : 2 * (nearestEven num den * den) ≤ 2 * num + den := by
  have hdiv := Nat.div_add_mod num den
  have hmod := Nat.mod_lt num hden
  have hq : num / den * den ≤ num := Nat.div_mul_le_self num den
  have hq' : (num / den + 1) * den = num / den * den + den := Nat.succ_mul _ _
  rw [Nat.mul_comm] at hdiv
  unfold nearestEven
  dsimp only
  split
  · omega
  · split
    · rw [hq']
      omega
    · split
      · omega
      · rw [hq']
        omega

variable (num) in
theorem nearestEven_le : (nearestEven num den : ℚ) ≤ num / den + 1 / 2 := by
  have hpos : (0 : ℚ) < den := by exact_mod_cast hden
  have h : (2 : ℚ) * (nearestEven num den * den) ≤ 2 * num + den := by
    exact_mod_cast two_mul_nearestEven_le hden
  rw [div_add' _ _ _ hpos.ne', le_div_iff₀ hpos]
  linarith

theorem nearestEven_le_of_lt {k : Nat} (h : (num : ℚ) / den < k + 1 / 2) :
    nearestEven num den ≤ k := by
  have hnear := nearestEven_le num hden
  have hlt : (nearestEven num den : ℚ) < (k + 1 : Nat) := by
    push_cast
    linarith
  exact Nat.le_of_lt_succ (by exact_mod_cast hlt)

end Nearest

section Scaling

theorem scaled_den_pos {den : Nat} (hden : 0 < den) (num : Nat) (e : Int) :
    0 < (scaled num den e).2 := by
  unfold scaled
  split
  · exact Nat.mul_pos hden (Nat.two_pow_pos _)
  · exact hden

theorem scaled_eq (num den : Nat) (e : Int) :
    ((scaled num den e).1 : ℚ) / (scaled num den e).2 = num / den / 2 ^ e := by
  unfold scaled
  split
  · rename_i he
    obtain ⟨k, rfl⟩ := Int.eq_ofNat_of_zero_le he
    rw [Int.toNat_natCast, zpow_natCast, div_div]
    push_cast [Nat.pow_eq]
    rfl
  · rename_i he
    obtain ⟨k, hk⟩ := Int.eq_ofNat_of_zero_le (show 0 ≤ -e by omega)
    obtain rfl : e = -(k : Int) := by omega
    rw [neg_neg, Int.toNat_natCast, zpow_neg, zpow_natCast, div_inv_eq_mul]
    push_cast [Nat.pow_eq]
    rw [mul_div_right_comm]

end Scaling

section Exponent

variable {num den : Nat} (hnum : 0 < num) (hden : 0 < den)

include hnum hden

theorem log2_ratio :
    (2 : ℚ) ^ ((num.log2 : Int) - den.log2 - 1) < num / den ∧
      (num : ℚ) / den < 2 ^ ((num.log2 : Int) - den.log2 + 1) := by
  have hn : (2 : ℚ) ^ num.log2 ≤ num := by exact_mod_cast Nat.log2_self_le hnum.ne'
  have hn' : (num : ℚ) < 2 ^ (num.log2 + 1) := by exact_mod_cast Nat.lt_log2_self
  have hd : (2 : ℚ) ^ den.log2 ≤ den := by exact_mod_cast Nat.log2_self_le hden.ne'
  have hd' : (den : ℚ) < 2 ^ (den.log2 + 1) := by exact_mod_cast Nat.lt_log2_self
  have hpos : (0 : ℚ) < den := by exact_mod_cast hden
  constructor
  · rw [lt_div_iff₀ hpos, sub_sub, show (den.log2 : Int) + 1 = ((den.log2 + 1 : Nat) : Int) from rfl,
      zpow_sub₀ two_ne_zero, zpow_natCast, zpow_natCast, div_mul_eq_mul_div,
      div_lt_iff₀ (by positivity)]
    calc (2 : ℚ) ^ num.log2 * den < 2 ^ num.log2 * 2 ^ (den.log2 + 1) := by gcongr
      _ ≤ num * 2 ^ (den.log2 + 1) := by gcongr
  · rw [div_lt_iff₀ hpos, sub_add_eq_add_sub,
      show (num.log2 : Int) + 1 = ((num.log2 + 1 : Nat) : Int) from rfl, zpow_sub₀ two_ne_zero,
      zpow_natCast, zpow_natCast, div_mul_eq_mul_div, lt_div_iff₀ (by positivity)]
    calc (num : ℚ) * 2 ^ den.log2 < 2 ^ (num.log2 + 1) * 2 ^ den.log2 := by gcongr
      _ ≤ 2 ^ (num.log2 + 1) * den := by gcongr

theorem exponentFor_spec :
    minExponent ≤ exponentFor num den ∧ (num : ℚ) / den < 2 ^ (exponentFor num den + 53) ∧
      (minExponent < exponentFor num den →
        (2 : ℚ) ^ (exponentFor num den + 52) ≤ num / den) := by
  obtain ⟨hlow, hhigh⟩ := log2_ratio hnum hden
  let e : Int := max minExponent ((num.log2 : Int) - (den.log2 : Int) - 53)
  have hpos := scaled_den_pos hden num e
  have hscaled := scaled_eq num den e
  have hreach : significandLimit ≤ (scaled num den e).1 / (scaled num den e).2
      ↔ (2 : ℚ) ^ (e + 53) ≤ num / den := by
    rw [Nat.le_div_iff_mul_le hpos]
    have hpos' : (0 : ℚ) < (scaled num den e).2 := by exact_mod_cast hpos
    rw [add_comm, zpow_add₀ two_ne_zero, ← le_div_iff₀ (by positivity), ← hscaled,
      le_div_iff₀ hpos', show (2 : ℚ) ^ (53 : Int) = (significandLimit : Nat) by
        norm_num [significandLimit]]
    exact_mod_cast Iff.rfl
  have hmono : ∀ {a b : Int}, a ≤ b → (2 : ℚ) ^ a ≤ 2 ^ b :=
    fun h => zpow_le_zpow_right₀ one_le_two h
  have hexponent : exponentFor num den
      = if significandLimit ≤ (scaled num den e).1 / (scaled num den e).2 then e + 1 else e := rfl
  rw [hexponent]
  split
  · rename_i hfull
    refine ⟨by omega, lt_of_lt_of_le hhigh (hmono (by omega)), fun _ => ?_⟩
    rw [add_assoc]
    exact hreach.1 hfull
  · rename_i hfull
    refine ⟨by omega, lt_of_not_ge (mt hreach.2 hfull), fun hmin => ?_⟩
    exact le_trans (hmono (by omega)) hlow.le

end Exponent

section Rounding

variable {num den : Nat} {x : Magnitude} (hden : 0 < den)

include hden

/-- What `round` does to a ratio that is not zero. -/
theorem round_cases (hnum : 0 < num) :
    ∃ m e, m < significandLimit ∧ exponentFor num den ≤ e ∧
      (m : ℚ) * 2 ^ e = nearestEven (scaled num den (exponentFor num den)).1
        (scaled num den (exponentFor num den)).2 * 2 ^ exponentFor num den ∧
      (e = exponentFor num den ∨ e = exponentFor num den + 1 ∧
        significandLimit ≤ nearestEven (scaled num den (exponentFor num den)).1
          (scaled num den (exponentFor num den)).2) ∧
      round num den = if maxExponent < e then none else some ⟨m, e⟩ := by
  obtain ⟨-, hhigh, -⟩ := exponentFor_spec hnum hden
  have hpos := scaled_den_pos hden num (exponentFor num den)
  have hscaled := scaled_eq num den (exponentFor num den)
  have hle : nearestEven (scaled num den (exponentFor num den)).1
      (scaled num den (exponentFor num den)).2 ≤ significandLimit := by
    refine nearestEven_le_of_lt hpos ?_
    rw [hscaled]
    have hlt : (num : ℚ) / den / 2 ^ exponentFor num den < 2 ^ 53 := by
      rw [div_lt_iff₀ (by positivity), mul_comm]
      calc (num : ℚ) / den < 2 ^ (exponentFor num den + 53) := hhigh
        _ = 2 ^ exponentFor num den * 2 ^ 53 := by
          rw [zpow_add₀ two_ne_zero]
          norm_num
    norm_num [significandLimit]
    linarith
  obtain ⟨n, hn⟩ : ∃ n, nearestEven (scaled num den (exponentFor num den)).1
      (scaled num den (exponentFor num den)).2 = n := ⟨_, rfl⟩
  rw [hn] at hle ⊢
  have hround : ∀ p : Nat × Int, (if n == significandLimit
        then (Nat.pow 2 52, exponentFor num den + 1) else (n, exponentFor num den)) = p →
      round num den = if maxExponent < p.2 then none else some ⟨p.1, p.2⟩ := by
    rintro p rfl
    rw [round, if_neg (by simpa using hnum.ne'), ← hn]
  by_cases hfull : n = significandLimit
  · refine ⟨Nat.pow 2 52, exponentFor num den + 1, by decide, by omega, ?_,
      .inr ⟨rfl, hfull.ge⟩, hround _ (if_pos (beq_iff_eq.2 hfull))⟩
    rw [hfull, zpow_add₀ two_ne_zero]
    norm_num [significandLimit]
    ring
  · exact ⟨n, exponentFor num den, by omega, Int.le_refl _, rfl, .inl rfl,
      hround _ (if_neg (by simpa using hfull))⟩

theorem round_finite (h : round num den = some x) : x.Finite := by
  obtain rfl | hnum := Nat.eq_zero_or_pos num
  · cases h
    exact ⟨by decide, by decide, by decide⟩
  · obtain ⟨m, e, hm, he, -, -, hround⟩ := round_cases hden hnum
    have hmin := (exponentFor_spec hnum hden).1
    rw [hround] at h
    split at h
    · cases h
    · cases h
      exact ⟨hm, by dsimp only; omega, by dsimp only; omega⟩

theorem round_isSome (h : (num : ℚ) / den < overflow) : (round num den).isSome = true := by
  obtain rfl | hnum := Nat.eq_zero_or_pos num
  · rfl
  obtain ⟨m, e, -, -, -, hexponent, hround⟩ := round_cases hden hnum
  obtain ⟨-, -, hlow⟩ := exponentFor_spec hnum hden
  -- 53 bits at an exponent above the largest are beyond the bound
  have hmax : exponentFor num den ≤ 971 := by
    by_contra hlarge
    have hmono : (2 : ℚ) ^ (1024 : Int) ≤ 2 ^ (exponentFor num den + 52) :=
      zpow_le_zpow_right₀ one_le_two (by omega)
    have hbound := hlow (by rw [minExponent]; omega)
    linarith [overflow_lt]
  rw [hround, if_neg, Option.isSome_some]
  intro hlarge
  rw [maxExponent] at hlarge
  obtain rfl | ⟨rfl, hfull⟩ := hexponent
  · omega
  · have hlast : exponentFor num den = 971 := by omega
    have hpos := scaled_den_pos hden num (exponentFor num den)
    have hscaled := scaled_eq num den (exponentFor num den)
    rw [hlast] at hpos hscaled hfull
    have hbelow : nearestEven (scaled num den 971).1 (scaled num den 971).2
        ≤ significandLimit - 1 := by
      refine nearestEven_le_of_lt hpos ?_
      rw [hscaled, div_lt_iff₀ (by positivity)]
      refine lt_of_lt_of_eq h ?_
      norm_num [overflow, significandLimit]
    have hlimit : 0 < significandLimit := Nat.two_pow_pos 53
    omega

theorem round_le_add (h : round num den = some x) :
    x.value ≤ num / den + 2 ^ (exponentFor num den - 1) := by
  obtain rfl | hnum := Nat.eq_zero_or_pos num
  · cases h
    simp only [Magnitude.value, Magnitude.zero, Nat.cast_zero, zero_mul, zero_div, zero_add]
    positivity
  obtain ⟨m, e, -, -, hvalue, -, hround⟩ := round_cases hden hnum
  rw [hround] at h
  split at h
  · cases h
  cases h
  have hnear := nearestEven_le (scaled num den (exponentFor num den)).1
    (scaled_den_pos hden num (exponentFor num den))
  rw [scaled_eq] at hnear
  have hpower : (0 : ℚ) < 2 ^ exponentFor num den := by positivity
  calc Magnitude.value ⟨m, e⟩
      = nearestEven (scaled num den (exponentFor num den)).1
          (scaled num den (exponentFor num den)).2 * 2 ^ exponentFor num den := hvalue
    _ ≤ (num / den / 2 ^ exponentFor num den + 1 / 2) * 2 ^ exponentFor num den := by gcongr
    _ = num / den + 2 ^ (exponentFor num den - 1) := by
      rw [add_mul, div_mul_cancel₀ _ hpower.ne', zpow_sub_one₀ two_ne_zero]
      ring

section

variable (normal : 1 ≤ (num : ℚ) / den)

omit hden in
include normal in
theorem pos_of_one_le : 0 < num := by
  refine Nat.pos_of_ne_zero ?_
  rintro rfl
  norm_num at normal

include normal in
theorem exponentFor_of_one_le :
    -52 ≤ exponentFor num den ∧ (2 : ℚ) ^ (exponentFor num den + 52) ≤ num / den := by
  obtain ⟨-, hhigh, hlow⟩ := exponentFor_spec (pos_of_one_le normal) hden
  have hexponent : -52 ≤ exponentFor num den := by
    by_contra hmin
    have hmono : (2 : ℚ) ^ (exponentFor num den + 53) ≤ 2 ^ (0 : Int) :=
      zpow_le_zpow_right₀ one_le_two (by omega)
    rw [zpow_zero] at hmono
    linarith
  exact ⟨hexponent, hlow (by rw [minExponent]; omega)⟩

theorem round_le (h : round num den = some x) (normal : 1 ≤ (num : ℚ) / den) :
    x.value ≤ num / den * (1 + 1 / 2 ^ 53) := by
  obtain ⟨-, hlow⟩ := exponentFor_of_one_le hden normal
  have hplace : (2 : ℚ) ^ (exponentFor num den - 1) = 2 ^ (exponentFor num den + 52) / 2 ^ 53 := by
    rw [eq_div_iff (by positivity), ← zpow_natCast (2 : ℚ) 53, ← zpow_add₀ two_ne_zero]
    congr 1
    omega
  have hround := round_le_add hden h
  rw [hplace] at hround
  calc x.value ≤ num / den + 2 ^ (exponentFor num den + 52) / 2 ^ 53 := hround
    _ ≤ num / den + num / den / 2 ^ 53 := by gcongr
    _ = num / den * (1 + 1 / 2 ^ 53) := by ring

theorem pow_le_round (h : round num den = some x) (normal : 1 ≤ (num : ℚ) / den) :
    (2 : ℚ) ^ (exponentFor num den + 52) ≤ x.value := by
  obtain ⟨-, hlow⟩ := exponentFor_of_one_le hden normal
  obtain ⟨m, e, -, -, hvalue, -, hround⟩ := round_cases hden (pos_of_one_le normal)
  rw [hround] at h
  split at h
  · cases h
  cases h
  have hpos := scaled_den_pos hden num (exponentFor num den)
  have hwhole : Nat.pow 2 52 ≤ nearestEven (scaled num den (exponentFor num den)).1
      (scaled num den (exponentFor num den)).2 := by
    refine Nat.le_trans ?_ (div_le_nearestEven _ _)
    have hpos' : (0 : ℚ) < (scaled num den (exponentFor num den)).2 := by exact_mod_cast hpos
    have hscaled : ((2 : ℚ) ^ 52) ≤ (scaled num den (exponentFor num den)).1
        / (scaled num den (exponentFor num den)).2 := by
      rw [scaled_eq, le_div_iff₀ (by positivity), ← zpow_natCast (2 : ℚ) 52,
        ← zpow_add₀ two_ne_zero, add_comm]
      exact hlow
    rw [le_div_iff₀ hpos'] at hscaled
    rw [Nat.le_div_iff_mul_le hpos]
    exact_mod_cast hscaled
  calc (2 : ℚ) ^ (exponentFor num den + 52)
      = (Nat.pow 2 52 : Nat) * 2 ^ exponentFor num den := by
        rw [add_comm, zpow_add₀ two_ne_zero]
        norm_num
    _ ≤ nearestEven (scaled num den (exponentFor num den)).1
          (scaled num den (exponentFor num den)).2 * 2 ^ exponentFor num den := by
      gcongr
    _ = Magnitude.value ⟨m, e⟩ := hvalue.symm

theorem one_le_round (h : round num den = some x) (normal : 1 ≤ (num : ℚ) / den) :
    1 ≤ x.value ∧ (num : ℚ) / den ≤ 2 * x.value := by
  obtain ⟨hexponent, -⟩ := exponentFor_of_one_le hden normal
  obtain ⟨-, hhigh, -⟩ := exponentFor_spec (pos_of_one_le normal) hden
  have hlow := pow_le_round hden h normal
  have hunits : (2 : ℚ) ^ (0 : Int) ≤ 2 ^ (exponentFor num den + 52) :=
    zpow_le_zpow_right₀ one_le_two (by omega)
  have hdouble : (2 : ℚ) ^ (exponentFor num den + 53) = 2 * 2 ^ (exponentFor num den + 52) := by
    rw [show exponentFor num den + 53 = 1 + (exponentFor num den + 52) by omega,
      zpow_add₀ two_ne_zero, zpow_one]
  rw [zpow_zero] at hunits
  rw [hdouble] at hhigh
  exact ⟨le_trans hunits hlow, by linarith⟩

end

theorem round_le_double (h : round num den = some x) : x.value ≤ 2 * (num / den) + 1 := by
  have hratio : (0 : ℚ) ≤ num / den := by positivity
  obtain hnormal | hsmall := le_or_gt 1 ((num : ℚ) / den)
  · have hround := round_le hden h hnormal
    have hfactor : (num : ℚ) / den * (1 + 1 / 2 ^ 53) ≤ num / den * 2 := by
      gcongr
      norm_num
    linarith
  · have hround := round_le_add hden h
    obtain rfl | hnum := Nat.eq_zero_or_pos num
    · cases h
      simp [Magnitude.value, Magnitude.zero]
    obtain ⟨-, -, hlow⟩ := exponentFor_spec hnum hden
    have hplace : (2 : ℚ) ^ (exponentFor num den - 1) ≤ 2 ^ (0 : Int) := by
      refine zpow_le_zpow_right₀ one_le_two ?_
      by_contra hlarge
      have hbound := hlow (by rw [minExponent]; omega)
      have hmono : (2 : ℚ) ^ (0 : Int) ≤ 2 ^ (exponentFor num den + 52) :=
        zpow_le_zpow_right₀ one_le_two (by omega)
      rw [zpow_zero] at hmono
      linarith
    rw [zpow_zero] at hplace
    linarith

end Rounding

end Accession.Binary64
