import Accession.Binary64.Shortest
import Accession.Proofs.Binary64.Scaling
set_option autoImplicit false

/-!
# Decimals that are written

The shortest decimal of a finite magnitude has at most eighteen digits and lies in its window
(`shortest_spec`), so it reads as some magnitude again (`ofDecimal_shortest`). The two largest
magnitudes are looked at one by one: what they are rounded to passes `reach`, but not infinity.
-/
namespace Accession.Binary64

section Windows

variable {x : Magnitude}

theorem window_spec (hpos : 0 < x.significand) :
    0 < x.window.den ∧ 0 < x.window.low ∧ (x.window.value : ℚ) / x.window.den = x.value ∧
      (x.window.high : ℚ) / x.window.den = (x.significand + 1 / 2) * 2 ^ x.exponent := by
  -- the unit over the denominator is a quarter of the last place
  obtain ⟨unit, den, below, hunit, hden, hquarter, hbelow, hwindow⟩ :
      ∃ unit den below : Nat, 0 < unit ∧ 0 < den ∧ (unit : ℚ) / den = 2 ^ (x.exponent - 2) ∧
        below ≤ 2 ∧ x.window = ⟨4 * x.significand * unit, (4 * x.significand - below) * unit,
          (4 * x.significand + 2) * unit, den, x.significand % 2 == 0⟩ := by
    have hbelow : (if x.significand == Nat.pow 2 52 && minExponent < x.exponent then 1 else 2)
        ≤ 2 := by
      split <;> omega
    by_cases he : 0 ≤ x.exponent - 2
    · refine ⟨Nat.pow 2 (x.exponent - 2).toNat, 1, _, Nat.two_pow_pos _, Nat.one_pos, ?_, hbelow, ?_⟩
      · obtain ⟨k, hk⟩ := Int.eq_ofNat_of_zero_le he
        rw [hk, Int.toNat_natCast, zpow_natCast]
        push_cast [Nat.pow_eq]
        rw [div_one]
      · rw [Magnitude.window]
        simp only [he, if_true]
    · refine ⟨1, Nat.pow 2 (-(x.exponent - 2)).toNat, _, Nat.one_pos, Nat.two_pow_pos _, ?_, hbelow,
        ?_⟩
      · obtain ⟨k, hk⟩ := Int.eq_ofNat_of_zero_le (show 0 ≤ -(x.exponent - 2) by omega)
        rw [show x.exponent - 2 = -(k : Int) by omega, neg_neg, Int.toNat_natCast, zpow_neg,
          zpow_natCast]
        push_cast [Nat.pow_eq]
        rw [one_div]
      · rw [Magnitude.window]
        simp only [he, if_false]
  have hplace : (2 : ℚ) ^ x.exponent = 4 * 2 ^ (x.exponent - 2) := by
    rw [zpow_sub₀ two_ne_zero]
    norm_num
    ring
  rw [hwindow]
  refine ⟨hden, Nat.mul_pos (by omega) hunit, ?_, ?_⟩
  · push_cast
    rw [mul_div_assoc, hquarter, Magnitude.value, hplace]
    ring
  · push_cast
    rw [mul_div_assoc, hquarter, hplace]
    ring

end Windows

section Hits

variable {w : Window} {d : Nat} {k : Int} (hden : 0 < w.den)

include hden

theorem over_spec (k : Int) :
    0 < (w.over k).2 ∧ ((w.over k).1 : ℚ) / (w.over k).2 = w.value / w.den / 10 ^ k := by
  unfold Window.over
  split
  · rename_i hk
    obtain ⟨n, rfl⟩ := Int.eq_ofNat_of_zero_le hk
    rw [Int.toNat_natCast, zpow_natCast, div_div]
    refine ⟨Nat.mul_pos hden (Nat.pow_pos (by decide)), ?_⟩
    push_cast [Nat.pow_eq]
    rfl
  · rename_i hk
    obtain ⟨n, hn⟩ := Int.eq_ofNat_of_zero_le (show 0 ≤ -k by omega)
    obtain rfl : k = -(n : Int) := by omega
    rw [neg_neg, Int.toNat_natCast, zpow_neg, zpow_natCast, div_inv_eq_mul]
    refine ⟨hden, ?_⟩
    push_cast [Nat.pow_eq]
    rw [mul_div_right_comm]

theorem holds_spec (hlow : 0 < w.low) (h : w.holds d k = true) :
    0 < d ∧ (d : ℚ) * 10 ^ k ≤ w.high / w.den := by
  have hpos : (0 : ℚ) < w.den := by exact_mod_cast hden
  obtain ⟨up, unit, hunit, hzero, hscale, hlower, hupper⟩ : ∃ up unit : Nat, 0 < unit ∧
      (d = 0 → up = 0) ∧ (up : ℚ) / unit = d * 10 ^ k * w.den ∧ w.low * unit ≤ up ∧
      up ≤ w.high * unit := by
    have hbounds : ∀ {up unit : Nat}, (if w.closed then
        (decide (w.low * unit ≤ up) && decide (up ≤ w.high * unit)) = true
        else (decide (w.low * unit < up) && decide (up < w.high * unit)) = true) →
        w.low * unit ≤ up ∧ up ≤ w.high * unit := by
      intro up unit h
      split at h <;> simp only [Bool.and_eq_true, decide_eq_true_eq] at h <;> omega
    unfold Window.holds at h
    by_cases hk : 0 ≤ k
    · obtain ⟨n, rfl⟩ := Int.eq_ofNat_of_zero_le hk
      refine ⟨d * Nat.pow 10 n * w.den, 1, Nat.one_pos, by rintro rfl; simp, ?_, hbounds ?_⟩
      · rw [zpow_natCast]
        push_cast [Nat.pow_eq]
        rw [div_one]
      · simpa [apply_ite] using h
    · obtain ⟨n, hn⟩ := Int.eq_ofNat_of_zero_le (show 0 ≤ -k by omega)
      obtain rfl : k = -(n : Int) := by omega
      refine ⟨d * w.den, Nat.pow 10 n, Nat.pow_pos (by decide), by rintro rfl; simp, ?_, hbounds ?_⟩
      · rw [zpow_neg, zpow_natCast]
        push_cast [Nat.pow_eq]
        rw [div_eq_mul_inv, mul_right_comm]
      · simp only [hk, if_false, neg_neg, Int.toNat_natCast] at h
        simpa [apply_ite] using h
  have hunit' : (0 : ℚ) < unit := by exact_mod_cast hunit
  constructor
  · refine Nat.pos_of_ne_zero (fun hd => ?_)
    have hnone := hzero hd
    have hsome := Nat.mul_pos hlow hunit
    omega
  · rw [le_div_iff₀ hpos, ← hscale, div_le_iff₀ hunit']
    exact_mod_cast hupper

theorem hit?_spec (h : w.hit? k = some d) :
    w.holds d k = true ∧ (d : ℚ) ≤ w.value / w.den / 10 ^ k + 1 := by
  obtain ⟨hpos, hover⟩ := over_spec hden k
  have hpos' : (0 : ℚ) < (w.over k).2 := by exact_mod_cast hpos
  have hfloor : (((w.over k).1 / (w.over k).2 : Nat) : ℚ) ≤ w.value / w.den / 10 ^ k := by
    rw [← hover, le_div_iff₀ hpos']
    exact_mod_cast Nat.div_mul_le_self _ _
  have hquotient : ∀ q : Nat, q = (w.over k).1 / (w.over k).2 ∨ q = (w.over k).1 / (w.over k).2 + 1 →
      (q : ℚ) ≤ w.value / w.den / 10 ^ k + 1 := by
    rintro q (rfl | rfl)
    · linarith
    · push_cast at hfloor ⊢
      linarith
  rw [Window.hit?] at h
  dsimp only at h
  split at h
  · rename_i hq hq'
    cases h
    have hnear := nearestEven_cases (w.over k).1 (w.over k).2
    refine ⟨?_, hquotient _ hnear⟩
    obtain hn | hn := hnear <;> rw [hn]
    · exact hq
    · exact hq'
  · rename_i hq _
    cases h
    exact ⟨hq, hquotient _ (.inl rfl)⟩
  · rename_i _ hq
    cases h
    exact ⟨hq, hquotient _ (.inr rfl)⟩
  · cases h

end Hits

section Lengths

theorem two_zpow_le_ten_zpow {n k : Int} (hn : -5000 ≤ n) (hn' : n ≤ 5000)
    (h : n * 30103 / 100000 + 3 ≤ k) : (2 : ℚ) ^ (n + 1) ≤ 10 ^ k := by
  obtain hk | hk := le_total 0 k
  · obtain hneg | hpos := le_total (n + 1) 0
    · calc (2 : ℚ) ^ (n + 1) ≤ 2 ^ (0 : Int) := zpow_le_zpow_right₀ one_le_two hneg
        _ ≤ 10 ^ k := by
          rw [zpow_zero]
          exact one_le_zpow₀ (by norm_num) hk
    · obtain ⟨a, ha⟩ := Int.eq_ofNat_of_zero_le hpos
      obtain ⟨b, rfl⟩ := Int.eq_ofNat_of_zero_le hk
      rw [ha, zpow_natCast, zpow_natCast]
      refine le_of_pow_le_pow_left₀ (n := 25) (by norm_num) (by positivity) ?_
      calc ((2 : ℚ) ^ a) ^ 25 = 2 ^ (a * 25) := (pow_mul 2 a 25).symm
        _ ≤ 2 ^ (83 * b) := pow_le_pow_right₀ one_le_two (by omega)
        _ = (2 ^ 83) ^ b := pow_mul 2 83 b
        _ ≤ (10 ^ 25) ^ b := by
          gcongr
          norm_num
        _ = (10 ^ b) ^ 25 := by rw [← pow_mul, ← pow_mul, Nat.mul_comm]
  · obtain ⟨a, ha⟩ := Int.eq_ofNat_of_zero_le (show 0 ≤ -(n + 1) by omega)
    obtain ⟨b, hb⟩ := Int.eq_ofNat_of_zero_le (show 0 ≤ -k by omega)
    rw [show n + 1 = -(a : Int) by omega, show k = -(b : Int) by omega, zpow_neg, zpow_neg,
      zpow_natCast, zpow_natCast]
    refine inv_anti₀ (by positivity) ?_
    refine le_of_pow_le_pow_left₀ (n := 31) (by norm_num) (by positivity) ?_
    calc ((10 : ℚ) ^ b) ^ 31 = (10 ^ 31) ^ b := by rw [← pow_mul, ← pow_mul, Nat.mul_comm]
      _ ≤ (2 ^ 103) ^ b := by
        gcongr
        norm_num
      _ = 2 ^ (103 * b) := (pow_mul 2 103 b).symm
      _ ≤ 2 ^ (a * 31) := pow_le_pow_right₀ one_le_two (by omega)
      _ = (2 ^ a) ^ 31 := pow_mul 2 a 31

theorem lt_magnitudeOfTen {num den : Nat} (hnum : 0 < num) (hden : 0 < den)
    (hlog : num.log2 ≤ 5000) (hlog' : den.log2 ≤ 5000) :
    (num : ℚ) / den < 10 ^ (magnitudeOfTen num den + 1) ∧
      -5000 ≤ magnitudeOfTen num den ∧ magnitudeOfTen num den ≤ 5000 := by
  have hpos : (0 : ℚ) < den := by exact_mod_cast hden
  obtain ⟨-, hhigh⟩ := log2_ratio hnum hden
  obtain ⟨guess, hguess⟩ : ∃ guess : Int,
      ((num.log2 : Int) - (den.log2 : Int)) * 30103 / 100000 - 1 = guess := ⟨_, rfl⟩
  obtain ⟨reaches, hreaches⟩ : ∃ reaches : Int → Bool, (fun k : Int =>
      if 0 ≤ k then decide (den * Nat.pow 10 k.toNat ≤ num)
      else decide (den ≤ num * Nat.pow 10 (-k).toNat)) = reaches := ⟨_, rfl⟩
  have hmagnitude : magnitudeOfTen num den = if reaches (guess + 2) then guess + 3
      else if reaches (guess + 1) then guess + 2 else if reaches guess then guess + 1
      else guess := by
    subst hreaches hguess
    rfl
  -- a power that is not reached is above the ratio, whichever side it is multiplied to
  have hbelow : ∀ k, ¬reaches k = true → (num : ℚ) / den < 10 ^ k := by
    intro k hk
    rw [← hreaches] at hk
    dsimp only at hk
    split at hk
    · rename_i hsign
      obtain ⟨n, rfl⟩ := Int.eq_ofNat_of_zero_le hsign
      rw [decide_eq_true_eq, Int.toNat_natCast, not_le] at hk
      rw [zpow_natCast, div_lt_iff₀ hpos, mul_comm]
      exact_mod_cast hk
    · rename_i hsign
      obtain ⟨n, hn⟩ := Int.eq_ofNat_of_zero_le (show 0 ≤ -k by omega)
      obtain rfl : k = -(n : Int) := by omega
      rw [decide_eq_true_eq, neg_neg, Int.toNat_natCast, not_le] at hk
      rw [zpow_neg, zpow_natCast, div_lt_iff₀ hpos, inv_mul_eq_div, lt_div_iff₀ (by positivity)]
      exact_mod_cast hk
  have hmono : ∀ {a b : Int}, a ≤ b → (10 : ℚ) ^ a ≤ 10 ^ b :=
    fun h => zpow_le_zpow_right₀ (by norm_num) h
  rw [hmagnitude]
  split
  · exact ⟨lt_of_lt_of_le hhigh (two_zpow_le_ten_zpow (by omega) (by omega) (by omega)), by omega,
      by omega⟩
  rename_i hfirst
  split
  · exact ⟨lt_of_lt_of_le (hbelow _ hfirst) (hmono (by omega)), by omega, by omega⟩
  rename_i hsecond
  split
  · exact ⟨lt_of_lt_of_le (hbelow _ hsecond) (hmono (by omega)), by omega, by omega⟩
  · rename_i hthird
    exact ⟨lt_of_lt_of_le (hbelow _ hthird) (hmono (by omega)), by omega, by omega⟩

end Lengths

section Shortest

theorem shortestFrom_spec {w : Window} {top : Int} {tries digits : Nat} {r : Decimal}
    (h : shortestFrom w top tries digits = some r) :
    ∃ n, n < digits + tries ∧ r.exponent = top - n ∧ w.hit? r.exponent = some r.digits := by
  induction tries generalizing digits with
  | zero => cases h
  | succ tries ih =>
    rw [shortestFrom] at h
    split at h
    · rename_i d hd
      cases h
      exact ⟨digits, by omega, rfl, hd⟩
    · obtain ⟨n, hn, hexponent, hhit⟩ := ih h
      exact ⟨n, by omega, hexponent, hhit⟩

theorem dropTrailingZeros_spec (d : Nat) (k : Int) (places : Nat) (hpos : 0 < d) :
    0 < (dropTrailingZeros d k places).digits ∧ (dropTrailingZeros d k places).digits ≤ d ∧
      k ≤ (dropTrailingZeros d k places).exponent ∧
      (dropTrailingZeros d k places).exponent ≤ k + places ∧
      ((dropTrailingZeros d k places).digits : ℚ) * 10 ^ (dropTrailingZeros d k places).exponent
        = d * 10 ^ k := by
  induction places generalizing d k with
  | zero => exact ⟨hpos, Nat.le_refl _, Int.le_refl _, Int.le_of_eq (Int.add_zero k).symm, rfl⟩
  | succ places ih =>
    rw [dropTrailingZeros]
    split
    · rename_i hzero
      rw [beq_iff_eq] at hzero
      obtain ⟨c, rfl⟩ : ∃ c, d = c * 10 := ⟨d / 10, by omega⟩
      rw [Nat.mul_div_cancel c (by decide)]
      obtain ⟨hdigits, hle, hlow, hhigh, hvalue⟩ := ih c (k + 1) (by omega)
      refine ⟨hdigits, by omega, by omega, by omega, ?_⟩
      rw [hvalue, zpow_add_one₀ (by norm_num)]
      push_cast
      ring
    · exact ⟨hpos, Nat.le_refl _, Int.le_refl _, by dsimp only; omega, rfl⟩

theorem log2_mul_two_pow_le {c a : Nat} (h : c < 2 ^ (a + 1)) (k : Nat) :
    (c * Nat.pow 2 k).log2 ≤ a + k := by
  obtain hzero | hpos := Nat.eq_zero_or_pos (c * Nat.pow 2 k)
  · rw [hzero]
    exact Nat.zero_le _
  · refine Nat.le_of_lt_succ ((Nat.log2_lt hpos.ne').2 ?_)
    calc c * 2 ^ k < 2 ^ (a + 1) * 2 ^ k := Nat.mul_lt_mul_of_pos_right h (Nat.two_pow_pos k)
      _ = 2 ^ (a + k + 1) := by rw [← pow_add, Nat.add_right_comm]

variable {x : Magnitude} (finite : x.Finite)

include finite

theorem window_log2 : x.window.value.log2 ≤ 5000 ∧ x.window.den.log2 ≤ 5000 := by
  have hlow := finite.low
  have hhigh := finite.high
  rw [minExponent] at hlow
  rw [maxExponent] at hhigh
  have hsignificand : 4 * x.significand < 2 ^ (54 + 1) := by
    have hlimit := finite.significand
    rw [significandLimit, Nat.pow_eq] at hlimit
    omega
  rw [Magnitude.window]
  dsimp only
  split
  · have hlog := log2_mul_two_pow_le hsignificand (x.exponent - 2).toNat
    exact ⟨by omega, by decide⟩
  · have hlog := log2_mul_two_pow_le (show 1 < 2 ^ (0 + 1) by decide) (-(x.exponent - 2)).toNat
    have hlog' := log2_mul_two_pow_le hsignificand 0
    rw [Nat.one_mul] at hlog
    exact ⟨Nat.le_trans hlog' (by decide), by omega⟩

/-- The shortest decimal has few digits and is not above the window, unless it was not found. -/
theorem shortest_spec (hpos : 0 < x.significand) :
    0 < x.shortest.digits ∧ x.shortest.digits ≤ 10 ^ 18 ∧ x.shortest.exponent.natAbs ≤ 10000 ∧
      ((x.shortest.digits : ℚ) * 10 ^ x.shortest.exponent ≤ (x.significand + 1 / 2) * 2 ^ x.exponent
        ∨ x.shortest = ⟨x.significand, 0⟩) := by
  obtain ⟨hden, hlow, hvalue, hhigh⟩ := window_spec hpos
  obtain ⟨hlog, hlog'⟩ := window_log2 finite
  have hwindow : 0 < x.window.value := by
    refine Nat.pos_of_ne_zero (fun hzero => ?_)
    rw [hzero, Nat.cast_zero, zero_div, Magnitude.value] at hvalue
    have hsignificand : (0 : ℚ) < x.significand := by exact_mod_cast hpos
    have hproduct : (0 : ℚ) < x.significand * 2 ^ x.exponent := by positivity
    linarith
  obtain ⟨hlength, hleast, hlargest⟩ := lt_magnitudeOfTen hwindow hden hlog hlog'
  rw [Magnitude.shortest, if_neg (by simpa [Magnitude.isZero] using hpos.ne')]
  dsimp only
  split
  · rename_i r hr
    obtain ⟨n, hn, hexponent, hhit⟩ := shortestFrom_spec hr
    obtain ⟨hholds, hdigits⟩ := hit?_spec hden hhit
    obtain ⟨hpositive, hupper⟩ := holds_spec hden hlow hholds
    obtain ⟨hpositive', hle, hmin, hmax, hsame⟩ := dropTrailingZeros_spec r.digits r.exponent 18 hpositive
    -- the grid of the hit has a digit more than the ratio has places above it, at most
    have hbound : r.digits ≤ 10 ^ 18 := by
      have hratio : (x.window.value : ℚ) / x.window.den / 10 ^ r.exponent < 10 ^ (n + 1) := by
        rw [div_lt_iff₀ (by positivity), ← zpow_natCast, ← zpow_add₀ (by norm_num), hexponent]
        refine lt_of_lt_of_eq hlength ?_
        congr 1
        push_cast
        ring
      have hmono : (10 : ℚ) ^ (n + 1) ≤ 10 ^ 18 := pow_ten_mono (by omega)
      have hlt : (r.digits : ℚ) < (10 ^ 18 + 1 : Nat) := by
        push_cast
        linarith
      exact Nat.le_of_lt_succ (by exact_mod_cast hlt)
    refine ⟨hpositive', Nat.le_trans hle hbound, by omega, .inl ?_⟩
    rw [hsame, ← hhigh]
    exact hupper
  · have hlimit := finite.significand
    refine ⟨hpos, ?_, Nat.zero_le _, .inr rfl⟩
    rw [significandLimit, Nat.pow_eq] at hlimit
    dsimp only
    omega

theorem window_le_reach (h : ¬(x.exponent = 971 ∧ 2 ^ 53 - 2 ≤ x.significand)) :
    ((x.significand : ℚ) + 1 / 2) * 2 ^ x.exponent ≤ reach := by
  have hhigh := finite.high
  rw [maxExponent] at hhigh
  have hlimit := finite.significand
  rw [significandLimit, Nat.pow_eq] at hlimit
  obtain hbelow | hlast := Int.lt_or_eq_of_le hhigh
  · have hsignificand : (x.significand : ℚ) ≤ 2 ^ 53 := by
      exact_mod_cast hlimit.le
    have hmono : (2 : ℚ) ^ x.exponent ≤ 2 ^ ((970 : Nat) : Int) :=
      zpow_le_zpow_right₀ one_le_two (by omega)
    rw [zpow_natCast] at hmono
    rw [reach, show (2 : ℚ) ^ 971 = 2 * 2 ^ 970 from pow_succ' 2 970, ← mul_assoc]
    exact mul_le_mul (by linarith) hmono (by positivity) (by norm_num)
  · have hsignificand : (x.significand : ℚ) + 3 ≤ 2 ^ 53 := by
      exact_mod_cast (by omega : x.significand + 3 ≤ 2 ^ 53)
    rw [hlast, reach, show (971 : Int) = ((971 : Nat) : Int) from rfl, zpow_natCast]
    exact mul_le_mul_of_nonneg_right (by linarith) (by positivity)

/-- What is written of a magnitude can be read. -/
theorem ofDecimal_shortest (hpos : 0 < x.significand) :
    (ofDecimal x.shortest.digits x.shortest.exponent).isSome = true := by
  by_cases hlast : x.exponent = 971 ∧ 2 ^ 53 - 2 ≤ x.significand
  · have hlimit := finite.significand
    rw [significandLimit, Nat.pow_eq] at hlimit
    obtain ⟨significand, exponent⟩ := x
    obtain ⟨rfl, hlarge⟩ := hlast
    obtain rfl | rfl : significand = 2 ^ 53 - 2 ∨ significand = 2 ^ 53 - 1 := by
      dsimp only at hlarge hlimit
      omega
    · decide +kernel
    · decide +kernel
  · obtain ⟨hdigits, hfew, -, hvalue⟩ := shortest_spec finite hpos
    obtain hneg | hnonneg := lt_or_ge x.shortest.exponent 0
    · obtain ⟨k, hk⟩ := Int.eq_ofNat_of_zero_le (show 0 ≤ -x.shortest.exponent by omega)
      rw [show x.shortest.exponent = -(k : Int) by omega]
      exact ofDecimal_neg hfew (by omega)
    · obtain ⟨k, hk⟩ := Int.eq_ofNat_of_zero_le hnonneg
      rw [hk] at hvalue ⊢
      rw [zpow_natCast] at hvalue
      have hbound : (x.shortest.digits : ℚ) * 10 ^ k ≤ reach := by
        obtain hvalue | hvalue := hvalue
        · exact le_trans hvalue (window_le_reach finite hlast)
        · -- a decimal that was not found is the significand itself
          rw [hvalue] at hk ⊢
          obtain rfl : k = 0 := by simpa using hk.symm
          have hlimit : (x.significand : ℚ) < 2 ^ 53 := by
            have hnat := finite.significand
            rw [significandLimit, Nat.pow_eq] at hnat
            exact_mod_cast hnat
          rw [pow_zero, mul_one]
          exact le_trans hlimit.le two_pow_le_reach
      have hone : (1 : ℚ) ≤ x.shortest.digits := by exact_mod_cast hdigits
      have hsmall : k ≤ maxPowerOfTen := by
        by_contra hlarge
        have hmono : (10 : ℚ) ^ (maxPowerOfTen + 1) ≤ 10 ^ k := pow_ten_mono (by omega)
        have hpower : (10 : ℚ) ^ k ≤ x.shortest.digits * 10 ^ k :=
          le_mul_of_one_le_left (by positivity) hone
        linarith [reach_lt_pow_ten]
      exact ofDecimal_natCast hdigits hsmall hbound

end Shortest

end Accession.Binary64
