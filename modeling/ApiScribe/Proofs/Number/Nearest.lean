/-
**What is rounded to a floating-point number.**

The reals that are rounded to `m * 2 ^ e` reach half a unit of the last place up and down, and only
a quarter of one below a power of two, where the numbers are twice as dense.  The ends belong to
them if `m` is even.  The rounding looks for its exponent first, from the lengths of numerator and
denominator; at the quarter below a power of two it therefore finds the exponent below the one of
the result, and the carry out of the significand puts this right.

Main definition: `ApiScribe.Binary64.Near` — a rational is rounded to `m * 2 ^ e`.

Main results:

* `ApiScribe.Binary64.fittingExponent_spec` — what the exponent of a ratio is;
* `ApiScribe.Binary64.nearest_eq_finite` — **a ratio near a number is rounded to it**;
* `ApiScribe.Binary64.ofDecimal_eq_finite` — the same for a decimal.
-/

import ApiScribe.Number.Binary64
import Mathlib.Algebra.Order.Field.Power
import Mathlib.Data.Rat.Cast.Order
import Mathlib.Tactic.FieldSimp
import Mathlib.Tactic.Linarith
import Mathlib.Tactic.NormNum
import Mathlib.Tactic.Positivity
import Mathlib.Tactic.Ring

set_option autoImplicit false

namespace ApiScribe

/-! ### Rounding a ratio to a whole number -/

/-- A ratio within half a unit of `m` is rounded to `m`; at the ends `m` must be even. -/
theorem roundRatio_eq {num den m : Nat} (hden : 0 < den)
    (hlow : (m : ℚ) - 1 / 2 ≤ (num : ℚ) / den) (hhigh : (num : ℚ) / den ≤ m + 1 / 2)
    (htie : m % 2 = 1 → (m : ℚ) - 1 / 2 < (num : ℚ) / den ∧ (num : ℚ) / den < m + 1 / 2) :
    roundRatio num den = m := by
  have hd : (0 : ℚ) < den := by exact_mod_cast hden
  have hdiv : (num : ℚ) = den * (num / den : Nat) + (num % den : Nat) := by
    exact_mod_cast (Nat.div_add_mod num den).symm
  have hr : ((num % den : Nat) : ℚ) < den := by exact_mod_cast Nat.mod_lt num hden
  have hr₀ : (0 : ℚ) ≤ (num % den : Nat) := Nat.cast_nonneg _
  rw [le_div_iff₀ hd] at hlow
  rw [div_le_iff₀ hd] at hhigh
  rw [lt_div_iff₀ hd, div_lt_iff₀ hd] at htie
  unfold roundRatio
  generalize num / den = q at *
  generalize num % den = r at *
  -- the whole part is `m`, or one less
  have hqm : q ≤ m := by
    have h : ((q : ℚ) - (m + 1 / 2)) * den ≤ 0 := by linarith
    have h' : (q : ℚ) < m + 1 := by nlinarith
    have h'' : q < m + 1 := by exact_mod_cast h'
    omega
  have hmq : m ≤ q + 1 := by
    have h : ((m : ℚ) - 1 / 2 - q - 1) * den < 0 := by linarith
    have h' : (m : ℚ) < q + 2 := by nlinarith
    have h'' : m < q + 2 := by exact_mod_cast h'
    omega
  obtain rfl | rfl : m = q ∨ m = q + 1 := by omega
  · have h : 2 * r ≤ den := by
      have : (2 : ℚ) * r ≤ den := by linarith
      exact_mod_cast this
    have hodd : m % 2 = 1 → 2 * r < den := fun hm => by
      have : (2 : ℚ) * r < den := by linarith [(htie hm).2]
      exact_mod_cast this
    dsimp only
    split
    · rfl
    · split
      · omega
      · omega
  · push_cast at hlow htie
    have h : den ≤ 2 * r := by
      have : (den : ℚ) ≤ 2 * r := by linarith
      exact_mod_cast this
    have hodd : (q + 1) % 2 = 1 → den < 2 * r := fun hm => by
      have : (den : ℚ) < 2 * r := by linarith [(htie hm).1]
      exact_mod_cast this
    dsimp only
    split
    · omega
    · split
      · rfl
      · omega

namespace Binary64

/-! ### The exponent of a ratio -/

/-- What a scaled ratio stands for. -/
theorem scaleRatio_value (num den : Nat) (e : Int) :
    ((scaleRatio num den e).1 : ℚ) / (scaleRatio num den e).2 = (num : ℚ) / den / 2 ^ e := by
  unfold scaleRatio
  split
  · rename_i he
    obtain ⟨k, rfl⟩ := Int.eq_ofNat_of_zero_le he
    simp [div_div]
  · rename_i he
    obtain ⟨k, rfl⟩ : ∃ k : Nat, e = -k := ⟨e.natAbs, by omega⟩
    simp [div_eq_mul_inv]
    ring

theorem scaleRatio_pos {num den : Nat} (hden : 0 < den) (e : Int) :
    0 < (scaleRatio num den e).2 := by
  unfold scaleRatio
  split
  · exact Nat.mul_pos hden (Nat.pow_pos (by decide))
  · exact hden

/-- The number of bits says between which powers of two a number lies. -/
theorem two_zpow_log2 {n : Nat} (h : 0 < n) :
    (2 : ℚ) ^ (n.log2 : Int) ≤ n ∧ (n : ℚ) < 2 ^ ((n.log2 : Int) + 1) := by
  rw [zpow_natCast, show ((n.log2 : Int) + 1) = ((n.log2 + 1 : Nat) : Int) by omega, zpow_natCast]
  exact ⟨by exact_mod_cast Nat.log2_self_le h.ne', by exact_mod_cast Nat.lt_log2_self⟩

/-- The lengths of numerator and denominator say between which powers of two their ratio lies. -/
theorem ratio_bounds {num den : Nat} (hnum : 0 < num) (hden : 0 < den) :
    (2 : ℚ) ^ ((num.log2 : Int) - den.log2 - 1) ≤ (num : ℚ) / den ∧
      (num : ℚ) / den < 2 ^ ((num.log2 : Int) - den.log2 + 1) := by
  have hd : (0 : ℚ) < den := by exact_mod_cast hden
  obtain ⟨hn₁, hn₂⟩ := two_zpow_log2 hnum
  obtain ⟨hd₁, hd₂⟩ := two_zpow_log2 hden
  rw [le_div_iff₀ hd, div_lt_iff₀ hd]
  constructor
  · calc (2 : ℚ) ^ ((num.log2 : Int) - den.log2 - 1) * den
        ≤ 2 ^ ((num.log2 : Int) - den.log2 - 1) * 2 ^ ((den.log2 : Int) + 1) := by gcongr
      _ = 2 ^ (num.log2 : Int) := by
          rw [← zpow_add₀ (by norm_num)]
          congr 1
          omega
      _ ≤ num := hn₁
  · calc (num : ℚ) < 2 ^ ((num.log2 : Int) + 1) := hn₂
      _ = 2 ^ ((num.log2 : Int) - den.log2 + 1) * 2 ^ (den.log2 : Int) := by
          rw [← zpow_add₀ (by norm_num)]
          congr 1
          omega
      _ ≤ 2 ^ ((num.log2 : Int) - den.log2 + 1) * den := by gcongr

/-- Whether the whole part of a scaled ratio has 53 bits. -/
theorem two_pow_le_scaleRatio_iff {num den : Nat} (hden : 0 < den) (e : Int) :
    2 ^ 52 ≤ (scaleRatio num den e).1 / (scaleRatio num den e).2 ↔
      (2 : ℚ) ^ (52 + e) ≤ (num : ℚ) / den := by
  have hpos := @scaleRatio_pos num den hden e
  have hpos' : (0 : ℚ) < (scaleRatio num den e).2 := by exact_mod_cast hpos
  have hpow : (0 : ℚ) < 2 ^ e := by positivity
  rw [Nat.le_div_iff_mul_le hpos, zpow_add₀ (by norm_num), ← le_div_iff₀ hpow,
    ← scaleRatio_value, le_div_iff₀ hpos', show (2 : ℚ) ^ (52 : Int) = (2 ^ 52 : Nat) by norm_num]
  exact_mod_cast Iff.rfl

/-- At its exponent a ratio is below `2 ^ 53`, and from `2 ^ 52` on unless the exponent is the
least one. -/
theorem fittingExponent_spec {num den : Nat} (hnum : 0 < num) (hden : 0 < den) :
    minExponent ≤ fittingExponent num den ∧
      (num : ℚ) / den < 2 ^ (53 + fittingExponent num den) ∧
      (fittingExponent num den = minExponent ∨
        (2 : ℚ) ^ (52 + fittingExponent num den) ≤ (num : ℚ) / den) := by
  obtain ⟨hlower, hupper⟩ := ratio_bounds hnum hden
  have hbits := @two_pow_le_scaleRatio_iff num den hden ((num.log2 : Int) - den.log2 - 52)
  have hmono : ∀ {a b : Int}, a ≤ b → (2 : ℚ) ^ a ≤ 2 ^ b := fun h =>
    zpow_le_zpow_right₀ (by norm_num) h
  unfold fittingExponent
  dsimp only
  rw [Nat.pow_eq]
  refine ⟨le_max_left _ _, ?_, ?_⟩
  · split
    · rename_i hlt
      exact (not_le.1 (mt hbits.2 (Nat.not_le.2 hlt))).trans_le (hmono (by omega))
    · exact hupper.trans_le (hmono (by omega))
  · split
    · rcases le_total ((num.log2 : Int) - den.log2 - 52 - 1) minExponent with h | h
      · exact .inl (max_eq_left h)
      · rw [max_eq_right h]
        exact .inr ((hmono (by omega)).trans hlower)
    · rename_i hge
      rcases le_total ((num.log2 : Int) - den.log2 - 52) minExponent with h | h
      · exact .inl (max_eq_left h)
      · rw [max_eq_right h]
        exact .inr (hbits.1 (Nat.not_lt.1 hge))

/-! ### What is rounded to a number -/

/-- How far the rationals that are rounded to `m * 2 ^ e` reach down, in units of the last place. -/
def reachDown (m : Nat) (e : Int) : ℚ := if m = 2 ^ 52 ∧ minExponent < e then 1 / 4 else 1 / 2

/-- Whether `q` is rounded to `m * 2 ^ e`. -/
structure Near (m : Nat) (e : Int) (q : ℚ) : Prop where
  /-- It is not too small. -/
  low : (m - reachDown m e) * 2 ^ e ≤ q
  /-- It is not too large. -/
  high : q ≤ (m + 1 / 2) * 2 ^ e
  /-- The ends do not count if the significand is odd. -/
  tie : m % 2 = 1 → (m - reachDown m e) * 2 ^ e < q ∧ q < (m + 1 / 2) * 2 ^ e

theorem reachDown_le (m : Nat) (e : Int) : reachDown m e ≤ 1 / 2 := by
  unfold reachDown
  split <;> norm_num

/-- The number itself is near. -/
theorem near_self (m : Nat) (e : Int) : Near m e (m * 2 ^ e) := by
  have hpow : (0 : ℚ) < 2 ^ e := by positivity
  have hreach : 0 < reachDown m e := by
    unfold reachDown
    split <;> norm_num
  exact ⟨by nlinarith, by nlinarith, fun _ => ⟨by nlinarith, by nlinarith⟩⟩

section

variable {m : Nat} {e f : Int} {q : ℚ} {negative : Bool}
variable (hcanonical : (finite negative m e).Canonical) (hnear : Near m e q)

include hcanonical hnear

/-- What is near a number is below the power of two at which its exponent ends. -/
theorem Near.lt_zpow : q < 2 ^ (53 + e) := by
  obtain ⟨hm, -, -, -⟩ := hcanonical
  rw [Nat.pow_eq] at hm
  have hm' : (m : ℚ) + 1 ≤ 2 ^ (53 : Int) := by
    rw [show (2 : ℚ) ^ (53 : Int) = 2 ^ 53 by norm_num]
    exact_mod_cast hm
  calc q ≤ (m + 1 / 2) * 2 ^ e := hnear.high
    _ < 2 ^ (53 : Int) * 2 ^ e := by
        gcongr
        linarith
    _ = 2 ^ (53 + e) := (zpow_add₀ (by norm_num) _ _).symm

/-- The exponent of what is near a number is not above the one of the number. -/
theorem Near.exponent_le (hf : f = minExponent ∨ (2 : ℚ) ^ (52 + f) ≤ q) : f ≤ e := by
  rcases hf with rfl | hf
  · exact hcanonical.2.1
  · have h : 52 + f < 53 + e :=
      (zpow_lt_zpow_iff_right₀ (by norm_num)).1 (hf.trans_lt (hnear.lt_zpow hcanonical))
    omega

/-- If it is below, the number is a power of two, and what is near it lies in the quarter below. -/
theorem Near.quarter (hmin : minExponent ≤ f) (hf : q < 2 ^ (53 + f)) (hlt : f < e) :
    m = 2 ^ 52 ∧ e = f + 1 ∧ ((2 : ℚ) ^ 53 - 1 / 2) * 2 ^ f ≤ q := by
  obtain ⟨-, -, -, hnormal⟩ := hcanonical
  rw [Nat.pow_eq] at hnormal
  have hpow : (0 : ℚ) < 2 ^ e := by positivity
  have h52 : (2 : ℚ) ^ (52 : Int) = (2 ^ 52 : Nat) := by norm_num
  -- the significand is less than one above the least normal one
  have hm : m = 2 ^ 52 := by
    have hstep : (2 : ℚ) ^ (53 + f) ≤ 2 ^ (52 : Int) * 2 ^ e := by
      rw [← zpow_add₀ (by norm_num)]
      exact zpow_le_zpow_right₀ (by norm_num) (by omega)
    have hreach := reachDown_le m e
    have h : ((m : ℚ) - reachDown m e) * 2 ^ e < 2 ^ (52 : Int) * 2 ^ e :=
      (hnear.low.trans_lt hf).trans_le hstep
    have h' : (m : ℚ) - reachDown m e < 2 ^ (52 : Int) := lt_of_mul_lt_mul_right h hpow.le
    have h'' : (m : ℚ) < (2 ^ 52 : Nat) + 1 := by
      rw [h52] at h'
      linarith
    have hle : m < 2 ^ 52 + 1 := by exact_mod_cast h''
    omega
  have hlow : ((2 : ℚ) ^ 52 - 1 / 4) * 2 ^ e ≤ q := by
    have h := hnear.low
    rw [show reachDown m e = 1 / 4 from if_pos ⟨hm, by omega⟩, hm] at h
    exact_mod_cast h
  -- two exponents below, the ratio would be too large
  have he : e = f + 1 := by
    have h : (2 : ℚ) ^ (51 + e) < 2 ^ (53 + f) := by
      calc (2 : ℚ) ^ (51 + e) = 2 ^ (51 : Int) * 2 ^ e := zpow_add₀ (by norm_num) _ _
        _ ≤ (2 ^ 52 - 1 / 4) * 2 ^ e := by
            gcongr
            norm_num
        _ ≤ q := hlow
        _ < 2 ^ (53 + f) := hf
    have := (zpow_lt_zpow_iff_right₀ (by norm_num)).1 h
    omega
  refine ⟨hm, he, ?_⟩
  calc ((2 : ℚ) ^ 53 - 1 / 2) * 2 ^ f = (2 ^ 52 - 1 / 4) * 2 ^ e := by
        rw [he, zpow_add₀ (by norm_num), zpow_one]
        ring
    _ ≤ q := hlow

end

/-- **A ratio near a number is rounded to it.** -/
theorem nearest_eq_finite {m : Nat} {e : Int} {num den : Nat} (negative : Bool)
    (hcanonical : (finite negative m e).Canonical) (hnum : 0 < num) (hden : 0 < den)
    (hnear : Near m e ((num : ℚ) / den)) : nearest negative num den = finite negative m e := by
  obtain ⟨hmin, hupper, hlower⟩ := fittingExponent_spec hnum hden
  have hle := hnear.exponent_le hcanonical hlower
  have hquarter := hnear.quarter hcanonical hmin hupper
  have hpos := @scaleRatio_pos num den hden (fittingExponent num den)
  have hscale := scaleRatio_value num den (fittingExponent num den)
  obtain ⟨hm₁, -, he₂, -⟩ := hcanonical
  rw [Nat.pow_eq] at hm₁
  rw [nearest, if_neg hnum.ne']
  dsimp only
  generalize fittingExponent num den = f at *
  generalize scaleRatio num den f = nd at *
  obtain ⟨n, d⟩ := nd
  dsimp only at hpos hscale ⊢
  have hpow : (0 : ℚ) < 2 ^ f := by positivity
  rcases hle.lt_or_eq with hlt | rfl
  · -- one place lower: the significand is rounded up to the power of two, and carried
    obtain ⟨rfl, rfl, hlow⟩ := hquarter hlt
    have hround : roundRatio n d = 2 ^ 53 := by
      refine roundRatio_eq hpos ?_ ?_ fun h => absurd h (by decide)
      · rw [hscale, le_div_iff₀ hpow]
        exact_mod_cast hlow
      · rw [hscale, div_le_iff₀ hpow]
        rw [zpow_add₀ (by norm_num), show (2 : ℚ) ^ (53 : Int) = 2 ^ 53 by norm_num] at hupper
        push_cast
        linarith
    have hmax : ¬ maxExponent < f + 1 := by omega
    simp only [pack, hround, Nat.pow_eq, if_true, hmax, if_false]
  · -- the same exponent
    have hreach := reachDown_le m f
    have hround : roundRatio n d = m := by
      refine roundRatio_eq hpos ?_ ?_ fun hodd => ?_
      · rw [hscale, le_div_iff₀ hpow]
        exact le_trans (by gcongr) hnear.low
      · rw [hscale, div_le_iff₀ hpow]
        exact hnear.high
      · rw [hscale, lt_div_iff₀ hpow, div_lt_iff₀ hpow]
        obtain ⟨h₁, h₂⟩ := hnear.tie hodd
        exact ⟨lt_of_le_of_lt (by gcongr) h₁, h₂⟩
    have hne : m ≠ 2 ^ 53 := by omega
    have hmax : ¬ maxExponent < f := by omega
    simp only [pack, hround, Nat.pow_eq, hne, if_false, hmax]

/-! ### Decimals -/

/-- What is near a number is above the least of the numbers, and below the greatest. -/
theorem Near.bounds {m : Nat} {e : Int} {q : ℚ} {negative : Bool} (hm : 0 < m)
    (hcanonical : (finite negative m e).Canonical) (hnear : Near m e q) :
    (2 : ℚ) ^ (-1075 : Int) ≤ q ∧ q < 2 ^ (1024 : Int) := by
  obtain ⟨hm₁, he₁, he₂, -⟩ := hcanonical
  rw [Nat.pow_eq] at hm₁
  have hpow : (0 : ℚ) < 2 ^ e := by positivity
  constructor
  · have h : (2 : ℚ) ^ (-1074 : Int) ≤ 2 ^ e := zpow_le_zpow_right₀ (by norm_num) he₁
    have hm' : (1 : ℚ) ≤ m := by exact_mod_cast hm
    have hreach := reachDown_le m e
    calc (2 : ℚ) ^ (-1075 : Int) = 1 / 2 * 2 ^ (-1074 : Int) := by
          rw [show (-1075 : Int) = -1 + -1074 by decide, zpow_add₀ (by norm_num), zpow_neg_one,
            one_div]
      _ ≤ 1 / 2 * 2 ^ e := by gcongr
      _ ≤ (m - reachDown m e) * 2 ^ e := by nlinarith
      _ ≤ q := hnear.low
  · have h : (2 : ℚ) ^ e ≤ 2 ^ (971 : Int) := zpow_le_zpow_right₀ (by norm_num) he₂
    have hm' : (m : ℚ) + 1 ≤ 2 ^ 53 := by exact_mod_cast hm₁
    calc q ≤ (m + 1 / 2) * 2 ^ e := hnear.high
      _ < 2 ^ 53 * 2 ^ e := by nlinarith
      _ ≤ 2 ^ 53 * 2 ^ (971 : Int) := by gcongr
      _ = 2 ^ (1024 : Int) := by
          rw [← zpow_natCast, ← zpow_add₀ (by norm_num)]
          rfl

theorem two_zpow_le_ten_zpow (k : Nat) : (2 : ℚ) ^ (3 * k : Int) ≤ 10 ^ (k : Int) := by
  rw [zpow_mul, zpow_natCast, zpow_natCast]
  exact pow_le_pow_left₀ (by positivity) (by norm_num) k

/-- **A decimal near a number is rounded to it.** -/
theorem ofDecimal_eq_finite {m : Nat} {e : Int} {ds : Nat} {x : Int} (negative : Bool) (hm : 0 < m)
    (hcanonical : (finite negative m e).Canonical) (hnear : Near m e ((ds : ℚ) * 10 ^ x)) :
    ofDecimal negative ds x = finite negative m e := by
  obtain ⟨hlow, hhigh⟩ := hnear.bounds hm hcanonical
  have hds : 0 < ds := by
    rcases Nat.eq_zero_or_pos ds with rfl | h
    · rw [Nat.cast_zero, zero_mul] at hlow
      exact absurd hlow (not_le.2 (by positivity))
    · exact h
  have hds' : (1 : ℚ) ≤ ds := by exact_mod_cast hds
  -- the bounds that spare the computation do not cut off what is near a number
  have hx : ¬ 400 < x := by
    intro h
    have h' : (10 : ℚ) ^ (401 : Int) ≤ 10 ^ x := zpow_le_zpow_right₀ (by norm_num) (by omega)
    have hbig : (2 : ℚ) ^ (1024 : Int) ≤ 10 ^ (401 : Int) :=
      (zpow_le_zpow_right₀ (by norm_num) (by decide)).trans (two_zpow_le_ten_zpow 401)
    have hds'' : (10 : ℚ) ^ x ≤ ds * 10 ^ x := le_mul_of_one_le_left (by positivity) hds'
    exact absurd hhigh (not_lt.2 ((hbig.trans h').trans hds''))
  have hx' : ¬ x < -400 - (ds.log2 : Int) := by
    intro h
    have hlog : (ds : ℚ) < 2 ^ ((ds.log2 : Int) + 1) := (two_zpow_log2 hds).2
    have hsmall : (2 : ℚ) * 10 ^ (-401 : Int) < 2 ^ (-1075 : Int) := by
      have h₁ : (10 : ℚ) ^ (-401 : Int) ≤ 2 ^ (-1203 : Int) := by
        rw [zpow_neg, zpow_neg]
        exact inv_anti₀ (by positivity) (two_zpow_le_ten_zpow 401)
      have h₂ : (2 : ℚ) * 2 ^ (-1203 : Int) = 2 ^ (-1202 : Int) := by
        rw [← zpow_one_add₀ (by norm_num)]
        rfl
      have h₃ : (2 : ℚ) ^ (-1202 : Int) < 2 ^ (-1075 : Int) :=
        zpow_lt_zpow_right₀ (by norm_num) (by decide)
      linarith
    refine absurd (hlow.trans ?_) (not_le.2 hsmall)
    calc (ds : ℚ) * 10 ^ x
        ≤ 2 ^ ((ds.log2 : Int) + 1) * 10 ^ (-401 - (ds.log2 : Int)) := by
          gcongr
          · norm_num
          · omega
      _ ≤ (2 * 10 ^ (ds.log2 : Int)) * 10 ^ (-401 - (ds.log2 : Int)) := by
          rw [zpow_add₀ (by norm_num), zpow_one, mul_comm _ (2 : ℚ), zpow_natCast, zpow_natCast]
          gcongr
          norm_num
      _ = 2 * 10 ^ (-401 : Int) := by
          rw [mul_assoc, ← zpow_add₀ (by norm_num)]
          congr 2
          omega
  rw [ofDecimal, if_neg hds.ne', if_neg hx, if_neg hx']
  split
  · rename_i h
    obtain ⟨k, rfl⟩ := Int.eq_ofNat_of_zero_le h
    refine nearest_eq_finite negative hcanonical ?_ Nat.one_pos ?_
    · exact Nat.mul_pos hds (Nat.pow_pos (by decide))
    · simpa using hnear
  · rename_i h
    obtain ⟨k, rfl⟩ : ∃ k : Nat, x = -k := ⟨x.natAbs, by omega⟩
    refine nearest_eq_finite negative hcanonical hds (Nat.pow_pos (by decide)) ?_
    simpa [div_eq_mul_inv] using hnear

end Binary64

end ApiScribe
