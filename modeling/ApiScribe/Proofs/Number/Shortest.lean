/-
**The digits of a number read back.**

The search for the fewest digits only ever offers a decimal that it has compared with both ends of
the interval, or the exact decimal of the number.  So the digits are near the number whatever the
search finds, and neither the estimate of the scale nor the number of tries matters for reading back.

Main results:

* `ApiScribe.Shortest.near_of_holds` — a decimal in the interval is near the number;
* `ApiScribe.Shortest.near_digits` — **the digits of a number are near it**.
-/

import ApiScribe.Number.Shortest
import ApiScribe.Proofs.Number.Nearest

set_option autoImplicit false

namespace ApiScribe.Shortest

open Binary64 (Near near_self reachDown)

/-! ### Intervals -/

/-- A decimal over the denominator of an interval. -/
theorem decimal_value (i : Interval) (d : Nat) (x : Int) :
    0 < (i.decimal d x).2 ∧ ((i.decimal d x).1 : ℚ) = d * 10 ^ x * i.unit * (i.decimal d x).2 := by
  unfold Interval.decimal
  split
  · rename_i h
    obtain ⟨k, rfl⟩ := Int.eq_ofNat_of_zero_le h
    simp
  · rename_i h
    obtain ⟨k, rfl⟩ : ∃ k : Nat, x = -k := ⟨x.natAbs, by omega⟩
    refine ⟨Nat.pow_pos (by decide), ?_⟩
    have : (10 : ℚ) ^ k ≠ 0 := by positivity
    simp
    field_simp

/-- The ends of the interval of a number. -/
theorem interval_ends {m : Nat} (hm : 0 < m) (e : Int) :
    0 < (interval m e).unit ∧
      ((interval m e).low : ℚ) = (m - reachDown m e) * 2 ^ e * (interval m e).unit ∧
      ((interval m e).high : ℚ) = (m + 1 / 2) * 2 ^ e * (interval m e).unit := by
  have hnarrow : (m == Nat.pow 2 52 && decide (Binary64.minExponent < e)) = true ↔
      m = 2 ^ 52 ∧ Binary64.minExponent < e := by simp
  have hlow : ((4 * m - (if m == Nat.pow 2 52 && decide (Binary64.minExponent < e) then 1 else 2)
      : Nat) : ℚ) = 4 * (m - reachDown m e) := by
    unfold reachDown
    by_cases h : m = 2 ^ 52 ∧ Binary64.minExponent < e
    · rw [if_pos (hnarrow.2 h), if_pos h, Nat.cast_sub (by omega)]
      push_cast
      ring
    · rw [if_neg (mt hnarrow.1 h), if_neg h, Nat.cast_sub (by omega)]
      push_cast
      ring
  unfold interval
  dsimp only
  rw [Nat.cast_mul, Nat.cast_mul, hlow]
  by_cases he : 0 ≤ e
  · obtain ⟨k, rfl⟩ := Int.eq_ofNat_of_zero_le he
    simp only [he, if_true]
    refine ⟨by decide, ?_, ?_⟩ <;> simp <;> ring
  · obtain ⟨k, rfl⟩ : ∃ k : Nat, e = -k := ⟨e.natAbs, by omega⟩
    have hpow : (2 : ℚ) ^ k ≠ 0 := by positivity
    simp only [he, if_false]
    refine ⟨Nat.mul_pos (by decide) (Nat.pow_pos (by decide)), ?_, ?_⟩ <;> simp <;> field_simp
    ring

/-- A decimal in the interval of a number is near the number. -/
theorem near_of_holds {m : Nat} {e : Int} {d : Nat} {x : Int} (hm : 0 < m)
    (h : (interval m e).holds d x = true) : Near m e (d * 10 ^ x) := by
  obtain ⟨hunit, hlow, hhigh⟩ := interval_ends hm e
  obtain ⟨hf, hn⟩ := decimal_value (interval m e) d x
  have hclosed : (interval m e).closed = (m % 2 == 0) := rfl
  unfold Interval.holds at h
  generalize (interval m e).decimal d x = nf at *
  obtain ⟨n, f⟩ := nf
  dsimp only at hf hn h
  rw [hclosed] at h
  have hs : (0 : ℚ) < (interval m e).unit * f := by
    have h₁ : (0 : ℚ) < (interval m e).unit := by exact_mod_cast hunit
    have h₂ : (0 : ℚ) < f := by exact_mod_cast hf
    positivity
  -- comparing over the common denominator is comparing the rationals
  have low_le : (interval m e).low * f ≤ n ↔ (m - reachDown m e) * 2 ^ e ≤ (d : ℚ) * 10 ^ x := by
    rw [← mul_le_mul_iff_of_pos_right hs, ← mul_assoc, ← mul_assoc, ← hlow, ← hn]
    exact_mod_cast Iff.rfl
  have le_high : n ≤ (interval m e).high * f ↔ (d : ℚ) * 10 ^ x ≤ (m + 1 / 2) * 2 ^ e := by
    rw [← mul_le_mul_iff_of_pos_right hs, ← mul_assoc, ← mul_assoc, ← hhigh, ← hn]
    exact_mod_cast Iff.rfl
  have low_lt : (interval m e).low * f < n ↔ (m - reachDown m e) * 2 ^ e < (d : ℚ) * 10 ^ x := by
    rw [← mul_lt_mul_iff_of_pos_right hs, ← mul_assoc, ← mul_assoc, ← hlow, ← hn]
    exact_mod_cast Iff.rfl
  have lt_high : n < (interval m e).high * f ↔ (d : ℚ) * 10 ^ x < (m + 1 / 2) * 2 ^ e := by
    rw [← mul_lt_mul_iff_of_pos_right hs, ← mul_assoc, ← mul_assoc, ← hhigh, ← hn]
    exact_mod_cast Iff.rfl
  split at h
  · rename_i heven
    simp only [Bool.and_eq_true, decide_eq_true_eq, low_le, le_high] at h
    exact ⟨h.1, h.2, fun hodd => by simp [hodd] at heven⟩
  · simp only [Bool.and_eq_true, decide_eq_true_eq, low_lt, lt_high] at h
    exact ⟨h.1.le, h.2.le, fun _ => h⟩

/-! ### The search -/

/-- What is offered at a place lies in the interval. -/
theorem holds_of_at? {i : Interval} {x : Int} {d : Nat} (h : i.at? x = some d) :
    i.holds d x = true := by
  unfold Interval.at? at h
  dsimp only at h
  split at h
  · rename_i h₁ h₂
    cases h
    unfold Interval.nearer
    dsimp only
    split
    · exact h₁
    · split
      · exact h₂
      · rcases Nat.mod_two_eq_zero_or_one (i.floor x) with h₀ | h₀
        · rw [h₀]
          exact h₁
        · rw [h₀]
          exact h₂
  · rename_i h₁ h₂
    cases h
    exact h₁
  · rename_i h₁ h₂
    cases h
    exact h₂
  · cases h

/-- Taking zeros away from the end keeps the value. -/
theorem strip_value (fuel d : Nat) (x : Int) :
    ((strip fuel d x).1 : ℚ) * 10 ^ (strip fuel d x).2 = d * 10 ^ x := by
  induction fuel generalizing d x with
  | zero => rfl
  | succ fuel ih =>
      rw [strip]
      split
      · rename_i h
        have hd : (d : ℚ) = 10 * (d / 10 : Nat) := by
          simp only [ne_eq, Bool.and_eq_true, decide_eq_true_eq, beq_iff_eq] at h
          have := Nat.div_add_mod d 10
          exact_mod_cast (show d = 10 * (d / 10) by omega)
        rw [ih, hd, zpow_add₀ (by norm_num), zpow_one]
        ring
      · rfl

/-- **The digits of a number are near it.** -/
theorem near_digits {m : Nat} (hm : 0 < m) (e : Int) :
    Near m e ((digits m e).1 * 10 ^ (digits m e).2) := by
  rw [digits, if_neg hm.ne']
  dsimp only
  split
  · rename_i d x hfound
    obtain ⟨n, -, hn⟩ := List.exists_of_findSome?_eq_some hfound
    obtain ⟨d', hd', heq⟩ := Option.map_eq_some_iff.1 hn
    cases heq
    rw [strip_value]
    exact near_of_holds hm (holds_of_at? hd')
  · -- the exact decimal of the number
    have hself := near_self m e
    split
    · rename_i he
      obtain ⟨k, rfl⟩ := Int.eq_ofNat_of_zero_le he
      simpa using hself
    · rename_i he
      obtain ⟨k, rfl⟩ : ∃ k : Nat, e = -k := ⟨e.natAbs, by omega⟩
      have hten : (5 : ℚ) ^ k * 10 ^ (-(k : Int)) = 2 ^ (-(k : Int)) := by
        rw [zpow_neg, zpow_neg, zpow_natCast, zpow_natCast,
          show (10 : ℚ) ^ k = 5 ^ k * 2 ^ k by rw [← mul_pow]; norm_num]
        field_simp
      simp only [neg_neg, Int.toNat_natCast, Nat.pow_eq, Nat.cast_mul, Nat.cast_pow]
      rw [mul_assoc, Nat.cast_ofNat, hten]
      exact hself

end ApiScribe.Shortest
