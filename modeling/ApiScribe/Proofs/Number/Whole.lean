/-
**Whole floating-point numbers.**

A finite floating-point number stands for a rational.  Whether this is a whole number, and which one,
is found without rationals, from the significand and the power of two.

Main definition: `ApiScribe.Binary64.value?` — the rational that a number stands for.

Main result: `ApiScribe.Binary64.toInt?_eq_some_iff` — **a number is read as a whole number exactly
if it stands for it**.
-/

import ApiScribe.Number.Binary64
import Mathlib.Data.Rat.Cast.Order
import Mathlib.Tactic.FieldSimp
import Mathlib.Tactic.NormNum
import Mathlib.Tactic.Ring

set_option autoImplicit false

namespace ApiScribe.Binary64

/-- The rational that a finite number stands for. -/
def value? : Binary64 → Option ℚ
  | finite negative m e => some (signedSignificand negative m * 2 ^ e)
  | _ => none

variable {s : Bool} {m k : Nat}

theorem signedSignificand_mul (s : Bool) (m k : Nat) :
    signedSignificand s (m * k) = signedSignificand s m * k := by
  cases s <;> simp [signedSignificand]

/-- A significand over a power of two is whole exactly if the power divides it. -/
theorem signedSignificand_div_eq_iff (hk : 0 < k) {n : Int} :
    (signedSignificand s m : ℚ) / k = n ↔ m % k = 0 ∧ signedSignificand s (m / k) = n := by
  have hk' : (k : ℚ) ≠ 0 := by exact_mod_cast hk.ne'
  rw [div_eq_iff hk']
  constructor
  · intro h
    have hint : signedSignificand s m = n * k := by exact_mod_cast h
    have hdvd : (k : Int) ∣ signedSignificand s m := ⟨n, by rw [hint, Int.mul_comm]⟩
    have hnat : k ∣ m := by
      rw [← Int.natCast_dvd_natCast]
      cases s with
      | true => simpa [signedSignificand] using hdvd
      | false => simpa [signedSignificand] using hdvd
    obtain ⟨q, rfl⟩ := hnat
    refine ⟨Nat.mul_mod_right k q, ?_⟩
    rw [Nat.mul_div_cancel_left q hk]
    rw [Nat.mul_comm, signedSignificand_mul] at hint
    have hkz : (k : Int) ≠ 0 := by exact_mod_cast hk.ne'
    exact Int.eq_of_mul_eq_mul_right hkz hint
  · rintro ⟨hmod, rfl⟩
    have hm : m / k * k = m := Nat.div_mul_cancel (Nat.dvd_of_mod_eq_zero hmod)
    have h := signedSignificand_mul s (m / k) k
    rw [hm] at h
    exact_mod_cast h

/-- **A number is read as a whole number exactly if it stands for it.** -/
theorem toInt?_eq_some_iff {x : Binary64} {n : Int} :
    x.toInt? = some n ↔ x.value? = some (n : ℚ) := by
  cases x with
  | nan => simp [toInt?, value?]
  | infinite s => simp [toInt?, value?]
  | finite s m e =>
      have hsigned : ∀ m : Nat, (if s then -(m : Int) else m) = signedSignificand s m := fun _ => rfl
      rw [value?, Option.some.injEq, toInt?]
      simp only [hsigned]
      by_cases he : 0 ≤ e
      · obtain ⟨k, rfl⟩ := Int.eq_ofNat_of_zero_le he
        rw [if_pos he, Option.some.injEq, Int.toNat_natCast, signedSignificand_mul, zpow_natCast]
        norm_cast
      · obtain ⟨k, hk⟩ := Int.eq_ofNat_of_zero_le (show 0 ≤ -e by omega)
        obtain rfl : e = -(k : Int) := by omega
        have hpow : (signedSignificand s m : ℚ) * 2 ^ (-(k : Int))
            = (signedSignificand s m : ℚ) / (Nat.pow 2 k : Nat) := by
          rw [zpow_neg, zpow_natCast, div_eq_mul_inv]
          norm_cast
        have hpos : 0 < Nat.pow 2 k := Nat.pow_pos (by decide)
        rw [if_neg he, hpow, signedSignificand_div_eq_iff hpos, Int.neg_neg, Int.toNat_natCast]
        split_ifs with hmod
        · rw [Option.some.injEq]
          exact ⟨fun h => ⟨hmod, h⟩, And.right⟩
        · exact ⟨fun h => by simp at h, fun h => absurd h.1 hmod⟩

end ApiScribe.Binary64
