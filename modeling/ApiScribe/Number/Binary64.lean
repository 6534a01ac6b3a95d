/-
**Binary floating-point numbers of 64 bits.**

A finite number is a sign, a whole significand and a power of two; zero keeps its sign.  Nothing
here uses machine arithmetic: every operation is stated on whole numbers, and a result is the
nearest representable number to the exact one.

Main definitions:

* `ApiScribe.Binary64` — the numbers, with the infinities and one not-a-number;
* `ApiScribe.Binary64.nearest` — the number nearest to a ratio, a tie going to the even significand;
* `ApiScribe.Binary64.ofDecimal` — the number nearest to a decimal;
* `ApiScribe.Binary64.toInt?` — the whole number that a number stands for;
* `ApiScribe.Binary64.same` — equality of the values, under which the two zeros agree and
  not-a-number differs from itself;
* `ApiScribe.Binary64.below` — the order of the values;
* `ApiScribe.Binary64.add`, `ApiScribe.Binary64.mul` — rounded sum and product.

Main results:

* `ApiScribe.roundRatio_near` — a rounded ratio is within half a unit of the ratio;
* `ApiScribe.roundRatio_one` — a whole number is rounded to itself.
-/

set_option autoImplicit false

namespace ApiScribe

/-! ### Rounding a ratio to a whole number -/

/-- The whole number nearest to `num / den`, a tie going to the even one. -/
def roundRatio (num den : Nat) : Nat :=
  let q := num / den
  let r := num % den
  if 2 * r < den then q
  else if den < 2 * r then q + 1
  else q + q % 2

/-- A rounded ratio is within half a unit of the ratio. -/
theorem roundRatio_near (num den : Nat) (h : 0 < den) :
    2 * num ≤ (2 * roundRatio num den + 1) * den ∧
      (2 * roundRatio num den) * den ≤ 2 * num + den := by
  have hdiv := Nat.div_add_mod num den
  have hmod := Nat.mod_lt num h
  have e₁ : ∀ k : Nat, (2 * k + 1) * den = 2 * (den * k) + den := by
    intro k
    rw [Nat.add_mul, Nat.one_mul, Nat.mul_comm (2 * k), Nat.mul_left_comm]
  have e₂ : ∀ k : Nat, (2 * k) * den = 2 * (den * k) := by
    intro k
    rw [Nat.mul_comm (2 * k), Nat.mul_left_comm]
  rw [e₁, e₂]
  unfold roundRatio
  have hs : den * (num / den + 1) = den * (num / den) + den := by
    rw [Nat.mul_add, Nat.mul_one]
  generalize hq : den * (num / den) = p at hdiv hs
  by_cases h₁ : 2 * (num % den) < den
  · simp only [h₁, if_true, hq]
    omega
  · by_cases h₂ : den < 2 * (num % den)
    · simp only [h₁, h₂, if_false, if_true, hs]
      omega
    · rcases Nat.mod_two_eq_zero_or_one (num / den) with h₃ | h₃
      · simp only [h₁, h₂, if_false, h₃, Nat.add_zero, hq]
        omega
      · simp only [h₁, h₂, if_false, h₃, hs]
        omega

/-- A whole number is rounded to itself. -/
@[simp] theorem roundRatio_one (n : Nat) : roundRatio n 1 = n := by
  simp [roundRatio, Nat.mod_one]

/-! ### The numbers -/

/-- A floating-point number of 64 bits. -/
inductive Binary64 where
  /-- Not a number. -/
  | nan
  /-- An infinity. -/
  | infinite (negative : Bool)
  /-- The number `significand * 2 ^ exponent`, negated if `negative`. -/
  | finite (negative : Bool) (significand : Nat) (exponent : Int)
  deriving DecidableEq, Repr

namespace Binary64

/-- The least exponent of two. -/
def minExponent : Int := -1074

/-- The greatest exponent of two. -/
def maxExponent : Int := 971

/-- Whether a significand and an exponent are the ones under which the format keeps a number: the
significand has 53 bits, or fewer if the exponent is the least one. -/
def Canonical : Binary64 → Prop
  | finite _ m e =>
    m < Nat.pow 2 53 ∧ minExponent ≤ e ∧ e ≤ maxExponent ∧ (Nat.pow 2 52 ≤ m ∨ e = minExponent)
  | _ => True

/-- Positive or negative zero. -/
def zero (negative : Bool) : Binary64 := finite negative 0 minExponent

/-- A significand of at most `2 ^ 53` brought into range: a carry out of 53 bits is shifted back,
and what is too large is infinite. -/
def pack (negative : Bool) (m : Nat) (e : Int) : Binary64 :=
  let (m, e) := if m = Nat.pow 2 53 then (Nat.pow 2 52, e + 1) else (m, e)
  if maxExponent < e then infinite negative else finite negative m e

/-- The ratio `num / (den * 2 ^ e)` as two whole numbers. -/
def scaleRatio (num den : Nat) (e : Int) : Nat × Nat :=
  if 0 ≤ e then (num, den * Nat.pow 2 e.toNat) else (num * Nat.pow 2 (-e).toNat, den)

/-- The exponent at which `num / den` has a whole part of 53 bits, or the least exponent. -/
def fittingExponent (num den : Nat) : Int :=
  let e : Int := (num.log2 : Int) - den.log2 - 52
  let (n, d) := scaleRatio num den e
  max minExponent (if n / d < Nat.pow 2 52 then e - 1 else e)

/-- The number nearest to `num / den`, a tie going to the even significand. -/
def nearest (negative : Bool) (num den : Nat) : Binary64 :=
  if num = 0 then zero negative
  else
    let e := fittingExponent num den
    let (n, d) := scaleRatio num den e
    pack negative (roundRatio n d) e

/-- The number nearest to `digits * 10 ^ exponent`.  The bounds on the exponent only spare the
computation of powers whose outcome is certain. -/
def ofDecimal (negative : Bool) (digits : Nat) (exponent : Int) : Binary64 :=
  if digits = 0 then zero negative
  else if 400 < exponent then infinite negative
  else if exponent < -400 - (digits.log2 : Int) then zero negative
  else if 0 ≤ exponent then nearest negative (digits * Nat.pow 10 exponent.toNat) 1
  else nearest negative digits (Nat.pow 10 (-exponent).toNat)

/-- The number nearest to a whole number. -/
def ofInt (n : Int) : Binary64 := nearest (n < 0) n.natAbs 1

/-! ### What a number stands for -/

/-- Whether the number is neither infinite nor not-a-number. -/
def isFinite : Binary64 → Bool
  | finite .. => true
  | _ => false

/-- The whole number that a number stands for, if it stands for one. -/
def toInt? : Binary64 → Option Int
  | finite s m e =>
    let signed (n : Nat) : Int := if s then -n else n
    if 0 ≤ e then some (signed (m * Nat.pow 2 e.toNat))
    else
      let unit := Nat.pow 2 (-e).toNat
      if m % unit = 0 then some (signed (m / unit)) else none
  | _ => none

/-- Equality of values: the two zeros agree, and not-a-number differs from everything. -/
def same : Binary64 → Binary64 → Bool
  | infinite s, infinite t => s == t
  | finite s m e, finite t n f => (m == 0 && n == 0) || (s == t && m == n && e == f)
  | _, _ => false

/-- Whether the number stands for the whole number `n`. -/
def isInt (x : Binary64) (n : Int) : Bool := x.toInt? == some n

/-- The number with its sign turned. -/
def neg : Binary64 → Binary64
  | nan => nan
  | infinite s => infinite !s
  | finite s m e => finite (!s) m e

/-- The signed significand. -/
def signedSignificand (negative : Bool) (m : Nat) : Int := if negative then -m else m

/-- A whole number of any size as a significand, without rounding. -/
def whole (n : Int) : Binary64 := finite (n < 0) n.natAbs 0

/-- Whether a value is below another; not-a-number is neither below nor above any. -/
def below : Binary64 → Binary64 → Bool
  | nan, _ | _, nan => false
  | infinite s, infinite t => s && !t
  | infinite s, finite .. => s
  | finite .., infinite t => !t
  | finite s m e, finite t n f =>
    let low := min e f
    signedSignificand s (m * Nat.pow 2 (e - low).toNat)
      < signedSignificand t (n * Nat.pow 2 (f - low).toNat)

/-- The rounded sum. -/
def add : Binary64 → Binary64 → Binary64
  | nan, _ => nan
  | _, nan => nan
  | infinite s, infinite t => if s = t then infinite s else nan
  | infinite s, _ => infinite s
  | _, infinite t => infinite t
  | finite s m e, finite t n f =>
    let low := min e f
    let total : Int :=
      signedSignificand s (m * Nat.pow 2 (e - low).toNat)
        + signedSignificand t (n * Nat.pow 2 (f - low).toNat)
    if total = 0 then zero (s && t)
    else if 0 ≤ low then nearest (total < 0) (total.natAbs * Nat.pow 2 low.toNat) 1
    else nearest (total < 0) total.natAbs (Nat.pow 2 (-low).toNat)

/-- The rounded product. -/
def mul : Binary64 → Binary64 → Binary64
  | nan, _ => nan
  | _, nan => nan
  | infinite s, infinite t => infinite (s != t)
  | infinite s, finite t m _ => if m = 0 then nan else infinite (s != t)
  | finite s m _, infinite t => if m = 0 then nan else infinite (s != t)
  | finite s m e, finite t n f =>
    let low := e + f
    if 0 ≤ low then nearest (s != t) (m * n * Nat.pow 2 low.toNat) 1
    else nearest (s != t) (m * n) (Nat.pow 2 (-low).toNat)

end Binary64

end ApiScribe
