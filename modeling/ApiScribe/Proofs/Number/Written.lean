/-
**Numbers as they are written.**

However the digits of a number are set, its text is a whole part, perhaps a point with more digits,
and perhaps a power of ten.  Such a text is kept in its parts here, together with the decimal that
the parts stand for, so that what reads numbers need not know about layouts.

Main definitions:

* `ApiScribe.Decimal` — the parts of a written number;
* `ApiScribe.Decimal.text`, `ApiScribe.Decimal.value` — its text, and the decimal it stands for;
* `ApiScribe.Decimal.Writes` — a text is one of a number;
* `ApiScribe.withSign` — a text with the sign of a number.

Main results:

* `ApiScribe.Layout.exists_decimal` — **every layout writes the digits of the number**;
* `ApiScribe.integerText_eq` — a whole number is written as its digits with the sign.
-/

import ApiScribe.Number.Reading
import ApiScribe.Proofs.Number.Shortest
import Mathlib.Tactic.IntervalCases

set_option autoImplicit false

namespace ApiScribe

/-! ### The value of digits -/

theorem natOfDecimal_append (ds es : List Char) :
    natOfDecimal (ds ++ es) = natOfDecimal ds * 10 ^ es.length + natOfDecimal es := by
  have hinit : ∀ n : Nat, Nat.ofDigitChars 10 es n = n * 10 ^ es.length + natOfDecimal es := by
    induction es with
    | nil => simp [natOfDecimal]
    | cons c es ih =>
        intro n
        rw [natOfDecimal, Nat.ofDigitChars_cons, Nat.ofDigitChars_cons, ih, ih (10 * 0 + _),
          List.length_cons]
        ring
  rw [natOfDecimal, Nat.ofDigitChars_append, hinit]

theorem natOfDecimal_zeros (k : Nat) : natOfDecimal (List.replicate k '0') = 0 := by
  induction k with
  | zero => rfl
  | succ k ih =>
      rw [List.replicate_succ', natOfDecimal_append, ih]
      rfl

theorem isDigit_of_mem_zeros {k : Nat} {c : Char} (h : c ∈ List.replicate k '0') :
    c.isDigit = true := by
  rw [List.eq_of_mem_replicate h]
  decide

theorem natOfDecimal_paddedDigits (width n : Nat) : natOfDecimal (paddedDigits width n) = n := by
  rw [paddedDigits, natOfDecimal_append, natOfDecimal_zeros, natOfDecimal_decimalDigits,
    Nat.zero_mul, Nat.zero_add]

theorem isDigit_of_mem_paddedDigits {width n : Nat} {c : Char} (h : c ∈ paddedDigits width n) :
    c.isDigit = true := by
  rcases List.mem_append.1 h with h | h
  · exact isDigit_of_mem_zeros h
  · exact isDigit_of_mem_decimalDigits h

theorem paddedDigits_ne_nil (width n : Nat) : paddedDigits width n ≠ [] := fun h =>
  List.ne_nil_of_length_pos Nat.length_toDigits_pos (List.append_eq_nil_iff.1 h).2

/-! ### The digits at the start of a text -/

theorem takeDigits_append {ds cs : List Char} (hds : ∀ c ∈ ds, c.isDigit = true)
    (hcs : ∀ c rest, cs = c :: rest → c.isDigit = false) : takeDigits (ds ++ cs) = (ds, cs) := by
  induction ds with
  | nil =>
      cases cs with
      | nil => rfl
      | cons c rest => simp [takeDigits, hcs c rest rfl]
  | cons d ds ih =>
      have hd := hds d List.mem_cons_self
      have ih := ih fun c hc => hds c (List.mem_cons_of_mem d hc)
      simp only [takeDigits, Prod.mk.injEq] at ih
      simp [takeDigits, hd, ih.1, ih.2]

theorem takeDigits_eq_self {ds : List Char} (hds : ∀ c ∈ ds, c.isDigit = true) :
    takeDigits ds = (ds, []) := by
  have h := @takeDigits_append ds [] hds fun _ _ h => by cases h
  rwa [List.append_nil] at h

/-! ### Written numbers -/

/-- The parts of a written number. -/
structure Decimal where
  /-- The digits before the point. -/
  whole : List Char
  /-- The digits after it; without digits there is no point. -/
  fraction : List Char
  /-- The power of ten. -/
  power : Option Int
  /-- There are digits before the point. -/
  whole_ne : whole ≠ []
  /-- The digits are decimal. -/
  isDigit : ∀ c ∈ whole ++ fraction, c.isDigit = true

namespace Decimal

/-- The digits as a whole number. -/
def digits (t : Decimal) : Nat := natOfDecimal (t.whole ++ t.fraction)

/-- The power of ten of the last digit. -/
def exponent (t : Decimal) : Int := t.power.getD 0 - t.fraction.length

/-- The decimal that the parts stand for. -/
def value (t : Decimal) : ℚ := t.digits * 10 ^ t.exponent

/-- The point with what follows it. -/
def point (t : Decimal) : List Char := if t.fraction.isEmpty then [] else '.' :: t.fraction

/-- The text of the parts. -/
def text (t : Decimal) : List Char := t.whole ++ t.point ++ t.power.elim [] exponentText

/-- The characters of written numbers. -/
def alphabet : List Char :=
  ['0', '1', '2', '3', '4', '5', '6', '7', '8', '9', '.', 'e', '+', '-']

theorem mem_alphabet_of_isDigit {c : Char} (h : c.isDigit = true) : c ∈ alphabet.take 10 := by
  have hc : c = Char.ofNat c.toNat := (Char.ofNat_toNat c).symm
  rw [Char.isDigit, Bool.and_eq_true, decide_eq_true_eq, decide_eq_true_eq] at h
  obtain ⟨h₁, h₂⟩ : 48 ≤ c.toNat ∧ c.toNat ≤ 57 := h
  rw [hc]
  generalize c.toNat = n at h₁ h₂
  interval_cases n <;> decide

theorem mem_exponentText {power : Int} {c : Char} (h : c ∈ exponentText power) : c ∈ alphabet := by
  rcases List.mem_cons.1 h with rfl | h
  · decide
  · rcases List.mem_cons.1 h with rfl | h
    · split <;> decide
    · exact List.mem_of_mem_take (mem_alphabet_of_isDigit (isDigit_of_mem_paddedDigits h))

/-- A written number has digits, a point, a letter for the power of ten, and signs. -/
theorem mem_alphabet (t : Decimal) {c : Char} (h : c ∈ t.text) : c ∈ alphabet := by
  have digit : ∀ c ∈ t.whole ++ t.fraction, c ∈ alphabet := fun c hc =>
    List.mem_of_mem_take (mem_alphabet_of_isDigit (t.isDigit c hc))
  rcases List.mem_append.1 h with h | h
  · rcases List.mem_append.1 h with h | h
    · exact digit c (List.mem_append_left _ h)
    · rw [point] at h
      split at h
      · cases h
      · rcases List.mem_cons.1 h with rfl | h
        · decide
        · exact digit c (List.mem_append_right _ h)
  · cases hp : t.power with
    | none =>
        rw [hp] at h
        cases h
    | some power =>
        rw [hp] at h
        exact mem_exponentText h

/-- A written number starts with a digit. -/
theorem exists_text_eq (t : Decimal) : ∃ c cs, c.isDigit = true ∧ t.text = c :: cs := by
  obtain ⟨c, cs, h⟩ := List.exists_cons_of_ne_nil t.whole_ne
  refine ⟨c, cs ++ t.point ++ t.power.elim [] exponentText, t.isDigit c ?_, ?_⟩
  · rw [h]
    exact List.mem_cons_self
  · rw [text, h]
    rfl

/-- Digits with `k` zeros at the end, and the point accordingly. -/
theorem value_of {t : Decimal} {d k : Nat} {x : Int}
    (hdigits : natOfDecimal (t.whole ++ t.fraction) = d * 10 ^ k) (hexp : t.exponent + k = x) :
    t.value = d * 10 ^ x := by
  rw [value, digits, hdigits, ← hexp, zpow_add₀ (by norm_num), zpow_natCast]
  push_cast
  ring

end Decimal

/-! ### Where the point stands -/

namespace Decimal

/-- Whether `cs` is a text of the number `n`; a text of a layout that asks for it has a point. -/
def Writes (pointed : Bool) (cs : List Char) (n : ℚ) : Prop :=
  ∃ t : Decimal, cs = t.text ∧ (pointed = true → t.fraction ≠ []) ∧ t.value = n

variable {ds : List Char} (hds : ∀ c ∈ ds, c.isDigit = true) (hne : ds ≠ []) (pointed : Bool)
variable (power : Option Int)

include hds

section

include hne

/-- The point comes before all digits. -/
theorem writes_small (k : Nat) :
    Writes pointed (['0', '.'] ++ List.replicate k '0' ++ ds)
      (natOfDecimal ds * 10 ^ (-(k + ds.length) : Int)) := by
  have hne' : List.replicate k '0' ++ ds ≠ [] := fun h => hne (List.append_eq_nil_iff.1 h).2
  refine ⟨⟨['0'], List.replicate k '0' ++ ds, none, by simp, ?_⟩, ?_, fun _ => hne', ?_⟩
  · intro c hc
    rw [List.mem_append, List.mem_append] at hc
    rcases hc with hc | hc | hc
    · rw [List.mem_singleton.1 hc]
      decide
    · exact isDigit_of_mem_zeros hc
    · exact hds c hc
  · simp [text, point, hne]
  · refine value_of (k := 0) ?_ ?_
    · rw [natOfDecimal_append, natOfDecimal_append, natOfDecimal_zeros]
      simp [natOfDecimal, Nat.ofDigitChars]
    · simp [exponent]

/-- The point comes after all digits. -/
theorem writes_large (k : Nat) :
    Writes pointed (ds ++ List.replicate k '0' ++ ['.', '0'] ++ power.elim [] exponentText)
      (natOfDecimal ds * 10 ^ (power.getD 0 + k)) := by
  have hne' : ds ++ List.replicate k '0' ≠ [] := fun h => hne (List.append_eq_nil_iff.1 h).1
  refine ⟨⟨ds ++ List.replicate k '0', ['0'], power, hne', ?_⟩, rfl, fun _ => by simp, ?_⟩
  · intro c hc
    rcases List.mem_append.1 hc with hc | hc
    · rcases List.mem_append.1 hc with hc | hc
      · exact hds c hc
      · exact isDigit_of_mem_zeros hc
    · rw [List.mem_singleton.1 hc]
      decide
  · refine value_of (k := k + 1) ?_ ?_
    · have hlast : natOfDecimal ['0'] = 0 := rfl
      rw [natOfDecimal_append, natOfDecimal_append, natOfDecimal_zeros, hlast,
        List.length_replicate, List.length_singleton, pow_succ]
      ring
    · simp only [exponent, List.length_singleton]
      omega

/-- There is no point. -/
theorem writes_whole :
    Writes false (ds ++ power.elim [] exponentText) (natOfDecimal ds * 10 ^ power.getD 0) := by
  refine ⟨⟨ds, [], power, hne, by rwa [List.append_nil]⟩, ?_, fun h => absurd h (by decide), ?_⟩
  · simp [text, point]
  · refine value_of (k := 0) ?_ ?_
    · rw [List.append_nil, pow_zero, mul_one]
    · simp [exponent]

end

/-- The point comes between two digits. -/
theorem writes_split {k : Nat} (hk : 0 < k) (hlen : k < ds.length) :
    Writes pointed (ds.take k ++ '.' :: ds.drop k ++ power.elim [] exponentText)
      (natOfDecimal ds * 10 ^ (power.getD 0 + k - ds.length)) := by
  have hdrop : ds.drop k ≠ [] := by
    rw [ne_eq, List.drop_eq_nil_iff]
    exact Nat.not_le.2 hlen
  have htake : ds.take k ≠ [] := by
    rw [ne_eq, List.take_eq_nil_iff]
    rintro (h | rfl)
    · exact hk.ne' h
    · exact Nat.not_lt_zero k hlen
  refine ⟨⟨ds.take k, ds.drop k, power, htake, by rwa [List.take_append_drop]⟩, ?_,
    fun _ => hdrop, ?_⟩
  · rw [text, point, if_neg (by rwa [List.isEmpty_iff])]
  · refine value_of (k := 0) ?_ ?_
    · rw [List.take_append_drop, pow_zero, mul_one]
    · simp only [exponent, List.length_drop]
      omega

end Decimal

/-! ### Layouts -/

section

variable {ds : List Char} (hds : ∀ c ∈ ds, c.isDigit = true) (hne : ds ≠ []) (layout : Layout)
variable (x : Int)

include hds hne

/-- Digits with a point among them, before them or after them. -/
theorem writes_positional :
    Decimal.Writes layout.pointInScientific (positional ds (x + ds.length))
      (natOfDecimal ds * 10 ^ x) := by
  unfold positional
  split
  · rename_i hpoint
    have hx : x = -(((-(x + (ds.length : Int))).toNat : Nat) + ds.length : Int) := by omega
    have hwrites := Decimal.writes_small hds hne layout.pointInScientific
      (-(x + (ds.length : Int))).toNat
    rwa [← hx] at hwrites
  · dsimp only
    split
    · have hx : x = (none : Option Int).getD 0
          + (((x + (ds.length : Int)).toNat - ds.length : Nat) : Int) := by
        rw [Option.getD_none]
        omega
      have hwrites := Decimal.writes_large hds hne layout.pointInScientific none
        ((x + (ds.length : Int)).toNat - ds.length)
      rwa [← hx, Option.elim_none, List.append_nil] at hwrites
    · have hx : x = (none : Option Int).getD 0 + ((x + (ds.length : Int)).toNat : Int)
          - ds.length := by
        rw [Option.getD_none]
        omega
      have hwrites := @Decimal.writes_split ds hds layout.pointInScientific none
        (x + (ds.length : Int)).toNat (by omega) (by omega)
      rwa [← hx, Option.elim_none, List.append_nil] at hwrites

/-- Digits with a power of ten. -/
theorem writes_scientific :
    Decimal.Writes layout.pointInScientific (layout.scientific ds (x + ds.length - 1))
      (natOfDecimal ds * 10 ^ x) := by
  unfold Layout.scientific
  by_cases hlen : ds.length ≤ 1
  · have hpos := List.length_pos_iff.2 hne
    have hx : x + ds.length - 1 = x := by omega
    rw [if_pos hlen, List.take_of_length_le hlen, hx]
    by_cases hpoint : layout.pointInScientific = true
    · have hwrites := Decimal.writes_large hds hne layout.pointInScientific (some x) 0
      simpa [hpoint] using hwrites
    · have hwrites := Decimal.writes_whole hds hne (some x)
      simpa [hpoint] using hwrites
  · have hx : x = (some (x + ds.length - 1)).getD 0 + (1 : Nat) - ds.length := by
      rw [Option.getD_some]
      omega
    have hwrites := @Decimal.writes_split ds hds layout.pointInScientific
      (some (x + ds.length - 1)) 1 Nat.one_pos (Nat.not_le.1 hlen)
    rw [← hx] at hwrites
    rwa [if_neg hlen]

end

/-- **Every layout writes the digits of the number.**  Zero has a point in every layout. -/
theorem Layout.exists_decimal (layout : Layout) (m : Nat) (e : Int) :
    ∃ t : Decimal, layout.magnitude m e = t.text ∧
      (layout.pointInScientific = true → t.fraction ≠ []) ∧
      t.value = (Shortest.digits m e).1 * 10 ^ (Shortest.digits m e).2 := by
  unfold magnitude
  generalize Shortest.digits m e = dx
  obtain ⟨d, x⟩ := dx
  dsimp only
  split
  · rename_i hd
    refine ⟨⟨['0'], ['0'], none, by simp, by simp⟩, rfl, by simp, ?_⟩
    rw [hd, Decimal.value]
    have hzero : Decimal.digits ⟨['0'], ['0'], none, by simp, by simp⟩ = 0 := rfl
    rw [hzero]
    simp
  · have hds : ∀ c ∈ decimalDigits d, c.isDigit = true := fun c hc =>
      isDigit_of_mem_decimalDigits hc
    have hne : decimalDigits d ≠ [] := List.ne_nil_of_length_pos Nat.length_toDigits_pos
    split
    · have hwrites := writes_positional hds hne layout x
      rwa [natOfDecimal_decimalDigits, ← sub_add_cancel (x + ((decimalDigits d).length : Int)) 1]
        at hwrites
    · have hwrites := writes_scientific hds hne layout x
      rwa [natOfDecimal_decimalDigits] at hwrites

/-! ### Signs -/

/-- A text with the sign of a number. -/
def withSign (negative : Bool) (cs : List Char) : List Char := (if negative then ['-'] else []) ++ cs

theorem mem_withSign {negative : Bool} {cs : List Char} {c : Char} (h : c ∈ withSign negative cs) :
    c = '-' ∨ c ∈ cs := by
  unfold withSign at h
  cases negative with
  | false => exact .inr h
  | true => exact List.mem_cons.1 h

theorem Decimal.mem_alphabet_withSign (t : Decimal) (negative : Bool) {c : Char}
    (h : c ∈ withSign negative t.text) : c ∈ Decimal.alphabet := by
  rcases mem_withSign h with rfl | h
  · decide
  · exact t.mem_alphabet h

theorem render_finite (layout : Layout) (negative : Bool) (m : Nat) (e : Int) :
    layout.render (.finite negative m e) = withSign negative (layout.magnitude m e) := rfl

/-- Only a number that is neither infinite nor not-a-number is finite. -/
theorem Binary64.exists_finite {x : Binary64} (hfinite : x.isFinite = true) :
    ∃ negative m e, x = .finite negative m e := by
  cases x with
  | finite negative m e => exact ⟨negative, m, e, rfl⟩
  | nan => cases hfinite
  | infinite negative => cases hfinite

/-! ### Whole numbers -/

/-- The digits of a whole number as a written number. -/
def Decimal.ofNat (n : Nat) : Decimal where
  whole := decimalDigits n
  fraction := []
  power := none
  whole_ne := List.ne_nil_of_length_pos Nat.length_toDigits_pos
  isDigit c hc := by
    rw [List.append_nil] at hc
    exact isDigit_of_mem_decimalDigits hc

theorem Decimal.text_ofNat (n : Nat) : (Decimal.ofNat n).text = decimalDigits n := by
  simp [text, point, ofNat]

theorem integerText_eq (n : Int) :
    integerText n = withSign (n < 0) (Decimal.ofNat n.natAbs).text := by
  rw [Decimal.text_ofNat]
  cases n with
  | ofNat k =>
      simp [integerText, withSign]
  | negSucc k =>
      simp [integerText, withSign, Int.negSucc_lt_zero]

/-- Only zero starts with a zero. -/
theorem head_decimalDigits {n : Nat} (hn : 0 < n) {c : Char} {cs : List Char}
    (h : decimalDigits n = c :: cs) : c ≠ '0' := by
  induction n using Nat.strongRecOn generalizing c cs with
  | ind n ih =>
      rcases Nat.lt_or_ge n 10 with hlt | hge
      · have hn' : n ∈ List.range' 1 9 := by
          rw [List.mem_range'_1]
          omega
        have hall : ∀ k ∈ List.range' 1 9, (decimalDigits k).head? ≠ some '0' := by decide
        intro hc
        refine hall n hn' ?_
        rw [h, hc]
        rfl
      · rw [decimalDigits, Nat.toDigits_of_base_le (by decide) hge] at h
        obtain ⟨d, ds, hds⟩ := List.exists_cons_of_ne_nil
          (List.ne_nil_of_length_pos (Nat.length_toDigits_pos (b := 10) (n := n / 10)))
        rw [hds, List.cons_append, List.cons.injEq] at h
        obtain ⟨rfl, -⟩ := h
        exact ih (n / 10) (by omega) (by omega) hds

end ApiScribe
