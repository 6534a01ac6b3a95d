/-
**Written atoms are read as themselves.**

A number that is written with a point has the form of a floating-point number and no other form, and
reading it gives the number back; so do the digits of a whole number, unless there are more of them
than a whole number may have.  A number without a point, as in `1e+16`, has no form of a number at
all and is read as a text.

Main results:

* `ApiScribe.Yaml.ofPlain_render`, `ApiScribe.Yaml.readFloat?_render` — **floating-point numbers with
  a point read back**;
* `ApiScribe.Yaml.ofPlain_integerText`, `ApiScribe.Yaml.readInt?_integerText` — **whole numbers read
  back**.
-/

import ApiScribe.Proofs.Number.Written
import ApiScribe.Yaml.Literal
import Mathlib.Data.Bool.AllAny

set_option autoImplicit false

namespace ApiScribe

open Decimal (alphabet)

/-- A number with a point has digits after it. -/
theorem Decimal.fraction_ne_nil (t : Decimal) (h : '.' ∈ t.text) : t.fraction ≠ [] := by
  intro hnil
  rw [text, point, if_pos (by rw [hnil]; rfl), List.append_nil, List.mem_append] at h
  rcases h with h | h
  · exact absurd (t.isDigit '.' (List.mem_append_left _ h)) (by decide)
  · cases hp : t.power with
    | none =>
        rw [hp] at h
        cases h
    | some power =>
        rw [hp] at h
        refine absurd h fun hmem => ?_
        rcases List.mem_cons.1 hmem with h | h
        · cases h
        · rcases List.mem_cons.1 h with h | h
          · split at h <;> cases h
          · exact absurd (isDigit_of_mem_paddedDigits h) (by decide)

theorem Decimal.point_mem_text (t : Decimal) (h : t.fraction ≠ []) : '.' ∈ t.text := by
  rw [text, point, if_neg (by rwa [List.isEmpty_iff])]
  simp

theorem mem_alphabet_integerText {n : Int} {c : Char} (h : c ∈ integerText n) : c ∈ alphabet := by
  rw [integerText_eq] at h
  exact (Decimal.ofNat n.natAbs).mem_alphabet_withSign _ h

namespace Text

theorem trimBy_eq_self {p : Char → Bool} {cs : List Char} (h : ∀ c ∈ cs, p c = false) :
    trimBy p cs = cs := by
  have drop : ∀ ds : List Char, (∀ c ∈ ds, p c = false) → ds.dropWhile p = ds := by
    intro ds hds
    cases ds with
    | nil => rfl
    | cons d ds => rw [List.dropWhile_cons_of_neg (by simp [hds d List.mem_cons_self])]
  rw [trimBy, drop cs h, trimEndBy, drop, List.reverse_reverse]
  exact fun c hc => h c (List.mem_reverse.1 hc)

end Text

namespace Yaml

open Decimal (mem_alphabet_of_isDigit)

/-! ### Signs and digits -/

theorem takeSign_withSign {negative : Bool} {c : Char} {cs : List Char} (hc : c.isDigit = true) :
    takeSign (withSign negative (c :: cs)) = (negative, c :: cs) := by
  cases negative with
  | true => rfl
  | false =>
      have h : c ≠ '-' ∧ c ≠ '+' := by
        constructor <;> rintro rfl <;> revert hc <;> decide
      unfold takeSign withSign
      split
      · rename_i rest heq
        cases heq
        exact absurd rfl h.1
      · rename_i rest heq
        cases heq
        exact absurd rfl h.2
      · rfl

theorem dropSign_withSign {negative : Bool} {c : Char} {cs : List Char} (hc : c.isDigit = true) :
    dropSign (withSign negative (c :: cs)) = c :: cs := by
  cases negative with
  | true => rfl
  | false =>
      have h : c ≠ '-' ∧ c ≠ '+' := by
        constructor <;> rintro rfl <;> revert hc <;> decide
      unfold dropSign withSign
      split
      · rename_i rest heq
        cases heq
        exact absurd rfl h.2
      · rename_i rest heq
        cases heq
        exact absurd rfl h.1
      · rfl

theorem dropWhile_digits {ds cs : List Char} (hds : ∀ c ∈ ds, c.isDigit = true)
    (hcs : ∀ c rest, cs = c :: rest → isDigitOrLow c = false) :
    (ds ++ cs).dropWhile isDigitOrLow = cs := by
  induction ds with
  | nil =>
      cases cs with
      | nil => rfl
      | cons c rest => simp [hcs c rest rfl]
  | cons d ds ih =>
      have hd : isDigitOrLow d = true := by simp [isDigitOrLow, hds d List.mem_cons_self]
      rw [List.cons_append, List.dropWhile_cons_of_pos hd]
      exact ih fun c hc => hds c (List.mem_cons_of_mem d hc)

/-! ### Words -/

/-- Whether a word starts with neither a digit nor a hyphen. -/
def isNumberless (word : List Char) : Bool := word.head?.all fun c => c ≠ '-' && !c.isDigit

theorem ne_of_isNumberless {c : Char} {cs word : List Char} (hc : c = '-' ∨ c.isDigit = true)
    (h : isNumberless word = true) : c :: cs ≠ word := by
  rintro rfl
  rcases hc with rfl | hc
  · simp [isNumberless] at h
  · simp [isNumberless, hc] at h

theorem contains_eq_false {c : Char} {cs : List Char} {words : List (List Char)}
    (hc : c = '-' ∨ c.isDigit = true) (h : words.all isNumberless = true) :
    words.contains (c :: cs) = false := by
  rw [List.contains_eq_mem, decide_eq_false_iff_not]
  exact fun hmem => ne_of_isNumberless hc (List.all_eq_true.1 h _ hmem) rfl

/-- The sign and the first digit of a number. -/
theorem exists_withSign_eq (negative : Bool) {c : Char} (cs : List Char) (hc : c.isDigit = true) :
    ∃ d ds, (d = '-' ∨ d.isDigit = true) ∧ withSign negative (c :: cs) = d :: ds := by
  cases negative with
  | true => exact ⟨'-', c :: cs, .inl rfl, rfl⟩
  | false => exact ⟨c, cs, .inr hc, rfl⟩

/-! ### Reading decimals -/

theorem takePower_exponentText (power : Int) :
    takePower (exponentText power) = some (power, []) := by
  have hdigits : takeDigits (paddedDigits 2 power.natAbs) = (paddedDigits 2 power.natAbs, []) :=
    takeDigits_eq_self fun c hc => isDigit_of_mem_paddedDigits hc
  obtain ⟨d, ds, hds⟩ := List.exists_cons_of_ne_nil (paddedDigits_ne_nil 2 power.natAbs)
  have hvalue := natOfDecimal_paddedDigits 2 power.natAbs
  by_cases hneg : power < 0
  · simp only [exponentText, hneg, if_true, takePower]
    rw [hdigits, hds]
    rw [hds] at hvalue
    simp only [true_or, if_true, hvalue]
    congr 2
    omega
  · simp only [exponentText, hneg, if_false, takePower]
    rw [hdigits, hds]
    rw [hds] at hvalue
    simp only [true_or, if_true, hvalue]
    simp
    omega

/-- The text after the digits of a written number does not go on with a digit. -/
theorem not_isDigit_tail (t : Decimal) {c : Char} {rest : List Char}
    (h : t.power.elim [] exponentText = c :: rest) : c = 'e' := by
  cases hp : t.power with
  | none =>
      rw [hp] at h
      cases h
  | some power =>
      rw [hp] at h
      cases h
      rfl

theorem unsignedDecimal?_text (negative : Bool) (t : Decimal) :
    unsignedDecimal? negative t.text = some (.ofDecimal negative t.digits t.exponent) := by
  have hwhole : ∀ c ∈ t.whole, c.isDigit = true := fun c hc =>
    t.isDigit c (List.mem_append_left _ hc)
  have hfraction : ∀ c ∈ t.fraction, c.isDigit = true := fun c hc =>
    t.isDigit c (List.mem_append_right _ hc)
  have htail : ∀ c rest, t.power.elim [] exponentText = c :: rest → c.isDigit = false := by
    intro c rest h
    rw [not_isDigit_tail t h]
    decide
  have hne : t.whole.isEmpty = false := List.isEmpty_eq_false_iff.2 t.whole_ne
  -- the digits before the point end at the point, or at the letter of the power
  have hdigits : takeDigits t.text = (t.whole, t.point ++ t.power.elim [] exponentText) := by
    rw [Decimal.text, List.append_assoc]
    refine takeDigits_append hwhole fun c rest h => ?_
    rw [Decimal.point] at h
    split at h
    · exact htail c rest h
    · cases h
      decide
  have hrest : takeDigits (t.fraction ++ t.power.elim [] exponentText)
      = (t.fraction, t.power.elim [] exponentText) := takeDigits_append hfraction htail
  unfold unsignedDecimal?
  rw [hdigits, Decimal.digits, Decimal.exponent, Decimal.point]
  by_cases hf : t.fraction = []
  · cases hp : t.power with
    | none => simp [hf, hne]
    | some power =>
        have hpower := takePower_exponentText power
        rw [exponentText] at hpower
        simp [hf, hne, exponentText, hpower]
  · rw [if_neg (by rwa [List.isEmpty_iff])]
    simp only [List.cons_append, hrest, hne, Bool.false_and, Bool.false_eq_true, if_false]
    cases hp : t.power with
    | none => rfl
    | some power =>
        have hpower := takePower_exponentText power
        rw [exponentText] at hpower
        simp only [Option.elim_some, exponentText, hpower]
        rfl

/-- What reading leaves as it is: the characters of written numbers. -/
theorem alphabet_fixed {c : Char} (h : c ∈ alphabet) :
    c ≠ '_' ∧ c.toLower = c ∧ c ≠ ':' ∧ Text.isBlank c = false ∧ plainDigit c = c ∧ c ≠ '\n' := by
  have hall : ∀ d ∈ alphabet, d ≠ '_' ∧ d.toLower = d ∧ d ≠ ':' ∧ Text.isBlank d = false ∧
      plainDigit d = d ∧ d ≠ '\n' := List.all_iff_forall_prop.1 (by decide)
  exact hall c h

theorem readFloat?_withSign (negative : Bool) (t : Decimal) :
    readFloat? (withSign negative t.text)
      = some (signedFloat negative (.ofDecimal false t.digits t.exponent)) := by
  obtain ⟨c, cs, hc, htext⟩ := t.exists_text_eq
  have hall : ∀ c ∈ withSign negative t.text, c ∈ alphabet := fun c h =>
    t.mem_alphabet_withSign negative h
  have hfilter : (withSign negative t.text).filter (· ≠ '_') = withSign negative t.text :=
    List.filter_eq_self.2 fun c h => by simpa using (alphabet_fixed (hall c h)).1
  have hlower : (withSign negative t.text).map Char.toLower = withSign negative t.text :=
    (List.map_congr_left fun c h => (alphabet_fixed (hall c h)).2.1).trans (List.map_id _)
  have hsign : takeSign (withSign negative t.text) = (negative, t.text) := by
    rw [htext]
    exact takeSign_withSign hc
  have hcolon : t.text.contains ':' = false := by
    rw [List.contains_eq_mem, decide_eq_false_iff_not]
    exact fun h => (alphabet_fixed (t.mem_alphabet h)).2.2.1 rfl
  have htrim : Text.trimBy Text.isBlank t.text = t.text :=
    Text.trimBy_eq_self fun c h => (alphabet_fixed (t.mem_alphabet h)).2.2.2.1
  have hplain : t.text.map plainDigit = t.text :=
    (List.map_congr_left fun c h => (alphabet_fixed (t.mem_alphabet h)).2.2.2.2.1).trans
      (List.map_id _)
  have hsign' : takeSign t.text = (false, t.text) := by
    have h := @takeSign_withSign false c cs hc
    rwa [← htext] at h
  have hword : ∀ word : List Char, isNumberless word = true → t.text ≠ word := by
    rw [htext]
    exact fun word => ne_of_isNumberless (.inr hc)
  have h₁ := hword ".inf".toList (by decide)
  have h₂ := hword ".nan".toList (by decide)
  have h₃ := hword "inf".toList (by decide)
  have h₄ := hword "infinity".toList (by decide)
  have h₅ := hword "nan".toList (by decide)
  unfold readFloat? decimal?
  rw [hfilter, hlower]
  simp only [hsign, h₁, h₂, if_false, hcolon, Bool.false_eq_true, htrim, hplain, hsign', h₃, h₄, h₅,
    decide_false, Bool.or_self, unsignedDecimal?_text, Option.map_some]

/-! ### The form of a number -/

/-- What starts with a digit, or with a sign before one, is a number, a moment or a text. -/
theorem ofPlain_withSign (negative : Bool) (t : Decimal) :
    Tag.ofPlain (withSign negative t.text) =
      if isFloatForm (withSign negative t.text) then .float
      else if isIntForm (withSign negative t.text) then .int
      else if (Stamp.read? (withSign negative t.text)).any Stamp.isPlain then .timestamp
      else .str := by
  obtain ⟨c, cs, hc, htext⟩ := t.exists_text_eq
  have hall : ∀ c ∈ withSign negative t.text, c ∈ alphabet := fun c h =>
    t.mem_alphabet_withSign negative h
  obtain ⟨d, ds, hd, hds⟩ := exists_withSign_eq negative cs hc
  rw [← htext] at hds
  have hlast : withoutLineFeed (withSign negative t.text) = withSign negative t.text := by
    rw [withoutLineFeed, if_neg]
    exact fun h => (alphabet_fixed (hall '\n' (List.mem_of_getLast? h))).2.2.2.2.2 rfl
  rw [Tag.ofPlain, hlast, hds]
  have h₁ := @contains_eq_false d ds boolWords hd (by decide)
  have h₂ := @contains_eq_false d ds nullWords hd (by decide)
  have h₃ := @ne_of_isNumberless d ds ['<', '<'] hd (by decide)
  have h₄ := @ne_of_isNumberless d ds ['='] hd (by decide)
  have h₅ := @ne_of_isNumberless d ds ['!'] hd (by decide)
  have h₆ := @ne_of_isNumberless d ds ['&'] hd (by decide)
  have h₇ := @ne_of_isNumberless d ds ['*'] hd (by decide)
  simp only [List.isEmpty_cons, Tag.ofForm, h₁, h₂, h₃, h₄, h₅, h₆, h₇, Bool.false_eq_true,
    if_false, decide_false, Bool.or_self]

theorem isPowerForm_tail (t : Decimal) : isPowerForm (t.power.elim [] exponentText) = true := by
  cases t.power with
  | none => rfl
  | some power =>
      have hne := paddedDigits_ne_nil 2 power.natAbs
      have hall : (paddedDigits 2 power.natAbs).all Char.isDigit = true :=
        List.all_eq_true.2 fun c hc => isDigit_of_mem_paddedDigits hc
      simp only [Option.elim_some, exponentText, isPowerForm, hall,
        List.isEmpty_eq_false_iff.2 hne]
      split <;> decide

/-- A number with a point has the form of a floating-point number. -/
theorem isFloatForm_withSign (negative : Bool) {t : Decimal} (h : t.fraction ≠ []) :
    isFloatForm (withSign negative t.text) = true := by
  obtain ⟨c, cs, hc, htext⟩ := t.exists_text_eq
  obtain ⟨w, ws, hwhole⟩ := List.exists_cons_of_ne_nil t.whole_ne
  have hdigit : ∀ c ∈ w :: (ws ++ t.fraction), c.isDigit = true := by
    rw [← List.cons_append, ← hwhole]
    exact t.isDigit
  have htail : ∀ c rest, t.power.elim [] exponentText = c :: rest → isDigitOrLow c = false := by
    intro c rest h
    rw [not_isDigit_tail t h]
    decide
  have hdrop : dropSign (withSign negative t.text) = t.text := by
    rw [htext]
    exact dropSign_withSign hc
  have hafter : afterDigits? t.text
      = some ('.' :: (t.fraction ++ t.power.elim [] exponentText)) := by
    rw [Decimal.text, hwhole, Decimal.point, if_neg (by rwa [List.isEmpty_iff])]
    simp only [List.cons_append, List.append_assoc, afterDigits?, hdigit w List.mem_cons_self,
      if_true]
    rw [dropWhile_digits]
    · exact fun c hc => hdigit c (List.mem_cons_of_mem w (List.mem_append_left _ hc))
    · intro c rest h
      cases h
      decide
  have hfraction : isFractionForm (t.fraction ++ t.power.elim [] exponentText) = true := by
    rw [isFractionForm, dropWhile_digits _ htail, isPowerForm_tail]
    exact fun c hc => t.isDigit c (List.mem_append_right _ hc)
  unfold isFloatForm
  simp only [hdrop, hafter, hfraction, Bool.true_or]

/-- A number with a point is a floating-point number. -/
theorem ofPlain_eq_float (negative : Bool) {t : Decimal} (h : t.fraction ≠ []) :
    Tag.ofPlain (withSign negative t.text) = .float := by
  rw [ofPlain_withSign, if_pos (isFloatForm_withSign negative h)]

/-! ### Floating-point numbers -/

/-- **A finite number reads back**, in whatever layout it is written. -/
theorem readFloat?_render (layout : Layout) {x : Binary64} (hfinite : x.isFinite = true)
    (hcanonical : x.Canonical) : readFloat? (layout.render x) = some x := by
  obtain ⟨negative, m, e, rfl⟩ := Binary64.exists_finite hfinite
  obtain ⟨t, htext, -, hvalue⟩ := layout.exists_decimal m e
  rw [render_finite, htext, readFloat?_withSign]
  have hread : Binary64.ofDecimal false t.digits t.exponent = .finite false m e := by
    rcases Nat.eq_zero_or_pos m with rfl | hm
    · obtain ⟨-, -, -, he⟩ := hcanonical
      have hd : t.digits = 0 := by
        have h : t.value = 0 := by
          rw [hvalue]
          simp [Shortest.digits]
        have hten : (10 : ℚ) ^ t.exponent ≠ 0 := by positivity
        rw [Decimal.value, mul_eq_zero, or_iff_left hten] at h
        exact_mod_cast h
      have he' : e = Binary64.minExponent := by
        rcases he with h | h
        · exact absurd h (by decide)
        · exact h
      rw [hd, he']
      rfl
    · refine Binary64.ofDecimal_eq_finite false hm hcanonical ?_
      have hnear := Shortest.near_digits hm e
      rwa [← hvalue] at hnear
  rw [hread]
  cases negative <;> rfl

/-- A number that is written with a point is a floating-point number. -/
theorem ofPlain_render {layout : Layout} {x : Binary64} (hfinite : x.isFinite = true)
    (hpoint : '.' ∈ layout.render x) : Tag.ofPlain (layout.render x) = .float := by
  obtain ⟨negative, m, e, rfl⟩ := Binary64.exists_finite hfinite
  obtain ⟨t, htext, -, -⟩ := layout.exists_decimal m e
  rw [render_finite, htext] at hpoint ⊢
  refine ofPlain_eq_float negative (t.fraction_ne_nil ?_)
  rcases mem_withSign hpoint with h | h
  · cases h
  · exact h

/-- In the layout of YAML every finite number is written with a point. -/
theorem point_mem_render {x : Binary64} (hfinite : x.isFinite = true) :
    '.' ∈ Layout.yaml.render x := by
  obtain ⟨negative, m, e, rfl⟩ := Binary64.exists_finite hfinite
  obtain ⟨t, htext, hpoint, -⟩ := Layout.yaml.exists_decimal m e
  rw [render_finite, htext]
  exact List.mem_append_right _ (t.point_mem_text (hpoint rfl))

/-! ### Whole numbers -/

/-- A whole number is written with a first digit and perhaps more. -/
theorem exists_decimalDigits_eq (n : Nat) :
    ∃ c cs, decimalDigits n = c :: cs ∧ ∀ d ∈ c :: cs, d.isDigit = true := by
  have hne : decimalDigits n ≠ [] := List.ne_nil_of_length_pos Nat.length_toDigits_pos
  obtain ⟨c, cs, htext⟩ := List.exists_cons_of_ne_nil hne
  exact ⟨c, cs, htext, htext ▸ fun d hd => isDigit_of_mem_decimalDigits hd⟩

/-- After digits nothing is left of them. -/
theorem afterDigits?_digits {c : Char} {cs : List Char} (h : ∀ d ∈ c :: cs, d.isDigit = true) :
    afterDigits? (c :: cs) = some [] := by
  have hdrop := @dropWhile_digits cs [] (fun d hd => h d (List.mem_cons_of_mem c hd))
    fun _ _ heq => by cases heq
  rw [List.append_nil] at hdrop
  simp [afterDigits?, h c List.mem_cons_self, hdrop]

/-- The digits of a whole number are not those of a number with a point. -/
theorem isFloatForm_ofNat (negative : Bool) (n : Nat) :
    isFloatForm (withSign negative (decimalDigits n)) = false := by
  obtain ⟨c, cs, htext, hdigits⟩ := exists_decimalDigits_eq n
  rw [htext]
  have hc := hdigits c List.mem_cons_self
  obtain ⟨d, ds, hd, hds⟩ := exists_withSign_eq negative cs hc
  have hunsigned := @contains_eq_false c cs ([".inf", ".Inf", ".INF"].map String.toList) (.inr hc)
    (by decide)
  have hnan := @contains_eq_false d ds ([".nan", ".NaN", ".NAN"].map String.toList) hd (by decide)
  have hdrop : dropSign (d :: ds) = c :: cs := by rw [← hds, dropSign_withSign hc]
  rw [hds]
  unfold isFloatForm
  simp only [hdrop, afterDigits?_digits hdigits, hunsigned, hnan, Bool.or_false]
  have hsixties : afterSixties? [] = none := rfl
  rw [hsixties, Bool.false_or]
  split
  · rename_i e rest heq
    exact absurd heq (ne_of_isNumberless hd rfl)
  · rfl

theorem isIntForm_ofNat (negative : Bool) (n : Nat) :
    isIntForm (withSign negative (decimalDigits n)) = true := by
  rcases Nat.eq_zero_or_pos n with rfl | hn
  · cases negative <;> rfl
  · obtain ⟨c, cs, htext, hdigits⟩ := exists_decimalDigits_eq n
    have hzero := head_decimalDigits hn htext
    rw [isIntForm, htext, dropSign_withSign (hdigits c List.mem_cons_self)]
    unfold isUnsignedIntForm
    split
    · rfl
    · rename_i heq
      exact absurd (List.cons.inj heq).1 hzero
    · rename_i heq
      exact absurd (List.cons.inj heq).1 hzero
    · rename_i heq
      exact absurd (List.cons.inj heq).1 hzero
    · rw [afterDigits?_digits hdigits]

/-- The digits of a whole number have the form of one. -/
theorem ofPlain_integerText (n : Int) : Tag.ofPlain (integerText n) = .int := by
  rw [integerText_eq, ofPlain_withSign, Decimal.text_ofNat, isFloatForm_ofNat, isIntForm_ofNat]
  rfl

theorem digitIn?_ten {c : Char} (hc : c.isDigit = true) :
    digitIn? 10 c = some (c.toNat - '0'.toNat) := by
  have hall : ∀ d ∈ alphabet.take 10, digitIn? 10 d = some (d.toNat - '0'.toNat) :=
    List.all_iff_forall_prop.1 (by decide)
  exact hall c (Decimal.mem_alphabet_of_isDigit hc)

theorem digitsIn?_ten {cs : List Char} (hne : cs ≠ []) (h : ∀ c ∈ cs, c.isDigit = true) :
    digitsIn? 10 cs = some (natOfDecimal cs) := by
  have hmap : cs.mapM (digitIn? 10) = some (cs.map fun c => c.toNat - '0'.toNat) := by
    clear hne
    induction cs with
    | nil => rfl
    | cons c cs ih =>
        rw [List.mapM_cons, digitIn?_ten (h c List.mem_cons_self),
          ih fun d hd => h d (List.mem_cons_of_mem c hd)]
        rfl
  rw [digitsIn?, if_neg (by rwa [List.isEmpty_iff]), hmap, Option.map_some, List.foldl_map,
    natOfDecimal, Nat.ofDigitChars_eq_foldl]
  simp only [Nat.mul_comm]

theorem intIn?_ten {c : Char} {cs : List Char} (h : ∀ d ∈ c :: cs, d.isDigit = true)
    (hzero : c ≠ '0') (hlen : (c :: cs).length ≤ maxDecimalDigits) :
    intIn? 10 (c :: cs) = some (natOfDecimal (c :: cs) : Int) := by
  have htrim : Text.trimBy Text.isBlank (c :: cs) = c :: cs :=
    Text.trimBy_eq_self fun d hd =>
      (alphabet_fixed (List.mem_of_mem_take (mem_alphabet_of_isDigit (h d hd)))).2.2.2.1
  have hsign : takeSign (c :: cs) = (false, c :: cs) :=
    @takeSign_withSign false c cs (h c List.mem_cons_self)
  have hbase : dropBaseMark 10 (c :: cs) = c :: cs := by
    unfold dropBaseMark
    split
    · rename_i heq
      exact absurd (List.cons.inj heq).1 hzero
    · rfl
  rw [intIn?, htrim, hsign]
  dsimp only
  rw [hbase, digitsIn?_ten (List.cons_ne_nil c cs) h, if_neg]
  · rfl
  · simpa using hlen

/-- **A whole number reads back**, unless it has too many digits. -/
theorem readInt?_integerText {n : Int} (h : (decimalDigits n.natAbs).length ≤ maxDecimalDigits) :
    readInt? (integerText n) = some n := by
  have hall : ∀ c ∈ integerText n, c ∈ alphabet := fun c h => mem_alphabet_integerText h
  have hfilter : (integerText n).filter (· ≠ '_') = integerText n :=
    List.filter_eq_self.2 fun c h => by simpa using (alphabet_fixed (hall c h)).1
  by_cases hn : n = 0
  · subst hn
    rfl
  · have hvalue := natOfDecimal_decimalDigits n.natAbs
    obtain ⟨c, cs, htext, hdigits⟩ := exists_decimalDigits_eq n.natAbs
    have hzero := head_decimalDigits (by omega) htext
    rw [htext] at h hvalue
    -- neither a colon nor a leading zero: the base is ten
    have hcolon : (c :: cs).contains ':' = false := by
      rw [List.contains_eq_mem, decide_eq_false_iff_not]
      exact fun hmem => absurd (hdigits ':' hmem) (by decide)
    rw [readInt?, hfilter, integerText_eq, Decimal.text_ofNat, htext,
      takeSign_withSign (hdigits c List.mem_cons_self)]
    dsimp only
    split
    · rename_i heq
      exact absurd (List.cons.inj heq).1 hzero
    · rename_i heq
      exact absurd (List.cons.inj heq).1 hzero
    · rename_i heq
      exact absurd (List.cons.inj heq).1 hzero
    · rename_i heq
      exact absurd (List.cons.inj heq).1 hzero
    · rename_i heq
      cases heq
    · rw [hcolon, if_neg Bool.false_ne_true, intIn?_ten hdigits hzero h, hvalue, Option.map_some]
      by_cases hneg : n < 0
      · simp only [hneg, decide_true, signed, if_true]
        congr 1
        omega
      · simp only [hneg, decide_false, signed, Bool.false_eq_true, if_false]
        congr 1
        omega

end Yaml

end ApiScribe
