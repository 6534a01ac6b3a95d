/-
**Reading texts in quotes.**

One lemma for each thing that may stand between quotes: a character that stands for itself, a blank,
a line break, an escape with a letter, and an escape with a code point.  What has been read since the
last character is a `Quote`; every lemma says what becomes of it.

The second part reads a JSON string as YAML does.  JSON writes all characters from the blank on as
they are, so what YAML takes for line breaks stands in the text raw.  A line or paragraph separator is
kept by the folding, but the blanks around it are not; the older *next line* is turned into a line
feed and folded away; and three hyphens or points after one of them end the document.

Main definitions:

* `ApiScribe.Json.isKept` — whether YAML reads a JSON string as the text that it stands for.

Main result:

* `ApiScribe.Yaml.readDouble_writeString` — **JSON strings of kept texts are read back**.
-/

import ApiScribe.Proofs.Json.Written
import ApiScribe.Proofs.Text.Utf8
import ApiScribe.Proofs.Yaml.Steps
import ApiScribe.Yaml.Style

set_option autoImplicit false

namespace ApiScribe

namespace Yaml

/-! ### Between double quotes -/

theorem prependText_prependText (cs ds : List Char) (found : Option (List Char × List Spot)) :
    prependText cs (prependText ds found) = prependText (cs ++ ds) found := by
  cases found with
  | none => rfl
  | some found => simp [prependText]

/-- Whether `c` stands for itself between double quotes, and is no blank. -/
def standsBare (c : Char) : Bool := !(isGap c || c = '"' || c = '\\')

/-- What becomes of a character outside an escape. -/
theorem readDouble_outside (q : Quote) (s : Spot) (rest : List Spot) :
    readDouble (.outside q) (s :: rest)
      = if isBlank s.char then readDouble (.outside (q.blank s.char)) rest
        else if isBreak s.char then
          if atMarker rest then none else readDouble (.outside (q.lineBreak s.char)) rest
        else if s.char = '"' then some (q.text, rest)
        else if s.char = '\\' then prependText q.text (readDouble .backslash rest)
        else prependText (q.text ++ [s.char]) (readDouble (.outside (.blanks [])) rest) := rfl

section

variable (q : Quote) (p : Position) {c : Char} (cs : List Char)

theorem readDouble_bare (h : standsBare c = true) :
    readDouble (.outside q) (place p (c :: cs))
      = prependText (q.text ++ [c]) (readDouble (.outside (.blanks [])) (place (p.after c) cs)) := by
  simp only [standsBare, isGap, Bool.not_eq_true', Bool.or_eq_false_iff, decide_eq_false_iff_not] at h
  obtain ⟨⟨⟨h₁, h₂⟩, h₃⟩, h₄⟩ := h
  simp [place, readDouble_outside, h₁, h₂, h₃, h₄]

theorem readDouble_blank :
    readDouble (.outside q) (place p (' ' :: cs))
      = readDouble (.outside (q.blank ' ')) (place (p.after ' ') cs) := by
  have h : isBlank ' ' = true := by decide
  simp [place, readDouble_outside, h]

theorem readDouble_break (h : isBreak c = true)
    (hmarker : atMarker (place (p.after c) cs) = false) :
    readDouble (.outside q) (place p (c :: cs))
      = readDouble (.outside (q.lineBreak c)) (place (p.after c) cs) := by
  have hblank : isBlank c = false := by
    revert h
    simp only [isBreak, isBlank, Bool.or_eq_true, decide_eq_true_eq, Bool.or_eq_false_iff,
      decide_eq_false_iff_not]
    rintro (((rfl | rfl) | rfl) | rfl) <;> decide
  simp [place, readDouble_outside, h, hblank, hmarker]

theorem readDouble_close :
    readDouble (.outside q) (place p ('"' :: cs)) = some (q.text, place (p.after '"') cs) := by
  have h₁ : isBlank '"' = false := by decide
  have h₂ : isBreak '"' = false := by decide
  simp [place, readDouble_outside, h₁, h₂]

theorem readDouble_backslash :
    readDouble (.outside q) (place p ('\\' :: cs))
      = prependText q.text (readDouble .backslash (place (p.after '\\') cs)) := by
  have h₁ : isBlank '\\' = false := by decide
  have h₂ : isBreak '\\' = false := by decide
  simp [place, readDouble_outside, h₁, h₂]

theorem readDouble_letter {letter : Char} (h : escaped? letter = some c) :
    readDouble (.outside q) (place p ('\\' :: letter :: cs))
      = prependText (q.text ++ [c])
          (readDouble (.outside (.blanks [])) (place (p.afterAll ['\\', letter]) cs)) := by
  rw [readDouble_backslash, place, readDouble]
  simp only [h, prependText_prependText]
  rfl

/-- The digits of a code point. -/
theorem readDouble_digits {ds : List Char} {owed value : Nat} (hlen : ds.length = owed + 1)
    (hds : ∀ d ∈ ds, (digitValue? d).isSome = true) (hcode : natOfHex ds value = c.toNat) :
    readDouble (.code owed value) (place p (ds ++ cs))
      = prependText [c] (readDouble (.outside (.blanks [])) (place (p.afterAll ds) cs)) := by
  induction ds generalizing p owed value with
  | nil => cases hlen
  | cons d ds ih =>
      obtain ⟨n, hn⟩ := Option.isSome_iff_exists.1 (hds d List.mem_cons_self)
      have hstep : natOfHex ds (value * 16 + n) = c.toNat := by
        rw [natOfHex, List.foldl_cons, hn, Option.getD_some] at hcode
        exact hcode
      rw [List.cons_append, place, readDouble]
      simp only [hn]
      cases owed with
      | zero =>
          obtain rfl : ds = [] := List.eq_nil_of_length_eq_zero (by simpa using hlen)
          have hvalue : value * 16 + n = c.toNat := hstep
          have hmax : ¬ 0x10FFFF < c.toNat := by
            have := c.valid
            simp only [UInt32.isValidChar, Nat.isValidChar] at this
            have h : c.toNat = c.val.toNat := rfl
            omega
          simp only [hvalue, hmax, if_false, charOfCode_toNat]
          rfl
      | succ owed =>
          exact ih (p.after d) (by simpa using hlen)
            (fun e he => hds e (List.mem_cons_of_mem d he)) hstep

/-- A character by its code point. -/
theorem readDouble_code {mark : Char} {ds : List Char} (hmark : escaped? mark = none)
    (hlen : codeLength? mark = some ds.length) (hne : ds ≠ [])
    (hds : ∀ d ∈ ds, (digitValue? d).isSome = true) (hcode : natOfHex ds 0 = c.toNat) :
    readDouble (.outside q) (place p ('\\' :: mark :: ds ++ cs))
      = prependText (q.text ++ [c])
          (readDouble (.outside (.blanks [])) (place (p.afterAll ('\\' :: mark :: ds)) cs)) := by
  have hpos := List.length_pos_iff.2 hne
  rw [List.cons_append, List.cons_append, readDouble_backslash, place, readDouble]
  simp only [hmark, hlen]
  rw [readDouble_digits _ cs (by omega) hds hcode, prependText_prependText]
  rfl

/-- A control character by its code point, as JSON writes it. -/
theorem readDouble_control (h : c.toNat < 0x20) :
    readDouble (.outside q) (place p ('\\' :: 'u' :: hexDigits 4 c.toNat ++ cs))
      = prependText (q.text ++ [c]) (readDouble (.outside (.blanks []))
          (place (p.afterAll ('\\' :: 'u' :: hexDigits 4 c.toNat)) cs)) := by
  have hlen := length_hexDigits 4 c.toNat
  have hcode : natOfHex (hexDigits 4 c.toNat) 0 = c.toNat := by
    rw [natOfHex_hexDigits, Nat.mod_eq_of_lt (by omega)]
  have hds : ∀ d ∈ hexDigits 4 c.toNat, (digitValue? d).isSome = true := by
    intro d hd
    obtain ⟨n, hn, rfl⟩ := mem_hexDigits hd
    rw [digitValue?_hexDigit hn]
    rfl
  exact readDouble_code q p cs rfl (by rw [hlen]; rfl) (List.ne_nil_of_length_pos (by omega)) hds
    hcode

end

end Yaml

/-! ### JSON strings as YAML reads them -/

namespace Json

open Yaml (hasNeighbours)

/-- Whether `c` is a line or paragraph separator. -/
def isSeparator (c : Char) : Bool := c = '\u2028' || c = '\u2029'

/-- Whether a text starts with three hyphens or points that would end a document after a line
break. -/
def startsMarker : List Char → Bool
  | a :: b :: c :: d :: _ => (a = '-' || a = '.') && b = a && c = a && (d = ' ' || isSeparator d)
  | _ => false

/-- Whether a separator stands before three hyphens or points that would end a document. -/
def holdsMarker : List Char → Bool
  | [] => false
  | c :: rest => (isSeparator c && startsMarker rest) || holdsMarker rest

/-- Whether YAML reads a JSON string as the text that it stands for: all characters from the blank on
may stand in YAML and are not the older line break, and no separator stands next to a blank or before
what would end the document. -/
def isKept (cs : List Char) : Bool :=
  cs.all (fun c => c.toNat < 0x20 || (Yaml.isAllowed c && c ≠ '\u0085'))
    && !hasNeighbours isSeparator Yaml.isSpace cs
    && !hasNeighbours Yaml.isSpace isSeparator cs
    && !holdsMarker cs

end Json

namespace Yaml

open Json (escapeChar escaped_escapeChar isSeparator startsMarker holdsMarker isKept writeString)

/-- YAML has the letters of JSON for its escapes. -/
theorem escaped?_of_mem_letterEscapes {letter c : Char} (h : (letter, c) ∈ Json.letterEscapes) :
    escaped? letter = some c := by
  have hall : ∀ m ∈ Json.letterEscapes, escaped? m.1 = some m.2 :=
    List.all_iff_forall_prop.1 (by decide)
  exact hall (letter, c) h

theorem isBreak_of_isSeparator {c : Char} (h : isSeparator c = true) : isBreak c = true := by
  simp only [isSeparator, Bool.or_eq_true, decide_eq_true_eq] at h
  rcases h with rfl | rfl <;> decide

/-- Whether what has been read since the last character goes with the rest of a text. -/
def Quote.Fits : Quote → List Char → Prop
  | .blanks [], _ => True
  | .blanks _, cs => cs.head?.all (!isSeparator ·) = true
  | .lines first _, cs => first ≠ '\n' ∧ cs.head?.all (· ≠ ' ') = true
  | .joined _, _ => False

/-- The first character of what JSON writes for a text, if it is a blank or one that structures the
text, is the first character of the text. -/
theorem head_writeString {cs tail : List Char} {c : Char} {rest : List Char}
    (h : cs.flatMap (escapeChar false) ++ '"' :: tail = c :: rest) (hc : c ≠ '"' ∧ c ≠ '\\') :
    ∃ ds, cs = c :: ds ∧ rest = ds.flatMap (escapeChar false) ++ '"' :: tail ∧ 0x20 ≤ c.toNat := by
  cases cs with
  | nil =>
      cases h
      exact absurd rfl hc.1
  | cons d ds =>
      rw [List.flatMap_cons, List.append_assoc] at h
      have hd := escaped_escapeChar d
      generalize escapeChar false d = written at hd h
      cases hd with
      | letter _ => exact absurd (List.cons.inj h).1.symm hc.2
      | code _ => exact absurd (List.cons.inj h).1.symm hc.2
      | bare hle _ _ =>
          obtain ⟨rfl, rfl⟩ := List.cons.inj h
          exact ⟨ds, rfl, rfl, hle⟩

/-- What ends a document in the text that JSON writes does so in the text itself. -/
theorem atMarker_writeString {cs tail : List Char} {p : Position} (hnext : '\u0085' ∉ cs)
    (h : startsMarker cs = false) :
    atMarker (place p (cs.flatMap (escapeChar false) ++ '"' :: tail)) = false := by
  rw [← Bool.not_eq_true]
  intro hmarker
  obtain ⟨a, rest, hrest, ha, hgap⟩ := exists_of_atMarker hmarker
  have ha' : a ≠ '"' ∧ a ≠ '\\' := by rcases ha with rfl | rfl <;> decide
  obtain ⟨ds₁, rfl, h₁, -⟩ := head_writeString hrest ha'
  obtain ⟨ds₂, rfl, h₂, -⟩ := head_writeString h₁.symm ha'
  obtain ⟨ds₃, rfl, h₃, -⟩ := head_writeString h₂.symm ha'
  -- the character after the three is raw, so it is a blank or a separator
  cases rest with
  | nil => exact absurd h₃ (by simp)
  | cons g rest =>
      have hg : isGap g = true := hgap g rest rfl
      have hg' : g ≠ '"' ∧ g ≠ '\\' := by
        constructor <;> rintro rfl <;> revert hg <;> decide
      obtain ⟨ds₄, rfl, -, hle⟩ := head_writeString h₃.symm hg'
      have hspace : g = ' ' ∨ isSeparator g = true := by
        simp only [isGap, isBlank, isBreak, Bool.or_eq_true, decide_eq_true_eq] at hg
        rcases hg with (rfl | rfl) | ((rfl | rfl) | rfl) | rfl
        · exact .inl rfl
        · exact absurd hle (by decide)
        · exact absurd hle (by decide)
        · simp at hnext
        · exact .inr rfl
        · exact .inr rfl
      refine Bool.false_ne_true (h.symm.trans ?_)
      rcases ha with rfl | rfl <;> rcases hspace with rfl | hs <;> simp [startsMarker, *]

theorem hasNeighbours_cons {p₁ p₂ : Char → Bool} {c : Char} {cs : List Char}
    (h : hasNeighbours p₁ p₂ (c :: cs) = false) :
    (p₁ c = true → cs.head?.all (!p₂ ·) = true) ∧ hasNeighbours p₁ p₂ cs = false := by
  cases cs with
  | nil => exact ⟨fun _ => rfl, rfl⟩
  | cons d ds =>
      rw [hasNeighbours, Bool.or_eq_false_iff] at h
      refine ⟨fun h₁ => ?_, h.2⟩
      rw [h₁, Bool.true_and] at h
      simp [h.1]

/-- A blank more, where it may stand. -/
theorem Quote.Fits.blank {q : Quote} {cs : List Char} (hq : q.Fits (' ' :: cs))
    (hcs : cs.head?.all (!isSeparator ·) = true) :
    (q.blank ' ').Fits cs ∧ (q.blank ' ').text = q.text ++ [' '] := by
  cases q with
  | blanks bs =>
      refine ⟨?_, rfl⟩
      unfold Quote.Fits Quote.blank
      split
      · trivial
      · rename_i heq
        cases heq
        exact hcs
      · rename_i heq
        cases heq
      · rename_i heq
        cases heq
  | lines first more => exact absurd hq.2 (by simp)
  | joined more => exact hq.elim

/-- A separator more, where it may stand. -/
theorem Quote.Fits.lineBreak {q : Quote} {c : Char} {cs : List Char} (hc : isSeparator c = true)
    (hq : q.Fits (c :: cs)) (hcs : cs.head?.all (· ≠ ' ') = true) :
    (q.lineBreak c).Fits cs ∧ (q.lineBreak c).text = q.text ++ [c] := by
  have hc' : breakText c = c ∧ c ≠ '\n' := by
    simp only [isSeparator, Bool.or_eq_true, decide_eq_true_eq] at hc
    rcases hc with rfl | rfl <;> decide
  cases q with
  | blanks bs =>
      cases bs with
      | nil =>
          refine ⟨⟨?_, hcs⟩, ?_⟩
          · rw [hc'.1]
            exact hc'.2
          · simp [Quote.lineBreak, Quote.text, hc'.1, foldBreaks, hc'.2]
      | cons b bs =>
          have h : (!isSeparator c) = true := by simpa [Quote.Fits] using hq
          rw [hc] at h
          cases h
  | lines first more =>
      refine ⟨⟨hq.1, hcs⟩, ?_⟩
      simp [Quote.lineBreak, Quote.text, hc'.1, foldBreaks, hq.1]
  | joined more => exact hq.elim

theorem standsBare_of_not_isSeparator {c : Char} (hle : 0x20 ≤ c.toNat) (hquote : c ≠ '"')
    (hslash : c ≠ '\\') (hspace : c ≠ ' ') (hnext : c ≠ '\u0085') (hsep : isSeparator c = false) :
    standsBare c = true := by
  have htab : c ≠ '\t' := by
    rintro rfl
    exact absurd hle (by decide)
  have hfeed : c ≠ '\n' := by
    rintro rfl
    exact absurd hle (by decide)
  simp only [isSeparator, Bool.or_eq_false_iff, decide_eq_false_iff_not] at hsep
  simp [standsBare, isGap, isBlank, isBreak, hquote, hslash, hspace, hnext, htab, hfeed, hsep.1,
    hsep.2]

/-- What JSON writes for a text is read as the text. -/
theorem readDouble_escaped {cs : List Char} (hnext : '\u0085' ∉ cs)
    (hafter : hasNeighbours isSeparator isSpace cs = false)
    (hbefore : hasNeighbours isSpace isSeparator cs = false) (hmarker : holdsMarker cs = false)
    {q : Quote} (hq : q.Fits cs) (p : Position) (rest : List Char) :
    readDouble (.outside q) (place p (cs.flatMap (escapeChar false) ++ '"' :: rest))
      = some (q.text ++ cs,
          place ((p.afterAll (cs.flatMap (escapeChar false))).after '"') rest) := by
  induction cs generalizing q p with
  | nil =>
      rw [List.flatMap_nil, List.nil_append, readDouble_close, List.append_nil]
      rfl
  | cons c cs ih =>
      have hnext' : '\u0085' ∉ cs := fun h => hnext (List.mem_cons_of_mem c h)
      have hc : c ≠ '\u0085' := fun h => hnext (h ▸ List.mem_cons_self)
      obtain ⟨hafter₁, hafter₂⟩ := hasNeighbours_cons hafter
      obtain ⟨hbefore₁, hbefore₂⟩ := hasNeighbours_cons hbefore
      rw [holdsMarker, Bool.or_eq_false_iff] at hmarker
      have ih := fun q hq p => @ih hnext' hafter₂ hbefore₂ hmarker.2 q hq p
      rw [List.flatMap_cons, List.append_assoc, afterAll_append]
      -- a character is written as an escape with a letter, one with a code, or as itself
      have hescaped := escaped_escapeChar c
      generalize escapeChar false c = written at hescaped
      cases hescaped with
      | letter h =>
          rw [List.cons_append, List.cons_append, List.nil_append, readDouble_letter _ _ _
            (escaped?_of_mem_letterEscapes h), ih (.blanks []) trivial]
          simp [prependText, Quote.text]
      | code h =>
          rw [readDouble_control q p _ h, ih (.blanks []) trivial]
          simp [prependText, Quote.text]
      | bare hle hquote hslash =>
          rw [List.cons_append, List.nil_append]
          by_cases hspace : c = ' '
          · subst hspace
            obtain ⟨hfits, htext⟩ := hq.blank (hbefore₁ rfl)
            rw [readDouble_blank, ih _ hfits, htext]
            simp [Position.afterAll]
          -- a separator stands for itself, and is folded like a line break
          · by_cases hsep : isSeparator c = true
            · have hcs : cs.head?.all (· ≠ ' ') = true := by
                have h := hafter₁ hsep
                cases cs with
                | nil => rfl
                | cons d ds => simpa [isSpace] using h
              obtain ⟨hfits, htext⟩ := hq.lineBreak hsep hcs
              have hend : startsMarker cs = false := by
                have h := hmarker.1
                rwa [hsep, Bool.true_and] at h
              rw [readDouble_break _ _ _ (isBreak_of_isSeparator hsep)
                (atMarker_writeString hnext' hend), ih _ hfits, htext]
              simp [Position.afterAll]
            · have hbare := standsBare_of_not_isSeparator hle hquote hslash hspace hc
                (Bool.not_eq_true _ ▸ hsep)
              rw [readDouble_bare _ _ _ hbare, ih (.blanks []) trivial]
              simp [prependText, Quote.text, Position.afterAll]

/-- **JSON strings of kept texts are read back.** -/
theorem readDouble_writeString {cs : List Char} (h : isKept cs = true) (p : Position)
    (rest : List Char) :
    readDouble (.outside (.blanks [])) (place (p.after '"') ((writeString false cs).tail ++ rest))
      = some (cs, place (p.afterAll (writeString false cs)) rest) := by
  simp only [isKept, Bool.and_eq_true, Bool.not_eq_true', List.all_eq_true] at h
  obtain ⟨⟨⟨hall, hafter⟩, hbefore⟩, hmarker⟩ := h
  have hnext : '\u0085' ∉ cs := fun hmem => absurd (hall _ hmem) (by decide)
  have h := readDouble_escaped hnext hafter hbefore hmarker (q := .blanks []) trivial (p.after '"')
    rest
  rw [writeString, List.cons_append, List.tail_cons, List.append_assoc, List.singleton_append, h,
    afterAll_cons, afterAll_append]
  rfl

/-- What JSON writes consists of characters that YAML allows and that are no line breaks, and of
characters of the text. -/
theorem mem_writeString {cs : List Char} {c : Char} (h : c ∈ writeString false cs) :
    (isAllowed c = true ∧ isBreak c = false) ∨ (c ∈ cs ∧ 0x20 ≤ c.toNat) := by
  have hall : ∀ c ∈ Json.escapeChars, isAllowed c = true ∧ isBreak c = false :=
    List.all_iff_forall_prop.1 (by decide)
  exact (Json.mem_writeString h).imp_left (hall c)

/-- The characters of a kept text that JSON writes as they are. -/
theorem isAllowed_of_isKept {cs : List Char} (h : isKept cs = true) {c : Char} (hc : c ∈ cs)
    (hle : 0x20 ≤ c.toNat) : isAllowed c = true ∧ c ≠ '\u0085' := by
  simp only [isKept, Bool.and_eq_true, List.all_eq_true] at h
  have hall := h.1.1.1 c hc
  simpa [Nat.not_lt.2 hle] using hall

end Yaml

end ApiScribe
