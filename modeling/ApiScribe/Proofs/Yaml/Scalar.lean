/-
**Written atoms as tokens.**

An atom in a block is one token, whether it is the name of a member or a value.  After a name comes a
colon, and after a value the next line; a text without quotes takes the line break along, and after
one in quotes the line break is a gap like any other.  In the end both leave the same state.

Main definitions:

* `ApiScribe.Yaml.spelling` — how YAML writes atoms;
* `ApiScribe.Yaml.isKeptText` — whether a text is read back from a place;
* `ApiScribe.Yaml.IsWritten` — the characters of a text as it is written.

Main results:

* `ApiScribe.Yaml.Lexing.Steady.leads_scalar` — **the run over a written atom**;
* `ApiScribe.Yaml.isWritten_writeText`, `ApiScribe.Yaml.isClean_writeScalar` — its characters may
  stand in a text.
-/

import ApiScribe.Proofs.Yaml.Steady
import ApiScribe.Proofs.Yaml.Text

set_option autoImplicit false

namespace ApiScribe.Yaml

/-! ### Texts that fit without quotes -/

/-- A text that fits without quotes and is not empty. -/
structure FitsPlain (c : Char) (cs : List Char) : Prop where
  /-- It needs no escapes and has no line breaks. -/
  chars : ∀ d ∈ c :: cs, needsEscape d = false ∧ isBreak d = false
  /-- It does not start with a blank. -/
  first : c ≠ ' '
  /-- It does not end with a blank. -/
  last : (c :: cs).getLast? ≠ some ' '
  /-- It does not start with a mark of the structure. -/
  start : startsWithMark (c :: cs) = false
  /-- It holds no mark of the structure. -/
  inside : holdsMark c cs = false

theorem fitsPlain_cons {c : Char} {cs : List Char} (h : fitsPlain (c :: cs) = true) :
    FitsPlain c cs := by
  simp only [fitsPlain, Bool.not_eq_true', Bool.or_eq_false_iff, List.any_eq_false,
    Bool.or_eq_true, not_or, Bool.not_eq_true, decide_eq_false_iff_not] at h
  obtain ⟨⟨⟨⟨h₁, h₂⟩, h₃⟩, h₄⟩, h₅⟩ := h
  exact ⟨h₁, h₂, h₃, h₄, h₅⟩

/-- A character of a folded text that is neither a blank nor of what follows is one of the text. -/
theorem Folded.of_append_eq_cons {indent inner : Nat} {cs ds gap rest more : List Char} {a : Char}
    (h : Folded indent cs ds) (ha : a ≠ ' ' ∧ a ≠ '\n' ∧ a ≠ ':') (hend : EndsText inner gap rest)
    (heq : ds ++ (gap ++ rest) = a :: more) :
    ∃ cs' ds', cs = a :: cs' ∧ ds' ++ (gap ++ rest) = more ∧ Folded indent cs' ds' := by
  cases h with
  | nil =>
      cases hend with
      | colon _ => exact absurd (List.cons.inj heq).1.symm ha.2.2
      | line _ _ => exact absurd (List.cons.inj heq).1.symm ha.2.1
  | char _ h =>
      obtain ⟨rfl, rfl⟩ := List.cons.inj heq
      exact ⟨_, _, rfl, rfl, h⟩
  | blanks n _ _ => exact absurd (List.cons.inj heq).1.symm ha.1
  | fold _ _ => exact absurd (List.cons.inj heq).1.symm ha.2.1

namespace FitsPlain

variable {c : Char} {cs : List Char} (h : FitsPlain c cs)

include h

/-- It does not start with the mark of a document. -/
theorem not_marker {a : Char} (ha : a = '-' ∨ a = '.') (rest : List Char) :
    c :: cs ≠ a :: a :: a :: rest := by
  intro heq
  have hstart := h.start
  rw [heq] at hstart
  rcases ha with rfl | rfl <;> cases hstart

theorem isGap_eq_false : isGap c = false :=
  Yaml.isGap_eq_false (h.chars c List.mem_cons_self).2 h.first (h.chars c List.mem_cons_self).1

/-- If it starts with a character that may structure a document, a further one excuses that. -/
theorem excused (hc : isIndicator c = true) :
    (c = '?' ∨ c = ':' ∨ c = '-') ∧ endsHere cs = false := by
  have hstart := h.start
  have hmember : c ∈ ['#', ',', '[', ']', '{', '}', '&', '*', '!', '|', '>', '\'', '"', '%', '@',
      '\x60'] ∨ c = '?' ∨ c = ':' ∨ c = '-' := by
    rw [isIndicator, List.contains_iff_mem] at hc
    simp only [List.mem_cons, List.not_mem_nil, or_false] at hc ⊢
    tauto
  unfold startsWithMark at hstart
  split at hstart
  · rename_i heq
    cases heq
  · cases hstart
  · cases hstart
  · rename_i d rest _ _ heq
    obtain ⟨rfl, rfl⟩ := List.cons.inj heq
    rw [Bool.or_eq_false_iff, List.contains_eq_mem, decide_eq_false_iff_not] at hstart
    have hmark := hmember.resolve_left hstart.1
    refine ⟨hmark, ?_⟩
    have hexcuse := hstart.2
    rcases hmark with rfl | rfl | rfl <;> simpa using hexcuse

theorem startsToken (rest : List Char) : startsToken (c :: rest) = true := by
  have hhash : c ≠ '#' := by
    rintro rfl
    obtain ⟨hc, -⟩ := h.excused rfl
    revert hc
    decide
  simp [Yaml.startsToken, (h.chars c List.mem_cons_self).2, h.first, hhash]

theorem startsPlain {indent : Nat} {ds : List Char} (hds : Folded indent cs ds) (p : Position)
    (rest : List Char) : startsPlain false c (place p (ds ++ rest)) = true := by
  cases hc : isIndicator c with
  | false => simp [Yaml.startsPlain, hc, h.isGap_eq_false]
  | true =>
      obtain ⟨hmark, hends⟩ := h.excused hc
      have hword : endsWord (place p (ds ++ rest)) = false := endsWord_folded hds hends p rest
      rcases hmark with rfl | rfl | rfl <;> simp [Yaml.startsPlain, hword]

/-- From its second character on a text holds no mark. -/
theorem holdsMark : holdsMark 'a' (c :: cs) = false := by
  have hhash : isGap 'a' = false := by decide
  have hcolon : (c = ':' && endsHere cs) = false := by
    by_cases hc : c = ':'
    · rw [(h.excused (by rw [hc]; rfl)).2, Bool.and_false]
    · simp [hc]
  rw [Yaml.holdsMark, hcolon, hhash, h.inside, Bool.and_false]
  rfl

theorem atMarker {indent : Nat} {ds : List Char} (hds : Folded indent (c :: cs) ds)
    {inner : Nat} {gap rest : List Char} (hend : EndsText inner gap rest) (p : Position) :
    atMarker (place p (ds ++ (gap ++ rest))) = false := by
  rw [← Bool.not_eq_true]
  intro hmarker
  obtain ⟨a, more, heq, ha, -⟩ := exists_of_atMarker hmarker
  have ha' : a ≠ ' ' ∧ a ≠ '\n' ∧ a ≠ ':' := by rcases ha with rfl | rfl <;> decide
  obtain ⟨cs₁, ds₁, hcs₁, heq₁, hds₁⟩ := hds.of_append_eq_cons ha' hend heq
  obtain ⟨cs₂, ds₂, rfl, heq₂, hds₂⟩ := hds₁.of_append_eq_cons ha' hend heq₁
  obtain ⟨cs₃, ds₃, rfl, heq₃, hds₃⟩ := hds₂.of_append_eq_cons ha' hend heq₂
  exact h.not_marker ha cs₃ hcs₁

end FitsPlain

/-! ### Words -/

theorem holdsMark_eq_false {previous : Char} {cs : List Char} (h : ∀ c ∈ cs, c ≠ ':' ∧ c ≠ '#') :
    holdsMark previous cs = false := by
  induction cs generalizing previous with
  | nil => rfl
  | cons c cs ih =>
      obtain ⟨hcolon, hhash⟩ := h c List.mem_cons_self
      rw [holdsMark, ih fun d hd => h d (List.mem_cons_of_mem c hd)]
      simp [hcolon, hhash]

theorem startsWithMark_withSign (negative : Bool) {c : Char} (hc : c ∈ Json.wordStarts)
    (cs : List Char) : startsWithMark (withSign negative (c :: cs)) = false := by
  have hall : ∀ d ∈ Json.wordStarts, d ≠ '-' ∧ d ≠ '.' ∧ isGap d = false ∧ d ≠ '?' ∧ d ≠ ':' ∧
      ['#', ',', '[', ']', '{', '}', '&', '*', '!', '|', '>', '\'', '"', '%', '@', '\x60'].contains d
        = false := List.all_iff_forall_prop.1 (by decide)
  obtain ⟨h₁, h₂, h₃, h₄, h₅, h₆⟩ := hall c hc
  cases negative with
  | false =>
      show startsWithMark (c :: cs) = false
      unfold startsWithMark
      split
      · rfl
      · rename_i heq
        exact absurd (List.cons.inj heq).1 h₁
      · rename_i heq
        exact absurd (List.cons.inj heq).1 h₂
      · rename_i heq
        obtain ⟨rfl, rfl⟩ := List.cons.inj heq
        rw [h₆]
        simp [h₁, h₄, h₅]
  | true =>
      show startsWithMark ('-' :: c :: cs) = false
      unfold startsWithMark
      split
      · rfl
      · rename_i heq
        exact absurd (List.cons.inj (List.cons.inj heq).2).1 h₁
      · rename_i heq
        exact absurd (List.cons.inj heq).1 (by decide)
      · rename_i heq
        obtain ⟨rfl, rfl⟩ := List.cons.inj heq
        simp [endsHere, h₃]

/-- Words and numbers fit without quotes. -/
theorem fitsPlain_of_isWord {cs : List Char} (h : Json.IsWord cs) :
    ∃ c rest, cs = c :: rest ∧ FitsPlain c rest ∧ ∀ d ∈ cs, d ≠ ' ' := by
  have hall : ∀ d ∈ Json.wordChars, (needsEscape d = false ∧ isBreak d = false) ∧ d ≠ ' ' ∧
      d ≠ ':' ∧ d ≠ '#' := List.all_iff_forall_prop.1 (by decide)
  have hchars := fun d hd => hall d (h.chars d hd)
  obtain ⟨negative, c, rest, hcs, hc⟩ := h.start
  have hstart := startsWithMark_withSign negative hc rest
  rw [← hcs] at hstart
  obtain ⟨d, ds, rfl⟩ : ∃ d ds, cs = d :: ds := by
    cases negative with
    | false => exact ⟨_, _, hcs⟩
    | true => exact ⟨_, _, hcs⟩
  refine ⟨d, ds, rfl, ⟨fun e he => (hchars e he).1, (hchars d List.mem_cons_self).2.1, ?_, hstart,
    holdsMark_eq_false fun e he => (hchars e (List.mem_cons_of_mem d he)).2.2⟩,
    fun e he => (hchars e he).2.1⟩
  exact fun hlast => (hchars ' ' (List.mem_of_getLast? hlast)).2.1 rfl

theorem plainText_eq_self {split : Bool} {indent column : Nat} {previous : Option Char}
    {cs : List Char} (h : ∀ c ∈ cs, c ≠ ' ') : plainText split indent column previous cs = cs := by
  induction cs generalizing column previous with
  | nil => rfl
  | cons c cs ih =>
      rw [plainText_char (h c List.mem_cons_self), ih fun d hd => h d (List.mem_cons_of_mem c hd)]

/-! ### Atoms -/

/-- How YAML writes atoms. -/
def spelling : Spelling
  | .text s => (decide (Style.ofText s.toList = .plain), s)
  | a => (true, String.ofList (writeScalar false 0 0 a))

/-- Whether a text is read back where its further lines are indented by `indent`: the older line break
does not stand in single quotes, and no blank in double quotes loses its escape. -/
def isKeptText (indent : Nat) (cs : List Char) : Bool :=
  match Style.ofText cs with
  | .plain => true
  | .single => !cs.contains '\u0085'
  | .double => keepsBlanks indent cs

/-- Whether an atom is read back: texts are kept, and whole numbers do not have too many digits. -/
def isKeptAtom (indent : Nat) : Atom → Bool
  | .int n => (decimalDigits n.natAbs).length ≤ maxDecimalDigits
  | .text s => isKeptText indent s.toList
  | _ => true

theorem isWord_writeScalar {split : Bool} {indent column : Nat} {a : Atom} (ha : a.IsJson)
    (htext : ∀ s, a ≠ .text s) : Json.IsWord (writeScalar split indent column a) := by
  cases a with
  | float x => exact Json.isWord_render ha.1
  | text s => exact absurd rfl (htext s)
  | bytes bs => exact ha.elim
  | date d => exact ha.elim
  | moment t => exact ha.elim
  | null => exact @Json.isWord_writeAtom .file .null ha htext
  | bool b => cases b <;> exact @Json.isWord_writeAtom .file (.bool _) ha htext
  | int n => exact @Json.isWord_writeAtom .file (.int n) ha htext

theorem of_style_plain {cs : List Char} (h : Style.ofText cs = .plain) :
    Tag.ofPlain cs = .str ∧ fitsPlain cs = true := by
  unfold Style.ofText at h
  split at h
  · rename_i hfits
    simpa using hfits
  · split at h <;> cases h

theorem of_style_single {cs : List Char} (h : Style.ofText cs = .single) :
    fitsSingle cs = true := by
  unfold Style.ofText at h
  split at h
  · cases h
  · split at h
    · assumption
    · cases h

namespace Lexing

/-! ### The run over a text -/

theorem gap_of_endsText {inner : Nat} {gap rest : List Char} (h : EndsText inner gap rest) :
    (∀ c ∈ gap, c = ' ' ∨ isBreak c = true) ∧ startsToken rest = true ∧ 0 < (gap ++ rest).length := by
  cases h with
  | colon _ => exact ⟨by simp, rfl, by simp⟩
  | line _ h => exact ⟨gap_newLine _, h.1, by simp [newLine]⟩

/-- The state after a token does not depend on whether the line break after it is taken along. -/
theorem part_allowKey {st st' : Lexing} {p : Position} {t : Token} {allowed : Bool}
    (h : st.part p allowed t = some st') :
    ∃ st₁, st.part p false t = some st₁ ∧ st₁.outer = st.outer ∧
      st' = if allowed then st₁.allowKey true else st₁ := by
  rw [part, Option.map_eq_some_iff] at h
  obtain ⟨st₁, hst₁, rfl⟩ := h
  have houter : st₁.outer = st.outer := by
    unfold saveKeyStart dropKeyStart at hst₁
    split at hst₁
    · split at hst₁
      · split at hst₁
        · cases hst₁
        · cases hst₁
          rfl
      · cases hst₁
        rfl
    · cases hst₁
      rfl
  refine ⟨(st₁.allowKey false).push t, by rw [part, hst₁]; rfl, houter, ?_⟩
  cases allowed <;> rfl

section

variable {st st' : Lexing} (h : st.Steady) (hflow : st.inFlow = false) {p : Position}
  (hcolumn : ∀ i ∈ st.indents.head?, i ≤ p.column) {gap rest : List Char}
  (hend : EndsText st.inner gap rest)

include h hflow hcolumn hend

/-- A text without quotes. -/
theorem Steady.leads_plain {c : Char} {cs : List Char} (hfits : FitsPlain c cs) {split : Bool}
    {indent column : Nat} (hinner : st.inner ≤ indent) (hindent : 0 < indent)
    (hpart : (st.fresh p).part p (gap.any isBreak) (.scalar true (String.ofList (c :: cs)))
      = some st') :
    Leads st (place p (plainText split indent column none (c :: cs) ++ (gap ++ rest))) st'
      (place (p.afterAll (plainText split indent column none (c :: cs) ++ gap)) rest) := by
  have hfolded : Folded indent (c :: cs) (plainText split indent column none (c :: cs)) :=
    folded_plainText hfits.last
  rw [plainText_char hfits.first] at hfolded ⊢
  generalize plainText split indent (column + 1) (some c) cs = ds at hfolded
  have hp : st.inner ≤ p.column + 1 := by
    unfold inner
    cases hhead : st.indents.head? with
    | none => exact Nat.zero_le _
    | some i => exact Nat.succ_le_succ (hcolumn i hhead)
  have hlength := (gap_of_endsText hend).2.2
  have hle : (c :: cs).length ≤ ds.length + 1 := hfolded.length_le
  rw [List.cons_append]
  refine Leads.step (hfits.startsToken _) (h.dropStale p) (fun fuel hfuel => ?_) (fun _ => rfl) ?_
  · rw [@endBlocks_eq_self (st.fresh p) p.column (.inr hcolumn)]
    rw [List.length_append] at hfuel
    have hflow' : (st.fresh p).inFlow = false := (inFlow_fresh st p).trans hflow
    have hread := @readPlain_folded indent st.inner hinner hindent (c :: cs) (c :: ds) hfolded 'a'
      hfits.holdsMark hfits.chars gap rest hend fuel (by omega) p hp
    have hmarker := hfits.atMarker hfolded hend p
    rw [List.cons_append, place] at hread hmarker
    have htoken := @readToken_plain fuel (st.fresh p) st' p c
      (place (p.after c) (ds ++ (gap ++ rest))) hmarker
      (by rw [hflow']; exact hfits.startsPlain (hfolded.tail hfits.first) _ _)
    rw [hflow', show (st.fresh p).inner = st.inner from rfl, hread] at htoken
    exact htoken hpart
  · rw [length_place, List.length_append, List.length_append]
    omega

/-- A text in quotes. -/
theorem Steady.leads_quoted {c : Char} {cs : List Char} {t : Token}
    (hc : c = '"' ∨ c = '\'')
    (htoken : ∀ fuel (st₁ st₂ : Lexing), st₁.part p false t = some st₂ →
      st₁.readToken fuel ⟨c, p⟩ (place (p.after c) (cs ++ (gap ++ rest)))
        = some (st₂, place (p.afterAll (c :: cs)) (gap ++ rest)))
    (hpart : (st.fresh p).part p (gap.any isBreak) t = some st') :
    Leads st (place p (c :: cs ++ (gap ++ rest))) st' (place (p.afterAll (c :: cs ++ gap)) rest) := by
  obtain ⟨st₁, hst₁, houter, rfl⟩ := part_allowKey hpart
  obtain ⟨hgap, hrest, -⟩ := gap_of_endsText hend
  have hflow₁ : st₁.inFlow = false := by
    rw [inFlow, houter]
    exact (inFlow_fresh st p).trans hflow
  have hstart : startsToken (c :: (cs ++ (gap ++ rest))) = true := by
    rcases hc with rfl | rfl <;> rfl
  have hstep : Leads st (place p (c :: cs ++ (gap ++ rest))) st₁
      (place (p.afterAll (c :: cs)) (gap ++ rest)) := by
    refine Leads.step hstart (h.dropStale p) (fun fuel _ => ?_) (fun _ => rfl) ?_
    · rw [@endBlocks_eq_self (st.fresh p) p.column (.inr hcolumn)]
      exact htoken fuel _ _ hst₁
    · simp only [length_place, List.append_eq, List.length_append]
      omega
  have hleads := @Leads.gap st₁ (p.afterAll (c :: cs)) gap rest hgap hrest
  rw [hflow₁, Bool.not_false, Bool.and_true] at hleads
  rw [afterAll_append]
  exact hstep.trans hleads

/-- A text in one of the three ways. -/
theorem Steady.leads_text {cs : List Char} {split : Bool} {indent column : Nat}
    (hkept : isKeptText indent cs = true) (hinner : st.inner ≤ indent) (hindent : 0 < indent)
    (hpart : (st.fresh p).part p (gap.any isBreak)
      (.scalar (decide (Style.ofText cs = .plain)) (String.ofList cs)) = some st') :
    Leads st (place p (writeText split indent column cs ++ (gap ++ rest))) st'
      (place (p.afterAll (writeText split indent column cs ++ gap)) rest) := by
  rw [isKeptText] at hkept
  rw [writeText]
  cases hstyle : Style.ofText cs with
  | plain =>
      rw [hstyle] at hpart
      obtain ⟨htag, hfits⟩ := of_style_plain hstyle
      cases cs with
      | nil => cases htag
      | cons c cs => exact h.leads_plain hflow hcolumn hend (fitsPlain_cons hfits) hinner hindent hpart
  | single =>
      rw [hstyle] at hpart hkept
      have hsingle := of_style_single hstyle
      simp only [fitsSingle, Bool.not_eq_true', Bool.or_eq_false_iff, List.any_eq_false,
        Bool.not_eq_true] at hsingle
      obtain ⟨⟨hescape, hafter⟩, hbefore⟩ := hsingle
      have hcs : ∀ c ∈ cs, needsEscape c = false ∧ c ≠ '\u0085' := by
        refine fun c hc => ⟨hescape c hc, ?_⟩
        rintro rfl
        simp [hc] at hkept
      -- another quote after the closing one would go on with the text
      have hquote : (gap ++ rest).head? ≠ some '\'' := by
        cases hend <;> simp [newLine]
      refine h.leads_quoted hflow hcolumn hend (.inr rfl) (fun fuel st₁ st₂ hst₂ => ?_) hpart
      have hread := @readsSingle split indent hindent cs _ hcs hquote none hafter hbefore (.blanks [])
        (column + 1) (p.after '\'') (.start fun _ hc => by cases hc)
      rw [List.append_eq, List.append_assoc, List.singleton_append]
      refine readToken_single (hread.trans ?_) hst₂
      rw [afterAll_cons, afterAll_append]
      rfl
  | double =>
      rw [hstyle] at hpart hkept
      refine h.leads_quoted hflow hcolumn hend (.inl rfl) (fun fuel st₁ st₂ hst₂ => ?_) hpart
      have hread := (@readsDouble split indent hindent cs hkept (gap ++ rest)).outside (.blanks [])
        (column + 1) true true (p.after '"') trivial
      rw [List.append_eq, List.append_assoc, List.singleton_append]
      refine readToken_double (hread.trans ?_) hst₂
      rw [afterAll_cons, afterAll_append]
      rfl

/-- **The run over a written atom.** -/
theorem Steady.leads_scalar {a : Atom} (ha : a.IsJson) {split : Bool} {indent column : Nat}
    (hkept : isKeptAtom indent a = true) (hinner : st.inner ≤ indent) (hindent : 0 < indent)
    (hpart : (st.fresh p).part p (gap.any isBreak) (tokenOf spelling a) = some st') :
    Leads st (place p (writeScalar split indent column a ++ (gap ++ rest))) st'
      (place (p.afterAll (writeScalar split indent column a ++ gap)) rest) := by
  by_cases htext : ∃ s, a = .text s
  · obtain ⟨s, rfl⟩ := htext
    have hpart : (st.fresh p).part p (gap.any isBreak)
        (.scalar (decide (Style.ofText s.toList = .plain)) (String.ofList s.toList)) = some st' := by
      rw [String.ofList_toList]
      exact hpart
    exact h.leads_text hflow hcolumn hend hkept hinner hindent hpart
  · have htext : ∀ s, a ≠ .text s := fun s hs => htext ⟨s, hs⟩
    have hsame : writeScalar split indent column a = writeScalar false 0 0 a := by
      cases a with
      | text s => exact absurd rfl (htext s)
      | bool b => cases b <;> rfl
      | bytes bs => exact ha.elim
      | date d => exact ha.elim
      | moment t => exact ha.elim
      | _ => rfl
    have htoken : tokenOf spelling a = .scalar true (String.ofList (writeScalar false 0 0 a)) := by
      cases a with
      | text s => exact absurd rfl (htext s)
      | _ => rfl
    obtain ⟨c, cs, hcons, hfits, hspaces⟩ :=
      fitsPlain_of_isWord (@isWord_writeScalar false 0 0 a ha htext)
    rw [htoken] at hpart
    rw [hsame]
    rw [hcons] at hspaces hpart ⊢
    have hleads := @Steady.leads_plain st st' h hflow p hcolumn gap rest hend c cs hfits false indent 0
      hinner hindent hpart
    rwa [plainText_eq_self hspaces] at hleads

end

end Lexing

/-! ### The characters of written texts -/

/-- Whether `c` may stand anywhere in a text, at its start too. -/
def isClean (c : Char) : Bool := isAllowed c && c ≠ byteOrderMark

/-- Whether `c` is a character of seven bits that is seen, or a blank. -/
def isVisible (c : Char) : Bool := 0x20 ≤ c.toNat && c.toNat ≤ 0x7E

theorem ne_of_toNat_lt {c d : Char} (h : c.toNat < d.toNat) : c ≠ d := by
  rintro rfl
  exact Nat.lt_irrefl _ h

theorem isClean_of_isVisible {c : Char} (h : isVisible c = true) : isClean c = true := by
  have hlt : c.toNat < byteOrderMark.toNat := by
    simp only [isVisible, Bool.and_eq_true, decide_eq_true_eq] at h
    exact h.2.trans_lt (by decide)
  rw [isVisible] at h
  simp [isClean, isAllowed, h, ne_of_toNat_lt hlt]

theorem isBreak_of_isVisible {c : Char} (h : isVisible c = true) : isBreak c = false := by
  simp only [isVisible, Bool.and_eq_true, decide_eq_true_eq] at h
  have hfeed : c ≠ '\n' := by
    rintro rfl
    exact absurd h.1 (by decide)
  have hother : ∀ d ∈ ['\u0085', '\u2028', '\u2029'], c ≠ d := by
    intro d hd
    have hall : ∀ d ∈ ['\u0085', '\u2028', '\u2029'], 0x7E < d.toNat :=
      List.all_iff_forall_prop.1 (by decide)
    exact ne_of_toNat_lt (h.2.trans_lt (hall d hd))
  simp only [List.forall_mem_cons] at hother
  simp [isBreak, hfeed, hother]

theorem isClean_of_needsEscape {c : Char} (h : needsEscape c = false) : isClean c = true := by
  simp only [needsEscape, Bool.not_eq_false', Bool.or_eq_true, Bool.and_eq_true,
    decide_eq_true_eq] at h
  rcases h with ((rfl | h) | rfl) | ⟨⟨⟨⟨h, hmark⟩, hlast⟩, hlast'⟩, -⟩
  · decide
  · exact isClean_of_isVisible (by simpa [isVisible] using h)
  · decide
  · have hmark : c ≠ byteOrderMark := hmark
    simp [isClean, isAllowed, h, hmark, hlast, hlast']

theorem isClean_of_isBare {c : Char} (h : isBare c = true) : isClean c = true := by
  simp only [isBare, Bool.and_eq_true, Bool.or_eq_true, Bool.not_eq_true', Bool.or_eq_false_iff,
    decide_eq_true_eq, decide_eq_false_iff_not] at h
  obtain ⟨⟨⟨-, hmark⟩, -⟩, h | h⟩ := h
  · exact isClean_of_isVisible (by simpa [isVisible] using h)
  · have hmark : c ≠ byteOrderMark := hmark
    have hall : ∀ d ∈ ['\uFFFE', '\uFFFF'], 0xFFFD < d.toNat :=
      List.all_iff_forall_prop.1 (by decide)
    have hother : ∀ d ∈ ['\uFFFE', '\uFFFF'], c ≠ d := fun d hd =>
      ne_of_toNat_lt (h.2.trans_lt (hall d hd))
    simp only [List.forall_mem_cons] at hother
    simp [isClean, isAllowed, h.1, hmark, hother]

/-- The characters of a text as it is written: those of the text that need no escape, marks, and line
breaks if the text may be broken. -/
inductive IsWritten (split : Bool) (cs : List Char) (c : Char) : Prop
  /-- A mark, a blank or a part of an escape. -/
  | mark (h : isVisible c = true)
  /-- A line break. -/
  | lineBreak (hsplit : split = true) (h : c = '\n')
  /-- A character of the text. -/
  | char (hmem : c ∈ cs) (h : isClean c = true)

theorem IsWritten.cons {split : Bool} {cs : List Char} {c : Char} (d : Char)
    (h : IsWritten split cs c) : IsWritten split (d :: cs) c := by
  cases h with
  | mark h => exact .mark h
  | lineBreak hsplit h => exact .lineBreak hsplit h
  | char hmem h => exact .char (List.mem_cons_of_mem d hmem) h

theorem IsWritten.isClean {split : Bool} {cs : List Char} {c : Char} (h : IsWritten split cs c) :
    isClean c = true := by
  cases h with
  | mark h => exact isClean_of_isVisible h
  | lineBreak _ h => rw [h]; decide
  | char _ h => exact h

theorem IsWritten.isBreak {cs : List Char} {c : Char} (hcs : ∀ d ∈ cs, isBreak d = false)
    (h : IsWritten false cs c) : isBreak c = false := by
  cases h with
  | mark h => exact isBreak_of_isVisible h
  | lineBreak hsplit _ => cases hsplit
  | char hmem _ => exact hcs c hmem

theorem isWritten_spaces {split : Bool} {cs : List Char} {n : Nat} {c : Char} (h : c ∈ spaces n) :
    IsWritten split cs c := by
  rw [List.eq_of_mem_replicate h]
  exact .mark (by decide)

theorem isWritten_newLine {split : Bool} {cs : List Char} {n : Nat} {c : Char} (hsplit : split = true)
    (h : c ∈ newLine n) : IsWritten split cs c := by
  rcases List.mem_cons.1 h with rfl | h
  · exact .lineBreak hsplit rfl
  · exact isWritten_spaces h

section

variable {split : Bool} {indent column : Nat} {cs : List Char} {c : Char}

theorem isWritten_plainText {previous : Option Char} (hcs : ∀ d ∈ cs, needsEscape d = false)
    (h : c ∈ plainText split indent column previous cs) : IsWritten split cs c := by
  induction cs generalizing column previous with
  | nil => cases h
  | cons d cs ih =>
      have ih : ∀ {column previous}, c ∈ plainText split indent column previous cs →
          IsWritten split (d :: cs) c := fun h =>
        (ih (fun e he => hcs e (List.mem_cons_of_mem d he)) h).cons d
      rw [plainText] at h
      split at h
      · rename_i hsplit
        rw [Bool.and_eq_true] at hsplit
        rcases List.mem_append.1 h with h | h
        · exact isWritten_newLine hsplit.1 h
        · exact ih h
      · rcases List.mem_cons.1 h with rfl | h
        · exact .char List.mem_cons_self (isClean_of_needsEscape (hcs c List.mem_cons_self))
        · exact ih h

theorem isWritten_singleText {previous : Option Char} (hcs : ∀ d ∈ cs, needsEscape d = false)
    (h : c ∈ singleText split indent column previous cs) : IsWritten split cs c := by
  induction cs generalizing column previous with
  | nil =>
      rw [singleText] at h
      split at h
      · exact isWritten_spaces h
      · cases h
  | cons d cs ih =>
      have ih : ∀ {column previous}, c ∈ singleText split indent column previous cs →
          IsWritten split (d :: cs) c := fun h =>
        (ih (fun e he => hcs e (List.mem_cons_of_mem d he)) h).cons d
      have hself : IsWritten split (d :: cs) d :=
        .char List.mem_cons_self (isClean_of_needsEscape (hcs d List.mem_cons_self))
      rw [singleText] at h
      dsimp only at h
      split at h
      · rcases List.mem_append.1 h with h | h
        · split at h
          · rename_i hfeed
            simp only [Bool.and_eq_true, decide_eq_true_eq] at hfeed
            rw [List.mem_singleton.1 h, ← hfeed.1]
            exact hself
          · cases h
        · rcases List.mem_cons.1 h with rfl | h
          · exact hself
          · exact ih h
      · split at h
        · rename_i hsplit
          rw [Bool.and_eq_true] at hsplit
          rcases List.mem_append.1 h with h | h
          · exact isWritten_newLine hsplit.1 h
          · exact ih h
        · rcases List.mem_append.1 h with h | h
          · rcases List.mem_append.1 h with h | h
            · split at h
              · exact isWritten_spaces h
              · cases h
            · split at h
              · have hquote : c = '\'' := by simpa using h
                rw [hquote]
                exact .mark (by decide)
              · rw [List.mem_singleton.1 h]
                exact hself
          · exact ih h

theorem isVisible_capitalHex {width n : Nat} (h : c ∈ capitalHex width n) : isVisible c = true := by
  obtain ⟨d, hd, rfl⟩ := List.mem_map.1 h
  obtain ⟨k, hk, rfl⟩ := mem_hexDigits hd
  have hall : ∀ k < 16, isVisible (hexDigit k).toUpper = true := by decide
  exact hall k hk

theorem isVisible_escapeLetter {d letter : Char} (h : escapeLetter? d = some letter) :
    isVisible letter = true := by
  unfold escapeLetter? at h
  split at h <;> cases h <;> rfl

theorem isVisible_escape {d : Char} (h : c ∈ escape d) : isVisible c = true := by
  have hcons : ∀ {letter : Char} {digits : List Char}, isVisible letter = true →
      (∀ e ∈ digits, isVisible e = true) → c ∈ '\\' :: letter :: digits → isVisible c = true := by
    intro letter digits hletter hdigits h
    rcases List.mem_cons.1 h with rfl | h
    · decide
    · rcases List.mem_cons.1 h with rfl | h
      · exact hletter
      · exact hdigits c h
  have hhex : ∀ width, ∀ e ∈ capitalHex width d.toNat, isVisible e = true := fun _ _ =>
    isVisible_capitalHex
  unfold escape at h
  split at h
  · rename_i letter hletter
    exact hcons (isVisible_escapeLetter hletter) (fun e he => by cases he) h
  · split at h
    · exact hcons (by decide) (hhex 2) h
    · split at h
      · exact hcons (by decide) (hhex 4) h
      · exact hcons (by decide) (hhex 8) h

theorem isWritten_hiddenBreak {next : Option Char} (hsplit : split = true)
    (h : c ∈ hiddenBreak indent next) : IsWritten split cs c := by
  rw [hiddenBreak] at h
  rcases List.mem_append.1 h with h | h
  · rcases List.mem_cons.1 h with rfl | h
    · exact .mark (by decide)
    · exact isWritten_newLine hsplit h
  · split at h
    · rw [List.mem_singleton.1 h]
      exact .mark (by decide)
    · cases h

theorem isWritten_doubleText {first fresh : Bool}
    (h : c ∈ doubleText split indent column first fresh cs) : IsWritten split cs c := by
  induction cs generalizing column first fresh with
  | nil => cases h
  | cons d cs ih =>
      have ih : ∀ {column first fresh}, c ∈ doubleText split indent column first fresh cs →
          IsWritten split (d :: cs) c := fun h => (ih h).cons d
      rw [doubleText] at h
      dsimp only at h
      split at h
      · rename_i hbare
        have hrest : ∀ {column}, c ∈ d :: doubleText split indent column false false cs →
            IsWritten split (d :: cs) c := by
          intro column h
          rcases List.mem_cons.1 h with rfl | h
          · exact .char List.mem_cons_self (isClean_of_isBare hbare)
          · exact ih h
        split at h
        · rename_i hinside
          simp only [Bool.and_eq_true] at hinside
          rcases List.mem_append.1 h with h | h
          · exact isWritten_hiddenBreak hinside.1.1.1.1 h
          · exact hrest h
        · exact hrest h
      · split at h
        · rename_i hinside
          simp only [Bool.and_eq_true] at hinside
          rcases List.mem_append.1 h with h | h
          · rcases List.mem_append.1 h with h | h
            · exact .mark (isVisible_escape h)
            · exact isWritten_hiddenBreak hinside.1.1.1 h
          · exact ih h
        · rcases List.mem_append.1 h with h | h
          · exact .mark (isVisible_escape h)
          · exact ih h

/-- A text is written in its own characters and in marks. -/
theorem isWritten_writeText (h : c ∈ writeText split indent column cs) : IsWritten split cs c := by
  have hquoted : ∀ {quote : Char} {ds : List Char}, isVisible quote = true →
      (∀ e ∈ ds, IsWritten split cs e) → c ∈ quote :: ds ++ [quote] → IsWritten split cs c := by
    intro quote ds hquote hds h
    rcases List.mem_append.1 h with h | h
    · rcases List.mem_cons.1 h with rfl | h
      · exact .mark hquote
      · exact hds c h
    · rw [List.mem_singleton.1 h]
      exact .mark hquote
  unfold writeText at h
  cases hstyle : Style.ofText cs with
  | plain =>
      rw [hstyle] at h
      cases cs with
      | nil => cases h
      | cons d cs =>
          have hfits := fitsPlain_cons (of_style_plain hstyle).2
          exact isWritten_plainText (fun e he => (hfits.chars e he).1) h
  | single =>
      rw [hstyle] at h
      have hfits := of_style_single hstyle
      simp only [fitsSingle, Bool.not_eq_true', Bool.or_eq_false_iff, List.any_eq_false,
        Bool.not_eq_true] at hfits
      exact hquoted (by decide) (fun e he => isWritten_singleText hfits.1.1 he) h
  | double =>
      rw [hstyle] at h
      exact hquoted (by decide) (fun e he => isWritten_doubleText he) h

/-- A written atom consists of characters that may stand anywhere in a text. -/
theorem isClean_writeScalar {a : Atom} (ha : a.IsJson)
    (h : c ∈ writeScalar split indent column a) : isClean c = true := by
  by_cases htext : ∃ s, a = .text s
  · obtain ⟨s, rfl⟩ := htext
    exact (isWritten_writeText h).isClean
  · have hword := @isWord_writeScalar split indent column a ha fun s hs => htext ⟨s, hs⟩
    have hall : ∀ d ∈ Json.wordChars, isClean d = true := List.all_iff_forall_prop.1 (by decide)
    exact hall c (hword.chars c h)

end

end ApiScribe.Yaml
