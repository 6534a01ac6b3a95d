/-
**The lexer inside brackets.**

Inside brackets indentation plays no part; what remains of the state of the lexer is where keys may
have started.  No key is ever required there, so no such place is missed; but a key is found only if
its colon stands in the same line as the key and not too far from its start.

Main definitions:

* `ApiScribe.Json.spelling` — how JSON writes atoms;
* `ApiScribe.Json.isKeptName` — whether YAML finds the name of a member;
* `ApiScribe.Yaml.Lexing.Steady` — what holds of the state of the lexer in JSON text;
* `ApiScribe.Yaml.Lexing.Adds` — which tokens a run adds.

Main results:

* `ApiScribe.Yaml.Lexing.Steady.leads_string`, `ApiScribe.Yaml.Lexing.Steady.leads_word` — the runs
  over texts in quotes, and over words and numbers;
* `ApiScribe.Yaml.Lexing.Steady.leads_name` — **the run over the name of a member**.
-/

import ApiScribe.Proofs.Yaml.Literal
import ApiScribe.Proofs.Yaml.Quoted
import ApiScribe.Proofs.Yaml.Tree

set_option autoImplicit false

namespace ApiScribe

namespace Json

/-- How JSON writes atoms. -/
def spelling : Yaml.Spelling
  | .text s => (false, s)
  | a => (true, String.ofList (writeAtom .file a))

/-- Whether YAML finds the name of a member: it is kept, stands in one line, and is not too long. -/
def isKeptName (cs : List Char) : Bool :=
  isKept cs && !cs.any isSeparator && (writeString false cs).length ≤ Yaml.maxKeyLength

end Json

namespace Yaml

namespace Lexing

open Json (spelling isKept isKeptName writeString writeAtom wordStarts wordChars IsWord)

/-! ### The state -/

/-- What holds of the state of the lexer between tokens: no key is required. -/
structure Steady (st : Lexing) : Prop where
  /-- The tokens are counted. -/
  count : st.count = st.tokens.length
  /-- No key is required here. -/
  keyStart : ∀ k, st.keyStart = some k → k.required = false
  /-- No key is required around the brackets. -/
  outer : ∀ o ∈ st.outer, ∀ k, o = some k → k.required = false

/-- Whether a place is inside brackets or further in than the innermost block: a token there ends no
block, and no key is required there. -/
def Inside (st : Lexing) (p : Position) : Prop :=
  st.inFlow = true ∨ ∀ i ∈ st.indents.head?, i < p.column

theorem inFlow_of_length {st : Lexing} {k : Nat} (h : st.outer.length = k + 1) :
    st.inFlow = true := by
  obtain ⟨o, os, hcons⟩ := List.exists_cons_of_length_eq_add_one h
  rw [inFlow, hcons]
  rfl

theorem inFlow_of_length_eq {st st' : Lexing} (h : st'.outer.length = st.outer.length)
    (hflow : st.inFlow = true) : st'.inFlow = true := by
  cases houter : st.outer with
  | nil => simp [inFlow, houter] at hflow
  | cons o os => exact inFlow_of_length (h.trans (congrArg List.length houter))

theorem Inside.fresh {st : Lexing} {p : Position} (h : st.Inside p) : (st.fresh p).Inside p := by
  rwa [Inside, inFlow_fresh, indents_fresh]

theorem endBlocks_of_nil {st : Lexing} {ends : Nat → Bool} (h : st.indents = []) :
    st.endBlocks ends = st := by
  obtain ⟨tokens, count, keyAllowed, keyStart, outer, indents⟩ := st
  obtain rfl : indents = [] := h
  unfold Lexing.endBlocks
  split <;> rfl

/-- A token ends no block that it is not indented less than. -/
theorem endBlocks_eq_self {st : Lexing} {column : Nat}
    (h : st.inFlow = true ∨ ∀ i ∈ st.indents.head?, i ≤ column) :
    st.endBlocks (column < ·) = st := by
  rw [Lexing.endBlocks]
  rcases h with hflow | hindents
  · rw [if_pos hflow]
  · split
    · rfl
    · obtain ⟨tokens, count, keyAllowed, keyStart, outer, indents⟩ := st
      cases indents with
      | nil => rfl
      | cons i indents =>
          have hi : ¬ column < i := Nat.not_lt.2 (hindents i rfl)
          simp [hi]

theorem Inside.endBlocks {st : Lexing} {p : Position} (h : st.Inside p) :
    st.endBlocks (p.column < ·) = st :=
  endBlocks_eq_self (h.imp_right fun h i hi => (h i hi).le)

section

variable {st : Lexing} (h : st.Steady)

include h

theorem Steady.fresh (p : Position) : (st.fresh p).Steady where
  count := h.count
  keyStart k hk := by
    obtain ⟨hk, -⟩ := Option.filter_eq_some_iff.1 hk
    exact h.keyStart k hk
  outer o ho k hk := by
    obtain ⟨o', ho', rfl⟩ := List.mem_map.1 ho
    obtain ⟨hk, -⟩ := Option.filter_eq_some_iff.1 hk
    exact h.outer o' ho' k hk

theorem Steady.dropStale (p : Position) : st.dropStale p = some (st.fresh p) :=
  dropStale_eq (fun k hk hr => absurd hr (by rw [h.keyStart k hk]; decide)) h.outer

theorem Steady.dropKeyStart : st.dropKeyStart = some { st with keyStart := none } := by
  unfold Lexing.dropKeyStart
  cases hk : st.keyStart with
  | none =>
      obtain ⟨tokens, count, keyAllowed, keyStart, outer, indents⟩ := st
      obtain rfl : keyStart = none := hk
      rfl
  | some k => simp [h.keyStart k hk]

theorem Steady.saveKeyStart {p : Position} (hin : st.Inside p) :
    st.saveKeyStart p
      = some (if st.keyAllowed then { st with keyStart := some ⟨st.count, false, p⟩ } else st) := by
  have hrequired : (!st.inFlow && decide (st.indents.head? = some p.column)) = false := by
    rcases hin with hflow | hindents
    · rw [hflow]
      rfl
    · rw [Bool.and_eq_false_iff, decide_eq_false_iff_not]
      exact .inr fun heq => (hindents p.column heq).false
  unfold Lexing.saveKeyStart
  split
  · rw [h.dropKeyStart, Option.map_some]
    exact congrArg some (congrArg (fun b => { st with keyStart := some ⟨st.count, b, p⟩ }) hrequired)
  · rfl

theorem Steady.allowKey (allowed : Bool) : (st.allowKey allowed).Steady :=
  ⟨h.count, h.keyStart, h.outer⟩

theorem Steady.push (t : Token) : (st.push t).Steady :=
  ⟨by simp [Lexing.push, h.count], h.keyStart, h.outer⟩

theorem Steady.withKeyStart {k : Option KeyStart} (hk : ∀ k', k = some k' → k'.required = false) :
    Steady { st with keyStart := k } :=
  ⟨h.count, hk, h.outer⟩

/-! ### Single tokens -/

/-- A bracket, a brace, a comma or a colon. -/
theorem Steady.leads_mark {st' : Lexing} {p : Position} {c : Char} {cs : List Char}
    (hc : c ∈ ['[', ']', '{', '}', ',', ':']) (hin : st.Inside p)
    (hmark : (st.fresh p).readMark ⟨c, p⟩ (place (p.after c) cs) = some (some st')) :
    Leads st (place p (c :: cs)) st' (place (p.after c) cs) := by
  have hall : ∀ d ∈ ['[', ']', '{', '}', ',', ':'],
      startsToken [d] = true ∧ d ≠ '%' ∧ d ≠ '-' ∧ d ≠ '.' := List.all_iff_forall_prop.1 (by decide)
  have hclass := hall c hc
  refine Leads.step hclass.1 (h.dropStale p) (fun fuel _ => ?_) (fun _ => rfl)
    (length_place _ _).le
  rw [hin.fresh.endBlocks, readToken_eq hclass.2.1 (atMarker_eq_false hclass.2.2.1 hclass.2.2.2)]
  simp only [hmark, Option.map_some]

/-- A text in quotes. -/
theorem Steady.leads_string {cs rest : List Char} {p : Position} (hin : st.Inside p)
    (hkept : isKept cs = true) :
    ∃ st', (st.fresh p).part p false (.scalar false (String.ofList cs)) = some st' ∧
      Leads st (place p (writeString false cs ++ rest)) st'
        (place (p.afterAll (writeString false cs)) rest) := by
  obtain ⟨st', hst'⟩ : ∃ st',
      (st.fresh p).part p false (.scalar false (String.ofList cs)) = some st' := by
    rw [part, (h.fresh p).saveKeyStart hin.fresh]
    exact ⟨_, rfl⟩
  have hread := readDouble_writeString hkept p rest
  have hcons : writeString false cs = '"' :: (writeString false cs).tail := rfl
  refine ⟨st', hst', ?_⟩
  have hlen : rest.length ≤ ((writeString false cs).tail ++ rest).length := by
    rw [List.length_append]
    omega
  rw [hcons, List.cons_append, ← hcons]
  refine Leads.step rfl (h.dropStale p) (fun fuel _ => ?_) (fun _ => rfl)
    ((length_place _ _).trans_le hlen)
  rw [hin.fresh.endBlocks]
  exact readToken_double hread hst'

end

/-! ### Words -/

theorem wordChars_class {c : Char} (h : c ∈ wordChars) :
    isGap c = false ∧ c ≠ ':' ∧ isFlowMark c = false ∧ c ≠ '?' := by
  have hall : ∀ d ∈ wordChars, isGap d = false ∧ d ≠ ':' ∧ isFlowMark d = false ∧ d ≠ '?' :=
    List.all_iff_forall_prop.1 (by decide)
  exact hall c h

theorem endsPlain_wordChars {c : Char} (h : c ∈ wordChars) (rest : List Spot) :
    endsPlain true c rest = false := by
  obtain ⟨h₁, h₂, h₃, h₄⟩ := wordChars_class h
  simp [endsPlain, h₁, h₂, h₃, h₄]

/-- What comes after an item in JSON text: a comma, or a line with the closing bracket. -/
inductive EndsItem : List Char → Prop
  /-- A comma. -/
  | comma (rest : List Char) : EndsItem (',' :: rest)
  /-- A closing bracket in a line of its own. -/
  | close (depth : Nat) {c : Char} (h : c ∈ [']', '}']) (rest : List Char) :
    EndsItem (Json.newLine depth ++ c :: rest)

theorem plainRun_word {cs rest : List Char} (hcs : ∀ c ∈ cs, c ∈ wordChars) (hrest : EndsItem rest)
    (p : Position) : plainRun true (place p (cs ++ rest)) = (cs, place (p.afterAll cs) rest) := by
  induction cs generalizing p with
  | nil =>
      cases hrest with
      | comma rest => rfl
      | close depth h rest => rfl
  | cons c cs ih =>
      rw [List.cons_append, place, plainRun,
        if_neg (by rw [endsPlain_wordChars (hcs c List.mem_cons_self)]; decide),
        ih fun d hd => hcs d (List.mem_cons_of_mem c hd)]
      rfl

/-- A word ends where the item does, and takes the gap after it along. -/
theorem readPlain_word {cs rest : List Char} (hcs : ∀ c ∈ cs, c ∈ wordChars) (hrest : EndsItem rest)
    (p : Position) :
    ∃ gap rest', rest = gap ++ rest' ∧ (∀ c ∈ gap, c = ' ' ∨ isBreak c = true) ∧
      startsToken rest' = true ∧ ∀ indent fuel, 0 < fuel →
        readPlain true indent fuel (place p (cs ++ rest))
          = ⟨cs, gap.any isBreak, place (p.afterAll (cs ++ gap)) rest'⟩ := by
  have hrun := plainRun_word hcs hrest p
  cases hrest with
  | comma rest =>
      refine ⟨[], ',' :: rest, rfl, by simp, rfl, fun indent fuel hfuel => ?_⟩
      obtain ⟨fuel, rfl⟩ : ∃ k, fuel = k + 1 := ⟨fuel - 1, by omega⟩
      have hgap : plainGap (place (p.afterAll cs) (',' :: rest))
          = ⟨[], false, place (p.afterAll cs) (',' :: rest)⟩ := rfl
      rw [readPlain, hrun]
      simp only [hgap, List.isEmpty_nil, Bool.not_true, Bool.false_and, Bool.false_eq_true, if_false,
        List.append_nil]
      rfl
  | @close depth c hc rest =>
      have hall : ∀ d ∈ [']', '}'], isGap d = false ∧ (d ≠ '-' ∧ d ≠ '.') ∧
          startsToken [d] = true ∧ d ≠ '#' ∧ isFlowMark d = true :=
        List.all_iff_forall_prop.1 (by decide)
      obtain ⟨hgap, hmark, hstart, hcomment, hflow⟩ := hall c hc
      refine ⟨Json.newLine depth, c :: rest, rfl, gap_newLine (2 * depth), hstart,
        fun indent fuel hfuel => ?_⟩
      · obtain ⟨fuel, rfl⟩ : ∃ k, fuel = k + 1 := ⟨fuel - 1, by omega⟩
        have hgap' : plainGap (place (p.afterAll cs) (Json.newLine depth ++ c :: rest))
            = ⟨[' '], true, place (p.afterAll (cs ++ Json.newLine depth)) (c :: rest)⟩ := by
          have hlines := emptyLines_blanks (2 * depth) hgap rest ((p.afterAll cs).after '\n')
          have hmarker := not_atMarker_blanks (2 * depth) hmark rest ((p.afterAll cs).after '\n')
          rw [afterAll_append, Json.newLine, afterAll_cons]
          unfold plainGap
          have hrun' : takeRun (· = ' ') (place (p.afterAll cs)
              ('\n' :: List.replicate (2 * depth) ' ' ++ c :: rest))
              = ([], place (p.afterAll cs) ('\n' :: List.replicate (2 * depth) ' ' ++ c :: rest)) :=
            rfl
          rw [hrun']
          have hbreak : isBreak '\n' = true := by decide
          simp only [List.cons_append, place, hbreak, if_true, hmarker, Bool.false_eq_true, if_false,
            hlines]
          rfl
        rw [readPlain, hrun]
        have hcontinues : continuesPlain true indent
            (place (p.afterAll (cs ++ Json.newLine depth)) (c :: rest)) = false := by
          simp [place, continuesPlain, endsPlain, hflow]
        simp only [hgap', hcontinues, Bool.and_false, Bool.false_eq_true, if_false]
        rfl

/-- The run over a word. -/
theorem Steady.leads_word {st : Lexing} (h : st.Steady) (hflow : st.inFlow = true)
    {cs rest : List Char} {p : Position} (hcs : IsWord cs) (hrest : EndsItem rest) :
    ∃ allowed st', (st.fresh p).part p allowed (.scalar true (String.ofList cs)) = some st' ∧
      Leads st (place p (cs ++ rest)) st' (place (p.afterAll cs) rest) := by
  obtain ⟨negative, c, more, hcons, hc⟩ := hcs.start
  obtain ⟨d, ds, rfl, hstart⟩ : ∃ d ds, cs = d :: ds ∧
      (d ∈ wordStarts ∨ d = '-' ∧ ∃ ds', ds = c :: ds') := by
    cases negative with
    | true => exact ⟨'-', c :: more, hcons, .inr ⟨rfl, more, rfl⟩⟩
    | false => exact ⟨c, more, hcons, .inl hc⟩
  have hclass : ∀ e ∈ wordStarts, isGap e = false ∧ isIndicator e = false ∧ startsToken [e] = true ∧
      e ≠ '-' ∧ e ≠ '.' := List.all_iff_forall_prop.1 (by decide)
  -- a minus sign is no indicator here, since the word goes on after it
  have hplain : startsPlain true d (place (p.after d) (ds ++ rest)) = true ∧
      startsToken [d] = true ∧ atMarker (place p (d :: (ds ++ rest))) = false := by
    rcases hstart with hd | ⟨rfl, ds', rfl⟩
    · obtain ⟨h₁, h₂, h₃, h₄, h₅⟩ := hclass d hd
      exact ⟨by simp [startsPlain, h₁, h₂], h₃, atMarker_eq_false h₄ h₅⟩
    · obtain ⟨h₁, -, -, h₄, -⟩ := hclass c hc
      refine ⟨by simp [startsPlain, place, endsWord, h₁], by decide, ?_⟩
      rw [← Bool.not_eq_true]
      intro hmarker
      obtain ⟨a, rest', heq, -, -⟩ := exists_of_atMarker hmarker
      obtain ⟨rfl, heq⟩ := List.cons.inj heq
      exact h₄ (List.cons.inj heq).1
  obtain ⟨gap, rest', rfl, hgap, htoken, hread⟩ := readPlain_word hcs.chars hrest p
  have hfresh : (st.fresh p).inFlow = true := by rw [inFlow_fresh, hflow]
  have hin : (st.fresh p).Inside p := .inl hfresh
  obtain ⟨st', hst'⟩ : ∃ st', (st.fresh p).part p (gap.any isBreak)
      (.scalar true (String.ofList (d :: ds))) = some st' := by
    rw [part, (h.fresh p).saveKeyStart hin]
    exact ⟨_, rfl⟩
  have hflow' : st'.inFlow = true := by
    rw [part, (h.fresh p).saveKeyStart hin, Option.map_some, Option.some.injEq] at hst'
    rw [← hst', ← hfresh]
    split <;> rfl
  have hrun : ∀ fuel, (ds ++ (gap ++ rest')).length < fuel →
      ((st.fresh p).endBlocks (p.column < ·)).readToken fuel ⟨d, p⟩
        (place (p.after d) (ds ++ (gap ++ rest')))
        = some (st', place (p.afterAll (d :: ds ++ gap)) rest') := by
    intro fuel hfuel
    rw [hin.endBlocks]
    have hread := hread (st.fresh p).inner fuel (by omega)
    have hplain' := @readToken_plain fuel (st.fresh p) st' p d
      (place (p.after d) (ds ++ (gap ++ rest'))) hplain.2.2 (by rw [hfresh]; exact hplain.1)
    rw [hfresh] at hplain'
    rw [List.cons_append, place] at hread
    rw [hread] at hplain'
    exact hplain' hst'
  rw [List.cons_append]
  refine ⟨gap.any isBreak, st', hst', Leads.step hplain.2.1 (h.dropStale p) hrun (fun fuel => ?_) ?_⟩
  · rw [afterAll_append]
    exact readTokens_gap hflow' hgap htoken fuel
  · rw [length_place, List.length_append, List.length_append, List.length_append]
    omega

/-! ### Tokens one after the other -/

/-- What a run adds to the state. -/
structure Adds (st st' : Lexing) (ts : List Token) : Prop where
  /-- The state stays steady. -/
  steady : st'.Steady
  /-- The tokens are added. -/
  tokens : st'.tokens = ts.reverse ++ st.tokens
  /-- The open blocks are the same. -/
  indents : st'.indents = st.indents

theorem Adds.trans {st₁ st₂ st₃ : Lexing} {ts us : List Token} (h₁ : st₁.Adds st₂ ts)
    (h₂ : st₂.Adds st₃ us) : st₁.Adds st₃ (ts ++ us) where
  steady := h₂.steady
  tokens := by rw [h₂.tokens, h₁.tokens, List.reverse_append, List.append_assoc]
  indents := h₂.indents.trans h₁.indents

theorem Adds.ofFresh {st st' : Lexing} {p : Position} {ts : List Token}
    (h : (st.fresh p).Adds st' ts) : st.Adds st' ts :=
  ⟨h.steady, h.tokens, h.indents⟩

section

variable {st st' : Lexing} (h : st.Steady)

include h

theorem Steady.adds_part {p : Position} (hin : st.Inside p) {allowed : Bool} {t : Token}
    (hpart : st.part p allowed t = some st') :
    st.Adds st' [t] ∧ st'.outer = st.outer ∧ st'.keyAllowed = allowed ∧
      (st.keyAllowed = true → st'.keyStart = some ⟨st.count, false, p⟩) := by
  rw [part, h.saveKeyStart hin, Option.map_some, Option.some.injEq] at hpart
  subst hpart
  split
  · exact ⟨⟨((h.withKeyStart (fun k hk => by cases hk; rfl)).allowKey _).push _, rfl, rfl⟩, rfl,
      rfl, fun _ => rfl⟩
  · rename_i hallowed
    exact ⟨⟨(h.allowKey _).push _, rfl, rfl⟩, rfl, rfl, fun hk => absurd hk hallowed⟩

theorem Steady.adds_open {p : Position} (hin : st.Inside p) (t : Token) :
    ∃ st', st.openBracket p t = some st' ∧ st.Adds st' [t] ∧
      st'.outer.length = st.outer.length + 1 ∧ st'.keyAllowed = true := by
  rw [openBracket, h.saveKeyStart hin]
  refine ⟨_, rfl, ⟨⟨?_, ?_, ?_⟩, ?_, ?_⟩, ?_, rfl⟩
  · split <;> simp [Lexing.push, h.count]
  · intro k hk
    cases hk
  · intro o ho k hk
    rcases List.mem_cons.1 ho with rfl | ho
    · split at hk
      · cases hk
        rfl
      · exact h.keyStart k hk
    · split at ho
      · exact h.outer o ho k hk
      · exact h.outer o ho k hk
  · split <;> rfl
  · split <;> rfl
  · split <;> rfl

theorem Steady.adds_close {k : Nat} (hflow : st.outer.length = k + 1) (t : Token) :
    ∃ st', st.closeBracket t = some st' ∧ st.Adds st' [t] ∧ st'.outer.length = k := by
  obtain ⟨o, os, hcons⟩ := List.exists_cons_of_length_eq_add_one hflow
  rw [closeBracket, hcons]
  refine ⟨_, rfl, ⟨⟨by simp [Lexing.push, h.count], ?_, ?_⟩, rfl, rfl⟩, ?_⟩
  · exact h.outer o (by rw [hcons]; exact List.mem_cons_self)
  · exact fun o' ho' => h.outer o' (by rw [hcons]; exact List.mem_cons_of_mem o ho')
  · rw [hcons] at hflow
    exact Nat.succ.inj hflow

theorem Steady.adds_comma :
    ∃ st', st.comma = some st' ∧ st.Adds st' [.comma] ∧ st'.outer = st.outer ∧
      st'.keyAllowed = true := by
  rw [comma, h.dropKeyStart]
  exact ⟨_, rfl, ⟨((h.withKeyStart fun _ hk => by cases hk).allowKey true).push .comma, rfl, rfl⟩, rfl,
    rfl⟩

end

/-! ### Names of members -/

theorem not_isBreak_writeString {cs : List Char} (h : isKeptName cs = true) {c : Char}
    (hc : c ∈ writeString false cs) : isBreak c = false := by
  simp only [isKeptName, Bool.and_eq_true, Bool.not_eq_true', List.any_eq_false] at h
  obtain ⟨⟨hkept, hsep⟩, -⟩ := h
  rcases mem_writeString hc with hc | ⟨hc, hle⟩
  · exact hc.2
  · obtain ⟨-, hnext⟩ := isAllowed_of_isKept hkept hc hle
    have hsep := hsep c hc
    simp only [Json.isSeparator, Bool.or_eq_true, decide_eq_true_eq, not_or] at hsep
    have hfeed : c ≠ '\n' := by
      rintro rfl
      exact absurd hle (by decide)
    simp [isBreak, hfeed, hnext, hsep.1, hsep.2]

/-- The colon after a key. -/
theorem Steady.adds_value {st : Lexing} (h : st.Steady) (hflow : st.inFlow = true) {k : KeyStart}
    {t : Token} {ts : List Token} (hkey : st.keyStart = some k) (htokens : st.tokens = t :: ts)
    (hbefore : k.before = ts.length) (p : Position) :
    ∃ st', st.value p = some st' ∧ st'.Steady ∧ st'.tokens = .value :: t :: .key :: ts ∧
      st'.outer = st.outer ∧ st'.indents = st.indents := by
  have hlater : st.count - k.before = 1 := by
    rw [h.count, htokens, hbefore, List.length_cons]
    omega
  have hvalue : st.valueAfter k
      = ⟨.value :: t :: .key :: ts, st.count + 2, false, none, st.outer, st.indents⟩ := by
    obtain ⟨tokens, count, keyAllowed, keyStart, outer, indents⟩ := st
    obtain rfl : tokens = t :: ts := htokens
    have hflow' : Lexing.inFlow ⟨t :: ts, count, false, none, outer, indents⟩ = true := hflow
    unfold valueAfter
    dsimp only
    rw [hflow', Bool.not_true, Bool.false_and, if_neg Bool.false_ne_true]
    simp only at hlater
    simp [insertAt, Lexing.push, hlater]
  refine ⟨⟨.value :: t :: .key :: ts, st.count + 2, false, none, st.outer, st.indents⟩, ?_,
    ⟨?_, ?_, h.outer⟩, rfl, rfl, rfl⟩
  · unfold value
    rw [hkey]
    exact congrArg some hvalue
  · simp [h.count, htokens]
  · intro k hk
    cases hk

/-- The run over the name of a member and its colon. -/
theorem Steady.leads_name {st : Lexing} (h : st.Steady) (hflow : st.inFlow = true)
    (hallowed : st.keyAllowed = true) {name : List Char} (hname : isKeptName name = true)
    (p : Position) (rest : List Char) :
    ∃ st', Leads st (place p (writeString false name ++ ':' :: rest)) st'
        (place ((p.afterAll (writeString false name)).after ':') rest) ∧
      st.Adds st' [.key, .scalar false (String.ofList name), .value] ∧
      st'.outer.length = st.outer.length := by
  have hbreak : ∀ c ∈ writeString false name, isBreak c = false := fun c hc =>
    not_isBreak_writeString hname hc
  simp only [isKeptName, Bool.and_eq_true, decide_eq_true_eq] at hname
  obtain ⟨⟨hkept, -⟩, hlen⟩ := hname
  have hin : st.Inside p := .inl hflow
  obtain ⟨st₁, hpart, hleads⟩ := @Steady.leads_string st h name (':' :: rest) p hin hkept
  obtain ⟨hadds, houter, -, hkey⟩ := (h.fresh p).adds_part hin.fresh hpart
  have hkey := hkey hallowed
  generalize hq : p.afterAll (writeString false name) = q at hleads
  -- the name is short and in one line, so at the colon it is still taken for a key
  have hstale : KeyStart.isStale q ⟨(st.fresh p).count, false, p⟩ = false := by
    have hline : q.line = p.line := by rw [← hq, line_afterAll hbreak]
    have hindex : q.index = p.index + (writeString false name).length := by
      rw [← hq, index_afterAll]
    simp only [KeyStart.isStale, hline, hindex, ne_eq, not_true_eq_false, decide_false,
      Bool.false_or, decide_eq_false_iff_not]
    omega
  have hkey' : (st₁.fresh q).keyStart = some ⟨(st.fresh p).count, false, p⟩ := by
    have hstale : KeyStart.isStale q ⟨st.count, false, p⟩ = false := hstale
    rw [Lexing.fresh, hkey]
    simp [Option.filter, hstale]
  have hflow₁ : (st₁.fresh q).inFlow = true := by
    rw [inFlow_fresh, inFlow, houter]
    exact (inFlow_fresh st p).trans hflow
  obtain ⟨st₂, hvalue, hsteady, htokens, houter₂, hindents⟩ := (hadds.steady.fresh q).adds_value hflow₁ hkey'
    (by rw [tokens_fresh, hadds.tokens]; rfl) h.count q
  have hmark : (st₁.fresh q).readMark ⟨':', q⟩ (place (q.after ':') rest) = some (some st₂) := by
    show (if (st₁.fresh q).inFlow || endsWord _ then some ((st₁.fresh q).value q) else none) = _
    rw [hflow₁, hvalue]
    rfl
  have hin₁ : st₁.Inside q := .inl ((inFlow_fresh st₁ q).symm.trans hflow₁)
  refine ⟨st₂, hleads.trans (hadds.steady.leads_mark (by decide) hin₁ hmark),
    ⟨hsteady, htokens, hindents.trans hadds.indents⟩, ?_⟩
  rw [houter₂]
  show (st₁.outer.map _).length = _
  rw [List.length_map, houter]
  exact List.length_map _

end Lexing

end Yaml

end ApiScribe
