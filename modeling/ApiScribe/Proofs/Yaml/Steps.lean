/-
**The lexer step by step.**

A run of the lexer is followed from one place of the text to a later one, and such runs are put
together.  What counts is only what the lexer makes of the rest: the fuel is always enough, since a
token takes at least one character.  A gap may be skipped before the next token is read, or it may
have been taken by the text before it; both come to the same, but for what the lexer keeps about
line breaks.

Main definitions:

* `ApiScribe.Yaml.Lexing.Leads` — the lexer comes from one place to a later one;
* `ApiScribe.Yaml.startsToken` — a text starts neither with a gap nor with a comment.

Main results:

* `ApiScribe.Yaml.Lexing.Leads.trans` — runs are put together;
* `ApiScribe.Yaml.Lexing.Leads.step` — the run over one token;
* `ApiScribe.Yaml.Lexing.Leads.gap` — the run over a gap.
-/

import ApiScribe.Yaml.Lexer

set_option autoImplicit false

namespace ApiScribe.Yaml

/-! ### Places -/

theorem length_place (p : Position) (cs : List Char) : (place p cs).length = cs.length := by
  induction cs generalizing p with
  | nil => rfl
  | cons c cs ih => rw [place, List.length_cons, ih, List.length_cons]

theorem afterAll_append (p : Position) (cs ds : List Char) :
    p.afterAll (cs ++ ds) = (p.afterAll cs).afterAll ds := List.foldl_append

theorem afterAll_cons (p : Position) (c : Char) (cs : List Char) :
    p.afterAll (c :: cs) = (p.after c).afterAll cs := rfl

theorem index_after (p : Position) (c : Char) : (p.after c).index = p.index + 1 := by
  unfold Position.after
  split
  · rfl
  · split <;> rfl

/-- Each character counts for the index of a place. -/
theorem index_afterAll (p : Position) (cs : List Char) :
    (p.afterAll cs).index = p.index + cs.length := by
  induction cs generalizing p with
  | nil => rfl
  | cons c cs ih =>
      rw [afterAll_cons, ih, index_after, List.length_cons]
      omega

theorem line_after {p : Position} {c : Char} (h : isBreak c = false) :
    (p.after c).line = p.line := by
  rw [Position.after, if_neg (by simp [h])]
  split <;> rfl

/-- Only line breaks count for the line of a place. -/
theorem line_afterAll {p : Position} {cs : List Char} (h : ∀ c ∈ cs, isBreak c = false) :
    (p.afterAll cs).line = p.line := by
  induction cs generalizing p with
  | nil => rfl
  | cons c cs ih =>
      rw [afterAll_cons, ih fun d hd => h d (List.mem_cons_of_mem c hd),
        line_after (h c List.mem_cons_self)]

/-! ### Marks of documents -/

theorem atMarker_eq_false {c : Char} {p : Position} {rest : List Spot} (h₁ : c ≠ '-')
    (h₂ : c ≠ '.') : atMarker (⟨c, p⟩ :: rest) = false := by
  unfold atMarker tripled
  split
  · rename_i heq
    cases heq
    simp [h₁, h₂]
  · rfl

/-- What the mark of a document is: three hyphens or points, and a gap or the end of the text. -/
theorem exists_of_atMarker {p : Position} {cs : List Char} (h : atMarker (place p cs) = true) :
    ∃ a rest, cs = a :: a :: a :: rest ∧ (a = '-' ∨ a = '.') ∧
      ∀ g more, rest = g :: more → isGap g = true := by
  rcases cs with _ | ⟨a, _ | ⟨b, _ | ⟨c, rest⟩⟩⟩
  · cases h
  · cases h
  · cases h
  · simp only [atMarker, place, tripled, Bool.and_eq_true, Bool.or_eq_true, decide_eq_true_eq] at h
    obtain ⟨⟨⟨ha, rfl⟩, rfl⟩, hends⟩ := h
    refine ⟨c, rest, rfl, ha, ?_⟩
    rintro g more rfl
    exact hends

/-! ### Gaps -/

/-- Whether a text starts neither with a gap nor with a comment. -/
def startsToken : List Char → Bool
  | [] => true
  | c :: _ => !(isBreak c || c = '#' || c = ' ')

theorem skipGap_of_startsToken {p : Position} {cs : List Char} (h : startsToken cs = true) :
    Lexing.skipGap false (place p cs) = (false, place p cs) := by
  cases cs with
  | nil => rfl
  | cons c cs =>
      simp only [startsToken, Bool.not_eq_true', Bool.or_eq_false_iff, decide_eq_false_iff_not] at h
      obtain ⟨⟨h₁, h₂⟩, h₃⟩ := h
      simp [place, Lexing.skipGap, h₁, h₂, h₃]

/-- A gap of blanks and line breaks is skipped. -/
theorem skipGap_append {p : Position} {gap cs : List Char}
    (hgap : ∀ c ∈ gap, c = ' ' ∨ isBreak c = true) (h : startsToken cs = true) :
    Lexing.skipGap false (place p (gap ++ cs)) = (gap.any isBreak, place (p.afterAll gap) cs) := by
  induction gap generalizing p with
  | nil => exact skipGap_of_startsToken h
  | cons c gap ih =>
      have ih := @ih (p.after c) fun d hd => hgap d (List.mem_cons_of_mem c hd)
      rw [List.cons_append, place, Lexing.skipGap, ih]
      rcases hgap c List.mem_cons_self with rfl | hc
      · have hb : isBreak ' ' = false := by decide
        simp [hb, afterAll_cons]
      · simp [hc, afterAll_cons]

/-! ### Lines -/

/-- A line break and an indentation are a gap. -/
theorem gap_newLine (n : Nat) : ∀ c ∈ '\n' :: List.replicate n ' ', c = ' ' ∨ isBreak c = true := by
  intro c hc
  rcases List.mem_cons.1 hc with rfl | hc
  · exact .inr (by decide)
  · exact .inl (List.eq_of_mem_replicate hc)

theorem emptyLines_blanks (k : Nat) {c : Char} (h : isGap c = false) (rest : List Char)
    (p : Position) :
    emptyLines (place p (List.replicate k ' ' ++ c :: rest))
      = (some [], place (p.afterAll (List.replicate k ' ')) (c :: rest)) := by
  induction k generalizing p with
  | zero =>
      simp only [isGap, isBlank, Bool.or_eq_false_iff, decide_eq_false_iff_not] at h
      simp [place, emptyLines, h.1.1, h.2, Position.afterAll]
  | succ k ih =>
      rw [List.replicate_succ, List.cons_append, place, emptyLines, if_pos rfl, ih]
      rfl

theorem not_atMarker_blanks (k : Nat) {c : Char} (h : c ≠ '-' ∧ c ≠ '.') (rest : List Char)
    (p : Position) : atMarker (place p (List.replicate k ' ' ++ c :: rest)) = false := by
  cases k with
  | zero => exact atMarker_eq_false h.1 h.2
  | succ k => exact atMarker_eq_false (by decide) (by decide)

namespace Lexing

/-! ### Runs -/

/-- Whether the lexer, at the characters `spots` in the state `st`, comes to the characters `spots'`
in the state `st'`. -/
def Leads (st : Lexing) (spots : List Spot) (st' : Lexing) (spots' : List Spot) : Prop :=
  ∀ fuel, spots.length < fuel →
    ∃ fuel', spots'.length < fuel' ∧ readTokens fuel st spots = readTokens fuel' st' spots'

namespace Leads

theorem refl (st : Lexing) (spots : List Spot) : Leads st spots st spots :=
  fun fuel h => ⟨fuel, h, rfl⟩

/-- Runs are put together. -/
theorem trans {st₁ st₂ st₃ : Lexing} {spots₁ spots₂ spots₃ : List Spot}
    (h₁ : Leads st₁ spots₁ st₂ spots₂) (h₂ : Leads st₂ spots₂ st₃ spots₃) :
    Leads st₁ spots₁ st₃ spots₃ := by
  intro fuel hfuel
  obtain ⟨fuel₂, hfuel₂, heq₂⟩ := h₁ fuel hfuel
  obtain ⟨fuel₃, hfuel₃, heq₃⟩ := h₂ fuel₂ hfuel₂
  exact ⟨fuel₃, hfuel₃, heq₂.trans heq₃⟩

/-- The run over one token.  A gap that the token has taken may be given back if that makes no
difference. -/
theorem step {st st₁ st₂ : Lexing} {p : Position} {c : Char} {cs : List Char}
    {rest rest' : List Spot} (hgap : startsToken (c :: cs) = true) (hstale : st.dropStale p = some st₁)
    (htoken : ∀ fuel, cs.length < fuel →
      (st₁.endBlocks (p.column < ·)).readToken fuel ⟨c, p⟩ (place (p.after c) cs)
        = some (st₂, rest))
    (hsame : ∀ fuel, readTokens fuel st₂ rest = readTokens fuel st₂ rest')
    (hlen : rest'.length ≤ cs.length) : Leads st (place p (c :: cs)) st₂ rest' := by
  intro fuel hfuel
  obtain ⟨fuel, rfl⟩ : ∃ k, fuel = k + 1 := ⟨fuel - 1, by omega⟩
  rw [length_place, List.length_cons] at hfuel
  refine ⟨fuel, by omega, ?_⟩
  rw [readTokens, skipGap_of_startsToken hgap]
  simp only [place, Bool.false_and, Bool.false_eq_true, if_false, hstale, htoken fuel (by omega)]
  exact hsame fuel

/-- The run over a gap.  A line break in it allows a key, unless there are open brackets. -/
theorem gap {st : Lexing} {p : Position} {gap cs : List Char}
    (hgap : ∀ c ∈ gap, c = ' ' ∨ isBreak c = true) (h : startsToken cs = true) :
    Leads st (place p (gap ++ cs)) (if gap.any isBreak && !st.inFlow then st.allowKey true else st)
      (place (p.afterAll gap) cs) := by
  intro fuel hfuel
  obtain ⟨fuel, rfl⟩ : ∃ k, fuel = k + 1 := ⟨fuel - 1, by omega⟩
  rw [length_place, List.length_append] at hfuel
  refine ⟨fuel + 1, by rw [length_place]; omega, ?_⟩
  rw [readTokens, readTokens, skipGap_append hgap h, skipGap_of_startsToken h]
  simp only [Bool.false_and, Bool.false_eq_true, if_false]

end Leads

/-- Inside brackets a gap makes no difference. -/
theorem readTokens_gap {st : Lexing} (hflow : st.inFlow = true) {p : Position} {gap cs : List Char}
    (hgap : ∀ c ∈ gap, c = ' ' ∨ isBreak c = true) (h : startsToken cs = true) (fuel : Nat) :
    readTokens fuel st (place (p.afterAll gap) cs) = readTokens fuel st (place p (gap ++ cs)) := by
  cases fuel with
  | zero => rfl
  | succ fuel =>
      rw [readTokens, readTokens, skipGap_append hgap h, skipGap_of_startsToken h]
      simp only [Bool.false_eq_true, if_false, hflow, Bool.not_true, Bool.and_false]

/-! ### Places where keys may have started -/

/-- The state without the places where keys that cannot go on at `p` may have started. -/
def fresh (st : Lexing) (p : Position) : Lexing :=
  { st with
    keyStart := st.keyStart.filter (!·.isStale p)
    outer := st.outer.map (·.filter (!·.isStale p)) }

@[simp] theorem tokens_fresh (st : Lexing) (p : Position) : (st.fresh p).tokens = st.tokens := rfl

@[simp] theorem count_fresh (st : Lexing) (p : Position) : (st.fresh p).count = st.count := rfl

@[simp] theorem keyAllowed_fresh (st : Lexing) (p : Position) :
    (st.fresh p).keyAllowed = st.keyAllowed := rfl

@[simp] theorem indents_fresh (st : Lexing) (p : Position) : (st.fresh p).indents = st.indents := rfl

@[simp] theorem inFlow_fresh (st : Lexing) (p : Position) : (st.fresh p).inFlow = st.inFlow := by
  simp [inFlow, fresh]

/-- No required key is missed. -/
theorem dropStale_eq {st : Lexing} {p : Position}
    (hkey : ∀ k, st.keyStart = some k → k.required = true → k.isStale p = false)
    (houter : ∀ o ∈ st.outer, ∀ k, o = some k → k.required = false) :
    st.dropStale p = some (st.fresh p) := by
  have h₁ : st.keyStart.any (fun k => k.isStale p && k.required) = false := by
    cases hk : st.keyStart with
    | none => rfl
    | some k =>
        cases hr : k.required with
        | false => simp [hr]
        | true => simp [hkey k hk hr]
  have h₂ : (st.outer.any fun o => o.any fun k => k.isStale p && k.required) = false := by
    rw [List.any_eq_false]
    intro o ho
    cases o with
    | none => simp
    | some k => simp [houter _ ho k rfl]
  unfold dropStale
  simp only [h₁, h₂, Bool.or_self, Bool.false_eq_true, if_false]
  rfl

/-! ### Tokens that nothing precedes -/

/-- In the middle of a line, or where neither a directive nor a mark of a document starts, a token is
of the ordinary kinds. -/
theorem readToken_eq {fuel : Nat} {st : Lexing} {s : Spot} {rest : List Spot}
    (hdirective : s.char ≠ '%') (hmarker : atMarker (s :: rest) = false) :
    st.readToken fuel s rest =
      match st.readMark s rest with
      | some st => st.map (·, rest)
      | none =>
        match st.readPart fuel s rest with
        | some found => found
        | none => st.readPlainPart fuel s rest :=
  (if_neg (by simp [hdirective])).trans (if_neg (by simp [hmarker]))

/-- A text in double quotes. -/
theorem readToken_double {fuel : Nat} {st st' : Lexing} {p : Position} {spots rest : List Spot}
    {cs : List Char} (hread : readDouble (.outside (.blanks [])) spots = some (cs, rest))
    (hpart : st.part p false (.scalar false (String.ofList cs)) = some st') :
    st.readToken fuel ⟨'"', p⟩ spots = some (st', rest) := by
  rw [readToken_eq (by simp) (atMarker_eq_false (by simp) (by simp))]
  have hmark : st.readMark ⟨'"', p⟩ spots = none := rfl
  have hquote : st.readPart fuel ⟨'"', p⟩ spots = some (some (st', rest)) := by
    simp only [readPart, hread, hpart, Option.map_some]
  rw [hmark]
  simp only [hquote]

/-- A text in single quotes. -/
theorem readToken_single {fuel : Nat} {st st' : Lexing} {p : Position} {spots rest : List Spot}
    {cs : List Char} (hread : readSingle (.blanks []) spots = some (cs, rest))
    (hpart : st.part p false (.scalar false (String.ofList cs)) = some st') :
    st.readToken fuel ⟨'\'', p⟩ spots = some (st', rest) := by
  rw [readToken_eq (by simp) (atMarker_eq_false (by simp) (by simp))]
  have hmark : st.readMark ⟨'\'', p⟩ spots = none := rfl
  have hquote : st.readPart fuel ⟨'\'', p⟩ spots = some (some (st', rest)) := by
    simp only [readPart, hread, hpart, Option.map_some]
  rw [hmark]
  simp only [hquote]

/-- Where a plain text starts, no other token does. -/
theorem readMark_of_startsPlain {st : Lexing} {c : Char} {p : Position} {spots : List Spot}
    (h : startsPlain st.inFlow c spots = true) : st.readMark ⟨c, p⟩ spots = none := by
  unfold readMark
  dsimp only
  split
  · simp [startsPlain, isGap, isBlank, isBreak, isIndicator] at h
  · simp [startsPlain, isGap, isBlank, isBreak, isIndicator] at h
  · simp [startsPlain, isGap, isBlank, isBreak, isIndicator] at h
  · simp [startsPlain, isGap, isBlank, isBreak, isIndicator] at h
  · simp [startsPlain, isGap, isBlank, isBreak, isIndicator] at h
  · have hends : endsWord spots = false := by
      simpa [startsPlain, isGap, isBlank, isBreak, isIndicator] using h
    rw [hends]
    rfl
  · have hends : endsWord spots = false ∧ st.inFlow = false := by
      simpa [startsPlain, isGap, isBlank, isBreak, isIndicator] using h
    rw [hends.1, hends.2]
    rfl
  · have hends : endsWord spots = false ∧ st.inFlow = false := by
      simpa [startsPlain, isGap, isBlank, isBreak, isIndicator] using h
    rw [hends.1, hends.2]
    rfl
  · rfl

theorem readPart_of_startsPlain {fuel : Nat} {st : Lexing} {c : Char} {p : Position}
    {spots : List Spot} (h : startsPlain st.inFlow c spots = true) :
    st.readPart fuel ⟨c, p⟩ spots = none := by
  unfold readPart
  dsimp only
  split
  · simp [startsPlain, isGap, isBlank, isBreak, isIndicator] at h
  · simp [startsPlain, isGap, isBlank, isBreak, isIndicator] at h
  · simp [startsPlain, isGap, isBlank, isBreak, isIndicator] at h
  · simp [startsPlain, isGap, isBlank, isBreak, isIndicator] at h
  · simp [startsPlain, isGap, isBlank, isBreak, isIndicator] at h
  · simp [startsPlain, isGap, isBlank, isBreak, isIndicator] at h
  · simp [startsPlain, isGap, isBlank, isBreak, isIndicator] at h
  · rfl

/-- A plain text. -/
theorem readToken_plain {fuel : Nat} {st st' : Lexing} {p : Position} {c : Char} {spots : List Spot}
    (hmarker : atMarker (⟨c, p⟩ :: spots) = false) (hstart : startsPlain st.inFlow c spots = true)
    (hpart : st.part p (readPlain st.inFlow st.inner fuel (⟨c, p⟩ :: spots)).newLine
      (.scalar true (String.ofList (readPlain st.inFlow st.inner fuel (⟨c, p⟩ :: spots)).text))
        = some st') :
    st.readToken fuel ⟨c, p⟩ spots
      = some (st', (readPlain st.inFlow st.inner fuel (⟨c, p⟩ :: spots)).rest) := by
  have hdirective : c ≠ '%' := by
    rintro rfl
    simp [startsPlain, isGap, isBlank, isBreak, isIndicator] at hstart
  rw [readToken_eq hdirective hmarker, readMark_of_startsPlain hstart]
  simp only [readPart_of_startsPlain hstart, readPlainPart, hstart, if_true, hpart, Option.map_some]

end Lexing

end ApiScribe.Yaml
