/-
**Written texts are read back.**

The writer of YAML breaks long texts into lines, and a reader folds the lines again.  Each of the
three ways to write a text has its own rule: without quotes a line break stands for a lone blank; in
single quotes it does so as well, and a line break of the text is written twice; in double quotes a
hidden line break stands for nothing.  The induction is on the text, with what has been read since its
last character kept general.

Two things are lost.  In single quotes the older *next line* is folded like a line feed.  And in double
quotes, where the lines of a text are indented so far that each of them is too long, a line break
after an escape comes between a blank and its own escape.

Main definitions:

* `ApiScribe.Yaml.keepsBlanks` — whether no blank loses its escape;
* `ApiScribe.Yaml.ReadsSingle`, `ApiScribe.Yaml.ReadsDouble` — what is written for a text in quotes
  is read as that text;
* `ApiScribe.Yaml.Folded` — a text with some lone blanks turned into line breaks.

Main results:

* `ApiScribe.Yaml.readsSingle`, `ApiScribe.Yaml.readsDouble`,
  `ApiScribe.Yaml.readPlain_folded` — **texts are read back**.
-/

import ApiScribe.Proofs.Yaml.Quoted
import ApiScribe.Yaml.Writer

set_option autoImplicit false

namespace ApiScribe.Yaml

/-! ### Line breaks in quotes -/

theorem Quote.lineBreak_blanks (c : Char) (bs : List Char) :
    (blanks bs).lineBreak c = lines (breakText c) [] := rfl

theorem Quote.lineBreak_lines (c first : Char) (more : List Char) :
    (lines first more).lineBreak c = lines first (more ++ [breakText c]) := rfl

/-! ### Between single quotes -/

section

variable (q : Quote) (p : Position) {c : Char} (cs : List Char)

theorem readSingle_bare (hgap : isGap c = false) (hquote : c ≠ '\'') :
    readSingle q (place p (c :: cs))
      = prependText (q.text ++ [c]) (readSingle (.blanks []) (place (p.after c) cs)) := by
  rw [isGap, Bool.or_eq_false_iff] at hgap
  rw [place, readSingle.eq_def]
  simp [hgap.1, hgap.2, hquote]

theorem readSingle_blank :
    readSingle q (place p (' ' :: cs)) = readSingle (q.blank ' ') (place (p.after ' ') cs) := by
  have h : isBlank ' ' = true := by decide
  rw [place, readSingle.eq_def]
  simp [h]

theorem readSingle_break (h : isBreak c = true) (hmarker : atMarker (place (p.after c) cs) = false) :
    readSingle q (place p (c :: cs)) = readSingle (q.lineBreak c) (place (p.after c) cs) := by
  have hblank : isBlank c = false := by
    simp only [isBreak, Bool.or_eq_true, decide_eq_true_eq] at h
    rcases h with ((rfl | rfl) | rfl) | rfl <;> decide
  rw [place, readSingle.eq_def]
  simp [h, hblank, hmarker]

theorem readSingle_quote :
    readSingle q (place p ('\'' :: '\'' :: cs))
      = prependText (q.text ++ ['\''])
          (readSingle (.blanks []) (place (p.afterAll ['\'', '\'']) cs)) := by
  have h₁ : isBlank '\'' = false := by decide
  have h₂ : isBreak '\'' = false := by decide
  simp [place, readSingle, h₁, h₂, Position.afterAll]

theorem readSingle_close (h : cs.head? ≠ some '\'') :
    readSingle q (place p ('\'' :: cs)) = some (q.text, place (p.after '\'') cs) := by
  have h₁ : isBlank '\'' = false := by decide
  have h₂ : isBreak '\'' = false := by decide
  cases cs with
  | nil => simp [place, readSingle, h₁, h₂]
  | cons d ds =>
      have hd : d ≠ '\'' := fun heq => h (congrArg some heq)
      simp [place, readSingle, h₁, h₂, hd]

variable {q}

/-- Blanks after a line break do not count. -/
theorem readSingle_spaces (hq : q.blank ' ' = q) (n : Nat) :
    readSingle q (place p (spaces n ++ cs)) = readSingle q (place (p.afterAll (spaces n)) cs) := by
  induction n generalizing p with
  | zero => rfl
  | succ n ih =>
      rw [spaces, List.replicate_succ, List.cons_append, readSingle_blank, hq]
      exact ih (p.after ' ')

end

/-- What a text in single quotes goes on with after a line break is no mark of a document. -/
theorem atMarker_singleText {split : Bool} {indent column : Nat} (hindent : 0 < indent) {b : Char}
    (hb : isBreak b = true) (cs rest : List Char) (p : Position) :
    atMarker (place p (singleText split indent column (some b) cs ++ '\'' :: rest)) = false := by
  obtain ⟨n, rfl⟩ : ∃ n, indent = n + 1 := ⟨indent - 1, by omega⟩
  have hspaces : ∀ more, atMarker (place p (spaces (n + 1) ++ more)) = false := fun more =>
    atMarker_eq_false (by decide) (by decide)
  cases cs with
  | nil =>
      rw [singleText, if_pos (by simpa using hb)]
      exact hspaces _
  | cons c cs =>
      rw [singleText]
      simp only [Option.any_some, hb, Bool.not_true, Bool.and_false, Bool.false_eq_true, if_false,
        List.nil_append, if_true]
      split
      · rename_i hc
        refine atMarker_eq_false ?_ ?_ <;> rintro rfl <;> revert hc <;> decide
      · split
        · exact atMarker_eq_false (by decide) (by decide)
        · rw [List.append_assoc, List.append_assoc]
          exact hspaces _

/-- Whether what has been read since the last character goes with the writer's place in the text: it
writes `cs` after `previous`. -/
inductive Quote.Single : Quote → Option Char → List Char → Prop
  /-- At the start of the text, or right after a character. -/
  | start {previous : Option Char} {cs : List Char} (h : ∀ c, previous = some c → isGap c = false) :
    Single (.blanks []) previous cs
  /-- After blanks. -/
  | blanks {bs cs : List Char} : Single (.blanks bs) (some ' ') cs
  /-- After a blank that is written as a line break. -/
  | folded {cs : List Char} (h : ∃ c ∈ cs.head?, isGap c = false) :
    Single (.lines '\n' []) (some ' ') cs
  /-- After line breaks of the text. -/
  | lines {first b : Char} {more cs : List Char} (hb : isBreak b = true)
      (hmore : first = '\n' → more ≠ []) : Single (.lines first more) (some b) cs

section

variable {split : Bool} {indent column : Nat} {previous : Option Char} {c : Char} {cs : List Char}

theorem singleText_break (hc : isBreak c = true) :
    singleText split indent column previous (c :: cs)
      = (if c = '\n' && !previous.any isBreak then ['\n'] else [])
        ++ c :: singleText split indent 0 (some c) cs := by
  rw [singleText, if_pos hc]

theorem singleText_fold (hc : isBreak c = false)
    (hbreaks : (split && breaksAt column previous c cs) = true) :
    singleText split indent column previous (c :: cs)
      = newLine indent ++ singleText split indent indent (some c) cs := by
  rw [singleText, if_neg (by rw [hc]; decide), if_pos hbreaks]

theorem singleText_other (hc : isBreak c = false)
    (hbreaks : (split && breaksAt column previous c cs) = false) :
    ∃ column', singleText split indent column previous (c :: cs)
      = (if previous.any isBreak then spaces indent else [])
        ++ ((if c = '\'' then ['\'', '\''] else [c]) ++ singleText split indent column' (some c) cs) := by
  rw [singleText, if_neg (by rw [hc]; decide), if_neg (by rw [hbreaks]; decide)]
  exact ⟨_, List.append_assoc _ _ _⟩

/-- What a break of a line stands for. -/
theorem of_breaksAt (h : (split && breaksAt column previous c cs) = true) :
    c = ' ' ∧ (∃ d, previous = some d ∧ d ≠ ' ') ∧ ∃ d, cs.head? = some d ∧ d ≠ ' ' := by
  simp only [breaksAt, Bool.and_eq_true, decide_eq_true_eq, Option.any_eq_true] at h
  obtain ⟨-, ⟨⟨hc, -⟩, hprevious⟩, hnext⟩ := h
  exact ⟨hc, hprevious, hnext⟩

end

theorem isGap_eq_false {c : Char} (hbreak : isBreak c = false) (hspace : c ≠ ' ')
    (hescape : needsEscape c = false) : isGap c = false := by
  have htab : c ≠ '\t' := by
    rintro rfl
    exact absurd hescape (by decide)
  simp [isGap, isBlank, hbreak, hspace, htab]

theorem atMarker_spaces {n : Nat} (h : 0 < n) (cs : List Char) (p : Position) :
    atMarker (place p (spaces n ++ cs)) = false := by
  obtain ⟨n, rfl⟩ : ∃ m, n = m + 1 := ⟨n - 1, by omega⟩
  exact atMarker_eq_false (by decide) (by decide)

theorem hasNeighbours_toList {p₁ p₂ : Char → Bool} {previous : Option Char} {c : Char}
    {cs : List Char} (h : hasNeighbours p₁ p₂ (previous.toList ++ c :: cs) = false) :
    (∀ d, previous = some d → p₁ d = true → p₂ c = false) ∧ hasNeighbours p₁ p₂ (c :: cs) = false := by
  cases previous with
  | none => exact ⟨fun d hd => (Option.some_ne_none d hd.symm).elim, h⟩
  | some d =>
      obtain ⟨h₁, h₂⟩ := hasNeighbours_cons h
      refine ⟨fun e he hp => ?_, h₂⟩
      cases he
      simpa using h₁ hp

theorem any_isBreak_eq_false {previous : Option Char}
    (h : ∀ c, previous = some c → isGap c = false) : previous.any isBreak = false := by
  cases previous with
  | none => rfl
  | some c =>
      have hc := h c rfl
      rw [isGap, Bool.or_eq_false_iff] at hc
      exact hc.2

/-- Whether what is written in single quotes for `cs`, after `previous` and before `rest`, is read as
`cs`. -/
def ReadsSingle (split : Bool) (indent : Nat) (rest : List Char) (previous : Option Char)
    (cs : List Char) : Prop :=
  ∀ (q : Quote) (column : Nat) (p : Position), q.Single previous cs →
    readSingle q (place p (singleText split indent column previous cs ++ '\'' :: rest))
      = some (q.text ++ cs,
          place ((p.afterAll (singleText split indent column previous cs)).after '\'') rest)

section

variable {split : Bool} {indent column : Nat} {previous : Option Char} {c : Char}
  {cs rest : List Char} {q : Quote}

theorem readsSingle_nil (hrest : rest.head? ≠ some '\'') :
    ReadsSingle split indent rest previous [] := by
  intro q column p hq
  have hclose := fun p => @readSingle_close q p rest hrest
  cases hq with
  | start h =>
      rw [singleText, if_neg (by rw [any_isBreak_eq_false h]; decide), List.nil_append, hclose,
        List.append_nil]
      rfl
  | blanks =>
      rw [singleText, if_neg (by decide), List.nil_append, hclose, List.append_nil]
      rfl
  | folded h =>
      obtain ⟨c, hc, -⟩ := h
      cases hc
  | lines hb hmore =>
      rw [singleText, if_pos (by simpa using hb), readSingle_spaces _ _ rfl, hclose, List.append_nil]

/-- A line break of the text is written twice, unless one comes right before it. -/
theorem ReadsSingle.lineBreak (h : ReadsSingle split indent rest (some c) cs) (hindent : 0 < indent)
    (hc : isBreak c = true) (hnext : c ≠ '\u0085') (hspace : previous ≠ some ' ') :
    ReadsSingle split indent rest previous (c :: cs) := by
  intro q column p hq
  have hmarker := fun cs p => @atMarker_singleText split indent 0 hindent c hc cs rest p
  have htext : breakText c = c := if_neg hnext
  rw [singleText_break hc]
  cases hq with
  | start hprevious =>
      rw [any_isBreak_eq_false hprevious, Bool.not_false, Bool.and_true]
      by_cases hfeed : c = '\n'
      · subst hfeed
        have hdouble : ∀ (cs : List Char) (p : Position), atMarker (place p ('\n' :: cs)) = false :=
          fun cs p => atMarker_eq_false (by decide) (by decide)
        rw [if_pos (by decide), List.append_assoc, List.singleton_append, List.cons_append,
          readSingle_break _ _ _ hc (hdouble _ _), readSingle_break _ _ _ hc (hmarker _ _),
          Quote.lineBreak_blanks, Quote.lineBreak_lines, htext, h _ _ _ (.lines hc fun _ => by simp)]
        rfl
      · rw [if_neg (by simpa using hfeed), List.nil_append, List.cons_append,
          readSingle_break _ _ _ hc (hmarker _ _), Quote.lineBreak_blanks, htext,
          h _ _ _ (.lines hc fun hfirst => absurd hfirst hfeed)]
        simp [Quote.text, foldBreaks, hfeed, Position.afterAll]
  | blanks => exact absurd rfl hspace
  | folded _ => exact absurd rfl hspace
  | @lines first b more _ hb hmore =>
      rw [Option.any_some, hb, Bool.not_true, Bool.and_false, if_neg Bool.false_ne_true,
        List.nil_append, List.cons_append, readSingle_break _ _ _ hc (hmarker _ _),
        Quote.lineBreak_lines, htext, h _ _ _ (.lines hc fun _ => by simp)]
      have hfold : foldBreaks first (more ++ [c]) = foldBreaks first more ++ [c] := by
        unfold foldBreaks
        split
        · rename_i hfirst
          simp [hmore hfirst]
        · rfl
      simp [Quote.text, hfold, Position.afterAll]

/-- A lone blank may be written as a line break. -/
theorem ReadsSingle.fold (h : ReadsSingle split indent rest (some c) cs) (hindent : 0 < indent)
    (hbreaks : (split && breaksAt column previous c cs) = true)
    (hgap : ∀ e ∈ cs.head?, e ≠ ' ' → isGap e = false) (hq : q.Single previous (c :: cs))
    (hprevious : ∀ d, previous = some d → isBreak d = false) (p : Position) :
    readSingle q (place p (singleText split indent column previous (c :: cs) ++ '\'' :: rest))
      = some (q.text ++ c :: cs, place
          ((p.afterAll (singleText split indent column previous (c :: cs))).after '\'') rest) := by
  obtain ⟨rfl, ⟨d, rfl, hd⟩, e, he, hne⟩ := of_breaksAt hbreaks
  have hstart : q = .blanks [] := by
    cases hq with
    | start _ => rfl
    | blanks => exact absurd rfl hd
    | folded _ => exact absurd rfl hd
    | lines hb _ => exact absurd hb (by rw [hprevious d rfl]; decide)
  have hfeed : isBreak '\n' = true := by decide
  have htext : breakText '\n' = '\n' := by decide
  rw [singleText_fold (by decide) hbreaks, hstart, newLine, List.cons_append, List.cons_append,
    List.append_assoc, readSingle_break _ _ _ hfeed (atMarker_spaces hindent _ _),
    Quote.lineBreak_blanks, readSingle_spaces _ _ rfl, htext,
    h _ _ _ (.folded ⟨e, he, hgap e he hne⟩), afterAll_cons, afterAll_append]
  rfl

/-- A blank that stays, between blanks or characters. -/
theorem ReadsSingle.blank (h : ReadsSingle split indent rest (some ' ') cs)
    (hq : q.Single previous (' ' :: cs)) (hprevious : ∀ d, previous = some d → isBreak d = false)
    (column : Nat) (p : Position) :
    readSingle q (place p (' ' :: (singleText split indent column (some ' ') cs ++ '\'' :: rest)))
      = some (q.text ++ ' ' :: cs, place
          (((p.after ' ').afterAll (singleText split indent column (some ' ') cs)).after '\'') rest) := by
  rw [readSingle_blank]
  cases hq with
  | start _ =>
      rw [show Quote.blank ' ' (.blanks []) = .blanks [' '] from rfl, h _ _ _ .blanks]
      simp [Quote.text]
  | @blanks bs =>
      rw [show Quote.blank ' ' (.blanks bs) = .blanks (bs ++ [' ']) from rfl, h _ _ _ .blanks]
      simp [Quote.text]
  | folded hnext =>
      obtain ⟨d, hd, hgap⟩ := hnext
      cases hd
      exact absurd hgap (by decide)
  | lines hb _ => exact absurd hb (by rw [hprevious _ rfl]; decide)

/-- Any other character stands for itself; a quote is written twice. -/
theorem ReadsSingle.char (h : ReadsSingle split indent rest (some c) cs) (hc : isBreak c = false)
    (hescape : needsEscape c = false) (hbreaks : (split && breaksAt column previous c cs) = false)
    (hq : q.Single previous (c :: cs))
    (hprevious : c = ' ' → ∀ d, previous = some d → isBreak d = false) (p : Position) :
    readSingle q (place p (singleText split indent column previous (c :: cs) ++ '\'' :: rest))
      = some (q.text ++ c :: cs, place
          ((p.afterAll (singleText split indent column previous (c :: cs))).after '\'') rest) := by
  obtain ⟨column', htext⟩ := @singleText_other split indent _ _ _ _ hc hbreaks
  generalize hleadDef : (if previous.any isBreak then spaces indent else []) = lead at htext
  -- the indentation after a line break does not count
  have hlead : ∀ more, readSingle q (place p (lead ++ more))
      = readSingle q (place (p.afterAll lead) more) := by
    intro more
    rw [← hleadDef]
    cases hq with
    | start hstart =>
        rw [if_neg (by rw [any_isBreak_eq_false hstart]; decide)]
        rfl
    | blanks => rfl
    | folded _ => rfl
    | lines hb _ =>
        rw [if_pos (by simpa using hb)]
        exact readSingle_spaces _ _ rfl _
  rw [htext, List.append_assoc, hlead, afterAll_append]
  by_cases hspace : c = ' '
  · subst hspace
    exact h.blank hq (hprevious rfl) column' (p.afterAll lead)
  · have hgap : isGap c = false := isGap_eq_false hc hspace hescape
    have hstart : Quote.Single (.blanks []) (some c) cs :=
      .start fun d hd => by cases hd; exact hgap
    by_cases hquote : c = '\''
    · subst hquote
      rw [if_pos rfl, List.append_assoc, List.cons_append, List.singleton_append, readSingle_quote,
        h _ _ _ hstart]
      simp [prependText, Quote.text, Position.afterAll]
    · rw [if_neg hquote, List.append_assoc, List.singleton_append,
        readSingle_bare _ _ _ hgap hquote, h _ _ _ hstart]
      simp [prependText, Quote.text, Position.afterAll]

end

/-- **A text in single quotes is read back.** -/
theorem readsSingle {split : Bool} {indent : Nat} (hindent : 0 < indent) {cs rest : List Char}
    (hcs : ∀ c ∈ cs, needsEscape c = false ∧ c ≠ '\u0085') (hrest : rest.head? ≠ some '\'')
    {previous : Option Char}
    (hafter : hasNeighbours isBreak isSpace (previous.toList ++ cs) = false)
    (hbefore : hasNeighbours isSpace isBreak (previous.toList ++ cs) = false) :
    ReadsSingle split indent rest previous cs := by
  induction cs generalizing previous with
  | nil => exact readsSingle_nil hrest
  | cons c cs ih =>
      obtain ⟨hescape, hnext⟩ := hcs c List.mem_cons_self
      obtain ⟨hafter₁, hafter₂⟩ := hasNeighbours_toList hafter
      obtain ⟨hbefore₁, hbefore₂⟩ := hasNeighbours_toList hbefore
      have ih := @ih (fun d hd => hcs d (List.mem_cons_of_mem c hd)) (some c) hafter₂ hbefore₂
      cases hc : isBreak c with
      | true =>
          refine ih.lineBreak hindent hc hnext fun hprevious => ?_
          exact absurd (hbefore₁ ' ' hprevious rfl) (by rw [hc]; decide)
      | false =>
          have hprevious : c = ' ' → ∀ d, previous = some d → isBreak d = false := by
            rintro rfl d hd
            rw [← Bool.not_eq_true]
            exact fun hb => absurd (hafter₁ d hd hb) (by decide)
          intro q column p hq
          cases hbreaks : split && breaksAt column previous c cs with
          | false => exact ih.char hc hescape hbreaks hq hprevious p
          | true =>
              obtain ⟨rfl, -⟩ := of_breaksAt hbreaks
              refine ih.fold hindent hbreaks (fun e he hne => ?_) hq (hprevious rfl) p
              have hebreak := (hasNeighbours_cons hbefore₂).1 rfl
              rw [he] at hebreak
              exact isGap_eq_false (by simpa using hebreak) hne
                (hcs e (List.mem_cons_of_mem _ (List.mem_of_mem_head? he))).1

/-! ### Between double quotes -/

theorem escaped?_of_escapeLetter? {c letter : Char} (h : escapeLetter? c = some letter) :
    escaped? letter = some c := by
  unfold escapeLetter? at h
  split at h <;> cases h <;> rfl

theorem digitValue?_toUpper {d : Nat} (h : d < 16) :
    digitValue? (hexDigit d).toUpper = some d := by
  have hall : ∀ d < 16, digitValue? (hexDigit d).toUpper = some d := by decide
  exact hall d h

theorem natOfHex_capitalHex (width n : Nat) : natOfHex (capitalHex width n) 0 = n % 16 ^ width := by
  have hmap : ∀ (ds : List Char) (k : Nat), (∀ c ∈ ds, ∃ d < 16, c = hexDigit d) →
      natOfHex (ds.map Char.toUpper) k = natOfHex ds k := by
    intro ds
    induction ds with
    | nil => exact fun _ _ => rfl
    | cons c ds ih =>
        intro k h
        obtain ⟨d, hd, rfl⟩ := h c List.mem_cons_self
        have ih := fun k => ih k fun e he => h e (List.mem_cons_of_mem _ he)
        simp only [natOfHex] at ih
        simp only [natOfHex, List.map_cons, List.foldl_cons, digitValue?_toUpper hd,
          digitValue?_hexDigit hd, ih]
  rw [capitalHex, hmap _ _ fun c hc => mem_hexDigits hc, natOfHex_hexDigits]

section

variable (q : Quote) (p : Position) {c : Char} (cs : List Char)

theorem readDouble_capitalHex {mark : Char} {n : Nat} (hmark : escaped? mark = none)
    (hlen : codeLength? mark = some (n + 1)) (hc : c.toNat < 16 ^ (n + 1)) :
    readDouble (.outside q) (place p ('\\' :: mark :: capitalHex (n + 1) c.toNat ++ cs))
      = prependText (q.text ++ [c]) (readDouble (.outside (.blanks []))
          (place (p.afterAll ('\\' :: mark :: capitalHex (n + 1) c.toNat)) cs)) := by
  have hlength : (capitalHex (n + 1) c.toNat).length = n + 1 := by
    rw [capitalHex, List.length_map, length_hexDigits]
  refine readDouble_code q p cs hmark (by rw [hlength]; exact hlen)
    (List.ne_nil_of_length_pos (by omega)) (fun d hd => ?_)
    (by rw [natOfHex_capitalHex, Nat.mod_eq_of_lt hc])
  obtain ⟨e, he, rfl⟩ := List.mem_map.1 hd
  obtain ⟨k, hk, rfl⟩ := mem_hexDigits he
  rw [digitValue?_toUpper hk]
  rfl

/-- An escape is read as the character. -/
theorem readDouble_escape :
    readDouble (.outside q) (place p (escape c ++ cs))
      = prependText (q.text ++ [c])
          (readDouble (.outside (.blanks [])) (place (p.afterAll (escape c)) cs)) := by
  unfold escape
  split
  · rename_i letter h
    exact readDouble_letter q p cs (escaped?_of_escapeLetter? h)
  · split
    · exact @readDouble_capitalHex q p c cs 'x' 1 rfl rfl (by omega)
    · split
      · exact @readDouble_capitalHex q p c cs 'u' 3 rfl rfl (by omega)
      · have hmax : c.toNat < 16 ^ 8 := Nat.lt_of_lt_of_le c.val.toNat_lt (by decide)
        exact @readDouble_capitalHex q p c cs 'U' 7 rfl rfl hmax

variable {q}

theorem readDouble_spaces (hq : q.blank ' ' = q) (n : Nat) :
    readDouble (.outside q) (place p (spaces n ++ cs))
      = readDouble (.outside q) (place (p.afterAll (spaces n)) cs) := by
  induction n generalizing p with
  | zero => rfl
  | succ n ih =>
      rw [spaces, List.replicate_succ, List.cons_append, readDouble_blank, hq]
      exact ih (p.after ' ')

variable (q)

/-- A hidden line break stands for nothing. -/
theorem readDouble_hidden {indent : Nat} (hindent : 0 < indent) :
    readDouble (.outside q) (place p ('\\' :: newLine indent ++ cs))
      = prependText q.text (readDouble (.outside (.joined []))
          (place (p.afterAll ('\\' :: newLine indent)) cs)) := by
  have hbreak : isBreak '\n' = true := by decide
  have hescaped : escaped? '\n' = none := rfl
  have hlength : codeLength? '\n' = none := rfl
  have hspaces := @readDouble_spaces (.joined []) ((p.after '\\').after '\n') cs rfl indent
  rw [List.cons_append, readDouble_backslash, newLine, List.cons_append, place, readDouble]
  simp only [hescaped, hlength, hbreak, atMarker_spaces hindent, Bool.not_false, Bool.and_self,
    if_true, hspaces]
  rfl

end

/-- Whether no blank of a text whose further lines are indented by `indent` loses its escape: a line
break after an escape comes before a blank only if the line is not too long at its start. -/
def keepsBlanks (indent : Nat) (cs : List Char) : Bool :=
  indent < width || !hasNeighbours (!isBare ·) isSpace cs

theorem standsBare_of_isBare {c : Char} (h : isBare c = true) (hspace : c ≠ ' ') :
    standsBare c = true := by
  simp only [isBare, Bool.and_eq_true, Bool.not_eq_true', Bool.or_eq_false_iff,
    decide_eq_false_iff_not, Bool.or_eq_true, decide_eq_true_eq] at h
  obtain ⟨⟨⟨⟨hquote, hslash⟩, -⟩, hbreak⟩, hrange⟩ := h
  have htab : c ≠ '\t' := by
    rintro rfl
    revert hrange
    decide
  simp [standsBare, isGap, isBlank, hbreak, hspace, htab, hquote, hslash]

/-- Whether what has been read since the last character goes with the rest of a text in double
quotes. -/
def Quote.Double : Quote → List Char → Prop
  | .blanks _, _ => True
  | .lines .., _ => False
  | .joined more, cs => more = [] ∧ cs.head? ≠ some ' '

/-- Whether what is written in double quotes for `cs`, before `rest`, is read as `cs`. -/
structure ReadsDouble (split : Bool) (indent : Nat) (rest cs : List Char) : Prop where
  /-- Outside of escapes. -/
  outside : ∀ (q : Quote) (column : Nat) (first fresh : Bool) (p : Position), q.Double cs →
    readDouble (.outside q) (place p (doubleText split indent column first fresh cs ++ '"' :: rest))
      = some (q.text ++ cs,
          place ((p.afterAll (doubleText split indent column first fresh cs)).after '"') rest)
  /-- After a backslash, which turns a blank into an escape. -/
  backslash : ∀ (column : Nat) (fresh : Bool) (p : Position), cs.head? = some ' ' → column ≤ width →
    readDouble .backslash (place p (doubleText split indent column false fresh cs ++ '"' :: rest))
      = some (cs,
          place ((p.afterAll (doubleText split indent column false fresh cs)).after '"') rest)

namespace ReadsDouble

variable {split : Bool} {indent : Nat} {rest cs : List Char} {c : Char}

theorem nil : ReadsDouble split indent rest [] where
  outside q column first fresh p _ := by
    rw [doubleText, List.nil_append, readDouble_close, List.append_nil]
    rfl
  backslash column fresh p h := by cases h

section

variable (h : ReadsDouble split indent rest cs)

include h

/-- A character that stands for itself. -/
theorem bare (hbare : isBare c = true) {q : Quote} (hq : q.Double (c :: cs)) (column : Nat)
    (p : Position) :
    readDouble (.outside q)
        (place p (c :: (doubleText split indent column false false cs ++ '"' :: rest)))
      = some (q.text ++ c :: cs, place
          (((p.after c).afterAll (doubleText split indent column false false cs)).after '"') rest) := by
  by_cases hspace : c = ' '
  · subst hspace
    cases q with
    | blanks bs =>
        rw [readDouble_blank, show Quote.blank ' ' (.blanks bs) = .blanks (bs ++ [' ']) from rfl,
          h.outside (.blanks _) _ _ _ _ trivial]
        simp [Quote.text]
    | lines _ _ => exact hq.elim
    | joined _ => exact absurd rfl hq.2
  · rw [readDouble_bare _ _ _ (standsBare_of_isBare hbare hspace),
      h.outside (.blanks []) _ _ _ _ trivial]
    simp [prependText, Quote.text]

/-- A blank after a backslash. -/
theorem escapedBlank (column : Nat) (p : Position) :
    readDouble .backslash
        (place p (' ' :: (doubleText split indent column false false cs ++ '"' :: rest)))
      = some (' ' :: cs, place
          (((p.after ' ').afterAll (doubleText split indent column false false cs)).after '"') rest) := by
  have hescaped : escaped? ' ' = some ' ' := rfl
  rw [place, readDouble]
  simp only [hescaped]
  rw [h.outside (.blanks []) _ _ _ _ trivial]
  simp [prependText, Quote.text]

/-- A character that stands for itself, after a hidden line break. -/
theorem hidden (hindent : 0 < indent) (hbare : isBare c = true) (q : Quote) (column : Nat)
    (p : Position) :
    readDouble (.outside q) (place p (hiddenBreak indent (some c)
        ++ c :: (doubleText split indent column false false cs ++ '"' :: rest)))
      = some (q.text ++ c :: cs, place (((p.afterAll (hiddenBreak indent (some c))).after c).afterAll
          (doubleText split indent column false false cs) |>.after '"') rest) := by
  rw [hiddenBreak, List.append_assoc, readDouble_hidden _ _ _ hindent]
  by_cases hspace : c = ' '
  · subst hspace
    rw [if_pos rfl, List.singleton_append, readDouble_backslash, h.escapedBlank]
    simp [prependText, Quote.text, Position.afterAll]
  · have hjoined : (Quote.joined []).Double (c :: cs) := ⟨rfl, by simpa using hspace⟩
    rw [if_neg (by simpa using hspace), List.nil_append, h.bare hbare hjoined]
    simp [prependText, Quote.text]

/-- A character that is escaped, and a hidden line break after it. -/
theorem escape (hindent : 0 < indent) (hblank : indent < width ∨ cs.head? ≠ some ' ') (q : Quote)
    (p : Position) :
    readDouble (.outside q) (place p (Yaml.escape c ++ (hiddenBreak indent cs.head?
        ++ (doubleText split indent (columnAfterBreak indent cs.head?) false true cs ++ '"' :: rest))))
      = some (q.text ++ c :: cs, place (((p.afterAll (Yaml.escape c)).afterAll
          (hiddenBreak indent cs.head?)).afterAll
            (doubleText split indent (columnAfterBreak indent cs.head?) false true cs)
              |>.after '"') rest) := by
  rw [readDouble_escape, hiddenBreak, List.append_assoc, readDouble_hidden _ _ _ hindent]
  by_cases hhead : cs.head? = some ' '
  · -- the blank keeps its own escape, since no further line break comes before it
    have hcolumn : columnAfterBreak indent cs.head? ≤ width := by
      rw [columnAfterBreak, if_pos hhead]
      exact hblank.elim id (absurd hhead)
    rw [if_pos hhead, List.singleton_append, readDouble_backslash,
      h.backslash _ _ _ hhead hcolumn]
    simp [prependText, Quote.text, Position.afterAll]
  · rw [if_neg hhead, List.nil_append, h.outside (.joined []) _ _ _ _ ⟨rfl, hhead⟩]
    simp [prependText, Quote.text]

/-- One more character. -/
theorem cons (hindent : 0 < indent)
    (hblank : indent < width ∨ (isBare c = false → cs.head? ≠ some ' ')) :
    ReadsDouble split indent rest (c :: cs) where
  outside q column first fresh p hq := by
    rw [doubleText]
    dsimp only
    split
    · rename_i hbare
      split
      · rw [List.append_assoc, List.cons_append, h.hidden hindent hbare, afterAll_append]
        rfl
      · exact h.bare hbare hq (column + 1) p
    · rename_i hbare
      split
      · have hblank : indent < width ∨ cs.head? ≠ some ' ' :=
          hblank.imp_right fun hnot => hnot (by simpa using hbare)
        rw [List.append_assoc, List.append_assoc, h.escape hindent hblank, afterAll_append,
          afterAll_append]
      · rw [List.append_assoc, readDouble_escape, h.outside (.blanks []) _ _ _ _ trivial]
        simp [prependText, Quote.text, Position.afterAll]
  backslash column fresh p hhead hcolumn := by
    obtain rfl : c = ' ' := Option.some.inj hhead
    have hbare : isBare ' ' = true := by decide
    have hfits : ¬ width < column := Nat.not_lt.2 hcolumn
    rw [doubleText]
    simp only [hbare, if_true, hfits, decide_false, Bool.and_false, Bool.false_eq_true, if_false]
    exact h.escapedBlank (column + 1) p

end

end ReadsDouble

/-- **A text in double quotes is read back.** -/
theorem readsDouble {split : Bool} {indent : Nat} (hindent : 0 < indent) {cs : List Char}
    (hcs : keepsBlanks indent cs = true) (rest : List Char) : ReadsDouble split indent rest cs := by
  induction cs with
  | nil => exact .nil
  | cons c cs ih =>
      obtain ⟨hblank, hkept⟩ : (indent < width ∨ (isBare c = false → cs.head? ≠ some ' ')) ∧
          keepsBlanks indent cs = true := by
        simp only [keepsBlanks, Bool.or_eq_true, decide_eq_true_eq, Bool.not_eq_true'] at hcs ⊢
        rcases hcs with h | h
        · exact ⟨.inl h, .inl h⟩
        · obtain ⟨h₁, h₂⟩ := hasNeighbours_cons h
          refine ⟨.inr fun hbare heq => ?_, .inr h₂⟩
          have hnot := h₁ (by rw [hbare]; rfl)
          rw [heq] at hnot
          revert hnot
          decide
      exact (ih hkept).cons hindent hblank

/-! ### Without quotes -/

/-- A text and what is written for it: some lone blanks are turned into line breaks. -/
inductive Folded (indent : Nat) : List Char → List Char → Prop
  /-- The end. -/
  | nil : Folded indent [] []
  /-- A character. -/
  | char {c : Char} {cs ds : List Char} (hc : c ≠ ' ') (h : Folded indent cs ds) :
    Folded indent (c :: cs) (c :: ds)
  /-- Blanks that stay. -/
  | blanks (n : Nat) {c : Char} {cs ds : List Char} (hc : c ≠ ' ')
      (h : Folded indent (c :: cs) (c :: ds)) :
    Folded indent (spaces (n + 1) ++ c :: cs) (spaces (n + 1) ++ c :: ds)
  /-- A blank that becomes a line break. -/
  | fold {c : Char} {cs ds : List Char} (hc : c ≠ ' ') (h : Folded indent (c :: cs) (c :: ds)) :
    Folded indent (' ' :: c :: cs) (newLine indent ++ c :: ds)

theorem Folded.tail {indent : Nat} {c : Char} {cs ds : List Char} (hc : c ≠ ' ')
    (h : Folded indent (c :: cs) (c :: ds)) : Folded indent cs ds := by
  generalize hcs : c :: cs = text at h
  generalize hds : c :: ds = written at h
  cases h with
  | nil => cases hcs
  | char _ h =>
      cases hcs
      cases hds
      exact h
  | blanks n _ _ => exact absurd (List.cons.inj hcs).1 hc
  | fold _ _ => exact absurd (List.cons.inj hcs).1 hc

theorem Folded.length_le {indent : Nat} {cs ds : List Char} (h : Folded indent cs ds) :
    cs.length ≤ ds.length := by
  induction h with
  | nil => exact Nat.le_refl 0
  | char _ _ ih => exact Nat.succ_le_succ ih
  | blanks n _ _ ih =>
      rw [List.length_append, List.length_append]
      exact Nat.add_le_add_left ih _
  | fold _ _ ih =>
      refine Nat.succ_le_succ (Nat.le_trans ih ?_)
      rw [List.append_eq, List.length_append]
      omega

theorem spaces_succ (n : Nat) : spaces (n + 1) = ' ' :: spaces n := rfl

theorem exists_spaces {cs : List Char} (hne : cs ≠ []) (hlast : cs.getLast? ≠ some ' ') :
    ∃ n c rest, cs = spaces n ++ c :: rest ∧ c ≠ ' ' := by
  induction cs with
  | nil => exact absurd rfl hne
  | cons d cs ih =>
      by_cases hd : d = ' '
      · subst hd
        cases cs with
        | nil => exact absurd rfl hlast
        | cons e es =>
            rw [List.getLast?_cons_cons] at hlast
            obtain ⟨n, c, rest, heq, hc⟩ := ih (by simp) hlast
            exact ⟨n + 1, c, rest, by rw [heq]; rfl, hc⟩
      · exact ⟨0, d, cs, rfl, hd⟩

section

variable {split : Bool} {indent column : Nat} {previous : Option Char} {c : Char} {cs : List Char}

theorem plainText_char (hc : c ≠ ' ') :
    plainText split indent column previous (c :: cs)
      = c :: plainText split indent (column + 1) (some c) cs := by
  rw [plainText, if_neg]
  exact fun h => hc (of_breaksAt h).1

/-- Blanks after a blank stay. -/
theorem plainText_spaces (n : Nat) :
    plainText split indent column (some ' ') (spaces n ++ c :: cs)
      = spaces n ++ plainText split indent (column + n) (some ' ') (c :: cs) := by
  induction n generalizing column with
  | zero => rfl
  | succ n ih =>
      have hkept : ¬ (split && breaksAt column (some ' ') ' ' (spaces n ++ c :: cs)) = true := by
        intro h
        obtain ⟨-, ⟨d, hd, hne⟩, -⟩ := of_breaksAt h
        cases hd
        exact hne rfl
      rw [spaces_succ, List.cons_append, plainText, if_neg hkept, ih, Nat.add_right_comm,
        Nat.add_assoc, List.cons_append]

/-- The writer folds. -/
theorem folded_plainText (hlast : cs.getLast? ≠ some ' ') :
    Folded indent cs (plainText split indent column previous cs) := by
  -- blanks are taken up to the next other character, so the induction is on the length
  induction h : cs.length using Nat.strongRecOn generalizing cs column previous with
  | ind length ih =>
      subst h
      cases cs with
      | nil => exact .nil
      | cons c cs =>
          by_cases hc : c = ' '
          · subst hc
            have hne : cs ≠ [] := by
              rintro rfl
              exact hlast rfl
            obtain ⟨d, ds, hcons⟩ := List.exists_cons_of_ne_nil hne
            rw [hcons, List.getLast?_cons_cons, ← hcons] at hlast
            obtain ⟨n, e, rest, rfl, he⟩ := exists_spaces hne hlast
            have hlast' : (e :: rest).getLast? ≠ some ' ' := by
              rwa [List.getLast?_append, List.getLast?_cons, Option.some_or, ← List.getLast?_cons] at hlast
            have hlen : (e :: rest).length < (' ' :: (spaces n ++ e :: rest)).length := by
              rw [List.length_cons, List.length_cons, List.length_append, List.length_cons]
              omega
            have hrest := fun column => @ih _ hlen column (some ' ') (e :: rest) hlast' rfl
            simp only [plainText_char he] at hrest
            rw [plainText]
            split
            · rename_i hbreaks
              -- only a lone blank is turned into a line break
              obtain ⟨-, -, f, hf, hne⟩ := of_breaksAt hbreaks
              cases n with
              | zero =>
                  rw [spaces, List.replicate_zero, List.nil_append, plainText_char he]
                  exact .fold he (hrest _)
              | succ n =>
                  cases hf
                  exact absurd rfl hne
            · rw [plainText_spaces, plainText_char he]
              exact .blanks n he (hrest _)
          · rw [plainText_char hc]
            refine .char hc (ih cs.length (Nat.lt_succ_self _) ?_ rfl)
            cases cs with
            | nil => simp
            | cons d ds => rwa [List.getLast?_cons_cons] at hlast

end

/-- A text that a line may start with: neither a gap nor a comment, nor the mark of a document. -/
def StartsLine (cs : List Char) : Prop :=
  startsToken cs = true ∧ ∀ p, atMarker (place p cs) = false

/-- What follows a text in a block: the colon after a key, or a line that is indented by less than
`inner`. -/
inductive EndsText (inner : Nat) : List Char → List Char → Prop
  /-- A colon. -/
  | colon {rest : List Char} (h : endsHere rest = true) : EndsText inner [] (':' :: rest)
  /-- A further line, or the end of the text. -/
  | line {k : Nat} (hk : k < inner) {next : List Char} (h : StartsLine next) :
    EndsText inner (newLine k) next

theorem endsWord_place (p : Position) (cs : List Char) : endsWord (place p cs) = endsHere cs := by
  cases cs <;> rfl

theorem column_spaces (p : Position) (n : Nat) :
    (p.afterAll (spaces n)).column = p.column + n := by
  induction n generalizing p with
  | zero => rfl
  | succ n ih =>
      rw [spaces_succ, afterAll_cons, ih]
      have h : (p.after ' ').column = p.column + 1 := rfl
      omega

theorem column_newLine (p : Position) (n : Nat) : (p.afterAll (newLine n)).column = n := by
  rw [newLine, afterAll_cons, column_spaces]
  have h : (p.after '\n').column = 0 := rfl
  omega

theorem emptyLines_spaces (n : Nat) {cs : List Char} (h : startsToken cs = true) (p : Position) :
    emptyLines (place p (spaces n ++ cs)) = (some [], place (p.afterAll (spaces n)) cs) := by
  induction n generalizing p with
  | zero =>
      cases cs with
      | nil => rfl
      | cons c cs =>
          simp only [startsToken, Bool.not_eq_true', Bool.or_eq_false_iff,
            decide_eq_false_iff_not] at h
          simp [spaces, place, emptyLines, h.1.1, h.2, Position.afterAll]
  | succ n ih =>
      rw [spaces_succ, List.cons_append, place, emptyLines, if_pos rfl, ih]
      rfl

/-- A line break without an empty line after it. -/
theorem plainGap_newLine (n : Nat) {cs : List Char} (hstart : startsToken cs = true)
    (hmarker : ∀ p, atMarker (place p (spaces n ++ cs)) = false) (p : Position) :
    plainGap (place p (newLine n ++ cs)) = ⟨[' '], true, place (p.afterAll (newLine n)) cs⟩ := by
  have hrun : ∀ more, takeRun (· = ' ') (place p ('\n' :: more)) = ([], place p ('\n' :: more)) :=
    fun _ => rfl
  have hbreak : isBreak '\n' = true := by decide
  rw [newLine, List.cons_append, plainGap, hrun]
  simp only [place, hbreak, if_true, hmarker, Bool.false_eq_true, if_false,
    emptyLines_spaces n hstart]
  rfl

theorem takeRun_spaces (n : Nat) {c : Char} (hc : c ≠ ' ') (cs : List Char) (p : Position) :
    takeRun (· = ' ') (place p (spaces n ++ c :: cs))
      = (spaces n, place (p.afterAll (spaces n)) (c :: cs)) := by
  induction n generalizing p with
  | zero => simp [spaces, place, takeRun, hc, Position.afterAll]
  | succ n ih =>
      rw [spaces_succ, List.cons_append, place, takeRun, if_pos (by simp), ih]
      rfl

theorem plainGap_spaces (n : Nat) {c : Char} (hc : isGap c = false) (cs : List Char) (p : Position) :
    plainGap (place p (spaces n ++ c :: cs))
      = ⟨spaces n, false, place (p.afterAll (spaces n)) (c :: cs)⟩ := by
  rw [isGap, Bool.or_eq_false_iff, isBlank, Bool.or_eq_false_iff, decide_eq_false_iff_not] at hc
  rw [plainGap, takeRun_spaces n hc.1.1]
  simp only [place, hc.2, Bool.false_eq_true, if_false]

/-- A character of a plain text. -/
theorem readPlain_cons {inFlow : Bool} {inner fuel : Nat} {s : Spot} {rest : List Spot}
    (h : endsPlain inFlow s.char rest = false) :
    readPlain inFlow inner (fuel + 1) (s :: rest)
      = { readPlain inFlow inner (fuel + 1) rest with
          text := s.char :: (readPlain inFlow inner (fuel + 1) rest).text } := by
  rw [readPlain, plainRun, if_neg (by rw [h]; decide), readPlain]
  dsimp only
  split <;> simp

/-- A gap inside a plain text. -/
theorem readPlain_gap {inner fuel : Nat} {spots rest : List Spot} {text : List Char} {newLine : Bool}
    (hrun : plainRun false spots = ([], spots)) (hgap : plainGap spots = ⟨text, newLine, rest⟩)
    (hne : text ≠ []) (hcontinues : continuesPlain false inner rest = true) :
    readPlain false inner (fuel + 1) spots
      = { readPlain false inner fuel rest with
          text := text ++ (readPlain false inner fuel rest).text } := by
  have hempty : text.isEmpty = false := List.isEmpty_eq_false_iff.2 hne
  rw [readPlain, hrun]
  simp only [hgap, hempty, hcontinues, Bool.not_false, Bool.and_self, if_true, List.nil_append]

/-- The end of a plain text. -/
theorem readPlain_end {inner fuel : Nat} {gap rest : List Char} (h : EndsText inner gap rest)
    (p : Position) :
    readPlain false inner (fuel + 1) (place p (gap ++ rest))
      = ⟨[], gap.any isBreak, place (p.afterAll gap) rest⟩ := by
  cases h with
  | @colon rest h =>
      have hrun : plainRun false (place p (':' :: rest)) = ([], place p (':' :: rest)) := by
        rw [place, plainRun, if_pos]
        simp [endsPlain, endsWord_place, h]
      have hgap := @plainGap_spaces 0 ':' rfl rest p
      rw [spaces, List.replicate_zero, List.nil_append] at hgap
      rw [List.nil_append, readPlain, hrun]
      simp only [hgap]
      rfl
  | @line k hk next h =>
      have hmarker : ∀ p, atMarker (place p (spaces k ++ rest)) = false := by
        intro p
        cases k with
        | zero => exact h.2 p
        | succ k => exact atMarker_spaces (Nat.succ_pos k) _ _
      have hrun : plainRun false (place p (newLine k ++ rest)) = ([], place p (newLine k ++ rest)) :=
        rfl
      have hcontinues : continuesPlain false inner (place (p.afterAll (newLine k)) rest) = false := by
        cases rest with
        | nil => rfl
        | cons c cs =>
            have hcolumn : ¬ inner ≤ (p.afterAll (newLine k)).column := by
              rw [column_newLine]
              omega
            simp [place, continuesPlain, hcolumn]
      rw [readPlain, hrun]
      simp only [plainGap_newLine k h.1 hmarker, hcontinues, Bool.and_false, Bool.false_eq_true,
        if_false]
      rfl

theorem column_after {c : Char} (hbreak : isBreak c = false) (hescape : needsEscape c = false)
    (p : Position) : (p.after c).column = p.column + 1 := by
  have hmark : c ≠ byteOrderMark := by
    rintro rfl
    exact absurd hescape (by decide)
  rw [Position.after, if_neg (by rw [hbreak]; decide), if_neg hmark]

theorem endsWord_folded {indent : Nat} {cs ds : List Char} (h : Folded indent cs ds)
    (hends : endsHere cs = false) (p : Position) (rest : List Char) :
    endsWord (place p (ds ++ rest)) = false := by
  cases h with
  | nil => cases hends
  | char _ _ => exact hends
  | blanks n _ _ => cases hends
  | fold _ _ => cases hends

/-- In a folded text too, a colon does not end a word. -/
theorem endsPlain_folded {indent : Nat} {c : Char} {cs ds : List Char} (h : Folded indent cs ds)
    (hgap : isGap c = false) (hcolon : (c = ':' && endsHere cs) = false) (p : Position)
    (more : List Char) : endsPlain false c (place p (ds ++ more)) = false := by
  by_cases hc : c = ':'
  · have hends : endsHere cs = false := by simpa [hc] using hcolon
    simp [endsPlain, hgap, endsWord_folded h hends]
  · simp [endsPlain, hgap, hc]

theorem holdsMark_spaces {previous : Char} {n : Nat} {cs : List Char}
    (h : holdsMark previous (spaces (n + 1) ++ cs) = false) : holdsMark ' ' cs = false := by
  induction n generalizing previous with
  | zero => exact (Bool.or_eq_false_iff.1 h).2
  | succ n ih =>
      rw [spaces_succ, List.cons_append, holdsMark, Bool.or_eq_false_iff] at h
      exact ih h.2

/-- After a gap, what holds no mark of its own continues the text. -/
theorem continuesPlain_folded {indent inner : Nat} {c : Char} {cs ds : List Char}
    (h : Folded indent cs ds) (hchar : needsEscape c = false ∧ isBreak c = false) (hc : c ≠ ' ')
    (hmarks : holdsMark ' ' (c :: cs) = false) {p : Position} (hp : inner ≤ p.column)
    (more : List Char) : continuesPlain false inner (place p (c :: (ds ++ more))) = true := by
  rw [holdsMark, Bool.or_eq_false_iff, Bool.or_eq_false_iff] at hmarks
  have hhash : c ≠ '#' := by
    rintro rfl
    exact absurd hmarks.1.2 (by decide)
  have hends := endsPlain_folded h (isGap_eq_false hchar.2 hc hchar.1) hmarks.1.1 (p.after c) more
  simp [place, continuesPlain, hhash, hp, hends]

/-- A folded text is read as the text. -/
theorem readPlain_folded {indent inner : Nat} (hinner : inner ≤ indent) (hindent : 0 < indent)
    {cs ds : List Char} (h : Folded indent cs ds) {previous : Char}
    (hmarks : holdsMark previous cs = false)
    (hchars : ∀ c ∈ cs, needsEscape c = false ∧ isBreak c = false) {gap rest : List Char}
    (hend : EndsText inner gap rest) {fuel : Nat} (hfuel : cs.length < fuel) {p : Position}
    (hp : inner ≤ p.column + 1) :
    readPlain false inner fuel (place p (ds ++ (gap ++ rest)))
      = ⟨cs, gap.any isBreak, place (p.afterAll (ds ++ gap)) rest⟩ := by
  induction h generalizing previous fuel p with
  | nil =>
      obtain ⟨fuel, rfl⟩ : ∃ k, fuel = k + 1 := ⟨fuel - 1, by omega⟩
      exact readPlain_end hend p
  | @char c cs ds hc h ih =>
      obtain ⟨fuel, rfl⟩ : ∃ k, fuel = k + 1 := ⟨fuel - 1, by omega⟩
      have hchar := hchars c List.mem_cons_self
      rw [holdsMark, Bool.or_eq_false_iff, Bool.or_eq_false_iff] at hmarks
      have hcolumn := column_after hchar.2 hchar.1 p
      have ih := @ih c hmarks.2 (fun d hd => hchars d (List.mem_cons_of_mem c hd)) (fuel + 1)
        (by rw [List.length_cons] at hfuel; omega) (p.after c) (by omega)
      rw [List.cons_append, place, readPlain_cons
        (endsPlain_folded h (isGap_eq_false hchar.2 hc hchar.1) hmarks.1.1 _ _), ih]
      rfl
  | @blanks n c cs ds hc h ih =>
      obtain ⟨fuel, rfl⟩ : ∃ k, fuel = k + 1 := ⟨fuel - 1, by omega⟩
      have hchars := fun d hd => hchars d (List.mem_append_right (spaces (n + 1)) hd)
      have hchar := hchars c List.mem_cons_self
      have hmarks := holdsMark_spaces hmarks
      have hcolumn := column_spaces p (n + 1)
      have hgap : plainGap (place p (spaces (n + 1) ++ c :: (ds ++ (gap ++ rest)))) = _ :=
        plainGap_spaces (n + 1) (isGap_eq_false hchar.2 hc hchar.1) _ _
      have hread := @readPlain_gap inner fuel _ _ _ _ rfl hgap (by simp [spaces_succ])
        (continuesPlain_folded (h.tail hc) hchar hc hmarks (by omega) _)
      have ih := @ih ' ' hmarks hchars fuel
        (by rw [List.length_append, spaces, List.length_replicate] at hfuel; omega)
        (p.afterAll (spaces (n + 1))) (by omega)
      rw [List.cons_append] at ih
      rw [List.append_assoc, List.cons_append, hread, ih, List.append_assoc, List.cons_append,
        afterAll_append p]
  | @fold c cs ds hc h ih =>
      obtain ⟨fuel, rfl⟩ : ∃ k, fuel = k + 1 := ⟨fuel - 1, by omega⟩
      have hchars := fun d hd => hchars d (List.mem_cons_of_mem ' ' hd)
      have hchar := hchars c List.mem_cons_self
      rw [holdsMark, Bool.or_eq_false_iff] at hmarks
      have hcolumn := column_newLine p indent
      have hgap' := isGap_eq_false hchar.2 hc hchar.1
      have hstart : startsToken (c :: (ds ++ (gap ++ rest))) = true := by
        have hhash : c ≠ '#' := by
          rintro rfl
          exact absurd (Bool.or_eq_false_iff.1 (Bool.or_eq_false_iff.1 hmarks.2).1).2 (by decide)
        simp [startsToken, hchar.2, hc, hhash]
      have hgap := plainGap_newLine indent hstart (fun p => atMarker_spaces hindent _ p) p
      have hread := @readPlain_gap inner fuel _ _ _ _ rfl hgap (by simp)
        (continuesPlain_folded (h.tail hc) hchar hc hmarks.2 (by omega) _)
      have ih := @ih ' ' hmarks.2 hchars fuel (by rw [List.length_cons] at hfuel; omega)
        (p.afterAll (newLine indent)) (by omega)
      rw [List.cons_append] at ih
      rw [List.append_assoc, List.cons_append, hread, ih, List.append_assoc, List.cons_append,
        afterAll_append p]
      rfl

end ApiScribe.Yaml
