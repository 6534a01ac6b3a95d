/-
**The lexer in blocks of lines.**

A line of a block starts in the column of the block.  The first line starts the block, unless the
block around it is indented as far; the line after the last one ends it, since that line is indented
less.  So a run is followed from the start of a line to the start of a further line.  What a line adds
to the state is compared with the state in which the block has been started: for a key without a mark
the lexer notes only at the colon that a block starts, and puts the tokens in front of the key.

Main definitions:

* `ApiScribe.Yaml.Lexing.Completes` — the run up to a further line adds tokens;
* `ApiScribe.Yaml.Lexing.Line` — a line of a block, or several, with their tokens;
* `ApiScribe.Yaml.Lexing.Follows` — what follows a key or a mark in a line, with its tokens.

Main results:

* `ApiScribe.Yaml.Lexing.Follows.entry`, `ApiScribe.Yaml.Lexing.Follows.simpleKey`,
  `ApiScribe.Yaml.Lexing.Follows.explicitKey` — **the three kinds of lines**;
* `ApiScribe.Yaml.Lexing.Line.append` — lines after lines;
* `ApiScribe.Yaml.Lexing.Line.nested` — a block inside a block.
-/

import ApiScribe.Proofs.Yaml.Flow
import ApiScribe.Proofs.Yaml.Scalar

set_option autoImplicit false

namespace ApiScribe.Yaml

/-! ### Places -/

theorem line_le_after (p : Position) (c : Char) : p.line ≤ (p.after c).line := by
  unfold Position.after
  split
  · exact Nat.le_succ _
  · split <;> exact Nat.le_refl _

theorem line_le_afterAll (p : Position) (cs : List Char) : p.line ≤ (p.afterAll cs).line := by
  induction cs generalizing p with
  | nil => exact Nat.le_refl _
  | cons c cs ih => exact (line_le_after p c).trans (ih (p.after c))

/-- After a line break the line is another one. -/
theorem line_lt_newLine (p : Position) (cs : List Char) (indent : Nat) :
    p.line < (p.afterAll (cs ++ newLine indent)).line := by
  rw [afterAll_append, newLine, afterAll_cons]
  exact (line_le_afterAll p cs).trans_lt
    ((Nat.lt_succ_self _).trans_le (line_le_afterAll ((p.afterAll cs).after '\n') _))

theorem column_le_afterAll {p : Position} {cs : List Char} (h : ∀ c ∈ cs, isBreak c = false) :
    p.column ≤ (p.afterAll cs).column := by
  induction cs generalizing p with
  | nil => exact Nat.le_refl _
  | cons c cs ih =>
      have hle : p.column ≤ (p.after c).column := by
        rw [Position.after, if_neg (by simp [h c List.mem_cons_self])]
        split
        · exact Nat.le_refl _
        · exact Nat.le_succ _
      exact hle.trans (ih fun d hd => h d (List.mem_cons_of_mem c hd))

/-- A written text starts a line. -/
theorem startsLine_writeText {split : Bool} {indent column inner : Nat} {cs gap rest : List Char}
    (hend : EndsText inner gap rest) :
    StartsLine (writeText split indent column cs ++ (gap ++ rest)) := by
  unfold writeText
  cases hstyle : Style.ofText cs with
  | plain =>
      obtain ⟨htag, hfits⟩ := of_style_plain hstyle
      cases cs with
      | nil => cases htag
      | cons c cs =>
          have hfits := fitsPlain_cons hfits
          have hfolded : Folded indent (c :: cs) (plainText split indent column none (c :: cs)) :=
            folded_plainText hfits.last
          refine ⟨?_, fun p => hfits.atMarker hfolded hend p⟩
          dsimp only
          rw [plainText_char hfits.first]
          exact hfits.startsToken _
  | single => exact ⟨rfl, fun p => atMarker_eq_false (by decide) (by decide)⟩
  | double => exact ⟨rfl, fun p => atMarker_eq_false (by decide) (by decide)⟩

namespace Lexing

/-! ### The ends of blocks -/

@[simp] theorem inFlow_endBlocks (st : Lexing) (ends : Nat → Bool) :
    (st.endBlocks ends).inFlow = st.inFlow := by
  unfold Lexing.endBlocks
  split <;> rfl

/-- Blocks that would be ended anyway may be ended before. -/
theorem endBlocks_endBlocks (st : Lexing) {ends ends' : Nat → Bool}
    (h : ∀ i, ends i = true → ends' i = true) :
    (st.endBlocks ends).endBlocks ends' = st.endBlocks ends' := by
  cases hflow : st.inFlow with
  | true => simp [Lexing.endBlocks, hflow]
  | false =>
      have hall : ∀ is : List Nat, (is.takeWhile ends').length
          = (is.takeWhile ends).length + ((is.dropWhile ends).takeWhile ends').length ∧
          (is.dropWhile ends).dropWhile ends' = is.dropWhile ends' := by
        intro is
        induction is with
        | nil => exact ⟨rfl, rfl⟩
        | cons i is ih =>
            cases hi : ends i with
            | true => simp [hi, h i hi, ih.1, ih.2, Nat.add_right_comm]
            | false => simp [hi]
      obtain ⟨htake, hdrop⟩ := hall st.indents
      have hflow' : (st.endBlocks ends).inFlow = false := by rw [inFlow_endBlocks, hflow]
      rw [Lexing.endBlocks, hflow']
      unfold Lexing.endBlocks
      simp only [hflow, Bool.false_eq_true, if_false, hdrop, List.map_const', htake, Nat.add_assoc,
        ← List.append_assoc, List.replicate_append_replicate]
      rw [Nat.add_comm ((st.indents.takeWhile ends).length)]

theorem fresh_endBlocks (st : Lexing) (ends : Nat → Bool) (p : Position) :
    (st.endBlocks ends).fresh p = (st.fresh p).endBlocks ends := by
  unfold Lexing.endBlocks
  rw [inFlow_fresh]
  split <;> rfl

theorem Steady.endBlocks {st : Lexing} (h : st.Steady) (ends : Nat → Bool) :
    (st.endBlocks ends).Steady := by
  unfold Lexing.endBlocks
  split
  · exact h
  · exact ⟨by simp [h.count, Nat.add_comm], h.keyStart, h.outer⟩

/-- Blocks that a line is indented less than may be ended before the line. -/
theorem Steady.leads_endBlocks {st : Lexing} (h : st.Steady) {p : Position} {j : Nat}
    (hp : p.column ≤ j) {next : List Char} (hnext : startsToken next = true) :
    Leads st (place p next) (st.endBlocks (j < ·)) (place p next) := by
  have hends : ∀ l, decide (j < l) = true → decide (p.column < l) = true := by
    intro l hl
    simp only [decide_eq_true_eq] at hl ⊢
    omega
  intro fuel hfuel
  refine ⟨fuel, hfuel, ?_⟩
  cases fuel with
  | zero => rfl
  | succ fuel =>
      rw [readTokens, readTokens, skipGap_of_startsToken hnext]
      cases next with
      | nil =>
          simp only [place, Bool.false_and, Bool.false_eq_true, if_false, finish, endAllBlocks]
          rw [endBlocks_endBlocks st fun _ _ => rfl]
      | cons c cs =>
          simp only [place, Bool.false_and, Bool.false_eq_true, if_false, h.dropStale p,
            (h.endBlocks _).dropStale p, fresh_endBlocks]
          rw [endBlocks_endBlocks (st.fresh p) hends]

/-! ### The starts of blocks -/

/-- What holds of the state at the start of a line, in the column of an open block or further in: a
key may start there. -/
structure AtLine (st : Lexing) (p : Position) : Prop where
  /-- No key is required. -/
  steady : st.Steady
  /-- There are no open brackets. -/
  outer : st.outer = []
  /-- A key may start. -/
  allowed : st.keyAllowed = true
  /-- The line ends no block. -/
  indents : ∀ i ∈ st.indents.head?, i ≤ p.column

/-- What holds of the state inside the line of a block that is indented by `i`. -/
structure InBlock (st : Lexing) (i : Nat) : Prop where
  /-- No key is required. -/
  steady : st.Steady
  /-- There are no open brackets. -/
  outer : st.outer = []
  /-- The innermost block. -/
  indents : st.indents.head? = some i

theorem inFlow_of_outer {st : Lexing} (h : st.outer = []) : st.inFlow = false := by
  rw [inFlow, h]
  rfl

theorem Steady.startBlock {st : Lexing} (h : st.Steady) (i : Nat) (t : Token) :
    (st.startBlock i t).Steady := by
  unfold Lexing.startBlock
  split
  · exact @Steady.push { st with indents := i :: st.indents } ⟨h.count, h.keyStart, h.outer⟩ t
  · exact h

/-- A block that is indented as far as the innermost one is not started again. -/
theorem startBlock_eq_self {st : Lexing} {i : Nat} (h : st.indents.head? = some i) (t : Token) :
    st.startBlock i t = st := by
  rw [Lexing.startBlock, startsBlock, h]
  simp

theorem startBlock_of_lt {st : Lexing} {i : Nat} (h : ∀ j ∈ st.indents.head?, j < i) (t : Token) :
    (st.startBlock i t).tokens = t :: st.tokens ∧ (st.startBlock i t).indents = i :: st.indents := by
  have hstarts : st.startsBlock i = true := by
    unfold startsBlock
    cases hhead : st.indents.head? with
    | none => rfl
    | some j => simpa using h j hhead
  rw [Lexing.startBlock, if_pos hstarts]
  exact ⟨rfl, rfl⟩

theorem head_startBlock {st : Lexing} {i : Nat} (h : ∀ j ∈ st.indents.head?, j ≤ i) (t : Token) :
    (st.startBlock i t).indents.head? = some i := by
  by_cases hlt : ∀ j ∈ st.indents.head?, j < i
  · rw [(startBlock_of_lt hlt t).2]
    rfl
  · obtain ⟨j, hj, hle⟩ : ∃ j ∈ st.indents.head?, i ≤ j := by simpa using hlt
    have hhead : st.indents.head? = some i := by rw [hj, Nat.le_antisymm (h j hj) hle]
    rw [startBlock_eq_self hhead, hhead]

/-- What starting a block adds does not depend on where keys may have started. -/
theorem startBlock_fresh (st : Lexing) (p : Position) (i : Nat) (t : Token) :
    ((st.fresh p).startBlock i t).tokens = (st.startBlock i t).tokens ∧
      ((st.fresh p).startBlock i t).indents = (st.startBlock i t).indents ∧
      ((st.fresh p).startBlock i t).outer = (st.fresh p).outer := by
  unfold Lexing.startBlock startsBlock
  rw [indents_fresh]
  split <;> exact ⟨rfl, rfl, rfl⟩

theorem outer_fresh {st : Lexing} (h : st.outer = []) (p : Position) : (st.fresh p).outer = [] := by
  rw [Lexing.fresh, h]
  rfl

theorem AtLine.fresh {st : Lexing} {p : Position} (h : st.AtLine p) (q : Position) :
    (st.fresh q).AtLine p where
  steady := h.steady.fresh q
  outer := outer_fresh h.outer q
  allowed := h.allowed
  indents := h.indents

theorem InBlock.inside {st : Lexing} {i : Nat} (h : st.InBlock i) {p : Position}
    (hp : i < p.column) : st.Inside p := by
  refine .inr fun j hj => ?_
  rw [h.indents] at hj
  cases hj
  exact hp

/-! ### From line to line -/

/-- The run over `cs` and the line break after it adds tokens to the state `base`, and a key may
start after it. -/
def Completes (st : Lexing) (p : Position) (cs : List Char) (k : Nat) (next : List Char)
    (base : Lexing) (ts : List Token) : Prop :=
  ∃ st', Leads st (place p (cs ++ (newLine k ++ next))) st'
      (place (p.afterAll (cs ++ newLine k)) next) ∧
    base.Adds st' ts ∧ st'.outer = [] ∧ st'.keyAllowed = true

/-- Lines of a block that is indented by `i` and starts with the token `t`: the run over them adds
their tokens to the state in which the block has been started. -/
structure Line (i : Nat) (t : Token) (cs : List Char) (ts : List Token) : Prop where
  /-- Their characters. -/
  clean : ∀ c ∈ cs, isClean c = true
  /-- They start a line. -/
  starts : ∀ k next, StartsLine (cs ++ (newLine k ++ next))
  /-- The run over them. -/
  run : ∀ (st : Lexing) (p : Position) (k : Nat) (next : List Char), st.AtLine p → p.column = i →
    k ≤ i → StartsLine next → st.Completes p cs k next (st.startBlock i t) ts

/-- What follows a key in its line, or else a mark, in a block that is indented by `i`. -/
structure Follows (i : Nat) (mark : Bool) (cs : List Char) (ts : List Token) : Prop where
  /-- Its characters. -/
  clean : ∀ c ∈ cs, isClean c = true
  /-- The run over it. -/
  run : ∀ (st : Lexing) (p : Position) (k : Nat) (next : List Char), st.InBlock i → i < p.column →
    (mark = true → st.keyAllowed = true ∧ p.column = i + 1) → k ≤ i → StartsLine next →
      st.Completes p cs k next st ts

theorem isClean_append {cs ds : List Char} (hcs : ∀ c ∈ cs, isClean c = true)
    (hds : ∀ c ∈ ds, isClean c = true) : ∀ c ∈ cs ++ ds, isClean c = true :=
  List.forall_mem_append.2 ⟨hcs, hds⟩

theorem isClean_newLine (n : Nat) : ∀ c ∈ newLine n, isClean c = true := fun _ hc =>
  (@isWritten_newLine true [] n _ rfl hc).isClean

theorem Completes.of_leads {st st₁ base : Lexing} {p : Position} {cs ds next : List Char} {k : Nat}
    {ts us : List Token}
    (hleads : Leads st (place p (cs ++ (ds ++ (newLine k ++ next)))) st₁
      (place (p.afterAll cs) (ds ++ (newLine k ++ next))))
    (hadds : base.Adds st₁ ts) (h : st₁.Completes (p.afterAll cs) ds k next st₁ us) :
    st.Completes p (cs ++ ds) k next base (ts ++ us) := by
  obtain ⟨st₂, hleads₂, hadds₂, houter, hallowed⟩ := h
  refine ⟨st₂, ?_, hadds.trans hadds₂, houter, hallowed⟩
  rw [List.append_assoc, List.append_assoc, afterAll_append]
  exact hleads.trans hleads₂

variable {i : Nat} {t : Token} {cs ds : List Char} {ts us : List Token}

/-- Lines after lines. -/
theorem Line.append (h₁ : Line i t cs ts) (h₂ : Line i t ds us) :
    Line i t (cs ++ (newLine i ++ ds)) (ts ++ us) where
  clean := isClean_append h₁.clean (isClean_append (isClean_newLine i) h₂.clean)
  starts k next := by
    have hstarts := h₁.starts i (ds ++ (newLine k ++ next))
    rwa [List.append_assoc, List.append_assoc]
  run st p k next h hp hk hnext := by
    obtain ⟨st₁, hleads₁, hadds₁, houter₁, hallowed₁⟩ := h₁.run st p i (ds ++ (newLine k ++ next)) h hp
      (Nat.le_refl i) (h₂.starts k next)
    have hcolumn : (p.afterAll (cs ++ newLine i)).column = i := by
      rw [afterAll_append, column_newLine]
    have hhead : st₁.indents.head? = some i := by
      rw [hadds₁.indents]
      exact head_startBlock (hp ▸ h.indents) t
    have hline : st₁.AtLine (p.afterAll (cs ++ newLine i)) := by
      refine ⟨hadds₁.steady, houter₁, hallowed₁, fun j hj => ?_⟩
      rw [hhead] at hj
      cases hj
      exact hcolumn.ge
    have hrun := h₂.run st₁ _ k next hline hcolumn hk hnext
    rw [startBlock_eq_self hhead] at hrun
    rw [← List.append_assoc]
    refine Completes.of_leads ?_ hadds₁ hrun
    rwa [List.append_assoc]

/-- A block inside a block: the next line, which is indented less, ends it. -/
theorem Line.nested (h : Line i t cs ts) {st : Lexing} {j : Nat} (hst : st.InBlock j) (hj : j < i)
    (hallowed : st.keyAllowed = true) {p : Position} (hp : p.column = i) {k : Nat} (hk : k ≤ j)
    {next : List Char} (hnext : StartsLine next) :
    st.Completes p cs k next st (t :: ts ++ [.blockEnd]) := by
  have hhead : ∀ l ∈ st.indents.head?, l < i := by
    rw [hst.indents]
    rintro l ⟨⟩
    exact hj
  obtain ⟨st₁, hleads, hadds, houter, hallowed₁⟩ := h.run st p k next
    ⟨hst.steady, hst.outer, hallowed, fun l hl => hp ▸ (hhead l hl).le⟩ hp (by omega) hnext
  obtain ⟨htokens, hindents⟩ := startBlock_of_lt hhead t
  have hcolumn : (p.afterAll (cs ++ newLine k)).column = k := by
    rw [afterAll_append, column_newLine]
  have hends := hadds.steady.leads_endBlocks (hcolumn.trans_le hk) hnext.1
  have htake : st₁.indents.takeWhile (fun l => decide (j < l)) = [i] ∧
      st₁.indents.dropWhile (fun l => decide (j < l)) = st.indents := by
    rw [hadds.indents, hindents]
    cases hlist : st.indents with
    | nil => simp [hj]
    | cons l ls =>
        have hl := hst.indents
        rw [hlist] at hl
        cases hl
        simp [hj]
  rw [Lexing.endBlocks, if_neg (by simp [inFlow_of_outer houter])] at hends
  refine ⟨_, hleads.trans hends, ⟨⟨?_, hadds.steady.keyStart, hadds.steady.outer⟩, ?_, htake.2⟩,
    houter, hallowed₁⟩
  · simp [htake.1, hadds.steady.count]
  · simp [htake.1, hadds.tokens, htokens]

/-! ### What follows a key or a mark -/

theorem Steady.adds_allowKey {st : Lexing} (h : st.Steady) (allowed : Bool) :
    st.Adds (st.allowKey allowed) [] :=
  ⟨h.allowKey allowed, rfl, rfl⟩

theorem leads_newLine {st : Lexing} (houter : st.outer = []) {next : List Char}
    (hnext : startsToken next = true) (p : Position) (n : Nat) :
    Leads st (place p (newLine n ++ next)) (st.allowKey true)
      (place (p.afterAll (newLine n)) next) := by
  have hbreak : (newLine n).any isBreak = true := rfl
  have hleads := @Leads.gap st p (newLine n) next (gap_newLine n) hnext
  rwa [hbreak, inFlow_of_outer houter] at hleads

theorem leads_space (st : Lexing) {next : List Char} (hnext : startsToken next = true)
    (p : Position) : Leads st (place p (' ' :: next)) st (place (p.after ' ') next) :=
  @Leads.gap st p [' '] next (by simp) hnext

theorem InBlock.allowKey {st : Lexing} (h : st.InBlock i) (allowed : Bool) :
    (st.allowKey allowed).InBlock i :=
  ⟨h.steady.allowKey allowed, h.outer, h.indents⟩

/-- The items of a sequence that stands in the column of its key. -/
theorem Line.level (h : Line i t cs ts) : Follows i false (newLine i ++ cs) ts := by
  refine ⟨isClean_append (isClean_newLine i) h.clean, fun st p k next hst _ _ hk hnext => ?_⟩
  have hcolumn := column_newLine p i
  have hline : (st.allowKey true).AtLine (p.afterAll (newLine i)) := by
    refine ⟨hst.steady.allowKey true, hst.outer, rfl, fun j hj => ?_⟩
    rw [show (st.allowKey true).indents = st.indents from rfl, hst.indents] at hj
    cases hj
    exact hcolumn.ge
  have hrun := h.run _ _ k next hline hcolumn hk hnext
  rw [startBlock_eq_self (hst.allowKey true).indents] at hrun
  exact Completes.of_leads (leads_newLine hst.outer (h.starts k next).1 p i)
    (hst.steady.adds_allowKey true) hrun

/-- A block in further lines that are indented further. -/
theorem Line.below (h : Line (i + 2) t cs ts) :
    Follows i false (newLine (i + 2) ++ cs) (t :: ts ++ [.blockEnd]) := by
  refine ⟨isClean_append (isClean_newLine (i + 2)) h.clean, fun st p k next hst _ _ hk hnext => ?_⟩
  have hrun := h.nested (hst.allowKey true) (by omega) rfl (column_newLine p (i + 2)) hk hnext
  exact @Completes.of_leads st (st.allowKey true) st p _ cs next k [] _
    (leads_newLine hst.outer (h.starts k next).1 p (i + 2)) (hst.steady.adds_allowKey true) hrun

/-- A block that starts in the line of a mark. -/
theorem Line.inline (h : Line (i + 2) t cs ts) :
    Follows i true (' ' :: cs) (t :: ts ++ [.blockEnd]) := by
  refine ⟨List.forall_mem_cons.2 ⟨by decide, h.clean⟩, fun st p k next hst _ hmark hk hnext => ?_⟩
  obtain ⟨hallowed, hp⟩ := hmark rfl
  have hcolumn : (p.after ' ').column = i + 2 := congrArg (· + 1) hp
  exact @Completes.of_leads st st st p [' '] cs next k [] _
    (leads_space st (h.starts k next).1 p) ⟨hst.steady, rfl, rfl⟩
    (h.nested hst (by omega) hallowed hcolumn hk hnext)

/-- Brackets with nothing inside. -/
theorem follows_brackets {opening closing : Char} {u : Token} (mark : Bool)
    (hbrackets : Brackets opening closing t u) : Follows i mark [' ', opening, closing] [t, u] := by
  have hclean : ∀ c ∈ [' ', opening, closing], isClean c = true := by
    cases hbrackets <;> exact List.all_iff_forall_prop.1 (by decide)
  refine ⟨hclean, fun st p k next hst hp _ _ hnext => ?_⟩
  have hstart : ∀ rest, startsToken (opening :: rest) = true := fun _ => by cases hbrackets <;> rfl
  have hcolumn : i < (p.after ' ').column := hp.trans (Nat.lt_succ_self _)
  obtain ⟨st₁, hleads₁, hadds₁, houter₁, -⟩ := Steady.leads_open hbrackets hst.steady
    (hst.inside hcolumn) (closing :: (newLine k ++ next))
  rw [hst.outer] at houter₁
  obtain ⟨st₂, hleads₂, hadds₂, houter₂⟩ := Steady.leads_close hbrackets hadds₁.steady houter₁
    ((p.after ' ').after opening) (newLine k ++ next)
  have houter₂ := List.length_eq_zero_iff.1 houter₂
  have hleads₃ := leads_newLine houter₂ hnext.1 (((p.after ' ').after opening).after closing) k
  refine ⟨st₂.allowKey true, ?_, (hadds₁.trans hadds₂).trans (hadds₂.steady.adds_allowKey true),
    houter₂, rfl⟩
  exact (leads_space st (hstart _) p).trans (hleads₁.trans (hleads₂.trans hleads₃))

theorem startsToken_writeScalar {a : Atom} (ha : a.IsJson) {split : Bool}
    {indent column inner : Nat} {gap rest : List Char} (hend : EndsText inner gap rest) :
    startsToken (writeScalar split indent column a ++ (gap ++ rest)) = true := by
  by_cases htext : ∃ s, a = .text s
  · obtain ⟨s, rfl⟩ := htext
    exact (startsLine_writeText hend).1
  · exact startsToken_of_isWord (isWord_writeScalar ha fun s hs => htext ⟨s, hs⟩) _

/-- The run over an atom after a blank, and the line break after it.  If a key may start before the
atom, the atom may be one whose colon is still to come. -/
theorem InBlock.leads_atom {st : Lexing} (h : st.InBlock i) {a : Atom} (ha : a.IsJson)
    (hkept : isKeptAtom (i + 2) a = true) (column : Nat) {p : Position} (hp : i < p.column) {k : Nat}
    (hk : k ≤ i) {next : List Char} (hnext : StartsLine next) :
    ∃ st', Leads st (place p (' ' :: writeScalar true (i + 2) column a ++ (newLine k ++ next))) st'
        (place (p.afterAll (' ' :: writeScalar true (i + 2) column a ++ newLine k)) next) ∧
      st.Adds st' [tokenOf spelling a] ∧ st'.outer = [] ∧ st'.keyAllowed = true ∧
      (st.keyAllowed = true → ∃ key, st'.keyStart = some key ∧ key.position = p.after ' ') := by
  have hinner : st.inner = i + 1 := by
    rw [inner, h.indents]
    rfl
  have hend : EndsText st.inner (newLine k) next := .line (by omega) hnext
  have hcolumn : i < (p.after ' ').column := hp.trans (Nat.lt_succ_self _)
  have hin := (h.inside hcolumn).fresh
  obtain ⟨st', hpart⟩ : ∃ st', (st.fresh (p.after ' ')).part (p.after ' ') true
      (tokenOf spelling a) = some st' := by
    rw [part, (h.steady.fresh _).saveKeyStart hin]
    exact ⟨_, rfl⟩
  obtain ⟨hadds, houter, hallowed, hkey⟩ := (h.steady.fresh _).adds_part hin hpart
  have hhead : ∀ j ∈ st.indents.head?, j ≤ (p.after ' ').column := by
    rw [h.indents]
    rintro j ⟨⟩
    exact hcolumn.le
  have hleads := @Steady.leads_scalar st st' h.steady (inFlow_of_outer h.outer) _ hhead _ _ hend a
    ha true (i + 2) column hkept (by omega) (by omega) hpart
  refine ⟨st', ?_, hadds.ofFresh, houter.trans (outer_fresh h.outer _), hallowed,
    fun hallow => ⟨_, hkey hallow, rfl⟩⟩
  exact (leads_space st (startsToken_writeScalar ha hend) p).trans hleads

/-- An atom. -/
theorem follows_atom (mark : Bool) {a : Atom} (ha : a.IsJson)
    (hkept : isKeptAtom (i + 2) a = true) (column : Nat) :
    Follows i mark (' ' :: writeScalar true (i + 2) column a) [tokenOf spelling a] := by
  refine ⟨List.forall_mem_cons.2 ⟨by decide, fun c hc => isClean_writeScalar ha hc⟩,
    fun st p k next hst hp _ hk hnext => ?_⟩
  obtain ⟨st', hleads, hadds, houter, hallowed, -⟩ := hst.leads_atom ha hkept column hp hk hnext
  exact ⟨st', hleads, hadds, houter, hallowed⟩

/-! ### Lines with a mark -/

/-- The marks that a line may start with, with the tokens that start a block of such lines and that
stand for the marks. -/
inductive LineMark : Char → Token → Token → Prop
  /-- The hyphen of an entry. -/
  | entry : LineMark '-' .blockSequence .entry
  /-- The question mark in front of a key. -/
  | key : LineMark '?' .blockMapping .key

theorem readToken_of_readMark {fuel : Nat} {st st' : Lexing} {c : Char} {p : Position}
    {rest : List Spot} (hdirective : c ≠ '%') (hmarker : atMarker (⟨c, p⟩ :: rest) = false)
    (hmark : st.readMark ⟨c, p⟩ rest = some (some st')) :
    st.readToken fuel ⟨c, p⟩ rest = some (st', rest) := by
  rw [readToken_eq hdirective hmarker, hmark]
  rfl

theorem startsLine_mark {mark : Char} {u : Token} (hmark : LineMark mark t u) (rest : List Char) :
    StartsLine (mark :: ' ' :: rest) := by
  refine ⟨by cases hmark <;> rfl, fun p => ?_⟩
  cases hmark with
  | entry =>
      rw [← Bool.not_eq_true]
      intro h
      obtain ⟨a, more, heq, -, -⟩ := exists_of_atMarker h
      cases heq
  | key => exact atMarker_eq_false (by decide) (by decide)

/-- The mark of a line starts the block, if need be. -/
theorem AtLine.leads_mark {mark : Char} {u : Token} (hmark : LineMark mark t u) {st : Lexing}
    {p : Position} (h : st.AtLine p) (rest : List Char) :
    ∃ st₁, Leads st (place p (mark :: ' ' :: rest)) st₁ (place (p.after mark) (' ' :: rest)) ∧
      (st.startBlock p.column t).Adds st₁ [u] ∧ st₁.InBlock p.column ∧ st₁.keyAllowed = true := by
  have hfresh := h.fresh p
  obtain ⟨htokens, hindents, houter⟩ := startBlock_fresh st p p.column t
  have hsteady := hfresh.steady.startBlock p.column t
  generalize hbase : (st.fresh p).startBlock p.column t = base at htokens hindents houter hsteady
  have hhead : base.indents.head? = some p.column := by
    rw [← hbase]
    exact head_startBlock hfresh.indents t
  have hlast : ({ base with keyStart := none } : Lexing).Steady :=
    hsteady.withKeyStart fun _ hk => by cases hk
  refine ⟨(({ base with keyStart := none } : Lexing).allowKey true).push u, ?_,
    ⟨(hlast.allowKey true).push u, congrArg (u :: ·) htokens, hindents⟩,
    ⟨(hlast.allowKey true).push u, houter.trans hfresh.outer, hhead⟩, rfl⟩
  have hstart := startsLine_mark hmark rest
  have hdirective : mark ≠ '%' := by cases hmark <;> decide
  refine Leads.step hstart.1 (h.steady.dropStale p) (fun fuel _ => ?_) (fun _ => rfl)
    (length_place _ _).le
  rw [endBlocks_eq_self (.inr hfresh.indents)]
  have hread : (st.fresh p).readMark ⟨mark, p⟩ (place (p.after mark) (' ' :: rest))
      = some (base.dropKeyStart.map fun st => (st.allowKey true).push u) := by
    have hflow := inFlow_of_outer hfresh.outer
    have hallowed := hfresh.allowed
    subst hbase
    cases hmark with
    | entry =>
        show some ((st.fresh p).entry p) = _
        rw [entry, if_neg (by rw [hflow]; decide), if_pos hallowed]
    | key =>
        show (if (st.fresh p).inFlow || true then some ((st.fresh p).explicitKey p) else none) = _
        rw [Bool.or_true, if_pos rfl, explicitKey, if_neg (by rw [hflow]; decide), if_pos hallowed]
  rw [hsteady.dropKeyStart] at hread
  exact readToken_of_readMark hdirective (hstart.2 p) hread

/-- An item of a sequence. -/
theorem Follows.entry (h : Follows i true (' ' :: cs) ts) :
    Line i .blockSequence ('-' :: ' ' :: cs) (.entry :: ts) where
  clean := List.forall_mem_cons.2 ⟨by decide, h.clean⟩
  starts k next := startsLine_mark .entry _
  run st p k next hst hp hk hnext := by
    subst hp
    obtain ⟨st₁, hleads, hadds, hblock, hallowed⟩ :=
      hst.leads_mark .entry (cs ++ (newLine k ++ next))
    exact @Completes.of_leads st st₁ _ p ['-'] (' ' :: cs) next k [.entry] ts hleads hadds
      (h.run st₁ _ k next hblock (Nat.lt_succ_self _) (fun _ => ⟨hallowed, rfl⟩) hk hnext)

/-! ### Lines with a key -/

/-- The colon in front of a value, in a line of its own. -/
theorem InBlock.leads_colon {st : Lexing} (h : st.InBlock i) (hallowed : st.keyAllowed = true)
    {p : Position} (hp : p.column = i)
    (hkey : ∀ key, st.keyStart = some key → key.position.line ≠ p.line) (rest : List Char) :
    ∃ st₁, Leads st (place p (':' :: ' ' :: rest)) st₁ (place (p.after ':') (' ' :: rest)) ∧
      st.Adds st₁ [.value] ∧ st₁.InBlock i ∧ st₁.keyAllowed = true := by
  have hnone : (st.fresh p).keyStart = none := by
    show st.keyStart.filter _ = none
    cases hk : st.keyStart with
    | none => rfl
    | some key => simp [Option.filter, KeyStart.isStale, hkey key hk]
  have hsteady := h.steady.fresh p
  have houter := outer_fresh h.outer p
  refine ⟨((st.fresh p).allowKey true).push .value, ?_,
    ⟨(hsteady.allowKey true).push .value, rfl, rfl⟩,
    ⟨(hsteady.allowKey true).push .value, houter, h.indents⟩, rfl⟩
  refine Leads.step rfl (h.steady.dropStale p) (fun fuel _ => ?_) (fun _ => rfl)
    (length_place _ _).le
  have hhead : ∀ j ∈ (st.fresh p).indents.head?, j ≤ p.column := by
    rw [indents_fresh, h.indents]
    rintro j ⟨⟩
    exact hp.ge
  have hvalue : (st.fresh p).value p = some (((st.fresh p).allowKey true).push .value) := by
    unfold value
    rw [hnone]
    dsimp only
    rw [if_neg (by rw [inFlow_of_outer houter]; decide), keyAllowed_fresh, if_pos hallowed,
      startBlock_eq_self (hp ▸ h.indents : (st.fresh p).indents.head? = some p.column)]
  have hread : (st.fresh p).readMark ⟨':', p⟩ (place (p.after ':') (' ' :: rest))
      = some (some (((st.fresh p).allowKey true).push .value)) := by
    show (if (st.fresh p).inFlow || true then some ((st.fresh p).value p) else none) = _
    rw [Bool.or_true, if_pos rfl, hvalue]
  rw [endBlocks_eq_self (.inr hhead)]
  exact readToken_of_readMark (by decide) (atMarker_eq_false (by decide) (by decide)) hread

/-- The run over a key in a line of its own, and the colon in the next line. -/
theorem AtLine.leads_explicitKey {st : Lexing} {p : Position} (h : st.AtLine p) {a : Atom}
    (ha : a.IsJson) (hkept : isKeptAtom (p.column + 2) a = true) (column : Nat) {key : List Char}
    (hkey : ' ' :: writeScalar true (p.column + 2) column a = key) (rest : List Char) :
    ∃ st' q, Leads st (place p ('?' :: (key ++ (newLine p.column ++ ':' :: ' ' :: rest)))) st'
        (place q (' ' :: rest)) ∧
      p.afterAll ('?' :: (key ++ (newLine p.column ++ [':']))) = q ∧ q.column = p.column + 1 ∧
      (st.startBlock p.column .blockMapping).Adds st' [.key, tokenOf spelling a, .value] ∧
      st'.InBlock p.column ∧ st'.keyAllowed = true := by
  have hcolon : StartsLine (':' :: ' ' :: rest) :=
    ⟨rfl, fun p => atMarker_eq_false (by decide) (by decide)⟩
  obtain ⟨st₁, hleads₁, hadds₁, hblock₁, hallowed₁⟩ := h.leads_mark .key
    (writeScalar true (p.column + 2) column a ++ (newLine p.column ++ ':' :: ' ' :: rest))
  have hcolumn₁ : p.column < (p.after '?').column := Nat.lt_succ_self _
  obtain ⟨st₂, hleads₂, hadds₂, houter₂, hallowed₂, hstart⟩ :=
    hblock₁.leads_atom ha hkept column hcolumn₁ (Nat.le_refl _) hcolon
  obtain ⟨start, hstart, hposition⟩ := hstart hallowed₁
  rw [← List.cons_append, hkey] at hleads₁
  rw [hkey] at hleads₂
  generalize hp₂ : (p.after '?').afterAll (key ++ newLine p.column) = p₂ at hleads₂
  have hblock₂ : st₂.InBlock p.column :=
    ⟨hadds₂.steady, houter₂, (congrArg List.head? hadds₂.indents).trans hblock₁.indents⟩
  have hcolumn₂ : p₂.column = p.column := by rw [← hp₂, afterAll_append, column_newLine]
  -- the key ends with its line, so the colon does not belong to it
  have hlater : ∀ start', st₂.keyStart = some start' → start'.position.line ≠ p₂.line := by
    intro start' hstart'
    rw [hstart] at hstart'
    cases hstart'
    rw [hposition, ← hp₂, ← hkey]
    exact (line_lt_newLine ((p.after '?').after ' ') _ p.column).ne
  obtain ⟨st₃, hleads₃, hadds₃, hblock₃, hallowed₃⟩ :=
    hblock₂.leads_colon hallowed₂ hcolumn₂ hlater rest
  refine ⟨st₃, p₂.after ':', hleads₁.trans (hleads₂.trans hleads₃), ?_, congrArg (· + 1) hcolumn₂,
    hadds₁.trans (hadds₂.trans hadds₃), hblock₃, hallowed₃⟩
  rw [← List.append_assoc, afterAll_cons, afterAll_append, hp₂]
  rfl

/-- A member whose key has a line of its own. -/
theorem Follows.explicitKey (h : Follows i true (' ' :: cs) ts) {a : Atom} (ha : a.IsJson)
    (hkept : isKeptAtom (i + 2) a = true) (column : Nat) :
    Line i .blockMapping
      ('?' :: ' ' :: writeScalar true (i + 2) column a ++ (newLine i ++ ':' :: ' ' :: cs))
      (.key :: tokenOf spelling a :: .value :: ts) where
  clean := by
    have hkey := (@follows_atom i true a ha hkept column).clean
    exact isClean_append (List.forall_mem_cons.2 ⟨by decide, hkey⟩)
      (isClean_append (isClean_newLine i) (List.forall_mem_cons.2 ⟨by decide, h.clean⟩))
  starts k next := startsLine_mark .key _
  run st p k next hst hp hk hnext := by
    subst hp
    obtain ⟨st₁, q, hleads₁, hplace, hcolumn, hadds₁, hblock₁, hallowed₁⟩ :=
      hst.leads_explicitKey ha hkept column rfl (cs ++ (newLine k ++ next))
    have hrun := h.run st₁ q k next hblock₁ (by omega) (fun _ => ⟨hallowed₁, hcolumn⟩) hk hnext
    generalize ' ' :: writeScalar true (p.column + 2) column a = key at hleads₁ hplace ⊢
    have htext : '?' :: key ++ (newLine p.column ++ ':' :: ' ' :: cs)
        = '?' :: (key ++ (newLine p.column ++ [':'])) ++ (' ' :: cs) := by simp
    rw [htext]
    refine @Completes.of_leads st st₁ _ p _ (' ' :: cs) next k [.key, tokenOf spelling a, .value] ts
      ?_ hadds₁ (hplace ▸ hrun)
    have hfrom : '?' :: (key ++ (newLine p.column ++ [':'])) ++ (' ' :: cs ++ (newLine k ++ next))
        = '?' :: (key ++ (newLine p.column ++ ':' :: ' ' :: (cs ++ (newLine k ++ next)))) := by simp
    rwa [hplace, hfrom]

/-- The colon after a key that starts a member: the block starts in front of the key, if need be. -/
theorem Steady.adds_member {st₀ st : Lexing} (h : st₀.Steady) {t : Token} {key : KeyStart}
    (hkey : st.keyStart = some key) (hbefore : key.before = st₀.count)
    (htokens : st.tokens = t :: st₀.tokens) (hcount : st.count = st₀.count + 1)
    (hindents : st.indents = st₀.indents) (houter' : st.outer = []) (p : Position) :
    ∃ st', st.value p = some st' ∧ st'.outer = [] ∧
      (st₀.startBlock key.position.column .blockMapping).Adds st' [.key, t, .value] := by
  obtain ⟨tokens, count, keyAllowed, keyStart, outer, indents⟩ := st
  obtain rfl : keyStart = some key := hkey
  obtain rfl : tokens = t :: st₀.tokens := htokens
  obtain rfl : count = st₀.count + 1 := hcount
  obtain rfl : indents = st₀.indents := hindents
  obtain rfl : outer = [] := houter'
  have hlater : st₀.tokens.length + 1 - key.before = 1 := by
    rw [hbefore, h.count]
    omega
  have hnone : ∀ k : KeyStart, (none : Option KeyStart) = some k → k.required = false := by
    intro k hk
    cases hk
  refine ⟨_, rfl, ?_, ?_⟩
  · unfold valueAfter
    dsimp only
    split <;> rfl
  · have hstarts : startsBlock ⟨t :: st₀.tokens, st₀.count + 1, false, none, [], st₀.indents⟩
        key.position.column = st₀.startsBlock key.position.column := rfl
    unfold valueAfter Lexing.startBlock
    simp only [inFlow, List.isEmpty_nil, Bool.not_true, Bool.not_false, Bool.true_and, hstarts]
    cases st₀.startsBlock key.position.column
    all_goals
      exact ⟨⟨by simp [insertAt, Lexing.push, h.count, hlater], hnone, fun o ho => by cases ho⟩,
        by simp [insertAt, Lexing.push, h.count, hlater], rfl⟩

/-- The run over a key and its colon. -/
theorem AtLine.leads_simpleKey {st : Lexing} {p : Position} (h : st.AtLine p) {cs : List Char}
    (hkept : isKeptText (p.column + 2) cs = true) (hbreak : ∀ c ∈ cs, isBreak c = false)
    (hlength : (writeText false (p.column + 2) p.column cs).length ≤ maxKeyLength)
    {rest : List Char} (hrest : endsHere rest = true) :
    ∃ st', Leads st (place p (writeText false (p.column + 2) p.column cs ++ ':' :: rest)) st'
        (place ((p.afterAll (writeText false (p.column + 2) p.column cs)).after ':') rest) ∧
      (st.startBlock p.column .blockMapping).Adds st' [.key,
        .scalar (decide (Style.ofText cs = .plain)) (String.ofList cs), .value] ∧
      st'.outer = [] := by
  have hend : EndsText st.inner [] (':' :: rest) := .colon hrest
  have hinner : st.inner ≤ p.column + 2 := by
    unfold inner
    cases hhead : st.indents.head? with
    | none => exact Nat.zero_le _
    | some j => exact Nat.succ_le_succ ((h.indents j hhead).trans (Nat.le_succ _))
  generalize htoken : Token.scalar (decide (Style.ofText cs = .plain)) (String.ofList cs) = t
  -- the key may be required, so the state is not a steady one until its colon
  obtain ⟨st₁, hpart, hcount, htokens, hindents, houter, key, hkey, hbefore, hposition⟩ :
      ∃ st₁, (st.fresh p).part p false t = some st₁ ∧ st₁.count = st.count + 1 ∧
        st₁.tokens = t :: st.tokens ∧ st₁.indents = st.indents ∧ st₁.outer = [] ∧
        ∃ key, st₁.keyStart = some key ∧ key.before = st.count ∧ key.position = p := by
    rw [part, saveKeyStart, keyAllowed_fresh, if_pos h.allowed, (h.steady.fresh p).dropKeyStart]
    exact ⟨_, rfl, rfl, rfl, rfl, outer_fresh h.outer p, _, rfl, rfl, rfl⟩
  have hleads := @Steady.leads_text st st₁ h.steady (inFlow_of_outer h.outer) p h.indents [] _ hend cs
    false (p.column + 2) p.column hkept hinner (Nat.succ_pos _) (htoken ▸ hpart)
  rw [List.nil_append, List.append_nil] at hleads
  generalize hwritten : writeText false (p.column + 2) p.column cs = ds at hlength hleads
  have hbreaks : ∀ c ∈ ds, isBreak c = false := fun c hc =>
    (isWritten_writeText (hwritten ▸ hc)).isBreak hbreak
  generalize hq : p.afterAll ds = q at hleads
  have hstale : key.isStale q = false := by
    have hline : q.line = p.line := by rw [← hq, line_afterAll hbreaks]
    have hindex : q.index = p.index + ds.length := by rw [← hq, index_afterAll]
    simp only [KeyStart.isStale, hposition, hline, hindex, ne_eq, not_true_eq_false, decide_false,
      Bool.false_or, decide_eq_false_iff_not]
    omega
  have hfresh : (st₁.fresh q).keyStart = some key := by
    show st₁.keyStart.filter _ = _
    rw [hkey]
    simp [Option.filter, hstale]
  have hdrop : st₁.dropStale q = some (st₁.fresh q) := by
    refine dropStale_eq (fun k hk _ => ?_) fun o ho => by rw [houter] at ho; cases ho
    rw [hkey] at hk
    cases hk
    exact hstale
  have houter₁ := outer_fresh houter q
  obtain ⟨st₂, hvalue, houter₂, hadds⟩ := @Steady.adds_member st (st₁.fresh q) h.steady t key hfresh
    hbefore htokens hcount hindents houter₁ q
  rw [hposition] at hadds
  refine ⟨st₂, hleads.trans ?_, hadds, houter₂⟩
  have hhead : ∀ j ∈ (st₁.fresh q).indents.head?, j ≤ q.column := by
    rw [indents_fresh, hindents, ← hq]
    exact fun j hj => (h.indents j hj).trans (column_le_afterAll hbreaks)
  refine Leads.step rfl hdrop (fun fuel _ => ?_) (fun _ => rfl) (length_place _ _).le
  rw [endBlocks_eq_self (.inr hhead)]
  refine readToken_of_readMark (by decide) (atMarker_eq_false (by decide) (by decide)) ?_
  show (if (st₁.fresh q).inFlow || endsWord (place (q.after ':') rest)
    then some ((st₁.fresh q).value q) else none) = _
  rw [endsWord_place, hrest, Bool.or_true, if_pos rfl, hvalue]

/-- A member whose key stands in one line with the start of its value. -/
theorem Follows.simpleKey (h : Follows i false cs ts)
    (hcs : ∀ rest, endsHere (cs ++ rest) = true) {name : List Char}
    (hkept : isKeptText (i + 2) name = true) (hbreak : ∀ c ∈ name, isBreak c = false)
    (hlength : (writeText false (i + 2) i name).length ≤ maxKeyLength) :
    Line i .blockMapping (writeText false (i + 2) i name ++ ':' :: cs)
      (.key :: .scalar (decide (Style.ofText name = .plain)) (String.ofList name) :: .value :: ts) where
  clean := isClean_append (fun c hc => (isWritten_writeText hc).isClean)
    (List.forall_mem_cons.2 ⟨by decide, h.clean⟩)
  starts k next := by
    rw [List.append_assoc]
    have hend : EndsText (i + 1) [] (':' :: (cs ++ (newLine k ++ next))) := .colon (hcs _)
    exact @startsLine_writeText false (i + 2) i _ name [] _ hend
  run st p k next hst hp hk hnext := by
    subst hp
    obtain ⟨st₁, hleads₁, hadds₁, houter₁⟩ :=
      hst.leads_simpleKey hkept hbreak hlength (hcs (newLine k ++ next))
    have hbreaks : ∀ c ∈ writeText false (p.column + 2) p.column name, isBreak c = false :=
      fun c hc => (isWritten_writeText hc).isBreak hbreak
    generalize writeText false (p.column + 2) p.column name = key at hleads₁ hbreaks
    have hcolumn : p.column < ((p.afterAll key).after ':').column :=
      Nat.lt_succ_of_le (column_le_afterAll hbreaks)
    generalize hq : (p.afterAll key).after ':' = q at hleads₁ hcolumn
    have hblock₁ : st₁.InBlock p.column :=
      ⟨hadds₁.steady, houter₁, by rw [hadds₁.indents]; exact head_startBlock hst.indents _⟩
    have hplace : p.afterAll (key ++ [':']) = q := by rw [afterAll_append, ← hq]; rfl
    have hrun := h.run st₁ q k next hblock₁ hcolumn (fun hmark => by cases hmark) hk hnext
    have htext : key ++ ':' :: cs = (key ++ [':']) ++ cs := by simp
    rw [htext]
    refine @Completes.of_leads st st₁ _ p _ cs next k [.key, _, .value] ts ?_ hadds₁ (hplace ▸ hrun)
    rw [hplace, List.append_assoc]
    exact hleads₁

end Lexing

end ApiScribe.Yaml
