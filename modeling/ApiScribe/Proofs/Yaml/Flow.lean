/-
**JSON text as YAML.**

YAML reads JSON text as a document in braces.  The run of the lexer over a value is put together from
the runs over its items, and what it adds are the tokens of the value.  Two kinds of atoms are read as
something else: texts that are not kept, and numbers that are written without a point.

Main definitions:

* `ApiScribe.Json.IsKept` — whether YAML reads the JSON text of a value as the value;
* `ApiScribe.Yaml.Lexing.Passes` — the run over an item inside brackets adds its tokens.

Main results:

* `ApiScribe.Yaml.Lexing.passes_value` — **the run of the lexer over a JSON value**;
* `ApiScribe.Yaml.tokensOf?_write` — the tokens of JSON text;
* `ApiScribe.Yaml.read?_write` — **JSON text is read as the value that it stands for**.
-/

import ApiScribe.Proofs.Yaml.Steady

set_option autoImplicit false

namespace ApiScribe

namespace Json

/-- Whether YAML reads the JSON text of an atom as the atom: texts must be kept, whole numbers must
not have too many digits, and other numbers must be written with a point. -/
def isKeptAtom : Atom → Bool
  | .int n => (decimalDigits n.natAbs).length ≤ Yaml.maxDecimalDigits
  | .float x => (Layout.json.render x).contains '.'
  | .text s => isKept s.toList
  | _ => true

/-- Whether YAML reads the JSON text of a value as the value. -/
def IsKept (v : Value) : Prop :=
  v.Each (isKeptAtom · = true) fun name => isKeptName name.toList = true

end Json

namespace Yaml

namespace Lexing

open Json (spelling isKept isKeptAtom isKeptName writeString writeAtom itemsAfter writeMember
  writeAt_object wordStarts IsWord isWord_writeAtom)

/-! ### Arrays and objects -/

/-- The two kinds of brackets, with their tokens. -/
inductive Brackets : Char → Char → Token → Token → Prop
  /-- Those of an array. -/
  | array : Brackets '[' ']' .openSequence .closeSequence
  /-- Those of an object. -/
  | object : Brackets '{' '}' .openMapping .closeMapping

theorem itemsAfter_nil (depth : Nat) (closing : Char) :
    itemsAfter .file depth closing [] = Json.newLine depth ++ [closing] := rfl

theorem itemsAfter_cons (depth : Nat) (closing : Char) (cs : List Char) (items : List (List Char)) :
    itemsAfter .file depth closing (cs :: items)
      = ',' :: Json.newLine (depth + 1) ++ cs ++ itemsAfter .file depth closing items := rfl

theorem enclose_cons (depth : Nat) (opening closing : Char) (cs : List Char)
    (items : List (List Char)) :
    Json.enclose .file depth opening closing (cs :: items)
      = opening :: Json.newLine (depth + 1) ++ cs ++ itemsAfter .file depth closing items :=
  Json.enclose_cons .file depth opening closing cs items

section

variable {opening closing : Char} {t u : Token} (hbrackets : Brackets opening closing t u)

include hbrackets

theorem startsToken_enclose (depth : Nat) (items : List (List Char)) (rest : List Char) :
    startsToken (Json.enclose .file depth opening closing items ++ rest) = true := by
  cases items <;> cases hbrackets <;> rfl

theorem endsItem_itemsAfter (depth : Nat) (items : List (List Char)) (rest : List Char) :
    EndsItem (itemsAfter .file depth closing items ++ rest) := by
  cases items with
  | nil =>
      rw [itemsAfter_nil, List.append_assoc, List.singleton_append]
      exact .close depth (by cases hbrackets <;> decide) rest
  | cons cs items => exact .comma _

theorem Steady.leads_open {st : Lexing} (h : st.Steady) {p : Position} (hin : st.Inside p)
    (rest : List Char) :
    ∃ st', Leads st (place p (opening :: rest)) st' (place (p.after opening) rest) ∧
      st.Adds st' [t] ∧ st'.outer.length = st.outer.length + 1 ∧ st'.keyAllowed = true := by
  obtain ⟨st', hopen, hadds, houter, hallowed⟩ := (h.fresh p).adds_open hin.fresh t
  refine ⟨st', h.leads_mark (by cases hbrackets <;> decide) hin ?_, hadds.ofFresh, ?_, hallowed⟩
  · rw [← hopen]
    cases hbrackets <;> rfl
  · rw [houter]
    exact congrArg (· + 1) (List.length_map _)

theorem Steady.leads_close {st : Lexing} (h : st.Steady) {k : Nat} (hflow : st.outer.length = k + 1)
    (p : Position) (rest : List Char) :
    ∃ st', Leads st (place p (closing :: rest)) st' (place (p.after closing) rest) ∧
      st.Adds st' [u] ∧ st'.outer.length = k := by
  have hflow' : (st.fresh p).outer.length = k + 1 := (List.length_map _).trans hflow
  obtain ⟨st', hclose, hadds, houter⟩ := (h.fresh p).adds_close hflow' u
  refine ⟨st', h.leads_mark (by cases hbrackets <;> decide) (.inl (inFlow_of_length hflow)) ?_,
    hadds.ofFresh, houter⟩
  rw [← hclose]
  cases hbrackets <;> rfl

end

theorem Steady.leads_comma {st : Lexing} (h : st.Steady) (hflow : st.inFlow = true) (p : Position)
    (rest : List Char) :
    ∃ st', Leads st (place p (',' :: rest)) st' (place (p.after ',') rest) ∧
      st.Adds st' [.comma] ∧ st'.outer.length = st.outer.length ∧ st'.keyAllowed = true := by
  obtain ⟨st', hcomma, hadds, houter, hallowed⟩ := (h.fresh p).adds_comma
  refine ⟨st', h.leads_mark (by decide) (.inl hflow) (congrArg some hcomma), hadds.ofFresh, ?_, hallowed⟩
  rw [houter]
  exact List.length_map _

theorem leads_gap {st : Lexing} (hflow : st.inFlow = true) {gap cs : List Char}
    (hgap : ∀ c ∈ gap, c = ' ' ∨ isBreak c = true) (h : startsToken cs = true) (p : Position) :
    Leads st (place p (gap ++ cs)) st (place (p.afterAll gap) cs) := by
  have hleads := @Leads.gap st p gap cs hgap h
  rwa [hflow, Bool.not_true, Bool.and_false, if_neg Bool.false_ne_true] at hleads

/-- The tokens of items between brackets. -/
def enclosedTokens {α : Type} (t u : Token) (tokens : α → List Token) : List α → List Token
  | [] => [t, u]
  | x :: xs => t :: tokens x ++ (xs.flatMap (fun x => .comma :: tokens x) ++ [u])

/-- The run over an item inside brackets yields its tokens; `key` says whether it starts with a key,
so that a key must be allowed before it. -/
structure Passes (key : Bool) (cs : List Char) (ts : List Token) : Prop where
  /-- It starts with a token. -/
  starts : ∀ rest, startsToken (cs ++ rest) = true
  /-- The run over it. -/
  run : ∀ (st : Lexing) (p : Position) (rest : List Char), st.Steady → st.inFlow = true →
    (key = true → st.keyAllowed = true) → EndsItem rest →
      ∃ st', Leads st (place p (cs ++ rest)) st' (place (p.afterAll cs) rest) ∧ st.Adds st' ts ∧
        st'.outer.length = st.outer.length

section

variable {α : Type} {written : α → List Char} {tokens : α → List Token} {xs : List α}
  {key : Bool} (hitem : ∀ x ∈ xs, Passes key (written x) (tokens x))
  {opening closing : Char} {t u : Token} (hbrackets : Brackets opening closing t u)

include hitem hbrackets

/-- The run over the items after the first one, and the closing bracket. -/
theorem Steady.leads_itemsAfter {st : Lexing} (h : st.Steady) {k : Nat}
    (hflow : st.outer.length = k + 1) (depth : Nat) (p : Position) (rest : List Char) :
    ∃ st', Leads st (place p (itemsAfter .file depth closing (xs.map written) ++ rest)) st'
        (place (p.afterAll (itemsAfter .file depth closing (xs.map written))) rest) ∧
      st.Adds st' (xs.flatMap (fun x => .comma :: tokens x) ++ [u]) ∧ st'.outer.length = k := by
  induction xs generalizing st p with
  | nil =>
      obtain ⟨st', hleads, hadds, houter⟩ := @Steady.leads_close _ _ _ _ hbrackets _ h k hflow
        (p.afterAll (Json.newLine depth)) rest
      refine ⟨st', ?_, hadds, houter⟩
      rw [List.map_nil, itemsAfter_nil, afterAll_append, List.append_assoc, List.singleton_append]
      exact (leads_gap (inFlow_of_length hflow) (gap_newLine (2 * depth))
        (by cases hbrackets <;> rfl) p).trans hleads
  | cons x xs ih =>
      have hx := hitem x List.mem_cons_self
      generalize hafter : itemsAfter .file depth closing (xs.map written) = after at ih
      -- after a comma a name is allowed, which is what the next item needs
      obtain ⟨st₁, hleads₁, hadds₁, houter₁, hallowed⟩ := h.leads_comma (inFlow_of_length hflow) p
        (Json.newLine (depth + 1) ++ (written x ++ (after ++ rest)))
      have hflow₁ : st₁.outer.length = k + 1 := houter₁.trans hflow
      have hgap := leads_gap (inFlow_of_length hflow₁) (gap_newLine (2 * (depth + 1)))
        (hx.starts (after ++ rest)) (p.after ',')
      obtain ⟨st₂, hleads₂, hadds₂, houter₂⟩ := hx.run st₁
        ((p.after ',').afterAll (Json.newLine (depth + 1))) (after ++ rest) hadds₁.steady
        (inFlow_of_length hflow₁) (fun _ => hallowed)
        (hafter ▸ endsItem_itemsAfter hbrackets depth _ rest)
      obtain ⟨st₃, hleads₃, hadds₃, houter₃⟩ := ih (fun y hy => hitem y (List.mem_cons_of_mem x hy))
        hadds₂.steady (houter₂.trans hflow₁)
        (((p.after ',').afterAll (Json.newLine (depth + 1))).afterAll (written x))
      refine ⟨st₃, ?_, ?_, houter₃⟩
      · have htext : itemsAfter .file depth closing ((x :: xs).map written)
            = ',' :: (Json.newLine (depth + 1) ++ (written x ++ after)) := by
          rw [List.map_cons, itemsAfter_cons, hafter]
          simp
        rw [htext, List.cons_append, afterAll_cons, afterAll_append, afterAll_append,
          List.append_assoc, List.append_assoc]
        exact hleads₁.trans (hgap.trans (hleads₂.trans hleads₃))
      · have htokens : (x :: xs).flatMap (fun x => Token.comma :: tokens x) ++ [u]
            = [.comma] ++ (tokens x ++ (xs.flatMap (fun x => Token.comma :: tokens x) ++ [u])) := by
          simp
        rw [htokens]
        exact hadds₁.trans (hadds₂.trans hadds₃)

/-- The run over items between brackets. -/
theorem Steady.leads_enclose {st : Lexing} (h : st.Steady) (depth : Nat) {p : Position}
    (hin : st.Inside p) (rest : List Char) :
    ∃ st', Leads st (place p (Json.enclose .file depth opening closing (xs.map written) ++ rest)) st'
        (place (p.afterAll (Json.enclose .file depth opening closing (xs.map written))) rest) ∧
      st.Adds st' (enclosedTokens t u tokens xs) ∧ st'.outer.length = st.outer.length := by
  cases xs with
  | nil =>
      obtain ⟨st₁, hleads₁, hadds₁, houter₁, -⟩ := Steady.leads_open hbrackets h hin
        (closing :: rest)
      obtain ⟨st₂, hleads₂, hadds₂, houter₂⟩ := Steady.leads_close hbrackets hadds₁.steady houter₁
        (p.after opening) rest
      exact ⟨st₂, hleads₁.trans hleads₂, hadds₁.trans hadds₂, houter₂⟩
  | cons x xs =>
      have hx := hitem x List.mem_cons_self
      generalize hafter : itemsAfter .file depth closing (xs.map written) = after
      obtain ⟨st₁, hleads₁, hadds₁, houter₁, hallowed⟩ := Steady.leads_open hbrackets h hin
        (Json.newLine (depth + 1) ++ (written x ++ (after ++ rest)))
      have hgap := leads_gap (inFlow_of_length houter₁) (gap_newLine (2 * (depth + 1)))
        (hx.starts (after ++ rest)) (p.after opening)
      obtain ⟨st₂, hleads₂, hadds₂, houter₂⟩ := hx.run st₁
        ((p.after opening).afterAll (Json.newLine (depth + 1))) (after ++ rest) hadds₁.steady
        (inFlow_of_length houter₁) (fun _ => hallowed)
        (hafter ▸ endsItem_itemsAfter hbrackets depth _ rest)
      obtain ⟨st₃, hleads₃, hadds₃, houter₃⟩ := Steady.leads_itemsAfter
        (fun y hy => hitem y (List.mem_cons_of_mem x hy)) hbrackets hadds₂.steady
        (houter₂.trans houter₁) depth
        (((p.after opening).afterAll (Json.newLine (depth + 1))).afterAll (written x)) rest
      rw [hafter] at hleads₃
      refine ⟨st₃, ?_, ?_, houter₃⟩
      · have htext : Json.enclose .file depth opening closing ((x :: xs).map written)
            = opening :: (Json.newLine (depth + 1) ++ (written x ++ after)) := by
          rw [List.map_cons, enclose_cons, hafter]
          simp
        rw [htext, List.cons_append, afterAll_cons, afterAll_append, afterAll_append,
          List.append_assoc, List.append_assoc]
        exact hleads₁.trans (hgap.trans (hleads₂.trans hleads₃))
      · exact hadds₁.trans (hadds₂.trans hadds₃)

end

/-! ### Values -/

theorem flowItems_false (spell : Spelling) (xs : List Value) :
    flowItems spell false xs
      = xs.flatMap (fun v => .comma :: flowTokens spell v) ++ [.closeSequence] := by
  induction xs with
  | nil => rfl
  | cons v xs ih => simp [flowItems, ih]

theorem flowTokens_list (spell : Spelling) (xs : List Value) :
    flowTokens spell (.list xs)
      = enclosedTokens .openSequence .closeSequence (flowTokens spell) xs := by
  cases xs with
  | nil => rfl
  | cons v xs => simp [flowTokens, flowItems, enclosedTokens, flowItems_false]

/-- The tokens of a member inside braces. -/
def memberTokens (spell : Spelling) (m : String × Value) : List Token :=
  .key :: tokenOf spell (.text m.1) :: .value :: flowTokens spell m.2

theorem flowMembers_false (spell : Spelling) (ms : Members String Value) :
    flowMembers spell false ms.named
      = ms.flatMap (fun m => .comma :: memberTokens spell m) ++ [.closeMapping] := by
  induction ms with
  | nil => rfl
  | cons m ms ih =>
      rw [Members.named] at ih
      simp [Members.named, flowMembers, memberTokens, ih]

theorem flowTokens_object (spell : Spelling) (ms : Members String Value) :
    flowTokens spell (.object ms)
      = enclosedTokens .openMapping .closeMapping (memberTokens spell) ms := by
  cases ms with
  | nil => rfl
  | cons m ms =>
      have h := flowMembers_false spell ms
      rw [Members.named] at h
      simp [Value.object, flowTokens, flowMembers, enclosedTokens, memberTokens, h]

theorem startsToken_of_isWord {cs : List Char} (h : IsWord cs) (rest : List Char) :
    startsToken (cs ++ rest) = true := by
  obtain ⟨negative, c, more, rfl, hc⟩ := h.start
  cases negative with
  | true => rfl
  | false =>
      have hall : ∀ c ∈ wordStarts, startsToken [c] = true := List.all_iff_forall_prop.1 (by decide)
      exact hall c hc

/-- The run over an atom. -/
theorem passes_atom {a : Atom} (ha : a.IsJson) (hkept : isKeptAtom a = true) :
    Passes false (writeAtom .file a) [tokenOf spelling a] := by
  by_cases htext : ∃ s, a = .text s
  · obtain ⟨s, rfl⟩ := htext
    refine ⟨fun rest => rfl, fun st p rest h hflow _ hrest => ?_⟩
    obtain ⟨st', hpart, hleads⟩ := @Steady.leads_string st h s.toList rest p (.inl hflow) hkept
    obtain ⟨hadds, houter, -, -⟩ := (h.fresh p).adds_part (Inside.fresh (.inl hflow)) hpart
    refine ⟨st', hleads, ?_, ?_⟩
    · rw [String.ofList_toList] at hadds
      exact hadds.ofFresh
    · rw [houter]
      exact List.length_map _
  · have htext : ∀ s, a ≠ .text s := fun s hs => htext ⟨s, hs⟩
    have hword := @isWord_writeAtom .file a ha htext
    refine ⟨startsToken_of_isWord hword, fun st p rest h hflow _ hrest => ?_⟩
    obtain ⟨allowed, st', hpart, hleads⟩ := @Steady.leads_word st h hflow _ rest p hword hrest
    obtain ⟨hadds, houter, -, -⟩ := (h.fresh p).adds_part (Inside.fresh (.inl hflow)) hpart
    have htoken : tokenOf spelling a = .scalar true (String.ofList (writeAtom .file a)) := by
      cases a with
      | text s => exact absurd rfl (htext s)
      | _ => rfl
    refine ⟨st', hleads, ?_, ?_⟩
    · rw [htoken]
      exact hadds.ofFresh
    · rw [houter]
      exact List.length_map _

/-- The run over a member. -/
theorem Passes.member {depth : Nat} {m : String × Value}
    (hname : isKeptName m.1.toList = true)
    (h : Passes false (Json.writeAt .file depth m.2) (flowTokens spelling m.2)) :
    Passes true (writeMember .file depth m) (memberTokens spelling m) where
  starts rest := rfl
  run st p rest hst hflow hallowed hrest := by
    obtain ⟨st₁, hleads₁, hadds₁, houter₁⟩ := hst.leads_name hflow (hallowed rfl) hname p
      (' ' :: (Json.writeAt .file depth m.2 ++ rest))
    obtain ⟨st₂, hleads₂, hadds₂, houter₂⟩ := h.run st₁
      (((p.afterAll (writeString false m.1.toList)).after ':').after ' ') rest hadds₁.steady
      (inFlow_of_length_eq houter₁ hflow) (fun hkey => absurd hkey Bool.false_ne_true) hrest
    have hgap := @leads_gap st₁ (inFlow_of_length_eq houter₁ hflow) [' ']
      (Json.writeAt .file depth m.2 ++ rest) (by simp) (h.starts rest)
      ((p.afterAll (writeString false m.1.toList)).after ':')
    refine ⟨st₂, ?_, ?_, houter₂.trans houter₁⟩
    · rw [writeMember, List.append_assoc, afterAll_append]
      exact hleads₁.trans (hgap.trans hleads₂)
    · rw [String.ofList_toList] at hadds₁
      exact hadds₁.trans hadds₂

/-- The run over a value inside brackets. -/
theorem passes_value {v : Value} (hv : v.IsJson) (hkept : Json.IsKept v) (depth : Nat) :
    Passes false (Json.writeAt .file depth v) (flowTokens spelling v) := by
  refine Value.jsonInduct (motive := fun v => Json.IsKept v → ∀ depth,
      Passes false (Json.writeAt .file depth v) (flowTokens spelling v))
    ?atom ?list ?object hv hkept depth
  case atom =>
      intro a ha hkept depth
      exact passes_atom ha (Value.each_atom_iff.1 hkept)
  case list =>
      intro xs _ ih hkept depth
      have hkept := Value.each_list_iff.1 hkept
      rw [flowTokens_list, Json.writeAt, Json.writeItems_eq]
      refine ⟨startsToken_enclose .array _ _, fun st p rest h hflow _ _ => ?_⟩
      exact Steady.leads_enclose (fun v hv => ih v hv (hkept v hv) (depth + 1)) .array h depth
        (.inl hflow) rest
  case object =>
      intro ms _ _ ih hkept depth
      obtain ⟨hname, hkept⟩ := Value.each_object_iff.1 hkept
      rw [flowTokens_object, writeAt_object _ _ rfl]
      refine ⟨startsToken_enclose .object _ _, fun st p rest h hflow _ _ => ?_⟩
      exact Steady.leads_enclose (fun m hm => (ih m hm (hkept m hm) (depth + 1)).member (hname m hm))
        .object h depth (.inl hflow) rest

/-- The end of the text, after its last line break. -/
theorem Steady.readTokens_lastBreak {st : Lexing} (h : st.Steady) (hindents : st.indents = [])
    (fuel : Nat) (p : Position) :
    readTokens (fuel + 1) st (place p ['\n']) = some st.tokens.reverse := by
  have hallow (allowed : Bool) : (if allowed then st.allowKey true else st).finish
      = some st.tokens.reverse := by
    have hsteady : Steady (if allowed then st.allowKey true else st) := by
      split
      · exact h.allowKey true
      · exact h
    have hends : Lexing.endBlocks (if allowed then st.allowKey true else st) (fun _ => true)
        = if allowed then st.allowKey true else st := by
      refine endBlocks_of_nil ?_
      split <;> exact hindents
    rw [finish, endAllBlocks, hends, hsteady.dropKeyStart]
    split <;> rfl
  exact hallow _

end Lexing

/-! ### The whole text -/

open Json (isKeptName writeString writeAt)

theorem isAllowed_writeString {cs : List Char} (h : Json.isKept cs = true) {c : Char}
    (hc : c ∈ writeString false cs) : isAllowed c = true := by
  rcases mem_writeString hc with hc | ⟨hc, hle⟩
  · exact hc.1
  · exact (isAllowed_of_isKept h hc hle).1

theorem isAllowed_writeAtom {a : Atom} (ha : a.IsJson) (hkept : Json.isKeptAtom a = true) {c : Char}
    (hc : c ∈ Json.writeAtom .file a) : isAllowed c = true := by
  -- only a string has characters of the data; all other atoms are words
  by_cases htext : ∃ s, a = .text s
  · obtain ⟨s, rfl⟩ := htext
    exact isAllowed_writeString hkept hc
  · have hword := @Json.isWord_writeAtom .file a ha fun s hs => htext ⟨s, hs⟩
    have hall : ∀ c ∈ Json.wordChars, isAllowed c = true := List.all_iff_forall_prop.1 (by decide)
    exact hall c (hword.chars c hc)

/-- JSON text of kept texts consists of characters that YAML allows. -/
theorem isAllowed_writeAt {v : Value} (hv : v.IsJson) (hkept : Json.IsKept v) (depth : Nat) :
    ∀ c ∈ writeAt .file depth v, isAllowed c = true := by
  refine Json.forall_mem_writeAt rfl (List.all_iff_forall_prop.1 (by decide)) hv ?_ depth
  refine hkept.imp_of_isJson hv (fun a ha hkept c => isAllowed_writeAtom ha hkept) ?_
  intro name hname c hc
  simp only [isKeptName, Bool.and_eq_true] at hname
  exact isAllowed_writeString hname.1.1 hc

/-- **The tokens of JSON text.** -/
theorem tokensOf?_write {ms : Members String Value} (hv : (Value.object ms).IsJson)
    (hkept : Json.IsKept (.object ms)) :
    tokensOf? (Json.write .file (.object ms) ++ ['\n'])
      = some (flowTokens Json.spelling (.object ms)) := by
  have hallowed : (Json.write .file (.object ms) ++ ['\n']).all isAllowed = true := by
    rw [List.all_append, Bool.and_eq_true, List.all_eq_true]
    exact ⟨isAllowed_writeAt hv hkept 0, by decide⟩
  have hspots : spotsOf (Json.write .file (.object ms) ++ ['\n'])
      = place {} (Json.write .file (.object ms) ++ ['\n']) := by
    rw [Json.write, Json.writeAt_object _ _ rfl]
    cases ms <;> rfl
  have hsteady : Lexing.Steady {} := ⟨rfl, by simp, by simp⟩
  have hin : Lexing.Inside {} {} := .inr fun _ hi => by cases hi
  obtain ⟨hname, heach⟩ := Value.each_object_iff.1 hkept
  obtain ⟨st, hleads, hadds, houter⟩ := Lexing.Steady.leads_enclose
    (fun m hm => (Lexing.passes_value ((Value.isJson_object_iff.1 hv).2 m hm) (heach m hm) 1).member
      (hname m hm)) .object hsteady 0 hin ['\n']
  rw [← Json.writeAt_object _ _ rfl] at hleads
  obtain ⟨fuel, hfuel, heq⟩ := hleads ((Json.write .file (.object ms) ++ ['\n']).length + 1) (by
    rw [length_place]
    exact Nat.lt_succ_self _)
  obtain ⟨fuel, rfl⟩ : ∃ k, fuel = k + 1 := ⟨fuel - 1, by omega⟩
  rw [tokensOf?, if_pos hallowed, hspots]
  refine heq.trans ?_
  rw [hadds.steady.readTokens_lastBreak hadds.indents, hadds.tokens, Lexing.flowTokens_object]
  simp

/-! ### Reading JSON text -/

open Json (spelling isKeptAtom)

/-- Kept atoms are read as themselves. -/
theorem faithful_spelling {a : Atom} (ha : a.IsJson) (hkept : isKeptAtom a = true) :
    Spelling.Faithful spelling a := by
  cases a with
  | null => rfl
  | bool b => cases b <;> rfl
  | int n => exact Spelling.faithful_int rfl (by simpa [isKeptAtom] using hkept)
  | float x => exact Spelling.faithful_float ha rfl (by simpa [isKeptAtom] using hkept)
  | text s => exact Spelling.faithful_text ⟨rfl, rfl⟩
  | bytes bs => exact ha.elim
  | date d => exact ha.elim
  | moment t => exact ha.elim

/-- **JSON text is read as the value that it stands for.** -/
theorem read?_write {ms : Members String Value} (hv : (Value.object ms).IsJson)
    (hkept : Json.IsKept (.object ms)) :
    read? (Json.write .file (.object ms) ++ ['\n']) = some ⟨.object ms, false⟩ := by
  have hlength : 4 * (flowTokens spelling (.object ms)).length
      ≤ 8 * ((flowTokens spelling (.object ms)).length + 1) := by omega
  have htree := readTree_flowTokens spelling hv .block _ [] hlength
  rw [List.append_nil] at htree
  exact read?_of_tokensOf? spelling (tokensOf?_write hv hkept) rfl rfl htree hv
    (hkept.imp_of_isJson hv (fun a => faithful_spelling) fun _ _ => ⟨rfl, rfl⟩)

end Yaml

end ApiScribe
