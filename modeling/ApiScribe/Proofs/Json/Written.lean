/-
**The shape of JSON text.**

JSON text is put together from strings and words with brackets, commas and blanks between them.  In a
string a character is written by a letter, by its code point or as it is; everything else that an atom
is written as is a word or a number.

Main definitions:

* `ApiScribe.Json.Escaped` — how a character stands in a string;
* `ApiScribe.Json.IsWord` — a word, or a number;
* `ApiScribe.Json.itemsAfter`, `ApiScribe.Json.writeMember` — what follows an item, and the text of a
  member.

Main results:

* `ApiScribe.Json.escaped_escapeChar` — the ways in which a character is written;
* `ApiScribe.Json.isWord_writeAtom` — an atom that is no text is written as a word;
* `ApiScribe.Json.enclose_cons`, `ApiScribe.Json.writeAt_object` — the text of items between brackets;
* `ApiScribe.Json.forall_mem_writeAt` — **the characters of JSON text are those of its strings and
  words, and those that set them out**.
-/

import ApiScribe.Json.Writer
import ApiScribe.Proofs.Data.Json
import ApiScribe.Proofs.Number.Written
import Mathlib.Algebra.Group.Nat.Defs
import Mathlib.Data.Bool.AllAny

set_option autoImplicit false

namespace ApiScribe

/-! ### Hexadecimal digits -/

theorem digitValue?_hexDigit {d : Nat} (h : d < 16) : digitValue? (hexDigit d) = some d := by
  have hall : ∀ d < 16, digitValue? (hexDigit d) = some d := by decide
  exact hall d h

theorem length_hexDigits (width n : Nat) : (hexDigits width n).length = width := by
  induction width generalizing n with
  | zero => rfl
  | succ width ih => rw [hexDigits, List.length_append, ih, List.length_singleton]

theorem mem_hexDigits {width n : Nat} {c : Char} (h : c ∈ hexDigits width n) :
    ∃ d < 16, c = hexDigit d := by
  induction width generalizing n with
  | zero => cases h
  | succ width ih =>
      rcases List.mem_append.1 h with h | h
      · exact ih h
      · exact ⟨n % 16, Nat.mod_lt n (by decide), List.mem_singleton.1 h⟩

/-- The number that hexadecimal digits stand for. -/
def natOfHex (ds : List Char) (n : Nat) : Nat :=
  ds.foldl (fun n c => n * 16 + (digitValue? c).getD 0) n

theorem natOfHex_hexDigits (width n : Nat) : natOfHex (hexDigits width n) 0 = n % 16 ^ width := by
  induction width generalizing n with
  | zero => simp [hexDigits, natOfHex, Nat.mod_one]
  | succ width ih =>
      have ih := ih (n / 16)
      rw [natOfHex] at ih
      rw [hexDigits, natOfHex, List.foldl_append, ih, List.foldl_cons, List.foldl_nil,
        digitValue?_hexDigit (Nat.mod_lt n (by decide)), Option.getD_some, Nat.pow_succ']
      have h := Nat.mod_mul (x := n) (a := 16) (b := 16 ^ width)
      omega

namespace Json

/-! ### Strings -/

/-- The letters that stand for a character after a backslash, with the character. -/
def letterEscapes : List (Char × Char) :=
  [('"', '"'), ('\\', '\\'), ('n', '\n'), ('r', '\r'), ('t', '\t'), ('b', '\x08'), ('f', '\x0c')]

/-- How JSON writes a character: by a letter, by its code point, or as it is. -/
inductive Escaped (c : Char) : List Char → Prop
  /-- By a letter. -/
  | letter {letter : Char} (h : (letter, c) ∈ letterEscapes) : Escaped c ['\\', letter]
  /-- By its code point. -/
  | code (h : c.toNat < 0x20) : Escaped c ('\\' :: 'u' :: hexDigits 4 c.toNat)
  /-- As it is. -/
  | bare (h : 0x20 ≤ c.toNat) (hquote : c ≠ '"') (hslash : c ≠ '\\') : Escaped c [c]

/-- **The ways in which a character is written.** -/
theorem escaped_escapeChar (c : Char) : Escaped c (escapeChar false c) := by
  unfold escapeChar
  split_ifs with hquote hslash hfeed hreturn htab hback hform hcode
  · exact .letter (by rw [hquote]; decide)
  · exact .letter (by rw [hslash]; decide)
  · exact .letter (by rw [hfeed]; decide)
  · exact .letter (by rw [hreturn]; decide)
  · exact .letter (by rw [htab]; decide)
  · exact .letter (by rw [hback]; decide)
  · exact .letter (by rw [hform]; decide)
  · have hlt : c.toNat < 0x20 := by simpa using hcode
    rw [escapeCode, if_pos (by omega), escapeUnit]
    exact .code hlt
  · exact .bare (by simpa using hcode) hquote hslash

/-- The characters of quotes and escapes. -/
def escapeChars : List Char :=
  ['"', '\\', 'n', 'r', 't', 'b', 'f', 'u'] ++ (List.range 16).map hexDigit

/-- What JSON writes for a text consists of quotes, escapes, and characters of the text. -/
theorem mem_writeString {cs : List Char} {c : Char} (h : c ∈ writeString false cs) :
    c ∈ escapeChars ∨ (c ∈ cs ∧ 0x20 ≤ c.toNat) := by
  rw [writeString, List.cons_append, List.mem_cons, List.mem_append, List.mem_flatMap,
    List.mem_singleton] at h
  rcases h with rfl | ⟨d, hd, h⟩ | rfl
  · exact .inl (by decide)
  · have hescaped := escaped_escapeChar d
    generalize escapeChar false d = written at hescaped h
    cases hescaped with
    | @letter letter hletter =>
        left
        rcases List.mem_cons.1 h with rfl | h
        · decide
        · have hall : ∀ m ∈ letterEscapes, m.1 ∈ escapeChars :=
            List.all_iff_forall_prop.1 (by decide)
          rw [List.mem_singleton.1 h]
          exact hall (letter, d) hletter
    | code hcode =>
        left
        rcases List.mem_cons.1 h with rfl | h
        · decide
        · rcases List.mem_cons.1 h with rfl | h
          · decide
          · obtain ⟨n, hn, rfl⟩ := mem_hexDigits h
            exact List.mem_append_right _ (List.mem_map.2 ⟨n, List.mem_range.2 hn, rfl⟩)
    | bare hle _ _ =>
        rw [List.mem_singleton.1 h]
        exact .inr ⟨hd, hle⟩
  · exact .inl (by decide)

theorem writeAtom_text (style : Style) (s : String) :
    writeAtom style (.text s) = writeString style.asciiOnly s.toList := rfl

/-! ### Words -/

/-- The characters that words and numbers start with, apart from a sign. -/
def wordStarts : List Char :=
  ['0', '1', '2', '3', '4', '5', '6', '7', '8', '9', 'n', 't', 'f']

/-- The characters of words and numbers. -/
def wordChars : List Char := Decimal.alphabet ++ ['n', 'u', 'l', 't', 'r', 'e', 'f', 'a', 's']

/-- A word of JSON, or a number. -/
structure IsWord (cs : List Char) : Prop where
  /-- Its characters. -/
  chars : ∀ c ∈ cs, c ∈ wordChars
  /-- Its first character, perhaps after a sign. -/
  start : ∃ negative c rest, cs = withSign negative (c :: rest) ∧ c ∈ wordStarts

theorem isWord_withSign (negative : Bool) (t : Decimal) : IsWord (withSign negative t.text) where
  chars c h := List.mem_append_left _ (t.mem_alphabet_withSign negative h)
  start := by
    obtain ⟨c, cs, hc, htext⟩ := t.exists_text_eq
    exact ⟨negative, c, cs, by rw [htext],
      List.mem_append_left ['n', 't', 'f'] (Decimal.mem_alphabet_of_isDigit hc)⟩

theorem isWord_render {layout : Layout} {x : Binary64} (hfinite : x.isFinite = true) :
    IsWord (layout.render x) := by
  obtain ⟨negative, m, e, rfl⟩ := Binary64.exists_finite hfinite
  obtain ⟨t, htext, -, -⟩ := layout.exists_decimal m e
  rw [render_finite, htext]
  exact isWord_withSign negative t

/-- An atom of JSON other than a text is written as a word. -/
theorem isWord_writeAtom {style : Style} {a : Atom} (ha : a.IsJson) (htext : ∀ s, a ≠ .text s) :
    IsWord (writeAtom style a) := by
  cases a with
  | null =>
      have h : ∀ c ∈ ['n', 'u', 'l', 'l'], c ∈ wordChars :=
        List.all_iff_forall_prop.1 (by decide)
      exact ⟨h, false, 'n', ['u', 'l', 'l'], rfl, by decide⟩
  | bool b =>
      cases b with
      | false =>
          have h : ∀ c ∈ ['f', 'a', 'l', 's', 'e'], c ∈ wordChars :=
            List.all_iff_forall_prop.1 (by decide)
          exact ⟨h, false, 'f', ['a', 'l', 's', 'e'], rfl, by decide⟩
      | true =>
          have h : ∀ c ∈ ['t', 'r', 'u', 'e'], c ∈ wordChars :=
            List.all_iff_forall_prop.1 (by decide)
          exact ⟨h, false, 't', ['r', 'u', 'e'], rfl, by decide⟩
  | int n =>
      rw [writeAtom, integerText_eq]
      exact isWord_withSign _ _
  | float x => exact isWord_render ha.1
  | text s => exact absurd rfl (htext s)
  | bytes bs => exact ha.elim
  | date d => exact ha.elim
  | moment t => exact ha.elim

/-! ### Arrays and objects -/

section

variable (style : Style) (depth : Nat)

/-- The blanks between a bracket and an item. -/
def gap : List Char := if style.indented then newLine depth else []

/-- The blanks between a comma and an item. -/
def gapAfterComma : List Char := if style.indented then newLine depth else [' ']

theorem mem_newLine : ∀ c ∈ newLine depth, c = '\n' ∨ c = ' ' := by
  intro c hc
  rcases List.mem_cons.1 hc with rfl | hc
  · exact .inl rfl
  · exact .inr (List.eq_of_mem_replicate hc)

theorem mem_gap : ∀ c ∈ gap style depth, c = '\n' ∨ c = ' ' := by
  unfold gap
  split
  · exact mem_newLine depth
  · exact List.forall_mem_nil _

theorem mem_gapAfterComma : ∀ c ∈ gapAfterComma style depth, c = '\n' ∨ c = ' ' := by
  unfold gapAfterComma
  split
  · exact mem_newLine depth
  · exact List.forall_mem_singleton.2 (.inr rfl)

/-- What follows an item: the further ones, and the closing bracket. -/
def itemsAfter (closing : Char) : List (List Char) → List Char
  | [] => gap style depth ++ [closing]
  | cs :: rest => ',' :: gapAfterComma style (depth + 1) ++ cs ++ itemsAfter closing rest

theorem enclose_cons (opening closing : Char) (cs : List Char) (items : List (List Char)) :
    enclose style depth opening closing (cs :: items)
      = opening :: gap style (depth + 1) ++ cs ++ itemsAfter style depth closing items := by
  have hsep : separator style (depth + 1) = ',' :: gapAfterComma style (depth + 1) := by
    unfold separator gapAfterComma
    split <;> rfl
  have h : (separator style (depth + 1)).intercalate (cs :: items) ++ (gap style depth ++ [closing])
      = cs ++ itemsAfter style depth closing items := by
    induction items generalizing cs with
    | nil => simp [itemsAfter]
    | cons ds items ih =>
        rw [List.intercalate_cons_cons, itemsAfter, List.append_assoc, ih, hsep, List.append_assoc,
          List.append_assoc]
  rw [enclose, List.isEmpty_cons, if_neg Bool.false_ne_true, List.append_assoc, List.append_assoc,
    List.append_assoc]
  exact congrArg (opening :: gap style (depth + 1) ++ ·) h

theorem writeItems_eq (xs : List Value) :
    writeItems style depth xs = xs.map (writeAt style depth) := by
  induction xs with
  | nil => rfl
  | cons v xs ih => rw [writeItems, ih, List.map_cons]

/-- How JSON writes a member. -/
def writeMember (m : String × Value) : List Char :=
  writeString style.asciiOnly m.1.toList ++ ':' :: ' ' :: writeAt style depth m.2

theorem writeAt_object (h : style.sorted = false) (ms : Members String Value) :
    writeAt style depth (.object ms)
      = enclose style depth '{' '}' (ms.map (writeMember style (depth + 1))) := by
  have hmembers : writeMembers style (depth + 1) ms.named
      = ms.map fun m => (.text m.1, writeAt style (depth + 1) m.2) := by
    induction ms with
    | nil => rfl
    | cons m ms ih =>
        rw [Members.named] at ih
        rw [Members.named, List.map_cons, writeMembers, ih, List.map_cons]
  rw [Members.named] at hmembers
  rw [Value.object, writeAt, hmembers]
  simp only [h, Bool.false_eq_true, if_false, List.map_map]
  rfl

end

/-! ### The characters of a text -/

section

variable {style : Style}

theorem mem_itemsAfter {depth : Nat} {closing c : Char} {items : List (List Char)}
    (h : c ∈ itemsAfter style depth closing items) :
    c ∈ [',', ' ', '\n', closing] ∨ ∃ cs ∈ items, c ∈ cs := by
  induction items with
  | nil =>
      rcases List.mem_append.1 h with h | h
      · rcases mem_gap _ _ c h with rfl | rfl <;> exact .inl (by simp)
      · exact .inl (by simp [List.mem_singleton.1 h])
  | cons cs items ih =>
      rw [itemsAfter, List.mem_append, List.mem_append, List.mem_cons] at h
      rcases h with ((rfl | h) | h) | h
      · exact .inl (by simp)
      · rcases mem_gapAfterComma _ _ c h with rfl | rfl <;> exact .inl (by simp)
      · exact .inr ⟨cs, List.mem_cons_self, h⟩
      · rcases ih h with h | ⟨ds, hds, h⟩
        · exact .inl h
        · exact .inr ⟨ds, List.mem_cons_of_mem cs hds, h⟩

/-- What stands between brackets consists of the items and of what sets them out. -/
theorem mem_enclose {depth : Nat} {opening closing c : Char} {items : List (List Char)}
    (h : c ∈ enclose style depth opening closing items) :
    c ∈ [opening, ',', ' ', '\n', closing] ∨ ∃ cs ∈ items, c ∈ cs := by
  cases items with
  | nil =>
      have h : c ∈ [opening, closing] := h
      rcases List.mem_cons.1 h with rfl | h
      · exact .inl (by simp)
      · exact .inl (by simp [List.mem_singleton.1 h])
  | cons cs items =>
      rw [enclose_cons, List.mem_append, List.mem_append, List.mem_cons] at h
      rcases h with ((rfl | h) | h) | h
      · exact .inl (by simp)
      · rcases mem_gap _ _ c h with rfl | rfl <;> exact .inl (by simp)
      · exact .inr ⟨cs, List.mem_cons_self, h⟩
      · rcases mem_itemsAfter h with h | ⟨ds, hds, h⟩
        · exact .inl (List.mem_cons_of_mem _ h)
        · exact .inr ⟨ds, List.mem_cons_of_mem cs hds, h⟩

/-- The characters that set out strings and words. -/
def marks : List Char := ['[', ']', '{', '}', ',', ':', ' ', '\n']

/-- **The characters of JSON text are those of its strings and words, and those that set them
out.** -/
theorem forall_mem_writeAt {p : Char → Prop} (hsorted : style.sorted = false)
    (hmarks : ∀ c ∈ marks, p c) {v : Value} (hv : v.IsJson)
    (h : v.Each (fun a => ∀ c ∈ writeAtom style a, p c)
      fun name => ∀ c ∈ writeString style.asciiOnly name.toList, p c) (depth : Nat) :
    ∀ c ∈ writeAt style depth v, p c := by
  refine Value.jsonInduct (motive := fun v => v.Each (fun a => ∀ c ∈ writeAtom style a, p c)
      (fun name => ∀ c ∈ writeString style.asciiOnly name.toList, p c) →
      ∀ depth, ∀ c ∈ writeAt style depth v, p c) ?atom ?list ?object hv h depth
  case atom => exact fun a _ h depth => Value.each_atom_iff.1 h
  case list =>
      intro xs _ ih h depth c hc
      rw [writeAt, writeItems_eq] at hc
      rcases mem_enclose hc with hc | ⟨cs, hcs, hc⟩
      · have hsub : ∀ c ∈ ['[', ',', ' ', '\n', ']'], c ∈ marks :=
          List.all_iff_forall_prop.1 (by decide)
        exact hmarks c (hsub c hc)
      · obtain ⟨v, hv, rfl⟩ := List.mem_map.1 hcs
        exact ih v hv (Value.each_list_iff.1 h v hv) (depth + 1) c hc
  case object =>
      intro ms _ _ ih h depth c hc
      obtain ⟨hname, h⟩ := Value.each_object_iff.1 h
      rw [writeAt_object _ _ hsorted] at hc
      rcases mem_enclose hc with hc | ⟨cs, hcs, hc⟩
      · have hsub : ∀ c ∈ ['{', ',', ' ', '\n', '}'], c ∈ marks :=
          List.all_iff_forall_prop.1 (by decide)
        exact hmarks c (hsub c hc)
      · obtain ⟨m, hm, rfl⟩ := List.mem_map.1 hcs
        rcases List.mem_append.1 hc with hc | hc
        · exact hname m hm c hc
        · rcases List.mem_cons.1 hc with rfl | hc
          · exact hmarks _ (by decide)
          · rcases List.mem_cons.1 hc with rfl | hc
            · exact hmarks _ (by decide)
            · exact ih m hm (h m hm) (depth + 1) c hc

end

end Json

end ApiScribe
