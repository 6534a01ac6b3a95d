/-
**JSON text is read back.**

Every part of a JSON text is read back in front of whatever may follow it: a string ends with its
quote, and a number before a character that cannot belong to it.  Floating-point numbers are left out,
and so are whole numbers with more digits than are read.

Main definitions:

* `ApiScribe.Json.IsWhole` — whether all numbers of a value are whole ones that can be read;
* `ApiScribe.Json.EndsNumber` — whether a number ends before a text;
* `ApiScribe.Json.Reads` — a text is read as a value in front of what may follow it.

Main results:

* `ApiScribe.Json.readString_writeString`, `ApiScribe.Json.readNumber_integerText` — strings and whole
  numbers are read back;
* `ApiScribe.Json.reads_writeAt` — so is a value at any depth;
* `ApiScribe.Json.read?_write`, `ApiScribe.Json.read?_textOfBytes?_write` — **the JSON text of a value,
  and the bytes of the text, are read as the value**.
-/

import ApiScribe.Json.Reader
import ApiScribe.Proofs.Json.Written
import ApiScribe.Proofs.Text.Utf8

set_option autoImplicit false

namespace ApiScribe

namespace Json

/-! ### Strings -/

theorem readPieces_letter {letter c : Char} (h : (letter, c) ∈ letterEscapes) (cs : List Char) :
    readPieces ('\\' :: letter :: cs)
      = (readPieces cs).map fun (ps, rest) => (.char c :: ps, rest) := by
  simp only [letterEscapes, List.mem_cons, Prod.mk.injEq, List.not_mem_nil, or_false] at h
  rcases h with ⟨rfl, rfl⟩ | ⟨rfl, rfl⟩ | ⟨rfl, rfl⟩ | ⟨rfl, rfl⟩ | ⟨rfl, rfl⟩ | ⟨rfl, rfl⟩ |
    ⟨rfl, rfl⟩ <;> rfl

theorem readPieces_code {u : Nat} (hu : u < 0x10000) (cs : List Char) :
    readPieces ('\\' :: 'u' :: hexDigits 4 u ++ cs)
      = (readPieces cs).map fun (ps, rest) => (.unit u :: ps, rest) := by
  obtain ⟨a, b, c, d, hdigits⟩ : ∃ a b c d, hexDigits 4 u = [a, b, c, d] :=
    ⟨_, _, _, _, rfl⟩
  have hunit : unitOf? a b c d = some u := by
    have hall : ([a, b, c, d].all isHexDigit) = true := by
      rw [← hdigits, List.all_eq_true]
      intro e he
      obtain ⟨k, hk, rfl⟩ := mem_hexDigits he
      rw [isHexDigit, digitValue?_hexDigit hk]
      rfl
    have hvalue : natOfHex [a, b, c, d] 0 = u := by
      rw [← hdigits, natOfHex_hexDigits]
      exact Nat.mod_eq_of_lt hu
    rw [unitOf?, if_pos hall]
    exact congrArg some hvalue
  rw [hdigits, List.cons_append, List.cons_append, List.cons_append, List.cons_append,
    List.cons_append, List.cons_append, List.nil_append, readPieces, hunit]

theorem readPieces_bare {c : Char} (h : 0x20 ≤ c.toNat) (hquote : c ≠ '"') (hslash : c ≠ '\\')
    (cs : List Char) :
    readPieces (c :: cs) = (readPieces cs).map fun (ps, rest) => (.char c :: ps, rest) := by
  rw [readPieces, if_neg (Nat.not_lt.2 h)]
  · exact hquote
  · exact fun _ _ _ _ _ heq => absurd heq hslash
  · exact fun _ _ heq => absurd heq hslash

/-- A unit that is no half of a pair stands for itself. -/
theorem joinPieces_some {u : Nat} (hu : u < 0xD800) (ps : List Piece) :
    joinPieces (some u) ps = charOfCode u :: joinPieces none ps := by
  rcases ps with _ | ⟨p, ps⟩
  · rfl
  · cases p with
    | char c => rfl
    | unit v =>
        have hpair : pairChar? u v = none := if_neg (by omega)
        simp only [joinPieces, hpair]

/-- The pieces of what JSON writes for a text are joined to the text. -/
theorem exists_readPieces (cs rest : List Char) :
    ∃ ps, readPieces (cs.flatMap (escapeChar false) ++ '"' :: rest) = some (ps, rest) ∧
      joinPieces none ps = cs := by
  induction cs with
  | nil => exact ⟨[], rfl, rfl⟩
  | cons c cs ih =>
      obtain ⟨ps, hps, hjoin⟩ := ih
      rw [List.flatMap_cons, List.append_assoc]
      have hescaped := escaped_escapeChar c
      generalize escapeChar false c = written at hescaped
      cases hescaped with
      | letter h =>
          refine ⟨.char c :: ps, ?_, congrArg (c :: ·) hjoin⟩
          rw [List.cons_append, List.singleton_append, readPieces_letter h, hps, Option.map_some]
      | code h =>
          refine ⟨.unit c.toNat :: ps, ?_, ?_⟩
          · rw [readPieces_code (by omega), hps, Option.map_some]
          · rw [joinPieces, joinPieces_some (by omega), charOfCode_toNat, hjoin]
      | bare hle hquote hslash =>
          refine ⟨.char c :: ps, ?_, congrArg (c :: ·) hjoin⟩
          rw [List.singleton_append, readPieces_bare hle hquote hslash, hps, Option.map_some]

/-- What JSON writes for a text is read as the text. -/
theorem readString_writeString (cs rest : List Char) :
    readString ((writeString false cs).tail ++ rest) = some (cs, rest) := by
  obtain ⟨ps, hps, hjoin⟩ := exists_readPieces cs rest
  rw [writeString, List.cons_append, List.tail_cons, List.append_assoc, List.singleton_append,
    readString, hps, Option.map_some]
  exact congrArg (fun ds => some (ds, rest)) hjoin

/-! ### Whole numbers -/

/-- Whether a number ends before a text: the first character is none that may go on with it. -/
def EndsNumber (cs : List Char) : Prop :=
  ∀ c rest, cs = c :: rest → c.isDigit = false ∧ c ≠ '.' ∧ c ≠ 'e' ∧ c ≠ 'E'

theorem endsNumber_nil : EndsNumber [] := fun _ _ h => by cases h

theorem EndsNumber.take?_eq_none {cs : List Char} (h : EndsNumber cs) : Fraction.take? cs = none := by
  cases cs with
  | nil => rfl
  | cons c rest =>
      obtain ⟨-, hpoint, hsmall, hlarge⟩ := h c rest rfl
      have hnopoint : takePoint (c :: rest) = none := by
        unfold takePoint
        split
        · rename_i heq
          exact absurd (List.cons.inj heq).1 hpoint
        · rfl
      have hnopower : takePower (c :: rest) = none := if_neg (not_or.2 ⟨hsmall, hlarge⟩)
      rw [Fraction.take?, hnopoint, hnopower, Option.map_none]

/-- The digits of a whole number start with a digit. -/
theorem exists_decimalDigits_eq (n : Nat) :
    ∃ c cs, c.isDigit = true ∧ decimalDigits n = c :: cs := by
  have h := (Decimal.ofNat n).exists_text_eq
  rwa [Decimal.text_ofNat] at h

theorem takeWhole_decimalDigits (n : Nat) {rest : List Char} (h : EndsNumber rest) :
    takeWhole (decimalDigits n ++ rest) = some (decimalDigits n, rest) := by
  rcases Nat.eq_zero_or_pos n with rfl | hpos
  · rfl
  · have htake : takeDigits (decimalDigits n ++ rest) = (decimalDigits n, rest) :=
      takeDigits_append (fun d hd => isDigit_of_mem_decimalDigits hd) fun d ds heq => (h d ds heq).1
    obtain ⟨c, cs, hc, hdigits⟩ := exists_decimalDigits_eq n
    have hzero := head_decimalDigits hpos hdigits
    rw [hdigits, List.cons_append] at htake ⊢
    rw [takeWhole, if_pos hc, htake]
    exact fun heq => absurd heq hzero

theorem readUnsigned_decimalDigits (negative : Bool) {n : Nat}
    (hn : (decimalDigits n).length ≤ maxIntegerDigits) {rest : List Char} (h : EndsNumber rest) :
    readUnsigned negative (decimalDigits n ++ rest)
      = some (.int (if negative then -n else n), rest) := by
  rw [readUnsigned, takeWhole_decimalDigits n h]
  simp only [h.take?_eq_none, if_pos hn, natOfDecimal_decimalDigits]

/-- What JSON writes for a whole number is read as the number. -/
theorem readNumber_integerText {n : Int} (hn : (decimalDigits n.natAbs).length ≤ maxIntegerDigits)
    {rest : List Char} (h : EndsNumber rest) :
    readNumber (integerText n ++ rest) = some (.int n, rest) := by
  cases n with
  | ofNat k =>
      have hread := readUnsigned_decimalDigits false hn h
      obtain ⟨c, cs, hc, hdigits⟩ := exists_decimalDigits_eq k
      have hminus : c ≠ '-' := by
        rintro rfl
        cases hc
      rw [Int.natAbs_ofNat', hdigits, List.cons_append] at hread
      rw [integerText, hdigits, List.cons_append, readNumber, hread]
      · rfl
      · exact fun _ heq => hminus (List.cons.inj heq).1
  | negSucc k => exact readUnsigned_decimalDigits true hn h

/-! ### Values -/

/-- Whether an atom is no floating-point number, and no whole number with too many digits. -/
def isWholeAtom : Atom → Bool
  | .int n => (decimalDigits n.natAbs).length ≤ maxIntegerDigits
  | .float _ => false
  | _ => true

/-- Whether all numbers of a value are whole ones that can be read. -/
def IsWhole (v : Value) : Prop := v.Each (isWholeAtom · = true) fun _ => True

/-- Whether a value may start with a character: it is an ASCII character, no blank, and does not close
an array. -/
def startsValue (c : Char) : Bool := c.toNat < 0x80 && !isSpace c && c ≠ ']'

/-- A text is read as a value in front of what may follow it, if there is fuel for its characters. -/
structure Reads (cs : List Char) (v : Value) : Prop where
  /-- It starts as a value may. -/
  starts : ∃ c ds, cs = c :: ds ∧ startsValue c = true
  /-- It is read as the value. -/
  read : ∀ {fuel : Nat} {rest : List Char}, cs.length ≤ fuel → EndsNumber rest →
    readValue fuel (cs ++ rest) = some (v, rest)

theorem readValue_string (fuel : Nat) (cs rest : List Char) :
    readValue (fuel + 1) (writeString false cs ++ rest) = some (.text (String.ofList cs), rest) := by
  have hread := readString_writeString cs rest
  have hcons : writeString false cs = '"' :: (writeString false cs).tail := rfl
  rw [hcons, List.cons_append, readValue, hread, Option.map_some]

theorem readValue_number (fuel : Nat) {c : Char} {cs : List Char} (hc : c.isDigit = true ∨ c = '-') :
    readValue (fuel + 1) (c :: cs) = (readNumber (c :: cs)).map fun (a, rest) => (.atom a, rest) := by
  rw [readValue]
  all_goals
    intro rest heq
    obtain ⟨rfl, -⟩ := List.cons.inj heq
    exact absurd hc (by decide)

/-- An atom needs fuel for one part only. -/
theorem reads_of_succ {cs : List Char} {v : Value}
    (hstarts : ∃ c ds, cs = c :: ds ∧ startsValue c = true)
    (hread : ∀ (fuel : Nat) {rest : List Char}, EndsNumber rest →
      readValue (fuel + 1) (cs ++ rest) = some (v, rest)) : Reads cs v where
  starts := hstarts
  read {fuel _} hfuel hrest := by
    obtain ⟨c, ds, rfl, -⟩ := hstarts
    have hpos : 1 ≤ fuel := Nat.le_trans (Nat.succ_le_succ ds.length.zero_le) hfuel
    obtain ⟨k, rfl⟩ := Nat.exists_eq_add_of_le' hpos
    exact hread k hrest

/-- Atoms are read back. -/
theorem reads_writeAtom {style : Style} (hascii : style.asciiOnly = false) {a : Atom} (ha : a.IsJson)
    (hwhole : isWholeAtom a = true) : Reads (writeAtom style a) (.atom a) := by
  cases a with
  | null => exact reads_of_succ ⟨'n', _, rfl, by decide⟩ fun _ _ _ => rfl
  | bool b =>
      cases b with
      | false => exact reads_of_succ ⟨'f', _, rfl, by decide⟩ fun _ _ _ => rfl
      | true => exact reads_of_succ ⟨'t', _, rfl, by decide⟩ fun _ _ _ => rfl
  | int n =>
      obtain ⟨c, cs, hc, htext⟩ :
          ∃ c cs, (c.isDigit = true ∨ c = '-') ∧ integerText n = c :: cs := by
        cases n with
        | ofNat k =>
            obtain ⟨c, cs, hc, hdigits⟩ := exists_decimalDigits_eq k
            exact ⟨c, cs, .inl hc, hdigits⟩
        | negSucc k => exact ⟨'-', _, .inr rfl, rfl⟩
      have hstarts : startsValue c = true := by
        rcases hc with hc | rfl
        · have hall : ∀ d ∈ Decimal.alphabet.take 10, startsValue d = true :=
            List.all_iff_forall_prop.1 (by decide)
          exact hall c (Decimal.mem_alphabet_of_isDigit hc)
        · decide
      refine reads_of_succ ⟨c, cs, htext, hstarts⟩ fun fuel rest hrest => ?_
      have hread := readNumber_integerText (of_decide_eq_true hwhole) hrest
      rw [htext, List.cons_append] at hread
      rw [writeAtom, htext, List.cons_append, readValue_number fuel hc, hread, Option.map_some]
  | text s =>
      rw [writeAtom_text, hascii]
      refine reads_of_succ ⟨'"', _, rfl, by decide⟩ fun fuel rest _ => ?_
      have hread := readValue_string fuel s.toList rest
      rwa [String.ofList_toList] at hread
  | float x => cases hwhole
  | bytes bs => exact ha.elim
  | date d => exact ha.elim
  | moment t => exact ha.elim

/-! ### Items -/

theorem skipSpace_append {bs cs : List Char} (hbs : ∀ b ∈ bs, b = '\n' ∨ b = ' ')
    (hcs : ∀ c ds, cs = c :: ds → isSpace c = false) : skipSpace (bs ++ cs) = cs := by
  have hskip : skipSpace (bs ++ cs) = skipSpace cs := by
    refine List.dropWhile_append_of_pos fun b hb => ?_
    rcases hbs b hb with rfl | rfl <;> decide
  rw [hskip]
  cases cs with
  | nil => rfl
  | cons c ds => exact List.dropWhile_cons_of_neg (by rw [hcs c ds rfl]; exact Bool.false_ne_true)

section

variable {style : Style} {depth : Nat} {closing : Char}

theorem endsNumber_itemsAfter (hclosing : closing = ']' ∨ closing = '}') (items : List (List Char))
    (rest : List Char) : EndsNumber (itemsAfter style depth closing items ++ rest) := by
  have hfirst : ∃ c cs, itemsAfter style depth closing items ++ rest = c :: cs ∧
      c ∈ [',', '\n', ']', '}'] := by
    cases items with
    | nil =>
        rw [itemsAfter, gap]
        split
        · exact ⟨'\n', _, rfl, by decide⟩
        · exact ⟨closing, _, rfl, by rcases hclosing with rfl | rfl <;> decide⟩
    | cons cs items => exact ⟨',', _, rfl, by decide⟩
  obtain ⟨c, cs, hcons, hc⟩ := hfirst
  have hall : ∀ c ∈ [',', '\n', ']', '}'], c.isDigit = false ∧ c ≠ '.' ∧ c ≠ 'e' ∧ c ≠ 'E' :=
    List.all_iff_forall_prop.1 (by decide)
  intro d ds heq
  rw [hcons] at heq
  obtain ⟨rfl, -⟩ := List.cons.inj heq
  exact hall c hc

theorem skipSpace_itemsAfter_nil (hclosing : closing = ']' ∨ closing = '}') (rest : List Char) :
    skipSpace (itemsAfter style depth closing [] ++ rest) = closing :: rest := by
  rw [itemsAfter, List.append_assoc, List.singleton_append]
  refine skipSpace_append (mem_gap style depth) fun c ds heq => ?_
  obtain ⟨rfl, -⟩ := List.cons.inj heq
  rcases hclosing with rfl | rfl <;> decide

theorem skipSpace_itemsAfter_cons (cs : List Char) (items : List (List Char)) (rest : List Char) :
    skipSpace (itemsAfter style depth closing (cs :: items) ++ rest)
      = ',' :: (gapAfterComma style (depth + 1) ++ (cs ++
          (itemsAfter style depth closing items ++ rest))) := by
  simp only [itemsAfter, List.cons_append, List.append_assoc]
  rfl

theorem length_itemsAfter_pos (items : List (List Char)) :
    0 < (itemsAfter style depth closing items).length := by
  cases items with
  | nil =>
      rw [itemsAfter, List.length_append]
      exact Nat.succ_pos _
  | cons cs items => exact Nat.succ_pos _

/-- The fuel for an item and what follows it is enough for the item alone, after one step. -/
theorem exists_fuel {cs : List Char} {items : List (List Char)} {fuel : Nat}
    (hfuel : (cs ++ itemsAfter style depth closing items).length ≤ fuel) :
    ∃ k, fuel = k + 1 ∧ cs.length ≤ k := by
  have hpos := @length_itemsAfter_pos style depth closing items
  rw [List.length_append] at hfuel
  exact ⟨fuel - 1, by omega, by omega⟩

/-- The fuel for items between brackets is enough for what stands after the first bracket, after one
step. -/
theorem exists_fuel_enclose {opening : Char} {cs : List Char} {items : List (List Char)} {fuel : Nat}
    (hfuel : (enclose style depth opening closing (cs :: items)).length ≤ fuel) :
    ∃ k, fuel = k + 1 ∧ (cs ++ itemsAfter style depth closing items).length ≤ k := by
  rw [enclose_cons] at hfuel
  simp only [List.length_append, List.length_cons] at hfuel ⊢
  exact ⟨fuel - 1, by omega, by omega⟩

/-- The fuel that is left after an item is enough for the next one and what follows it. -/
theorem length_le_of_itemsAfter {cs ds : List Char} {items : List (List Char)} {k : Nat}
    (hfuel : (cs ++ itemsAfter style depth closing (ds :: items)).length ≤ k + 1) :
    (ds ++ itemsAfter style depth closing items).length ≤ k := by
  rw [itemsAfter] at hfuel
  simp only [List.length_append, List.length_cons] at hfuel ⊢
  omega

/-! ### Arrays -/

theorem readItems_last {fuel : Nat} {cs mid rest : List Char} {v : Value}
    (h : readValue fuel cs = some (v, mid)) (hnext : skipSpace mid = ']' :: rest) :
    readItems (fuel + 1) cs = some ([v], rest) := by
  rw [readItems, h]
  simp only [hnext]

theorem readItems_comma {fuel : Nat} {cs mid rest : List Char} {v : Value}
    (h : readValue fuel cs = some (v, mid)) (hnext : skipSpace mid = ',' :: rest) :
    readItems (fuel + 1) cs
      = (readItems fuel (skipSpace rest)).map fun (vs, rest) => (v :: vs, rest) := by
  rw [readItems, h]
  simp only [hnext]

/-- A text that is read as a value is not skipped with the blanks before it. -/
theorem Reads.skipSpace {cs : List Char} {v : Value} (h : Reads cs v) (bs : List Char)
    (hbs : ∀ b ∈ bs, b = '\n' ∨ b = ' ') (rest : List Char) :
    skipSpace (bs ++ (cs ++ rest)) = cs ++ rest := by
  obtain ⟨c, ds, rfl, hc⟩ := h.starts
  simp only [startsValue, Bool.and_eq_true, Bool.not_eq_true'] at hc
  refine skipSpace_append hbs fun d es heq => ?_
  obtain ⟨rfl, -⟩ := List.cons.inj heq
  exact hc.1.2

/-- The items of an array are read back, with the closing bracket. -/
theorem readItems_itemsAfter {written : Value → List Char} {x : Value} {xs : List Value}
    (hread : ∀ v ∈ x :: xs, Reads (written v) v) {fuel : Nat} (rest : List Char)
    (hfuel : (written x ++ itemsAfter style depth ']' (xs.map written)).length ≤ fuel) :
    readItems fuel (written x ++ (itemsAfter style depth ']' (xs.map written) ++ rest))
      = some (x :: xs, rest) := by
  induction xs generalizing x fuel with
  | nil =>
      obtain ⟨k, rfl, hk⟩ := exists_fuel hfuel
      exact readItems_last
        ((hread x List.mem_cons_self).read hk (endsNumber_itemsAfter (.inl rfl) _ _))
        (skipSpace_itemsAfter_nil (.inl rfl) rest)
  | cons y ys ih =>
      obtain ⟨k, rfl, hk⟩ := exists_fuel hfuel
      have hread' : ∀ v ∈ y :: ys, Reads (written v) v := fun v hv =>
        hread v (List.mem_cons_of_mem x hv)
      rw [List.map_cons, readItems_comma
          ((hread x List.mem_cons_self).read hk (endsNumber_itemsAfter (.inl rfl) _ _))
          (skipSpace_itemsAfter_cons _ _ rest),
        (hread' y List.mem_cons_self).skipSpace _ (mem_gapAfterComma _ _),
        ih hread' (length_le_of_itemsAfter hfuel), Option.map_some]

theorem readValue_array (fuel : Nat) {bs cs : List Char} {x : Value}
    (hbs : ∀ b ∈ bs, b = '\n' ∨ b = ' ') (hx : Reads cs x) (rest : List Char) :
    readValue (fuel + 1) ('[' :: (bs ++ (cs ++ rest)))
      = (readItems fuel (cs ++ rest)).map fun (xs, rest) => (.list xs, rest) := by
  rw [readValue, hx.skipSpace bs hbs]
  split
  · rename_i heq
    obtain ⟨c, ds, rfl, hc⟩ := hx.starts
    obtain ⟨rfl, -⟩ := List.cons.inj heq
    exact absurd hc (by decide)
  · rfl

/-- Arrays are read back. -/
theorem reads_list {xs : List Value} (h : ∀ v ∈ xs, Reads (writeAt style (depth + 1) v) v) :
    Reads (writeAt style depth (.list xs)) (.list xs) := by
  rw [writeAt, writeItems_eq]
  cases xs with
  | nil => exact reads_of_succ ⟨'[', _, rfl, by decide⟩ fun _ _ _ => rfl
  | cons x xs =>
      refine ⟨⟨'[', _, rfl, by decide⟩, fun {fuel rest} hfuel _ => ?_⟩
      obtain ⟨k, rfl, hk⟩ := exists_fuel_enclose hfuel
      rw [List.map_cons, enclose_cons, List.cons_append, List.cons_append, List.cons_append,
        List.append_assoc, List.append_assoc,
        readValue_array k (mem_gap style (depth + 1)) (h x List.mem_cons_self),
        readItems_itemsAfter h rest hk, Option.map_some]

/-! ### Objects -/

/-- A member starts with the quote of its name. -/
theorem skipSpace_writeMember {bs : List Char} (hbs : ∀ b ∈ bs, b = '\n' ∨ b = ' ')
    (m : String × Value) (rest : List Char) :
    skipSpace (bs ++ (writeMember style depth m ++ rest)) = writeMember style depth m ++ rest := by
  refine skipSpace_append hbs fun c cs heq => ?_
  obtain ⟨rfl, -⟩ := List.cons.inj heq
  decide

theorem readValue_object (fuel : Nat) {bs : List Char} (hbs : ∀ b ∈ bs, b = '\n' ∨ b = ' ')
    (m : String × Value) (rest : List Char) :
    readValue (fuel + 1) ('{' :: (bs ++ (writeMember style depth m ++ rest)))
      = (readMembers fuel (writeMember style depth m ++ rest)).map fun (ms, rest) =>
          (.map (Members.ofList ms), rest) := by
  rw [readValue, skipSpace_writeMember hbs]
  rfl

section

variable (hascii : style.asciiOnly = false)

include hascii

theorem writeMember_append (m : String × Value) (rest : List Char) :
    writeMember style depth m ++ rest
      = '"' :: ((writeString false m.1.toList).tail
        ++ ':' :: ' ' :: (writeAt style depth m.2 ++ rest)) := by
  rw [writeMember, hascii, List.append_assoc]
  rfl

section

variable {m : String × Value} (h : Reads (writeAt style depth m.2) m.2) {fuel : Nat}
  (hfuel : (writeAt style depth m.2).length ≤ fuel) {after rest : List Char}
  (hafter : EndsNumber after)

include h hfuel hafter

theorem readMembers_last (hnext : skipSpace after = '}' :: rest) :
    readMembers (fuel + 1) (writeMember style depth m ++ after)
      = some ([(.text m.1, m.2)], rest) := by
  have hskip := h.skipSpace [' '] (List.forall_mem_singleton.2 (.inr rfl)) after
  have hcolon (cs : List Char) : skipSpace (':' :: cs) = ':' :: cs := rfl
  rw [List.singleton_append] at hskip
  rw [writeMember_append hascii, readMembers, readString_writeString]
  simp only [hcolon, hskip, h.read hfuel hafter, hnext, String.ofList_toList]

theorem readMembers_comma (hnext : skipSpace after = ',' :: rest) :
    readMembers (fuel + 1) (writeMember style depth m ++ after)
      = (readMembers fuel (skipSpace rest)).map fun (ms, rest) =>
          ((.text m.1, m.2) :: ms, rest) := by
  have hskip := h.skipSpace [' '] (List.forall_mem_singleton.2 (.inr rfl)) after
  have hcolon (cs : List Char) : skipSpace (':' :: cs) = ':' :: cs := rfl
  rw [List.singleton_append] at hskip
  rw [writeMember_append hascii, readMembers, readString_writeString]
  simp only [hcolon, hskip, h.read hfuel hafter, hnext, String.ofList_toList]

end

/-- The members of an object are read back, with the closing bracket. -/
theorem readMembers_itemsAfter {m : String × Value} {ms : Members String Value}
    (hread : ∀ n ∈ m :: ms, Reads (writeAt style (depth + 1) n.2) n.2) {fuel : Nat} (rest : List Char)
    (hfuel : (writeMember style (depth + 1) m
      ++ itemsAfter style depth '}' (ms.map (writeMember style (depth + 1)))).length ≤ fuel) :
    readMembers fuel (writeMember style (depth + 1) m
        ++ (itemsAfter style depth '}' (ms.map (writeMember style (depth + 1))) ++ rest))
      = some (Members.named (m :: ms), rest) := by
  have hvalue {n : String × Value} {k : Nat} (h : (writeMember style (depth + 1) n).length ≤ k) :
      (writeAt style (depth + 1) n.2).length ≤ k := by
    rw [writeMember, List.length_append, List.length_cons, List.length_cons] at h
    omega
  induction ms generalizing m fuel with
  | nil =>
      obtain ⟨k, rfl, hk⟩ := exists_fuel hfuel
      exact readMembers_last hascii (hread m List.mem_cons_self) (hvalue hk)
        (endsNumber_itemsAfter (.inr rfl) _ _) (skipSpace_itemsAfter_nil (.inr rfl) rest)
  | cons n ms ih =>
      obtain ⟨k, rfl, hk⟩ := exists_fuel hfuel
      have hread' : ∀ o ∈ n :: ms, Reads (writeAt style (depth + 1) o.2) o.2 := fun o ho =>
        hread o (List.mem_cons_of_mem m ho)
      rw [List.map_cons, readMembers_comma hascii (hread m List.mem_cons_self) (hvalue hk)
          (endsNumber_itemsAfter (.inr rfl) _ _) (skipSpace_itemsAfter_cons _ _ rest),
        skipSpace_writeMember (mem_gapAfterComma style (depth + 1)),
        ih hread' (length_le_of_itemsAfter hfuel)]
      rfl

/-- Objects are read back. -/
theorem reads_object (hsorted : style.sorted = false) {ms : Members String Value}
    (hn : ms.keys.Nodup) (h : ∀ m ∈ ms, Reads (writeAt style (depth + 1) m.2) m.2) :
    Reads (writeAt style depth (.object ms)) (.object ms) := by
  rw [writeAt_object _ _ hsorted]
  cases ms with
  | nil => exact reads_of_succ ⟨'{', _, rfl, by decide⟩ fun _ _ _ => rfl
  | cons m ms =>
      refine ⟨⟨'{', _, rfl, by decide⟩, fun {fuel rest} hfuel _ => ?_⟩
      obtain ⟨k, rfl, hk⟩ := exists_fuel_enclose hfuel
      have hnames := Members.ofList_eq_self (Members.nodup_keys_named.2 hn)
      rw [List.map_cons, enclose_cons, List.cons_append, List.cons_append, List.cons_append,
        List.append_assoc, List.append_assoc, readValue_object k (mem_gap style (depth + 1)),
        readMembers_itemsAfter hascii h rest hk, Option.map_some]
      exact congrArg (fun ns => some (Value.map ns, rest)) hnames

end

end

/-! ### Whole values -/

section

variable {style : Style} (hascii : style.asciiOnly = false) (hsorted : style.sorted = false)
  {v : Value} (hv : v.IsJson) (hwhole : IsWhole v)

include hascii hsorted hv hwhole

/-- **Values are read back.** -/
theorem reads_writeAt (depth : Nat) : Reads (writeAt style depth v) v := by
  refine Value.jsonInduct (motive := fun v => IsWhole v → ∀ depth, Reads (writeAt style depth v) v)
    ?atom ?list ?object hv hwhole depth
  case atom =>
      intro a ha hwhole depth
      exact reads_writeAtom hascii ha (Value.each_atom_iff.1 hwhole)
  case list =>
      intro xs _ ih hwhole depth
      exact reads_list fun v hv => ih v hv (Value.each_list_iff.1 hwhole v hv) (depth + 1)
  case object =>
      intro ms hn _ ih hwhole depth
      obtain ⟨-, hwhole⟩ := Value.each_object_iff.1 hwhole
      exact reads_object hascii hsorted hn fun m hm => ih m hm (hwhole m hm) (depth + 1)

/-- **The JSON text of a value is read as the value.** -/
theorem read?_write : read? (write style v) = some v := by
  have hreads := reads_writeAt hascii hsorted hv hwhole 0
  have hread := @Reads.read _ _ hreads _ [] (Nat.le_succ _) endsNumber_nil
  have hskip := hreads.skipSpace [] (List.forall_mem_nil _) []
  rw [List.nil_append, List.append_nil] at hskip
  rw [List.append_nil] at hread
  rw [read?, write, hskip, hread]
  rfl

/-- JSON text has no null character: in a string it is written by its code point. -/
theorem null_not_mem_write : '\x00' ∉ write style v := by
  have hstring : ∀ s : List Char, ∀ c ∈ writeString false s, c ≠ '\x00' := by
    rintro s c hc rfl
    rcases mem_writeString hc with hc | ⟨-, hc⟩
    · exact absurd hc (by decide)
    · exact absurd hc (by decide)
  have hmarks : ∀ c ∈ marks, c ≠ '\x00' := List.all_iff_forall_prop.1 (by decide)
  refine fun hmem => forall_mem_writeAt hsorted hmarks hv ?_ 0 _ hmem rfl
  rw [hascii]
  refine hwhole.imp_of_isJson hv (fun a ha _ => ?_) fun name _ => hstring name.toList
  by_cases htext : ∃ s, a = .text s
  · obtain ⟨s, rfl⟩ := htext
    rw [writeAtom_text, hascii]
    exact hstring s.toList
  · have hword := @isWord_writeAtom style a ha fun s hs => htext ⟨s, hs⟩
    rintro c hc rfl
    exact absurd (hword.chars _ hc) (by decide)

/-- **The bytes of the JSON text of a value are read as the value.** -/
theorem read?_textOfBytes?_write :
    (textOfBytes? (Utf8.encode (write style v))).bind read? = some v := by
  have hnull := null_not_mem_write hascii hsorted hv hwhole
  have hread := read?_write hascii hsorted hv hwhole
  obtain ⟨c, cs, htext, hc⟩ := (reads_writeAt hascii hsorted hv hwhole 0).starts
  simp only [startsValue, Bool.and_eq_true, decide_eq_true_eq] at hc
  rw [write] at hnull hread ⊢
  rw [htext] at hnull hread ⊢
  rw [textOfBytes?_encode hc.1.1 hnull, Option.bind_some, hread]

end

end Json

end ApiScribe
