/-
**YAML text and back.**

The text of a mapping is made of lines.  By induction on a value, what is written after a key or a
mark is run over with the tokens of the value, and so the whole text has the tokens of the mapping.

Main definitions:

* `ApiScribe.Yaml.isKept` — whether a value is read back from the place where it is written.

Main results:

* `ApiScribe.Yaml.Lexing.setOut` — **the runs over a value in lines**;
* `ApiScribe.Yaml.tokensOf?_writeMembers` — the tokens of YAML text;
* `ApiScribe.Yaml.read?_writeMembers` — **YAML text is read as the value that it stands for**.
-/

import ApiScribe.Proofs.Yaml.Block
import ApiScribe.Proofs.Yaml.Lines
import Mathlib.Data.List.TakeWhile

set_option autoImplicit false

namespace ApiScribe.Yaml

/-! ### What is read back -/

/-- Whether a key is read back where a mapping is indented by `indent`: its text is kept, and if the
key stands in one line with its value, it is not too long. -/
def isKeptKey (indent : Nat) (k : Atom) : Bool :=
  isKeptAtom (indent + 2) k
    && (!isSimpleKey k || (writeScalar false (indent + 2) indent k).length ≤ maxKeyLength)

mutual

/-- Whether a value is read back where it follows a key or a mark in a block that is indented by
`indent`; `level` says that it follows a key in its line, so that the entries of a sequence are not
indented. -/
def isKept (level : Bool) (indent : Nat) : Value → Bool
  | .atom a => isKeptAtom (indent + 2) a
  | .list xs => isKeptItems (if level then indent else indent + 2) xs
  | .map ms => isKeptMembers (indent + 2) ms
  | _ => true

/-- Whether items are read back. -/
def isKeptItems (indent : Nat) : List Value → Bool
  | [] => true
  | v :: rest => isKept false indent v && isKeptItems indent rest

/-- Whether members are read back. -/
def isKeptMembers (indent : Nat) : Members Atom Value → Bool
  | [] => true
  | (k, v) :: rest =>
    isKeptKey indent k && isKept (isSimpleKey k) indent v && isKeptMembers indent rest

end

theorem isKeptItems_iff {indent : Nat} {xs : List Value} :
    isKeptItems indent xs = true ↔ ∀ v ∈ xs, isKept false indent v = true := by
  induction xs with
  | nil => simp [isKeptItems]
  | cons v xs ih => simp [isKeptItems, ih]

theorem isKeptMembers_iff {indent : Nat} {ms : Members String Value} :
    isKeptMembers indent ms.named = true ↔ ∀ m ∈ ms, isKeptKey indent (.text m.1) = true ∧
      isKept (isSimpleKey (.text m.1)) indent m.2 = true := by
  induction ms with
  | nil => simp [Members.named, isKeptMembers]
  | cons m ms ih =>
      rw [Members.named] at ih
      simp [Members.named, isKeptMembers, ih]

/-! ### What is written after keys and marks -/

theorem exists_writeAfterMark {v : Value} (hv : v.IsJson) (i : Nat) :
    ∃ cs, writeAfterMark i v = ' ' :: cs := by
  cases v with
  | atom a => exact ⟨_, rfl⟩
  | list xs => cases xs <;> exact ⟨_, rfl⟩
  | map ms => cases ms <;> exact ⟨_, rfl⟩
  | tuple xs => exact hv.elim
  | set xs => exact hv.elim

theorem endsHere_writeAfterKey {v : Value} (hv : v.IsJson) (i column : Nat) (rest : List Char) :
    endsHere (writeAfterKey i column v ++ rest) = true := by
  cases v with
  | atom a => rfl
  | list xs => cases xs <;> rfl
  | map ms => cases ms <;> rfl
  | tuple xs => exact hv.elim
  | set xs => exact hv.elim

/-- The lines of a member. -/
def memberLines (i : Nat) (m : String × Value) : List Char :=
  if isSimpleKey (.text m.1) then
    let key := writeScalar false (i + 2) i (.text m.1)
    key ++ ':' :: writeAfterKey i (i + key.length + 1) m.2
  else
    '?' :: ' ' :: writeScalar true (i + 2) (i + 2) (.text m.1)
      ++ newLine i ++ ':' :: writeAfterMark i m.2

/-- The tokens of a member. -/
def memberTokens (m : String × Value) : List Token :=
  .key :: tokenOf spelling (.text m.1) :: .value ::
    blockTokens spelling (isSimpleKey (.text m.1)) m.2

namespace Lexing

/-! ### Lines of values -/

/-- The runs over a value in lines. -/
structure SetOut (v : Value) : Prop where
  /-- After a key. -/
  afterKey : ∀ i column, isKept true i v = true →
    Follows i false (writeAfterKey i column v) (blockTokens spelling true v)
  /-- After a mark. -/
  afterMark : ∀ i, isKept false i v = true →
    Follows i true (writeAfterMark i v) (blockTokens spelling false v)

section

variable {i : Nat}

/-- The lines of a sequence. -/
theorem line_items {xs : List Value} (hne : xs ≠ []) (hxs : ∀ v ∈ xs, v.IsJson)
    (h : ∀ v ∈ xs, SetOut v) (hkept : isKeptItems i xs = true) :
    Line i .blockSequence (writeItems i xs) (blockItems spelling xs) := by
  induction xs with
  | nil => exact absurd rfl hne
  | cons v xs ih =>
      obtain ⟨cs, hcs⟩ := exists_writeAfterMark (hxs v List.mem_cons_self) i
      rw [isKeptItems, Bool.and_eq_true] at hkept
      have hv := (h v List.mem_cons_self).afterMark i hkept.1
      rw [hcs] at hv
      rw [writeItems, blockItems, hcs]
      cases xs with
      | nil => simpa [blockItems] using hv.entry
      | cons w xs =>
          exact hv.entry.append (ih (List.cons_ne_nil w xs)
            (fun u hu => hxs u (List.mem_cons_of_mem v hu))
            (fun u hu => h u (List.mem_cons_of_mem v hu)) hkept.2)

/-- The lines of a member. -/
theorem line_member {m : String × Value} (hm : m.2.IsJson) (h : SetOut m.2)
    (hkey : isKeptKey i (.text m.1) = true)
    (hkept : isKept (isSimpleKey (.text m.1)) i m.2 = true) :
    Line i .blockMapping (memberLines i m) (Yaml.memberTokens m) := by
  rw [isKeptKey, Bool.and_eq_true] at hkey
  obtain ⟨hname, hlength⟩ := hkey
  unfold memberLines Yaml.memberTokens
  cases hsimple : isSimpleKey (.text m.1) with
  | true =>
      rw [hsimple] at hkept hlength
      rw [isSimpleKey] at hsimple
      simp only [Bool.and_eq_true, Bool.not_eq_true', List.any_eq_false, Bool.not_eq_true] at hsimple
      have hlength : (writeScalar false (i + 2) i (.text m.1)).length ≤ maxKeyLength := by
        simpa using hlength
      have hfollows := h.afterKey i (i + (writeScalar false (i + 2) i (.text m.1)).length + 1) hkept
      have hline := hfollows.simpleKey (endsHere_writeAfterKey hm i _) hname hsimple.1.2 hlength
      rw [String.ofList_toList] at hline
      exact hline
  | false =>
      obtain ⟨cs, hcs⟩ := exists_writeAfterMark hm i
      rw [hsimple] at hkept
      have hfollows := h.afterMark i hkept
      rw [hcs] at hfollows ⊢
      have htext : (Atom.text m.1).IsJson := trivial
      have hline := hfollows.explicitKey htext hname (i + 2)
      rw [if_neg Bool.false_ne_true, List.append_assoc]
      exact hline

/-- The lines of a mapping. -/
theorem line_members {ms : Members String Value} (hne : ms ≠ []) (hms : ∀ m ∈ ms, m.2.IsJson)
    (h : ∀ m ∈ ms, SetOut m.2) (hkept : isKeptMembers i ms.named = true) :
    Line i .blockMapping (writeMembers i ms.named) (blockMembers spelling ms.named) := by
  have hwritten : ∀ (m : String × Value) (ms : Members String Value),
      writeMembers i (Members.named (m :: ms)) = memberLines i m
        ++ (if ms.isEmpty then [] else newLine i ++ writeMembers i ms.named) := by
    intro m ms
    simp only [Members.named, List.map_cons, writeMembers, memberLines, List.isEmpty_map]
  have htokens : ∀ (m : String × Value) (ms : Members String Value),
      blockMembers spelling (Members.named (m :: ms))
        = Yaml.memberTokens m ++ blockMembers spelling ms.named := fun _ _ => rfl
  rw [isKeptMembers_iff] at hkept
  induction ms with
  | nil => exact absurd rfl hne
  | cons m ms ih =>
      obtain ⟨hkey, hvalue⟩ := hkept m List.mem_cons_self
      have hm := line_member (hms m List.mem_cons_self) (h m List.mem_cons_self) hkey hvalue
      rw [hwritten, htokens]
      cases ms with
      | nil => simpa [Members.named, blockMembers] using hm
      | cons n ms =>
          exact hm.append (ih (List.cons_ne_nil n ms)
            (fun k hk => hms k (List.mem_cons_of_mem m hk))
            (fun k hk => h k (List.mem_cons_of_mem m hk))
            (fun k hk => hkept k (List.mem_cons_of_mem m hk)))

end

/-- **The runs over a value in lines.** -/
theorem setOut {v : Value} (hv : v.IsJson) : SetOut v := by
  refine Value.jsonInduct ?atom ?list ?object hv
  case atom =>
      intro a ha
      exact ⟨fun i column hkept => follows_atom false ha hkept _,
        fun i hkept => follows_atom true ha hkept _⟩
  case list =>
      intro xs hxs ih
      cases xs with
      | nil => exact ⟨fun i _ _ => follows_brackets false .array, fun i _ => follows_brackets true .array⟩
      | cons v xs =>
          refine ⟨fun i _ hkept => ?_, fun i hkept => ?_⟩
          · exact (line_items (List.cons_ne_nil v xs) hxs ih hkept).level
          · exact (line_items (List.cons_ne_nil v xs) hxs ih hkept).inline
  case object =>
      intro ms _ hms ih
      cases ms with
      | nil =>
          exact ⟨fun i _ _ => follows_brackets false .object, fun i _ => follows_brackets true .object⟩
      | cons m ms =>
          refine ⟨fun i _ hkept => ?_, fun i hkept => ?_⟩
          · exact (line_members (List.cons_ne_nil m ms) hms ih hkept).below
          · exact (line_members (List.cons_ne_nil m ms) hms ih hkept).inline

/-- At the end of the text all blocks end. -/
theorem Steady.finish_eq {st : Lexing} (h : st.Steady) (houter : st.outer = []) :
    st.finish = some (st.tokens.reverse ++ st.indents.map fun _ => .blockEnd) := by
  have hends := h.endBlocks fun _ => true
  have htake : st.indents.takeWhile (fun _ => true) = st.indents :=
    List.takeWhile_eq_self_iff.2 fun _ _ => rfl
  rw [finish, endAllBlocks, hends.dropKeyStart, Lexing.endBlocks, inFlow_of_outer houter]
  simp [htake]

end Lexing

/-! ### The whole text -/

/-- A text that starts with no byte-order mark is read from its first character on. -/
theorem spotsOf_eq {cs : List Char} (h : ∀ c ∈ cs, isClean c = true) : spotsOf cs = place {} cs := by
  cases cs with
  | nil => rfl
  | cons c cs =>
      have hc := h c List.mem_cons_self
      rw [isClean, Bool.and_eq_true, decide_eq_true_eq] at hc
      rw [spotsOf, place]
      exact if_neg hc.2

/-- **The tokens of YAML text.** -/
theorem tokensOf?_writeMembers {ms : Members String Value} (hv : (Value.object ms).IsJson)
    (hkept : isKeptMembers 0 ms.named = true) :
    tokensOf? (write ms.named) = some (blockTokens spelling false (.object ms)) := by
  cases ms with
  | nil => rfl
  | cons m ms =>
      have hms := (Value.isJson_object_iff.1 hv).2
      have hline := Lexing.line_members (List.cons_ne_nil m ms) hms
        (fun n hn => Lexing.setOut (hms n hn)) hkept
      have hwrite : write (Members.named (m :: ms))
          = writeMembers 0 (Members.named (m :: ms)) ++ newLine 0 := rfl
      have hstart : Lexing.AtLine {} {} := by
        refine ⟨⟨rfl, ?_, ?_⟩, rfl, rfl, ?_⟩ <;> simp
      have hend : StartsLine [] := ⟨rfl, fun _ => rfl⟩
      obtain ⟨st, hleads, hadds, houter, -⟩ := hline.run {} {} 0 [] hstart rfl (Nat.le_refl 0) hend
      have hclean := Lexing.isClean_append hline.clean (Lexing.isClean_newLine 0)
      rw [List.append_nil, ← hwrite] at hleads
      rw [← hwrite] at hclean
      have hallowed : (write (Members.named (m :: ms))).all isAllowed = true := by
        refine List.all_eq_true.2 fun c hc => ?_
        have hc := hclean c hc
        rw [isClean, Bool.and_eq_true] at hc
        exact hc.1
      obtain ⟨fuel, hfuel, heq⟩ := hleads ((write (Members.named (m :: ms))).length + 1) (by
        rw [length_place]
        exact Nat.lt_succ_self _)
      obtain ⟨fuel, rfl⟩ : ∃ k, fuel = k + 1 := ⟨fuel - 1, by omega⟩
      rw [tokensOf?, if_pos hallowed, spotsOf_eq hclean, heq]
      refine (hadds.steady.finish_eq houter).trans ?_
      have hopened : (Lexing.startBlock {} 0 .blockMapping).tokens = [.blockMapping] ∧
          (Lexing.startBlock {} 0 .blockMapping).indents = [0] := ⟨rfl, rfl⟩
      have htokens : blockTokens spelling false (.object (m :: ms))
          = .blockMapping :: blockMembers spelling (Members.named (m :: ms)) ++ [.blockEnd] := rfl
      rw [hadds.tokens, hadds.indents, hopened.1, hopened.2, htokens]
      simp

/-! ### Reading YAML text -/

/-- Texts are read as themselves: without quotes only if they are texts there. -/
theorem faithfulName_spelling (name : String) : Spelling.FaithfulName spelling name := by
  refine ⟨?_, rfl⟩
  cases hstyle : Style.ofText name.toList with
  | plain =>
      have htag := (of_style_plain hstyle).1
      simp only [Spelling.tag, spelling, hstyle, decide_true, if_true]
      exact htag
  | single => simp [Spelling.tag, spelling, hstyle]
  | double => simp [Spelling.tag, spelling, hstyle]

/-- Kept atoms are read as themselves. -/
theorem faithful_of_isKeptAtom {indent : Nat} {a : Atom} (ha : a.IsJson)
    (hkept : isKeptAtom indent a = true) : Spelling.Faithful spelling a := by
  cases a with
  | null => rfl
  | bool b => cases b <;> rfl
  | int n => exact Spelling.faithful_int rfl (by simpa [isKeptAtom] using hkept)
  | float x => exact Spelling.faithful_float ha rfl (point_mem_render ha.1)
  | text s => exact Spelling.faithful_text (faithfulName_spelling s)
  | bytes bs => exact ha.elim
  | date d => exact ha.elim
  | moment t => exact ha.elim

/-- Kept values hold atoms that are read as themselves. -/
theorem each_faithful {v : Value} (hv : v.IsJson) {level : Bool} {indent : Nat}
    (hkept : isKept level indent v = true) :
    v.Each (Spelling.Faithful spelling) (Spelling.FaithfulName spelling) := by
  refine Value.jsonInduct (motive := fun v => ∀ level indent, isKept level indent v = true →
    v.Each (Spelling.Faithful spelling) (Spelling.FaithfulName spelling)) ?atom ?list ?object hv level
    indent hkept
  case atom =>
      intro a ha level indent hkept
      exact .atom (faithful_of_isKeptAtom ha hkept)
  case list =>
      intro xs _ ih level indent hkept
      have hitems := isKeptItems_iff.1 hkept
      exact .list fun v hv => ih v hv false _ (hitems v hv)
  case object =>
      intro ms _ _ ih level indent hkept
      have hmembers := isKeptMembers_iff.1 hkept
      exact Value.each_object_iff.2 ⟨fun m _ => faithfulName_spelling m.1,
        fun m hm => ih m hm _ _ (hmembers m hm).2⟩

/-- **YAML text is read as the value that it stands for.** -/
theorem read?_writeMembers {ms : Members String Value} (hv : (Value.object ms).IsJson)
    (hkept : isKeptMembers 0 ms.named = true) :
    read? (write ms.named) = some ⟨.object ms, false⟩ := by
  have hms := (Value.isJson_object_iff.1 hv).2
  have hmembers := isKeptMembers_iff.1 hkept
  have heach : (Value.object ms).Each (Spelling.Faithful spelling) (Spelling.FaithfulName spelling) :=
    Value.each_object_iff.2 ⟨fun m _ => faithfulName_spelling m.1,
      fun m hm => each_faithful (hms m hm) (hmembers m hm).2⟩
  have htree := readTree_blockTokens spelling hv false .block
    (8 * ((blockTokens spelling false (.object ms)).length + 1)) [] (by decide)
    (fun h => absurd h Bool.false_ne_true) (by omega)
  rw [List.append_nil] at htree
  obtain ⟨t, ts, hcons, ht⟩ := blockTokens_head spelling hv
  refine read?_of_tokensOf? spelling (tokensOf?_writeMembers hv hkept) hcons ?_ htree hv heach
  cases t <;> cases ht <;> rfl

end ApiScribe.Yaml
