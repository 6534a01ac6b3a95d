/-
**From the tokens of a value back to the value.**

A value may be set out inside brackets and braces, or in blocks of lines, which is the subject of
another module.  Either comes with a way to write atoms, which is a parameter here.  The tokens inside
brackets are read as a tree, and the tree stands for the value if each written atom stands for the
atom.

Main definitions:

* `ApiScribe.Yaml.Spelling` — how atoms are written;
* `ApiScribe.Yaml.treeOf` — the tree of a value;
* `ApiScribe.Yaml.flowTokens` — the tokens of a value inside brackets;
* `ApiScribe.Yaml.Spelling.Faithful`, `ApiScribe.Yaml.Spelling.FaithfulName` — a written atom, or the
  name of a member, is read as itself.

Main results:

* `ApiScribe.Yaml.readTree_flowTokens` — **the tokens inside brackets are read as the tree**;
* `ApiScribe.Yaml.standsFor` — **the tree stands for the value**;
* `ApiScribe.Yaml.read?_of_tokensOf?` — a text with the tokens of a value is read as the value.
-/

import ApiScribe.Proofs.Data.Json
import ApiScribe.Proofs.Yaml.Literal
import ApiScribe.Yaml.Reader

set_option autoImplicit false

namespace ApiScribe.Yaml

/-- How atoms are written: whether without quotes, and with which text. -/
abbrev Spelling := Atom → Bool × String

variable (spell : Spelling)

/-! ### Trees -/

/-- A written atom. -/
def scalarOf (a : Atom) : Tree := .scalar {} (spell a).1 (spell a).2

mutual

/-- The tree of a value. -/
def treeOf : Value → Tree
  | .atom a => scalarOf spell a
  | .list xs => .sequence {} (treesOf xs)
  | .map ms => .mapping {} (memberTreesOf ms)
  | _ => .empty

/-- The trees of items. -/
def treesOf : List Value → List Tree
  | [] => []
  | v :: rest => treeOf v :: treesOf rest

/-- The trees of members. -/
def memberTreesOf : Members Atom Value → List (Tree × Tree)
  | [] => []
  | (k, v) :: rest => (scalarOf spell k, treeOf v) :: memberTreesOf rest

end

/-! ### Tokens -/

/-- The token of an atom. -/
def tokenOf (a : Atom) : Token := .scalar (spell a).1 (spell a).2

mutual

/-- The tokens of a value inside brackets. -/
def flowTokens : Value → List Token
  | .atom a => [tokenOf spell a]
  | .list xs => .openSequence :: flowItems true xs
  | .map ms => .openMapping :: flowMembers true ms
  | _ => []

/-- The tokens of items up to the closing bracket; `first` says whether none comes before. -/
def flowItems (first : Bool) : List Value → List Token
  | [] => [.closeSequence]
  | v :: rest => (if first then [] else [.comma]) ++ flowTokens v ++ flowItems false rest

/-- The tokens of members up to the closing brace; `first` says whether none comes before. -/
def flowMembers (first : Bool) : Members Atom Value → List Token
  | [] => [.closeMapping]
  | (k, v) :: rest =>
    (if first then [] else [.comma]) ++ .key :: tokenOf spell k :: .value :: flowTokens v
      ++ flowMembers false rest

end

/-! ### Reading trees inside brackets -/

/-- What stands at the start of a value: neither a closing bracket nor what separates. -/
def startsValue : Token → Bool
  | .closeSequence | .closeMapping | .comma | .key | .value => false
  | _ => true

theorem readTree_scalar (setting : Setting) {fuel : Nat} (hfuel : 2 ≤ fuel) (a : Atom)
    (rest : List Token) :
    readTree setting fuel (tokenOf spell a :: rest) = some (scalarOf spell a, rest) := by
  obtain ⟨fuel, rfl⟩ : ∃ k, fuel = k + 2 := ⟨fuel - 2, by omega⟩
  rfl

theorem flowTokens_head {v : Value} (hv : v.IsJson) :
    ∃ t ts, flowTokens spell v = t :: ts ∧ startsValue t = true := by
  refine Value.jsonInduct (motive := fun v => ∃ t ts, flowTokens spell v = t :: ts ∧
    startsValue t = true) ?_ ?_ ?_ hv
  · intro a _
    exact ⟨tokenOf spell a, [], rfl, rfl⟩
  · intro xs _ _
    exact ⟨_, _, rfl, rfl⟩
  · intro ms _ _ _
    exact ⟨_, _, rfl, rfl⟩

section

variable {fuel : Nat} {t : Token} {tokens rest rest' : List Token} {tree : Tree}

/-- An item inside brackets, and the items after it. -/
theorem readFlowItem_of_readTree {items : List Tree} (ht : startsValue t = true)
    (htree : readTree .flow fuel (t :: tokens) = some (tree, rest))
    (hitems : readFlowItems false fuel rest = some (items, rest')) :
    readFlowItem (fuel + 1) (t :: tokens) = some (tree :: items, rest') := by
  cases t with
  | closeSequence => cases ht
  | key => cases ht
  | _ => simp only [readFlowItem, htree, hitems, Option.map_some]

/-- The first item inside brackets, or one after a comma. -/
theorem readFlowItems_of_readFlowItem {first : Bool} {items : List Tree} (ht : startsValue t = true)
    (hitem : readFlowItem fuel (t :: tokens) = some (items, rest)) :
    readFlowItems first (fuel + 1) ((if first then [] else [.comma]) ++ t :: tokens)
      = some (items, rest) := by
  cases first with
  | false => exact hitem
  | true =>
      cases t with
      | closeSequence => cases ht
      | comma => cases ht
      | _ => exact hitem

theorem readOptional_of_readTree {setting : Setting} {ends : Token → Bool} (hends : ends t = false)
    (htree : readTree setting fuel (t :: tokens) = some (tree, rest)) :
    readOptional setting ends (fuel + 1) (t :: tokens) = some (tree, rest) := by
  rw [readOptional, nextToken, hends]
  exact htree

end

theorem endsFlowValue_eq_false {t : Token} (h : startsValue t = true) : endsFlowValue t = false := by
  cases t with
  | closeMapping => cases h
  | comma => cases h
  | _ => rfl

theorem length_flowItems_pos (first : Bool) (xs : List Value) :
    0 < (flowItems spell first xs).length := by
  cases xs with
  | nil => exact Nat.zero_lt_one
  | cons v xs =>
      have := length_flowItems_pos false xs
      rw [flowItems, List.length_append]
      omega

theorem length_flowMembers_pos (first : Bool) (ms : Members Atom Value) :
    0 < (flowMembers spell first ms).length := by
  cases ms with
  | nil => exact Nat.zero_lt_one
  | cons m ms =>
      have := length_flowMembers_pos false ms
      rw [flowMembers, List.length_append]
      omega

/-- The tokens of a value inside brackets are read as its tree. -/
def ReadsFlow (v : Value) : Prop :=
  ∀ (setting : Setting) (fuel : Nat) (rest : List Token), 4 * (flowTokens spell v).length ≤ fuel →
    readTree setting fuel (flowTokens spell v ++ rest) = some (treeOf spell v, rest)

theorem readFlowItems_flowItems {xs : List Value} (hxs : ∀ v ∈ xs, v.IsJson)
    (h : ∀ v ∈ xs, ReadsFlow spell v) (first : Bool) {fuel : Nat}
    (hfuel : 4 * (flowItems spell first xs).length ≤ fuel) (rest : List Token) :
    readFlowItems first fuel (flowItems spell first xs ++ rest) = some (treesOf spell xs, rest) := by
  induction xs generalizing first fuel with
  | nil =>
      rw [flowItems, List.length_singleton] at hfuel
      obtain ⟨fuel, rfl⟩ : ∃ k, fuel = k + 1 := ⟨fuel - 1, by omega⟩
      rfl
  | cons v xs ih =>
      have ih := @ih (fun w hw => hxs w (List.mem_cons_of_mem v hw))
        (fun w hw => h w (List.mem_cons_of_mem v hw)) false
      have hpos := length_flowItems_pos spell false xs
      obtain ⟨t, ts, hts, ht⟩ := flowTokens_head spell (hxs v List.mem_cons_self)
      have hv := h v List.mem_cons_self .flow
      rw [hts] at hv
      rw [flowItems, hts, List.length_append, List.length_append, List.length_cons] at hfuel
      obtain ⟨fuel, rfl⟩ : ∃ k, fuel = k + 2 := ⟨fuel - 2, by omega⟩
      rw [flowItems, hts, treesOf, List.append_assoc, List.append_assoc, List.cons_append]
      refine readFlowItems_of_readFlowItem ht (readFlowItem_of_readTree ht
        (hv fuel (flowItems spell false xs ++ rest) ?_) (ih ?_))
      · rw [List.length_cons]
        omega
      · omega

theorem readFlowMembers_flowMembers {ms : Members Atom Value} (hms : ∀ m ∈ ms, m.2.IsJson)
    (h : ∀ m ∈ ms, ReadsFlow spell m.2) (first : Bool) {fuel : Nat}
    (hfuel : 4 * (flowMembers spell first ms).length ≤ fuel) (rest : List Token) :
    readFlowMembers first fuel (flowMembers spell first ms ++ rest)
      = some (memberTreesOf spell ms, rest) := by
  induction ms generalizing first fuel with
  | nil =>
      rw [flowMembers, List.length_singleton] at hfuel
      obtain ⟨fuel, rfl⟩ : ∃ k, fuel = k + 1 := ⟨fuel - 1, by omega⟩
      rfl
  | cons m ms ih =>
      obtain ⟨k, v⟩ := m
      have ih := @ih (fun n hn => hms n (List.mem_cons_of_mem _ hn))
        (fun n hn => h n (List.mem_cons_of_mem _ hn)) false
      have hpos := length_flowMembers_pos spell false ms
      obtain ⟨t, ts, hts, ht⟩ := flowTokens_head spell (hms (k, v) List.mem_cons_self)
      have hv := h (k, v) List.mem_cons_self .flow
      rw [hts] at hv
      rw [flowMembers, hts] at hfuel ⊢
      simp only [List.length_append, List.length_cons] at hfuel
      obtain ⟨fuel, rfl⟩ : ∃ k, fuel = k + 6 := ⟨fuel - 6, by omega⟩
      generalize hafter : flowMembers spell false ms ++ rest = after
      rw [hafter] at ih
      have hkey : readOptional .flow endsFlowKey (fuel + 4)
          (tokenOf spell k :: .value :: t :: (ts ++ after))
          = some (scalarOf spell k, .value :: t :: (ts ++ after)) :=
        readOptional_of_readTree rfl (readTree_scalar spell .flow (by omega) _ _)
      have hvalue : readFlowValue endsFlowValue (fuel + 4) (.value :: t :: (ts ++ after))
          = some (treeOf spell v, after) :=
        readOptional_of_readTree (endsFlowValue_eq_false ht)
          (hv (fuel + 2) after (by rw [List.length_cons]; omega))
      have hrest := @ih (fuel + 4) (by omega)
      have hmember : readFlowMember (fuel + 5)
          (.key :: tokenOf spell k :: .value :: t :: (ts ++ after))
          = some ((scalarOf spell k, treeOf spell v) :: memberTreesOf spell ms, rest) := by
        simp only [readFlowMember, hkey, hvalue, hrest, Option.map_some]
      have htokens : (if first then [] else [Token.comma]) ++
          .key :: tokenOf spell k :: .value :: t :: ts ++ flowMembers spell false ms ++ rest
          = (if first then [] else [.comma]) ++
            .key :: tokenOf spell k :: .value :: t :: (ts ++ after) := by
        rw [← hafter]
        simp
      rw [htokens]
      cases first with
      | false => exact hmember
      | true => exact hmember

/-- **The tokens inside brackets are read as the tree.** -/
theorem readTree_flowTokens {v : Value} (hv : v.IsJson) : ReadsFlow spell v := by
  refine Value.jsonInduct (motive := ReadsFlow spell) ?atom ?list ?object hv
  case atom =>
      intro a _ setting fuel rest hfuel
      rw [flowTokens, List.length_singleton] at hfuel
      exact readTree_scalar spell setting (by omega) a rest
  case list =>
      intro xs hxs ih setting fuel rest hfuel
      rw [flowTokens, List.length_cons] at hfuel
      obtain ⟨fuel, rfl⟩ : ∃ k, fuel = k + 2 := ⟨fuel - 2, by omega⟩
      show (readFlowItems true fuel (flowItems spell true xs ++ rest)).map _ = _
      rw [readFlowItems_flowItems spell hxs ih true (by omega)]
      rfl
  case object =>
      intro ms _ hms ih setting fuel rest hfuel
      rw [Value.object, ← Members.named, flowTokens, List.length_cons] at hfuel
      obtain ⟨fuel, rfl⟩ : ∃ k, fuel = k + 2 := ⟨fuel - 2, by omega⟩
      show (readFlowMembers true fuel (flowMembers spell true ms.named ++ rest)).map _ = _
      rw [readFlowMembers_flowMembers spell (Members.forall_mem_named.2 hms)
        (Members.forall_mem_named.2 ih) true (by omega)]
      rfl

/-! ### What a tree stands for -/

/-- The kind of a written atom. -/
def Spelling.tag (spell : Spelling) (a : Atom) : Tag :=
  if (spell a).1 then .ofPlain (spell a).2.toList else .str

/-- Whether a written atom is read as the atom. -/
def Spelling.Faithful (spell : Spelling) (a : Atom) : Prop :=
  (spell.tag a).atom? (spell a).2.toList = some a

/-- Whether a written name is read as the name. -/
def Spelling.FaithfulName (spell : Spelling) (name : String) : Prop :=
  spell.tag (.text name) = .str ∧ (spell (.text name)).2 = name

section

variable {spell}

/-- An atom that is written without quotes is read as itself if the text is one for it. -/
theorem Spelling.faithful_of_plain {a : Atom} {cs : List Char}
    (hspell : spell a = (true, String.ofList cs)) (hatom : (Tag.ofPlain cs).atom? cs = some a) :
    spell.Faithful a := by
  simp only [Spelling.Faithful, Spelling.tag, hspell, if_true, String.toList_ofList]
  exact hatom

theorem Spelling.faithful_int {n : Int}
    (hspell : spell (.int n) = (true, String.ofList (integerText n)))
    (hlen : (decimalDigits n.natAbs).length ≤ maxDecimalDigits) : spell.Faithful (.int n) := by
  refine faithful_of_plain hspell ?_
  rw [ofPlain_integerText, Tag.atom?, readInt?_integerText hlen]
  rfl

theorem Spelling.faithful_float {x : Binary64} {layout : Layout} (hx : (Atom.float x).IsJson)
    (hspell : spell (.float x) = (true, String.ofList (layout.render x)))
    (hpoint : '.' ∈ layout.render x) : spell.Faithful (.float x) := by
  refine faithful_of_plain hspell ?_
  rw [ofPlain_render hx.1 hpoint, Tag.atom?, readFloat?_render layout hx.1 hx.2]
  rfl

theorem Spelling.faithful_text {s : String} (h : spell.FaithfulName s) :
    spell.Faithful (.text s) := by
  rw [Faithful, h.1, h.2, Tag.atom?, String.ofList_toList]

end

theorem ofTree?_scalarOf (abbreviations : Abbreviations) (anchors : Anchors) (a : Atom) :
    Node.ofTree? abbreviations anchors (scalarOf spell a)
      = some (.scalar (spell.tag a) (spell a).2, anchors) := by
  have h : ({} : Properties).tag.isSome = false := rfl
  rw [scalarOf, Node.ofTree?, scalarKind?, Spelling.tag, h, Bool.or_false]
  rfl

theorem putMember_of_not_mem {ms : Members Atom Value} {name : String} (v : Value)
    (htext : ∀ m ∈ ms, ∃ s, m.1 = .text s) (h : .text name ∉ ms.keys) :
    putMember ms (.text name) v = ms ++ [(.text name, v)] := by
  induction ms with
  | nil => rfl
  | cons m ms ih =>
      obtain ⟨k, w⟩ := m
      obtain ⟨s, rfl⟩ : ∃ s, k = .text s := htext (k, w) List.mem_cons_self
      rw [Members.keys_cons, List.mem_cons, not_or] at h
      have hsame : Atom.sameKey (.text s) (.text name) = false := by
        have hne : Atom.text s ≠ .text name := fun heq => h.1 heq.symm
        simp [Atom.sameKey, Atom.same, Atom.number?, hne]
      rw [putMember, hsame, ih (fun m hm => htext m (List.mem_cons_of_mem _ hm)) h.2]
      rfl

/-- Members with distinct texts for names stay as they are. -/
theorem membersOf_named {ms : Members String Value} (h : ms.keys.Nodup) :
    membersOf ms.named = ms.named := by
  have hfold : ∀ found : Members String Value, (found ++ ms).keys.Nodup →
      ms.named.foldl (fun found m => putMember found m.1 m.2) found.named
        = (found ++ ms).named := by
    clear h
    induction ms with
    | nil => simp [Members.named]
    | cons m ms ih =>
        intro found hnodup
        have hnew : Atom.text m.1 ∉ found.named.keys := by
          rw [Members.keys_named, List.mem_map]
          rintro ⟨k, hk, heq⟩
          cases heq
          rw [Members.keys, List.map_append] at hnodup
          exact (List.nodup_append.1 hnodup).2.2 m.1 hk m.1 List.mem_cons_self rfl
        have htext : ∀ n ∈ found.named, ∃ s, n.1 = .text s := by
          intro n hn
          obtain ⟨n, -, rfl⟩ := List.mem_map.1 hn
          exact ⟨n.1, rfl⟩
        have happend : found ++ m :: ms = (found ++ [m]) ++ ms := by simp
        have hput : putMember found.named (.text m.1) m.2 = (found ++ [m] : Members _ _).named := by
          rw [putMember_of_not_mem m.2 htext hnew, Members.named_append]
          rfl
        have ih := ih (found ++ [m]) (happend ▸ hnodup)
        rw [happend, ← ih, ← hput]
        rfl
  exact hfold [] h

/-- Whether the tree of a value stands for the value. -/
def StandsFor (v : Value) : Prop :=
  ∀ (abbreviations : Abbreviations) (anchors : Anchors), ∃ node : Node,
    Node.ofTree? abbreviations anchors (treeOf spell v) = some (node, anchors) ∧
      node.value? = some v ∧ node.hasLoop = false

theorem exists_itemsOfTrees? {xs : List Value} (h : ∀ v ∈ xs, StandsFor spell v)
    (abbreviations : Abbreviations) (anchors : Anchors) :
    ∃ nodes, itemsOfTrees? abbreviations anchors (treesOf spell xs) = some (nodes, anchors) ∧
      valuesOf? nodes = some xs ∧ loopInItems nodes = false := by
  induction xs with
  | nil => exact ⟨[], rfl, rfl, rfl⟩
  | cons v xs ih =>
      obtain ⟨node, hnode, hvalue, hloop⟩ := h v List.mem_cons_self abbreviations anchors
      obtain ⟨nodes, hnodes, hvalues, hloops⟩ := ih fun w hw => h w (List.mem_cons_of_mem v hw)
      refine ⟨node :: nodes, ?_, ?_, ?_⟩
      · simp only [treesOf, itemsOfTrees?, hnode, hnodes]
      · simp only [valuesOf?, hvalue, hvalues]
      · simp only [loopInItems, hloop, hloops, Bool.or_self]

theorem exists_membersOfTrees? {ms : Members String Value} (hname : ∀ m ∈ ms, spell.FaithfulName m.1)
    (h : ∀ m ∈ ms, StandsFor spell m.2) (abbreviations : Abbreviations) (anchors : Anchors) :
    ∃ nodes, membersOfTrees? abbreviations anchors (memberTreesOf spell ms.named)
        = some (nodes, anchors) ∧
      splitMembers? nodes = some ([], ms.named) ∧ loopInMembers nodes = false := by
  induction ms with
  | nil => exact ⟨[], rfl, rfl, rfl⟩
  | cons m ms ih =>
      obtain ⟨node, hnode, hvalue, hloop⟩ := h m List.mem_cons_self abbreviations anchors
      obtain ⟨nodes, hnodes, hvalues, hloops⟩ := ih (fun n hn => hname n (List.mem_cons_of_mem m hn))
        fun n hn => h n (List.mem_cons_of_mem m hn)
      obtain ⟨htag, htext⟩ := hname m List.mem_cons_self
      refine ⟨(.scalar .str m.1, node) :: nodes, ?_, ?_, ?_⟩
      · rw [Members.named] at hnodes
        simp only [Members.named, List.map_cons, memberTreesOf, membersOfTrees?, ofTree?_scalarOf,
          htag, htext, hnode, hnodes]
      · have hkey : (Node.scalar Tag.str m.1).value? = some (.text m.1) := by
          simp [Node.value?, Tag.atom?]
        simp only [splitMembers?, Node.tag, hkey, hvalue, hvalues]
        rfl
      · simp only [loopInMembers, Node.hasLoop, hloop, hloops, Bool.false_and, Bool.or_self]

/-- **The tree stands for the value.** -/
theorem standsFor {v : Value} (hv : v.IsJson) (h : v.Each spell.Faithful spell.FaithfulName) :
    StandsFor spell v := by
  refine Value.jsonInduct (motive := fun v => v.Each spell.Faithful spell.FaithfulName →
    StandsFor spell v) ?atom ?list ?object hv h
  case atom =>
      intro a _ h abbreviations anchors
      refine ⟨.scalar (spell.tag a) (spell a).2, ofTree?_scalarOf spell _ _ a, ?_, rfl⟩
      rw [Node.value?, Value.each_atom_iff.1 h]
      rfl
  case list =>
      intro xs _ ih h abbreviations anchors
      obtain ⟨nodes, hnodes, hvalues, hloops⟩ := exists_itemsOfTrees? spell
        (fun v hv => ih v hv (Value.each_list_iff.1 h v hv)) abbreviations anchors
      refine ⟨.sequence .seq nodes, ?_, ?_, hloops⟩
      · rw [treeOf, Node.ofTree?]
        simp only [Properties.isNew, collectionKind?, Properties.kind?, Option.map_some,
          Option.getD_none, Properties.bind, hnodes]
      · rw [Node.value?]
        simp only [hvalues, Option.map_some]
  case object =>
      intro ms hn _ ih h abbreviations anchors
      obtain ⟨hname, h⟩ := Value.each_object_iff.1 h
      obtain ⟨nodes, hnodes, hmembers, hloops⟩ := exists_membersOfTrees? spell hname
        (fun m hm => ih m hm (h m hm)) abbreviations anchors
      rw [Members.named] at hnodes
      refine ⟨.mapping .map nodes, ?_, ?_, hloops⟩
      · rw [Value.object, treeOf, Node.ofTree?]
        simp only [Properties.isNew, collectionKind?, Properties.kind?, Option.map_some,
          Option.getD_none, Properties.bind, hnodes]
      · rw [Node.value?]
        simp only [hmembers, Option.map_some, List.nil_append, membersOf_named hn]
        rfl

/-- A text whose tokens are read as the tree of a value is read as the value. -/
theorem read?_of_tokensOf? {cs : List Char} {tokens : List Token} {t : Token} {ts : List Token}
    {v : Value} (htokens : tokensOf? cs = some tokens) (hcons : tokens = t :: ts)
    (hstart : precedesStart t = false)
    (htree : readTree .block (8 * (tokens.length + 1)) tokens = some (treeOf spell v, []))
    (hv : v.IsJson) (h : v.Each spell.Faithful spell.FaithfulName) :
    read? cs = some ⟨v, false⟩ := by
  obtain ⟨node, hnode, hvalue, hloop⟩ := standsFor spell hv h standardAbbreviations []
  have hwhole : wholeTree tokens = some (treeOf spell v) := by
    rw [wholeTree, htree]
    rfl
  have hsource : sourceOf? tokens = some (some ⟨standardAbbreviations, treeOf spell v⟩) := by
    have hempty : tokens.isEmpty = false := by rw [hcons]; rfl
    have hnext : nextToken precedesStart tokens = false := by rw [hcons]; exact hstart
    rw [sourceOf?, hempty, hnext, hwhole]
    rfl
  rw [read?, htokens, Option.bind_some, hsource]
  simp only [Source.node?, hnode, Option.map_some, hvalue, hloop]

/-- Whatever is read consists of characters that may stand in a text. -/
theorem isAllowed_of_read? {cs : List Char} {reading : Reading} (h : read? cs = some reading) :
    cs.all isAllowed = true := by
  by_contra hnot
  rw [read?, tokensOf?, if_neg hnot] at h
  cases h

end ApiScribe.Yaml
