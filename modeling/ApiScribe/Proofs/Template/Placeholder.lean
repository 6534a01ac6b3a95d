/-
**The placeholders of a template.**

The names of the placeholders of a text can be listed, and a name is in the list if the text holds it
between braces.  A template that is made of a path holds the names that are made for the UUIDs of the
path; and it holds those that the path spells out itself, since a path may have braces of its own and
a UUID never touches them.  Apart from the names, a template is its literals: templates with the same
literals match the same paths, so that a template that is made because no known one matches differs
from all of them in more than names.

Main definitions:

* `ApiScribe.Template.names` — the names of the placeholders of a text, in order;
* `ApiScribe.Template.Equivalent` — templates that differ at most in the names of their placeholders.

Main results:

* `ApiScribe.Template.mem_names_iff` — a name is listed if it stands between braces;
* `ApiScribe.Template.exists_uuid_of_startsWithUuid` — what a UUID consists of;
* `ApiScribe.Template.mem_names_generalize` — **the names in a template that is made of a path**;
* `ApiScribe.Template.not_equivalent_of_resolve` — a new template is equivalent to no known one.
-/

import ApiScribe.Proofs.Template.Resolve
import Mathlib.Data.List.Infix

set_option autoImplicit false

namespace ApiScribe.Template

/-! ### Names -/

/-- The name in the placeholder at the start of a text, if there is one. -/
def placeholderName? (cs : List Char) : Option String :=
  (placeholderLength? cs).map fun n => String.ofList ((cs.drop 1).take (n - 2))

/-- The names of the placeholders of a text, in order. -/
def names (cs : List Char) : List String := cs.tails.filterMap placeholderName?

/-- A text that may stand in a placeholder: one or more word characters. -/
def IsName (name : String) : Prop :=
  name.toList ≠ [] ∧ ∀ c ∈ name.toList, Text.isWord c = true

instance (name : String) : Decidable (IsName name) :=
  decidable_of_iff (name.toList ≠ [] ∧ name.toList.all Text.isWord = true) <| by
    rw [IsName, List.all_eq_true]

theorem isName_placeholderName (index : Nat) : IsName (placeholderName index) :=
  ⟨placeholderName_ne_nil index, fun _ hc => isWord_of_mem_placeholderName hc⟩

theorem placeholder_append (name : String) (rest : List Char) :
    placeholder name ++ rest = '{' :: (name.toList ++ '}' :: rest) := by
  simp [placeholder]

theorem placeholderName?_eq_some_iff {cs : List Char} {name : String} :
    placeholderName? cs = some name ↔ IsName name ∧ placeholder name <+: cs := by
  rw [placeholderName?, Option.map_eq_some_iff]
  constructor
  · rintro ⟨n, hn, rfl⟩
    obtain ⟨cs', rest, rfl, hne, hword, rfl⟩ := placeholderLength?_eq_some_iff.1 hn
    have htake : ((cs' ++ '}' :: rest).take cs'.length) = cs' := List.take_left
    simp only [List.drop_succ_cons, List.drop_zero, Nat.add_sub_cancel, htake]
    refine ⟨⟨by rwa [String.toList_ofList], by rwa [String.toList_ofList]⟩, rest, ?_⟩
    rw [placeholder_append, String.toList_ofList]
  · rintro ⟨⟨hne, hword⟩, rest, rfl⟩
    rw [placeholder_append]
    refine ⟨_, placeholderLength?_eq_some_iff.2 ⟨name.toList, rest, rfl, hne, hword, rfl⟩, ?_⟩
    simp

/-- **A name is listed if the text holds it between braces.** -/
theorem mem_names_iff {cs : List Char} {name : String} :
    name ∈ names cs ↔ IsName name ∧ placeholder name <:+: cs := by
  rw [names, List.mem_filterMap]
  constructor
  · rintro ⟨suffix, hsuffix, hname⟩
    obtain ⟨hword, hprefix⟩ := placeholderName?_eq_some_iff.1 hname
    exact ⟨hword, hprefix.isInfix.trans ((List.mem_tails _ _).1 hsuffix).isInfix⟩
  · rintro ⟨hword, before, after, rfl⟩
    refine ⟨placeholder name ++ after, (List.mem_tails _ _).2 ⟨before, by simp⟩, ?_⟩
    exact placeholderName?_eq_some_iff.2 ⟨hword, List.prefix_append _ _⟩

@[simp] theorem names_nil : names [] = [] := rfl

theorem names_cons (c : Char) (cs : List Char) :
    names (c :: cs) = (placeholderName? (c :: cs)).toList ++ names cs := by
  rw [names, List.tails_cons, List.filterMap_cons, names]
  cases placeholderName? (c :: cs) <;> rfl

/-- Where no brace opens, no placeholder starts. -/
theorem names_append_of_ne {before : List Char} (h : ∀ c ∈ before, c ≠ '{') (cs : List Char) :
    names (before ++ cs) = names cs := by
  induction before with
  | nil => rfl
  | cons c before ih =>
      have hnone : placeholderName? (c :: (before ++ cs)) = none := by
        refine Option.eq_none_iff_forall_ne_some.2 fun name hname => ?_
        obtain ⟨-, rest, hrest⟩ := placeholderName?_eq_some_iff.1 hname
        rw [placeholder_append] at hrest
        exact h c List.mem_cons_self (List.cons.inj hrest).1.symm
      rw [List.cons_append, names_cons, hnone, ih fun x hx => h x (List.mem_cons_of_mem c hx)]
      rfl

/-- A placeholder is followed by those of the rest. -/
theorem names_placeholder {name : String} (h : IsName name) (cs : List Char) :
    names (placeholder name ++ cs) = name :: names cs := by
  have hfirst : placeholderName? ('{' :: (name.toList ++ '}' :: cs)) = some name := by
    rw [← placeholder_append]
    exact placeholderName?_eq_some_iff.2 ⟨h, List.prefix_append _ _⟩
  have hrest := names_append_of_ne (ne_open_of_isWord h.2) cs
  rw [List.append_assoc, List.singleton_append] at hrest
  rw [placeholder_append, names_cons, hfirst, hrest]
  rfl

/-! ### UUIDs -/

/-- The number of characters of groups with hyphens between them. -/
def groupsLength : List Nat → Nat
  | [] => 0
  | [n] => n
  | n :: ns => n + 1 + groupsLength ns

theorem exists_groups_of_afterGroups {n : Nat} {ns : List Nat} {cs : List Char}
    (h : afterGroups (n :: ns) cs = true) :
    ∃ u rest, cs = u ++ rest ∧ u.length = groupsLength (n :: ns)
      ∧ ∀ c ∈ u, isHexDigit c = true ∨ c = '-' := by
  induction ns generalizing n cs with
  | nil =>
      simp only [afterGroups, Bool.and_eq_true, beq_iff_eq, List.all_eq_true] at h
      exact ⟨cs.take n, cs.drop n, (List.take_append_drop n cs).symm, h.1,
        fun c hc => Or.inl (h.2 c hc)⟩
  | cons k ns ih =>
      simp only [afterGroups, Bool.and_eq_true, beq_iff_eq, List.all_eq_true] at h
      obtain ⟨⟨hlength, hdigits⟩, hmore⟩ := h
      split at hmore
      · rename_i rest hdrop
        obtain ⟨u, rest', rfl, hu, hgroups⟩ := ih hmore
        refine ⟨cs.take n ++ '-' :: u, rest', ?_, ?_, fun c hc => ?_⟩
        · rw [List.append_assoc, List.cons_append, ← hdrop, List.take_append_drop]
        · have hsum : groupsLength (n :: k :: ns) = n + 1 + groupsLength (k :: ns) := rfl
          rw [List.length_append, List.length_cons, hlength, hu, hsum]
          omega
        · rw [List.mem_append, List.mem_cons] at hc
          rcases hc with hc | rfl | hc
          · exact Or.inl (hdigits c hc)
          · exact Or.inr rfl
          · exact hgroups c hc
      · cases hmore

/-- A UUID consists of hexadecimal digits and hyphens. -/
theorem exists_uuid_of_startsWithUuid {cs : List Char} (h : startsWithUuid cs = true) :
    ∃ u rest, cs = u ++ rest ∧ u.length = uuidLength
      ∧ ∀ c ∈ u, isHexDigit c = true ∨ c = '-' :=
  exists_groups_of_afterGroups h

/-- Word characters in front of a closing brace start no UUID: there is no room for a hyphen. -/
theorem startsWithUuid_word {name cs : List Char} (h : ∀ c ∈ name, Text.isWord c = true) :
    startsWithUuid (name ++ '}' :: cs) = false := by
  have hhyphen : Text.isWord '-' = false := by decide +kernel
  have hbrace : Text.isWord '}' = false := by decide +kernel
  rw [Bool.eq_false_iff]
  intro huuid
  simp only [startsWithUuid, uuidGroups, afterGroups, Bool.and_eq_true, List.all_eq_true]
    at huuid
  obtain ⟨⟨-, hdigits⟩, hmore⟩ := huuid
  split at hmore
  · rename_i rest hdrop
    -- the first character that is no digit and no letter is the brace, and it is a hyphen
    let ends : Char → Bool := fun c => c ≠ '}' && c ≠ '-'
    have hleft : (name ++ '}' :: cs).dropWhile ends = '}' :: cs := by
      rw [List.dropWhile_append_of_pos fun c hc => ?_, List.dropWhile_cons_of_neg (by simp [ends])]
      have hc := h c hc
      simp only [ends, Bool.and_eq_true, decide_eq_true_eq]
      exact ⟨fun he => by simp [he, hbrace] at hc, fun he => by simp [he, hhyphen] at hc⟩
    have hright : (name ++ '}' :: cs).dropWhile ends = '-' :: rest := by
      rw [← List.take_append_drop 8 (name ++ '}' :: cs), hdrop,
        List.dropWhile_append_of_pos fun c hc => ?_, List.dropWhile_cons_of_neg (by simp [ends])]
      have hc := hdigits c hc
      simp only [ends, Bool.and_eq_true, decide_eq_true_eq]
      exact ⟨fun he => by rw [he] at hc; exact absurd hc (by decide),
        fun he => by rw [he] at hc; exact absurd hc (by decide)⟩
    rw [hleft] at hright
    exact absurd (List.cons.inj hright).1 (by decide)
  · cases hmore

/-! ### New templates -/

/-- Word characters and the closing brace behind them are left as they are. -/
theorem generalizeAfter_word (index : Nat) {name : List Char} (cs : List Char)
    (h : ∀ c ∈ name, Text.isWord c = true) :
    generalizeAfter index 0 (name ++ '}' :: cs)
      = (name ++ '}' :: (generalizeAfter index 0 cs).1, (generalizeAfter index 0 cs).2) := by
  induction name with
  | nil => exact generalizeAfter_cons (startsWithUuid_word h)
  | cons c name ih =>
      have huuid : startsWithUuid ((c :: name) ++ '}' :: cs) = false := startsWithUuid_word h
      rw [List.cons_append] at huuid
      rw [List.cons_append, generalizeAfter_cons huuid,
        ih fun x hx => h x (List.mem_cons_of_mem c hx)]
      rfl

/-- A placeholder that is completed by a new template is completed by the path already. -/
theorem placeholderName?_generalizeAfter (index : Nat) (c : Char) (cs : List Char) :
    placeholderName? (c :: (generalizeAfter index 0 cs).1) = placeholderName? (c :: cs) := by
  refine Option.ext fun name => ?_
  rw [placeholderName?_eq_some_iff, placeholderName?_eq_some_iff]
  refine and_congr_right fun hname => ⟨?_, ?_⟩
  · rintro ⟨rest, hrest⟩
    rw [placeholder_append] at hrest
    obtain ⟨rfl, hgen⟩ := List.cons.inj hrest
    have hsplit : (generalizeAfter index 0 cs).1 = (name.toList ++ ['}']) ++ rest := by
      rw [← hgen, List.append_assoc, List.singleton_append]
    obtain ⟨cs', rfl, -⟩ := generalizeAfter_literal (ne_open_of_isWord hname.2) hsplit
    exact ⟨cs', by rw [placeholder_append, List.append_assoc, List.singleton_append]⟩
  · rintro ⟨rest, hrest⟩
    rw [placeholder_append] at hrest
    obtain ⟨rfl, rfl⟩ := List.cons.inj hrest
    refine ⟨(generalizeAfter index 0 rest).1, ?_⟩
    rw [placeholder_append, generalizeAfter_word index rest hname.2]

theorem mem_names_generalizeAfter {index : Nat} {cs : List Char} {name : String} :
    name ∈ names (generalizeAfter index 0 cs).1
      ↔ name ∈ (generalizeAfter index 0 cs).2 ∨ name ∈ names cs := by
  induction hn : cs.length using Nat.strong_induction_on generalizing index cs with
  | _ n ih =>
    cases cs with
    | nil => simp [generalizeAfter]
    | cons c cs =>
        rw [List.length_cons] at hn
        cases hu : startsWithUuid (c :: cs) with
        | true =>
            -- no placeholder starts in the UUID, and the template has one in its place
            obtain ⟨u, rest, hsplit, hlength, huuid⟩ := exists_uuid_of_startsWithUuid hu
            have hrest : cs.drop (uuidLength - 1) = rest := by
              have hdrop : (c :: cs).drop uuidLength = rest := by
                rw [hsplit]
                exact List.drop_left' hlength
              exact hdrop
            have hopen : ∀ x ∈ u, x ≠ '{' := by
              rintro x hx rfl
              rcases huuid '{' hx with hdigit | hhyphen
              · exact absurd hdigit (by decide)
              · exact absurd hhyphen (by decide)
            have hlater := @ih _ (by rw [List.length_drop]; omega) (index + 1)
              (cs.drop (uuidLength - 1)) rfl
            rw [generalizeAfter_uuid hu, names_placeholder (isName_placeholderName index), hsplit,
              names_append_of_ne hopen, List.mem_cons, List.mem_cons, hlater, hrest, or_assoc]
        | false =>
            rw [generalizeAfter_cons hu, names_cons, placeholderName?_generalizeAfter, names_cons,
              List.mem_append, List.mem_append, ih _ (by omega) rfl, or_left_comm]

/-- **The names in a template that is made of a path** are those that are made for the UUIDs of the
path and those that the path spells out. -/
theorem mem_names_generalize {path name : String} :
    name ∈ names (generalize path).1.toList
      ↔ name ∈ (generalize path).2 ∨ name ∈ names path.toList := by
  rw [generalize, String.toList_ofList]
  exact mem_names_generalizeAfter

/-! ### Templates that differ in names only -/

/-- Two templates have the same literals, so that they differ at most in the names of their
placeholders. -/
def Equivalent (s t : String) : Prop := literals s.toList = literals t.toList

instance (s t : String) : Decidable (Equivalent s t) :=
  inferInstanceAs (Decidable (literals s.toList = literals t.toList))

/-- Equivalent templates match the same paths. -/
theorem Equivalent.matches_eq {s t : String} (h : Equivalent s t) (path : String) :
    Template.matches s path = Template.matches t path :=
  congrArg (fits · path.toList) h

/-- **A new template is equivalent to no known one**, as it matches the path that it is made of. -/
theorem not_equivalent_of_resolve {url t : String} {known : List String}
    {new : List ValueParameter} (h : resolve url known = .ok ⟨t, new⟩) (ht : t ∉ known) :
    ∀ s ∈ known, ¬Equivalent s t := by
  obtain ⟨path, -, hfind, rfl, -⟩ := exists_path_of_resolve h ht
  intro s hmem hequiv
  refine List.find?_eq_none.1 hfind s hmem ?_
  rw [hequiv.matches_eq]
  exact matches_generalize path

end ApiScribe.Template
