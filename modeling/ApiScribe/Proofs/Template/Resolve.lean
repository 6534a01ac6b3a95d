/-
**The template of a path stays its template.**

A path without a known template gets one in which its UUIDs are placeholders.  That template matches
the path again, whatever braces the path itself contains, so that it was not known before; and since
the first known template that matches is taken, a path keeps its template when others are added
behind it.

Main results:

* `ApiScribe.Template.matches_generalize` — a path is matched by the template made of it;
* `ApiScribe.Template.nodup_generalize` — the placeholders of a new template have distinct names;
* `ApiScribe.Template.newParameters_eq_of_template` — a new template tells its parameters, if the
  path has no placeholder of its own;
* `ApiScribe.Template.resolvePath_cases` — a known template without parameters, or a new one;
* `ApiScribe.Template.resolvePath_append` — a path keeps its template;
* `ApiScribe.Template.exists_path_of_resolve` — what a new template is made of.
-/

import ApiScribe.Proofs.Members
import ApiScribe.Proofs.Outcome
import ApiScribe.Proofs.Template.Match
import ApiScribe.Template.Resolve
import Mathlib.Data.List.Nodup
import Mathlib.Order.Basic

set_option autoImplicit false

namespace ApiScribe.Template

/-! ### Names of placeholders -/

theorem isWord_of_isDigit {c : Char} (h : c.isDigit = true) : Text.isWord c = true := by
  refine (Text.Ranges.has_iff _ c).2 ⟨(0x30, 0x39), List.mem_cons_self, ?_⟩
  simp only [Char.isDigit, Bool.and_eq_true, decide_eq_true_eq] at h
  exact ⟨UInt32.le_iff_toNat_le.1 h.1, UInt32.le_iff_toNat_le.1 h.2⟩

theorem isWord_of_lowercase {c : Char} (h : 0x61 ≤ c.toNat ∧ c.toNat ≤ 0x7A) :
    Text.isWord c = true :=
  (Text.Ranges.has_iff _ c).2 ⟨(0x61, 0x7A), List.mem_cons_of_mem _
    (List.mem_cons_of_mem _ (List.mem_cons_of_mem _ List.mem_cons_self)), h⟩

/-- The name of a placeholder consists of word characters. -/
theorem isWord_of_mem_placeholderName {index : Nat} {c : Char}
    (h : c ∈ (placeholderName index).toList) : Text.isWord c = true := by
  have hlower : "uuid".toList.all (fun c => 0x61 ≤ c.toNat && c.toNat ≤ 0x7A) = true := by
    decide +kernel
  have huuid : ∀ c ∈ "uuid".toList, Text.isWord c = true := by
    intro c hc
    exact isWord_of_lowercase (by simpa using List.all_eq_true.1 hlower c hc)
  unfold placeholderName at h
  split at h
  · exact huuid c h
  · rw [String.toList_ofList, List.mem_append] at h
    rcases h with h | h
    · exact huuid c h
    · exact isWord_of_isDigit (isDigit_of_mem_decimalDigits h)

theorem placeholderName_ne_nil (index : Nat) : (placeholderName index).toList ≠ [] := by
  unfold placeholderName
  split
  · decide +kernel
  · rw [String.toList_ofList]
    exact fun h => List.cons_ne_nil _ _ (List.append_eq_nil_iff.1 h).1

/-- Placeholders at different positions have different names. -/
theorem placeholderName_injective {i j : Nat} (h : placeholderName i = placeholderName j) :
    i = j := by
  have hdigits : ∀ n : Nat, decimalDigits n ≠ [] := by
    intro n hn
    have := Nat.length_toDigits_pos (b := 10) (n := n)
    simp [hn] at this
  have key : ∀ i, (placeholderName i).toList
      = "uuid".toList ++ if i = 0 then [] else decimalDigits i := by
    intro i
    unfold placeholderName
    split
    · simp
    · rw [String.toList_ofList]
  have htail := congrArg String.toList h
  rw [key, key] at htail
  have htail := List.append_cancel_left htail
  by_cases hi : i = 0
  · by_cases hj : j = 0
    · rw [hi, hj]
    · rw [if_pos hi, if_neg hj] at htail
      exact absurd htail.symm (hdigits j)
  · by_cases hj : j = 0
    · rw [if_neg hi, if_pos hj] at htail
      exact absurd htail (hdigits i)
    · rw [if_neg hi, if_neg hj] at htail
      exact decimalDigits_injective htail

/-! ### New templates -/

theorem generalizeAfter_eq_drop (index n : Nat) (cs : List Char) :
    generalizeAfter index n cs = generalizeAfter index 0 (cs.drop n) := by
  induction cs generalizing n with
  | nil => cases n <;> simp [generalizeAfter]
  | cons c cs ih =>
      cases n with
      | zero => rfl
      | succ n => rw [generalizeAfter, ih, List.drop_succ_cons]

theorem generalizeAfter_uuid {index : Nat} {c : Char} {cs : List Char}
    (h : startsWithUuid (c :: cs) = true) :
    generalizeAfter index 0 (c :: cs)
      = (placeholder (placeholderName index)
            ++ (generalizeAfter (index + 1) 0 (cs.drop (uuidLength - 1))).1,
          placeholderName index
            :: (generalizeAfter (index + 1) 0 (cs.drop (uuidLength - 1))).2) := by
  rw [generalizeAfter, if_pos h, ← generalizeAfter_eq_drop]

theorem generalizeAfter_cons {index : Nat} {c : Char} {cs : List Char}
    (h : startsWithUuid (c :: cs) = false) :
    generalizeAfter index 0 (c :: cs)
      = (c :: (generalizeAfter index 0 cs).1, (generalizeAfter index 0 cs).2) := by
  rw [generalizeAfter, if_neg (by simp [h])]

/-- Text without an opening brace in a new template stands in the path as well. -/
theorem generalizeAfter_literal {index : Nat} {name cs rest : List Char}
    (hname : ∀ c ∈ name, c ≠ '{') (h : (generalizeAfter index 0 cs).1 = name ++ rest) :
    ∃ cs', cs = name ++ cs' ∧ (generalizeAfter index 0 cs').1 = rest := by
  induction name generalizing cs with
  | nil => exact ⟨cs, rfl, h⟩
  | cons c name ih =>
      cases cs with
      | nil => simp [generalizeAfter] at h
      | cons d cs =>
          cases hu : startsWithUuid (d :: cs) with
          | true =>
              rw [generalizeAfter_uuid hu] at h
              exact absurd (List.cons.inj h).1.symm (hname c List.mem_cons_self)
          | false =>
              rw [generalizeAfter_cons hu, List.cons_append, List.cons.injEq] at h
              obtain ⟨cs', rfl, hrest⟩ := ih (fun x hx => hname x (List.mem_cons_of_mem c hx)) h.2
              exact ⟨cs', by rw [h.1]; rfl, hrest⟩

/-- A placeholder of a new template that is not made for a UUID stands in the path as well. -/
theorem exists_placeholder_of_generalizeAfter {index k : Nat} {c : Char} {cs : List Char}
    (h : placeholderLength? (c :: (generalizeAfter index 0 cs).1) = some k) :
    ∃ name cs', c :: cs = '{' :: (name ++ '}' :: cs') ∧ name ≠ []
      ∧ (∀ x ∈ name, Text.isWord x = true)
      ∧ (generalizeAfter index 0 cs).1 = name ++ '}' :: (generalizeAfter index 0 cs').1 := by
  obtain ⟨name, rest, hcs, hne, hword, -⟩ := placeholderLength?_eq_some_iff.1 h
  obtain ⟨rfl, hgen⟩ := List.cons.inj hcs
  have hsplit : (generalizeAfter index 0 cs).1 = (name ++ ['}']) ++ rest := by
    rw [hgen, List.append_assoc, List.singleton_append]
  obtain ⟨cs', rfl, rfl⟩ := generalizeAfter_literal (ne_open_of_isWord hword) hsplit
  exact ⟨name, cs', by rw [List.append_assoc, List.singleton_append], hne, hword, hgen⟩

/-- A path is made of the literals of its own template: where the template has a placeholder, the
path has a UUID or the text of the placeholder itself. -/
theorem spans_generalizeAfter (index : Nat) (cs : List Char) :
    Spans (literals (generalizeAfter index 0 cs).1) cs := by
  induction hn : cs.length using Nat.strong_induction_on generalizing index cs with
  | _ n ih =>
    cases cs with
    | nil => exact .last []
    | cons c cs =>
        rw [List.length_cons] at hn
        cases hu : startsWithUuid (c :: cs) with
        | true =>
            rw [generalizeAfter_uuid hu]
            simp only [placeholder, List.cons_append, List.append_assoc, List.nil_append]
            rw [literals_placeholder (placeholderName_ne_nil index)
                (fun _ hc => isWord_of_mem_placeholderName hc)]
            have hspan := ih _ (by rw [List.length_drop]; omega) (index + 1)
              (cs.drop (uuidLength - 1)) rfl
            have hsplit := Spans.cons [] (c :: cs.take (uuidLength - 1)) (by simp) hspan
            rwa [List.nil_append, List.cons_append, List.take_append_drop] at hsplit
        | false =>
            rw [generalizeAfter_cons hu]
            cases hp : placeholderLength? (c :: (generalizeAfter index 0 cs).1) with
            | none =>
                rw [literals_cons hp]
                exact (ih _ (by omega) index cs rfl).extendFirst c
            | some k =>
                -- a placeholder that the path itself has: it is matched by its own text
                obtain ⟨name, cs', hcs, hne, hword, hgen⟩ :=
                  exists_placeholder_of_generalizeAfter hp
                obtain ⟨rfl, rfl⟩ := List.cons.inj hcs
                rw [List.length_append, List.length_cons] at hn
                have hspan := ih _ (by omega) index cs' rfl
                rw [hgen, literals_placeholder hne hword]
                have hsplit := Spans.cons [] ('{' :: (name ++ ['}'])) (by simp) hspan
                simpa using hsplit

/-- **A path is matched by the template that is made of it.** -/
theorem matches_generalize (path : String) :
    Template.matches (generalize path).1 path = true := by
  rw [Template.matches, generalize, fits_iff, String.toList_ofList]
  exact spans_generalizeAfter 0 path.toList

/-- The placeholders of a new template are numbered in order. -/
theorem exists_names_generalizeAfter (index : Nat) (cs : List Char) :
    ∃ n, (generalizeAfter index 0 cs).2 = (List.range' index n).map placeholderName := by
  induction hn : cs.length using Nat.strong_induction_on generalizing index cs with
  | _ n ih =>
    cases cs with
    | nil => exact ⟨0, rfl⟩
    | cons c cs =>
        rw [List.length_cons] at hn
        cases hu : startsWithUuid (c :: cs) with
        | true =>
            obtain ⟨k, hk⟩ := ih _ (by rw [List.length_drop]; omega) (index + 1)
              (cs.drop (uuidLength - 1)) rfl
            exact ⟨k + 1, by rw [generalizeAfter_uuid hu, hk, List.range'_succ, List.map_cons]⟩
        | false =>
            rw [generalizeAfter_cons hu]
            exact ih _ (by omega) index cs rfl

/-- The placeholders of a new template have distinct names. -/
theorem nodup_generalize (path : String) : (generalize path).2.Nodup := by
  obtain ⟨n, hn⟩ := exists_names_generalizeAfter 0 path.toList
  have hnames : (generalize path).2 = (List.range' 0 n).map placeholderName := hn
  rw [hnames]
  exact List.Nodup.map (fun _ _ h => placeholderName_injective h) List.nodup_range'

/-! ### Paths without placeholders of their own -/

/-- A text holds a placeholder somewhere. -/
def HasPlaceholder (cs : List Char) : Prop :=
  ∃ before name after, cs = before ++ '{' :: (name ++ '}' :: after) ∧ name ≠ []
    ∧ ∀ c ∈ name, Text.isWord c = true

theorem HasPlaceholder.append {cs : List Char} (h : HasPlaceholder cs) (before : List Char) :
    HasPlaceholder (before ++ cs) := by
  obtain ⟨before', name, after, rfl, hname⟩ := h
  exact ⟨before ++ before', name, after, by rw [List.append_assoc], hname⟩

theorem length_extendFirst (c : Char) {ls : List (List Char)} (h : ls ≠ []) :
    (extendFirst c ls).length = ls.length := by
  cases ls with
  | nil => exact absurd rfl h
  | cons l ls => rfl

/-- The new template of a path without placeholders has just those that are made for UUIDs. -/
theorem length_literals_generalizeAfter (index : Nat) {cs : List Char} (h : ¬HasPlaceholder cs) :
    (literals (generalizeAfter index 0 cs).1).length
      = (generalizeAfter index 0 cs).2.length + 1 := by
  induction hn : cs.length using Nat.strong_induction_on generalizing index cs with
  | _ n ih =>
    cases cs with
    | nil => rfl
    | cons c cs =>
        rw [List.length_cons] at hn
        cases hu : startsWithUuid (c :: cs) with
        | true =>
            have hrest : ¬HasPlaceholder (cs.drop (uuidLength - 1)) := by
              intro hrest
              have happend := hrest.append (c :: cs.take (uuidLength - 1))
              rw [List.cons_append, List.take_append_drop] at happend
              exact h happend
            have hlen := ih _ (by rw [List.length_drop]; omega) (index + 1) hrest rfl
            rw [generalizeAfter_uuid hu]
            simp only [placeholder, List.cons_append, List.append_assoc, List.nil_append]
            rw [literals_placeholder (placeholderName_ne_nil index)
              (fun _ hc => isWord_of_mem_placeholderName hc), List.length_cons, List.length_cons,
              hlen]
        | false =>
            rw [generalizeAfter_cons hu]
            cases hp : placeholderLength? (c :: (generalizeAfter index 0 cs).1) with
            | none =>
                have hlen := ih _ (by omega) index (fun hrest => h (hrest.append [c])) rfl
                have hne : literals (generalizeAfter index 0 cs).1 ≠ [] := by
                  intro hnil
                  simp [hnil] at hlen
                rw [literals_cons hp, length_extendFirst c hne, hlen]
            | some k =>
                obtain ⟨name, cs', hcs, hne, hword, -⟩ := exists_placeholder_of_generalizeAfter hp
                exact absurd ⟨[], name, cs', hcs, hne, hword⟩ h

/-! ### Resolution -/

/-- The parameters for the placeholders of the template that is made of a path. -/
def newParameters (path : String) : List ValueParameter :=
  (generalize path).2.map ValueParameter.ofPlaceholder

/-- **Equal new templates have equal parameters**, if the paths have no placeholders of their
own. -/
theorem newParameters_eq_of_template {path path' : String} (h : ¬HasPlaceholder path.toList)
    (h' : ¬HasPlaceholder path'.toList) (heq : (generalize path).1 = (generalize path').1) :
    newParameters path = newParameters path' := by
  have htemplate : (generalizeAfter 0 0 path.toList).1 = (generalizeAfter 0 0 path'.toList).1 :=
    String.ofList_inj.1 heq
  have hlen := length_literals_generalizeAfter 0 h
  rw [htemplate, length_literals_generalizeAfter 0 h'] at hlen
  obtain ⟨n, hn⟩ := exists_names_generalizeAfter 0 path.toList
  obtain ⟨n', hn'⟩ := exists_names_generalizeAfter 0 path'.toList
  rw [hn, hn', List.length_map, List.length_map, List.length_range', List.length_range',
    Nat.add_right_cancel_iff] at hlen
  have hnames : (generalize path).2 = (generalize path').2 := by
    change (generalizeAfter 0 0 path.toList).2 = (generalizeAfter 0 0 path'.toList).2
    rw [hn, hn', hlen]
  rw [newParameters, newParameters, hnames]

/-- A path is resolved to the first known template that matches it, or to a new template, which is
not known. -/
theorem resolvePath_cases (path : String) (known : List String) :
    (∃ t, known.find? (Template.matches · path) = some t ∧ resolvePath path known = ⟨t, []⟩) ∨
      (known.find? (Template.matches · path) = none ∧ (generalize path).1 ∉ known
        ∧ resolvePath path known = ⟨(generalize path).1, newParameters path⟩) := by
  rw [resolvePath]
  cases h : known.find? (Template.matches · path) with
  | some t => exact Or.inl ⟨t, rfl, rfl⟩
  | none =>
      refine Or.inr ⟨rfl, fun hmem => ?_, rfl⟩
      have := List.find?_eq_none.1 h _ hmem
      exact this (matches_generalize path)

/-- **A path keeps its template**: once its template is known, it is found again whatever templates
are added behind. -/
theorem resolvePath_append (path : String) (known more : List String) :
    resolvePath path (addNew known (resolvePath path known).template ++ more)
      = ⟨(resolvePath path known).template, []⟩ := by
  rcases resolvePath_cases path known with ⟨t, hfind, hres⟩ | ⟨hfind, hnew, hres⟩
  · have hmem : t ∈ known := List.mem_of_find?_eq_some hfind
    rw [hres, addNew_of_mem hmem, resolvePath, List.find?_append, hfind]
    rfl
  · have hadd : addNew known (generalize path).1 = known ++ [(generalize path).1] := if_neg hnew
    have hsingle : [(generalize path).1].find? (Template.matches · path)
        = some (generalize path).1 := by
      simp [matches_generalize]
    rw [hres, hadd, resolvePath, List.find?_append, List.find?_append, hfind, hsingle]
    rfl

section

variable {url t : String} {known : List String} {new : List ValueParameter}

theorem resolve_eq_ok_iff {r : Resolution} :
    resolve url known = .ok r ↔ ∃ path, pathOf url = .ok path ∧ resolvePath path known = r :=
  map_eq_ok_iff

/-- **A URL keeps its template**, since its path does. -/
theorem resolve_append (h : resolve url known = .ok ⟨t, new⟩) (more : List String) :
    resolve url (addNew known t ++ more) = .ok ⟨t, []⟩ := by
  obtain ⟨path, hpath, hr⟩ := resolve_eq_ok_iff.1 h
  refine resolve_eq_ok_iff.2 ⟨path, hpath, ?_⟩
  have happend := resolvePath_append path known more
  rwa [hr] at happend

/-- Only a new template comes with new parameters. -/
theorem parameters_eq_nil (h : resolve url known = .ok ⟨t, new⟩) (ht : t ∈ known) : new = [] := by
  obtain ⟨path, -, hr⟩ := resolve_eq_ok_iff.1 h
  rcases resolvePath_cases path known with ⟨s, -, hs⟩ | ⟨-, hnew, hs⟩
  · rw [hs] at hr
    cases hr
    rfl
  · rw [hs] at hr
    cases hr
    exact absurd ht hnew

/-- A new template is made of the path of the URL, which no known one matches. -/
theorem exists_path_of_resolve (h : resolve url known = .ok ⟨t, new⟩) (ht : t ∉ known) :
    ∃ path, pathOf url = .ok path ∧ known.find? (Template.matches · path) = none
      ∧ t = (generalize path).1 ∧ new = newParameters path := by
  obtain ⟨path, hpath, hr⟩ := resolve_eq_ok_iff.1 h
  rcases resolvePath_cases path known with ⟨s, hfind, hs⟩ | ⟨hfind, -, hs⟩
  · rw [hs] at hr
    cases hr
    exact absurd (List.mem_of_find?_eq_some hfind) ht
  · rw [hs] at hr
    cases hr
    exact ⟨path, hpath, hfind, rfl, rfl⟩

/-- A template that is not known is made of the URL alone. -/
theorem resolve_nil (h : resolve url known = .ok ⟨t, new⟩) (ht : t ∉ known) :
    resolve url [] = .ok ⟨t, new⟩ := by
  obtain ⟨path, hpath, -, rfl, rfl⟩ := exists_path_of_resolve h ht
  exact resolve_eq_ok_iff.2 ⟨path, hpath, rfl⟩

end

end ApiScribe.Template
