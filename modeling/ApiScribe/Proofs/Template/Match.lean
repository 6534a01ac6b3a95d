/-
**What a template matches.**

A template matches a path if the path is made of the literals of the template with at least one
character between neighbours.  The search for such characters finds them whenever they exist, so
that matching can be reasoned about without looking at the search.

Main definitions:

* `ApiScribe.Template.Spans` — a text is made of literals with characters between them.

Main results:

* `ApiScribe.Template.fits_iff` — the search succeeds exactly on the texts made of the literals;
* `ApiScribe.Template.placeholderLength?_eq_some_iff` — what a placeholder is;
* `ApiScribe.Template.literals_placeholder`, `ApiScribe.Template.literals_cons` — the literals of a
  text by its start.
-/

import ApiScribe.Template.Pattern
import Mathlib.Data.List.TakeWhile

set_option autoImplicit false

namespace ApiScribe.Template

/-- A text is made of literals with one or more characters between neighbours. -/
inductive Spans : List (List Char) → List Char → Prop
  /-- The last literal. -/
  | last (l : List Char) : Spans [l] l
  /-- A literal, some characters, and the rest. -/
  | cons {ls : List (List Char)} {p : List Char} (l w : List Char) (hw : w ≠ [])
      (rest : Spans ls p) : Spans (l :: ls) (l ++ (w ++ p))

/-! ### The search -/

theorem dropLiteral_eq_some_iff {l p rest : List Char} :
    dropLiteral l p = some rest ↔ p = l ++ rest := by
  induction l generalizing p with
  | nil => simp [dropLiteral]
  | cons c l ih =>
      cases p with
      | nil => simp [dropLiteral]
      | cons d p =>
          by_cases h : c = d
          · simp [dropLiteral, h, ih]
          · have h' : d ≠ c := fun e => h e.symm
            simp [dropLiteral, h, h']

theorem someRest_iff {accept : List Char → Bool} {p : List Char} :
    someRest accept p = true ↔ ∃ w rest, p = w ++ rest ∧ accept rest = true := by
  induction p with
  | nil =>
      rw [someRest]
      constructor
      · intro h
        exact ⟨[], [], rfl, h⟩
      · rintro ⟨w, rest, h, hr⟩
        rwa [(List.append_eq_nil_iff.1 h.symm).2] at hr
  | cons c p ih =>
      rw [someRest, Bool.or_eq_true, ih]
      constructor
      · rintro (h | ⟨w, rest, rfl, h⟩)
        · exact ⟨[], c :: p, rfl, h⟩
        · exact ⟨c :: w, rest, rfl, h⟩
      · rintro ⟨w, rest, hp, h⟩
        cases w with
        | nil =>
            rw [List.nil_append] at hp
            exact Or.inl (hp ▸ h)
        | cons d w =>
            rw [List.cons_append, List.cons.injEq] at hp
            exact Or.inr ⟨w, rest, hp.2, h⟩

/-- A search that finds the first literal at the start goes on behind it. -/
theorem fits_cons_iff {l : List Char} {ls : List (List Char)}
    (h : ∀ p, fitsAfter ls p = true ↔
      (ls = [] ∧ p = []) ∨ ∃ w q, w ≠ [] ∧ p = w ++ q ∧ Spans ls q) {p : List Char} :
    fits (l :: ls) p = true ↔ Spans (l :: ls) p := by
  rw [fits]
  constructor
  · intro hfits
    split at hfits
    · rename_i rest hd
      obtain rfl := dropLiteral_eq_some_iff.1 hd
      rcases (h rest).1 hfits with ⟨rfl, rfl⟩ | ⟨w, q, hw, rfl, hs⟩
      · simpa using Spans.last l
      · exact .cons l w hw hs
    · cases hfits
  · intro hspans
    cases hspans with
    | last =>
        rw [dropLiteral_eq_some_iff.2 (List.append_nil l).symm]
        rfl
    | cons _ w hw hs =>
        rw [dropLiteral_eq_some_iff.2 rfl]
        exact (h _).2 (Or.inr ⟨w, _, hw, rfl, hs⟩)

/-- What is accepted after a literal are one or more characters and the rest of the literals, or
nothing if none are left. -/
theorem fitsAfter_iff {ls : List (List Char)} {p : List Char} :
    fitsAfter ls p = true ↔
      (ls = [] ∧ p = []) ∨ ∃ w q, w ≠ [] ∧ p = w ++ q ∧ Spans ls q := by
  induction ls generalizing p with
  | nil =>
      constructor
      · intro h
        exact Or.inl ⟨rfl, by simpa [fitsAfter] using h⟩
      · rintro (⟨-, rfl⟩ | ⟨w, q, -, -, hs⟩)
        · rfl
        · cases hs
  | cons l ls ih =>
      cases p with
      | nil =>
          simp only [fitsAfter, Bool.false_eq_true, false_iff, not_or]
          refine ⟨fun h => by simp at h, ?_⟩
          rintro ⟨w, q, hw, hp, -⟩
          exact hw (List.append_eq_nil_iff.1 hp.symm).1
      | cons c p =>
          -- behind the first character the literals are searched for at every place
          have hsearch : fitsAfter (l :: ls) (c :: p) = someRest (fits (l :: ls)) p := rfl
          have hspans : ∀ {q}, fits (l :: ls) q = true ↔ Spans (l :: ls) q :=
            fits_cons_iff fun p => ih (p := p)
          rw [hsearch, someRest_iff]
          constructor
          · rintro ⟨w, q, rfl, h⟩
            exact Or.inr ⟨c :: w, q, by simp, rfl, hspans.1 h⟩
          · rintro (⟨h, -⟩ | ⟨w, q, hw, hp, hs⟩)
            · cases h
            · obtain ⟨d, w, rfl⟩ := List.exists_cons_of_ne_nil hw
              rw [List.cons_append, List.cons.injEq] at hp
              exact ⟨w, q, hp.2, hspans.2 hs⟩

/-- The search succeeds exactly on the texts that are made of the literals. -/
theorem fits_iff {ls : List (List Char)} {p : List Char} : fits ls p = true ↔ Spans ls p := by
  cases ls with
  | nil =>
      simp only [fits, Bool.false_eq_true, false_iff]
      intro h
      cases h
  | cons l ls => exact fits_cons_iff fun p => fitsAfter_iff

/-! ### Literals -/

/-- A placeholder is a pair of braces around one or more word characters. -/
theorem placeholderLength?_eq_some_iff {cs : List Char} {n : Nat} :
    placeholderLength? cs = some n ↔
      ∃ name rest, cs = '{' :: (name ++ '}' :: rest) ∧ name ≠ []
        ∧ (∀ c ∈ name, Text.isWord c = true) ∧ n = name.length + 2 := by
  have hbrace : Text.isWord '}' = false := by decide +kernel
  constructor
  · intro h
    unfold placeholderLength? at h
    split at h
    · rename_i rest
      split at h
      · rename_i rest' hdrop
        dsimp only at h
        split at h
        · cases h
        · rename_i hne
          refine ⟨rest.takeWhile Text.isWord, rest', ?_, by simpa using hne, ?_,
            (Option.some.inj h).symm⟩
          · rw [← hdrop, List.takeWhile_append_dropWhile]
          · exact fun c hc => List.mem_takeWhile_imp hc
      · cases h
    · cases h
  · rintro ⟨name, rest, rfl, hne, hword, rfl⟩
    have htake : (name ++ '}' :: rest).takeWhile Text.isWord = name := by
      rw [List.takeWhile_append_of_pos hword, List.takeWhile_cons_of_neg (by simp [hbrace])]
      simp
    have hdrop : (name ++ '}' :: rest).dropWhile Text.isWord = '}' :: rest := by
      rw [List.dropWhile_append_of_pos hword, List.dropWhile_cons_of_neg (by simp [hbrace])]
    have hempty : name.isEmpty = false := by simpa using hne
    simp [placeholderLength?, htake, hdrop, hempty]

/-- Inside a placeholder no other one opens. -/
theorem ne_open_of_isWord {name : List Char} (h : ∀ c ∈ name, Text.isWord c = true) :
    ∀ c ∈ name ++ ['}'], c ≠ '{' := by
  have hbrace : Text.isWord '{' = false := by decide +kernel
  rintro c hc rfl
  rcases List.mem_append.1 hc with hc | hc
  · exact absurd (h '{' hc) (by simp [hbrace])
  · simp at hc

theorem literalsAfter_eq_drop (n : Nat) (cs : List Char) :
    literalsAfter n cs = literals (cs.drop n) := by
  induction cs generalizing n with
  | nil => cases n <;> simp [literals, literalsAfter]
  | cons c cs ih =>
      cases n with
      | zero => rfl
      | succ n => rw [literalsAfter, ih, List.drop_succ_cons]

@[simp] theorem literals_nil : literals [] = [[]] := rfl

/-- A placeholder separates an empty literal from those of what follows. -/
theorem literals_placeholder {name rest : List Char} (hne : name ≠ [])
    (hword : ∀ c ∈ name, Text.isWord c = true) :
    literals ('{' :: (name ++ '}' :: rest)) = [] :: literals rest := by
  have hlen := placeholderLength?_eq_some_iff.2 ⟨name, rest, rfl, hne, hword, rfl⟩
  rw [literals, literalsAfter, hlen]
  change [] :: literalsAfter (name.length + 1) (name ++ '}' :: rest) = _
  have hdrop : (name ++ '}' :: rest).drop (name.length + 1) = rest := by
    have happ : name ++ '}' :: rest = (name ++ ['}']) ++ rest := by simp
    rw [happ]
    exact List.drop_left' (by simp)
  rw [literalsAfter_eq_drop, hdrop]

/-- A character that starts no placeholder is the first one of its literal. -/
theorem literals_cons {c : Char} {cs : List Char} (h : placeholderLength? (c :: cs) = none) :
    literals (c :: cs) = extendFirst c (literals cs) := by
  rw [literals, literalsAfter, h]
  rfl

/-- A text that starts with one more character is made of literals of which the first does. -/
theorem Spans.extendFirst {ls : List (List Char)} {p : List Char} (c : Char) (h : Spans ls p) :
    Spans (Template.extendFirst c ls) (c :: p) := by
  cases h with
  | last => exact .last (c :: p)
  | cons l w hw rest => exact .cons (c :: l) w hw rest

end ApiScribe.Template
