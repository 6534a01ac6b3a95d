/-
**Texts cut at the occurrences of a pattern.**

A cut of a text is a row of literals with a piece between neighbours.  Where a pattern occurs in a
text, the text can be cut at its leftmost occurrence, and what is left behind that one again.  If at
most one occurrence starts at a place, there is one way only to do this: at each place a piece
starts, or else a character of a literal stands there.

Main definitions:

* `ApiScribe.Template.Cut` — literals with pieces between them;
* `ApiScribe.Template.Cut.IsSplit` — the cut of a text at the leftmost occurrences of a pattern.

Main results:

* `ApiScribe.Template.Cut.induct` — induction along the text that is cut;
* `ApiScribe.Template.Cut.existsUnique_split` — **a text has exactly one split**.
-/

import ApiScribe.Template.Pattern
import Mathlib.Data.List.Infix
import Mathlib.Logic.ExistsUnique

set_option autoImplicit false

namespace ApiScribe.Template

/-- A text cut into literals and the pieces between them. -/
inductive Cut where
  /-- The last literal. -/
  | last (literal : List Char)
  /-- A literal, the piece behind it, and the rest. -/
  | more (literal piece : List Char) (rest : Cut)
  deriving DecidableEq, Repr

namespace Cut

/-- The text that is cut. -/
def text : Cut → List Char
  | last l => l
  | more l w c => l ++ (w ++ c.text)

/-- The literals in order. -/
def literals : Cut → List (List Char)
  | last l => [l]
  | more l _ c => l :: c.literals

/-- The pieces in order, one less than literals. -/
def pieces : Cut → List (List Char)
  | last _ => []
  | more _ w c => w :: c.pieces

/-- One more character at the start of the first literal. -/
def cons (x : Char) : Cut → Cut
  | last l => last (x :: l)
  | more l w c => more (x :: l) w c

@[simp] theorem text_last (l : List Char) : (last l).text = l := rfl

@[simp] theorem text_more (l w : List Char) (c : Cut) :
    (more l w c).text = l ++ (w ++ c.text) := rfl

theorem text_piece (w : List Char) (c : Cut) : (more [] w c).text = w ++ c.text := rfl

@[simp] theorem literals_last (l : List Char) : (last l).literals = [l] := rfl

@[simp] theorem literals_more (l w : List Char) (c : Cut) :
    (more l w c).literals = l :: c.literals := rfl

@[simp] theorem pieces_last (l : List Char) : (last l).pieces = [] := rfl

@[simp] theorem pieces_more (l w : List Char) (c : Cut) :
    (more l w c).pieces = w :: c.pieces := rfl

@[simp] theorem text_cons (x : Char) (c : Cut) : (c.cons x).text = x :: c.text := by
  cases c <;> rfl

@[simp] theorem literals_cons (x : Char) (c : Cut) :
    (c.cons x).literals = extendFirst x c.literals := by
  cases c <;> rfl

@[simp] theorem pieces_cons (x : Char) (c : Cut) : (c.cons x).pieces = c.pieces := by
  cases c <;> rfl

/-! ### Cuts with given literals -/

theorem literals_ne_nil (c : Cut) : c.literals ≠ [] := by
  cases c <;> simp

theorem literals_eq_singleton_iff {c : Cut} {l : List Char} : c.literals = [l] ↔ c = last l := by
  cases c with
  | last k => simp
  | more k w c => simp [literals_ne_nil]

theorem literals_eq_cons {c d : Cut} {l : List Char} (h : d.literals = l :: c.literals) :
    ∃ v d', d = more l v d' ∧ d'.literals = c.literals := by
  cases d with
  | last k => exact absurd (List.cons.inj h).2.symm (literals_ne_nil c)
  | more k v d =>
      obtain ⟨rfl, hrest⟩ := List.cons.inj h
      exact ⟨v, d, rfl, hrest⟩

theorem length_literals (c : Cut) : c.literals.length = c.pieces.length + 1 := by
  induction c with
  | last l => rfl
  | more l w c ih => rw [literals_more, pieces_more, List.length_cons, List.length_cons, ih]

/-- A cut is made of its literals and its pieces. -/
theorem eq_of_parts {c d : Cut} (hliterals : d.literals = c.literals)
    (hpieces : d.pieces = c.pieces) : d = c := by
  induction c generalizing d with
  | last l => exact literals_eq_singleton_iff.1 hliterals
  | more l w c ih =>
      obtain ⟨v, d, rfl, hrest⟩ := literals_eq_cons hliterals
      obtain ⟨rfl, hmore⟩ := List.cons.inj hpieces
      rw [ih hrest hmore]

/-- Induction along the text: it is at its end, or a piece stands at its start, or a character of a
literal. -/
theorem induct {motive : Cut → Prop} (nil : motive (last []))
    (piece : ∀ w c, motive c → motive (more [] w c))
    (cons : ∀ x c, motive c → motive (c.cons x)) : ∀ c, motive c := by
  intro c
  induction c with
  | last l =>
      induction l with
      | nil => exact nil
      | cons x l ih => exact cons x (last l) ih
  | more l w c ih =>
      induction l with
      | nil => exact piece w c ih
      | cons x l ih => exact cons x (more l w c) ih

/-! ### Occurrences of a pattern -/

/-- No occurrence of a pattern starts in a literal which `after` follows. -/
def StartsNone (P : List Char → Prop) (l after : List Char) : Prop :=
  ∀ behind, behind <:+ l → behind ≠ [] → ∀ w, P w → ¬w <+: behind ++ after

/-- Each piece is the leftmost occurrence of a pattern in what is left from the literal in front of
it on, and behind the last piece there is none. -/
def Leftmost (P : List Char → Prop) : Cut → Prop
  | last l => StartsNone P l []
  | more l w c => StartsNone P l (w ++ c.text) ∧ P w ∧ c.Leftmost P

/-- The cut of a text at the leftmost occurrences of a pattern that do not overlap. -/
def IsSplit (P : List Char → Prop) (cs : List Char) (c : Cut) : Prop :=
  c.text = cs ∧ c.Leftmost P

/-- A pattern has no empty occurrence, and at most one that starts at a place. -/
structure Definite (P : List Char → Prop) : Prop where
  /-- No occurrence is empty. -/
  ne_nil : ∀ w, P w → w ≠ []
  /-- Two occurrences with the same start are the same. -/
  unique : ∀ w w' cs, P w → P w' → w <+: cs → w' <+: cs → w = w'

section

variable {P : List Char → Prop} {l after : List Char} {c d : Cut}

theorem startsNone_nil (P : List Char → Prop) (after : List Char) : StartsNone P [] after :=
  fun _ hsuffix hne => absurd (List.suffix_nil.1 hsuffix) hne

theorem startsNone_cons_iff {x : Char} :
    StartsNone P (x :: l) after ↔
      (∀ w, P w → ¬w <+: x :: (l ++ after)) ∧ StartsNone P l after := by
  constructor
  · intro h
    exact ⟨h (x :: l) List.suffix_rfl (by simp),
      fun behind hsuffix => h behind (hsuffix.trans (List.suffix_cons x l))⟩
  · rintro ⟨hfirst, hrest⟩ behind hsuffix hne
    rcases List.suffix_cons_iff.1 hsuffix with rfl | hsuffix
    · exact hfirst
    · exact hrest behind hsuffix hne

/-- Where no occurrence starts, there is none. -/
theorem StartsNone.not_infix (h : StartsNone P l after) {w : List Char} (hw : P w)
    (hne : w ≠ []) : ¬w <:+: l := by
  rintro ⟨before, behind, rfl⟩
  refine h (w ++ behind) ⟨before, by simp⟩ (by simp [hne]) w hw ?_
  rw [List.append_assoc]
  exact List.prefix_append _ _

theorem leftmost_cons_iff {x : Char} :
    (c.cons x).Leftmost P ↔ (∀ w, P w → ¬w <+: x :: c.text) ∧ c.Leftmost P := by
  cases c with
  | last l =>
      have h : StartsNone P (x :: l) [] ↔
          (∀ w, P w → ¬w <+: x :: (l ++ [])) ∧ StartsNone P l [] := startsNone_cons_iff
      rwa [List.append_nil] at h
  | more l w c => exact (and_congr_left' startsNone_cons_iff).trans and_assoc

theorem leftmost_piece_iff {w : List Char} :
    (more [] w c).Leftmost P ↔ P w ∧ c.Leftmost P :=
  and_iff_right (startsNone_nil P _)

/-- The literals of a split hold no occurrence. -/
theorem Leftmost.not_infix (hP : Definite P) (h : c.Leftmost P) {w : List Char} (hw : P w) :
    ∀ l ∈ c.literals, ¬w <:+: l := by
  induction c with
  | last l =>
      intro k hk
      rw [List.mem_singleton.1 hk]
      exact StartsNone.not_infix h hw (hP.ne_nil w hw)
  | more l v c ih =>
      intro k hk
      rcases List.mem_cons.1 hk with rfl | hk
      · exact StartsNone.not_infix h.1 hw (hP.ne_nil w hw)
      · exact ih h.2.2 k hk

theorem exists_leftmost (hP : Definite P) (cs : List Char) :
    ∃ c : Cut, c.text = cs ∧ c.Leftmost P := by
  induction hn : cs.length using Nat.strong_induction_on generalizing cs with
  | _ n ih =>
    cases cs with
    | nil => exact ⟨last [], rfl, startsNone_nil P []⟩
    | cons x cs =>
        by_cases h : ∃ w, P w ∧ w <+: x :: cs
        · obtain ⟨w, hw, rest, hrest⟩ := h
          have hlt : rest.length < n := by
            have hpos := List.length_pos_iff.2 (hP.ne_nil w hw)
            rw [← hn, ← hrest, List.length_append]
            omega
          obtain ⟨c, rfl, hc⟩ := ih _ hlt rest rfl
          exact ⟨more [] w c, hrest, leftmost_piece_iff.2 ⟨hw, hc⟩⟩
        · rw [List.length_cons] at hn
          obtain ⟨c, rfl, hc⟩ := ih _ (by omega) cs rfl
          refine ⟨c.cons x, text_cons x c, leftmost_cons_iff.2 ⟨fun w hw hprefix => ?_, hc⟩⟩
          exact h ⟨w, hw, hprefix⟩

/-- At the start of a text that is cut, a piece stands or a character of a literal, and the two
exclude each other. -/
theorem Leftmost.unique (hP : Definite P) (hc : c.Leftmost P) (hd : d.Leftmost P)
    (h : c.text = d.text) : c = d := by
  induction c using Cut.induct generalizing d with
  | nil =>
      cases d using Cut.induct with
      | nil => rfl
      | piece w d =>
          rw [text_piece] at h
          exact absurd (List.append_eq_nil_iff.1 h.symm).1
            (hP.ne_nil w (leftmost_piece_iff.1 hd).1)
      | cons x d =>
          rw [text_cons] at h
          cases h
  | piece w c ih =>
      obtain ⟨hw, hc⟩ := leftmost_piece_iff.1 hc
      have hprefix : w <+: d.text := h ▸ List.prefix_append w c.text
      cases d using Cut.induct with
      | nil => exact absurd (List.prefix_nil.1 hprefix) (hP.ne_nil w hw)
      | piece v d =>
          obtain ⟨hv, hrest⟩ := leftmost_piece_iff.1 hd
          obtain rfl := hP.unique w v _ hw hv hprefix (List.prefix_append v d.text)
          rw [text_piece, text_piece] at h
          rw [ih hc hrest (List.append_cancel_left h)]
      | cons x d =>
          rw [text_cons] at hprefix
          exact absurd hprefix ((leftmost_cons_iff.1 hd).1 w hw)
  | cons x c ih =>
      obtain ⟨hnone, hc⟩ := leftmost_cons_iff.1 hc
      rw [text_cons] at h
      cases d using Cut.induct with
      | nil => cases h
      | piece v d =>
          have hprefix : v <+: x :: c.text := h ▸ List.prefix_append v d.text
          exact absurd hprefix (hnone v (leftmost_piece_iff.1 hd).1)
      | cons y d =>
          rw [text_cons, List.cons.injEq] at h
          rw [h.1, ih hc (leftmost_cons_iff.1 hd).2 h.2]

end

/-- **A text has exactly one split.** -/
theorem existsUnique_split {P : List Char → Prop} (hP : Definite P) (cs : List Char) :
    ∃! c : Cut, c.IsSplit P cs := by
  obtain ⟨c, hc⟩ := exists_leftmost hP cs
  exact ⟨c, hc, fun d hd => hd.2.unique hP hc.2 (hd.1.trans hc.1.symm)⟩

end Cut

end ApiScribe.Template
