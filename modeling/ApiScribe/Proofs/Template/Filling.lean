/-
**Templates and the paths that fill them.**

A template is split at its placeholders, and a path belongs to it if the path has the same literals
with some text in place of each placeholder.  No character of a literal stands for another one, and
a placeholder stands for whatever text there is, as long as there is some.

A placeholder is told from a literal by its name.  If the name has other than word characters, the
braces are part of the literal around them, so that the template matches only the paths that spell
them out.

Main definitions:

* `ApiScribe.Template.IsPlaceholder` — what a placeholder is;
* `ApiScribe.Template.Cut.Fills` — the literals of another cut, and pieces that are not empty.

Main results:

* `ApiScribe.Template.literals_text` — the literals by which a template is matched are those of its
  split;
* `ApiScribe.Template.matches_iff_fills` — **a template matches the paths that fill its split**;
* `ApiScribe.Template.matches_fills_iff` — **a template is filled by every path exactly if all its
  names consist of word characters**.
-/

import ApiScribe.Proofs.Template.Cut
import ApiScribe.Proofs.Template.Placeholder

set_option autoImplicit false

namespace ApiScribe.Template

/-! ### Splits at placeholders -/

/-- A pair of braces around a name. -/
def IsPlaceholder (cs : List Char) : Prop := ∃ name, IsName name ∧ cs = placeholder name

/-- The name in a placeholder tells the placeholder. -/
theorem definite_isPlaceholder : Cut.Definite IsPlaceholder where
  ne_nil := by
    rintro _ ⟨name, -, rfl⟩
    exact List.cons_ne_nil _ _
  unique := by
    rintro _ _ cs ⟨name, hname, rfl⟩ ⟨name', hname', rfl⟩ h h'
    have hfirst := placeholderName?_eq_some_iff.2 ⟨hname, h⟩
    have hsecond := placeholderName?_eq_some_iff.2 ⟨hname', h'⟩
    rw [Option.some.inj (hfirst.symm.trans hsecond)]

theorem placeholderLength?_eq_none {cs : List Char} (h : ∀ w, IsPlaceholder w → ¬w <+: cs) :
    placeholderLength? cs = none := by
  have hname : placeholderName? cs = none := by
    refine Option.eq_none_iff_forall_ne_some.2 fun name hname => ?_
    obtain ⟨hword, hprefix⟩ := placeholderName?_eq_some_iff.1 hname
    exact h _ ⟨name, hword, rfl⟩ hprefix
  exact Option.map_eq_none_iff.1 hname

/-- The literals of a template are those of its split. -/
theorem literals_text {c : Cut} (h : c.Leftmost IsPlaceholder) : literals c.text = c.literals := by
  induction c using Cut.induct with
  | nil => rfl
  | piece w c ih =>
      obtain ⟨⟨name, hname, rfl⟩, hc⟩ := Cut.leftmost_piece_iff.1 h
      rw [Cut.text_piece, placeholder_append, literals_placeholder hname.1 hname.2, ih hc,
        Cut.literals_more]
  | cons x c ih =>
      obtain ⟨hnone, hc⟩ := Cut.leftmost_cons_iff.1 h
      rw [Cut.text_cons, literals_cons (placeholderLength?_eq_none hnone), ih hc,
        Cut.literals_cons]

/-! ### Paths that fill a template -/

/-- A cut has the literals of another one, and pieces that are not empty. -/
def Cut.Fills (f c : Cut) : Prop := f.literals = c.literals ∧ ∀ w ∈ f.pieces, w ≠ []

theorem spans_iff {ls : List (List Char)} {p : List Char} :
    Spans ls p ↔ ∃ f : Cut, f.literals = ls ∧ (∀ w ∈ f.pieces, w ≠ []) ∧ f.text = p := by
  constructor
  · intro h
    induction h with
    | last l => exact ⟨.last l, rfl, by simp, rfl⟩
    | cons l w hw _ ih =>
        obtain ⟨f, rfl, hf, rfl⟩ := ih
        exact ⟨.more l w f, rfl, List.forall_mem_cons.2 ⟨hw, hf⟩, rfl⟩
  · rintro ⟨f, rfl, hf, rfl⟩
    induction f with
    | last l => exact .last l
    | more l w f ih =>
        obtain ⟨hw, hf⟩ := List.forall_mem_cons.1 hf
        exact .cons l w hw (ih hf)

/-- A split template matches the paths that fill it. -/
theorem matches_text_iff {c : Cut} (h : c.Leftmost IsPlaceholder) {p : String} :
    Template.matches (String.ofList c.text) p = true ↔ ∃ f : Cut, f.Fills c ∧ f.text = p.toList := by
  rw [Template.matches, String.toList_ofList, literals_text h, fits_iff, spans_iff]
  simp only [Cut.Fills, and_assoc]

/-- **A template has one split at its leftmost placeholders, and it matches the paths that fill this
split**, whatever characters there are. -/
theorem matches_iff_fills (t : String) :
    ∃ c : Cut, c.IsSplit IsPlaceholder t.toList
      ∧ (∀ d : Cut, d.IsSplit IsPlaceholder t.toList → d = c)
      ∧ ∀ p : String, Template.matches t p = true ↔ ∃ f : Cut, f.Fills c ∧ f.text = p.toList := by
  obtain ⟨c, hc, hunique⟩ := Cut.existsUnique_split definite_isPlaceholder t.toList
  refine ⟨c, hc, hunique, fun p => ?_⟩
  rw [← matches_text_iff hc.2, hc.1, String.ofList_toList]

-- a point is no operator, and a line break may stand for a placeholder
example : Template.matches "/v1.0/\x7bid\x7d" "/v1x0/3" = false := by decide +kernel

example : Template.matches "/notes/\x7bid\x7d/\x7b" "/notes/a/\nb/\x7b" = true := by decide +kernel

/-! ### Names of any kind -/

/-- A text without braces. -/
def BraceFree (cs : List Char) : Prop := '{' ∉ cs ∧ '}' ∉ cs

instance (cs : List Char) : Decidable (BraceFree cs) :=
  inferInstanceAs (Decidable ('{' ∉ cs ∧ '}' ∉ cs))

/-- Where no brace opens, no placeholder starts. -/
theorem startsNone_of_braceFree {l : List Char} (h : BraceFree l) (after : List Char) :
    Cut.StartsNone IsPlaceholder l after := by
  rintro behind hsuffix hne _ ⟨name, -, rfl⟩ ⟨rest, hrest⟩
  obtain ⟨x, behind, rfl⟩ := List.exists_cons_of_ne_nil hne
  rw [placeholder_append, List.cons_append] at hrest
  have hx : x ∈ l := hsuffix.subset List.mem_cons_self
  exact h.1 ((List.cons.inj hrest).1 ▸ hx)

/-- A character parts a text at its first occurrence. -/
theorem append_cons_inj_of_not_mem {x : Char} {l l' r r' : List Char} (h : x ∉ l) (h' : x ∉ l')
    (heq : l ++ x :: r = l' ++ x :: r') : l = l' ∧ r = r' := by
  induction l generalizing l' with
  | nil =>
      cases l' with
      | nil => exact ⟨rfl, (List.cons.inj heq).2⟩
      | cons y l' => exact absurd ((List.cons.inj heq).1 ▸ List.mem_cons_self) h'
  | cons y l ih =>
      rw [List.mem_cons, not_or] at h
      cases l' with
      | nil => exact absurd (List.cons.inj heq).1.symm h.1
      | cons z l' =>
          rw [List.mem_cons, not_or] at h'
          obtain ⟨rfl, htail⟩ := List.cons.inj heq
          obtain ⟨rfl, rfl⟩ := ih h.2 h'.2 htail
          exact ⟨rfl, rfl⟩

section

variable {t c : Cut} {names : List String}

/-- A cut with names for pieces is the split of its text if all names are proper ones. -/
theorem leftmost_of_names (hl : ∀ l ∈ t.literals, BraceFree l)
    (hpieces : t.pieces = names.map placeholder) (h : ∀ n ∈ names, IsName n) :
    t.Leftmost IsPlaceholder := by
  induction t generalizing names with
  | last l => exact startsNone_of_braceFree (hl l (by simp)) []
  | more l w t ih =>
      cases names with
      | nil => cases hpieces
      | cons n names =>
          rw [Cut.pieces_more, List.map_cons, List.cons.injEq] at hpieces
          rw [Cut.literals_more, List.forall_mem_cons] at hl
          rw [List.forall_mem_cons] at h
          exact ⟨startsNone_of_braceFree hl.1 _, ⟨n, h.1, hpieces.1⟩, ih hl.2 hpieces.2 h.2⟩

/-- Where the literals have no braces, every brace is one of a placeholder: a split with such
literals has the names between the braces for pieces. -/
theorem isName_of_leftmost (hl : ∀ l ∈ t.literals, BraceFree l)
    (hpieces : t.pieces = names.map placeholder) (hn : ∀ n ∈ names, BraceFree n.toList)
    (hc : c.Leftmost IsPlaceholder) (hcl : ∀ l ∈ c.literals, '{' ∉ l) (htext : c.text = t.text) :
    ∀ n ∈ names, IsName n := by
  induction t generalizing c names with
  | last l =>
      obtain rfl : names = [] := List.map_eq_nil_iff.1 hpieces.symm
      simp
  | more l w t ih =>
      cases names with
      | nil => cases hpieces
      | cons n names =>
          rw [Cut.pieces_more, List.map_cons, List.cons.injEq] at hpieces
          rw [Cut.literals_more, List.forall_mem_cons] at hl
          rw [List.forall_mem_cons] at hn
          rw [Cut.text_more, hpieces.1, placeholder_append] at htext
          cases c with
          | last k =>
              refine absurd ?_ (hcl k (by simp))
              rw [Cut.text_last] at htext
              simp [htext]
          | more k v c =>
              obtain ⟨-, ⟨m, hm, rfl⟩, hc⟩ := hc
              rw [Cut.literals_more, List.forall_mem_cons] at hcl
              rw [Cut.text_more, placeholder_append] at htext
              have hbrace : Text.isWord '}' = false := by decide +kernel
              have hmfree : '}' ∉ m.toList := fun hmem => by
                have hword := hm.2 _ hmem
                rw [hbrace] at hword
                cases hword
              obtain ⟨-, htail⟩ := append_cons_inj_of_not_mem hcl.1 hl.1.1 htext
              obtain ⟨hmn, hrest⟩ := append_cons_inj_of_not_mem hmfree hn.1.2 htail
              rw [String.toList_inj.1 hmn] at hm
              exact List.forall_mem_cons.2 ⟨hm, ih hl.2 hpieces.2 hn.2 hc hcl.2 hrest⟩

/-- Every cut is filled by one with a text of our choice for all pieces. -/
theorem exists_fills (c : Cut) {v : List Char} (hv : v ≠ []) :
    ∃ f : Cut, f.Fills c ∧ ∀ w ∈ f.pieces, w = v := by
  induction c with
  | last l => exact ⟨.last l, ⟨rfl, by simp⟩, by simp⟩
  | more l w c ih =>
      obtain ⟨f, ⟨hliterals, hne⟩, hpieces⟩ := ih
      exact ⟨.more l v f, ⟨by rw [Cut.literals_more, Cut.literals_more, hliterals],
        List.forall_mem_cons.2 ⟨hv, hne⟩⟩, List.forall_mem_cons.2 ⟨rfl, hpieces⟩⟩

theorem mem_text_iff {x : Char} :
    x ∈ c.text ↔ (∃ l ∈ c.literals, x ∈ l) ∨ ∃ w ∈ c.pieces, x ∈ w := by
  induction c with
  | last l => simp
  | more l w c ih =>
      rw [Cut.text_more, List.mem_append, List.mem_append, ih, Cut.literals_more, Cut.pieces_more,
        List.exists_mem_cons_iff, List.exists_mem_cons_iff, or_assoc, or_left_comm (a := x ∈ w)]

/-- **A template is matched by all paths that fill it exactly if its names consist of word
characters**, and then the paths resolve to it.  A name of another kind makes a literal of its
placeholder. -/
theorem matches_fills_iff (hl : ∀ l ∈ t.literals, BraceFree l)
    (hpieces : t.pieces = names.map placeholder)
    (hn : ∀ n ∈ names, n.toList ≠ [] ∧ BraceFree n.toList) :
    (∀ f : Cut, f.Fills t → Template.matches (String.ofList t.text) (String.ofList f.text) = true
        ∧ ∀ url, pathOf url = .ok (String.ofList f.text) →
          resolve url [String.ofList t.text] = .ok ⟨String.ofList t.text, []⟩)
      ↔ ∀ n ∈ names, IsName n := by
  constructor
  · intro hall
    obtain ⟨c, ⟨htext, hc⟩, -⟩ := Cut.existsUnique_split definite_isPlaceholder t.text
    -- a path without braces that fills the template has the literals of its split
    obtain ⟨f, hf, hx⟩ := exists_fills t (v := ['x']) (by simp)
    have hmatch := (hall f hf).1
    rw [← htext, matches_text_iff hc, String.toList_ofList] at hmatch
    obtain ⟨g, hg, hgf⟩ := hmatch
    have hopen : '{' ∉ f.text := by
      rw [mem_text_iff, not_or, hf.1]
      refine ⟨fun ⟨l, hlit, hmem⟩ => (hl l hlit).1 hmem, fun ⟨w, hw, hmem⟩ => ?_⟩
      rw [hx w hw] at hmem
      simp at hmem
    have hcl : ∀ l ∈ c.literals, '{' ∉ l := by
      intro l hlit hmem
      rw [← hgf, mem_text_iff, not_or, hg.1] at hopen
      exact hopen.1 ⟨l, hlit, hmem⟩
    exact isName_of_leftmost hl hpieces (fun n h => (hn n h).2) hc hcl htext
  · intro hnames f hf
    have hmatch : Template.matches (String.ofList t.text) (String.ofList f.text) = true :=
      (matches_text_iff (leftmost_of_names hl hpieces hnames)).2
        ⟨f, hf, by rw [String.toList_ofList]⟩
    have hfind : [String.ofList t.text].find? (Template.matches · (String.ofList f.text))
        = some (String.ofList t.text) := List.find?_cons_of_pos hmatch
    refine ⟨hmatch, fun url hurl => resolve_eq_ok_iff.2 ⟨_, hurl, ?_⟩⟩
    rw [resolvePath, hfind]

end

/-- A template with two placeholders. -/
def memberTemplate : Cut :=
  .more "/teams/".toList (placeholder "team") (.more "/".toList (placeholder "member_1") (.last []))

/-- The names of the placeholders are word characters, and the template is filled by all paths. -/
theorem matches_fills_iff_member :
    (∀ l ∈ memberTemplate.literals, BraceFree l) ∧
    memberTemplate.pieces = ["team", "member_1"].map placeholder ∧
    (∀ n ∈ ["team", "member_1"], n.toList ≠ [] ∧ BraceFree n.toList) ∧
    ((∀ f : Cut, f.Fills memberTemplate →
        Template.matches (String.ofList memberTemplate.text) (String.ofList f.text) = true
          ∧ ∀ url, pathOf url = .ok (String.ofList f.text) →
            resolve url [String.ofList memberTemplate.text]
              = .ok ⟨String.ofList memberTemplate.text, []⟩)
      ↔ ∀ n ∈ ["team", "member_1"], IsName n) ∧
    ∀ n ∈ ["team", "member_1"], IsName n := by
  have hl : ∀ l ∈ memberTemplate.literals, BraceFree l := by decide +kernel
  have hpieces : memberTemplate.pieces = ["team", "member_1"].map placeholder := by rfl
  have hn : ∀ n ∈ ["team", "member_1"], n.toList ≠ [] ∧ BraceFree n.toList := by decide +kernel
  refine ⟨hl, hpieces, hn, matches_fills_iff hl hpieces hn, ?_⟩
  decide +kernel

/-- A template with a placeholder whose name has a hyphen. -/
def hyphenTemplate : Cut := .more "/users/".toList (placeholder "user-id") (.last [])

/-- A path that fills it. -/
def hyphenPath : Cut := .more "/users/".toList "42".toList (.last [])

/-- A path that fills a template need not be matched by it, and then it becomes a template of its
own. -/
theorem not_matches_hyphenPath :
    (∀ l ∈ hyphenTemplate.literals, BraceFree l) ∧
    hyphenTemplate.pieces = ["user-id"].map placeholder ∧
    (∀ n ∈ ["user-id"], n.toList ≠ [] ∧ BraceFree n.toList ∧ '/' ∉ n.toList) ∧
    hyphenPath.Fills hyphenTemplate ∧
    Template.matches (String.ofList hyphenTemplate.text) (String.ofList hyphenPath.text) = false ∧
    pathOf "/users/42" = .ok (String.ofList hyphenPath.text) ∧
    (resolve "/users/42" [String.ofList hyphenTemplate.text]).toOption.map Resolution.template
      = some "/users/42" := by
  refine ⟨by decide +kernel, by rfl, by decide +kernel, ⟨by rfl, by decide +kernel⟩,
    by decide +kernel, ?_, by decide +kernel⟩
  rfl

end ApiScribe.Template
