/-
**The UUIDs of a path.**

A path that no known template matches is split at its UUIDs, from the left, and each of them becomes
a placeholder.  UUIDs may overlap, and the digits around one may be a part of another; but where a
UUID starts depends only on which characters are hexadecimal digits and which are hyphens.  So the
split of a path does not change if other UUIDs are put in place, and the template is the same.

Main definitions:

* `ApiScribe.Template.Mark`, `ApiScribe.Template.mark` — what counts of a character;
* `ApiScribe.Template.IsUuid` — what a UUID is;
* `ApiScribe.Template.SplitResolution` — how a path that is split at its UUIDs gets its template.

Main results:

* `ApiScribe.Template.startsWithUuid_iff` — where a UUID starts, in terms of the marks;
* `ApiScribe.Template.Cut.Leftmost.replace` — a split with other UUIDs is a split;
* `ApiScribe.Template.exists_generalizeAfter` — the template of a split path;
* `ApiScribe.Template.exists_splitResolution` — **a path that no known template matches is split at
  its UUIDs, and they alone become placeholders**.
-/

import ApiScribe.Proofs.Template.Cut
import ApiScribe.Proofs.Template.Placeholder

set_option autoImplicit false

namespace ApiScribe.Template

/-! ### What a UUID is -/

/-- A hexadecimal digit in either case. -/
def IsHexDigit (c : Char) : Prop :=
  ('0' ≤ c ∧ c ≤ '9') ∨ ('a' ≤ c ∧ c ≤ 'f') ∨ ('A' ≤ c ∧ c ≤ 'F')

instance (c : Char) : Decidable (IsHexDigit c) :=
  inferInstanceAs (Decidable (('0' ≤ c ∧ c ≤ '9') ∨ ('a' ≤ c ∧ c ≤ 'f') ∨ ('A' ≤ c ∧ c ≤ 'F')))

/-- What counts of a character in a UUID. -/
inductive Mark where
  /-- A hexadecimal digit in either case. -/
  | digit
  /-- A hyphen. -/
  | hyphen
  /-- Any other character. -/
  | other
  deriving DecidableEq, Repr

/-- What counts of a character. -/
def mark (c : Char) : Mark :=
  if IsHexDigit c then .digit else if c = '-' then .hyphen else .other

/-- The marks of groups of digits with hyphens between them. -/
def groupMarks : List Nat → List Mark
  | [] => []
  | [n] => List.replicate n .digit
  | n :: ns => List.replicate n .digit ++ .hyphen :: groupMarks ns

/-- A text of 8, 4, 4, 4 and 12 hexadecimal digits with hyphens between the groups. -/
def IsUuid (cs : List Char) : Prop := cs.map mark = groupMarks uuidGroups

instance (cs : List Char) : Decidable (IsUuid cs) :=
  inferInstanceAs (Decidable (cs.map mark = groupMarks uuidGroups))

theorem isHexDigit_iff {c : Char} : isHexDigit c = true ↔ IsHexDigit c := by
  rw [isHexDigit, digitValue?, IsHexDigit]
  split_ifs with h₁ h₂ h₃ <;> simp [*]

theorem mark_eq_digit_iff {c : Char} : mark c = .digit ↔ isHexDigit c = true := by
  rw [isHexDigit_iff, mark]
  split_ifs with h₁ h₂ <;> simp [h₁]

theorem mark_eq_hyphen_iff {c : Char} : mark c = .hyphen ↔ c = '-' := by
  have hhyphen : ¬IsHexDigit '-' := by decide
  rw [mark]
  split_ifs with h₁ h₂
  · refine iff_of_false (by simp) ?_
    rintro rfl
    exact hhyphen h₁
  · simp [h₂]
  · simp [h₂]

theorem IsUuid.length {u : List Char} (h : IsUuid u) : u.length = uuidLength := by
  rw [← List.length_map mark, h]
  rfl

/-- A UUID has a hyphen, and it has only digits beside. -/
theorem IsUuid.hyphen_mem {u : List Char} (h : IsUuid u) : '-' ∈ u := by
  have hmem : Mark.hyphen ∈ u.map mark := by
    rw [h]
    decide
  obtain ⟨c, hc, hmark⟩ := List.mem_map.1 hmem
  exact mark_eq_hyphen_iff.1 hmark ▸ hc

theorem IsUuid.mark_ne {u : List Char} (h : IsUuid u) {c : Char} (hc : c ∈ u) :
    mark c ≠ .other := by
  have hmem : mark c ∈ groupMarks uuidGroups := h ▸ List.mem_map_of_mem hc
  intro hother
  rw [hother] at hmem
  exact absurd hmem (by decide)

/-! ### Where a UUID starts -/

/-- A text starts with UUID exactly if its marks do so. -/
theorem exists_isUuid_prefix_iff {cs : List Char} :
    (∃ u, IsUuid u ∧ u <+: cs) ↔ groupMarks uuidGroups <+: cs.map mark := by
  constructor
  · rintro ⟨u, hu, rest, rfl⟩
    rw [← hu, List.map_append]
    exact List.prefix_append _ _
  · rintro ⟨rest, hrest⟩
    obtain ⟨u, cs', rfl, hu, -⟩ := List.map_eq_append_iff.1 hrest.symm
    exact ⟨u, hu, List.prefix_append u cs'⟩

theorem digits_prefix_iff {n : Nat} {cs : List Char} :
    List.replicate n Mark.digit <+: cs.map mark ↔
      ((cs.take n).length == n && (cs.take n).all isHexDigit) = true := by
  rw [List.prefix_iff_eq_take, List.length_replicate, ← List.map_take, eq_comm,
    List.eq_replicate_iff, List.length_map, Bool.and_eq_true, beq_iff_eq, List.all_eq_true]
  simp only [List.mem_map, forall_exists_index, and_imp, forall_apply_eq_imp_iff₂,
    mark_eq_digit_iff]

theorem append_prefix_iff {α : Type} {xs ys zs : List α} :
    xs ++ ys <+: zs ↔ xs <+: zs ∧ ys <+: zs.drop xs.length := by
  constructor
  · rintro ⟨rest, rfl⟩
    rw [List.append_assoc, List.drop_left]
    exact ⟨List.prefix_append _ _, List.prefix_append _ _⟩
  · rintro ⟨⟨rest, rfl⟩, h⟩
    rw [List.drop_left] at h
    exact (List.prefix_append_right_inj xs).2 h

theorem afterGroups_iff {ns : List Nat} {cs : List Char} :
    afterGroups ns cs = true ↔ groupMarks ns <+: cs.map mark := by
  induction ns generalizing cs with
  | nil => simp [afterGroups, groupMarks]
  | cons n ns ih =>
      cases ns with
      | nil => rw [afterGroups, groupMarks, digits_prefix_iff]
      | cons m ns =>
          have hmore : groupMarks (n :: m :: ns)
              = List.replicate n .digit ++ .hyphen :: groupMarks (m :: ns) := rfl
          rw [hmore, append_prefix_iff, digits_prefix_iff, List.length_replicate, ← List.map_drop]
          simp only [afterGroups, Bool.and_eq_true (_ && _)]
          refine and_congr_right fun _ => ?_
          -- behind the digits stands a hyphen, or else there is no UUID
          split
          · rename_i rest hdrop
            rw [hdrop, List.map_cons, mark_eq_hyphen_iff.2 rfl, List.cons_prefix_cons]
            simp [ih]
          · rename_i hno
            refine iff_of_false (by simp) fun h => ?_
            obtain ⟨marks, hmarks, -⟩ := List.cons_prefix_iff.1 h
            obtain ⟨c, rest, hdrop, hmark, -⟩ := List.map_eq_cons_iff.1 hmarks
            exact hno rest (mark_eq_hyphen_iff.1 hmark ▸ hdrop)

/-- Where a UUID starts, in terms of the marks. -/
theorem startsWithUuid_iff {cs : List Char} :
    startsWithUuid cs = true ↔ ∃ u, IsUuid u ∧ u <+: cs :=
  afterGroups_iff.trans exists_isUuid_prefix_iff.symm

/-- All UUIDs have the same length. -/
theorem definite_isUuid : Cut.Definite IsUuid where
  ne_nil := by
    rintro u hu rfl
    exact absurd hu.length (by decide)
  unique := by
    intro u v cs hu hv h h'
    refine (List.prefix_of_prefix_length_le h h' ?_).eq_of_length ?_
    · rw [hu.length, hv.length]
    · rw [hu.length, hv.length]

/-! ### Splits at UUIDs -/

namespace Cut

/-- Texts with the same marks have their UUIDs at the same places. -/
theorem StartsNone.of_marks {l after after' : List Char} (h : StartsNone IsUuid l after)
    (hmarks : after.map mark = after'.map mark) : StartsNone IsUuid l after' := by
  intro behind hsuffix hne u hu hprefix
  have hstarts := exists_isUuid_prefix_iff.1 ⟨u, hu, hprefix⟩
  rw [List.map_append, ← hmarks, ← List.map_append] at hstarts
  obtain ⟨v, hv, hprefix'⟩ := exists_isUuid_prefix_iff.2 hstarts
  exact h behind hsuffix hne v hv hprefix'

section

variable {c d : Cut}

/-- Cuts that differ in their UUIDs only have the same marks. -/
theorem map_mark_text (hliterals : d.literals = c.literals) (hc : ∀ u ∈ c.pieces, IsUuid u)
    (hd : ∀ u ∈ d.pieces, IsUuid u) : d.text.map mark = c.text.map mark := by
  induction c generalizing d with
  | last l => rw [literals_eq_singleton_iff.1 hliterals]
  | more l u c ih =>
      obtain ⟨v, d, rfl, hrest⟩ := literals_eq_cons hliterals
      rw [pieces_more, List.forall_mem_cons] at hc hd
      rw [text_more, text_more, List.map_append, List.map_append, List.map_append, List.map_append,
        ih hrest hc.2 hd.2, hc.1, hd.1]

theorem Leftmost.forall_pieces {P : List Char → Prop} (h : c.Leftmost P) : ∀ w ∈ c.pieces, P w := by
  induction c with
  | last l => simp
  | more l w c ih => exact List.forall_mem_cons.2 ⟨h.2.1, ih h.2.2⟩

/-- **A split with other UUIDs is a split.** -/
theorem Leftmost.replace (h : c.Leftmost IsUuid) (hliterals : d.literals = c.literals)
    (hpieces : ∀ u ∈ d.pieces, IsUuid u) : d.Leftmost IsUuid := by
  induction c generalizing d with
  | last l =>
      rw [literals_eq_singleton_iff.1 hliterals]
      exact h
  | more l u c ih =>
      have huuids := h.forall_pieces
      obtain ⟨hnone, hu, hc⟩ := h
      obtain ⟨v, d, rfl, hrest⟩ := literals_eq_cons hliterals
      rw [pieces_more, List.forall_mem_cons] at hpieces huuids
      refine ⟨hnone.of_marks ?_, hpieces.1, ih hc hrest hpieces.2⟩
      rw [List.map_append, List.map_append, map_mark_text hrest huuids.2 hpieces.2, hu, hpieces.1]

end

end Cut

/-! ### The template of a split path -/

/-- The template of a split path has the same literals and, between them, placeholders that are
numbered from the left. -/
theorem exists_generalizeAfter {c : Cut} (h : c.Leftmost IsUuid) (index : Nat) :
    ∃ t : Cut, t.literals = c.literals
      ∧ t.pieces = (List.range' index c.pieces.length).map (placeholder ∘ placeholderName)
      ∧ generalizeAfter index 0 c.text
        = (t.text, (List.range' index c.pieces.length).map placeholderName) := by
  induction c using Cut.induct generalizing index with
  | nil => exact ⟨.last [], rfl, rfl, rfl⟩
  | piece u c ih =>
      obtain ⟨hu, hc⟩ := Cut.leftmost_piece_iff.1 h
      obtain ⟨t, hliterals, hpieces, hgen⟩ := ih hc (index + 1)
      obtain ⟨x, u, rfl⟩ := List.exists_cons_of_ne_nil (definite_isUuid.ne_nil u hu)
      have hstarts : startsWithUuid (x :: (u ++ c.text)) = true :=
        startsWithUuid_iff.2 ⟨x :: u, hu, List.prefix_append (x :: u) c.text⟩
      have hdrop : (u ++ c.text).drop (uuidLength - 1) = c.text := by
        have hlength := hu.length
        rw [List.length_cons] at hlength
        exact List.drop_left' (by omega)
      refine ⟨.more [] (placeholder (placeholderName index)) t, by simp [hliterals], ?_, ?_⟩
      · rw [Cut.pieces_more, hpieces, Cut.pieces_more, List.length_cons, List.range'_succ]
        rfl
      · rw [Cut.text_piece, List.cons_append, generalizeAfter_uuid hstarts, hdrop, hgen,
          Cut.pieces_more, List.length_cons, List.range'_succ, Cut.text_piece]
        rfl
  | cons x c ih =>
      obtain ⟨hnone, hc⟩ := Cut.leftmost_cons_iff.1 h
      obtain ⟨t, hliterals, hpieces, hgen⟩ := ih hc index
      have hstarts : startsWithUuid (x :: c.text) = false := by
        rw [Bool.eq_false_iff]
        intro huuid
        obtain ⟨u, hu, hprefix⟩ := startsWithUuid_iff.1 huuid
        exact hnone u hu hprefix
      refine ⟨t.cons x, by simp [hliterals], by simp [hpieces], ?_⟩
      rw [Cut.text_cons, generalizeAfter_cons hstarts, hgen, Cut.pieces_cons, Cut.text_cons]

/-- A text that lies in another one lies on one side of a character that it has not. -/
theorem infix_append_cons {x : Char} {u l r : List Char} (hx : x ∉ u) (h : u <:+: l ++ x :: r) :
    u <:+: l ∨ u <:+: r := by
  obtain ⟨before, behind, heq⟩ := h
  rw [List.append_assoc, List.append_eq_append_iff] at heq
  rcases heq with ⟨l', rfl, heq⟩ | ⟨front, rfl, heq⟩
  · -- it starts in front of the character, and ends there as well
    rcases List.append_eq_append_iff.1 heq with ⟨l'', rfl, -⟩ | ⟨middle, rfl, htail⟩
    · exact Or.inl ⟨before, l'', by rw [List.append_assoc]⟩
    · cases middle with
      | nil => exact Or.inl ⟨before, [], by simp⟩
      | cons y middle =>
          obtain ⟨rfl, -⟩ := List.cons.inj htail
          exact absurd (List.mem_append_right l' List.mem_cons_self) hx
  · cases front with
    | nil =>
        cases u with
        | nil => exact Or.inl (List.nil_infix)
        | cons y u =>
            obtain ⟨rfl, -⟩ := List.cons.inj heq
            exact absurd List.mem_cons_self hx
    | cons y front =>
        rw [List.cons_append, List.cons.injEq] at heq
        exact Or.inr ⟨front, behind, by rw [List.append_assoc, heq.2]⟩

/-- A template without UUIDs in its literals has none at all. -/
theorem not_infix_text {t : Cut} {u : List Char} (hu : IsUuid u) (hl : ∀ l ∈ t.literals, ¬u <:+: l)
    (hpieces : ∀ w ∈ t.pieces, ∃ index, w = placeholder (placeholderName index)) :
    ¬u <:+: t.text := by
  have hopen : '{' ∉ u := fun hmem => hu.mark_ne hmem (by decide)
  have hclose : '}' ∉ u := fun hmem => hu.mark_ne hmem (by decide)
  induction t with
  | last l => exact hl l (by simp)
  | more l w t ih =>
      rw [Cut.literals_more, List.forall_mem_cons] at hl
      rw [Cut.pieces_more, List.forall_mem_cons] at hpieces
      obtain ⟨⟨index, rfl⟩, hpieces⟩ := hpieces
      rw [Cut.text_more, placeholder_append]
      intro hfound
      rcases infix_append_cons hopen hfound with hfound | hfound
      · exact hl.1 hfound
      rcases infix_append_cons hclose hfound with hfound | hfound
      · -- a name has no hyphen
        have hhyphen : Text.isWord '-' = false := by decide +kernel
        have hword := isWord_of_mem_placeholderName (hfound.subset hu.hyphen_mem)
        rw [hhyphen] at hword
        cases hword
      · exact ih hl.2 hpieces hfound

/-! ### Resolution -/

/-- How a path gets its template: `c` is the path, split at its UUIDs, and `t` the template. -/
structure SplitResolution (url path : String) (known : List String) (c t : Cut) : Prop where
  /-- The path is split at its UUIDs. -/
  split : c.IsSplit IsUuid path.toList
  /-- There is no other split of it. -/
  unique : ∀ d : Cut, d.IsSplit IsUuid path.toList → d = c
  /-- The template has the literals of the path. -/
  literals : t.literals = c.literals
  /-- In place of the UUIDs it has placeholders that are numbered from the left. -/
  pieces : t.pieces = (List.range c.pieces.length).map (placeholder ∘ placeholderName)
  /-- The URL resolves to the template, with a parameter for each placeholder. -/
  resolve : resolve url known = .ok ⟨String.ofList t.text,
    (List.range c.pieces.length).map (ValueParameter.ofPlaceholder ∘ placeholderName)⟩
  /-- The names of the placeholders are distinct. -/
  nodup : ((List.range c.pieces.length).map placeholderName).Nodup
  /-- No UUID is left. -/
  noUuid : ∀ u, IsUuid u → ¬u <:+: t.text
  /-- A path with other UUIDs resolves to the same, unless a known template matches it. -/
  replace : ∀ (url' path' : String) (d : Cut), pathOf url' = .ok path' → d.text = path'.toList →
    d.literals = c.literals → (∀ u ∈ d.pieces, IsUuid u) →
    (∀ s ∈ known, Template.matches s path' = false) →
    Template.resolve url' known = Template.resolve url known

section

variable {url path : String} {known : List String}

/-- A path that no known template matches gets the template that is made of it. -/
theorem resolve_of_generalizeAfter (hpath : pathOf url = .ok path)
    (hnone : ∀ s ∈ known, Template.matches s path = false) {template : List Char}
    {names : List String} (h : generalizeAfter 0 0 path.toList = (template, names)) :
    resolve url known
      = .ok ⟨String.ofList template, names.map ValueParameter.ofPlaceholder⟩ := by
  have hfind : known.find? (Template.matches · path) = none :=
    List.find?_eq_none.2 fun s hs => by simp [hnone s hs]
  refine resolve_eq_ok_iff.2 ⟨path, hpath, ?_⟩
  rw [resolvePath, hfind, generalize, h]

/-- **A path that no known template matches is split at its UUIDs, and they alone become
placeholders**, whatever their digits are. -/
theorem exists_splitResolution (hpath : pathOf url = .ok path)
    (hnone : ∀ s ∈ known, Template.matches s path = false) :
    ∃ c t, SplitResolution url path known c t := by
  obtain ⟨c, ⟨htext, hc⟩, hunique⟩ := Cut.existsUnique_split definite_isUuid path.toList
  obtain ⟨t, hliterals, hpieces, hgen⟩ := exists_generalizeAfter hc 0
  rw [htext] at hgen
  rw [← List.range_eq_range'] at hpieces hgen
  have hresolve := resolve_of_generalizeAfter hpath hnone hgen
  rw [List.map_map] at hresolve
  refine ⟨c, t, ⟨htext, hc⟩, hunique, hliterals, hpieces, hresolve, ?_, ?_, ?_⟩
  · exact List.Nodup.map (fun _ _ h => placeholderName_injective h) List.nodup_range
  · intro u hu
    refine not_infix_text hu (fun l hl => ?_) fun w hw => ?_
    · exact hc.not_infix definite_isUuid hu l (hliterals ▸ hl)
    · rw [hpieces] at hw
      obtain ⟨index, -, rfl⟩ := List.mem_map.1 hw
      exact ⟨index, rfl⟩
  · intro url' path' d hpath' htext' hsame huuids hnone'
    -- the other path is split at the same places, so that it has the same template
    obtain ⟨t', ht', hpieces', hgen'⟩ := exists_generalizeAfter (hc.replace hsame huuids) 0
    have hlength : d.pieces.length = c.pieces.length := by
      have hd := d.length_literals
      rw [hsame, c.length_literals] at hd
      omega
    rw [← List.range_eq_range', hlength] at hpieces' hgen'
    obtain rfl := Cut.eq_of_parts (ht'.trans (hsame.trans hliterals.symm))
      (hpieces'.trans hpieces.symm)
    rw [htext'] at hgen'
    rw [hresolve, resolve_of_generalizeAfter hpath' hnone' hgen', List.map_map]

end

/-- A URL with two UUIDs that overlap, and a digit in front. -/
def overlapUrl : String := "/f550e8400-e29b-41d4-a716-446655440000-E29B-41D4-A716-446655440000"

/-- Of UUIDs that overlap the left one becomes a placeholder, and what is left of the other one is a
literal. -/
theorem exists_splitResolution_overlap : ∃ path c t,
    pathOf overlapUrl = .ok path ∧ (∀ s ∈ ["/f"], Template.matches s path = false) ∧
    SplitResolution overlapUrl path ["/f"] c t ∧
    String.ofList t.text = "/f\x7buuid\x7d-E29B-41D4-A716-446655440000" := by
  have hrun : (pathOf overlapUrl).toOption.map (Template.matches "/f") = some false := by
    decide +kernel
  obtain ⟨path, hpath, hfalse⟩ := exists_ok_of_toOption hrun
  have hnone : ∀ s ∈ ["/f"], Template.matches s path = false := by simpa using hfalse
  obtain ⟨c, t, h⟩ := exists_splitResolution hpath hnone
  have htemplate : (resolve overlapUrl ["/f"]).toOption.map Resolution.template
      = some "/f\x7buuid\x7d-E29B-41D4-A716-446655440000" := by
    decide +kernel
  rw [h.resolve] at htemplate
  exact ⟨path, c, t, hpath, hnone, h, Option.some.inj htemplate⟩

end ApiScribe.Template
