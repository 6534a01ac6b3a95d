/-
**Where two schemas meet.**

A join looks at two schemas together at the root, at the items where both sides know them, and at
the properties that both sides require.  Whatever can go wrong goes wrong at one of these joint
places: two types differ, or a name that both sides require is not a property of one of them.
Elsewhere the two sides are never compared, so that a property of both which is not required by both
keeps the schema of the first side, whatever the second one says of it.

Main definitions:

* `ApiScribe.Schema.Joint` — the pairs of schemas that a join looks at together;
* `ApiScribe.Schema.offences` — all that is wrong at joint places, in the order of the join;
* `ApiScribe.Schema.SharesRequired` — at joint places, what is a property of both sides is required
  by both.

Main results:

* `ApiScribe.Schema.failure?_join` — a join fails with the first offence, and only if there is one;
* `ApiScribe.Schema.mem_offences_iff` — the offences are those of the joint places;
* `ApiScribe.Schema.join_fails_iff_joint` — **exactly when a join fails, and with which cause**;
* `ApiScribe.Schema.covers_join_sides` — **what a join covers of what its sides cover**.
-/

import ApiScribe.Proofs.Data.Json
import ApiScribe.Proofs.Document.Extras
import ApiScribe.Proofs.Schema.Cover
import ApiScribe.Proofs.Schema.Outline
import ApiScribe.Proofs.Schema.Showable

set_option autoImplicit false

namespace ApiScribe

/-- The cause for which an outcome ends badly, if it does. -/
def failure? {ε α : Type} : Except ε α → Option ε
  | .ok _ => none
  | .error e => some e

theorem failure?_eq_some_iff {ε α : Type} {x : Except ε α} {e : ε} :
    failure? x = some e ↔ x = .error e := by
  cases x <;> simp [failure?]

theorem failure?_eq_none_iff {ε α : Type} {x : Except ε α} :
    failure? x = none ↔ ∃ a, x = .ok a := by
  cases x <;> simp [failure?]

theorem failure?_map {ε α β : Type} (x : Except ε α) (f : α → β) :
    failure? (x.map f) = failure? x := by
  cases x <;> rfl

namespace Schema

/-! ### Joint places -/

/-- The properties of an object. -/
def properties : Schema → Members String Schema
  | object ps _ _ => ps
  | array .. => []
  | scalar .. => []

/-- The schemas `p` and `q` stand at the same joint place of two others: at the root, or one step
inside, where both know the items or both require and have the property, at a joint place of what
stands there. -/
inductive Joint : Schema → Schema → Schema → Schema → Prop
  /-- The root. -/
  | root (a b : Schema) : Joint a b a b
  /-- A place at a property. -/
  | property {a b s t p q : Schema} {k : String}
      (required : k ∈ jointRequired a.required b.required) (left : a.property? k = some s)
      (right : b.property? k = some t) (inside : Joint s t p q) : Joint a b p q
  /-- A place at the items. -/
  | items {a b s t p q : Schema} (left : a.items? = some s) (right : b.items? = some t)
      (inside : Joint s t p q) : Joint a b p q

/-- What is wrong between two schemas at a joint place, without looking inside. -/
inductive Offends (p q : Schema) : SchemaError → Prop
  /-- The types differ. -/
  | types (differ : p.typeName ≠ q.typeName) : Offends p q (.typeMismatch p q)
  /-- A name that both sides require is not a property of the first. -/
  | first {k : String} (required : k ∈ jointRequired p.required q.required) (absent : k ∉ p.names) :
      Offends p q (.missingRequired k .first p.properties)
  /-- A name that both sides require is not a property of the second. -/
  | second {k : String} (required : k ∈ jointRequired p.required q.required)
      (absent : k ∉ q.names) : Offends p q (.missingRequired k .second q.properties)

/-- Two schemas of one type, each with all the names that both require. -/
structure Agree (p q : Schema) : Prop where
  /-- The types are equal. -/
  types : p.typeName = q.typeName
  /-- What both sides require is a property of the first. -/
  first : ∀ k ∈ jointRequired p.required q.required, k ∈ p.names
  /-- What both sides require is a property of the second. -/
  second : ∀ k ∈ jointRequired p.required q.required, k ∈ q.names

theorem agree_iff {p q : Schema} : Agree p q ↔ ∀ e, ¬Offends p q e := by
  constructor
  · intro h e he
    cases he with
    | types differ => exact differ h.types
    | first required absent => exact absent (h.first _ required)
    | second required absent => exact absent (h.second _ required)
  · intro h
    refine ⟨?_, fun k hk => ?_, fun k hk => ?_⟩
    · by_contra differ
      exact h _ (.types differ)
    · by_contra absent
      exact h _ (.first hk absent)
    · by_contra absent
      exact h _ (.second hk absent)

/-! ### Offences in order -/

theorem sizeOf_property? {s p : Schema} {k : String} (h : s.property? k = some p) :
    sizeOf p < sizeOf s := by
  cases s with
  | object ps req ex =>
      have h₁ := List.sizeOf_lt_of_mem (Members.mem_of_get? h)
      have h₂ : sizeOf (k, p) = 1 + sizeOf k + sizeOf p := by simp
      simp only [object.sizeOf_spec]
      omega
  | array items ex => cases h
  | scalar kind ex => cases h

theorem sizeOf_items? {s p : Schema} (h : s.items? = some p) : sizeOf p < sizeOf s := by
  cases s with
  | object ps req ex => cases h
  | array items ex =>
      cases h
      simp
      omega
  | scalar kind ex => cases h

/-- On which sides a name that both require is not a property. -/
def absences (a b : Schema) (k : String) : List SchemaError :=
  (if k ∈ a.names then [] else [.missingRequired k .first a.properties])
    ++ if k ∈ b.names then [] else [.missingRequired k .second b.properties]

/-- All that is wrong at the joint places of two schemas, depth first: at the root the types, then
one after the other the names that both require, in the order of the first side, each with what is
wrong inside before the next one, and last what is wrong inside the items. -/
def offences (a b : Schema) : List SchemaError :=
  (if a.typeName = b.typeName then [] else [.typeMismatch a b])
    ++ (jointRequired a.required b.required).flatMap (fun k =>
      absences a b k ++
        match _h : a.property? k, b.property? k with
        | some p, some q => offences p q
        | _, _ => [])
    ++
      match _h : a.items?, b.items? with
      | some s, some t => offences s t
      | _, _ => []
termination_by sizeOf a
decreasing_by
  · exact sizeOf_property? ‹_›
  · exact sizeOf_items? ‹_›

/-- What is wrong inside the joint places that two schemas have one step inside. -/
def offencesInside (left right : Option Schema) : List SchemaError :=
  match left, right with
  | some p, some q => offences p q
  | _, _ => []

theorem offences_eq (a b : Schema) :
    offences a b = (if a.typeName = b.typeName then [] else [.typeMismatch a b])
      ++ (jointRequired a.required b.required).flatMap (fun k =>
        absences a b k ++ offencesInside (a.property? k) (b.property? k))
      ++ offencesInside a.items? b.items? := by
  rw [offences]
  congr 1
  · congr 2
    funext k
    cases a.property? k <;> cases b.property? k <;> rfl
  · cases a.items? <;> cases b.items? <;> rfl

@[simp] theorem offencesInside_none_left (right : Option Schema) :
    offencesInside none right = [] := rfl

@[simp] theorem offencesInside_none_right (left : Option Schema) :
    offencesInside left none = [] := by
  cases left <;> rfl

@[simp] theorem offencesInside_some (p q : Schema) :
    offencesInside (some p) (some q) = offences p q := rfl

theorem offences_object (ps qs : List (String × Schema)) (req req' : List String)
    (ex ex' : Extras) :
    offences (.object ps req ex) (.object qs req' ex') =
      (jointRequired req req').flatMap fun k =>
        absences (.object ps req ex) (.object qs req' ex') k
          ++ offencesInside (Members.get? ps k) (Members.get? qs k) := by
  rw [offences_eq, items?, offencesInside_none_left, List.append_nil]
  rfl

theorem offences_array (items items' : Option Schema) (ex ex' : Extras) :
    offences (.array items ex) (.array items' ex') = offencesInside items items' := by
  rw [offences_eq]
  rfl

theorem offences_scalar (kind : ScalarKind) (ex ex' : Extras) :
    offences (.scalar kind ex) (.scalar kind ex') = [] := by
  have types : (Schema.scalar kind ex).typeName = (Schema.scalar kind ex').typeName := rfl
  rw [offences_eq, if_pos types]
  rfl

/-- Two schemas of different types have no join, and that is the first offence. -/
theorem head?_offences_of_typeName_ne {a b : Schema} (h : a.typeName ≠ b.typeName) :
    (offences a b).head? = some (.typeMismatch a b) := by
  rw [offences_eq, if_neg h]
  rfl

theorem join_of_typeName_ne {a b : Schema} (h : a.typeName ≠ b.typeName) :
    join a b = .error (.typeMismatch a b) := by
  cases hj : join a b with
  | ok r => exact absurd (Joined.of_join hj).type_right.symm h
  | error e =>
      cases joinFails_of_eq_error hj with
      | mismatch cause => rw [cause]
      | first => exact absurd rfl h
      | second => exact absurd rfl h
      | property => exact absurd rfl h
      | items => exact absurd rfl h

/-- Joint properties are collected up to the first of them at which something is wrong. -/
private theorem failure?_collectJoint {ps qs : Members String Schema}
    {outcomes : Members String (Except SchemaError Schema)} {names : List String}
    {wrong : String → List SchemaError}
    (h : ∀ k ∈ names, (wrong k).head? =
      if ps.has k then
        match outcomes.get? k with
        | none => some (.missingRequired k .second qs)
        | some outcome => failure? outcome
      else some (.missingRequired k .first ps)) :
    failure? (collectJoint ps qs outcomes names) = (names.flatMap wrong).head? := by
  induction names with
  | nil => rfl
  | cons k names ih =>
      have hk := h k List.mem_cons_self
      have hrest := ih fun j hj => h j (List.mem_cons_of_mem k hj)
      rw [List.flatMap_cons, List.head?_append, hk, collectJoint]
      cases ps.has k with
      | false => rfl
      | true =>
          cases outcomes.get? k with
          | none => rfl
          | some outcome =>
              cases outcome with
              | error e => rfl
              | ok s => exact (failure?_map _ _).trans hrest

/-- What is wrong at a name that two objects require. -/
private theorem head?_absences (ps qs : List (String × Schema)) (req req' : List String)
    (ex ex' : Extras) (k : String) (inside : List SchemaError) :
    (absences (.object ps req ex) (.object qs req' ex') k ++ inside).head? =
      if Members.has ps k then
        if Members.has qs k then inside.head? else some (.missingRequired k .second qs)
      else some (.missingRequired k .first ps) := by
  simp only [absences, names, ← Members.has_iff_mem_keys]
  cases Members.has ps k <;> cases Members.has qs k <;> rfl

/-- **A join fails with the first offence, and only if there is one.** -/
theorem failure?_join (a b : Schema) : failure? (join a b) = (offences a b).head? := by
  have mismatch : ∀ {a b : Schema}, a.typeName ≠ b.typeName →
      failure? (join a b) = (offences a b).head? := by
    intro a b h
    rw [join_of_typeName_ne h, head?_offences_of_typeName_ne h]
    rfl
  induction a using induct generalizing b with
  | object ps req ex ih =>
      cases b with
      | object qs req' ex' =>
          rw [join, failure?_map, offences_object]
          refine failure?_collectJoint fun k hk => ?_
          rw [head?_absences, get?_joinShared, if_pos hk, Members.has, Members.has]
          cases hp : Members.get? ps k with
          | none => rfl
          | some p =>
              cases hq : Members.get? qs k with
              | none => rfl
              | some q => exact (ih k p (Members.mem_of_get? hp) q).symm
      | array items ex' => exact mismatch (by simp [typeName])
      | scalar kind ex' => exact mismatch (name_ne kind).1.symm
  | untyped ex =>
      cases b with
      | object qs req' ex' => exact mismatch (by simp [typeName])
      | array items ex' =>
          rw [join, offences_array]
          rfl
      | scalar kind ex' => exact mismatch (name_ne kind).2.symm
  | array s ex ih =>
      cases b with
      | object qs req' ex' => exact mismatch (by simp [typeName])
      | array items ex' =>
          rw [offences_array]
          cases items with
          | none => rw [join, offencesInside_none_right]; rfl
          | some t => rw [join, failure?_map, offencesInside_some, ih]
      | scalar kind ex' => exact mismatch (name_ne kind).2.symm
  | scalar kind ex =>
      cases b with
      | object qs req' ex' => exact mismatch (name_ne kind).1
      | array items ex' => exact mismatch (name_ne kind).2
      | scalar kind' ex' =>
          by_cases hk : kind = kind'
          · rw [join, if_pos hk, ← hk, offences_scalar]
            rfl
          · exact mismatch fun h => hk (name_injective h)

/-! ### Offences and joint places -/

theorem mem_absences_iff {a b : Schema} {k : String} {e : SchemaError} :
    e ∈ absences a b k ↔ (k ∉ a.names ∧ e = .missingRequired k .first a.properties)
      ∨ (k ∉ b.names ∧ e = .missingRequired k .second b.properties) := by
  rw [absences, List.mem_append]
  refine or_congr ?_ ?_
  · split
    · simp [*]
    · simp [*]
  · split
    · simp [*]
    · simp [*]

theorem offends_iff {a b : Schema} {e : SchemaError} :
    Offends a b e ↔ (a.typeName ≠ b.typeName ∧ e = .typeMismatch a b)
      ∨ ∃ k ∈ jointRequired a.required b.required, e ∈ absences a b k := by
  constructor
  · rintro (differ | ⟨required, absent⟩ | ⟨required, absent⟩)
    · exact Or.inl ⟨differ, rfl⟩
    · exact Or.inr ⟨_, required, mem_absences_iff.2 (Or.inl ⟨absent, rfl⟩)⟩
    · exact Or.inr ⟨_, required, mem_absences_iff.2 (Or.inr ⟨absent, rfl⟩)⟩
  · rintro (⟨differ, rfl⟩ | ⟨k, required, he⟩)
    · exact .types differ
    · rcases mem_absences_iff.1 he with ⟨absent, rfl⟩ | ⟨absent, rfl⟩
      · exact .first required absent
      · exact .second required absent

theorem mem_offencesInside_iff {left right : Option Schema} {e : SchemaError} :
    e ∈ offencesInside left right ↔
      ∃ p q, left = some p ∧ right = some q ∧ e ∈ offences p q := by
  cases left <;> cases right <;> simp

/-- What is wrong at the root, and what is wrong one step inside. -/
theorem mem_offences_step {a b : Schema} {e : SchemaError} :
    e ∈ offences a b ↔ Offends a b e
      ∨ (∃ k ∈ jointRequired a.required b.required, ∃ p q,
          a.property? k = some p ∧ b.property? k = some q ∧ e ∈ offences p q)
      ∨ ∃ p q, a.items? = some p ∧ b.items? = some q ∧ e ∈ offences p q := by
  rw [offences_eq, List.mem_append, List.mem_append, List.mem_flatMap, offends_iff,
    mem_offencesInside_iff]
  simp only [List.mem_append, mem_offencesInside_iff]
  constructor
  · rintro ((htypes | ⟨k, hk, habsent | hinside⟩) | hitems)
    · split at htypes
      · cases htypes
      · rename_i differ
        exact Or.inl (Or.inl ⟨differ, List.mem_singleton.1 htypes⟩)
    · exact Or.inl (Or.inr ⟨k, hk, habsent⟩)
    · exact Or.inr (Or.inl ⟨k, hk, hinside⟩)
    · exact Or.inr (Or.inr hitems)
  · rintro ((⟨differ, rfl⟩ | ⟨k, hk, habsent⟩) | ⟨k, hk, hinside⟩ | hitems)
    · exact Or.inl (Or.inl (by rw [if_neg differ]; exact List.mem_singleton_self _))
    · exact Or.inl (Or.inr ⟨k, hk, Or.inl habsent⟩)
    · exact Or.inl (Or.inr ⟨k, hk, Or.inr hinside⟩)
    · exact Or.inr hitems

/-- **The offences are what is wrong at joint places.** -/
theorem mem_offences_iff {a b : Schema} {e : SchemaError} :
    e ∈ offences a b ↔ ∃ p q, Joint a b p q ∧ Offends p q e := by
  constructor
  · intro h
    induction a using induct_outline generalizing b with
    | step a ihp ihi =>
        rcases mem_offences_step.1 h with he | ⟨k, hk, p, q, hp, hq, he⟩ | ⟨p, q, hp, hq, he⟩
        · exact ⟨a, b, .root a b, he⟩
        · obtain ⟨p', q', hjoint, hoff⟩ := ihp k p hp he
          exact ⟨p', q', .property hk hp hq hjoint, hoff⟩
        · obtain ⟨p', q', hjoint, hoff⟩ := ihi p hp he
          exact ⟨p', q', .items hp hq hjoint, hoff⟩
  · rintro ⟨p, q, hjoint, hoff⟩
    induction hjoint with
    | root a b => exact mem_offences_step.2 (Or.inl hoff)
    | property required left right _ ih =>
        exact mem_offences_step.2 (Or.inr (Or.inl ⟨_, required, _, _, left, right, ih hoff⟩))
    | items left right _ ih =>
        exact mem_offences_step.2 (Or.inr (Or.inr ⟨_, _, left, right, ih hoff⟩))

/-- Two schemas have a join exactly if they agree at every joint place. -/
theorem exists_join_iff {a b : Schema} :
    (∃ r, join a b = .ok r) ↔ ∀ p q, Joint a b p q → Agree p q := by
  rw [← failure?_eq_none_iff, failure?_join, List.head?_eq_none_iff, List.eq_nil_iff_forall_not_mem]
  simp only [mem_offences_iff, agree_iff, not_exists, not_and]
  exact ⟨fun h p q hjoint e => h e p q hjoint, fun h e p q hjoint => h p q hjoint e⟩

/-! ### Causes that are reported -/

/-- The members of all mappings within a JSON value can be sorted by name. -/
theorem isSortable_of_isJson {v : Value} (h : v.IsJson) : Json.isSortable v = true := by
  refine Value.jsonInduct (motive := fun v => Json.isSortable v = true) ?atom ?list ?object h
  case atom => exact fun _ _ => rfl
  case list =>
    intro xs _ ih
    rw [Json.isSortable, Json.areItemsSortable_iff]
    exact ih
  case object => exact fun ms _ _ ih => Json.isSortable_object_iff.2 ih

/-- Every free member is JSON data, at every depth. -/
abbrev HasJsonExtras (s : Schema) : Prop := s.HasExtras fun _ ex => ∀ m ∈ ex, m.2.IsJson

/-- A schema whose free members are JSON data can be shown in a message. -/
theorem HasJsonExtras.isShowable {s : Schema} (h : s.HasJsonExtras) : s.isShowable = true := by
  induction h with
  | object _ own _ ih =>
      exact isShowable_object_iff.2
        ⟨fun p hp => ih p.1 p.2 hp, fun m hm => isSortable_of_isJson (own m hm)⟩
  | untyped own => exact isShowable_untyped_iff.2 fun m hm => isSortable_of_isJson (own m hm)
  | array own _ ih =>
      exact isShowable_array_iff.2 ⟨ih, fun m hm => isSortable_of_isJson (own m hm)⟩
  | scalar own => exact isShowable_scalar_iff.2 fun m hm => isSortable_of_isJson (own m hm)

/-- **Exactly when a join fails, and with which cause.**  Two schemas have a join if and only if
they agree at every joint place.  Otherwise the cause is the first of what is wrong at joint places,
and if all free members are JSON data it is reported as what it is. -/
theorem join_fails_iff_joint {a b : Schema} (ha : a.HasJsonExtras) (hb : b.HasJsonExtras) :
    ((∃ r, join a b = .ok r) ↔ ∀ p q, Joint a b p q → Agree p q) ∧
    (∀ e, e ∈ offences a b ↔ ∃ p q, Joint a b p q ∧ Offends p q e) ∧
    (∀ e, join a b = .error e ↔ (offences a b).head? = some e) ∧
    ∀ e, join a b = .error e → e.isReported = true := by
  refine ⟨exists_join_iff, fun e => mem_offences_iff, fun e => ?_, fun e he => ?_⟩
  · rw [← failure?_join, failure?_eq_some_iff]
  · exact isReported_of_join_eq_error ha.isShowable hb.isShowable he

/-- A table whose rows have texts for numbers, and which lacks a property that it requires. -/
def textTable : Schema :=
  .object [("rows", .array (some (.object [("n", .scalar .string [])] ["n"] [])) []),
    ("title", .scalar .string [("example", .text "t")])] ["rows", "total", "title"] []

/-- A table with numbers in its rows and for its title, and which lacks the same property. -/
def numberTable : Schema :=
  .object [("title", .scalar .integer []),
    ("rows", .array (some (.object [("n", .scalar .integer [])] ["n"] [])) [])]
    ["title", "total", "rows"] []

/-- Of what is wrong between two tables the cause is what lies inside the rows, which the first
table requires before the property that both lack. -/
theorem join_fails_iff_joint_tables :
    textTable.HasJsonExtras ∧ numberTable.HasJsonExtras ∧
    .missingRequired "total" .first textTable.properties ∈ offences textTable numberTable ∧
    (offences textTable numberTable).head?
      = some (.typeMismatch (.scalar .string []) (.scalar .integer [])) ∧
    (SchemaError.typeMismatch (.scalar .string []) (.scalar .integer [])).isReported = true ∧
    ¬∀ p q, Joint textTable numberTable p q → Agree p q := by
  have hrow : ∀ kind, (Schema.object [("n", .scalar kind [])] ["n"] []).HasJsonExtras := by
    intro kind
    refine .object (by simp) (by simp) fun k s hk => ?_
    cases List.mem_singleton.1 hk
    exact .scalar (by simp)
  have ha : textTable.HasJsonExtras := by
    refine .object (by simp) (by simp) fun k s hk => ?_
    simp only [List.mem_cons, List.not_mem_nil, or_false, Prod.mk.injEq] at hk
    rcases hk with ⟨-, rfl⟩ | ⟨-, rfl⟩
    · exact .array (by simp) (hrow _)
    · exact .scalar (by simp [Value.IsJson, Atom.IsJson])
  have hb : numberTable.HasJsonExtras := by
    refine .object (by simp) (by simp) fun k s hk => ?_
    simp only [List.mem_cons, List.not_mem_nil, or_false, Prod.mk.injEq] at hk
    rcases hk with ⟨-, rfl⟩ | ⟨-, rfl⟩
    · exact .scalar (by simp)
    · exact .array (by simp) (hrow _)
  have hjoin : join textTable numberTable
      = .error (.typeMismatch (.scalar .string []) (.scalar .integer [])) := by rfl
  obtain ⟨hagree, hjoint, hfirst, hreported⟩ := join_fails_iff_joint ha hb
  refine ⟨ha, hb, (hjoint _).2 ?_, (hfirst _).1 hjoin, hreported _ hjoin, fun hall => ?_⟩
  · exact ⟨textTable, numberTable, .root _ _, .first (by decide) (by decide)⟩
  · obtain ⟨r, hr⟩ := hagree.2 hall
    rw [hjoin] at hr
    cases hr

/-! ### What the right side covers -/

/-- At joint places, what is a property of both sides is required by both. -/
def SharesRequired (a b : Schema) : Prop :=
  ∀ p q, Joint a b p q → ∀ k, k ∈ p.names → k ∈ q.names → k ∈ p.required ∧ k ∈ q.required

/-- The joint places of two schemas are the root and those one step inside. -/
theorem sharesRequired_iff {a b : Schema} :
    SharesRequired a b ↔
      (∀ k, k ∈ a.names → k ∈ b.names → k ∈ a.required ∧ k ∈ b.required)
      ∧ (∀ k ∈ jointRequired a.required b.required, ∀ p q, a.property? k = some p →
          b.property? k = some q → SharesRequired p q)
      ∧ ∀ p q, a.items? = some p → b.items? = some q → SharesRequired p q := by
  constructor
  · intro h
    refine ⟨h a b (.root a b), fun k hk p q hp hq p' q' hpq => ?_, fun p q hp hq p' q' hpq => ?_⟩
    · exact h p' q' (.property hk hp hq hpq)
    · exact h p' q' (.items hp hq hpq)
  · rintro ⟨root, property, items⟩ p q hpq
    cases hpq with
    | root => exact root
    | property required left right inside => exact property _ required _ _ left right p q inside
    | items left right inside => exact items _ _ left right p q inside

/-- A join covers what its right side covers, if it compares whatever both sides describe. -/
theorem Covers.join_right {a b r : Schema} {v : Value} (h : join a b = .ok r)
    (hshared : SharesRequired a b) (hc : b.Covers v) : r.Covers v := by
  induction a using induct generalizing b r v with
  | object ps req ex ih =>
      obtain ⟨qs, req', ex', rs, rfl, rfl, hkeys, hjoint, hrest⟩ := join_object h
      obtain ⟨root, inside, -⟩ := sharesRequired_iff.1 hshared
      cases hc with
      | @object _ _ _ ms required known each =>
          refine .object (fun k hk => required k (mem_jointRequired.1 hk).2) ?_ ?_
          · intro n v hm hv
            obtain ⟨k, hk, hnk⟩ := known n v hm hv
            exact ⟨k, hkeys ▸ mem_addAll.2 (Or.inr hk), hnk⟩
          · intro k v s hm hv hs
            obtain ⟨k', hk', he⟩ := known (.text k) v hm hv
            cases he
            obtain ⟨q, hq⟩ := Members.mem_keys_iff.1 hk'
            by_cases hk : k ∈ req ∧ k ∈ req'
            · obtain ⟨p, q', t, hp, hq', hj, ht⟩ := hjoint k hk.1 hk.2
              obtain rfl : q' = q := Option.some.inj (hq'.symm.trans hq)
              obtain rfl : t = s := Option.some.inj (ht.symm.trans hs)
              exact ih k p (Members.mem_of_get? hp) hj
                (inside k (mem_jointRequired.2 hk) p q' hp hq) (each k v q' hm hv hq)
            · -- a property that is not joint is one of the right side alone
              have hnot : k ∉ Members.keys ps := fun hps => hk (root k hps hk')
              rw [hrest k hk, Members.get?_eq_none_iff.2 hnot, hq] at hs
              obtain rfl : q = s := Option.some.inj hs
              exact each k v q hm hv hq
  | untyped ex =>
      obtain ⟨items, ex', rfl, rfl⟩ := join_untyped h
      cases hc with
      | empty items_eq => exact .empty items_eq
      | array items_eq first => exact .array items_eq first
  | array s ex ih =>
      obtain ⟨items, ex', rfl, ⟨rfl, rfl⟩ | ⟨s', t, rfl, ht, rfl⟩⟩ := join_array h
      · cases hc with
        | empty items_eq => exact .empty items_eq
      · obtain ⟨-, -, inside⟩ := sharesRequired_iff.1 hshared
        cases hc with
        | empty items_eq => exact .empty items_eq
        | array items_eq first => exact .array items_eq (ih ht (inside s s' rfl rfl) first)
  | scalar kind ex =>
      obtain ⟨ex', rfl, rfl⟩ := join_scalar h
      cases hc with
      | scalar kind_eq => exact .scalar kind_eq

/-- **What a join covers of what its sides cover.**  It covers all that its left side covers, and
all that its right side covers if no property of both sides is left uncompared at a joint place. -/
theorem covers_join_sides {a b r : Schema} (h : join a b = .ok r) :
    (∀ v, a.Covers v → r.Covers v) ∧
    (SharesRequired a b → ∀ v, b.Covers v → r.Covers v) :=
  ⟨fun _ hc => hc.join_left h, fun hshared _ hc => .join_right h hshared hc⟩

/-- An object covers members with names if each of them is a property that covers it. -/
theorem covers_object_of_members {ps : List (String × Schema)} {req : List String} {ex : Extras}
    {ms : Members String Value} (required : ∀ k ∈ req, ∃ v, (k, v) ∈ ms ∧ v.isNull = false)
    (each : ∀ m ∈ ms, ∃ s, Members.get? ps m.1 = some s ∧ s.Covers m.2) :
    Covers (.object ps req ex) (.object ms) := by
  refine .object (fun k hk => ?_) (fun a v ha _ => ?_) fun k v s hv _ hs => ?_
  · obtain ⟨v, hv, hnull⟩ := required k hk
    exact ⟨v, List.mem_map.2 ⟨(k, v), hv, rfl⟩, hnull⟩
  · obtain ⟨m, hm, he⟩ := List.mem_map.1 ha
    obtain ⟨s, hs, -⟩ := each m hm
    exact ⟨m.1, Members.mem_keys_of_get? hs, (congrArg Prod.fst he).symm⟩
  · obtain ⟨m, hm, he⟩ := List.mem_map.1 hv
    cases he
    obtain ⟨t, ht, hcovers⟩ := each m hm
    exact Option.some.inj (ht.symm.trans hs) ▸ hcovers

/-- An account with an owner who has a name, and perhaps with a note. -/
def notedAccount : Schema :=
  .object [("owner", .object [("name", .scalar .string [])] ["name"] []),
    ("note", .scalar .string [])] ["owner"] []

/-- An account with an owner who has a name and an address, and with a list of numbers. -/
def listedAccount : Schema :=
  .object [("numbers", .array none []), ("owner",
    .object [("mail", .scalar .string []), ("name", .scalar .string [])] ["mail", "name"] [])]
    ["numbers", "owner"] []

/-- A sample of an account whose owner has an address. -/
def mailedAccount : Value :=
  .object [("numbers", .list []),
    ("owner", .object [("name", .text "n"), ("mail", .text "m")])]

/-- The join of two schemas of accounts covers a sample that only the second of them covers. -/
theorem covers_join_sides_accounts : ∃ r, join notedAccount listedAccount = .ok r ∧
    SharesRequired notedAccount listedAccount ∧ listedAccount.Covers mailedAccount ∧
    ¬notedAccount.Covers mailedAccount ∧ r.Covers mailedAccount := by
  have hleaf : ∀ kind ex q, SharesRequired (.scalar kind ex) q := fun kind ex q =>
    sharesRequired_iff.2
      ⟨by simp [names], by simp [Schema.required, jointRequired], by simp [items?]⟩
  have howner : SharesRequired (.object [("name", .scalar .string [])] ["name"] [])
      (.object [("mail", .scalar .string []), ("name", .scalar .string [])]
        ["mail", "name"] []) := by
    refine sharesRequired_iff.2
      ⟨by simp [names, Schema.required], fun k _ p q hp _ => ?_, by simp [items?]⟩
    obtain rfl := (Prod.mk.inj (List.mem_singleton.1 (Members.mem_of_get? hp))).2
    exact hleaf _ _ q
  have hshared : SharesRequired notedAccount listedAccount := by
    refine sharesRequired_iff.2 ⟨?_, ?_, by simp [notedAccount, items?]⟩
    · simp [notedAccount, listedAccount, names, Schema.required]
    · intro k hk p q hp hq
      obtain rfl : k = "owner" := by
        simpa [notedAccount, Schema.required] using (mem_jointRequired.1 hk).1
      cases hp
      cases hq
      exact howner
  have htext : ∀ t, Covers (.scalar .string []) (.text t) := fun t => .scalar rfl
  have hcovers : listedAccount.Covers mailedAccount := by
    refine covers_object_of_members (by simp [Value.isNull, Value.object]) fun m hm => ?_
    simp only [List.mem_cons, List.not_mem_nil, or_false] at hm
    rcases hm with rfl | rfl
    · exact ⟨_, rfl, .empty rfl⟩
    · refine ⟨_, rfl, covers_object_of_members (by simp [Value.isNull]) fun m hm => ?_⟩
      simp only [List.mem_cons, List.not_mem_nil, or_false] at hm
      rcases hm with rfl | rfl
      · exact ⟨_, rfl, htext "n"⟩
      · exact ⟨_, rfl, htext "m"⟩
  have hjoin : ∃ r, join notedAccount listedAccount = .ok r := ⟨_, rfl⟩
  obtain ⟨r, hr⟩ := hjoin
  refine ⟨r, hr, hshared, hcovers, fun hnoted => ?_, (covers_join_sides hr).2 hshared _ hcovers⟩
  cases hnoted with
  | object _ known _ =>
      obtain ⟨k, hk, he⟩ := known (.text "numbers") (.list []) (by simp) rfl
      cases he
      exact absurd hk (by decide)

end Schema

end ApiScribe
