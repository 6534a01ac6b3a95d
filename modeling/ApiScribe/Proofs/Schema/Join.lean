/-
**What a join is.**

Two schemas are joined position by position.  This module says once what a join of each shape is, so
that nothing else has to look at how it is computed: objects are joined property by property over
the names that both sides require, arrays by their items, scalars if their kinds agree.

Main definitions:

* `ApiScribe.Schema.property?`, `ApiScribe.Schema.items?` — the schemas one step inside;
* `ApiScribe.Schema.JoinFails` — the causes for which there is no join, and where they lie.

Main results:

* `ApiScribe.Schema.induct` — induction on schemas;
* `ApiScribe.Schema.join_object_eq_ok_iff` — the join of two objects;
* `ApiScribe.Schema.joinFails_of_eq_error` — why there is no join;
* `ApiScribe.Schema.join_object`, `ApiScribe.Schema.join_untyped`, `ApiScribe.Schema.join_array`,
  `ApiScribe.Schema.join_scalar` — what a successful join is, by the shape on the left;
* `ApiScribe.Schema.join_object_eq_self_iff` — when a join leaves an object as it is.
-/

import ApiScribe.Proofs.Members
import ApiScribe.Proofs.Outcome
import ApiScribe.Schema.Join

set_option autoImplicit false

namespace ApiScribe

namespace Schema

/-- Induction on schemas: a property is smaller than its object, an item than its array. -/
theorem induct {motive : Schema → Prop}
    (object : ∀ ps req ex, (∀ k s, (k, s) ∈ ps → motive s) → motive (.object ps req ex))
    (untyped : ∀ ex, motive (.array none ex))
    (array : ∀ s ex, motive s → motive (.array (some s) ex))
    (scalar : ∀ kind ex, motive (.scalar kind ex)) : ∀ s, motive s
  | .object ps req ex => object ps req ex fun k s h =>
      have : sizeOf s < 1 + sizeOf ps + sizeOf req + sizeOf ex := by
        have h₁ := List.sizeOf_lt_of_mem h
        have h₂ : sizeOf (k, s) = 1 + sizeOf k + sizeOf s := by simp
        omega
      induct object untyped array scalar s
  | .array none ex => untyped ex
  | .array (some s) ex => array s ex (induct object untyped array scalar s)
  | .scalar kind ex => scalar kind ex

/-- The schema of a property. -/
def property? : Schema → String → Option Schema
  | object ps _ _, k => Members.get? ps k
  | array .., _ => none
  | scalar .., _ => none

/-- The schema of the items. -/
def items? : Schema → Option Schema
  | object .. => none
  | array items _ => items
  | scalar .. => none

end Schema

/-! ### Joint properties -/

theorem mem_jointRequired {req req' : List String} {k : String} :
    k ∈ jointRequired req req' ↔ k ∈ req ∧ k ∈ req' := by
  simp [jointRequired]

theorem get?_joinShared (names : List String) (ps : List (String × Schema))
    (qs : Members String Schema) (k : String) :
    Members.get? (joinShared names ps qs) k
      = if k ∈ names then
          (Members.get? ps k).bind fun p => (qs.get? k).map fun q => Schema.join p q
        else none := by
  induction ps with
  | nil => simp [joinShared]
  | cons m ps ih =>
      obtain ⟨k', p⟩ := m
      rw [joinShared]
      by_cases hk : k' = k
      · subst hk
        by_cases hn : k' ∈ names
        · cases hq : qs.get? k' with
          | none => simp [hn, hq, ih, Members.get?_cons]
          | some q => simp [hn, Members.get?_cons]
        · simp [hn, ih]
      · have hrest : Members.get? ((k', p) :: ps) k = Members.get? ps k := by
          simp [Members.get?_cons, hk]
        rw [hrest, ← ih]
        split
        · simp [Members.get?_cons, hk]
        · rfl

/-- The outcome that is found under a name, or some schema if there is none. -/
private def outcomeAt (outcomes : Members String (Except SchemaError Schema)) (k : String) :
    Schema :=
  match outcomes.get? k with
  | some (.ok s) => s
  | _ => default

private theorem collectJoint_eq_ok {ps qs : Members String Schema}
    {outcomes : Members String (Except SchemaError Schema)} {names : List String}
    {joined : Members String Schema} (h : collectJoint ps qs outcomes names = .ok joined) :
    joined = (names.map fun k => (k, outcomeAt outcomes k))
      ∧ ∀ k ∈ names, k ∈ ps.keys ∧ outcomes.get? k = some (.ok (outcomeAt outcomes k)) := by
  induction names generalizing joined with
  | nil =>
      simp only [collectJoint, Except.ok.injEq] at h
      simp [← h]
  | cons k names ih =>
      rw [collectJoint] at h
      by_cases hk : ps.has k = true
      · have hmem : k ∈ ps.keys := (Members.has_iff_mem_keys ps k).1 hk
        simp only [hk, Bool.not_true, Bool.false_eq_true, if_false] at h
        split at h
        · cases h
        · cases h
        · rename_i s hs
          have hat : outcomeAt outcomes k = s := by simp [outcomeAt, hs]
          obtain ⟨rest, hrest, hcons⟩ := map_eq_ok_iff.1 h
          obtain ⟨hj, hall⟩ := ih hrest
          refine ⟨by rw [← hcons, hj, List.map_cons, hat], ?_⟩
          intro j hj'
          rcases List.mem_cons.1 hj' with rfl | hj'
          · exact ⟨hmem, by rw [hs, hat]⟩
          · exact hall j hj'
      · simp [hk] at h

private theorem collectJoint_of_forall {ps qs : Members String Schema}
    {outcomes : Members String (Except SchemaError Schema)} {names : List String}
    (f : String → Schema)
    (h : ∀ k ∈ names, k ∈ ps.keys ∧ outcomes.get? k = some (.ok (f k))) :
    collectJoint ps qs outcomes names = .ok (names.map fun k => (k, f k)) := by
  induction names with
  | nil => rfl
  | cons k names ih =>
      obtain ⟨hk, hout⟩ := h k List.mem_cons_self
      have hhas : ps.has k = true := (Members.has_iff_mem_keys ps k).2 hk
      have hrest := ih fun j hj => h j (List.mem_cons_of_mem k hj)
      simp [collectJoint, hhas, hout, hrest, Except.map]

/-- What goes wrong when joint properties are collected: a name is missing on the left, has no
outcome, or has a bad one. -/
private theorem collectJoint_eq_error {ps qs : Members String Schema}
    {outcomes : Members String (Except SchemaError Schema)} {names : List String}
    {e : SchemaError} (h : collectJoint ps qs outcomes names = .error e) :
    ∃ k ∈ names, (k ∉ ps.keys ∧ e = .missingRequired k .first ps)
      ∨ (k ∈ ps.keys ∧ outcomes.get? k = none ∧ e = .missingRequired k .second qs)
      ∨ outcomes.get? k = some (.error e) := by
  induction names with
  | nil => cases h
  | cons k names ih =>
      by_cases hk : ps.has k = true
      · rw [collectJoint, if_neg (by simp [hk])] at h
        split at h
        · rename_i hout
          cases h
          exact ⟨k, List.mem_cons_self,
            Or.inr (Or.inl ⟨(Members.has_iff_mem_keys ps k).1 hk, hout, rfl⟩)⟩
        · rename_i e' hout
          cases h
          exact ⟨k, List.mem_cons_self, Or.inr (Or.inr hout)⟩
        · obtain ⟨j, hj, hcase⟩ := ih (map_eq_error_iff.1 h)
          exact ⟨j, List.mem_cons_of_mem k hj, hcase⟩
      · rw [collectJoint, if_pos (by simp [hk])] at h
        cases h
        exact ⟨k, List.mem_cons_self,
          Or.inl ⟨mt (Members.has_iff_mem_keys ps k).2 hk, rfl⟩⟩

namespace Schema

/-- Two objects that have no join: a name that both sides require is missing on one of them, or has
two schemas without a join. -/
private theorem join_object_eq_error {ps qs : List (String × Schema)} {req req' : List String}
    {ex ex' : Extras} {e : SchemaError}
    (h : join (.object ps req ex) (.object qs req' ex') = .error e) :
    ∃ k ∈ jointRequired req req',
      (k ∉ Members.keys ps ∧ e = .missingRequired k .first ps)
        ∨ (k ∉ Members.keys qs ∧ e = .missingRequired k .second qs)
        ∨ ∃ p q, Members.get? ps k = some p ∧ Members.get? qs k = some q ∧ join p q = .error e := by
  rw [join] at h
  obtain ⟨k, hk, hcase⟩ := collectJoint_eq_error (map_eq_error_iff.1 h)
  refine ⟨k, hk, ?_⟩
  rw [get?_joinShared, if_pos hk] at hcase
  rcases hcase with hfirst | ⟨hps, hnone, he⟩ | herror
  · exact Or.inl hfirst
  · obtain ⟨p, hp⟩ := Members.mem_keys_iff.1 hps
    rw [hp, Option.bind_some, Option.map_eq_none_iff] at hnone
    exact Or.inr (Or.inl ⟨Members.get?_eq_none_iff.1 hnone, he⟩)
  · obtain ⟨p, hp, herror⟩ := Option.bind_eq_some_iff.1 herror
    obtain ⟨q, hq, hj⟩ := Option.map_eq_some_iff.1 herror
    exact Or.inr (Or.inr ⟨p, q, hp, hq, hj⟩)

/-- Why two schemas have no join: they differ in type, they require a name that one of them misses, or
it is so one step inside. -/
inductive JoinFails (e : SchemaError) : Schema → Schema → Prop
  /-- The types differ. -/
  | mismatch {a b : Schema} (cause : e = .typeMismatch a b) : JoinFails e a b
  /-- A name that both sides require is not a property of the first. -/
  | first {ps qs : List (String × Schema)} {req req' : List String} {ex ex' : Extras} {k : String}
      (joint : k ∈ jointRequired req req') (absent : k ∉ Members.keys ps)
      (cause : e = .missingRequired k .first ps) :
      JoinFails e (.object ps req ex) (.object qs req' ex')
  /-- A name that both sides require is not a property of the second. -/
  | second {ps qs : List (String × Schema)} {req req' : List String} {ex ex' : Extras} {k : String}
      (joint : k ∈ jointRequired req req') (absent : k ∉ Members.keys qs)
      (cause : e = .missingRequired k .second qs) :
      JoinFails e (.object ps req ex) (.object qs req' ex')
  /-- A property that both sides require has two schemas without a join. -/
  | property {ps qs : List (String × Schema)} {req req' : List String} {ex ex' : Extras}
      {k : String} {p q : Schema} (joint : k ∈ jointRequired req req')
      (left : Members.get? ps k = some p) (right : Members.get? qs k = some q)
      (fails : JoinFails e p q) : JoinFails e (.object ps req ex) (.object qs req' ex')
  /-- The items have two schemas without a join. -/
  | items {s s' : Schema} {ex ex' : Extras} (fails : JoinFails e s s') :
      JoinFails e (.array (some s) ex) (.array (some s') ex')

theorem joinFails_of_eq_error {a b : Schema} {e : SchemaError} (h : join a b = .error e) :
    JoinFails e a b := by
  induction a using induct generalizing b with
  | object ps req ex ih =>
      cases b with
      | object qs req' ex' =>
          obtain ⟨k, hk, ⟨hno, he⟩ | ⟨hno, he⟩ | ⟨p, q, hp, hq, hj⟩⟩ := join_object_eq_error h
          · exact .first hk hno he
          · exact .second hk hno he
          · exact .property hk hp hq (ih k p (Members.mem_of_get? hp) hj)
      | array items ex' => cases items <;> cases h <;> exact .mismatch rfl
      | scalar kind ex' =>
          cases h
          exact .mismatch rfl
  | untyped ex =>
      cases b with
      | array items ex' => cases h
      | object qs req' ex' =>
          cases h
          exact .mismatch rfl
      | scalar kind ex' =>
          cases h
          exact .mismatch rfl
  | array s ex ih =>
      cases b with
      | array items ex' =>
          cases items with
          | none => cases h
          | some s' => exact .items (ih (map_eq_error_iff.1 h))
      | object qs req' ex' =>
          cases h
          exact .mismatch rfl
      | scalar kind ex' =>
          cases h
          exact .mismatch rfl
  | scalar kind ex =>
      cases b with
      | object qs req' ex' =>
          cases h
          exact .mismatch rfl
      | array items ex' => cases items <;> cases h <;> exact .mismatch rfl
      | scalar kind' ex' =>
          rw [join] at h
          split at h
          · cases h
          · cases h
            exact .mismatch rfl

/-- The join of two objects: every name that both sides require is a property of both, and their
schemas have a join `f k`. -/
theorem join_object_eq_ok_iff {ps qs : List (String × Schema)} {req req' : List String}
    {ex ex' : Extras} {r : Schema} :
    join (.object ps req ex) (.object qs req' ex') = .ok r ↔
      ∃ f : String → Schema,
        (∀ k ∈ jointRequired req req', ∃ p q,
          Members.get? ps k = some p ∧ Members.get? qs k = some q ∧ join p q = .ok (f k)) ∧
        r = .object
          ((Members.fill ps qs).putAll ((jointRequired req req').map fun k => (k, f k)))
          (jointRequired req req') (joinExtras ex ex') := by
  rw [join]
  have hout : ∀ k ∈ jointRequired req req', ∀ s,
      Members.get? (joinShared (jointRequired req req') ps qs) k = some (.ok s) ↔
        ∃ p q, Members.get? ps k = some p ∧ Members.get? qs k = some q ∧ join p q = .ok s := by
    intro k hk s
    rw [get?_joinShared, if_pos hk]
    simp [Option.bind_eq_some_iff]
  constructor
  · intro h
    obtain ⟨joined, hc, hr⟩ := map_eq_ok_iff.1 h
    obtain ⟨hj, hall⟩ := collectJoint_eq_ok hc
    exact ⟨_, fun k hk => (hout k hk _).1 (hall k hk).2, by rw [← hr, hj]⟩
  · rintro ⟨f, hf, rfl⟩
    have hc : collectJoint ps qs (joinShared (jointRequired req req') ps qs)
        (jointRequired req req') = .ok ((jointRequired req req').map fun k => (k, f k)) := by
      refine collectJoint_of_forall f fun k hk => ?_
      obtain ⟨p, q, hp, hq, hj⟩ := hf k hk
      exact ⟨Members.mem_keys_of_get? hp, (hout k hk (f k)).2 ⟨p, q, hp, hq, hj⟩⟩
    simp [hc, Except.map]

/-- What a successful join with an object on the left is: an object with the properties of both, in
which what both sides require is joined and everything else is as it was first seen. -/
theorem join_object {ps : List (String × Schema)} {req : List String} {ex : Extras}
    {b r : Schema} (h : join (.object ps req ex) b = .ok r) :
    ∃ qs req' ex' rs, b = .object qs req' ex'
      ∧ r = .object rs (jointRequired req req') (joinExtras ex ex')
      ∧ Members.keys rs = addAll (Members.keys ps) (Members.keys qs)
      ∧ (∀ k, k ∈ req → k ∈ req' → ∃ p q s, Members.get? ps k = some p
          ∧ Members.get? qs k = some q ∧ join p q = .ok s ∧ Members.get? rs k = some s)
      ∧ ∀ k, ¬(k ∈ req ∧ k ∈ req') →
          Members.get? rs k = (Members.get? ps k).or (Members.get? qs k) := by
  cases b with
  | array items ex' => cases items <;> simp [join] at h
  | scalar kind ex' => simp [join] at h
  | object qs req' ex' =>
      obtain ⟨f, hf, rfl⟩ := join_object_eq_ok_iff.1 h
      refine ⟨qs, req', ex', _, rfl, rfl, ?_, ?_, ?_⟩
      · rw [Members.keys_putAll, Members.keys_fill]
        refine addAll_of_subset fun k hk => ?_
        have hk' : k ∈ jointRequired req req' := by simpa [Members.keys] using hk
        obtain ⟨p, q, hp, -, -⟩ := hf k hk'
        exact mem_addAll.2 (Or.inl (Members.mem_keys_of_get? hp))
      · intro k hk hk'
        have hmem : k ∈ jointRequired req req' := mem_jointRequired.2 ⟨hk, hk'⟩
        obtain ⟨p, q, hp, hq, hj⟩ := hf k hmem
        refine ⟨p, q, f k, hp, hq, hj, ?_⟩
        rw [Members.get?_putAll_map, if_pos hmem]
      · intro k hk
        have hmem : k ∉ jointRequired req req' := fun hm => hk (mem_jointRequired.1 hm)
        rw [Members.get?_putAll_map, if_neg hmem, Members.get?_fill]

/-- What a successful join with an array of unknown items on the left is. -/
theorem join_untyped {ex : Extras} {b r : Schema} (h : join (.array none ex) b = .ok r) :
    ∃ items ex', b = .array items ex' ∧ r = .array items (joinExtras ex ex') := by
  cases b with
  | object qs req' ex' => simp [join] at h
  | scalar kind ex' => simp [join] at h
  | array items ex' =>
      simp only [join, Except.ok.injEq] at h
      exact ⟨items, ex', rfl, h.symm⟩

/-- What a successful join with an array on the left is. -/
theorem join_array {s : Schema} {ex : Extras} {b r : Schema}
    (h : join (.array (some s) ex) b = .ok r) :
    ∃ items ex', b = .array items ex' ∧
      ((items = none ∧ r = .array (some s) (joinExtras ex ex')) ∨
        ∃ s' t, items = some s' ∧ join s s' = .ok t
          ∧ r = .array (some t) (joinExtras ex ex')) := by
  cases b with
  | object qs req' ex' => simp [join] at h
  | scalar kind ex' => simp [join] at h
  | array items ex' =>
      refine ⟨items, ex', rfl, ?_⟩
      cases items with
      | none =>
          simp only [join, Except.ok.injEq] at h
          exact Or.inl ⟨rfl, h.symm⟩
      | some s' =>
          rw [join] at h
          obtain ⟨t, ht, hr⟩ := map_eq_ok_iff.1 h
          exact Or.inr ⟨s', t, rfl, ht, hr.symm⟩

/-- What a successful join with a scalar on the left is. -/
theorem join_scalar {kind : ScalarKind} {ex : Extras} {b r : Schema}
    (h : join (.scalar kind ex) b = .ok r) :
    ∃ ex', b = .scalar kind ex' ∧ r = .scalar kind (joinExtras ex ex') := by
  cases b with
  | object qs req' ex' => simp [join] at h
  | array items ex' => cases items <;> simp [join] at h
  | scalar kind' ex' =>
      by_cases hk : kind = kind'
      · subst hk
        simp only [join, if_true, Except.ok.injEq] at h
        exact ⟨ex', rfl, h.symm⟩
      · simp [join, hk] at h

/-- A join leaves an object as it is exactly if the other side requires all that the object
requires, has no other properties, and has nothing to add at any required property. -/
theorem join_object_eq_self_iff {ps qs : List (String × Schema)} {req req' : List String}
    {ex ex' : Extras} :
    join (.object ps req ex) (.object qs req' ex') = .ok (.object ps req ex) ↔
      (∀ k ∈ req, k ∈ req' ∧ ∃ p q, Members.get? ps k = some p ∧ Members.get? qs k = some q
          ∧ join p q = .ok p)
        ∧ (∀ k ∈ Members.keys qs, k ∈ Members.keys ps) ∧ joinExtras ex ex' = ex := by
  constructor
  · intro h
    obtain ⟨qs', req'', ex'', rs, hb, hr, hkeys, hjoint, -⟩ := join_object h
    cases hb
    simp only [Schema.object.injEq] at hr
    obtain ⟨rfl, hreq, hex⟩ := hr
    refine ⟨fun k hk => ?_, fun k hk => ?_, hex.symm⟩
    · have hk' : k ∈ req' := by
        rw [hreq] at hk
        exact (mem_jointRequired.1 hk).2
      obtain ⟨p, q, s, hp, hq, hj, hs⟩ := hjoint k hk hk'
      have hsp : s = p := Option.some.inj (hs.symm.trans hp)
      exact ⟨hk', p, q, hp, hq, hsp ▸ hj⟩
    · rw [hkeys]
      exact mem_addAll.2 (Or.inr hk)
  · rintro ⟨hreq, hkeys, hex⟩
    have hjr : jointRequired req req' = req :=
      List.filter_eq_self.2 fun k hk => by simpa using (hreq k hk).1
    refine join_object_eq_ok_iff.2 ⟨fun k => (Members.get? ps k).getD default, ?_, ?_⟩
    · intro k hk
      obtain ⟨p, q, hp, hq, hj⟩ := (hreq k (mem_jointRequired.1 hk).1).2
      exact ⟨p, q, hp, hq, by simpa [hp] using hj⟩
    · -- no name is new, and what is joined at a required one is what was there
      rw [hjr, Members.fill_eq_self hkeys, hex]
      congr 1
      refine (Members.putAll_eq_self fun m hm => ?_).symm
      obtain ⟨k, hk, rfl⟩ := List.mem_map.1 hm
      obtain ⟨p, q, hp, -, -⟩ := (hreq k hk).2
      simp [hp]

end Schema

end ApiScribe
