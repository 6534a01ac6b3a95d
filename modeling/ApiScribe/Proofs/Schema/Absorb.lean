/-
**What a schema has absorbed.**

A schema has absorbed another one if a join with it changes nothing.  A join absorbs its right side,
and later joins with schemas of samples do not undo this: what was recorded once can be recorded
again at any time.

Main definitions:

* `ApiScribe.Schema.Closed` — every required name is a property, at every depth.

Main results:

* `ApiScribe.Schema.join_self` — a closed schema has absorbed itself;
* `ApiScribe.Schema.join_absorbs` — a join has absorbed its right side;
* `ApiScribe.Schema.Closed.absorbed` — **a closed schema is absorbed by itself and by every join
  with it**;
* `ApiScribe.Schema.join_keeps_absorbed` — what is absorbed stays so.
-/

import ApiScribe.Proofs.Schema.Sample

set_option autoImplicit false

namespace ApiScribe.Schema

/-- Every required name is a property and no free member is repeated, at every depth. -/
inductive Closed : Schema → Prop
  /-- An object. -/
  | object {ps : List (String × Schema)} {req : List String} {ex : Extras}
      (required : ∀ k ∈ req, k ∈ Members.keys ps) (extras : (Members.keys ex).Nodup)
      (each : ∀ k s, (k, s) ∈ ps → Closed s) : Closed (.object ps req ex)
  /-- An array of unknown items. -/
  | untyped {ex : Extras} (extras : (Members.keys ex).Nodup) : Closed (.array none ex)
  /-- An array. -/
  | array {s : Schema} {ex : Extras} (extras : (Members.keys ex).Nodup) (items : Closed s) :
      Closed (.array (some s) ex)
  /-- A scalar. -/
  | scalar {kind : ScalarKind} {ex : Extras} (extras : (Members.keys ex).Nodup) :
      Closed (.scalar kind ex)

theorem Inferred.closed {s : Schema} (h : s.Inferred) : s.Closed := by
  induction h with
  | object _ required _ ih => exact .object (fun k hk => (required k).1 hk) List.nodup_nil ih
  | untyped => exact .untyped List.nodup_nil
  | array _ ih => exact .array List.nodup_nil ih
  | scalar kind => exact .scalar List.nodup_nil

/-! ### Free members -/

theorem joinExtras_self {ex : Extras} (h : (Members.keys ex).Nodup) : joinExtras ex ex = ex :=
  Members.putAll_eq_self fun _ hm => Members.get?_of_mem h hm

/-- Free members that were added once are added again without a change. -/
theorem joinExtras_absorbs {ex ex' : Extras} (h : (Members.keys ex').Nodup) :
    joinExtras (joinExtras ex ex') ex' = joinExtras ex ex' := by
  have hkeys : Members.keys (joinExtras ex ex')
      = addAll (Members.keys ex') (Members.keys ex) := Members.keys_putAll ex' ex
  have hnodup : (Members.keys (joinExtras ex ex')).Nodup := by
    rw [hkeys]
    exact nodup_addAll h _
  have hkeys' : Members.keys (joinExtras (joinExtras ex ex') ex')
      = Members.keys (joinExtras ex ex') := by
    have hself : addAll (Members.keys ex') (Members.keys ex') = Members.keys ex' :=
      addAll_of_subset fun _ hk => hk
    rw [joinExtras, Members.keys_putAll, hkeys, addAll_addAll, hself]
  refine (Members.ext_keys hnodup hkeys'.symm fun k hk => ?_).symm
  obtain ⟨v, hv⟩ := Members.mem_keys_iff.1 hk
  have hget : Members.get? (Members.putAll ex' (joinExtras ex ex')) k = some v := by
    rw [Members.get?_putAll hnodup, hv]
    rfl
  rw [hv]
  exact hget.symm

/-! ### Joins -/

/-- A closed schema has absorbed itself. -/
theorem join_self {x : Schema} (h : x.Closed) : join x x = .ok x := by
  induction h with
  | @object ps req ex required extras _ ih =>
      refine join_object_eq_self_iff.2 ⟨fun k hk => ?_, fun _ hk => hk, joinExtras_self extras⟩
      obtain ⟨p, hp⟩ := Members.mem_keys_iff.1 (required k hk)
      exact ⟨hk, p, p, hp, hp, ih k p (Members.mem_of_get? hp)⟩
  | untyped extras => rw [join, joinExtras_self extras]
  | array extras _ ih => simp [join, ih, joinExtras_self extras, Except.map]
  | scalar extras => simp [join, joinExtras_self extras]

/-- A join has absorbed its right side. -/
theorem join_absorbs {a x r : Schema} (hx : x.Closed) (h : join a x = .ok r) :
    join r x = .ok r := by
  induction a using induct generalizing x r with
  | object ps req ex ih =>
      obtain ⟨qs, req', ex', rs, rfl, rfl, hkeys, hjoint, -⟩ := join_object h
      cases hx with
      | object _ extras each =>
          refine join_object_eq_self_iff.2
            ⟨fun k hk => ?_, fun k hk => ?_, joinExtras_absorbs extras⟩
          · obtain ⟨hreq, hreq'⟩ := mem_jointRequired.1 hk
            obtain ⟨p, q, s, hp, hq, hj, hs⟩ := hjoint k hreq hreq'
            have hclosed : q.Closed := each k q (Members.mem_of_get? hq)
            exact ⟨hreq', s, q, hs, hq, ih k p (Members.mem_of_get? hp) hclosed hj⟩
          · rw [hkeys]
            exact mem_addAll.2 (Or.inr hk)
  | untyped ex =>
      obtain ⟨items, ex', rfl, rfl⟩ := join_untyped h
      cases hx with
      | untyped extras => rw [join, joinExtras_absorbs extras]
      | array extras items => simp [join, join_self items, joinExtras_absorbs extras, Except.map]
  | array s ex ih =>
      obtain ⟨items, ex', rfl, ⟨rfl, rfl⟩ | ⟨s', t, rfl, ht, rfl⟩⟩ := join_array h
      · cases hx with
        | untyped extras => rw [join, joinExtras_absorbs extras]
      · cases hx with
        | array extras items => simp [join, ih items ht, joinExtras_absorbs extras, Except.map]
  | scalar kind ex =>
      obtain ⟨ex', rfl, rfl⟩ := join_scalar h
      cases hx with
      | scalar extras => simp [join, joinExtras_absorbs extras]

/-- **A closed schema is absorbed by itself and by every join with it**, whatever the left side of
that join is like: it may require names that it lacks. -/
theorem Closed.absorbed {x : Schema} (hx : x.Closed) :
    join x x = .ok x ∧ ∀ a r, join a x = .ok r → join r x = .ok r :=
  ⟨join_self hx, fun _ _ h => join_absorbs hx h⟩

/-- A page of a list, in which the rows and what is said of a row are required. -/
def fullPage : Schema :=
  .object [("next", .scalar .string []),
    ("rows", .array (some (.object [("id", .scalar .integer [("minimum", .atom (.int 1))])]
      ["id"] [])) [("title", .text "Rows")])] ["rows"] [("title", .text "Page")]

/-- A page with a name that is required but is no property, and of whose rows nothing is known. -/
def loosePage : Schema :=
  .object [("rows", .array none [("example", .list [])]), ("count", .scalar .integer [])]
    ["count", "rows", "next", "total"] [("title", .text "List"), ("example", .atom .null)]

/-- The join of two pages. -/
def joinedPage : Schema :=
  .object [("rows", .array (some (.object [("id", .scalar .integer [("minimum", .atom (.int 1))])]
      ["id"] [])) [("title", .text "Rows"), ("example", .list [])]),
    ("count", .scalar .integer []), ("next", .scalar .string [])]
    ["rows"] [("title", .text "List"), ("example", .atom .null)]

/-- A page is absorbed by its join with a page that requires more than it has. -/
theorem Closed.absorbed_fullPage : fullPage.Closed ∧ ¬loosePage.Closed ∧
    join fullPage fullPage = .ok fullPage ∧ join loosePage fullPage = .ok joinedPage ∧
    join joinedPage fullPage = .ok joinedPage := by
  have hrow : ∀ ex, (Members.keys ex).Nodup →
      Closed (.object [("id", .scalar .integer ex)] ["id"] []) := by
    intro ex hex
    refine .object (by simp) (by simp) fun k s hk => ?_
    obtain rfl := (Prod.mk.inj (List.mem_singleton.1 hk)).2
    exact .scalar hex
  have hfull : fullPage.Closed := by
    refine .object (by simp) (by simp) fun k s hk => ?_
    simp only [List.mem_cons, List.not_mem_nil, or_false, Prod.mk.injEq] at hk
    rcases hk with ⟨-, rfl⟩ | ⟨-, rfl⟩
    · exact .scalar List.nodup_nil
    · exact .array (by simp) (hrow _ (by simp))
  have hloose : ¬loosePage.Closed := by
    intro h
    cases h with
    | object required _ _ => exact absurd (required "total" (by simp)) (by simp)
  have hjoin : join loosePage fullPage = .ok joinedPage := by rfl
  obtain ⟨hself, hright⟩ := Closed.absorbed hfull
  exact ⟨hfull, hloose, hself, hjoin, hright _ _ hjoin⟩

/-- What is absorbed stays so when the schema of another sample is joined. -/
theorem join_keeps_absorbed {y s t z : Schema} (hs : s.Inferred) (ht : t.Inferred)
    (habs : join y s = .ok y) (h : join y t = .ok z) : join z s = .ok z := by
  induction y using induct generalizing s t z with
  | object ps req ex ih =>
      obtain ⟨qs, req', ex', rs, rfl, -⟩ := join_object habs
      obtain ⟨hreq, hkeys, hex⟩ := join_object_eq_self_iff.1 habs
      obtain ⟨ts, req'', ex'', us, rfl, rfl, hkeys', hjoint, -⟩ := join_object h
      -- neither of the two has free members, so none are added, now or then
      obtain rfl : ex' = [] := by cases hs; rfl
      obtain rfl : ex'' = [] := by cases ht; rfl
      refine join_object_eq_self_iff.2 ⟨fun k hk => ?_, fun k hk => ?_, by rw [hex, hex]⟩
      · obtain ⟨hk₁, hk₂⟩ := mem_jointRequired.1 hk
        obtain ⟨hk', p, q, hp, hq, hj⟩ := hreq k hk₁
        obtain ⟨p', u, w, hp', hu, hw, hus⟩ := hjoint k hk₁ hk₂
        obtain rfl : p' = p := Option.some.inj (hp'.symm.trans hp)
        have hjoined := ih k p' (Members.mem_of_get? hp) (hs.property hq) (ht.property hu) hj hw
        exact ⟨hk', w, q, hus, hq, hjoined⟩
      · rw [hkeys']
        exact mem_addAll.2 (Or.inl (hkeys k hk))
  | untyped ex =>
      obtain ⟨items, ex', rfl, hy⟩ := join_untyped habs
      simp only [Schema.array.injEq] at hy
      obtain ⟨rfl, hex⟩ := hy
      obtain ⟨items, ex'', rfl, rfl⟩ := join_untyped h
      obtain rfl : ex' = [] := by cases hs; rfl
      obtain rfl : ex'' = [] := by cases ht <;> rfl
      cases items <;> rw [join, ← hex, ← hex]
  | array p ex ih =>
      obtain ⟨items, ex', rfl, ⟨rfl, hy⟩ | ⟨q, p', rfl, hj, hy⟩⟩ := join_array habs
      · simp only [Schema.array.injEq, true_and] at hy
        obtain rfl : ex' = [] := by cases hs; rfl
        obtain ⟨items, ex'', rfl, ⟨rfl, rfl⟩ | ⟨u, w, rfl, hw, rfl⟩⟩ := join_array h
        · obtain rfl : ex'' = [] := by cases ht; rfl
          rw [join, ← hy, ← hy]
        · obtain rfl : ex'' = [] := by cases ht; rfl
          rw [join, ← hy, ← hy]
      · simp only [Schema.array.injEq, Option.some.injEq] at hy
        obtain ⟨rfl, hex⟩ := hy
        have hq : q.Inferred := by cases hs; assumption
        obtain rfl : ex' = [] := by cases hs; rfl
        obtain ⟨items, ex'', rfl, ⟨rfl, rfl⟩ | ⟨u, w, rfl, hw, rfl⟩⟩ := join_array h
        · obtain rfl : ex'' = [] := by cases ht; rfl
          simp [join, hj, ← hex, Except.map]
        · have hu : u.Inferred := by cases ht; assumption
          obtain rfl : ex'' = [] := by cases ht; rfl
          simp [join, ih hq hu hj hw, ← hex, Except.map]
  | scalar kind ex =>
      obtain ⟨ex', rfl, hy⟩ := join_scalar habs
      simp only [Schema.scalar.injEq, true_and] at hy
      obtain ⟨ex'', rfl, rfl⟩ := join_scalar h
      obtain rfl : ex' = [] := by cases hs; rfl
      obtain rfl : ex'' = [] := by cases ht; rfl
      simp [join, ← hy]

end ApiScribe.Schema
