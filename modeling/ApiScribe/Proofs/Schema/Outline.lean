/-
**Schemas by what can be seen of them.**

Whatever its shape, a schema is known by its type, the names of its properties, the required ones
among them, and what stands at each property and at the items.  In these terms a join, and a run of
joins, can be described for all shapes at once.  A run joins a property for as long as it is
required and present; from the first sample on that lacks it, the property stays as it is.

Main definitions:

* `ApiScribe.Schema.names`, `ApiScribe.Schema.required` — the names of an object;
* `ApiScribe.Schema.Plain` — the schemas that recording builds;
* `ApiScribe.Schema.leading` — what the leading samples of a run have at a property.

Main results:

* `ApiScribe.Schema.ext_outline` — what can be seen of a plain schema determines it;
* `ApiScribe.Schema.Joined.of_join` — a join in these terms;
* `ApiScribe.Schema.names_joinAll`, `ApiScribe.Schema.required_joinAll`,
  `ApiScribe.Schema.property?_joinAll_of_mem`, `ApiScribe.Schema.items?_joinAll` — a run in these
  terms.
-/

import ApiScribe.Proofs.Schema.Sample

set_option autoImplicit false

namespace ApiScribe.Schema

/-- The names of the properties. -/
def names : Schema → List String
  | object ps _ _ => Members.keys ps
  | array .. => []
  | scalar .. => []

/-- The names of the required properties. -/
def required : Schema → List String
  | object _ req _ => req
  | array .. => []
  | scalar .. => []

/-- No name is repeated, every required name is a property, and there are no free members, at every
depth. -/
inductive Plain : Schema → Prop
  /-- An object. -/
  | object {ps : List (String × Schema)} {req : List String} (nodup : (Members.keys ps).Nodup)
      (required : ∀ k ∈ req, k ∈ Members.keys ps) (each : ∀ k s, (k, s) ∈ ps → Plain s) :
      Plain (.object ps req [])
  /-- An array of unknown items. -/
  | untyped : Plain (.array none [])
  /-- An array. -/
  | array {s : Schema} (items : Plain s) : Plain (.array (some s) [])
  /-- A scalar. -/
  | scalar (kind : ScalarKind) : Plain (.scalar kind [])

theorem Inferred.plain {s : Schema} (h : s.Inferred) : s.Plain := by
  induction h with
  | object nodup required _ ih => exact .object nodup (fun k hk => (required k).1 hk) ih
  | untyped => exact .untyped
  | array _ ih => exact .array ih
  | scalar kind => exact .scalar kind

theorem Inferred.mem_required {s : Schema} (h : s.Inferred) {k : String} :
    k ∈ s.required ↔ k ∈ s.names := by
  cases h with
  | object _ required _ => exact required k
  | untyped => rfl
  | array _ => rfl
  | scalar kind => rfl

/-! ### What can be seen -/

theorem mem_names_iff {s : Schema} {k : String} : k ∈ s.names ↔ ∃ p, s.property? k = some p := by
  cases s with
  | object ps req ex => exact Members.mem_keys_iff
  | array items ex => simp [names, property?]
  | scalar kind ex => simp [names, property?]

theorem property?_eq_none_iff {s : Schema} {k : String} : s.property? k = none ↔ k ∉ s.names := by
  rw [mem_names_iff, Option.eq_none_iff_forall_ne_some, not_exists]

theorem Plain.nodup_names {s : Schema} (h : s.Plain) : s.names.Nodup := by
  cases h with
  | object nodup _ _ => exact nodup
  | untyped => exact List.nodup_nil
  | array _ => exact List.nodup_nil
  | scalar kind => exact List.nodup_nil

theorem Plain.mem_names {s : Schema} (h : s.Plain) {k : String} (hk : k ∈ s.required) :
    k ∈ s.names := by
  cases h with
  | object _ required _ => exact required k hk
  | untyped => cases hk
  | array _ => cases hk
  | scalar kind => cases hk

theorem Plain.property {s : Schema} (h : s.Plain) {k : String} {p : Schema}
    (hp : s.property? k = some p) : p.Plain := by
  cases h with
  | object _ _ each => exact each k p (Members.mem_of_get? hp)
  | untyped => cases hp
  | array _ => cases hp
  | scalar kind => cases hp

theorem Plain.item {s p : Schema} (h : s.Plain) (hp : s.items? = some p) : p.Plain := by
  cases h with
  | object _ _ _ => cases hp
  | untyped => cases hp
  | array items =>
      cases hp
      exact items
  | scalar kind => cases hp

/-- Induction on what can be seen of a schema. -/
theorem induct_outline {motive : Schema → Prop}
    (step : ∀ s, (∀ k p, s.property? k = some p → motive p) →
      (∀ p, s.items? = some p → motive p) → motive s) (s : Schema) : motive s := by
  induction s using induct with
  | object ps req ex ih =>
      refine step _ (fun k p hp => ih k p (Members.mem_of_get? hp)) ?_
      intro p hp
      cases hp
  | untyped ex =>
      refine step _ ?_ ?_
      · intro k p hp
        cases hp
      · intro p hp
        cases hp
  | array t ex ih =>
      refine step _ ?_ ?_
      · intro k p hp
        cases hp
      · intro p hp
        cases hp
        exact ih
  | scalar kind ex =>
      refine step _ ?_ ?_
      · intro k p hp
        cases hp
      · intro p hp
        cases hp

/-- The words for the kinds of scalars differ from one another and from those for the shapes. -/
theorem name_injective {kind kind' : ScalarKind} (h : kind.name = kind'.name) : kind = kind' := by
  revert h
  cases kind <;> cases kind' <;> decide

theorem name_ne (kind : ScalarKind) : kind.name ≠ "object" ∧ kind.name ≠ "array" := by
  cases kind <;> decide

/-- **What can be seen of a plain schema determines it.** -/
theorem ext_outline {a b : Schema} (ha : a.Plain) (hb : b.Plain) (htype : a.typeName = b.typeName)
    (hnames : a.names = b.names) (hrequired : a.required = b.required)
    (hproperty : ∀ k ∈ a.names, a.property? k = b.property? k) (hitems : a.items? = b.items?) :
    a = b := by
  have hobject : ("object" : String) ≠ "array" := by decide
  cases ha with
  | object nodup _ _ =>
      cases hb with
      | object _ _ _ =>
          have hps := Members.ext_keys nodup hnames hproperty
          have hreq : _ = _ := hrequired
          simp only [Schema.required] at hreq
          rw [hps, hreq]
      | untyped => exact absurd htype hobject
      | array _ => exact absurd htype hobject
      | scalar kind => exact absurd htype.symm (name_ne kind).1
  | untyped =>
      cases hb with
      | object _ _ _ => exact absurd htype.symm hobject
      | untyped => rfl
      | array _ => cases hitems
      | scalar kind => exact absurd htype.symm (name_ne kind).2
  | array _ =>
      cases hb with
      | object _ _ _ => exact absurd htype.symm hobject
      | untyped => cases hitems
      | array _ =>
          cases hitems
          rfl
      | scalar kind => exact absurd htype.symm (name_ne kind).2
  | scalar kind =>
      cases hb with
      | object _ _ _ => exact absurd htype (name_ne kind).1
      | untyped => exact absurd htype (name_ne kind).2
      | array _ => exact absurd htype (name_ne kind).2
      | scalar kind' => rw [name_injective htype]

/-! ### One join -/

/-- What a join of `a` and `b` is, by what can be seen of it. -/
structure Joined (a b r : Schema) : Prop where
  /-- The join is of the type of both. -/
  type_left : r.typeName = a.typeName
  /-- The two are of one type. -/
  type_right : b.typeName = a.typeName
  /-- The properties are those of both. -/
  names : r.names = addAll a.names b.names
  /-- A property is required if both sides require it. -/
  required : r.required = jointRequired a.required b.required
  /-- A property that both sides require is joined. -/
  joint : ∀ k, k ∈ a.required → k ∈ b.required → ∃ p q s, a.property? k = some p
    ∧ b.property? k = some q ∧ join p q = .ok s ∧ r.property? k = some s
  /-- Every other one is as it was first seen. -/
  single : ∀ k, ¬(k ∈ a.required ∧ k ∈ b.required) →
    r.property? k = (a.property? k).or (b.property? k)
  /-- Items that both sides know are joined. -/
  items : joinAll a.items? b.items?.toList = .ok r.items?

/-- **A join by what can be seen of it.** -/
theorem Joined.of_join {a b r : Schema} (h : join a b = .ok r) : Joined a b r := by
  cases a with
  | object ps req ex =>
      obtain ⟨qs, req', ex', rs, rfl, rfl, hkeys, hjoint, hsingle⟩ := join_object h
      exact ⟨rfl, rfl, hkeys, rfl, hjoint, hsingle, rfl⟩
  | array items ex =>
      cases items with
      | none =>
          obtain ⟨items', ex', rfl, rfl⟩ := join_untyped h
          refine ⟨rfl, rfl, rfl, rfl, by simp [Schema.required], fun _ _ => rfl, ?_⟩
          cases items' <;> rfl
      | some s =>
          obtain ⟨items', ex', rfl, ⟨rfl, rfl⟩ | ⟨s', t, rfl, ht, rfl⟩⟩ := join_array h
          · exact ⟨rfl, rfl, rfl, rfl, by simp [Schema.required], fun _ _ => rfl, rfl⟩
          · refine ⟨rfl, rfl, rfl, rfl, by simp [Schema.required], fun _ _ => rfl, ?_⟩
            exact joinAll_cons.2 ⟨t, ht, rfl⟩
  | scalar kind ex =>
      obtain ⟨ex', rfl, rfl⟩ := join_scalar h
      exact ⟨rfl, rfl, rfl, rfl, by simp [Schema.required], fun _ _ => rfl, rfl⟩

/-- A join of plain schemas is plain. -/
theorem Plain.join {a b r : Schema} (ha : a.Plain) (hb : b.Plain) (h : Schema.join a b = .ok r) :
    r.Plain := by
  induction a using induct generalizing b r with
  | object ps req ex ih =>
      have hview := Joined.of_join h
      obtain ⟨qs, req', ex', rs, rfl, rfl, hkeys, -⟩ := join_object h
      obtain rfl : ex = [] := by cases ha; rfl
      obtain rfl : ex' = [] := by cases hb; rfl
      have hnodup : (Members.keys rs).Nodup := by
        rw [hkeys]
        exact nodup_addAll ha.nodup_names _
      refine .object hnodup (fun k hk => ?_) fun k s hs => ?_
      · rw [hkeys]
        exact mem_addAll.2 (Or.inl (ha.mem_names (mem_jointRequired.1 hk).1))
      · have hget : Members.get? rs k = some s := Members.get?_of_mem hnodup hs
        -- a property that both sides require is a join; any other comes from one of them
        by_cases hk : k ∈ req ∧ k ∈ req'
        · obtain ⟨p, q, t, hp, hq, hj, ht⟩ := hview.joint k hk.1 hk.2
          obtain rfl : t = s := Option.some.inj (ht.symm.trans hget)
          exact ih k p (Members.mem_of_get? hp) (ha.property hp) (hb.property hq) hj
        · have hor := (hview.single k hk).symm.trans hget
          rcases Option.or_eq_some_iff.1 hor with hp | ⟨-, hq⟩
          · exact ha.property hp
          · exact hb.property hq
  | untyped ex =>
      obtain ⟨items, ex', rfl, rfl⟩ := join_untyped h
      obtain rfl : ex = [] := by cases ha; rfl
      cases hb with
      | untyped => exact .untyped
      | array items => exact .array items
  | array s ex ih =>
      obtain rfl : ex = [] := by cases ha; rfl
      obtain ⟨items, ex', rfl, ⟨rfl, rfl⟩ | ⟨s', t, rfl, ht, rfl⟩⟩ := join_array h
      · cases hb
        exact ha
      · cases hb with
        | array hs' =>
            cases ha with
            | array hs => exact .array (ih hs hs' ht)
  | scalar kind ex =>
      obtain ⟨ex', rfl, rfl⟩ := join_scalar h
      cases ha
      cases hb
      exact .scalar kind

/-! ### Runs -/

/-- What the leading samples of a run, up to the first one without the property, have at it. -/
def leading (k : String) : List Schema → List Schema
  | [] => []
  | s :: ss =>
    match s.property? k with
    | some p => p :: leading k ss
    | none => []

theorem leading_cons_some {k : String} {s p : Schema} (h : s.property? k = some p)
    (ss : List Schema) : leading k (s :: ss) = p :: leading k ss := by
  rw [leading, h]

theorem leading_cons_none {k : String} {s : Schema} (h : s.property? k = none)
    (ss : List Schema) : leading k (s :: ss) = [] := by
  rw [leading, h]

theorem inferred_leading {k : String} {ss : List Schema} (h : ∀ s ∈ ss, s.Inferred) :
    ∀ p ∈ leading k ss, p.Inferred := by
  induction ss with
  | nil =>
      intro p hp
      cases hp
  | cons s ss ih =>
      intro p hp
      cases hs : s.property? k with
      | none =>
          rw [leading_cons_none hs] at hp
          cases hp
      | some q =>
          rw [leading_cons_some hs] at hp
          rcases List.mem_cons.1 hp with rfl | hp
          · exact (h s List.mem_cons_self).property hs
          · exact ih (fun t ht => h t (List.mem_cons_of_mem s ht)) p hp

theorem inferred_items {ss : List Schema} (h : ∀ s ∈ ss, s.Inferred) :
    ∀ p ∈ ss.filterMap items?, p.Inferred := by
  intro p hp
  obtain ⟨s, hs, hps⟩ := List.mem_filterMap.1 hp
  exact (h s hs).item hps

/-- A run from a plain schema ends with a plain schema. -/
theorem Plain.joinAll {before : Option Schema} {ss : List Schema} {r : Schema}
    (hbefore : ∀ b, before = some b → b.Plain) (hss : ∀ s ∈ ss, s.Inferred)
    (h : ApiScribe.joinAll before ss = .ok (some r)) : r.Plain := by
  induction ss generalizing before with
  | nil => exact hbefore r (Except.ok.inj h)
  | cons s ss ih =>
      obtain ⟨t, ht, hrest⟩ := joinAll_cons.1 h
      have hs := (hss s List.mem_cons_self).plain
      refine ih ?_ (fun u hu => hss u (List.mem_cons_of_mem s hu)) hrest
      rintro b hb
      cases hb
      cases before with
      | none =>
          cases ht
          exact hs
      | some a => exact (hbefore a rfl).join hs ht

section

variable {a r : Schema} {ss : List Schema}

/-- The type of a run. -/
theorem typeName_joinAll (h : joinAll (some a) ss = .ok (some r)) : r.typeName = a.typeName := by
  induction ss generalizing a with
  | nil => rw [Option.some.inj (Except.ok.inj h)]
  | cons s ss ih =>
      obtain ⟨t, ht, hrest⟩ := joinAll_cons.1 h
      rw [ih hrest, (Joined.of_join ht).type_left]

/-- The properties of a run are those of all. -/
theorem names_joinAll (h : joinAll (some a) ss = .ok (some r)) :
    r.names = addAll a.names (ss.flatMap names) := by
  induction ss generalizing a with
  | nil =>
      rw [Option.some.inj (Except.ok.inj h)]
      rfl
  | cons s ss ih =>
      obtain ⟨t, ht, hrest⟩ := joinAll_cons.1 h
      rw [ih hrest, (Joined.of_join ht).names, List.flatMap_cons, addAll_append]

/-- The required properties of a run are those that were required and that all samples have. -/
theorem required_joinAll (hss : ∀ s ∈ ss, s.Inferred) (h : joinAll (some a) ss = .ok (some r)) :
    r.required = a.required.filter fun k => ss.all fun s => s.names.contains k := by
  induction ss generalizing a with
  | nil =>
      rw [Option.some.inj (Except.ok.inj h)]
      simp
  | cons s ss ih =>
      obtain ⟨t, ht, hrest⟩ := joinAll_cons.1 h
      rw [ih (fun u hu => hss u (List.mem_cons_of_mem s hu)) hrest, (Joined.of_join ht).required,
        jointRequired, List.filter_filter]
      refine List.filter_congr fun k _ => ?_
      have hk : s.required.contains k = s.names.contains k := by
        rw [Bool.eq_iff_iff, List.contains_iff_mem, List.contains_iff_mem]
        exact (hss s List.mem_cons_self).mem_required
      rw [List.all_cons, Bool.and_comm, hk]

theorem mem_required_joinAll (hss : ∀ s ∈ ss, s.Inferred) (h : joinAll (some a) ss = .ok (some r))
    {k : String} : k ∈ r.required ↔ k ∈ a.required ∧ ∀ s ∈ ss, k ∈ s.names := by
  rw [required_joinAll hss h, List.mem_filter]
  simp

/-- A property that is not required stays as it is, and a new one is as it was first seen. -/
theorem property?_joinAll_of_not_mem (h : joinAll (some a) ss = .ok (some r)) {k : String}
    (hk : k ∉ a.required) : r.property? k = (a.property? k).or (ss.findSome? (·.property? k)) := by
  induction ss generalizing a with
  | nil =>
      rw [Option.some.inj (Except.ok.inj h)]
      simp
  | cons s ss ih =>
      obtain ⟨t, ht, hrest⟩ := joinAll_cons.1 h
      have hview := Joined.of_join ht
      have hk' : k ∉ t.required := by
        rw [hview.required]
        exact fun hmem => hk (mem_jointRequired.1 hmem).1
      rw [ih hrest hk', hview.single k fun hb => hk hb.1, Option.or_assoc]
      congr 1
      cases hs : s.property? k <;> simp [hs]

/-- A required property is joined with what the leading samples have at it. -/
theorem property?_joinAll_of_mem (hss : ∀ s ∈ ss, s.Inferred)
    (h : joinAll (some a) ss = .ok (some r)) {k : String} (hk : k ∈ a.required) {p : Schema}
    (hp : a.property? k = some p) :
    ∃ q, r.property? k = some q ∧ joinAll (some p) (leading k ss) = .ok (some q) := by
  induction ss generalizing a p with
  | nil =>
      rw [← Option.some.inj (Except.ok.inj h)]
      exact ⟨p, hp, rfl⟩
  | cons s ss ih =>
      obtain ⟨t, ht, hrest⟩ := joinAll_cons.1 h
      have hview := Joined.of_join ht
      have hss' : ∀ u ∈ ss, u.Inferred := fun u hu => hss u (List.mem_cons_of_mem s hu)
      by_cases hs : k ∈ s.required
      · obtain ⟨p', q, u, hp', hq, hj, hu⟩ := hview.joint k hk hs
        obtain rfl : p' = p := Option.some.inj (hp'.symm.trans hp)
        have hkt : k ∈ t.required := by
          rw [hview.required]
          exact mem_jointRequired.2 ⟨hk, hs⟩
        obtain ⟨v, hv, hrun⟩ := ih hss' hrest hkt hu
        rw [leading_cons_some hq]
        exact ⟨v, hv, joinAll_cons.2 ⟨u, hj, hrun⟩⟩
      · -- the first sample without the property: nothing is joined to it from here on
        have hnone : s.property? k = none := by
          rw [property?_eq_none_iff, ← (hss s List.mem_cons_self).mem_required]
          exact hs
        have hkt : k ∉ t.required := by
          rw [hview.required]
          exact fun hmem => hs (mem_jointRequired.1 hmem).2
        rw [leading_cons_none hnone, property?_joinAll_of_not_mem hrest hkt,
          hview.single k fun hb => hs hb.2, hp]
        exact ⟨p, rfl, rfl⟩

end

/-- The items of a run are the items of all, joined. -/
theorem items?_joinAll {before : Option Schema} {r : Schema} {ss : List Schema}
    (h : joinAll before ss = .ok (some r)) :
    joinAll (before.bind items?) (ss.filterMap items?) = .ok r.items? := by
  induction ss generalizing before with
  | nil =>
      rw [Except.ok.inj h]
      rfl
  | cons s ss ih =>
      obtain ⟨t, ht, hrest⟩ := joinAll_cons.1 h
      have hone : joinAll (before.bind items?) s.items?.toList = .ok t.items? := by
        cases before with
        | none =>
            cases ht
            cases hs : s.items? <;> simp [joinAll, joinOption]
        | some a => exact (Joined.of_join ht).items
      have hsplit : (s :: ss).filterMap items? = s.items?.toList ++ ss.filterMap items? := by
        cases hs : s.items? with
        | none => simp [hs]
        | some i => simp [hs]
      rw [hsplit]
      exact joinAll_append.2 ⟨_, hone, ih hrest⟩

/-! ### Runs from what may be absent -/

section

variable {before : Option Schema} {ss : List Schema} {r : Schema}

/-- A run from nothing is a run from its first sample. -/
theorem joinAll_none_cons {s : Schema} {rest : List Schema} {after : Option Schema} :
    joinAll none (s :: rest) = .ok after ↔ joinAll (some s) rest = .ok after := by
  rw [joinAll_cons]
  constructor
  · rintro ⟨t, ht, hrest⟩
    cases ht
    exact hrest
  · intro hrest
    exact ⟨s, rfl, hrest⟩

theorem mem_names_of_before (h : joinAll before ss = .ok (some r)) {b : Schema}
    (hb : before = some b) {k : String} (hk : k ∈ b.names) : k ∈ r.names := by
  subst hb
  rw [names_joinAll h]
  exact mem_addAll.2 (Or.inl hk)

/-- The names that a run adds to others are those of its samples and of what it started from. -/
theorem addAll_names_joinAll {xs : List String}
    (hxs : ∀ b, before = some b → ∀ k ∈ b.names, k ∈ xs) (h : joinAll before ss = .ok (some r)) :
    addAll xs r.names = addAll xs (ss.flatMap names) := by
  cases before with
  | some b => rw [names_joinAll h, addAll_addAll, addAll_of_subset (hxs b rfl)]
  | none =>
      cases ss with
      | nil => cases h
      | cons s ss => rw [names_joinAll (joinAll_none_cons.1 h), addAll_addAll, List.flatMap_cons,
          addAll_append]

/-- A property is required after a run if it was required and all samples have it. -/
theorem mem_required_of_run (hss : ∀ s ∈ ss, s.Inferred) (h : joinAll before ss = .ok (some r))
    {k : String} :
    k ∈ r.required ↔ (∀ b, before = some b → k ∈ b.required) ∧ ∀ s ∈ ss, k ∈ s.names := by
  cases before with
  | some b =>
      rw [mem_required_joinAll hss h]
      simp
  | none =>
      cases ss with
      | nil => cases h
      | cons s ss =>
          have hss' : ∀ u ∈ ss, u.Inferred := fun u hu => hss u (List.mem_cons_of_mem s hu)
          rw [mem_required_joinAll hss' (joinAll_none_cons.1 h),
            (hss s List.mem_cons_self).mem_required]
          simp

/-- What a required property of a run is joined of. -/
theorem property?_of_run (hbefore : ∀ b, before = some b → b.Plain) (hss : ∀ s ∈ ss, s.Inferred)
    (h : joinAll before ss = .ok (some r)) {k : String} (hk : k ∈ r.required) :
    ∃ q, r.property? k = some q
      ∧ joinAll (before.bind (·.property? k)) (leading k ss) = .ok (some q) := by
  obtain ⟨hopen, hall⟩ := (mem_required_of_run hss h).1 hk
  cases before with
  | some b =>
      obtain ⟨p, hp⟩ := mem_names_iff.1 ((hbefore b rfl).mem_names (hopen b rfl))
      obtain ⟨q, hq, hrun⟩ := property?_joinAll_of_mem hss h (hopen b rfl) hp
      rw [Option.bind_some, hp]
      exact ⟨q, hq, hrun⟩
  | none =>
      cases ss with
      | nil => cases h
      | cons s ss =>
          have hs : k ∈ s.names := hall s List.mem_cons_self
          have hsreq : k ∈ s.required := (hss s List.mem_cons_self).mem_required.2 hs
          obtain ⟨p, hp⟩ := mem_names_iff.1 hs
          obtain ⟨q, hq, hrun⟩ := property?_joinAll_of_mem
            (fun u hu => hss u (List.mem_cons_of_mem s hu)) (joinAll_none_cons.1 h) hsreq hp
          rw [leading_cons_some hp]
          exact ⟨q, hq, joinAll_none_cons.2 hrun⟩

end

end ApiScribe.Schema
