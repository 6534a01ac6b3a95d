/-
**What a join keeps of its first side.**

A schema says something at its root, and at each of its properties and items again.  A position is a
way down from the root.  Joining a schema with another one may add positions, but it takes none away:
at each one the type and the free members stay, and a name is required there only if it was before.
A join goes on at some positions and stops at others, where the first side stands as it is.  So the
induction runs along the position, and carries that a schema is either the old one or a join of it.

Main definitions:

* `ApiScribe.Schema.Step`, `ApiScribe.Schema.at?` — positions, and what stands at them;
* `ApiScribe.Schema.Keeps` — what one schema keeps of another one at the root;
* `ApiScribe.Schema.Within` — it keeps it at every position.

Main results:

* `ApiScribe.Schema.Keeps.of_join` — a join keeps what its first side says at the root;
* `ApiScribe.Schema.below?_of_join` — one step down, a join is as its first side, or joined again;
* `ApiScribe.Schema.HasExtras.join` — a join keeps rules for free members;
* `ApiScribe.Schema.Within.of_join` — **a join loses nothing of its first side, at any depth**.
-/

import ApiScribe.Proofs.Schema.Outline
import ApiScribe.Proofs.Schema.Regular

set_option autoImplicit false

namespace ApiScribe

/-- The free members have distinct names, whatever fields they stand beside. -/
abbrev DistinctBeside (_ : List String) (ex : Extras) : Prop := ex.keys.Nodup

namespace Schema

/-! ### Positions -/

/-- One step down in a schema. -/
inductive Step where
  /-- To a property. -/
  | property (name : String)
  /-- To the items. -/
  | items
  deriving DecidableEq, Repr

/-- The schema one step down. -/
def below? (s : Schema) : Step → Option Schema
  | .property k => s.property? k
  | .items => s.items?

/-- The schema at a position. -/
def at? (s : Schema) : List Step → Option Schema
  | [] => some s
  | d :: path => (s.below? d).bind fun t => t.at? path

/-- A schema keeps what another one says at its root, but may require less. -/
structure Keeps (old new : Schema) : Prop where
  /-- The type is the same. -/
  typeName : new.typeName = old.typeName
  /-- The free members have the values that they had. -/
  extras : ∀ k v, Members.get? old.extras k = some v → Members.get? new.extras k = some v
  /-- What is required was required before, in the same order. -/
  required : new.required.Sublist old.required

/-- A schema keeps what another one says at each of its positions. -/
def Within (old new : Schema) : Prop :=
  ∀ path s, old.at? path = some s → ∃ s', new.at? path = some s' ∧ s.Keeps s'

section

variable {a b c r s t : Schema}

theorem Keeps.refl (s : Schema) : s.Keeps s := ⟨rfl, fun _ _ h => h, List.Sublist.refl _⟩

theorem Keeps.trans (h : a.Keeps b) (h' : b.Keeps c) : a.Keeps c where
  typeName := h'.typeName.trans h.typeName
  extras := fun k v hv => h'.extras k v (h.extras k v hv)
  required := h'.required.trans h.required

theorem Within.refl (s : Schema) : s.Within s := fun _ t ht => ⟨t, ht, Keeps.refl t⟩

theorem Within.trans (h : a.Within b) (h' : b.Within c) : a.Within c := by
  intro path s hs
  obtain ⟨s', hs', hkeeps⟩ := h path s hs
  obtain ⟨s'', hs'', hkeeps'⟩ := h' path s' hs'
  exact ⟨s'', hs'', hkeeps.trans hkeeps'⟩

/-! ### One join -/

theorem HasExtras.distinct (h : s.HasExtras DistinctBeside) : (Members.keys s.extras).Nodup := by
  cases h <;> assumption

section

variable {R : List String → Extras → Prop}

/-- The schema of a sample has no free members. -/
theorem Inferred.hasExtras (hR : ∀ names, R names []) (h : s.Inferred) : s.HasExtras R := by
  induction h with
  | object nodup _ _ ih => exact .object nodup (hR _) ih
  | untyped => exact .untyped (hR _)
  | array _ ih => exact .array (hR _) ih
  | scalar kind => exact .scalar (hR _)

/-- **A rule that is kept where free members are joined, a join keeps at every depth.** -/
theorem HasExtras.join (hR : ∀ {names ex ex'}, R names ex → R names ex' → R names (joinExtras ex ex'))
    (ha : a.HasExtras R) (hb : b.HasExtras R) (h : Schema.join a b = .ok r) : r.HasExtras R := by
  induction ha generalizing b r with
  | @object ps req ex nodup own each ih =>
      obtain ⟨qs, req', ex', rs, rfl, rfl, hkeys, hjoint, hsingle⟩ := join_object h
      cases hb with
      | object nodup' own' each' =>
          have hnodup : (Members.keys rs).Nodup := hkeys ▸ nodup_addAll nodup _
          refine .object hnodup (hR own own') fun k s hs => ?_
          have hget : Members.get? rs k = some s := Members.get?_of_mem hnodup hs
          -- a property that both sides require is a join; any other comes from one of them
          by_cases hk : k ∈ req ∧ k ∈ req'
          · obtain ⟨p, q, t, hp, hq, hj, ht⟩ := hjoint k hk.1 hk.2
            obtain rfl : t = s := Option.some.inj (ht.symm.trans hget)
            exact ih k p (Members.mem_of_get? hp) (each' k q (Members.mem_of_get? hq)) hj
          · rcases Option.or_eq_some_iff.1 ((hsingle k hk).symm.trans hget) with hp | ⟨-, hq⟩
            · exact each k s (Members.mem_of_get? hp)
            · exact each' k s (Members.mem_of_get? hq)
  | untyped own =>
      obtain ⟨items, ex', rfl, rfl⟩ := join_untyped h
      cases hb with
      | untyped own' => exact .untyped (hR own own')
      | array own' items' => exact .array (hR own own') items'
  | array own items ih =>
      obtain ⟨items', ex', rfl, ⟨rfl, rfl⟩ | ⟨s', t, rfl, ht, rfl⟩⟩ := join_array h
      · cases hb with
        | untyped own' => exact .array (hR own own') items
      · cases hb with
        | array own' items' => exact .array (hR own own') (ih items' ht)
  | scalar own =>
      obtain ⟨ex', rfl, rfl⟩ := join_scalar h
      cases hb with
      | scalar own' => exact .scalar (hR own own')

end

theorem HasExtras.below? {R : List String → Extras → Prop} {d : Step} (h : s.HasExtras R)
    (hd : s.below? d = some t) : t.HasExtras R := by
  cases h with
  | object _ _ each =>
      cases d with
      | property k => exact each k t (Members.mem_of_get? hd)
      | items => cases hd
  | untyped => cases d <;> cases hd
  | array _ items =>
      cases d with
      | property k => cases hd
      | items =>
          cases hd
          exact items
  | scalar => cases d <;> cases hd

theorem extras_of_join (h : join a b = .ok r) : r.extras = joinExtras a.extras b.extras := by
  cases a with
  | object ps req ex =>
      obtain ⟨qs, req', ex', rs, rfl, rfl, -⟩ := join_object h
      rfl
  | array items ex =>
      cases items with
      | none =>
          obtain ⟨items', ex', rfl, rfl⟩ := join_untyped h
          rfl
      | some s =>
          obtain ⟨items', ex', rfl, ⟨-, rfl⟩ | ⟨s', t, -, -, rfl⟩⟩ := join_array h <;> rfl
  | scalar kind ex =>
      obtain ⟨ex', rfl, rfl⟩ := join_scalar h
      rfl

/-- **A join keeps what its first side says at the root.** -/
theorem Keeps.of_join (ha : a.HasExtras DistinctBeside) (h : join a b = .ok r) : a.Keeps r where
  typeName := (Joined.of_join h).type_left
  extras := fun k v hv => by
    rw [extras_of_join h, get?_joinExtras ha.distinct, hv, Option.some_or]
  required := by
    rw [(Joined.of_join h).required]
    exact List.filter_sublist

/-- **One step down, a join is as its first side, or joined again.** -/
theorem below?_of_join {d : Step} (h : join a b = .ok r) (hs : a.below? d = some s) :
    ∃ s', r.below? d = some s' ∧ (s' = s ∨ ∃ t, join s t = .ok s') := by
  have hview := Joined.of_join h
  cases d with
  | property k =>
      by_cases hk : k ∈ a.required ∧ k ∈ b.required
      · obtain ⟨p, q, s', hp, -, hj, hs'⟩ := hview.joint k hk.1 hk.2
        obtain rfl : p = s := Option.some.inj (hp.symm.trans hs)
        exact ⟨s', hs', Or.inr ⟨q, hj⟩⟩
      · refine ⟨s, ?_, Or.inl rfl⟩
        rw [below?, hview.single k hk, show a.property? k = some s from hs, Option.some_or]
  | items =>
      have hitems := hview.items
      rw [show a.items? = some s from hs] at hitems
      cases hb : b.items? with
      | none =>
          rw [hb] at hitems
          exact ⟨s, (Except.ok.inj hitems).symm, Or.inl rfl⟩
      | some q =>
          rw [hb] at hitems
          obtain ⟨s', hj, hrest⟩ := joinAll_cons.1 hitems
          exact ⟨s', (Except.ok.inj hrest).symm, Or.inr ⟨q, hj⟩⟩

/-- The free members of a join have distinct names at every depth, if those of its sides do. -/
theorem HasExtras.distinct_join (ha : a.HasExtras DistinctBeside) (hb : b.HasExtras DistinctBeside)
    (h : Schema.join a b = .ok r) : r.HasExtras DistinctBeside :=
  ha.join (fun _ hex => nodup_joinExtras hex) hb h

/-- **A join loses nothing of its first side, at any depth.** -/
theorem Within.of_join (ha : a.HasExtras DistinctBeside) (h : join a b = .ok r) : a.Within r := by
  intro path
  -- at each position there is what was there before, or a join of it
  induction path generalizing a b r with
  | nil =>
      rintro s ⟨⟩
      exact ⟨r, rfl, Keeps.of_join ha h⟩
  | cons d path ih =>
      intro s hs
      obtain ⟨t, ht, hs⟩ := Option.bind_eq_some_iff.1 hs
      obtain ⟨t', ht', rfl | ⟨q, hj⟩⟩ := below?_of_join h ht
      · exact ⟨s, Option.bind_eq_some_iff.2 ⟨t', ht', hs⟩, Keeps.refl s⟩
      · obtain ⟨s', hs', hkeeps⟩ := ih (ha.below? ht) hj s hs
        exact ⟨s', Option.bind_eq_some_iff.2 ⟨t', ht', hs'⟩, hkeeps⟩

end

end Schema

end ApiScribe
