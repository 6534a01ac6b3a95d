/-
**Joining once more what was joined.**

A join takes free members from both sides, the second side's first.  Joining the first side once
more therefore changes the order of free members, but nothing else: the result equals the join up to
order.  For schemas that equal themselves to begin with, this module says so at every depth.

Main definitions:

* `ApiScribe.Schema.Regular` — schemas with distinct properties and regular free members.

Main results:

* `ApiScribe.Schema.Regular.same_self` — a regular schema equals itself;
* `ApiScribe.Schema.join_left` — a join has absorbed its left side, up to order.
-/

import ApiScribe.Proofs.Data.Same
import ApiScribe.Proofs.Document.Extras
import ApiScribe.Proofs.Schema.Absorb

set_option autoImplicit false

namespace ApiScribe

namespace Schema

/-- No property is repeated, and the free members are regular, at every depth. -/
abbrev Regular (s : Schema) : Prop := s.HasExtras fun _ ex => Extras.Regular ex

theorem sameProperties_of_get? {ps qs : List (String × Schema)} (hn : (Members.keys ps).Nodup)
    (h : ∀ k p, Members.get? ps k = some p →
      ∃ q, Members.get? qs k = some q ∧ p.same q = true) : sameProperties ps qs = true := by
  induction ps with
  | nil => rfl
  | cons m ps ih =>
      obtain ⟨k, p⟩ := m
      rw [Members.keys_cons, List.nodup_cons] at hn
      obtain ⟨q, hq, hsame⟩ := h k p (by rw [Members.get?_cons, if_pos rfl])
      rw [sameProperties, hq, Bool.and_eq_true]
      refine ⟨hsame, ih hn.2 fun k' p' hp' => h k' p' ?_⟩
      have hne : k ≠ k' := fun he => hn.1 (he ▸ Members.mem_keys_of_get? hp')
      rw [Members.get?_cons, if_neg hne, hp']

/-- Properties of which some are written over with what equals them. -/
theorem sameProperties_putAll {rs : List (String × Schema)} {names : List String}
    {f : String → Schema} (hn : (Members.keys rs).Nodup)
    (hnames : ∀ k ∈ names, ∃ s, Members.get? rs k = some s ∧ (f k).same s = true)
    (hothers : ∀ k s, k ∉ names → Members.get? rs k = some s → s.same s = true) :
    (Members.putAll rs (names.map fun k => (k, f k))).length = rs.length
      ∧ sameProperties (Members.putAll rs (names.map fun k => (k, f k))) rs = true := by
  have hkeys : Members.keys (Members.putAll rs (names.map fun k => (k, f k)))
      = Members.keys rs := by
    rw [Members.keys_putAll]
    refine addAll_of_subset fun k hk => ?_
    obtain ⟨s, hs, -⟩ := hnames k (by simpa [Members.keys] using hk)
    exact Members.mem_keys_of_get? hs
  refine ⟨by simpa [Members.keys] using congrArg List.length hkeys, ?_⟩
  refine sameProperties_of_get? (hkeys ▸ hn) fun k t ht => ?_
  rw [Members.get?_putAll_map] at ht
  split at ht
  · rename_i hk
    obtain ⟨s, hs, hsame⟩ := hnames k hk
    exact ⟨s, hs, Option.some.inj ht ▸ hsame⟩
  · rename_i hk
    exact ⟨t, ht, hothers k t hk ht⟩

/-- A regular schema equals itself. -/
theorem Regular.same_self {s : Schema} (h : s.Regular) : s.same s = true := by
  induction h with
  | object names extras _ ih =>
      have hps := sameProperties_of_get? names fun k p hp =>
        ⟨p, hp, ih k p (Members.mem_of_get? hp)⟩
      simp [Schema.same, hps, extras.same_self]
  | untyped extras => simp [Schema.same, extras.same_self]
  | array extras _ ih => simp [Schema.same, ih, extras.same_self]
  | scalar extras => simp [Schema.same, extras.same_self]

/-! ### Free members -/

theorem get?_joinExtras {ex ex' : Extras} (h : (Members.keys ex).Nodup) (k : String) :
    Members.get? (joinExtras ex ex') k = (Members.get? ex k).or (Members.get? ex' k) :=
  Members.get?_putAll h k

theorem nodup_joinExtras {ex ex' : Extras} (h : (Members.keys ex').Nodup) :
    (Members.keys (joinExtras ex ex')).Nodup := by
  rw [joinExtras, Members.keys_putAll]
  exact nodup_addAll h _

theorem regular_joinExtras {ex ex' : Extras} (h : ex.Regular) (h' : ex'.Regular) :
    Extras.Regular (joinExtras ex ex') where
  names := nodup_joinExtras h'.names
  each := fun k v hv => by
    rcases Members.mem_of_mem_putAll hv with hv | hv
    · exact h'.each k v hv
    · exact h.each k v hv

/-- Free members that are on the left already are found as before. -/
theorem same_joinExtras {ex ex' : Extras} (h : ex.Regular) (h' : ex'.Regular) :
    Extras.same (joinExtras (joinExtras ex ex') ex) (joinExtras ex ex') = true := by
  have hjoin := regular_joinExtras h h'
  refine Extras.same_of_get? (regular_joinExtras hjoin h) hjoin.names fun k => ?_
  rw [get?_joinExtras hjoin.names, get?_joinExtras h.names]
  cases Members.get? ex k <;> simp

/-! ### Joins -/

/-- A join of objects has absorbed its left side, if the joins of their properties have. -/
theorem join_object_left {ps qs : List (String × Schema)} {req req' : List String}
    {ex ex' : Extras} {r : Schema} (ha : (object ps req ex).Regular)
    (hb : (object qs req' ex').Regular) (h : join (.object ps req ex) (.object qs req' ex') = .ok r)
    (hagain : ∀ k p q s, Members.get? ps k = some p → Members.get? qs k = some q →
      join p q = .ok s → ∃ t, join s p = .ok t ∧ t.same s = true) :
    ∃ r', join r (.object ps req ex) = .ok r' ∧ r'.same r = true := by
  obtain ⟨_, _, _, rs, heq, rfl, hkeys, hjoint, hother⟩ := join_object h
  cases heq
  cases ha with
  | object names extras each =>
  cases hb with
  | object names' extras' each' =>
  have hrs : (Members.keys rs).Nodup := hkeys ▸ nodup_addAll names _
  have hreq : jointRequired (jointRequired req req') req = jointRequired req req' :=
    List.filter_eq_self.2 fun k hk => by simpa using (mem_jointRequired.1 hk).1
  have hfill : Members.fill rs ps = rs := Members.fill_eq_self fun k hk => by
    rw [hkeys]
    exact mem_addAll.2 (Or.inl hk)
  -- what both sides require is joined once more
  have hchoice : ∀ k, ∃ t, k ∈ jointRequired req req' → ∃ p s, Members.get? ps k = some p
      ∧ Members.get? rs k = some s ∧ join s p = .ok t ∧ t.same s = true := by
    intro k
    by_cases hk : k ∈ jointRequired req req'
    · obtain ⟨hk₁, hk₂⟩ := mem_jointRequired.1 hk
      obtain ⟨p, q, s, hp, hq, hj, hs⟩ := hjoint k hk₁ hk₂
      obtain ⟨t, ht, hsame⟩ := hagain k p q s hp hq hj
      exact ⟨t, fun _ => ⟨p, s, hp, hs, ht, hsame⟩⟩
    · exact ⟨default, fun hmem => absurd hmem hk⟩
  choose f hf using hchoice
  have hjoined : ∀ k ∈ jointRequired req req', ∃ s, Members.get? rs k = some s
      ∧ (f k).same s = true := by
    intro k hk
    obtain ⟨p, s, -, hs, -, hts⟩ := hf k hk
    exact ⟨s, hs, hts⟩
  -- and what is not joined stands on one side as it is
  have hself : ∀ k t, k ∉ jointRequired req req' → Members.get? rs k = some t →
      t.same t = true := by
    intro k t hk ht
    rw [hother k fun hmem => hk (mem_jointRequired.2 hmem), Option.or_eq_some_iff] at ht
    rcases ht with ht | ⟨-, ht⟩
    · exact Regular.same_self (each k t (Members.mem_of_get? ht))
    · exact Regular.same_self (each' k t (Members.mem_of_get? ht))
  obtain ⟨hlength, hsame⟩ := sameProperties_putAll hrs hjoined hself
  refine ⟨_, join_object_eq_ok_iff.2 ⟨f, fun k hk => ?_, rfl⟩, ?_⟩
  · rw [hreq] at hk
    obtain ⟨p, s, hp, hs, hj, -⟩ := hf k hk
    exact ⟨s, p, hs, hp, hj⟩
  · rw [hreq, hfill]
    simp [Schema.same, hlength, hsame, same_joinExtras extras extras']

/-- **A join has absorbed its left side**, up to the order of free members. -/
theorem join_left {a b r : Schema} (ha : a.Regular) (hclosed : a.Closed) (hb : b.Regular)
    (h : join a b = .ok r) : ∃ r', join r a = .ok r' ∧ r'.same r = true := by
  induction ha generalizing b r with
  | @object ps req ex names extras each ih =>
      obtain ⟨qs, req', ex', -, rfl, -, -, -, -⟩ := join_object h
      have closed : ∀ k s, (k, s) ∈ ps → s.Closed := by
        cases hclosed
        assumption
      have regular : ∀ k s, (k, s) ∈ qs → s.Regular := by
        cases hb
        assumption
      refine join_object_left (.object names extras each) hb h fun k p q s hp hq hj => ?_
      have hpm := Members.mem_of_get? hp
      exact ih k p hpm (closed k p hpm) (regular k q (Members.mem_of_get? hq)) hj
  | untyped extras =>
      obtain ⟨items, ex', rfl, rfl⟩ := join_untyped h
      cases hb with
      | untyped extras' => exact ⟨_, rfl, by simp [Schema.same, same_joinExtras extras extras']⟩
      | array extras' items =>
          refine ⟨_, rfl, ?_⟩
          simp [Schema.same, Regular.same_self items, same_joinExtras extras extras']
  | @array s ex extras items ih =>
      have closed : s.Closed := by
        cases hclosed
        assumption
      obtain ⟨items', ex', rfl, ⟨rfl, rfl⟩ | ⟨s', t, rfl, ht, rfl⟩⟩ := join_array h
      · cases hb with
        | untyped extras' =>
            refine ⟨_, by rw [join, join_self closed]; rfl, ?_⟩
            simp [Schema.same, Regular.same_self items, same_joinExtras extras extras']
      · cases hb with
        | array extras' items' =>
            obtain ⟨t', ht', hsame⟩ := ih closed items' ht
            refine ⟨_, by rw [join, ht']; rfl, ?_⟩
            simp [Schema.same, hsame, same_joinExtras extras extras']
  | scalar extras =>
      obtain ⟨ex', rfl, rfl⟩ := join_scalar h
      cases hb with
      | scalar extras' =>
          refine ⟨_, by rw [join, if_pos rfl], ?_⟩
          simp [Schema.same, same_joinExtras extras extras']

end Schema

end ApiScribe
