/-
**Joining two runs is not running through both.**

Two runs of samples start from the same schema.  Their outcomes may be joined, or the second run may
go on from the outcome of the first.  Both ways lead to the same properties and the same required
ones, but not always to the same schemas at them: a run joins a property until a sample lacks it,
and what it joined until then is lost on the other way, where the property is no longer required by
the second outcome.  The two ways agree exactly if nothing is lost like this, at any depth.

Main definitions:

* `ApiScribe.Schema.Rejoins` — nothing that the second run joined is lost;
* `ApiScribe.Schema.Alike` — equality up to order, whichever side is looked through.

Main results:

* `ApiScribe.Schema.eq_of_rejoins` — if nothing is lost, the two ways agree;
* `ApiScribe.Schema.rejoins_of_alike` — if they agree up to order, nothing is lost.
-/

import ApiScribe.Proofs.Schema.Outline
import ApiScribe.Proofs.Schema.Regular

set_option autoImplicit false

namespace ApiScribe.Schema

/-! ### Equality up to order -/

/-- Two schemas are equal up to order, looked through from the one side or from the other. -/
def Alike (a b : Schema) : Prop := a.same b = true ∨ b.same a = true

theorem sameProperties_of_mem {ps qs : List (String × Schema)} (h : sameProperties ps qs = true)
    {k : String} {p : Schema} (hp : (k, p) ∈ ps) :
    ∃ q, Members.get? qs k = some q ∧ p.same q = true := by
  induction ps with
  | nil => cases hp
  | cons m ps ih =>
      obtain ⟨k', p'⟩ := m
      rw [sameProperties, Bool.and_eq_true] at h
      rcases List.mem_cons.1 hp with he | hp
      · cases he
        cases hq : Members.get? qs k with
        | none => simp [hq] at h
        | some q => exact ⟨q, rfl, by simpa [hq] using h.1⟩
      · exact ih h.2 hp

/-- What can be seen of schemas that are equal up to order. -/
theorem outline_of_same {a b : Schema} (h : a.same b = true) :
    a.required = b.required ∧ a.names.length = b.names.length
      ∧ (∀ k p, a.property? k = some p → ∃ q, b.property? k = some q ∧ p.same q = true)
      ∧ (∀ p, a.items? = some p → ∃ q, b.items? = some q ∧ p.same q = true)
      ∧ (a.items? = none → b.items? = none) := by
  cases a with
  | object ps req ex =>
      cases b with
      | object qs req' ex' =>
          simp only [Schema.same, Bool.and_eq_true, beq_iff_eq] at h
          obtain ⟨⟨⟨hlength, hps⟩, hreq⟩, -⟩ := h
          refine ⟨hreq, by simpa [names, Members.keys] using hlength, fun k p hp => ?_, ?_, ?_⟩
          · exact sameProperties_of_mem hps (Members.mem_of_get? hp)
          · intro p hp
            cases hp
          · exact fun _ => rfl
      | array items ex' => simp [Schema.same] at h
      | scalar kind ex' => simp [Schema.same] at h
  | array items ex =>
      cases b with
      | object qs req' ex' => cases items <;> simp [Schema.same] at h
      | scalar kind ex' => cases items <;> simp [Schema.same] at h
      | array items' ex' =>
          refine ⟨rfl, rfl, fun k p hp => ?_, fun p hp => ?_, fun hn => ?_⟩
          · cases hp
          · cases hp
            cases items' with
            | none => simp [Schema.same] at h
            | some q =>
                rw [Schema.same, Bool.and_eq_true] at h
                exact ⟨q, rfl, h.1⟩
          · cases hn
            cases items' with
            | none => rfl
            | some q => simp [Schema.same] at h
  | scalar kind ex =>
      cases b with
      | object qs req' ex' => simp [Schema.same] at h
      | array items ex' => cases items <;> simp [Schema.same] at h
      | scalar kind' ex' =>
          refine ⟨rfl, rfl, fun k p hp => ?_, fun p hp => ?_, fun _ => rfl⟩
          · cases hp
          · cases hp

theorem Plain.regular {s : Schema} (h : s.Plain) : s.Regular := by
  induction h with
  | object nodup _ _ ih => exact .object nodup Extras.regular_nil ih
  | untyped => exact .untyped Extras.regular_nil
  | array _ ih => exact .array Extras.regular_nil ih
  | scalar kind => exact .scalar Extras.regular_nil

theorem Alike.symm {a b : Schema} (h : Alike a b) : Alike b a := Or.symm h

theorem alike_self {s : Schema} (h : s.Plain) : Alike s s := Or.inl h.regular.same_self

section

variable {a b : Schema}

theorem Alike.required (h : Alike a b) : a.required = b.required := by
  rcases h with h | h
  · exact (outline_of_same h).1
  · exact (outline_of_same h).1.symm

theorem Alike.length_names (h : Alike a b) : a.names.length = b.names.length := by
  rcases h with h | h
  · exact (outline_of_same h).2.1
  · exact (outline_of_same h).2.1.symm

theorem Alike.property (h : Alike a b) {k : String} {p q : Schema} (hp : a.property? k = some p)
    (hq : b.property? k = some q) : Alike p q := by
  rcases h with h | h
  · obtain ⟨q', hq', hs⟩ := (outline_of_same h).2.2.1 k p hp
    exact Or.inl (Option.some.inj (hq'.symm.trans hq) ▸ hs)
  · obtain ⟨p', hp', hs⟩ := (outline_of_same h).2.2.1 k q hq
    exact Or.inr (Option.some.inj (hp'.symm.trans hp) ▸ hs)

theorem Alike.item (h : Alike a b) {p : Schema} (hp : a.items? = some p) :
    ∃ q, b.items? = some q ∧ Alike p q := by
  rcases h with h | h
  · obtain ⟨q, hq, hs⟩ := (outline_of_same h).2.2.2.1 p hp
    exact ⟨q, hq, Or.inl hs⟩
  · cases hq : b.items? with
    | none =>
        rw [(outline_of_same h).2.2.2.2 hq] at hp
        cases hp
    | some q =>
        obtain ⟨p', hp', hs⟩ := (outline_of_same h).2.2.2.1 q hq
        exact ⟨q, rfl, Or.inr (Option.some.inj (hp'.symm.trans hp) ▸ hs)⟩

end

/-- A run that leaves a schema as it was up to order leaves it as it was. -/
theorem eq_of_alike_joinAll {a r : Schema} {ss : List Schema} (ha : a.Plain)
    (hss : ∀ s ∈ ss, s.Inferred) (h : joinAll (some a) ss = .ok (some r)) (halike : Alike a r) :
    r = a := by
  induction a using induct_outline generalizing ss r with
  | step a ihp ihi =>
      have hbefore : ∀ b, some a = some b → b.Plain := fun b hb => Option.some.inj hb ▸ ha
      have hnames : r.names = a.names := by
        obtain ⟨more, hmore⟩ := prefix_addAll a.names (ss.flatMap names)
        have hlength := halike.length_names
        rw [names_joinAll h, ← hmore, List.length_append] at hlength
        have hnil : more = [] := List.length_eq_zero_iff.1 (by omega)
        rw [names_joinAll h, ← hmore, hnil, List.append_nil]
      refine ext_outline (Plain.joinAll hbefore hss h) ha (typeName_joinAll h) hnames
        halike.required.symm (fun k hk => ?_) ?_
      · rw [hnames] at hk
        obtain ⟨p, hp⟩ := mem_names_iff.1 hk
        by_cases hreq : k ∈ a.required
        · obtain ⟨q, hq, hrun⟩ := property?_joinAll_of_mem hss h hreq hp
          rw [hq, hp, ihp k p hp (ha.property hp) (inferred_leading hss) hrun
            (halike.property hp hq)]
        · rw [property?_joinAll_of_not_mem h hreq, hp]
          rfl
      · have hitems := items?_joinAll h
        rw [Option.bind_some] at hitems
        cases hi : a.items? with
        | none =>
            cases hr : r.items? with
            | none => rfl
            | some q =>
                obtain ⟨p, hp, -⟩ := halike.symm.item hr
                rw [hi] at hp
                cases hp
        | some p =>
            obtain ⟨q, hq, hpq⟩ := halike.item hi
            rw [hi, hq] at hitems
            rw [hq, ihi p hi (ha.item hi) (inferred_items hss) hitems hpq]

/-! ### Two ways -/

/-- Nothing that the second run joined is lost when its outcome is joined with `first`, the outcome
of the first run: `ss` are the samples of the second run, and `before` is the schema that both
started from, if there was one. -/
inductive Rejoins : Option Schema → Schema → List Schema → Prop
  /-- One step inside, nothing is lost. -/
  | intro {before : Option Schema} {first : Schema} {ss : List Schema}
      (kept : ∀ k p, k ∈ first.required → first.property? k = some p → (∀ s ∈ ss, k ∈ s.names) →
        Rejoins (before.bind (·.property? k)) p (leading k ss))
      (dropped : ∀ k p, k ∈ first.required → first.property? k = some p →
        (∃ s ∈ ss, k ∉ s.names) → joinAll (some p) (leading k ss) = .ok (some p))
      (late : before = none → ∀ k q qs, k ∉ first.names → leading k ss = q :: qs →
        joinAll (some q) qs = .ok (some q))
      (items : ∀ p, first.items? = some p → Rejoins (before.bind items?) p (ss.filterMap items?)) :
      Rejoins before first ss

/-- A run without samples from nothing has nothing to lose. -/
theorem rejoins_nil (first : Schema) : Rejoins none first [] := by
  induction first using induct_outline with
  | step first ihp ihi =>
      refine .intro (fun k p _ hp _ => ihp k p hp) ?_ ?_ ihi
      · rintro k p - - ⟨s, hs, -⟩
        cases hs
      · intro _ k q qs _ hq
        cases hq

section

variable {before : Option Schema} {as ss : List Schema} {first second union single : Schema}

/-- A join of the outcomes of two runs, and one run through both. -/
structure TwoWays (before : Option Schema) (as ss : List Schema)
    (first second union single : Schema) : Prop where
  /-- What was there before is plain. -/
  plain : ∀ b, before = some b → b.Plain
  /-- The samples of the first run. -/
  inferred_left : ∀ s ∈ as, s.Inferred
  /-- The samples of the second run. -/
  inferred_right : ∀ s ∈ ss, s.Inferred
  /-- The first run. -/
  run_left : joinAll before as = .ok (some first)
  /-- The second run. -/
  run_right : joinAll before ss = .ok (some second)
  /-- The join of the two. -/
  joined : join first second = .ok union
  /-- The second run from the outcome of the first. -/
  run_both : joinAll (some first) ss = .ok (some single)

namespace TwoWays

variable (h : TwoWays before as ss first second union single)

include h

theorem plain_first : first.Plain := Plain.joinAll h.plain h.inferred_left h.run_left

theorem plain_second : second.Plain := Plain.joinAll h.plain h.inferred_right h.run_right

theorem plain_union : union.Plain := h.plain_first.join h.plain_second h.joined

theorem plain_single : single.Plain :=
  Plain.joinAll (fun _ hb => Option.some.inj hb ▸ h.plain_first) h.inferred_right h.run_both

/-- The two ways lead to the same properties. -/
theorem names_eq : union.names = single.names := by
  rw [(Joined.of_join h.joined).names, names_joinAll h.run_both]
  exact addAll_names_joinAll (fun b hb k hk => mem_names_of_before h.run_left hb hk) h.run_right

/-- A property that the first outcome requires is required by the second one if all samples of the
second run have it. -/
theorem mem_required_second {k : String} (hk : k ∈ first.required) :
    k ∈ second.required ↔ ∀ s ∈ ss, k ∈ s.names := by
  rw [mem_required_of_run h.inferred_right h.run_right]
  have hopen := ((mem_required_of_run h.inferred_left h.run_left).1 hk).1
  exact ⟨fun hb => hb.2, fun hall => ⟨hopen, hall⟩⟩

/-- The two ways lead to the same required properties. -/
theorem required_eq : union.required = single.required := by
  rw [(Joined.of_join h.joined).required, required_joinAll h.inferred_right h.run_both,
    jointRequired]
  refine List.filter_congr fun k hk => ?_
  have hmem := h.mem_required_second hk
  rw [Bool.eq_iff_iff]
  simpa using hmem

/-- At a property that both outcomes require the two ways are two ways again. -/
theorem property {k : String} {p : Schema} (hk : k ∈ first.required)
    (hp : first.property? k = some p) (hall : ∀ s ∈ ss, k ∈ s.names) :
    ∃ q u f, union.property? k = some u ∧ single.property? k = some f
      ∧ TwoWays (before.bind (·.property? k)) (leading k as) (leading k ss) p q u f := by
  have hk' := (h.mem_required_second hk).2 hall
  obtain ⟨p', q, u, hp', hq, hj, hu⟩ := (Joined.of_join h.joined).joint k hk hk'
  obtain rfl : p' = p := Option.some.inj (hp'.symm.trans hp)
  obtain ⟨p'', hp'', hleft⟩ := property?_of_run h.plain h.inferred_left h.run_left hk
  obtain rfl : p'' = p' := Option.some.inj (hp''.symm.trans hp)
  obtain ⟨q', hq', hright⟩ := property?_of_run h.plain h.inferred_right h.run_right hk'
  obtain rfl : q' = q := Option.some.inj (hq'.symm.trans hq)
  obtain ⟨f, hf, hboth⟩ := property?_joinAll_of_mem h.inferred_right h.run_both hk hp
  refine ⟨q', u, f, hu, hf, ?_, inferred_leading h.inferred_left,
    inferred_leading h.inferred_right, hleft, hright, hj, hboth⟩
  intro b hb
  obtain ⟨c, hc, hcb⟩ := Option.bind_eq_some_iff.1 hb
  exact (h.plain c hc).property hcb

/-- A property that the second outcome no longer requires is joined on the one way only. -/
theorem property_dropped {k : String} {p : Schema} (hk : k ∈ first.required)
    (hp : first.property? k = some p) (hmiss : ∃ s ∈ ss, k ∉ s.names) :
    union.property? k = some p
      ∧ ∃ f, single.property? k = some f ∧ joinAll (some p) (leading k ss) = .ok (some f) := by
  obtain ⟨f, hf, hboth⟩ := property?_joinAll_of_mem h.inferred_right h.run_both hk hp
  refine ⟨?_, f, hf, hboth⟩
  have hk' : k ∉ second.required := by
    intro hmem
    obtain ⟨s, hs, hks⟩ := hmiss
    exact hks ((h.mem_required_second hk).1 hmem s hs)
  rw [(Joined.of_join h.joined).single k fun hb => hk' hb.2, hp]
  rfl

/-- A property that the first outcome has but does not require stays as it is on both ways. -/
theorem property_fixed {k : String} {p : Schema} (hk : k ∉ first.required)
    (hp : first.property? k = some p) :
    union.property? k = some p ∧ single.property? k = some p := by
  rw [(Joined.of_join h.joined).single k fun hb => hk hb.1,
    property?_joinAll_of_not_mem h.run_both hk, hp]
  exact ⟨rfl, rfl⟩

/-- A property that is new with the second run is as it was first seen on the one way.  On the other
way it is so too, unless the run started from nothing and joined it while it was there. -/
theorem property_new {k : String} (hk : k ∉ first.names) :
    union.property? k = single.property? k ∧ (before = none → leading k ss = []) ∨
      before = none ∧ ∃ q qs u, leading k ss = q :: qs ∧ single.property? k = some q
        ∧ union.property? k = some u ∧ joinAll (some q) qs = .ok (some u) := by
  have hreq : k ∉ first.required := fun hmem => hk (h.plain_first.mem_names hmem)
  have hnone : first.property? k = none := property?_eq_none_iff.2 hk
  have hunion : union.property? k = second.property? k := by
    rw [(Joined.of_join h.joined).single k fun hb => hreq hb.1, hnone]
    rfl
  have hsingle : single.property? k = ss.findSome? (·.property? k) := by
    rw [property?_joinAll_of_not_mem h.run_both hreq, hnone]
    rfl
  have hright := h.run_right
  have hss := h.inferred_right
  cases hbefore : before with
  | some b =>
      -- the schema before lacks the property too, so that the second run never requires it
      refine Or.inl ⟨?_, fun hn => by cases hn⟩
      rw [hbefore] at hright
      have hkb : k ∉ b.names := fun hmem => hk (mem_names_of_before h.run_left hbefore hmem)
      have hkreq : k ∉ b.required := fun hmem => hkb ((h.plain b hbefore).mem_names hmem)
      rw [hunion, hsingle, property?_joinAll_of_not_mem hright hkreq,
        property?_eq_none_iff.2 hkb]
      rfl
  | none =>
      rw [hbefore] at hright
      cases ss with
      | nil => cases hright
      | cons s ss =>
          -- the second run starts with its first sample, and requires what this one has
          have hrest := joinAll_none_cons.1 hright
          have hsreq : k ∈ s.required ↔ k ∈ s.names := (hss s List.mem_cons_self).mem_required
          cases hs : s.property? k with
          | none =>
              have hks : k ∉ s.required := fun hmem =>
                property?_eq_none_iff.1 hs (hsreq.1 hmem)
              refine Or.inl ⟨?_, fun _ => leading_cons_none hs ss⟩
              rw [hunion, hsingle, property?_joinAll_of_not_mem hrest hks, hs,
                List.findSome?_cons, hs]
              rfl
          | some q =>
              have hks : k ∈ s.required := hsreq.2 (mem_names_iff.2 ⟨q, hs⟩)
              obtain ⟨u, hu, hrun⟩ := property?_joinAll_of_mem
                (fun t ht => hss t (List.mem_cons_of_mem s ht)) hrest hks hs
              refine Or.inr ⟨rfl, q, leading k ss, u, leading_cons_some hs ss, ?_, ?_, hrun⟩
              · rw [hsingle, List.findSome?_cons, hs]
              · rw [hunion, hu]

/-- The items of the first outcome, if it knows any: they are items on both ways, and if the second
run knows any, they are joined in two ways. -/
theorem item {p : Schema} (hp : first.items? = some p) :
    (union.items? = some p ∧ single.items? = some p
        ∧ before.bind items? = none ∧ ss.filterMap items? = []) ∨
      ∃ q u f, union.items? = some u ∧ single.items? = some f
        ∧ TwoWays (before.bind items?) (as.filterMap items?) (ss.filterMap items?) p q u f := by
  have hleft := items?_joinAll h.run_left
  have hright := items?_joinAll h.run_right
  have hboth := items?_joinAll h.run_both
  have hjoined := (Joined.of_join h.joined).items
  rw [hp] at hleft hjoined
  rw [Option.bind_some, hp] at hboth
  cases hq : second.items? with
  | none =>
      rw [hq] at hright hjoined
      obtain ⟨hbefore, hss⟩ := eq_nil_of_joinAll hright
      rw [hss] at hboth
      exact Or.inl ⟨(Except.ok.inj hjoined).symm, (Except.ok.inj hboth).symm, hbefore, hss⟩
  | some q =>
      rw [hq] at hright hjoined
      obtain ⟨u, hu, hrest⟩ := joinAll_cons.1 hjoined
      obtain ⟨f, hf⟩ := joinAll_some hboth
      rw [hf] at hboth
      refine Or.inr ⟨q, u, f, (Except.ok.inj hrest).symm, hf, ?_, inferred_items h.inferred_left,
        inferred_items h.inferred_right, hleft, hright, hu, hboth⟩
      intro b hb
      obtain ⟨c, hc, hcb⟩ := Option.bind_eq_some_iff.1 hb
      exact (h.plain c hc).item hcb

/-- Without items in the first outcome both ways lead to those of the second run. -/
theorem items_eq_of_none (hp : first.items? = none) : union.items? = single.items? := by
  have hleft := items?_joinAll h.run_left
  have hright := items?_joinAll h.run_right
  have hboth := items?_joinAll h.run_both
  have hjoined := (Joined.of_join h.joined).items
  rw [hp] at hleft hjoined
  rw [Option.bind_some, hp] at hboth
  rw [(eq_nil_of_joinAll hleft).1, hboth, Except.ok.injEq] at hright
  cases hq : second.items? with
  | none =>
      rw [hq] at hjoined hright
      rw [hright, ← Except.ok.inj hjoined]
  | some q =>
      rw [hq] at hjoined hright
      obtain ⟨u, hu, hrest⟩ := joinAll_cons.1 hjoined
      cases hu
      rw [hright, ← Except.ok.inj hrest]

end TwoWays

/-- **If nothing is lost, the two ways agree.** -/
theorem eq_of_rejoins (h : TwoWays before as ss first second union single)
    (hr : Rejoins before first ss) : union = single := by
  induction first using induct_outline generalizing before as ss second union single with
  | step first ihp ihi =>
      obtain ⟨kept, dropped, late, items⟩ := hr
      refine ext_outline h.plain_union h.plain_single ?_ h.names_eq h.required_eq (fun k _ => ?_) ?_
      · rw [(Joined.of_join h.joined).type_left, typeName_joinAll h.run_both]
      · by_cases hk : k ∈ first.names
        · obtain ⟨p, hp⟩ := mem_names_iff.1 hk
          by_cases hreq : k ∈ first.required
          · by_cases hall : ∀ s ∈ ss, k ∈ s.names
            · obtain ⟨q, u, f, hu, hf, hways⟩ := h.property hreq hp hall
              rw [hu, hf, ihp k p hp hways (kept k p hreq hp hall)]
            · -- from the first sample without it on, neither way joins the property
              have hmiss : ∃ s ∈ ss, k ∉ s.names := by
                simpa using hall
              obtain ⟨hu, f, hf, hrun⟩ := h.property_dropped hreq hp hmiss
              rw [dropped k p hreq hp hmiss, Except.ok.injEq] at hrun
              rw [hu, hf, hrun]
          · obtain ⟨hu, hf⟩ := h.property_fixed hreq hp
            rw [hu, hf]
        · rcases h.property_new hk with ⟨heq, -⟩ | ⟨hbefore, q, qs, u, hlead, hf, hu, hrun⟩
          · exact heq
          · rw [late hbefore k q qs hk hlead, Except.ok.injEq] at hrun
            rw [hu, hf, hrun]
      · cases hp : first.items? with
        | none => exact h.items_eq_of_none hp
        | some p =>
            rcases h.item hp with ⟨hu, hf, -, -⟩ | ⟨q, u, f, hu, hf, hways⟩
            · rw [hu, hf]
            · rw [hu, hf, ihi p hp hways (items p hp)]

/-- **If the two ways agree up to order, nothing is lost.** -/
theorem rejoins_of_alike (h : TwoWays before as ss first second union single)
    (halike : Alike union single) : Rejoins before first ss := by
  induction first using induct_outline generalizing before as ss second union single with
  | step first ihp ihi =>
      refine .intro (fun k p hk hp hall => ?_) (fun k p hk hp hmiss => ?_)
        (fun hbefore k q qs hk hlead => ?_) (fun p hp => ?_)
      · obtain ⟨q, u, f, hu, hf, hways⟩ := h.property hk hp hall
        exact ihp k p hp hways (halike.property hu hf)
      · obtain ⟨hu, f, hf, hrun⟩ := h.property_dropped hk hp hmiss
        have hlead := inferred_leading (k := k) h.inferred_right
        rw [hrun, eq_of_alike_joinAll (h.plain_first.property hp) hlead hrun
          (halike.property hu hf)]
      · rcases h.property_new hk with ⟨-, hnil⟩ | ⟨-, q', qs', u, hlead', hf, hu, hrun⟩
        · rw [hnil hbefore] at hlead
          cases hlead
        · rw [hlead', List.cons.injEq] at hlead
          obtain ⟨rfl, rfl⟩ := hlead
          have hmem := inferred_leading (k := k) h.inferred_right
          rw [hlead'] at hmem
          rw [hrun, eq_of_alike_joinAll (hmem q' List.mem_cons_self).plain
            (fun s hs => hmem s (List.mem_cons_of_mem q' hs)) hrun (halike.property hu hf).symm]
      · rcases h.item hp with ⟨-, -, hbefore, hss⟩ | ⟨q, u, f, hu, hf, hways⟩
        · rw [hbefore, hss]
          exact rejoins_nil p
        · obtain ⟨f', hf', halike'⟩ := halike.item hu
          obtain rfl : f' = f := Option.some.inj (hf'.symm.trans hf)
          exact ihi p hp hways halike'

end

end ApiScribe.Schema
