/-
**What a schema covers.**

A schema covers a sample if it describes everything that was seen of it.  The schema of a sample
covers it, and a join covers whatever its left side covers; but it need not cover what is new.  A
property that is no longer required keeps the schema under which it was first seen, so that a later
sample is covered only if that schema covers its member as it is.  The samples for which this holds
are those that a schema *admits*, and with this condition on each step the schema of a run covers
the whole run.

Main definitions:

* `ApiScribe.Schema.Covers` — a schema describes a sample;
* `ApiScribe.Schema.Admits` — what is fixed in a schema describes a sample.

Main results:

* `ApiScribe.Schema.covers_ofSample` — the schema of a sample covers it;
* `ApiScribe.Schema.Covers.join_left` — a join covers what its left side covers;
* `ApiScribe.Schema.Admits.covers_join` — a join covers the sample on its right if it is admitted;
* `ApiScribe.Schema.covers_run_iff` — the schema of a run covers the run exactly if the members of the
  samples are named by texts and every sample is admitted when it is joined.
-/

import ApiScribe.Proofs.Schema.Sample

set_option autoImplicit false

namespace ApiScribe

namespace Schema

/-- A schema describes a sample: an object has all required members and no unknown ones, an array
describes the first item, and a scalar is of the kind of the atom. -/
inductive Covers : Schema → Value → Prop
  /-- An object. -/
  | object {ps : List (String × Schema)} {req : List String} {ex : Extras}
      {ms : List (Atom × Value)}
      (required : ∀ k ∈ req, ∃ v, (.text k, v) ∈ ms ∧ v.isNull = false)
      (known : ∀ a v, (a, v) ∈ ms → v.isNull = false → ∃ k ∈ Members.keys ps, a = .text k)
      (each : ∀ k v s, (.text k, v) ∈ ms → v.isNull = false → Members.get? ps k = some s →
        Covers s v) : Covers (.object ps req ex) (.map ms)
  /-- An array without items. -/
  | empty {items : Option Schema} {ex : Extras} {v : Value} (items_eq : v.items? = some []) :
      Covers (.array items ex) v
  /-- An array with items. -/
  | array {s : Schema} {ex : Extras} {v w : Value} {ws : List Value}
      (items_eq : v.items? = some (w :: ws)) (first : Covers s w) : Covers (.array (some s) ex) v
  /-- A scalar. -/
  | scalar {kind : ScalarKind} {ex : Extras} {a : Atom} (kind_eq : a.scalarKind? = some kind) :
      Covers (.scalar kind ex) (.atom a)

/-- What is fixed in a schema describes a sample: every member that is a property but not a required
one is covered, and the required ones are admitted in turn. -/
inductive Admits : Schema → Value → Prop
  /-- An object. -/
  | object {ps : List (String × Schema)} {req : List String} {ex : Extras}
      {ms : List (Atom × Value)}
      (open_ : ∀ k v s, (.text k, v) ∈ ms → v.isNull = false → Members.get? ps k = some s →
        k ∈ req → Admits s v)
      (fixed : ∀ k v s, (.text k, v) ∈ ms → v.isNull = false → Members.get? ps k = some s →
        k ∉ req → Covers s v) : Admits (.object ps req ex) (.map ms)
  /-- An array of unknown items, or one without items. -/
  | empty {items : Option Schema} {ex : Extras} {v : Value} {xs : List Value}
      (items_eq : v.items? = some xs) (unknown : items = none ∨ xs = []) :
      Admits (.array items ex) v
  /-- An array with items. -/
  | array {s : Schema} {ex : Extras} {v w : Value} {ws : List Value}
      (items_eq : v.items? = some (w :: ws)) (first : Admits s w) : Admits (.array (some s) ex) v
  /-- A scalar. -/
  | scalar {kind : ScalarKind} {ex : Extras} {a : Atom} (kind_eq : a.scalarKind? = some kind) :
      Admits (.scalar kind ex) (.atom a)

/-! ### One sample -/

/-- The members of a mapping with distinct texts as names are the properties of its schema. -/
theorem get?_ofList_of_mem {ms : List (Atom × Value)} {ps : Members String Schema}
    (keyed : Value.Keyed (.map ms)) (h : MakesProperties ms ps) {k : String} {v : Value}
    (hm : (.text k, v) ∈ ms) (hv : v.isNull = false) :
    ∃ s, Members.get? (Members.ofList ps) k = some s ∧ ofSample v = .ok s := by
  cases keyed with
  | sequence items => simp [Value.items?] at items
  | map nodup texts _ =>
      -- a member that makes a property named `k` has the text `k` for its name
      have hname : ∀ a w s, (a, w) ∈ ms → w.isNull = false →
          MakesProperty (a, w) (k, s) → a = .text k := by
        intro a w s hw hwn hmake
        obtain ⟨k', rfl⟩ := texts a w hw hwn
        exact congrArg Atom.text (Checked.valid.inj hmake.1)
      obtain ⟨p, hp, hmake⟩ := h.exists_mem hm hv
      have hkey : k ∈ (Members.ofList ps).keys := by
        rw [Members.mem_keys_ofList, Checked.valid.inj hmake.1]
        exact List.mem_map_of_mem hp
      obtain ⟨t, ht⟩ := Members.mem_keys_iff.1 hkey
      refine ⟨t, ht, ?_⟩
      have hmem := Members.mem_of_mem_ofList (Members.mem_of_get? ht)
      obtain ⟨a, w, hw, hwn, ha, hws⟩ := h.mem hmem
      obtain rfl := hname a w t hw hwn ⟨ha, hws⟩
      have hvw := Members.get?_of_mem nodup hm
      rw [Members.get?_of_mem nodup hw] at hvw
      exact Option.some.inj hvw ▸ hws

theorem exists_mem_keys_ofList {ms : List (Atom × Value)} {ps : Members String Schema}
    (keyed : Value.Keyed (.map ms)) (h : MakesProperties ms ps) {a : Atom} {v : Value}
    (hm : (a, v) ∈ ms) (hv : v.isNull = false) :
    ∃ k ∈ (Members.ofList ps).keys, a = .text k := by
  obtain ⟨-, k, rfl⟩ := keyed.member hm hv
  obtain ⟨s, hs, -⟩ := get?_ofList_of_mem keyed h hm hv
  exact ⟨k, Members.mem_keys_of_get? hs, rfl⟩

/-- The properties of a mapping's schema are members that are present. -/
theorem mem_of_mem_keys_ofList {ms : List (Atom × Value)} {ps : Members String Schema}
    (keyed : Value.Keyed (.map ms)) (h : MakesProperties ms ps) {k : String}
    (hk : k ∈ (Members.ofList ps).keys) : ∃ v, (.text k, v) ∈ ms ∧ v.isNull = false := by
  obtain ⟨s, hs⟩ := Members.mem_keys_iff.1 hk
  have hmem := Members.mem_of_mem_ofList (Members.mem_of_get? hs)
  obtain ⟨a, v, hm, hv, ha, -⟩ := h.mem hmem
  obtain ⟨-, k', rfl⟩ := keyed.member hm hv
  cases Checked.valid.inj ha
  exact ⟨v, hm, hv⟩

/-- The schema of a sample covers it. -/
theorem covers_ofSample {v : Value} {s : Schema} (keyed : v.Keyed) (h : ofSample v = .ok s) :
    s.Covers v := by
  induction keyed generalizing s with
  | atom a =>
      rw [ofSample] at h
      split at h
      · rename_i kind hk
        cases h
        exact .scalar hk
      · cases h
  | @sequence v xs items _ ih =>
      cases xs with
      | nil =>
          rw [ofSample_of_items_nil items, Except.ok.injEq] at h
          exact h ▸ .empty items
      | cons w ws =>
          rw [ofSample_of_items_cons items] at h
          obtain ⟨t, hw, rfl⟩ := map_eq_ok_iff.1 h
          exact .array items (ih w ws rfl hw)
  | @map ms nodup texts each ih =>
      have keyed : Value.Keyed (.map ms) := .map nodup texts each
      obtain ⟨shapes, hm, rfl⟩ := ofSample_map_eq_ok_iff.1 h
      refine .object (fun k hk => mem_of_mem_keys_ofList keyed hm (Members.mem_keys_ofList.2 hk))
        (fun a v ha hv => exists_mem_keys_ofList keyed hm ha hv) ?_
      intro k v s ha hv hs
      obtain ⟨t, ht, hvt⟩ := get?_ofList_of_mem keyed hm ha hv
      have hst : t = s := Option.some.inj (ht.symm.trans hs)
      exact ih (.text k) v ha hv (hst ▸ hvt)

/-- Only samples whose members are named by texts are covered. -/
theorem Covers.keyed {a : Schema} {v : Value} (h : a.Covers v) (proper : v.Proper) : v.Keyed := by
  induction h with
  | @object ps req ex ms required known each ih =>
      obtain ⟨nodup, hproper⟩ := proper.member
      refine .map nodup (fun a v hm hv => (known a v hm hv).imp fun k hk => hk.2) fun a v hm hv => ?_
      obtain ⟨k, hk, rfl⟩ := known a v hm hv
      obtain ⟨s, hs⟩ := Members.mem_keys_iff.1 hk
      exact ih k v s hm hv hs (hproper _ v hm hv)
  | empty items_eq => exact .sequence items_eq nofun
  | array items_eq first ih =>
      refine .sequence items_eq fun w ws heq => ?_
      cases heq
      exact ih (proper.first items_eq)
  | scalar kind_eq => exact .atom _

/-! ### One join -/

/-- A join of arrays covers the sequences without items. -/
theorem covers_of_join_array {items : Option Schema} {ex : Extras} {b r : Schema} {v : Value}
    (h : join (.array items ex) b = .ok r) (items_eq : v.items? = some []) : r.Covers v := by
  cases items with
  | none =>
      obtain ⟨items, ex', rfl, rfl⟩ := join_untyped h
      exact .empty items_eq
  | some s =>
      obtain ⟨items, ex', rfl, ⟨-, rfl⟩ | ⟨s', t, -, -, rfl⟩⟩ := join_array h
      · exact .empty items_eq
      · exact .empty items_eq

/-- A join covers what its left side covers. -/
theorem Covers.join_left {a : Schema} {v : Value} (hc : a.Covers v) {b r : Schema}
    (h : join a b = .ok r) : r.Covers v := by
  induction hc generalizing b r with
  | @object ps req ex ms required known each ih =>
      obtain ⟨qs, req', ex', rs, rfl, rfl, hkeys, hjoint, hrest⟩ := join_object h
      refine .object (fun k hk => required k (mem_jointRequired.1 hk).1) ?_ ?_
      · intro b v hb hv
        obtain ⟨k, hk, hbk⟩ := known b v hb hv
        exact ⟨k, hkeys ▸ mem_addAll.2 (Or.inl hk), hbk⟩
      · intro k v s hm hv hs
        obtain ⟨k', hk', he⟩ := known (.text k) v hm hv
        cases he
        obtain ⟨p, hp⟩ := Members.mem_keys_iff.1 hk'
        by_cases hk : k ∈ req ∧ k ∈ req'
        · obtain ⟨p', q, t, hp', -, hj, ht⟩ := hjoint k hk.1 hk.2
          have hst : t = s := Option.some.inj (ht.symm.trans hs)
          exact ih k v p' hm hv hp' (hst ▸ hj)
        · have hps : p = s := by
            rw [hrest k hk, hp] at hs
            exact Option.some.inj hs
          exact hps ▸ each k v p hm hv hp
  | empty items_eq => exact covers_of_join_array h items_eq
  | @array s ex v w ws items_eq first ih =>
      obtain ⟨items, ex', rfl, ⟨-, rfl⟩ | ⟨s', t, -, ht, rfl⟩⟩ := join_array h
      · exact .array items_eq first
      · exact .array items_eq (ih ht)
  | scalar kind_eq =>
      obtain ⟨ex', rfl, rfl⟩ := join_scalar h
      exact .scalar kind_eq

/-- What a schema covers is admitted by it. -/
theorem Covers.admits {a : Schema} {v : Value} (h : a.Covers v) : a.Admits v := by
  induction h with
  | object required known each ih =>
      exact .object (fun k v s hm hv hs _ => ih k v s hm hv hs)
        (fun k v s hm hv hs _ => each k v s hm hv hs)
  | empty items_eq => exact .empty items_eq (Or.inr rfl)
  | array items_eq first ih => exact .array items_eq ih
  | scalar kind_eq => exact .scalar kind_eq

/-- What a join admits was admitted by its left side: nothing that is fixed changes again. -/
theorem Admits.of_join {a b r : Schema} {v : Value} (h : join a b = .ok r) (hr : r.Admits v) :
    a.Admits v := by
  induction a using induct generalizing b r v with
  | object ps req ex ih =>
      obtain ⟨qs, req', ex', rs, rfl, rfl, -, hjoint, hrest⟩ := join_object h
      cases hr with
      | @object _ _ _ ms open_ fixed =>
          -- a property that is required on the left only is fixed by the join, as it was
          have unjoined : ∀ k v s, (.text k, v) ∈ ms → v.isNull = false →
              Members.get? ps k = some s → ¬(k ∈ req ∧ k ∈ req') → Covers s v := by
            intro k v s hm hv hs hk
            have hget : Members.get? rs k = some s := by rw [hrest k hk, hs]; rfl
            exact fixed k v s hm hv hget fun hmem => hk (mem_jointRequired.1 hmem)
          refine .object ?_ ?_
          · intro k v s hm hv hs hk
            by_cases hk' : k ∈ req'
            · obtain ⟨p, q, t, hp, -, hj, ht⟩ := hjoint k hk hk'
              have hsp : p = s := Option.some.inj (hp.symm.trans hs)
              subst hsp
              exact ih k p (Members.mem_of_get? hp) hj
                (open_ k v t hm hv ht (mem_jointRequired.2 ⟨hk, hk'⟩))
            · exact (unjoined k v s hm hv hs fun hb => hk' hb.2).admits
          · intro k v s hm hv hs hk
            exact unjoined k v s hm hv hs fun hb => hk hb.1
  | untyped ex =>
      obtain ⟨items, ex', rfl, rfl⟩ := join_untyped h
      cases hr with
      | empty items_eq _ => exact .empty items_eq (Or.inl rfl)
      | array items_eq _ => exact .empty items_eq (Or.inl rfl)
  | array s ex ih =>
      obtain ⟨items, ex', rfl, ⟨-, rfl⟩ | ⟨s', t, -, ht, rfl⟩⟩ := join_array h
      · cases hr with
        | empty items_eq unknown => exact .empty items_eq unknown
        | array items_eq first => exact .array items_eq first
      · cases hr with
        | empty items_eq unknown =>
            exact .empty items_eq (Or.inr (unknown.resolve_left (by simp)))
        | array items_eq first => exact .array items_eq (ih ht first)
  | scalar kind ex =>
      obtain ⟨ex', rfl, rfl⟩ := join_scalar h
      cases hr with
      | scalar kind_eq => exact .scalar kind_eq

/-- A join covers the sample on its right if its left side admits it. -/
theorem Admits.covers_join {a t r : Schema} {v : Value} (ha : a.Admits v) (keyed : v.Keyed)
    (hv : ofSample v = .ok t) (h : join a t = .ok r) : r.Covers v := by
  induction ha generalizing t r with
  | @object ps req ex ms open_ fixed ih =>
      obtain ⟨shapes, hm, rfl⟩ := ofSample_map_eq_ok_iff.1 hv
      obtain ⟨qs, req', ex', rs, hb, rfl, hkeys, hjoint, hrest⟩ := join_object h
      obtain ⟨rfl, rfl, -⟩ := by simpa only [Schema.object.injEq] using hb
      refine .object (fun k hk => ?_) ?_ ?_
      · exact mem_of_mem_keys_ofList keyed hm
          (Members.mem_keys_ofList.2 (mem_jointRequired.1 hk).2)
      · intro b w hw hwn
        obtain ⟨k, hk, hbk⟩ := exists_mem_keys_ofList keyed hm hw hwn
        exact ⟨k, hkeys ▸ mem_addAll.2 (Or.inr hk), hbk⟩
      · intro k w s hw hwn hs
        obtain ⟨q, hq, hwq⟩ := get?_ofList_of_mem keyed hm hw hwn
        have hkeyed : w.Keyed := (keyed.member hw hwn).1
        -- the member is joined if it was required, and else it is fixed or new
        by_cases hk : k ∈ req
        · obtain ⟨p, q', u, hp, hq', hj, hu⟩ := hjoint k hk
            (Members.mem_keys_ofList.1 (Members.mem_keys_of_get? hq))
          have hqq : q' = q := Option.some.inj (hq'.symm.trans hq)
          have hus : u = s := Option.some.inj (hu.symm.trans hs)
          subst hqq hus
          exact ih k w p hw hwn hp hk hkeyed hwq hj
        · rw [hrest k fun hb => hk hb.1] at hs
          cases hp : Members.get? ps k with
          | some p =>
              rw [hp] at hs
              cases hs
              exact fixed k w s hw hwn hp hk
          | none =>
              rw [hp, hq] at hs
              cases hs
              exact covers_ofSample hkeyed hwq
  | @empty items ex v xs items_eq unknown =>
      cases xs with
      | nil => exact covers_of_join_array h items_eq
      | cons w ws =>
          obtain rfl : items = none := unknown.resolve_right (by simp)
          have hcov := covers_ofSample keyed hv
          obtain ⟨items, ex', rfl, rfl⟩ := join_untyped h
          cases hcov with
          | empty he => exact .empty he
          | array hs hfirst => exact .array hs hfirst
  | @array s ex v w ws items_eq first ih =>
      rw [ofSample_of_items_cons items_eq] at hv
      obtain ⟨t, hw, rfl⟩ := map_eq_ok_iff.1 hv
      have hkeyed : w.Keyed := keyed.first items_eq
      obtain ⟨items, ex', hb, ⟨hn, rfl⟩ | ⟨s', u, hs', hu, rfl⟩⟩ := join_array h
      · simp only [Schema.array.injEq] at hb
        rw [← hb.1] at hn
        cases hn
      · simp only [Schema.array.injEq] at hb
        rw [← hb.1] at hs'
        cases hs'
        exact .array items_eq (ih hkeyed hw hu)
  | scalar kind_eq =>
      obtain ⟨ex', rfl, rfl⟩ := join_scalar h
      exact .scalar kind_eq

/-! ### A run of samples -/

theorem Covers.joinAll {a r : Schema} {v : Value} {ss : List Schema} (hc : a.Covers v)
    (h : joinAll (some a) ss = .ok (some r)) : r.Covers v := by
  induction ss generalizing a with
  | nil =>
      cases h
      exact hc
  | cons s ss ih =>
      obtain ⟨t, ht, hrest⟩ := joinAll_cons.1 h
      exact ih (hc.join_left ht) hrest

theorem Admits.of_joinAll {a r : Schema} {v : Value} {ss : List Schema}
    (h : ApiScribe.joinAll (some a) ss = .ok (some r)) (hr : r.Admits v) : a.Admits v := by
  induction ss generalizing a with
  | nil =>
      cases h
      exact hr
  | cons s ss ih =>
      obtain ⟨t, ht, hrest⟩ := joinAll_cons.1 h
      exact .of_join ht (ih hrest)

/-- What a run does at one of its samples: it joins the schema of the sample into that of the ones
before, and goes on from there. -/
theorem ofSamples_split {before after : List Value} {v : Value} {r : Option Schema}
    (h : ofSamples (before ++ v :: after) = .ok r) :
    ∃ mid t u ss, ofSamples before = .ok mid ∧ ofSample v = .ok t ∧ joinOption mid t = .ok u
      ∧ ApiScribe.joinAll (some u) ss = .ok r := by
  obtain ⟨ts, hts, hjoin⟩ := ofSamples_eq_ok_iff.1 h
  obtain ⟨ss₁, ss₂, h₁, h₂, rfl⟩ := forall₂_append_left hts
  obtain ⟨t, ss, ht, -, rfl⟩ := List.forall₂_cons_left_iff.1 h₂
  obtain ⟨mid, hmid, hrest⟩ := joinAll_append.1 hjoin
  obtain ⟨u, hu, hss⟩ := joinAll_cons.1 hrest
  exact ⟨mid, t, u, ss, ofSamples_eq_ok_iff.2 ⟨ss₁, h₁, hmid⟩, ht, hu, hss⟩

/-- **The schema of a run covers the run exactly if the members of the samples are named by texts and
every sample is admitted when it is joined**: each of its members is new, or is still required, or has
the shape that was fixed for it. -/
theorem covers_run_iff {vs : List Value} {r : Schema} (proper : ∀ v ∈ vs, v.Proper)
    (h : ofSamples vs = .ok (some r)) :
    (∀ v ∈ vs, r.Covers v) ↔
      (∀ v ∈ vs, v.Keyed) ∧
        ∀ before v after, vs = before ++ v :: after →
          ∀ s, ofSamples before = .ok (some s) → s.Admits v := by
  constructor
  · intro hall
    refine ⟨fun v hv => (hall v hv).keyed (proper v hv), ?_⟩
    rintro before v after rfl s hs
    obtain ⟨mid, t, u, ss, hmid, -, hu, hss⟩ := ofSamples_split h
    rw [hs, Except.ok.injEq] at hmid
    subst hmid
    have hu' : u.Admits v := .of_joinAll hss (hall v (by simp)).admits
    exact .of_join hu hu'
  · rintro ⟨keyed, hall⟩ v hv
    obtain ⟨before, after, rfl⟩ := List.append_of_mem hv
    obtain ⟨mid, t, u, ss, hmid, ht, hu, hss⟩ := ofSamples_split h
    have hcov : u.Covers v := by
      cases mid with
      | none =>
          cases hu
          exact covers_ofSample (keyed v hv) ht
      | some s => exact (hall before v after rfl s hmid).covers_join (keyed v hv) ht hu
    exact hcov.joinAll hss

/-- A run in which a member is missing once and then present again, in its first shape. -/
def memberMissingOnce : List Value :=
  [.object [("a", .atom (.int 1))], .object [], .object [("a", .atom (.int 2))]]

/-- The schema of a run in which a member is missing once covers the run if the member keeps its
shape. -/
theorem covers_run_iff_memberMissingOnce :
    (∀ v ∈ memberMissingOnce, v.Proper) ∧
    ofSamples memberMissingOnce = .ok (some (.object [("a", .scalar .integer [])] [] [])) ∧
    ((∀ v ∈ memberMissingOnce, Covers (.object [("a", .scalar .integer [])] [] []) v) ↔
      (∀ v ∈ memberMissingOnce, v.Keyed) ∧
        ∀ before v after, memberMissingOnce = before ++ v :: after →
          ∀ s, ofSamples before = .ok (some s) → s.Admits v) := by
  have single : ∀ n : Int, (Value.object [("a", .atom (.int n))]).Proper := by
    intro n
    refine .map (by simp) ?_
    intro a v hm _
    rw [(Prod.mk.inj (List.mem_singleton.1 hm)).2]
    exact .atom _
  have proper : ∀ v ∈ memberMissingOnce, v.Proper := by
    intro v hv
    simp only [memberMissingOnce, List.mem_cons, List.not_mem_nil, or_false] at hv
    rcases hv with rfl | rfl | rfl
    · exact single 1
    · exact .map (by simp) (by simp)
    · exact single 2
  have run : ofSamples memberMissingOnce
      = .ok (some (.object [("a", .scalar .integer [])] [] [])) := by rfl
  exact ⟨proper, run, covers_run_iff proper run⟩

/-- A run in which a member is missing once and then present again, with less in it. -/
def memberSeenAgain : List Value :=
  [.object [("a", .object [("p", .atom (.int 1))])], .object [], .object [("a", .object [])]]

/-- The schema of a run need not cover the run: it still requires what a member had when it was
required itself, although the member was seen again without it. -/
theorem not_covers_memberSeenAgain :
    ∃ r, ofSamples memberSeenAgain = .ok (some r) ∧ ¬∀ v ∈ memberSeenAgain, r.Covers v := by
  refine ⟨.object [("a", .object [("p", .scalar .integer [])] ["p"] [])] [] [], by rfl, ?_⟩
  intro hall
  have hlast := hall (.object [("a", .object [])]) (by simp [memberSeenAgain])
  cases hlast with
  | object _ _ each =>
      have hinner := each "a" (.object []) (.object [("p", .scalar .integer [])] ["p"] [])
        (by simp) rfl rfl
      cases hinner with
      | object required _ _ =>
          obtain ⟨v, hv, -⟩ := required "p" (by simp)
          cases hv

end Schema

end ApiScribe
