/-
**A union has absorbed both of its sides.**

Uniting a document with itself changes nothing, and neither does uniting a union with one of its
sides once more.  For the second side this is literally so; for the first one only up to the order
of free members in schemas, where a join takes those of the second schema first.

Three facts make up the property: parts equal themselves, they absorb themselves, and what is
combined absorbs what it was combined of.  They hold of joins of schemas, and they carry over from
the parts to optional parts, mappings and parameters, and so up to documents.

Main definitions:

* `ApiScribe.Absorbs` — a way to combine parts absorbs the parts;
* `ApiScribe.Document.Regular` — the documents for which this is true of unions.

Main results:

* `ApiScribe.Absorbs.option`, `ApiScribe.Absorbs.members` — from the parts to optional parts and to
  mappings;
* `ApiScribe.absorbs_unionParameters` — parameters, of which at most one is a body;
* `ApiScribe.Document.union_absorbs` — **unions of documents are idempotent and absorb both sides**.
-/

import ApiScribe.Proofs.Recording.Parameters
import ApiScribe.Proofs.Recording.Reachable
import ApiScribe.Proofs.Schema.Regular

set_option autoImplicit false

namespace ApiScribe

/-! ### Combining parts -/

/-- A way to combine parts absorbs what it combines: regular parts equal themselves and leave
themselves as they are, and what two of them are combined to leaves the second as it is, and the
first up to equality. -/
structure Absorbs {α ε : Type} (combine : α → α → Except ε α) (same : α → α → Bool)
    (Regular : α → Prop) : Prop where
  /-- A part equals itself. -/
  refl : ∀ {a}, Regular a → same a a = true
  /-- A part has absorbed itself. -/
  self : ∀ {a}, Regular a → combine a a = .ok a
  /-- What is combined has absorbed its left side up to equality. -/
  left : ∀ {a b c}, Regular a → Regular b → combine a b = .ok c →
    ∃ c', combine c a = .ok c' ∧ same c' c = true
  /-- What is combined has absorbed its right side. -/
  right : ∀ {a b c}, Regular a → Regular b → combine a b = .ok c → combine c b = .ok c

namespace Absorbs

variable {α ε : Type} {combine : α → α → Except ε α} {same : α → α → Bool} {Regular : α → Prop}

/-- Optional parts absorb as their parts do. -/
theorem option (h : Absorbs combine same Regular) :
    Absorbs (unionOption combine) (sameOption same) fun o => ∀ a, o = some a → Regular a where
  refl := fun ho => sameOption_self fun a ha => h.refl (ho a ha)
  self := fun {o} ho => by
    cases o with
    | none => rfl
    | some a => exact unionOption_some_iff.2 ⟨a, h.self (ho a rfl), rfl⟩
  left := fun {o p r} ho hp hr => by
    cases o with
    | none =>
        refine ⟨r, unionOption_none_right r, sameOption_self fun c hc => h.refl (hp c ?_)⟩
        rw [← hc]
        exact Except.ok.inj hr
    | some a =>
        cases p with
        | none =>
            cases hr
            exact ⟨some a, unionOption_some_iff.2 ⟨a, h.self (ho a rfl), rfl⟩, h.refl (ho a rfl)⟩
        | some b =>
            obtain ⟨c, hc, rfl⟩ := unionOption_some_iff.1 hr
            obtain ⟨c', hc', hsame⟩ := h.left (ho a rfl) (hp b rfl) hc
            exact ⟨some c', unionOption_some_iff.2 ⟨c', hc', rfl⟩, hsame⟩
  right := fun {o p r} ho hp hr => by
    cases p with
    | none => exact unionOption_none_right r
    | some b =>
        cases o with
        | none =>
            cases hr
            exact unionOption_some_iff.2 ⟨b, h.self (hp b rfl), rfl⟩
        | some a =>
            obtain ⟨c, hc, rfl⟩ := unionOption_some_iff.1 hr
            exact unionOption_some_iff.2 ⟨c, h.right (ho a rfl) (hp b rfl) hc, rfl⟩

/-- A union with a mapping of known names, given by what stands under each name. -/
theorem exists_unionMembers_of_subset {first second : Members String α}
    (hn : second.keys.Nodup) (hsub : ∀ k ∈ second.keys, k ∈ first.keys) {f : String → Option α}
    (h : ∀ k, unionOption combine (first.get? k) (second.get? k) = .ok (f k)) :
    ∃ r, unionMembers combine first second = .ok r ∧ r.keys = first.keys
      ∧ ∀ k, r.get? k = f k := by
  obtain ⟨r, hr⟩ : ∃ r, unionMembers combine first second = .ok r :=
    exists_unionMembers hn fun m hm => ⟨f m.1, by rw [← h m.1, Members.get?_of_mem hn hm]⟩
  refine ⟨r, hr, ?_, fun k => ?_⟩
  · rw [keys_unionMembers hr, addAll_of_subset hsub]
  · exact Except.ok.inj ((get?_unionMembers hn hr k).symm.trans (h k))

/-- A mapping that has absorbed another one name by name has absorbed it. -/
theorem unionMembers_eq_self {first second : Members String α} (hn₁ : first.keys.Nodup)
    (hn₂ : second.keys.Nodup) (hsub : ∀ k ∈ second.keys, k ∈ first.keys)
    (h : ∀ k, unionOption combine (first.get? k) (second.get? k) = .ok (first.get? k)) :
    unionMembers combine first second = .ok first := by
  obtain ⟨r, hr, hkeys, hget⟩ := exists_unionMembers_of_subset hn₂ hsub h
  have heq : first = r := Members.ext_keys hn₁ hkeys.symm fun k _ => (hget k).symm
  rw [hr, ← heq]

/-- Mappings absorb as their parts do. -/
theorem members (h : Absorbs combine same Regular) :
    Absorbs (unionMembers combine) (sameMapping same) fun ms : Members String α =>
      ms.keys.Nodup ∧ ∀ k a, ms.get? k = some a → Regular a where
  refl := fun ⟨hn, hms⟩ =>
    sameMapping_of_get? hn rfl fun k => h.option.refl (hms k)
  self := fun ⟨hn, hms⟩ =>
    unionMembers_eq_self hn hn (fun _ hk => hk) fun k => h.option.self (hms k)
  left := fun {a b c} ⟨hna, ha⟩ ⟨hnb, hb⟩ hc => by
    have hkeys := keys_unionMembers hc
    have hk : ∀ k, ∃ o, unionOption combine (c.get? k) (a.get? k) = .ok o
        ∧ sameOption same o (c.get? k) = true := fun k =>
      h.option.left (ha k) (hb k) (get?_unionMembers hnb hc k)
    choose f hf hsame using hk
    obtain ⟨c', hc', hkeys', hget⟩ := exists_unionMembers_of_subset hna
      (fun k hk => hkeys ▸ mem_addAll.2 (Or.inl hk)) hf
    have hnc' : c'.keys.Nodup := by
      rw [hkeys', hkeys]
      exact nodup_addAll hna _
    have hlength : c'.length = c.length := by
      simpa [Members.keys] using congrArg List.length hkeys'
    exact ⟨c', hc', sameMapping_of_get? hnc' hlength fun k => by rw [hget, hsame]⟩
  right := fun {a b c} ⟨hna, ha⟩ ⟨hnb, hb⟩ hc => by
    have hkeys := keys_unionMembers hc
    exact unionMembers_eq_self (hkeys ▸ nodup_addAll hna _) hnb
      (fun k hk => hkeys ▸ mem_addAll.2 (Or.inr hk))
      fun k => h.option.right (ha k) (hb k) (get?_unionMembers hnb hc k)

end Absorbs

/-! ### Schemas, bodies and answers -/

/-- The free members are regular, whatever fields they stand beside. -/
abbrev RegularBeside (_ : List String) (ex : Extras) : Prop := ex.Regular

/-- Joins of schemas absorb. -/
theorem absorbs_join : Absorbs Schema.join Schema.same fun s => s.Regular ∧ s.Closed where
  refl := fun h => h.1.same_self
  self := fun h => Schema.join_self h.2
  left := fun ha hb h => Schema.join_left ha.1 ha.2 hb.1 h
  right := fun _ hb h => Schema.join_absorbs hb.2 h

/-- The union of two answers absorbs. -/
theorem absorbs_response : Absorbs Response.union Response.same fun r =>
    r.HasExtras RegularBeside ∧ ∀ s, r.schema = some s → s.Closed := by
  have hschema : ∀ {r : Response}, (r.HasExtras RegularBeside ∧
      ∀ s, r.schema = some s → s.Closed) → ∀ s, r.schema = some s → s.Regular ∧ s.Closed :=
    fun h s hs => ⟨h.1.schema s hs, h.2 s hs⟩
  refine ⟨fun h => ?_, fun h => ?_, fun {a b c} ha hb h => ?_, fun ha hb h => ?_⟩
  · simp [Response.same, absorbs_join.option.refl (hschema h), h.1.own.same_self]
  · exact Response.union_eq_ok_iff.2 ⟨absorbs_join.option.self (hschema h), rfl, rfl⟩
  · obtain ⟨hc, hdescription, hextras⟩ := Response.union_eq_ok_iff.1 h
    obtain ⟨o, ho, hsame⟩ := absorbs_join.option.left (hschema ha) (hschema hb) hc
    refine ⟨{ c with schema := o }, Response.union_eq_ok_iff.2 ⟨ho, rfl, rfl⟩, ?_⟩
    simp [Response.same, hsame, hextras, ha.1.own.same_self]
  · obtain ⟨hc, -, -⟩ := Response.union_eq_ok_iff.1 h
    exact Response.union_eq_ok_iff.2
      ⟨absorbs_join.option.right (hschema ha) (hschema hb) hc, rfl, rfl⟩

/-! ### Parameters -/

/-- Parameters equal themselves. -/
theorem Parameter.same_self {p : Parameter} (h : p.HasExtras RegularBeside) :
    p.same p = true := by
  cases p with
  | value v =>
      have hextras : v.extras.Regular := h
      simp [Parameter.same, hextras.same_self]
  | body b =>
      have hschema : b.schema.Regular := h.2
      simp [Parameter.same, hschema.same_self, h.1.same_self]

/-- The union of two bodies absorbs. -/
theorem absorbs_body : Absorbs BodyParameter.union
    (fun p q => Parameter.same (.body p) (.body q)) fun b =>
      (Parameter.body b).HasExtras RegularBeside ∧ b.schema.Closed := by
  have hschema : ∀ {b : BodyParameter}, ((Parameter.body b).HasExtras RegularBeside ∧
      b.schema.Closed) → b.schema.Regular ∧ b.schema.Closed := fun h => ⟨h.1.2, h.2⟩
  refine ⟨fun h => Parameter.same_self h.1, fun h => ?_, fun {a b c} ha hb h => ?_,
    fun {a b c} ha hb h => ?_⟩
  · exact map_eq_ok_iff.2 ⟨_, absorbs_join.self (hschema h), rfl⟩
  · obtain ⟨s, hs, rfl⟩ := map_eq_ok_iff.1 h
    obtain ⟨s', hs', hsame⟩ := absorbs_join.left (hschema ha) (hschema hb) hs
    refine ⟨{ a with schema := s' }, map_eq_ok_iff.2 ⟨s', hs', rfl⟩, ?_⟩
    simp [Parameter.same, hsame, ha.1.1.same_self]
  · obtain ⟨s, hs, rfl⟩ := map_eq_ok_iff.1 h
    exact map_eq_ok_iff.2 ⟨s, absorbs_join.right (hschema ha) (hschema hb) hs, rfl⟩

/-- Parameters equal themselves with another body that equals theirs. -/
theorem sameList_putBody {ps : List Parameter} (h : OneBody ps)
    (hvalues : ∀ v, .value v ∈ ps → (Parameter.value v).same (.value v) = true)
    {o : Option BodyParameter}
    (hsame : sameOption (fun p q => Parameter.same (.body p) (.body q)) o (firstBody ps) = true) :
    sameList Parameter.same (putBody o ps) ps = true := by
  induction ps with
  | nil => rfl
  | cons p ps ih =>
      have hrest : ∀ v, .value v ∈ ps → (Parameter.value v).same (.value v) = true :=
        fun v hv => hvalues v (List.mem_cons_of_mem p hv)
      cases p with
      | value v =>
          rw [putBody_value, sameList, Bool.and_eq_true]
          exact ⟨hvalues v List.mem_cons_self, ih (oneBody_value.1 h) hrest hsame⟩
      | body b =>
          have honly := oneBody_body.1 h
          rw [firstBody_body] at hsame
          rw [putBody_body, putBody_of_values honly, sameList, Bool.and_eq_true]
          constructor
          · cases o with
            | none => cases hsame
            | some q => exact hsame
          · refine sameList_self fun p hp => ?_
            cases p with
            | value v => exact hrest v hp
            | body b' => cases honly _ hp

/-- **The union of two lists of parameters absorbs.** -/
theorem absorbs_unionParameters : Absorbs unionParameters (sameList Parameter.same) fun ps =>
    (∀ p ∈ ps, p.HasExtras RegularBeside) ∧ (∀ b, .body b ∈ ps → b.schema.Closed)
      ∧ OneBody ps := by
  have hfirst : ∀ {ps : List Parameter}, ((∀ p ∈ ps, p.HasExtras RegularBeside) ∧
      (∀ b, .body b ∈ ps → b.schema.Closed) ∧ OneBody ps) → ∀ b, firstBody ps = some b →
        (Parameter.body b).HasExtras RegularBeside ∧ b.schema.Closed := by
    intro ps h b hb
    obtain ⟨p, hp, hpb⟩ := List.exists_of_findSome?_eq_some hb
    cases p with
    | value v => cases hpb
    | body b' =>
        cases hpb
        exact ⟨h.1 _ hp, h.2.1 b hp⟩
  have hslot : ∀ {ps : List Parameter} v, .value v ∈ ps →
      ps.any (Parameter.fillsSlot v) = true := fun v hv =>
    List.any_eq_true.2 ⟨_, hv, by simp [Parameter.fillsSlot, ValueParameter.sameSlot]⟩
  refine ⟨fun {ps} h => ?_, fun {ps} h => ?_, fun {a b c} ha hb h => ?_, fun {a b c} ha hb h => ?_⟩
  · exact sameList_self fun p hp => Parameter.same_self (h.1 p hp)
  · rw [unionParameters_of_slots h.2.2 h.2.2 hslot (absorbs_body.option.self (hfirst h)) id,
      putBody_firstBody h.2.2]
  · have hboth := holdsBoth_unionParameters ha.2.2 hb.2.2 h
    obtain ⟨o, ho, hsame⟩ := absorbs_body.option.left (hfirst ha) (hfirst hb) hboth.body
    have hsome : firstBody c = none → firstBody a = none := fun hnone =>
      (eq_none_of_unionOption (hnone ▸ hboth.body)).1
    refine ⟨_, unionParameters_of_slots hboth.oneBody ha.2.2
      (fun v hv => hboth.keeps v (hslot v hv)) ho hsome, ?_⟩
    refine sameList_putBody hboth.oneBody (fun v hv => Parameter.same_self ?_) hsame
    exact (hboth.values v hv).elim (ha.1 _) (hb.1 _)
  · have hboth := holdsBoth_unionParameters ha.2.2 hb.2.2 h
    have hsome : firstBody c = none → firstBody b = none := fun hnone =>
      (eq_none_of_unionOption (hnone ▸ hboth.body)).2
    rw [unionParameters_of_slots hboth.oneBody hb.2.2 hboth.slots
      (absorbs_body.option.right (hfirst ha) (hfirst hb) hboth.body) hsome,
      putBody_firstBody hboth.oneBody]

/-! ### Operations -/

/-- The status codes are distinct, the free members regular and the schemas closed, and there is at
most one body. -/
structure Operation.Regular (op : Operation) : Prop where
  /-- The free members are regular. -/
  extras : op.HasExtras RegularBeside
  /-- The schemas are closed. -/
  schemas : ∀ s ∈ op.schemas, s.Closed
  /-- There is at most one body. -/
  oneBody : OneBody op.parameters

theorem Operation.Regular.parameters {op : Operation} (h : op.Regular) :
    (∀ p ∈ op.parameters, p.HasExtras RegularBeside)
      ∧ (∀ b, .body b ∈ op.parameters → b.schema.Closed) ∧ OneBody op.parameters :=
  ⟨h.extras.parameters, fun _ hb =>
    h.schemas _ (List.mem_append_left _ (List.mem_filterMap.2 ⟨_, hb, rfl⟩)), h.oneBody⟩

theorem Operation.Regular.responses {op : Operation} (h : op.Regular) :
    op.responses.keys.Nodup ∧ ∀ status r, op.responses.get? status = some r →
      r.HasExtras RegularBeside ∧ ∀ s, r.schema = some s → s.Closed := by
  refine ⟨h.extras.statuses, fun status r hr => ?_⟩
  have hmem := Members.mem_of_get? hr
  exact ⟨h.extras.responses _ hmem, fun s hs =>
    h.schemas s (List.mem_append_right _ (List.mem_filterMap.2 ⟨_, hmem, hs⟩))⟩

/-- Content types that are known add nothing. -/
theorem unionTexts_eq_self {first second : List String}
    (h : ∀ t ∈ second, t.isEmpty = false → t ∈ first) : unionTexts first second = first := by
  rw [unionTexts_eq_addAll_filter]
  refine addAll_of_subset fun t ht => ?_
  obtain ⟨hmem, hempty⟩ := List.mem_filter.1 ht
  exact h t hmem (by simpa using hempty)

theorem unionTexts_absorbs (first second : List String) :
    unionTexts (unionTexts first second) first = unionTexts first second
      ∧ unionTexts (unionTexts first second) second = unionTexts first second := by
  have hmem : ∀ t, t ∈ unionTexts first second ↔
      t ∈ first ∨ t ∈ second ∧ t.isEmpty = false := by
    intro t
    rw [unionTexts_eq_addAll_filter, mem_addAll, List.mem_filter]
    simp
  exact ⟨unionTexts_eq_self fun t ht _ => (hmem t).2 (Or.inl ht),
    unionTexts_eq_self fun t ht hempty => (hmem t).2 (Or.inr ⟨ht, hempty⟩)⟩

/-- **The union of two operations absorbs.** -/
theorem absorbs_operation : Absorbs Operation.union Operation.same Operation.Regular := by
  have hself : ∀ texts : List String, unionTexts texts texts = texts := fun texts =>
    unionTexts_eq_self fun _ ht _ => ht
  refine ⟨fun h => ?_, fun h => ?_, fun {a b c} ha hb h => ?_, fun ha hb h => ?_⟩
  · simp [Operation.same, absorbs_unionParameters.refl h.parameters,
      absorbs_response.members.refl h.responses, h.extras.own.same_self]
  · exact Operation.union_eq_ok_iff.2 ⟨absorbs_response.members.self h.responses,
      absorbs_unionParameters.self h.parameters, (hself _).symm, (hself _).symm, rfl⟩
  · obtain ⟨hr, hp, hconsumes, hproduces, hextras⟩ := Operation.union_eq_ok_iff.1 h
    obtain ⟨responses, hr', hsame⟩ := absorbs_response.members.left ha.responses hb.responses hr
    obtain ⟨parameters, hp', hsame'⟩ :=
      absorbs_unionParameters.left ha.parameters hb.parameters hp
    refine ⟨{ c with parameters := parameters, responses := responses },
      Operation.union_eq_ok_iff.2 ⟨hr', hp', ?_, ?_, rfl⟩, ?_⟩
    · rw [hconsumes, (unionTexts_absorbs _ _).1]
    · rw [hproduces, (unionTexts_absorbs _ _).1]
    · simp [Operation.same, hsame, hsame', hextras, ha.extras.own.same_self]
  · obtain ⟨hr, hp, hconsumes, hproduces, -⟩ := Operation.union_eq_ok_iff.1 h
    refine Operation.union_eq_ok_iff.2 ⟨absorbs_response.members.right ha.responses hb.responses hr,
      absorbs_unionParameters.right ha.parameters hb.parameters hp, ?_, ?_, rfl⟩
    · rw [hconsumes, (unionTexts_absorbs _ _).2]
    · rw [hproduces, (unionTexts_absorbs _ _).2]

/-! ### Path items -/

/-- The free members under a path template are regular, and so are the operations. -/
structure PathItem.Regular (item : PathItem) : Prop where
  /-- The free members are regular. -/
  extras : item.HasExtras RegularBeside
  /-- The operations are regular. -/
  operations : ∀ m op, item.operation? m = some op → op.Regular

/-- What operations share equals itself. -/
theorem PathItem.Regular.same_parameters {item : PathItem} (h : item.Regular) :
    sameOption (sameList Parameter.same) item.parameters item.parameters = true :=
  sameOption_self fun ps hps => sameList_self fun p hp =>
    Parameter.same_self (h.extras.parameters ps hps p hp)

/-- **The union of two path items absorbs.** -/
theorem absorbs_pathItem : Absorbs PathItem.union PathItem.same PathItem.Regular := by
  refine ⟨fun {item} h => ?_, fun {item} h => ?_, fun {a b c} ha hb h => ?_,
    fun {a b c} ha hb h => ?_⟩
  · have hops : Method.all.all (fun m =>
        sameOption Operation.same (item.operation? m) (item.operation? m)) = true :=
      List.all_eq_true.2 fun m _ => absorbs_operation.option.refl (h.operations m)
    simp [PathItem.same, hops, h.same_parameters, h.extras.own.same_self]
  · refine PathItem.union_eq_ok_iff.2
      ⟨fun m => absorbs_operation.option.self (h.operations m), ?_, rfl⟩
    cases item.parameters <;> rfl
  · obtain ⟨hops, hparameters, hextras⟩ := PathItem.union_eq_ok_iff.1 h
    have hleft := fun m =>
      absorbs_operation.option.left (ha.operations m) (hb.operations m) (hops m)
    -- the unions of the single operations make up a path item
    choose f hf hsame using hleft
    obtain ⟨c', hc'⟩ := PathItem.exists_union fun m => ⟨f m, hf m⟩
    obtain ⟨hops', hparameters', hextras'⟩ := PathItem.union_eq_ok_iff.1 hc'
    have hshared : c'.parameters = c.parameters := by
      rw [hparameters', hparameters]
      cases a.parameters <;> cases b.parameters <;> rfl
    have hsame_parameters : sameOption (sameList Parameter.same) c.parameters c.parameters
        = true := by
      rw [hparameters]
      cases hp : a.parameters with
      | none => exact hb.same_parameters
      | some ps =>
          have hsame := ha.same_parameters
          rw [hp] at hsame
          exact hsame
    have hsame_ops : Method.all.all (fun m =>
        sameOption Operation.same (c'.operation? m) (c.operation? m)) = true := by
      refine List.all_eq_true.2 fun m _ => ?_
      have hm : c'.operation? m = f m := Except.ok.inj ((hops' m).symm.trans (hf m))
      rw [hm, hsame]
    refine ⟨c', hc', ?_⟩
    simp [PathItem.same, hsame_ops, hshared, hsame_parameters, hextras', hextras,
      ha.extras.own.same_self]
  · obtain ⟨hops, hparameters, -⟩ := PathItem.union_eq_ok_iff.1 h
    refine PathItem.union_eq_ok_iff.2 ⟨fun m => ?_, ?_, rfl⟩
    · exact absorbs_operation.option.right (ha.operations m) (hb.operations m) (hops m)
    · rw [hparameters]
      cases a.parameters <;> cases b.parameters <;> rfl

/-! ### Documents -/

namespace Document

/-- A document of the version that is combined: mappings have distinct names, free members hold no
not-a-number, objects require only properties, and operations have at most one body. -/
structure Regular (doc : Document) : Prop where
  /-- The version. -/
  version : doc.swagger = formatVersion
  /-- Mappings have distinct names, and free members are regular. -/
  extras : doc.HasExtras RegularBeside
  /-- Every required name is a property, in all schemas at every depth. -/
  schemas : ∀ s ∈ doc.schemas, s.Closed
  /-- An operation has at most one body. -/
  bodies : ∀ op ∈ doc.operations, (op.parameters.filter Parameter.isBody).length ≤ 1

theorem Regular.paths {doc : Document} (h : doc.Regular) :
    doc.paths.keys.Nodup ∧ ∀ t item, doc.paths.get? t = some item → item.Regular := by
  refine ⟨h.extras.templates, fun t item hitem => ?_⟩
  have hmem := Members.mem_of_get? hitem
  refine ⟨h.extras.paths _ hmem, fun m op hop => ?_⟩
  have hop' : op ∈ doc.operations := by
    refine List.mem_flatMap.2 ⟨_, hmem, List.mem_map.2 ⟨(m, op), ?_, rfl⟩⟩
    exact List.mem_filterMap.2 ⟨m, by cases m <;> decide, by rw [hop]; rfl⟩
  exact ⟨(h.extras.paths _ hmem).operations m op hop, fun s hs =>
    h.schemas s (List.mem_append_right _ (List.mem_flatMap.2 ⟨op, hop', hs⟩)), h.bodies op hop'⟩

/-- **The union of two documents absorbs.** -/
theorem absorbs_union : Absorbs Document.union Document.same Regular := by
  have hinfo : ∀ {doc : Document}, doc.Regular → doc.info.same doc.info = true := by
    intro doc h
    have hextras : doc.info.extras.Regular := h.extras.info
    simp [Info.same, hextras.same_self]
  refine ⟨fun {doc} h => ?_, fun {doc} h => ?_, fun {a b c} ha hb h => ?_,
    fun {a b c} ha hb h => ?_⟩
  · simp [Document.same, hinfo h, absorbs_pathItem.members.refl h.paths, h.extras.own.same_self]
  · exact union_eq_ok_iff.2 ⟨h.version, h.version, absorbs_pathItem.members.self h.paths, rfl⟩
  · obtain ⟨hv, -, hpaths, hc⟩ := union_eq_ok_iff.1 h
    obtain ⟨paths, hpaths', hsame⟩ := absorbs_pathItem.members.left ha.paths hb.paths hpaths
    refine ⟨{ c with paths := paths }, union_eq_ok_iff.2 ⟨?_, hv, hpaths', rfl⟩, ?_⟩
    · rw [hc]
      exact hv
    · rw [hc]
      simp [Document.same, hinfo ha, hsame, ha.extras.own.same_self]
  · obtain ⟨hv, hv', hpaths, hc⟩ := union_eq_ok_iff.1 h
    refine union_eq_ok_iff.2 ⟨?_, hv', absorbs_pathItem.members.right ha.paths hb.paths hpaths, rfl⟩
    rw [hc]
    exact hv

/-- **Unions of documents are idempotent and absorb both sides**: a document stays as it is when it
is united with itself, and so does a union when it is united with either side once more.  With the
first side this is equality up to order, with the second one it is literally so. -/
theorem union_absorbs {a b : Document} (ha : a.Regular) (hb : b.Regular) :
    a.union a = .ok a ∧ ∀ c, a.union b = .ok c →
      (∃ c', c.union a = .ok c' ∧ c'.same c = true) ∧ c.union b = .ok c :=
  ⟨absorbs_union.self ha, fun _ hc => ⟨absorbs_union.left ha hb hc, absorbs_union.right ha hb hc⟩⟩

/-- A document about notes, with a free member of a given name in the schema of the body. -/
def noteDocument (name : String) (items : Option Schema) : Document :=
  { paths := [("/notes", { post := some {
      parameters := [.body {
        schema := .object [("k", .scalar .integer [])] ["k"] [(name, .text "p")] }]
      responses := [("200", { description := "OK", schema := some (.array items []) })] } })] }

theorem regular_noteDocument (name : String) {items : Option Schema}
    (hregular : (Schema.array items []).Regular) (hclosed : (Schema.array items []).Closed) :
    (noteDocument name items).Regular := by
  have hnames : (Members.keys [(name, Value.text "p")]).Nodup := by simp
  have hextras : Extras.Regular [(name, .text "p")] := ⟨hnames, fun k v h => by
    cases List.mem_singleton.1 h
    exact .atom (by decide)⟩
  refine ⟨rfl, ⟨Extras.regular_nil, Extras.regular_nil, by simp [noteDocument], ?_⟩, ?_, ?_⟩
  · intro m hm
    cases List.mem_singleton.1 hm
    refine ⟨Extras.regular_nil, fun m op hop => ?_, fun ps hps => by cases hps⟩
    cases m <;> cases hop
    refine ⟨Extras.regular_nil, fun p hp => ?_, by simp, fun r hr => ?_⟩
    · cases List.mem_singleton.1 hp
      refine ⟨Extras.regular_nil, .object (by simp) hextras fun k s hs => ?_⟩
      cases List.mem_singleton.1 hs
      exact .scalar Extras.regular_nil
    · cases List.mem_singleton.1 hr
      exact ⟨Extras.regular_nil, fun s hs => by cases hs; exact hregular⟩
  · intro s hs
    have hmem : s = .object [("k", .scalar .integer [])] ["k"] [(name, .text "p")]
        ∨ s = .array items [] := by
      simpa [noteDocument, schemas, operations, PathItem.operations, Method.all,
        PathItem.operation?, Operation.schemas, Parameter.schema?] using hs
    rcases hmem with rfl | rfl
    · refine .object (by simp) hnames fun k s hs => ?_
      cases List.mem_singleton.1 hs
      exact .scalar List.nodup_nil
    · exact hclosed
  · intro op hop
    have hmem : op.parameters.length = 1 := by
      simp only [noteDocument, operations, PathItem.operations, Method.all, PathItem.operation?,
        List.flatMap_cons, List.flatMap_nil, List.append_nil, List.mem_map] at hop
      obtain ⟨m, hm, rfl⟩ := hop
      simp only [List.filterMap, Option.map, List.mem_singleton] at hm
      rw [hm]
      rfl
    exact hmem ▸ List.length_filter_le _ _

/-- The union of two documents about notes has absorbed both, though their free members have
different names. -/
theorem union_absorbs_notes : ∃ c,
    (noteDocument "x-a" none).union (noteDocument "x-b" (some (.scalar .string []))) = .ok c ∧
    (noteDocument "x-a" none).union (noteDocument "x-a" none) = .ok (noteDocument "x-a" none) ∧
    (∃ c', c.union (noteDocument "x-a" none) = .ok c' ∧ c'.same c = true) ∧
    c.union (noteDocument "x-b" (some (.scalar .string []))) = .ok c := by
  obtain ⟨c, hc⟩ : ∃ c, (noteDocument "x-a" none).union
      (noteDocument "x-b" (some (.scalar .string []))) = .ok c := ⟨_, rfl⟩
  have ha := regular_noteDocument "x-a" (.untyped Extras.regular_nil) (.untyped List.nodup_nil)
  have htext : (Schema.scalar .string []).Regular := .scalar Extras.regular_nil
  have hb := regular_noteDocument "x-b" (.array Extras.regular_nil htext)
    (.array List.nodup_nil (.scalar List.nodup_nil))
  obtain ⟨hself, hboth⟩ := union_absorbs ha hb
  exact ⟨c, hc, hself, hboth c hc⟩

end Document

end ApiScribe
