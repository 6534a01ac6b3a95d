/-
**Unions, looked up.**

A union of two documents is computed member by member.  Looked up, it is simple: at every template
and method stands the union of what stands there on the two sides, and in a union of operations the
same is true of every status code.

Main results:

* `ApiScribe.unionOption_some_iff` — the union of two optional parts;
* `ApiScribe.keys_unionMembers`, `ApiScribe.get?_unionMembers` — the union of two mappings;
* `ApiScribe.PathItem.operation?_union` — the union of two path items;
* `ApiScribe.invariant_of_unionParameters`, `ApiScribe.unionParameters_of_subset`,
  `ApiScribe.mem_valueNames_unionParameters` — the union of parameters;
* `ApiScribe.Document.union_eq_ok_iff`, `ApiScribe.Document.operation?_union` — the union of two
  documents.
-/

import ApiScribe.Proofs.Recording.Digest
import ApiScribe.Recording.Union

set_option autoImplicit false

namespace ApiScribe

section

variable {α ε : Type} {combine : α → α → Except ε α}

/-! ### Optional parts -/

@[simp] theorem unionOption_none_left (b : Option α) : unionOption combine none b = .ok b := rfl

@[simp] theorem unionOption_none_right (a : Option α) : unionOption combine a none = .ok a := by
  cases a <;> rfl

theorem unionOption_some_iff {a b : α} {r : Option α} :
    unionOption combine (some a) (some b) = .ok r ↔ ∃ c, combine a b = .ok c ∧ some c = r :=
  map_eq_ok_iff

/-- There is a union if the two parts, where there are two, have one. -/
theorem exists_unionOption {a b : Option α}
    (h : ∀ x y, a = some x → b = some y → ∃ z, combine x y = .ok z) :
    ∃ r, unionOption combine a b = .ok r := by
  cases a with
  | none => exact ⟨b, rfl⟩
  | some x =>
      cases b with
      | none => exact ⟨some x, rfl⟩
      | some y =>
          obtain ⟨z, hz⟩ := h x y rfl rfl
          exact ⟨some z, unionOption_some_iff.2 ⟨z, hz, rfl⟩⟩

/-- Where nothing is in the union, nothing is on either side. -/
theorem eq_none_of_unionOption {a b : Option α} (h : unionOption combine a b = .ok none) :
    a = none ∧ b = none := by
  cases a with
  | none => exact ⟨rfl, Except.ok.inj h⟩
  | some a =>
      cases b with
      | none => cases h
      | some b =>
          obtain ⟨c, -, hc⟩ := unionOption_some_iff.1 h
          cases hc

/-! ### Mappings -/

theorem unionMembers_cons_eq_ok_iff {first r : Members String α} {m : String × α}
    {rest : Members String α} :
    unionMembers combine first (m :: rest) = .ok r ↔
      ∃ c, unionOption combine (first.get? m.1) (some m.2) = .ok (some c)
        ∧ unionMembers combine (first.put m.1 c) rest = .ok r := by
  obtain ⟨k, b⟩ := m
  rw [unionMembers]
  cases ha : first.get? k with
  | none => simp
  | some a => cases hc : combine a b <;> simp [unionOption, hc, Except.map]

/-- A union of mappings exists if there is one under each name of the second. -/
theorem exists_unionMembers {first second : Members String α} (hn : second.keys.Nodup)
    (h : ∀ m ∈ second, ∃ r, unionOption combine (first.get? m.1) (some m.2) = .ok r) :
    ∃ r, unionMembers combine first second = .ok r := by
  induction second generalizing first with
  | nil => exact ⟨first, rfl⟩
  | cons m second ih =>
      rw [Members.keys_cons, List.nodup_cons] at hn
      obtain ⟨r, hr⟩ := h m List.mem_cons_self
      cases r with
      | none => exact absurd (eq_none_of_unionOption hr).2 (by simp)
      | some c =>
          have hlater : ∀ m' ∈ second,
              ∃ r, unionOption combine ((first.put m.1 c).get? m'.1) (some m'.2) = .ok r := by
            intro m' hm'
            have hne : m.1 ≠ m'.1 := fun he => hn.1 (he ▸ List.mem_map_of_mem hm')
            rw [Members.get?_put, if_neg hne]
            exact h m' (List.mem_cons_of_mem m hm')
          obtain ⟨r, hrest⟩ := ih hn.2 hlater
          exact ⟨r, unionMembers_cons_eq_ok_iff.2 ⟨c, hr, hrest⟩⟩

/-- The names of a union are those of both sides. -/
theorem keys_unionMembers {first second r : Members String α}
    (h : unionMembers combine first second = .ok r) :
    r.keys = addAll first.keys second.keys := by
  induction second generalizing first with
  | nil =>
      cases h
      rfl
  | cons m second ih =>
      obtain ⟨c, -, hrest⟩ := unionMembers_cons_eq_ok_iff.1 h
      rw [ih hrest, Members.keys_put_eq, Members.keys_cons, addAll_cons]

/-- **Under each name of a union stands the union of what both sides have there.** -/
theorem get?_unionMembers {first second r : Members String α} (hn : second.keys.Nodup)
    (h : unionMembers combine first second = .ok r) (k : String) :
    unionOption combine (first.get? k) (second.get? k) = .ok (r.get? k) := by
  induction second generalizing first with
  | nil =>
      cases h
      exact unionOption_none_right _
  | cons m second ih =>
      obtain ⟨c, hc, hrest⟩ := unionMembers_cons_eq_ok_iff.1 h
      rw [Members.keys_cons, List.nodup_cons] at hn
      -- the names are distinct, so that the rest leaves this one as it is
      have hget := ih hn.2 hrest
      rw [Members.get?_put] at hget
      rw [Members.get?_cons]
      by_cases hk : m.1 = k
      · have hnone : Members.get? second k = none :=
          Members.get?_eq_none_iff.2 (hk ▸ hn.1)
        rw [if_pos hk, hnone] at hget
        rw [if_pos hk, ← hk, hc]
        rw [hk]
        exact hget
      · rw [if_neg hk] at hget
        rw [if_neg hk]
        exact hget

end

/-! ### Path items -/

namespace PathItem

theorem setOperation_shared (item : PathItem) (op : Operation) (m : Method) :
    (item.setOperation op m).parameters = item.parameters
      ∧ (item.setOperation op m).extras = item.extras := by
  cases m <;> exact ⟨rfl, rfl⟩

/-- A path item is known by its operations and by what they share. -/
theorem ext_operations {a b : PathItem} (h : ∀ m, a.operation? m = b.operation? m)
    (hparameters : a.parameters = b.parameters) (hextras : a.extras = b.extras) : a = b := by
  have hget := h .get
  have hput := h .put
  have hpost := h .post
  have hdelete := h .delete
  have hoptions := h .options
  have hhead := h .head
  have hpatch := h .patch
  cases a
  cases b
  simp only [operation?] at hget hput hpost hdelete hoptions hhead hpatch
  simp only [PathItem.mk.injEq]
  exact ⟨hget, hput, hpost, hdelete, hoptions, hhead, hpatch, hparameters, hextras⟩

theorem unionOperations_eq_ok {a b c : PathItem} {ms : List Method} (hms : ms.Nodup)
    (h : unionOperations a b ms = .ok c) :
    (∀ m ∈ ms, unionOption Operation.union (a.operation? m) (b.operation? m)
        = .ok (c.operation? m))
      ∧ (∀ m, m ∉ ms → c.operation? m = a.operation? m)
      ∧ c.parameters = a.parameters ∧ c.extras = a.extras := by
  induction ms generalizing a with
  | nil =>
      cases h
      exact ⟨by simp, fun _ _ => rfl, rfl, rfl⟩
  | cons m ms ih =>
      rw [List.nodup_cons] at hms
      rw [unionOperations] at h
      cases hu : unionOption Operation.union (a.operation? m) (b.operation? m) with
      | error err => simp [hu] at h
      | ok r =>
          cases r with
          | none =>
              rw [hu] at h
              obtain ⟨hin, hout, hshared⟩ := ih hms.2 h
              refine ⟨?_, fun n hn => hout n fun hmem => hn (List.mem_cons_of_mem m hmem), hshared⟩
              intro n hn
              rcases List.mem_cons.1 hn with rfl | hn
              · rw [hu, hout n hms.1, (eq_none_of_unionOption hu).1]
              · exact hin n hn
          | some op =>
              rw [hu] at h
              obtain ⟨hin, hout, hparameters, hextras⟩ := ih hms.2 h
              -- the operation that is put does not change those that are still to come
              have hother : ∀ n, n ≠ m → (a.setOperation op m).operation? n = a.operation? n := by
                intro n hn
                rw [operation?_setOperation, if_neg fun he => hn he.symm]
              refine ⟨?_, ?_, ?_, ?_⟩
              · intro n hn
                rcases List.mem_cons.1 hn with rfl | hn
                · rw [hu, hout n hms.1, operation?_setOperation, if_pos rfl]
                · have hne : n ≠ m := fun he => hms.1 (he ▸ hn)
                  rw [← hother n hne]
                  exact hin n hn
              · intro n hn
                rw [List.mem_cons, not_or] at hn
                rw [hout n hn.2, hother n hn.1]
              · rw [hparameters, (setOperation_shared a op m).1]
              · rw [hextras, (setOperation_shared a op m).2]

/-- **For each method of a union of path items stands the union of the two operations.** -/
theorem operation?_union {a b c : PathItem} (h : a.union b = .ok c) :
    (∀ m, unionOption Operation.union (a.operation? m) (b.operation? m) = .ok (c.operation? m))
      ∧ c.parameters = a.parameters.orElse (fun _ => b.parameters) ∧ c.extras = a.extras := by
  obtain ⟨item, hu, rfl⟩ := map_eq_ok_iff.1 h
  obtain ⟨hin, -, -, hextras⟩ := unionOperations_eq_ok (by decide) hu
  refine ⟨fun m => ?_, rfl, hextras⟩
  have hm := hin m (by cases m <;> decide)
  rw [hm]
  cases m <;> rfl

theorem exists_unionOperations {a b : PathItem} {ms : List Method} (hms : ms.Nodup)
    (h : ∀ m ∈ ms, ∃ r, unionOption Operation.union (a.operation? m) (b.operation? m) = .ok r) :
    ∃ c, unionOperations a b ms = .ok c := by
  induction ms generalizing a with
  | nil => exact ⟨a, rfl⟩
  | cons m ms ih =>
      rw [List.nodup_cons] at hms
      have hrest := fun n hn => h n (List.mem_cons_of_mem m hn)
      obtain ⟨r, hr⟩ := h m List.mem_cons_self
      rw [unionOperations, hr]
      cases r with
      | none => exact ih hms.2 hrest
      | some op =>
          refine ih hms.2 fun n hn => ?_
          have hne : m ≠ n := fun he => hms.1 (he ▸ hn)
          rw [operation?_setOperation, if_neg hne]
          exact hrest n hn

/-- A union of path items exists if there is one for each method. -/
theorem exists_union {a b : PathItem}
    (h : ∀ m, ∃ r, unionOption Operation.union (a.operation? m) (b.operation? m) = .ok r) :
    ∃ c, a.union b = .ok c := by
  obtain ⟨item, hitem⟩ : ∃ item, unionOperations a b Method.all = .ok item :=
    exists_unionOperations (by decide) fun m _ => h m
  exact ⟨_, map_eq_ok_iff.2 ⟨item, hitem, rfl⟩⟩

/-- **A union of path items is what has the union of the two operations for each method.** -/
theorem union_eq_ok_iff {a b c : PathItem} :
    a.union b = .ok c ↔
      (∀ m, unionOption Operation.union (a.operation? m) (b.operation? m) = .ok (c.operation? m))
        ∧ c.parameters = a.parameters.orElse (fun _ => b.parameters) ∧ c.extras = a.extras := by
  refine ⟨operation?_union, fun ⟨hops, hparameters, hextras⟩ => ?_⟩
  obtain ⟨item, hitem⟩ := exists_union fun m => ⟨_, hops m⟩
  obtain ⟨hops', hparameters', hextras'⟩ := operation?_union hitem
  have heq : item = c := by
    refine ext_operations (fun m => ?_) (hparameters'.trans hparameters.symm)
      (hextras'.trans hextras.symm)
    exact Except.ok.inj ((hops' m).symm.trans (hops m))
  rw [hitem, heq]

end PathItem

/-! ### Parameters -/

/-- **What every parameter of the second side keeps when it is added, a union of parameters keeps.** -/
theorem invariant_of_unionParameters {P : List Parameter → Prop} {first second ps : List Parameter}
    (hstep : ∀ p ∈ second, ∀ {qs rs}, P qs → unionParameter qs p = .ok rs → P rs)
    (hfirst : P first) (h : unionParameters first second = .ok ps) : P ps := by
  induction second generalizing first with
  | nil =>
      cases h
      exact hfirst
  | cons p second ih =>
      rw [unionParameters] at h
      cases hp : unionParameter first p with
      | error e => simp [hp] at h
      | ok qs =>
          simp only [hp] at h
          exact ih (fun q hq => hstep q (List.mem_cons_of_mem p hq))
            (hstep p List.mem_cons_self hfirst hp) h

theorem valueNames_append (ps qs : List Parameter) :
    valueNames (ps ++ qs) = valueNames ps ++ valueNames qs := List.filterMap_append

theorem valueNames_map_value (vs : List ValueParameter) :
    valueNames (vs.map .value) = vs.map ValueParameter.name := by
  rw [valueNames, List.filterMap_map, ← List.filterMap_eq_map]
  rfl

@[simp] theorem valueNames_bodyParameters (body : Option Schema) :
    valueNames (bodyParameters body) = [] := by
  cases body <;> rfl

/-- Parameters that all have a namesake in the path among the others add nothing. -/
theorem unionParameters_of_subset {vs ws : List ValueParameter} {body : Option Schema}
    {rest : List Parameter} (hvs : ∀ p ∈ vs, p.place = .path) (hws : ∀ p ∈ ws, p.place = .path)
    (h : ∀ p ∈ ws, p.name ∈ vs.map ValueParameter.name) :
    unionParameters (vs.map .value ++ bodyParameters body) (ws.map .value ++ rest)
      = unionParameters (vs.map .value ++ bodyParameters body) rest := by
  induction ws with
  | nil => rfl
  | cons p ws ih =>
      obtain ⟨q, hq, hqp⟩ := List.mem_map.1 (h p List.mem_cons_self)
      have hslot : (vs.map Parameter.value ++ bodyParameters body).any (Parameter.fillsSlot p)
          = true := by
        refine List.any_eq_true.2 ⟨.value q, ?_, ?_⟩
        · exact List.mem_append_left _ (List.mem_map_of_mem hq)
        · simp [Parameter.fillsSlot, ValueParameter.sameSlot, hvs q hq, hws p List.mem_cons_self,
            hqp]
      rw [List.map_cons, List.cons_append, unionParameters, unionParameter, if_pos hslot]
      exact ih (fun r hr => hws r (List.mem_cons_of_mem p hr))
        (fun r hr => h r (List.mem_cons_of_mem p hr))

theorem unionBody_eq_ok {vs : List ValueParameter} {body : Option Schema} {b : Schema}
    {ps : List Parameter}
    (h : unionBody { schema := b } (vs.map .value ++ bodyParameters body) = .ok ps) :
    ∃ u, unionOption Schema.join body (some b) = .ok u
      ∧ ps = vs.map .value ++ bodyParameters u := by
  induction vs generalizing ps with
  | nil =>
      cases body with
      | none =>
          cases h
          exact ⟨some b, rfl, rfl⟩
      | some a =>
          obtain ⟨u, hj, hps⟩ := map_eq_ok_iff.1 h
          exact ⟨some u, unionOption_some_iff.2 ⟨u, hj, rfl⟩, hps.symm⟩
  | cons v vs ih =>
      obtain ⟨qs, hrest, rfl⟩ := map_eq_ok_iff.1 h
      obtain ⟨u, hu, rfl⟩ := ih hrest
      exact ⟨u, hu, rfl⟩

/-- The union of two bodies after the same parameters. -/
theorem unionParameters_bodyParameters {vs : List ValueParameter} {body body' : Option Schema}
    {ps : List Parameter}
    (h : unionParameters (vs.map .value ++ bodyParameters body) (bodyParameters body') = .ok ps) :
    ∃ u, unionOption Schema.join body body' = .ok u
      ∧ ps = vs.map .value ++ bodyParameters u := by
  cases body' with
  | none =>
      cases h
      exact ⟨body, unionOption_none_right body, rfl⟩
  | some b =>
      have hone : bodyParameters (some b) = [.body { schema := b }] := rfl
      rw [hone, unionParameters, unionParameter] at h
      cases hub : unionBody { schema := b } (vs.map .value ++ bodyParameters body) with
      | error err => simp [hub] at h
      | ok qs =>
          rw [hub] at h
          cases h
          exact unionBody_eq_ok hub

theorem valueNames_unionBody {b : BodyParameter} {ps qs : List Parameter}
    (h : unionBody b ps = .ok qs) : valueNames qs = valueNames ps := by
  induction ps generalizing qs with
  | nil =>
      cases h
      rfl
  | cons p ps ih =>
      cases p with
      | value v =>
          obtain ⟨rs, hrest, rfl⟩ := map_eq_ok_iff.1 h
          simpa [valueNames] using ih hrest
      | body c =>
          rw [unionBody] at h
          split at h
          · obtain ⟨rs, hrest, rfl⟩ := map_eq_ok_iff.1 h
            simpa [valueNames] using ih hrest
          · obtain ⟨u, -, rfl⟩ := map_eq_ok_iff.1 h
            rfl

/-- A union of parameters has the names of both sides. -/
theorem mem_valueNames_unionParameters {first second ps : List Parameter}
    (h : unionParameters first second = .ok ps) {name : String}
    (hname : name ∈ valueNames first ∨ name ∈ valueNames second) : name ∈ valueNames ps := by
  induction second generalizing first with
  | nil =>
      cases h
      exact hname.resolve_right (by simp [valueNames])
  | cons p second ih =>
      rw [unionParameters] at h
      cases hp : unionParameter first p with
      | error err => simp [hp] at h
      | ok qs =>
          simp only [hp] at h
          refine ih h ?_
          cases p with
          | body b =>
              rw [valueNames_unionBody hp]
              exact hname.imp_right fun hmem => by simpa [valueNames] using hmem
          | value v =>
              rw [unionParameter, Except.ok.injEq] at hp
              have hcons : valueNames (.value v :: second) = v.name :: valueNames second := rfl
              rw [hcons, List.mem_cons, ← or_assoc] at hname
              refine hname.imp_left fun hmem => ?_
              rw [← hp]
              split
              · rename_i hslot
                rcases hmem with hmem | rfl
                · exact hmem
                · obtain ⟨q, hq, hqv⟩ := List.any_eq_true.1 hslot
                  cases q with
                  | body b => cases hqv
                  | value w =>
                      simp only [Parameter.fillsSlot, ValueParameter.sameSlot, Bool.and_eq_true,
                        decide_eq_true_eq] at hqv
                      rw [← hqv.2]
                      exact List.mem_filterMap.2 ⟨.value w, hq, rfl⟩
              · rw [valueNames_append, List.mem_append]
                exact hmem.imp_right fun he => by simp [valueNames, he]

/-! ### Operations -/

/-- The union of two lists of content types adds those that are not empty. -/
theorem unionTexts_eq_addAll_filter (first second : List String) :
    unionTexts first second = addAll first (second.filter fun t => !t.isEmpty) := by
  induction second generalizing first with
  | nil => rfl
  | cons t second ih =>
      have hone : (t :: second).filter (fun t => !t.isEmpty)
          = shownTypes (some t) ++ second.filter fun t => !t.isEmpty := by
        rw [← List.singleton_append, List.filter_append]
        rfl
      rw [hone, addAll_append, ← appendNew_eq_addAll]
      exact ih (appendNew first (some t))

/-- What is added is without repetitions. -/
theorem unionTexts_eq_append (first second : List String) :
    unionTexts first second
      = first ++ (second.filter fun t => t ∉ first && !t.isEmpty).eraseDups := by
  rw [unionTexts_eq_addAll_filter, addAll_eq_append_eraseDups, List.filter_filter]

/-- Texts that are not empty are added as they are. -/
theorem unionTexts_eq_addAll {first second : List String} (h : ∀ t ∈ second, t.isEmpty = false) :
    unionTexts first second = addAll first second := by
  rw [unionTexts_eq_addAll_filter, List.filter_eq_self.2 fun t ht => by simp [h t ht]]

/-- What a union of operations is. -/
theorem Operation.union_eq_ok_iff {a b c : Operation} :
    a.union b = .ok c ↔
      unionMembers Response.union a.responses b.responses = .ok c.responses
        ∧ unionParameters a.parameters b.parameters = .ok c.parameters
        ∧ c.consumes = unionTexts a.consumes b.consumes
        ∧ c.produces = unionTexts a.produces b.produces ∧ c.extras = a.extras := by
  rw [Operation.union]
  cases unionMembers Response.union a.responses b.responses with
  | error err => simp
  | ok responses =>
      simp only [map_eq_ok_iff, Except.ok.injEq]
      constructor
      · rintro ⟨parameters, hp, rfl⟩
        exact ⟨rfl, hp, rfl, rfl, rfl⟩
      · obtain ⟨consumes, produces, parameters, responses', extras⟩ := c
        rintro ⟨rfl, hp, rfl, rfl, rfl⟩
        exact ⟨parameters, hp, rfl⟩

/-- The parameters of a union of operations, if those of the second operation all have a namesake in
the path among those of the first: the bodies are joined after the parameters of the first. -/
theorem Operation.parameters_union {a b c : Operation} {vs ws : List ValueParameter}
    {body body' : Option Schema} (ha : a.parameters = vs.map .value ++ bodyParameters body)
    (hb : b.parameters = ws.map .value ++ bodyParameters body') (hvs : ∀ p ∈ vs, p.place = .path)
    (hws : ∀ p ∈ ws, p.place = .path) (hnames : ∀ p ∈ ws, p.name ∈ vs.map ValueParameter.name)
    (h : a.union b = .ok c) :
    ∃ u, unionOption Schema.join body body' = .ok u
      ∧ c.parameters = vs.map .value ++ bodyParameters u := by
  have hparams := (Operation.union_eq_ok_iff.1 h).2.1
  rw [ha, hb, unionParameters_of_subset hvs hws hnames] at hparams
  exact unionParameters_bodyParameters hparams

/-- What a union of responses is. -/
theorem Response.union_eq_ok_iff {a b c : Response} :
    a.union b = .ok c ↔ unionOption Schema.join a.schema b.schema = .ok c.schema
      ∧ c.description = a.description ∧ c.extras = a.extras := by
  rw [Response.union, map_eq_ok_iff]
  constructor
  · rintro ⟨schema, hs, rfl⟩
    exact ⟨hs, rfl, rfl⟩
  · obtain ⟨description, schema, extras⟩ := c
    rintro ⟨hs, rfl, rfl⟩
    exact ⟨schema, hs, rfl⟩

/-- What the two sides show of replies under a status code is joined in a union of operations. -/
theorem Operation.replySchema_union {a b c : Operation} (hn : b.responses.keys.Nodup)
    (h : a.union b = .ok c) (s : String) :
    unionOption Schema.join ((a.responses.get? s).bind Response.schema)
        ((b.responses.get? s).bind Response.schema)
      = .ok ((c.responses.get? s).bind Response.schema) := by
  have hget := get?_unionMembers hn (Operation.union_eq_ok_iff.1 h).1 s
  cases hra : a.responses.get? s with
  | none =>
      rw [hra] at hget
      rw [← Except.ok.inj hget]
      rfl
  | some ra =>
      rw [hra] at hget
      cases hrb : b.responses.get? s with
      | none =>
          rw [hrb] at hget
          rw [← Except.ok.inj hget]
          exact unionOption_none_right _
      | some rb =>
          rw [hrb] at hget
          obtain ⟨rc, hr, hrc⟩ := unionOption_some_iff.1 hget
          rw [← hrc]
          exact (Response.union_eq_ok_iff.1 hr).1

/-! ### Documents -/

namespace Document

section

variable {a b c : Document}

/-- What a union of documents is. -/
theorem union_eq_ok_iff :
    a.union b = .ok c ↔ a.swagger = formatVersion ∧ b.swagger = formatVersion
      ∧ unionMembers PathItem.union a.paths b.paths = .ok c.paths
      ∧ c = { a with paths := c.paths } := by
  rw [Document.union]
  by_cases ha : a.swagger = formatVersion
  · by_cases hb : b.swagger = formatVersion
    · rw [if_neg (not_not_intro ha), if_neg (not_not_intro hb)]
      cases unionMembers PathItem.union a.paths b.paths with
      | error err => simp
      | ok paths =>
          simp only [Except.ok.injEq]
          constructor
          · rintro rfl
            exact ⟨ha, hb, rfl, rfl⟩
          · rintro ⟨-, -, rfl, hc⟩
            exact hc.symm
    · rw [if_neg (not_not_intro ha), if_pos hb]
      simp [hb]
  · rw [if_pos ha]
    simp [ha]

theorem templates_union (h : a.union b = .ok c) :
    c.templates = addAll a.templates b.templates :=
  keys_unionMembers (union_eq_ok_iff.1 h).2.2.1

/-- Under each template of a union stands the union of the path items, or the one that there is. -/
theorem pathItem_union (hn : b.templates.Nodup) (h : a.union b = .ok c) (t : String) :
    (a.pathItem t).union (b.pathItem t) = .ok (c.pathItem t) ∨
      (t ∉ b.templates ∧ c.pathItem t = a.pathItem t) ∨
      (t ∉ a.templates ∧ c.pathItem t = b.pathItem t) := by
  have hget := get?_unionMembers hn (union_eq_ok_iff.1 h).2.2.1 t
  rw [pathItem, pathItem, pathItem]
  cases ha : a.paths.get? t with
  | none =>
      rw [ha] at hget
      rw [← Except.ok.inj hget]
      exact Or.inr (Or.inr ⟨Members.get?_eq_none_iff.1 ha, rfl⟩)
  | some item =>
      rw [ha] at hget
      cases hb : b.paths.get? t with
      | none =>
          rw [hb] at hget
          rw [← Except.ok.inj hget]
          exact Or.inr (Or.inl ⟨Members.get?_eq_none_iff.1 hb, rfl⟩)
      | some item' =>
          rw [hb] at hget
          obtain ⟨r, hu, hr⟩ := unionOption_some_iff.1 hget
          rw [← hr]
          exact Or.inl hu

/-- **At each template and method of a union stands the union of the two operations.** -/
theorem operation?_union (hn : b.templates.Nodup) (h : a.union b = .ok c) (t : String)
    (m : Method) :
    unionOption Operation.union (a.operation? t m) (b.operation? t m)
      = .ok (c.operation? t m) := by
  rcases pathItem_union hn h t with hu | ⟨hb, hc⟩ | ⟨ha, hc⟩
  · exact (PathItem.operation?_union hu).1 m
  · rw [operation?_of_not_mem hb, unionOption_none_right, operation?, operation?, hc]
  · rw [operation?_of_not_mem ha, operation?, operation?, hc]
    rfl

/-- A union of path items that share nothing shares nothing. -/
theorem shared_union (hn : b.templates.Nodup) (h : a.union b = .ok c) (t : String)
    (ha : (a.pathItem t).parameters = none ∧ (a.pathItem t).extras = [])
    (hb : (b.pathItem t).parameters = none ∧ (b.pathItem t).extras = []) :
    (c.pathItem t).parameters = none ∧ (c.pathItem t).extras = [] := by
  rcases pathItem_union hn h t with hu | ⟨-, hc⟩ | ⟨-, hc⟩
  · obtain ⟨-, hparameters, hextras⟩ := PathItem.operation?_union hu
    rw [hparameters, hextras, ha.1, hb.1]
    exact ⟨rfl, ha.2⟩
  · rw [hc]
    exact ha
  · rw [hc]
    exact hb

end

end Document

end ApiScribe
