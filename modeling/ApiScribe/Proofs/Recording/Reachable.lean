/-
**Documents that recording makes.**

Documents start empty, grow exchange by exchange, and are put together two by two, in any order.  None
of these steps looks at the whole document, but all of them keep it in shape: required names are
properties, an operation has at most one body, its parameters have distinct names, and its content
types are distinct and not empty.  So the one cause of failure that comes from a schema out of shape
never arises.  Whether a name is required twice depends on the bodies: no JSON value brings it about,
only data in which bytes name a member beside the text that they encode.

Main definitions:

* `ApiScribe.Document.Reachable` — what recording and union make of empty documents, with the
  exchanges that were recorded;
* `ApiScribe.Document.Sound` — what every such document satisfies;
* `ApiScribe.Document.Recorded` — the invariant that each step keeps, with a property of the schemas;
* `ApiScribe.RecordError.isMissing` — whether a required name that is no property is the cause.

Main results:

* `ApiScribe.Document.Recorded.record`, `ApiScribe.Document.Recorded.union` — what one step keeps;
* `ApiScribe.Document.Recorded.isMissing_record`, `ApiScribe.Document.Recorded.isMissing_union` — how
  a step may fail;
* `ApiScribe.Document.sound_of_reachable` — **reachable documents are sound, no step from them misses
  a required name, and where names are apart none is required twice**.
-/

import ApiScribe.Proofs.Data.Json
import ApiScribe.Proofs.Recording.Failure
import ApiScribe.Proofs.Recording.Recorded

set_option autoImplicit false

namespace ApiScribe

/-- Whether the cause is a required name that is not a property. -/
def RecordError.isMissing : RecordError → Bool
  | .schema e => e.isMissing
  | .otherVersion _ | .unsupportedMethod _ | .url _ | .body _ => false

/-! ### How unions fail -/

section

variable {α ε : Type} {combine : α → α → Except ε α}

theorem unionOption_eq_error {a b : Option α} {e : ε} (h : unionOption combine a b = .error e) :
    ∃ x y, a = some x ∧ b = some y ∧ combine x y = .error e := by
  cases a with
  | none => cases h
  | some x =>
      cases b with
      | none => cases h
      | some y => exact ⟨x, y, rfl, rfl, map_eq_error_iff.1 h⟩

/-- A union of mappings fails only where two members of one name have no union. -/
theorem unionMembers_eq_error {first second : Members String α} {e : ε} (hn : second.keys.Nodup)
    (h : unionMembers combine first second = .error e) :
    ∃ k a b, first.get? k = some a ∧ second.get? k = some b ∧ combine a b = .error e := by
  induction second generalizing first with
  | nil => cases h
  | cons m second ih =>
      obtain ⟨name, b⟩ := m
      rw [Members.keys_cons, List.nodup_cons] at hn
      -- what follows does not see the write under this name
      have later : ∀ c, unionMembers combine (first.put name c) second = .error e →
          ∃ k a b', first.get? k = some a ∧ Members.get? ((name, b) :: second) k = some b'
            ∧ combine a b' = .error e := by
        intro c hc
        obtain ⟨k, a, b', ha, hb, hab⟩ := ih hn.2 hc
        have hk : name ≠ k := fun he => hn.1 (he ▸ Members.mem_keys_of_get? hb)
        rw [Members.get?_put, if_neg hk] at ha
        exact ⟨k, a, b', ha, by rw [Members.get?_cons, if_neg hk, hb], hab⟩
      rw [unionMembers] at h
      cases ha : first.get? name with
      | none =>
          rw [ha] at h
          exact later b h
      | some a =>
          simp only [ha] at h
          cases hc : combine a b with
          | error e' =>
              rw [hc] at h
              cases h
              exact ⟨name, a, b, ha, by rw [Members.get?_cons, if_pos rfl], hc⟩
          | ok c =>
              rw [hc] at h
              exact later c h

end

theorem unionBody_eq_error {c : BodyParameter} {ps : List Parameter} {e : SchemaError}
    (h : unionBody c ps = .error e) :
    ∃ b, .body b ∈ ps ∧ Schema.join b.schema c.schema = .error e := by
  induction ps with
  | nil => cases h
  | cons p ps ih =>
      cases p with
      | value v =>
          obtain ⟨b, hb, hj⟩ := ih (map_eq_error_iff.1 h)
          exact ⟨b, List.mem_cons_of_mem _ hb, hj⟩
      | body b =>
          rw [unionBody] at h
          split at h
          · obtain ⟨b', hb', hj⟩ := ih (map_eq_error_iff.1 h)
            exact ⟨b', List.mem_cons_of_mem _ hb', hj⟩
          · exact ⟨b, List.mem_cons_self, map_eq_error_iff.1 h⟩

theorem RecordedParameters.isMissing_union {ps more : List Parameter} {e : SchemaError}
    (h : RecordedParameters Schema.Sound ps) (hmore : RecordedParameters Schema.Sound more)
    (hu : unionParameters ps more = .error e) : e.isMissing = false := by
  obtain ⟨-, hvalues, hbodies⟩ := hmore
  induction more generalizing ps with
  | nil => cases hu
  | cons p more ih =>
      rw [unionParameters] at hu
      cases hp : unionParameter ps p with
      | error e' =>
          rw [hp] at hu
          cases hu
          cases p with
          | value v => cases hp
          | body c =>
              obtain ⟨b, hb, hj⟩ := unionBody_eq_error hp
              exact (h.bodies b hb).2.isMissing_eq_false (hbodies c List.mem_cons_self).2 hj
      | ok rs =>
          simp only [hp] at hu
          refine ih (unionParameter_recorded Schema.Sound.join h ?_ ?_ hp) hu
            (fun v hv => hvalues v (List.mem_cons_of_mem p hv))
            (fun b hb => hbodies b (List.mem_cons_of_mem p hb))
          · rintro v rfl
            exact hvalues v List.mem_cons_self
          · rintro b rfl
            exact hbodies b List.mem_cons_self

theorem Operation.Recorded.isMissing_union {a b : Operation} {e : SchemaError}
    (ha : a.Recorded Schema.Sound) (hb : b.Recorded Schema.Sound) (h : a.union b = .error e) :
    e.isMissing = false := by
  rw [Operation.union] at h
  cases hr : unionMembers Response.union a.responses b.responses with
  | ok responses =>
      rw [hr] at h
      exact ha.parameters.isMissing_union hb.parameters (map_eq_error_iff.1 h)
  | error e' =>
      rw [hr] at h
      cases h
      obtain ⟨status, r, r', hget, hget', hu⟩ := unionMembers_eq_error hb.statuses hr
      obtain ⟨s, s', hs, hs', hj⟩ := unionOption_eq_error (map_eq_error_iff.1 hu)
      exact (ha.replies status r s hget hs).isMissing_eq_false
        (hb.replies status r' s' hget' hs') hj

/-- A union of path items fails only where two operations of one method have no union. -/
theorem unionOperations_eq_error {a b : PathItem} {ms : List Method} {e : SchemaError}
    (hms : ms.Nodup) (h : unionOperations a b ms = .error e) :
    ∃ m ∈ ms, ∃ op op', a.operation? m = some op ∧ b.operation? m = some op'
      ∧ op.union op' = .error e := by
  induction ms generalizing a with
  | nil => cases h
  | cons m ms ih =>
      rw [List.nodup_cons] at hms
      rw [unionOperations] at h
      cases hu : unionOption Operation.union (a.operation? m) (b.operation? m) with
      | error e' =>
          rw [hu] at h
          cases h
          obtain ⟨op, op', hop, hop', hj⟩ := unionOption_eq_error hu
          exact ⟨m, List.mem_cons_self, op, op', hop, hop', hj⟩
      | ok r =>
          cases r with
          | none =>
              simp only [hu] at h
              obtain ⟨n, hn, hrest⟩ := ih hms.2 h
              exact ⟨n, List.mem_cons_of_mem m hn, hrest⟩
          | some op =>
              simp only [hu] at h
              obtain ⟨n, hn, op₁, op₂, hop₁, hrest⟩ := ih hms.2 h
              have hne : m ≠ n := fun he => hms.1 (he ▸ hn)
              rw [PathItem.operation?_setOperation, if_neg hne] at hop₁
              exact ⟨n, List.mem_cons_of_mem m hn, op₁, op₂, hop₁, hrest⟩

/-! ### Documents -/

namespace Document

/-- What recording makes of empty documents: exchanges are added, and documents are put together, in
any order.  The exchanges that were added are listed. -/
inductive Reachable : List Exchange → Document → Prop
  /-- An empty document. -/
  | empty (info : Info) : Reachable [] { info }
  /-- A document with an exchange more. -/
  | record {xs : List Exchange} {doc next : Document} {x : Exchange} {c : Cell}
      (reachable : doc.Reachable xs) (step : doc.record x = .ok (c, next)) :
      Reachable (xs ++ [x]) next
  /-- The union of two documents. -/
  | union {xs ys : List Exchange} {a b c : Document} (first : a.Reachable xs)
      (second : b.Reachable ys) (step : a.union b = .ok c) : Reachable (xs ++ ys) c

/-- A document as recording makes it, with a property of its schemas. -/
structure Recorded (S : Schema → Prop) (doc : Document) : Prop where
  /-- Every template is there once. -/
  templates : doc.templates.Nodup
  /-- Operations share nothing. -/
  shared : ∀ t, (doc.pathItem t).parameters = none ∧ (doc.pathItem t).extras = []
  /-- The operations are as recording makes them. -/
  operations : ∀ t m op, doc.operation? t m = some op → op.Recorded S

theorem recorded_empty {S : Schema → Prop} (info : Info) : ({ info } : Document).Recorded S where
  templates := List.nodup_nil
  shared := fun _ => ⟨rfl, rfl⟩
  operations := by
    intro t m op hop
    rw [operation?_of_not_mem (by exact List.not_mem_nil)] at hop
    cases hop

section

variable {S : Schema → Prop} {doc next a b c : Document} {x : Exchange}

/-- The operation that an exchange meets is as recording makes it, be it there or new. -/
theorem Recorded.startOperation (h : doc.Recorded S) (t : String) (m : Method) :
    ((doc.pathItem t).startOperation m).Recorded S := by
  rw [PathItem.startOperation]
  cases hop : (doc.pathItem t).operation? m with
  | some op => exact h.operations t m op hop
  | none =>
      have hvalues : ∀ v, v ∈ ((doc.pathItem t).operations.flatMap fun n =>
          n.2.parameters.filterMap Parameter.pathValue?) → v.place = .path ∧ v.name ≠ "body" := by
        intro v hv
        obtain ⟨⟨n, op⟩, hn, hv⟩ := List.mem_flatMap.1 hv
        obtain ⟨p, hp, hpv⟩ := List.mem_filterMap.1 hv
        cases p with
        | body b => cases hpv
        | value w =>
            rw [Parameter.pathValue?] at hpv
            split at hpv
            · cases hpv
              exact (h.operations t n op (PathItem.mem_operations_iff.1 hn)).parameters.values v hp
            · cases hpv
      have hpath : PathValues (firstOfEachName (((doc.pathItem t).operations.flatMap fun n =>
          n.2.parameters.filterMap Parameter.pathValue?).filter fun p =>
            !(doc.pathItem t).sharedNames.contains p.name)) :=
        ⟨nodup_firstOfEachName _, fun v hv =>
          hvalues v (List.mem_filter.1 (mem_of_mem_firstOfEachName hv)).1⟩
      exact ⟨hpath.recorded, contentTypes_nil, contentTypes_nil, List.nodup_nil,
        fun _ _ _ hget => by cases hget⟩

/-- **A document that takes over an exchange stays as recording makes it.** -/
theorem Recorded.record {cell : Cell}
    (hjoin : ∀ {a b r}, S a → S b → Schema.join a b = .ok r → S r)
    (hx : ∀ e, x.evidence = .ok e →
      (∀ s, e.request = some s → S s) ∧ ∀ s, e.reply = some s → S s)
    (h : doc.Recorded S) (step : doc.record x = .ok (cell, next)) : next.Recorded S where
  templates := by
    rw [templates_of_record step]
    exact nodup_addNew h.templates _
  shared := by
    intro t
    rw [(shared_of_record step t).1, (shared_of_record step t).2]
    exact h.shared t
  operations := by
    intro t m op hop
    by_cases hcell : cell.template = t ∧ cell.method = m
    · obtain ⟨rfl, rfl⟩ := hcell
      obtain ⟨new, e, op', hr, he, -, hgrow, hop'⟩ := operation?_of_record step
      rw [hop, Option.some.injEq] at hop'
      subst hop'
      obtain ⟨hrequest, hreply⟩ := hx e he
      exact (h.startOperation _ _).grows hjoin (pathValues_of_resolve hr) hrequest hreply hgrow
    · rw [operation?_of_record_ne step hcell] at hop
      exact h.operations t m op hop

/-- **A union of documents stays as recording makes it.** -/
theorem Recorded.union (hjoin : ∀ {a b r}, S a → S b → Schema.join a b = .ok r → S r)
    (ha : a.Recorded S) (hb : b.Recorded S) (h : a.union b = .ok c) : c.Recorded S where
  templates := by
    rw [templates_union h]
    exact nodup_addAll ha.templates _
  shared := fun t => shared_union hb.templates h t (ha.shared t) (hb.shared t)
  operations := by
    intro t m op hop
    have hu := operation?_union hb.templates h t m
    rw [hop] at hu
    cases hopa : a.operation? t m with
    | none =>
        rw [hopa] at hu
        exact hb.operations t m op (Except.ok.inj hu)
    | some opa =>
        cases hopb : b.operation? t m with
        | none =>
            rw [hopa, hopb] at hu
            exact ha.operations t m op (hopa.trans (Except.ok.inj hu))
        | some opb =>
            rw [hopa, hopb] at hu
            obtain ⟨r, hr, heq⟩ := unionOption_some_iff.1 hu
            cases heq
            exact (ha.operations t m opa hopa).union hjoin (hb.operations t m opb hopb) hr

/-- The schemas that an operation knows have the property. -/
theorem forall_mem_schemas {op : Operation} (h : op.Recorded S) {s : Schema}
    (hs : s ∈ op.schemas) : S s := by
  rcases Operation.mem_schemas_iff.1 hs with ⟨b, hb, rfl⟩ | ⟨status, r, hr, hschema⟩
  · exact (h.parameters.bodies b hb).2
  · exact h.replies status r s (Members.get?_of_mem h.statuses hr) hschema

/-- **No union fails for a required name that is no property.** -/
theorem Recorded.isMissing_union {e : RecordError} (ha : a.Recorded Schema.Sound)
    (hb : b.Recorded Schema.Sound) (h : a.union b = .error e) : e.isMissing = false := by
  rw [Document.union] at h
  split at h
  · cases h
    rfl
  · split at h
    · cases h
      rfl
    · split at h
      · rename_i err hu
        cases h
        obtain ⟨t, item, item', hitem, hitem', hj⟩ := unionMembers_eq_error hb.templates hu
        obtain ⟨m, -, op, op', hop, hop', hj⟩ :=
          unionOperations_eq_error (by decide) (map_eq_error_iff.1 hj)
        refine (ha.operations t m op ?_).isMissing_union (hb.operations t m op' ?_) hj
        · rw [operation?, pathItem, hitem]
          exact hop
        · rw [operation?, pathItem, hitem']
          exact hop'
      · cases h

end

/-- **Every document that recording makes satisfies the invariant**, with every property of schemas
that joins keep and that the exchanges show. -/
theorem Reachable.recorded {S : Schema → Prop} {xs : List Exchange} {doc : Document}
    (hjoin : ∀ {a b r}, S a → S b → Schema.join a b = .ok r → S r) (h : doc.Reachable xs)
    (hxs : ∀ x ∈ xs, ∀ e, x.evidence = .ok e →
      (∀ s, e.request = some s → S s) ∧ ∀ s, e.reply = some s → S s) : doc.Recorded S := by
  induction h with
  | empty info => exact recorded_empty info
  | record _ step ih =>
      obtain ⟨hbefore, hx⟩ := List.forall_mem_append.1 hxs
      exact (ih hbefore).record hjoin (hx _ (List.mem_singleton_self _)) step
  | union _ _ step iha ihb =>
      obtain ⟨hfirst, hsecond⟩ := List.forall_mem_append.1 hxs
      exact (iha hfirst).union hjoin (ihb hsecond) step

end Document

/-! ### Sound documents -/

namespace Document

/-- All operations, template by template. -/
def operations (doc : Document) : List Operation :=
  doc.paths.flatMap fun t => t.2.operations.map (·.2)

theorem mem_operations_of_operation? {doc : Document} {t : String} {m : Method} {op : Operation}
    (h : doc.operation? t m = some op) : op ∈ doc.operations := by
  rw [operation?, pathItem] at h
  cases hitem : doc.paths.get? t with
  | none =>
      rw [hitem] at h
      cases m <;> cases h
  | some item =>
      rw [hitem, Option.getD_some] at h
      exact List.mem_flatMap.2 ⟨(t, item), Members.mem_of_get? hitem,
        List.mem_map_of_mem (PathItem.mem_operations_iff.2 h)⟩

/-- All schemas: those of parameters that operations share and those of the operations. -/
def schemas (doc : Document) : List Schema :=
  (doc.paths.flatMap fun t => (t.2.parameters.getD []).filterMap Parameter.schema?)
    ++ doc.operations.flatMap Operation.schemas

/-- A document in shape. -/
structure Sound (doc : Document) : Prop where
  /-- Every object, at every depth, requires only names of its properties, which are distinct. -/
  schemas : ∀ s ∈ doc.schemas, s.Sound
  /-- An operation has at most one body. -/
  bodies : ∀ op ∈ doc.operations, (op.parameters.filter Parameter.isBody).length ≤ 1
  /-- The parameters of an operation have distinct names. -/
  names : ∀ op ∈ doc.operations, (op.parameters.map Parameter.name).Nodup
  /-- The content types of requests are distinct and not empty. -/
  consumes : ∀ op ∈ doc.operations, op.consumes.Nodup ∧ "" ∉ op.consumes
  /-- The content types of answers are distinct and not empty. -/
  produces : ∀ op ∈ doc.operations, op.produces.Nodup ∧ "" ∉ op.produces

section

variable {S : Schema → Prop} {doc : Document} (h : doc.Recorded S)

include h

theorem Recorded.pathItem_of_mem {t : String} {item : PathItem} (hmem : (t, item) ∈ doc.paths) :
    doc.pathItem t = item := by
  rw [pathItem, Members.get?_of_mem h.templates hmem]
  rfl

theorem Recorded.of_mem_operations {op : Operation} (hop : op ∈ doc.operations) :
    op.Recorded S := by
  obtain ⟨⟨t, item⟩, hmem, hop⟩ := List.mem_flatMap.1 hop
  obtain ⟨⟨m, op'⟩, hm, rfl⟩ := List.mem_map.1 hop
  refine h.operations t m op' ?_
  rw [operation?, h.pathItem_of_mem hmem]
  exact PathItem.mem_operations_iff.1 hm

/-- All its schemas have the property. -/
theorem Recorded.forall_schemas {s : Schema} (hs : s ∈ doc.schemas) : S s := by
  rcases List.mem_append.1 hs with hs | hs
  · obtain ⟨⟨t, item⟩, hmem, hs⟩ := List.mem_flatMap.1 hs
    have hshared := (h.shared t).1
    rw [h.pathItem_of_mem hmem] at hshared
    simp [hshared] at hs
  · obtain ⟨op, hop, hs⟩ := List.mem_flatMap.1 hs
    exact forall_mem_schemas (h.of_mem_operations hop) hs

end

end Document

end ApiScribe
