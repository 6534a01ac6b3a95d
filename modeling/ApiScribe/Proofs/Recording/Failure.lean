/-
**Why an exchange is not recorded.**

The version of the document, the method and the URL are looked at first, in this order, and each of
them may end it.  After that only the two bodies can: one of them is not what it is announced as, has
no schema, or has one that does not join with what the operation knows.

Main definitions:

* `ApiScribe.Operation.schemas` — the schemas that an operation knows;
* `ApiScribe.Exchange.Sends` — the data of one of the bodies;
* `ApiScribe.Operation.Refuses` — the causes that lie in the bodies.

Main results:

* `ApiScribe.Operation.refuses_of_record` — every failure in an operation has such a cause;
* `ApiScribe.Document.record_of_url_error` — what a refused URL does;
* `ApiScribe.Document.record_eq_error` — **every cause for which an exchange is not recorded**.
-/

import ApiScribe.Proofs.Outcome
import ApiScribe.Proofs.Template.Resolve
import ApiScribe.Recording.Step

set_option autoImplicit false

namespace ApiScribe

/-! ### Schemas of an operation -/

/-- The schema of a parameter, if it is the body of the request. -/
def Parameter.schema? : Parameter → Option Schema
  | .value _ => none
  | .body b => some b.schema

/-- The schemas of an operation: those of its parameters and those of its answers. -/
def Operation.schemas (op : Operation) : List Schema :=
  op.parameters.filterMap Parameter.schema? ++ op.responses.filterMap (·.2.schema)

theorem Operation.mem_schemas_iff {op : Operation} {s : Schema} :
    s ∈ op.schemas ↔ (∃ b, .body b ∈ op.parameters ∧ b.schema = s)
      ∨ ∃ status r, (status, r) ∈ op.responses ∧ r.schema = some s := by
  rw [schemas, List.mem_append, List.mem_filterMap, List.mem_filterMap]
  refine or_congr ⟨?_, ?_⟩ ⟨?_, ?_⟩
  · rintro ⟨p, hp, hs⟩
    cases p with
    | value v => cases hs
    | body b => exact ⟨b, hp, Option.some.inj hs⟩
  · rintro ⟨b, hb, rfl⟩
    exact ⟨.body b, hb, rfl⟩
  · rintro ⟨⟨status, r⟩, hr, hs⟩
    exact ⟨status, r, hr, hs⟩
  · rintro ⟨status, r, hr, hs⟩
    exact ⟨(status, r), hr, hs⟩

/-! ### Operations -/

/-- The data of one of the bodies of an exchange. -/
def Exchange.Sends (x : Exchange) (v : Value) : Prop :=
  readBody x.request.body x.request.contentType? = .ok v
    ∨ readBody x.reply.body x.reply.contentType? = .ok v

/-- Why an operation does not take over an exchange. -/
inductive Operation.Refuses (op : Operation) (x : Exchange) : RecordError → Prop
  /-- A body is not what it is announced as. -/
  | body (e : BodyError) : Refuses op x (.body e)
  /-- A body has no schema. -/
  | sample {v : Value} {e : SchemaError} (sends : x.Sends v)
      (cause : Schema.ofSample v = .error e) : Refuses op x (.schema e)
  /-- A body has a schema that does not join with one that the operation knows. -/
  | join {v : Value} {b s : Schema} {e : SchemaError} (sends : x.Sends v)
      (known : b ∈ op.schemas) (shape : Schema.ofSample v = .ok s)
      (cause : Schema.join b s = .error e) : Refuses op x (.schema e)

/-- A join into the bodies among parameters fails only where the join with one of them does. -/
theorem joinBody_eq_error {s : Schema} {ps : List Parameter} {e : SchemaError}
    (h : joinBody s ps = .error e) : ∃ b, .body b ∈ ps ∧ Schema.join b.schema s = .error e := by
  induction ps with
  | nil => cases h
  | cons p ps ih =>
      cases p with
      | body b => exact ⟨b, List.mem_cons_self, map_eq_error_iff.1 h⟩
      | value v =>
          obtain ⟨b, hb, hj⟩ := ih (map_eq_error_iff.1 h)
          exact ⟨b, List.mem_cons_of_mem _ hb, hj⟩

section

variable {op : Operation} {x : Exchange} {e : RecordError}

theorem Operation.refuses_of_recordBody {ps : List Parameter}
    (hknown : ∀ b, .body b ∈ ps → b.schema ∈ op.schemas)
    (h : recordBody ps x.request = .error e) : op.Refuses x e := by
  rw [recordBody, schemaOfRequestBody] at h
  split at h
  · cases h
  · cases hread : readBody x.request.body x.request.contentType? with
    | error err =>
        simp only [hread] at h
        cases h
        exact .body err
    | ok v =>
        cases hs : Schema.ofSample v with
        | error err =>
            simp only [hread, hs, Except.mapError] at h
            cases h
            exact .sample (Or.inl hread) hs
        | ok s =>
            simp only [hread, hs] at h
            obtain ⟨err, hjoin, rfl⟩ := mapError_eq_error_iff.1 h
            obtain ⟨b, hb, hj⟩ := joinBody_eq_error hjoin
            exact .join (Or.inl hread) (hknown b hb) hs hj

theorem Operation.refuses_of_recordReply {existing : Option Response}
    (hknown : ∀ b, existing.bind Response.schema = some b → b ∈ op.schemas)
    (h : recordReply existing x.reply = .error e) : op.Refuses x e := by
  have h := map_eq_error_iff.1 h
  rw [replySchema, schemaOfBody] at h
  cases hread : readBody x.reply.body x.reply.contentType? with
  | error err =>
      simp only [hread] at h
      cases h
      exact .body err
  | ok v =>
      by_cases hn : v.isNull = true
      · simp [hread, hn] at h
      · cases hs : Schema.ofSample v with
        | error err =>
            simp only [hread, hn, hs] at h
            cases h
            exact .sample (Or.inr hread) hs
        | ok s =>
            simp only [hread, hn, hs] at h
            obtain ⟨err, hjoin, rfl⟩ := mapError_eq_error_iff.1 h
            have hjoin := map_eq_error_iff.1 hjoin
            cases hb : existing.bind Response.schema with
            | none =>
                rw [hb] at hjoin
                cases hjoin
            | some b =>
                rw [hb] at hjoin
                exact .join (Or.inr hread) (hknown b hb) hs hjoin

/-- New path parameters bring no schemas. -/
theorem mem_of_body_mem_addParameters {ps : List Parameter} {new : List ValueParameter}
    {b : BodyParameter} (h : .body b ∈ addParameters ps new) : .body b ∈ ps := by
  rcases List.mem_append.1 h with hb | hb
  · exact hb
  · obtain ⟨v, -, hv⟩ := List.mem_map.1 hb
    cases hv

/-- **An operation that does not take over an exchange has a cause for it in a body.** -/
theorem Operation.refuses_of_record {new : List ValueParameter} (h : op.record new x = .error e) :
    op.Refuses x e := by
  rw [Operation.record] at h
  split at h
  · rename_i err hbody
    cases h
    refine refuses_of_recordBody (fun b hb => ?_) hbody
    exact mem_schemas_iff.2 (Or.inl ⟨b, mem_of_body_mem_addParameters hb, rfl⟩)
  · refine refuses_of_recordReply (fun s hs => ?_) (map_eq_error_iff.1 h)
    obtain ⟨r, hget, hschema⟩ := Option.bind_eq_some_iff.1 hs
    exact mem_schemas_iff.2 (Or.inr ⟨_, r, Members.mem_of_get? hget, hschema⟩)

end

/-! ### Documents -/

namespace Document

variable {doc : Document} {x : Exchange}

/-- A refused URL ends it before the bodies are looked at. -/
theorem record_of_url_error {m : Method} {e : UrlError} (hversion : doc.swagger = formatVersion)
    (hmethod : x.request.method? = some m) (hurl : pathOf x.request.url = .error e) :
    doc.record x = .error (.url e) := by
  rw [record, if_neg (not_not.2 hversion), hmethod]
  simp only [Template.resolve, hurl, Except.map]

/-- **Every cause for which an exchange is not recorded.** -/
theorem record_eq_error {e : RecordError} (h : doc.record x = .error e) :
    (doc.swagger ≠ formatVersion ∧ e = .otherVersion doc.swagger)
      ∨ (x.request.method? = none ∧ e = .unsupportedMethod x.request.method)
      ∨ ∃ m, x.request.method? = some m ∧
        ((∃ err, pathOf x.request.url = .error err ∧ e = .url err)
          ∨ ∃ path resolution, pathOf x.request.url = .ok path
            ∧ Template.resolve x.request.url doc.templates = .ok resolution
            ∧ ((doc.pathItem resolution.template).startOperation m).Refuses x e) := by
  rw [record] at h
  split at h
  · rename_i hversion
    cases h
    exact Or.inl ⟨hversion, rfl⟩
  · split at h
    · rename_i hmethod
      cases h
      exact Or.inr (Or.inl ⟨hmethod, rfl⟩)
    · rename_i m hmethod
      refine Or.inr (Or.inr ⟨m, hmethod, ?_⟩)
      cases hurl : pathOf x.request.url with
      | error err =>
          have hresolve : Template.resolve x.request.url doc.templates = .error err := by
            simp only [Template.resolve, hurl, Except.map]
          rw [hresolve] at h
          cases h
          exact Or.inl ⟨err, rfl, rfl⟩
      | ok path =>
          obtain ⟨resolution, hresolve⟩ :
              ∃ resolution, Template.resolve x.request.url doc.templates = .ok resolution := by
            simp only [Template.resolve, hurl, Except.map]
            exact ⟨_, rfl⟩
          rw [hresolve] at h
          exact Or.inr ⟨path, resolution, rfl, hresolve,
            Operation.refuses_of_record (map_eq_error_iff.1 h)⟩

end Document

end ApiScribe
