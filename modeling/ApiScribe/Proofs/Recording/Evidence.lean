/-
**What an exchange shows.**

Of an exchange an operation takes over six facts: the two content types, the shapes of the two
bodies, and the status code of the reply.  This module separates the finding of these facts from
what an operation makes of them, and says once what it means that an exchange was recorded.

Main definitions:

* `ApiScribe.Evidence`, `ApiScribe.Exchange.evidence` — the facts that an exchange shows;
* `ApiScribe.joinParameters`, `ApiScribe.joinReply` — the two bodies, joined with what was recorded;
* `ApiScribe.Operation.Grows` — an operation after it has taken over the facts.

Main results:

* `ApiScribe.Operation.record_eq_ok_iff` — recording in an operation is taking over the facts;
* `ApiScribe.Document.record_eq_ok_iff` — recording in a document is recording in the operation of
  one method under one template.
-/

import ApiScribe.Proofs.Recording.Failure
import ApiScribe.Proofs.Schema.Sample
import ApiScribe.Recording.Run

set_option autoImplicit false

namespace ApiScribe

/-! ### The facts -/

/-- The schema of the body of a request, if it has a body. -/
def Request.bodySchema (request : Request) : Except RecordError (Option Schema) :=
  if request.body.isNull then .ok none
  else (schemaOfRequestBody request.body request.contentType?).map some

/-- The schema of the body of a reply, unless the body is empty. -/
def Reply.bodySchema (reply : Reply) : Except RecordError (Option Schema) :=
  schemaOfBody reply.body reply.contentType?

theorem Request.bodySchema_eq_ok_iff {request : Request} {shape : Option Schema} :
    request.bodySchema = .ok shape ↔
      (request.body.isNull = true ∧ shape = none) ∨
        (request.body.isNull = false ∧ ∃ v s, readBody request.body request.contentType? = .ok v
          ∧ Schema.ofSample v = .ok s ∧ shape = some s) := by
  rw [bodySchema, schemaOfRequestBody]
  cases request.body.isNull with
  | true => simp [@eq_comm _ none]
  | false =>
      cases readBody request.body request.contentType? with
      | error err => simp [Except.map]
      | ok v =>
          cases hs : Schema.ofSample v with
          | error err => simp [hs, Except.map, Except.mapError]
          | ok s => simp [hs, Except.map, Except.mapError, @eq_comm _ (some s)]

theorem Reply.bodySchema_eq_ok_iff {reply : Reply} {shape : Option Schema} :
    reply.bodySchema = .ok shape ↔
      ∃ v, readBody reply.body reply.contentType? = .ok v
        ∧ ((v.isNull = true ∧ shape = none) ∨
          (v.isNull = false ∧ ∃ s, Schema.ofSample v = .ok s ∧ shape = some s)) := by
  rw [bodySchema, schemaOfBody]
  cases readBody reply.body reply.contentType? with
  | error err => simp
  | ok v =>
      cases hn : v.isNull with
      | true => simp [hn, @eq_comm _ none]
      | false =>
          cases hs : Schema.ofSample v with
          | error err => simp [hn, hs]
          | ok s => simp [hn, hs, @eq_comm _ (some s)]

/-- What an operation takes over from an exchange. -/
structure Evidence where
  /-- The content type of the request. -/
  requestType : Option String
  /-- The content type of the reply. -/
  replyType : Option String
  /-- The schema of the body of the request. -/
  request : Option Schema
  /-- The status code of the reply. -/
  status : Int
  /-- The schema of the body of the reply. -/
  reply : Option Schema

/-- The text of the status code. -/
def Evidence.statusText (e : Evidence) : String := String.ofList (integerText e.status)

/-- Whole numbers have different texts. -/
theorem integerText_injective {m n : Int} (h : integerText m = integerText n) : m = n := by
  have hdigit : ∀ k : Nat, ∀ c ∈ decimalDigits k, c ≠ '-' := by
    rintro k c hc rfl
    exact absurd (isDigit_of_mem_decimalDigits hc) (by decide)
  -- no digit is a sign, so that a negative number is never read as another one
  cases m with
  | ofNat j =>
      cases n with
      | ofNat k => exact congrArg Int.ofNat (decimalDigits_injective h)
      | negSucc k =>
          rw [integerText, integerText] at h
          exact absurd rfl (hdigit j '-' (h ▸ List.mem_cons_self))
  | negSucc j =>
      cases n with
      | ofNat k =>
          rw [integerText, integerText] at h
          exact absurd rfl (hdigit k '-' (h ▸ List.mem_cons_self))
      | negSucc k =>
          have hjk := decimalDigits_injective (List.cons.inj h).2
          rw [Nat.succ.inj hjk]

theorem Evidence.status_eq {e e' : Evidence} (h : e.statusText = e'.statusText) :
    e.status = e'.status :=
  integerText_injective (String.ofList_inj.1 h)

/-- What an exchange shows, unless a body cannot be described. -/
def Exchange.evidence (x : Exchange) : Except RecordError Evidence :=
  match x.request.bodySchema with
  | .error e => .error e
  | .ok request =>
    x.reply.bodySchema.map fun reply =>
      ⟨x.request.contentType?, x.reply.contentType?, request, x.reply.status, reply⟩

theorem Exchange.evidence_eq_ok_iff {x : Exchange} {e : Evidence} :
    x.evidence = .ok e ↔
      x.request.bodySchema = .ok e.request ∧ x.reply.bodySchema = .ok e.reply
        ∧ e.requestType = x.request.contentType? ∧ e.replyType = x.reply.contentType?
        ∧ e.status = x.reply.status := by
  rw [evidence]
  cases hq : x.request.bodySchema with
  | error err => simp
  | ok request =>
      constructor
      · intro h
        obtain ⟨reply, hp, rfl⟩ := map_eq_ok_iff.1 h
        exact ⟨rfl, hp, rfl, rfl, rfl⟩
      · obtain ⟨requestType, replyType, request', status, reply⟩ := e
        rintro ⟨hrequest, hp, rfl, rfl, rfl⟩
        rw [Except.ok.injEq] at hrequest
        exact map_eq_ok_iff.2 ⟨reply, hp, by rw [hrequest]⟩

/-- The shapes that an exchange shows are the schemas of what it sends. -/
theorem Exchange.forall_evidence {S : Schema → Prop} {x : Exchange} {e : Evidence}
    (h : x.evidence = .ok e) (hS : ∀ v s, x.Sends v → Schema.ofSample v = .ok s → S s) :
    (∀ s, e.request = some s → S s) ∧ ∀ s, e.reply = some s → S s := by
  obtain ⟨hq, hp, -⟩ := evidence_eq_ok_iff.1 h
  constructor
  · intro s hs
    rw [hs] at hq
    rcases Request.bodySchema_eq_ok_iff.1 hq with ⟨-, hnone⟩ | ⟨-, v, t, hv, ht, hst⟩
    · cases hnone
    · cases hst
      exact hS v s (Or.inl hv) ht
  · intro s hs
    rw [hs] at hp
    obtain ⟨v, hv, ⟨-, hnone⟩ | ⟨-, t, ht, hst⟩⟩ := Reply.bodySchema_eq_ok_iff.1 hp
    · cases hnone
    · cases hst
      exact hS v s (Or.inr hv) ht

/-- They require all that they have. -/
theorem Exchange.inferred_evidence {x : Exchange} {e : Evidence} (h : x.evidence = .ok e) :
    (∀ s, e.request = some s → s.Inferred) ∧ ∀ s, e.reply = some s → s.Inferred :=
  forall_evidence h fun _ _ _ => Schema.inferred_ofSample

/-! ### Operations -/

/-- Joins the body of a request, if there is one, into that among parameters. -/
def joinParameters (body : Option Schema) (ps : List Parameter) :
    Except SchemaError (List Parameter) :=
  match body with
  | none => .ok ps
  | some schema => joinBody schema ps

/-- The schema of a reply, joined with the one recorded before.  An empty body leaves no schema. -/
def joinReply (before reply : Option Schema) : Except SchemaError (Option Schema) :=
  match reply with
  | none => .ok none
  | some schema => (joinOption before schema).map some

/-- The answer that is recorded, given the one that was recorded before. -/
def Evidence.response (e : Evidence) (existing : Option Response) (schema : Option Schema) :
    Response :=
  { existing.getD { description := "" } with
    description := statusPhrase e.status
    schema := schema }

/-- What was recorded in an operation under the status code. -/
def Evidence.before (e : Evidence) (op : Operation) : Option Response :=
  op.responses.get? e.statusText

/-- An operation has taken over what an exchange shows, with path parameters that are new. -/
structure Operation.Grows (op : Operation) (new : List ValueParameter) (e : Evidence)
    (op' : Operation) : Prop where
  /-- The content type of the request is added. -/
  consumes : op'.consumes = appendNew op.consumes e.requestType
  /-- The content type of the reply is added. -/
  produces : op'.produces = appendNew op.produces e.replyType
  /-- The new parameters are added, and the body of the request is joined. -/
  parameters : joinParameters e.request (addParameters op.parameters new) = .ok op'.parameters
  /-- The body of the reply is joined under the status code. -/
  responses : ∃ schema, joinReply ((e.before op).bind Response.schema) e.reply = .ok schema
    ∧ op'.responses = op.responses.put e.statusText (e.response (e.before op) schema)
  /-- The free members stay. -/
  extras : op'.extras = op.extras

theorem recordBody_eq_ok_iff {ps ps' : List Parameter} {request : Request} :
    recordBody ps request = .ok ps' ↔
      ∃ body, request.bodySchema = .ok body ∧ joinParameters body ps = .ok ps' := by
  rw [recordBody, Request.bodySchema]
  by_cases hn : request.body.isNull = true
  · simp [hn, joinParameters]
  · rw [if_neg hn, if_neg hn]
    cases schemaOfRequestBody request.body request.contentType? with
    | error err => simp [Except.map]
    | ok schema =>
        cases hj : joinBody schema ps <;> simp [Except.map, Except.mapError, joinParameters, hj]

theorem recordReply_eq_ok_iff {existing : Option Response} {reply : Reply} {r : Response} :
    recordReply existing reply = .ok r ↔
      ∃ body schema, reply.bodySchema = .ok body
        ∧ joinReply (existing.bind Response.schema) body = .ok schema
        ∧ r = { existing.getD { description := "" } with
                description := statusPhrase reply.status
                schema := schema } := by
  rw [recordReply, replySchema, Reply.bodySchema]
  cases schemaOfBody reply.body reply.contentType? with
  | error err => simp [Except.map]
  | ok body =>
      cases body with
      | none => simp [Except.map, joinReply, eq_comm]
      | some s =>
          cases hj : joinOption (existing.bind Response.schema) s <;>
            simp [Except.map, Except.mapError, joinReply, hj, eq_comm]

/-- **Recording in an operation is taking over what the exchange shows.** -/
theorem Operation.record_eq_ok_iff {op op' : Operation} {new : List ValueParameter}
    {x : Exchange} :
    op.record new x = .ok op' ↔ ∃ e, x.evidence = .ok e ∧ op.Grows new e op' := by
  rw [record]
  constructor
  · intro h
    split at h
    · cases h
    · rename_i parameters hps
      obtain ⟨request, hq, hps⟩ := recordBody_eq_ok_iff.1 hps
      obtain ⟨response, hr, rfl⟩ := map_eq_ok_iff.1 h
      obtain ⟨reply, schema, hp, hschema, rfl⟩ := recordReply_eq_ok_iff.1 hr
      refine ⟨⟨x.request.contentType?, x.reply.contentType?, request, x.reply.status, reply⟩,
        Exchange.evidence_eq_ok_iff.2 ⟨hq, hp, rfl, rfl, rfl⟩, ?_⟩
      exact ⟨rfl, rfl, hps, ⟨schema, hschema, rfl⟩, rfl⟩
  · rintro ⟨e, he, hgrow⟩
    obtain ⟨hq, hp, hqt, hpt, hst⟩ := Exchange.evidence_eq_ok_iff.1 he
    obtain ⟨schema, hschema, hresponses⟩ := hgrow.responses
    have hps := recordBody_eq_ok_iff.2 ⟨e.request, hq, hgrow.parameters⟩
    have htext : x.reply.statusText = e.statusText := by
      rw [Reply.statusText, Evidence.statusText, hst]
    have hr := recordReply_eq_ok_iff.2 ⟨e.reply, schema, hp, hschema, rfl⟩
    have hr' : recordReply (op.responses.get? x.reply.statusText) x.reply
        = .ok (e.response (e.before op) schema) := by
      rw [htext, Evidence.response, hst]
      exact hr
    rw [hps]
    simp only [hr', Except.map, Except.ok.injEq]
    obtain ⟨consumes, produces, parameters, responses, extras⟩ := op'
    simp only [Operation.mk.injEq]
    refine ⟨?_, ?_, trivial, ?_, hgrow.extras.symm⟩
    · rw [← hqt]
      exact hgrow.consumes.symm
    · rw [← hpt]
      exact hgrow.produces.symm
    · rw [htext]
      exact hresponses.symm

/-! ### Documents -/

namespace Document

/-- What is recorded for a method under a template. -/
def operation? (doc : Document) (t : String) (m : Method) : Option Operation :=
  (doc.pathItem t).operation? m

/-- **Recording in a document is recording in the operation of one method under one template.** -/
theorem record_eq_ok_iff {doc doc' : Document} {x : Exchange} {c : Cell} :
    doc.record x = .ok (c, doc') ↔
      doc.swagger = formatVersion ∧ ∃ new e op, x.request.method? = some c.method
        ∧ Template.resolve x.request.url doc.templates = .ok ⟨c.template, new⟩
        ∧ x.evidence = .ok e ∧ c.status = e.statusText
        ∧ ((doc.pathItem c.template).startOperation c.method).Grows new e op
        ∧ doc' = { doc with
            paths := doc.paths.put c.template
              ((doc.pathItem c.template).setOperation op c.method) } := by
  have hstatus : ∀ {e : Evidence}, x.evidence = .ok e → x.reply.statusText = e.statusText := by
    intro e he
    rw [Reply.statusText, Evidence.statusText, (Exchange.evidence_eq_ok_iff.1 he).2.2.2.2]
  rw [record]
  by_cases hv : doc.swagger = formatVersion
  · rw [if_neg (not_not_intro hv)]
    cases hm : x.request.method? with
    | none => simp
    | some m =>
        cases hr : Template.resolve x.request.url doc.templates with
        | error err => simp
        | ok r =>
            simp only [recordAt]
            constructor
            · intro h
              obtain ⟨op, hop, hnext⟩ := map_eq_ok_iff.1 h
              cases hnext
              obtain ⟨e, he, hgrow⟩ := Operation.record_eq_ok_iff.1 hop
              exact ⟨hv, r.parameters, e, op, rfl, rfl, he, hstatus he, hgrow, rfl⟩
            · rintro ⟨-, new, e, op, hm', hr', he, hst, hgrow, rfl⟩
              cases hr'
              cases hm'
              have hop := Operation.record_eq_ok_iff.2 ⟨e, he, hgrow⟩
              simp only [hop, Except.map, hstatus he, ← hst]
  · rw [if_pos hv]
    simp [hv]

end Document

end ApiScribe
