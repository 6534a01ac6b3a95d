/-
**A recorded exchange is absorbed.**

Recording an exchange once more changes nothing, not only at once but after any further exchanges:
its template is still found, its content types are there, and the schemas of its bodies have been
joined and stay so.  The one exception is a reply without a body, which drops the schema that stood
in its cell; so the later replies of the cell must be empty exactly if the absorbed one is.

Main definitions:

* `ApiScribe.Reply.IsEmpty` — the body of a reply is the absent value.

Main results:

* `ApiScribe.Operation.Grows.absorbs`, `ApiScribe.Operation.Grows.keeps` — what an operation has
  taken over is absorbed, and stays so;
* `ApiScribe.Document.record_eq_self_iff` — what it means that an exchange is absorbed;
* `ApiScribe.Document.record_absorbed` — a recorded exchange is absorbed for the rest of a run.
-/

import ApiScribe.Proofs.Recording.History
import ApiScribe.Proofs.Schema.Absorb

set_option autoImplicit false

namespace ApiScribe

/-- The body of a reply is the absent value, as it came or as the text of it. -/
def Reply.IsEmpty (reply : Reply) : Prop :=
  ∃ v, readBody reply.body reply.contentType? = .ok v ∧ v.isNull = true

/-- A reply shows no schema exactly if it is empty. -/
theorem Exchange.evidence_reply_eq_none_iff {x : Exchange} {e : Evidence}
    (h : x.evidence = .ok e) : e.reply = none ↔ x.reply.IsEmpty := by
  obtain ⟨-, hp, -⟩ := evidence_eq_ok_iff.1 h
  obtain ⟨v, hv, ⟨hnull, hnone⟩ | ⟨hnull, s, -, hsome⟩⟩ := Reply.bodySchema_eq_ok_iff.1 hp
  · exact ⟨fun _ => ⟨v, hv, hnull⟩, fun _ => hnone⟩
  · constructor
    · intro hnone
      rw [hsome] at hnone
      cases hnone
    · rintro ⟨w, hw, hwn⟩
      rw [hv, Except.ok.injEq] at hw
      rw [hw, hwn] at hnull
      cases hnull

/-! ### Content types -/

/-- The content types that are taken over: one that is announced and is not empty. -/
def shownTypes (t : Option String) : List String := t.toList.filter fun s => !s.isEmpty

/-- Adding a content type is adding all that are taken over. -/
theorem appendNew_eq_addAll (texts : List String) (t : Option String) :
    appendNew texts t = addAll texts (shownTypes t) := by
  cases t with
  | none => rfl
  | some s =>
      by_cases hs : s.isEmpty = true
      · simp [appendNew, shownTypes, hs]
      · by_cases hm : s ∈ texts <;> simp [appendNew, shownTypes, hs, hm, addNew]

theorem appendNew_absorbs (texts : List String) (t : Option String) :
    appendNew (appendNew texts t) t = appendNew texts t := by
  rw [appendNew_eq_addAll, appendNew_eq_addAll]
  exact addAll_of_subset fun s hs => mem_addAll.2 (Or.inr hs)

theorem appendNew_keeps_absorbed {texts : List String} {t : Option String}
    (habs : appendNew texts t = texts) (t' : Option String) :
    appendNew (appendNew texts t') t = appendNew texts t' := by
  rw [appendNew_eq_addAll] at habs
  rw [appendNew_eq_addAll, appendNew_eq_addAll]
  refine addAll_of_subset fun s hs => mem_addAll.2 (Or.inl ?_)
  rw [← habs]
  exact mem_addAll.2 (Or.inr hs)

/-! ### Bodies -/

theorem joinBody_absorbs {s : Schema} {ps ps' : List Parameter} (hs : s.Closed)
    (h : joinBody s ps = .ok ps') : joinBody s ps' = .ok ps' := by
  induction ps generalizing ps' with
  | nil =>
      cases h
      exact map_eq_ok_iff.2 ⟨s, Schema.join_self hs, rfl⟩
  | cons p ps ih =>
      cases p with
      | body b =>
          obtain ⟨r, hj, rfl⟩ := map_eq_ok_iff.1 h
          exact map_eq_ok_iff.2 ⟨r, Schema.join_absorbs hs hj, rfl⟩
      | value v =>
          obtain ⟨rs, hj, rfl⟩ := map_eq_ok_iff.1 h
          exact map_eq_ok_iff.2 ⟨rs, ih hj, rfl⟩

theorem joinBody_keeps_absorbed {s t : Schema} {ps ps' : List Parameter} (hs : s.Inferred)
    (ht : t.Inferred) (habs : joinBody s ps = .ok ps) (h : joinBody t ps = .ok ps') :
    joinBody s ps' = .ok ps' := by
  induction ps generalizing ps' with
  | nil => cases habs
  | cons p ps ih =>
      cases p with
      | body b =>
          obtain ⟨r, hj, rfl⟩ := map_eq_ok_iff.1 h
          obtain ⟨b', hb, hself⟩ := map_eq_ok_iff.1 habs
          have hb' : b' = b.schema :=
            congrArg BodyParameter.schema (Parameter.body.inj (List.cons.inj hself).1)
          rw [hb'] at hb
          exact map_eq_ok_iff.2 ⟨r, Schema.join_keeps_absorbed hs ht hb hj, rfl⟩
      | value v =>
          obtain ⟨rs, hj, rfl⟩ := map_eq_ok_iff.1 h
          obtain ⟨qs, hb, hself⟩ := map_eq_ok_iff.1 habs
          rw [(List.cons.inj hself).2] at hb
          exact map_eq_ok_iff.2 ⟨rs, ih hb hj, rfl⟩

theorem joinParameters_absorbs {body : Option Schema} {ps ps' : List Parameter}
    (hs : ∀ s, body = some s → s.Inferred) (h : joinParameters body ps = .ok ps') :
    joinParameters body ps' = .ok ps' := by
  cases body with
  | none => rfl
  | some s => exact joinBody_absorbs (hs s rfl).closed h

theorem joinParameters_keeps_absorbed {body body' : Option Schema} {ps ps' : List Parameter}
    (hs : ∀ s, body = some s → s.Inferred) (ht : ∀ s, body' = some s → s.Inferred)
    (habs : joinParameters body ps = .ok ps) (h : joinParameters body' ps = .ok ps') :
    joinParameters body ps' = .ok ps' := by
  cases body with
  | none => rfl
  | some s =>
      cases body' with
      | none =>
          cases h
          exact habs
      | some t => exact joinBody_keeps_absorbed (hs s rfl) (ht t rfl) habs h

theorem joinReply_eq_ok_some_iff {before : Option Schema} {s : Schema} {r : Option Schema} :
    joinReply before (some s) = .ok r ↔ ∃ t, joinOption before s = .ok t ∧ r = some t := by
  rw [joinReply, map_eq_ok_iff]
  simp only [@eq_comm _ r]

theorem joinReply_absorbs {before reply r : Option Schema}
    (hs : ∀ s, reply = some s → s.Inferred) (h : joinReply before reply = .ok r) :
    joinReply r reply = .ok r := by
  cases reply with
  | none =>
      cases h
      rfl
  | some s =>
      obtain ⟨t, ht, rfl⟩ := joinReply_eq_ok_some_iff.1 h
      refine joinReply_eq_ok_some_iff.2 ⟨t, ?_, rfl⟩
      cases before with
      | none =>
          cases ht
          exact Schema.join_self (hs s rfl).closed
      | some b => exact Schema.join_absorbs (hs s rfl).closed ht

theorem joinReply_keeps_absorbed {before reply reply' r : Option Schema}
    (hs : ∀ s, reply = some s → s.Inferred) (ht : ∀ s, reply' = some s → s.Inferred)
    (hempty : reply' = none ↔ reply = none) (habs : joinReply before reply = .ok before)
    (h : joinReply before reply' = .ok r) : joinReply r reply = .ok r := by
  cases reply with
  | none =>
      rw [hempty.2 rfl] at h
      cases h
      rfl
  | some s =>
      cases reply' with
      | none => cases hempty.1 rfl
      | some t =>
          obtain ⟨a, ha, rfl⟩ := joinReply_eq_ok_some_iff.1 habs
          obtain ⟨b, hb, rfl⟩ := joinReply_eq_ok_some_iff.1 h
          exact joinReply_eq_ok_some_iff.2
            ⟨b, Schema.join_keeps_absorbed (hs s rfl) (ht t rfl) ha hb, rfl⟩

/-! ### Operations -/

namespace Operation

@[simp] theorem addParameters_nil (ps : List Parameter) : addParameters ps [] = ps := by
  simp [addParameters]

/-- What an operation has taken over is absorbed. -/
theorem Grows.absorbs {op op' : Operation} {new : List ValueParameter} {e : Evidence}
    (hq : ∀ s, e.request = some s → s.Inferred) (hp : ∀ s, e.reply = some s → s.Inferred)
    (h : op.Grows new e op') : op'.Grows [] e op' := by
  obtain ⟨schema, hschema, hresponses⟩ := h.responses
  have hbefore : e.before op' = some (e.response (e.before op) schema) := by
    rw [Evidence.before, hresponses, Members.get?_put, if_pos rfl]
  refine ⟨?_, ?_, ?_, ⟨schema, ?_, ?_⟩, rfl⟩
  · rw [h.consumes, appendNew_absorbs]
  · rw [h.produces, appendNew_absorbs]
  · rw [addParameters_nil]
    exact joinParameters_absorbs hq h.parameters
  · rw [hbefore]
    exact joinReply_absorbs hp hschema
  · rw [hbefore]
    exact (Members.put_eq_self hbefore).symm

/-- Under the status code of what is absorbed stands an answer with its description, which a further
join of its reply leaves as it is. -/
theorem Grows.response {op : Operation} {e : Evidence} (habs : op.Grows [] e op) :
    ∃ r, e.before op = some r ∧ joinReply r.schema e.reply = .ok r.schema
      ∧ r.description = statusPhrase e.status := by
  obtain ⟨schema, hschema, hself⟩ := habs.responses
  have hbefore : e.before op = some (e.response (e.before op) schema) := by
    conv_lhs => rw [Evidence.before, hself, Members.get?_put, if_pos rfl]
  obtain ⟨r, hr, hrs, hrd⟩ : ∃ r, e.before op = some r ∧ r.schema = schema
      ∧ r.description = statusPhrase e.status := ⟨_, hbefore, rfl, rfl⟩
  rw [hr, Option.bind_some, ← hrs] at hschema
  exact ⟨r, hr, hschema, hrd⟩

/-- The answer under the status code of what is absorbed stays such. -/
theorem Grows.keeps_response {op op' : Operation} {e e' : Evidence}
    (hp : ∀ s, e.reply = some s → s.Inferred) (hp' : ∀ s, e'.reply = some s → s.Inferred)
    (hempty : e'.statusText = e.statusText → (e'.reply = none ↔ e.reply = none))
    (habs : op.Grows [] e op) (h : op.Grows [] e' op') :
    ∃ r, e.before op' = some r ∧ joinReply r.schema e.reply = .ok r.schema
      ∧ r.description = statusPhrase e.status := by
  obtain ⟨r, hr, hjoin, hdesc⟩ := habs.response
  obtain ⟨schema, hschema, hresponses⟩ := h.responses
  rw [Evidence.before, hresponses, Members.get?_put]
  by_cases hst : e'.statusText = e.statusText
  · have hr' : e'.before op = some r := by rw [Evidence.before, hst]; exact hr
    rw [hr', Option.bind_some] at hschema
    rw [if_pos hst]
    refine ⟨_, rfl, joinReply_keeps_absorbed hp hp' (hempty hst) hjoin hschema, ?_⟩
    rw [Evidence.response, Evidence.status_eq hst]
  · rw [if_neg hst]
    exact ⟨r, hr, hjoin, hdesc⟩

/-- What is absorbed stays so when another exchange is taken over.  In its own cell the other one
must show a reply exactly if the absorbed one does. -/
theorem Grows.keeps {op op' : Operation} {e e' : Evidence}
    (hq : ∀ s, e.request = some s → s.Inferred) (hp : ∀ s, e.reply = some s → s.Inferred)
    (hq' : ∀ s, e'.request = some s → s.Inferred) (hp' : ∀ s, e'.reply = some s → s.Inferred)
    (hempty : e'.statusText = e.statusText → (e'.reply = none ↔ e.reply = none))
    (habs : op.Grows [] e op) (h : op.Grows [] e' op') : op'.Grows [] e op' := by
  obtain ⟨r, hr, hjoin, hdesc⟩ := habs.keeps_response hp hp' hempty h
  have hparams := h.parameters
  have hparamsAbs := habs.parameters
  rw [addParameters_nil] at hparams hparamsAbs
  refine ⟨?_, ?_, ?_, ⟨r.schema, ?_, ?_⟩, rfl⟩
  · rw [h.consumes, appendNew_keeps_absorbed habs.consumes.symm]
  · rw [h.produces, appendNew_keeps_absorbed habs.produces.symm]
  · rw [addParameters_nil]
    exact joinParameters_keeps_absorbed hq hq' hparamsAbs hparams
  · rw [hr]
    exact hjoin
  · have hresponse : e.response (e.before op') r.schema = r := by
      rw [hr, Evidence.response, ← hdesc]
      rfl
    rw [hresponse]
    exact (Members.put_eq_self hr).symm

end Operation

/-! ### Documents -/

namespace Document

theorem mem_templates_of_operation? {doc : Document} {t : String} {m : Method} {op : Operation}
    (h : doc.operation? t m = some op) : t ∈ doc.templates := by
  by_contra ht
  rw [operation?_of_not_mem ht] at h
  cases h

theorem startOperation_of_operation? {doc : Document} {t : String} {m : Method} {op : Operation}
    (h : doc.operation? t m = some op) : (doc.pathItem t).startOperation m = op := by
  rw [PathItem.startOperation, show (doc.pathItem t).operation? m = some op from h]
  rfl

/-- An exchange is absorbed exactly if its template is known and the operation of its cell has
absorbed what it shows. -/
theorem record_eq_self_iff {doc : Document} {x : Exchange} {c : Cell} :
    doc.record x = .ok (c, doc) ↔
      doc.swagger = formatVersion ∧ x.request.method? = some c.method
        ∧ Template.resolve x.request.url doc.templates = .ok ⟨c.template, []⟩
        ∧ ∃ e op, x.evidence = .ok e ∧ c.status = e.statusText
          ∧ doc.operation? c.template c.method = some op ∧ op.Grows [] e op := by
  constructor
  · intro h
    have hres := resolve_of_record h []
    rw [List.append_nil] at hres
    obtain ⟨new, e, op, hr, he, hst, hgrow, hop⟩ := operation?_of_record h
    obtain ⟨hv, -, -, -, hm, -⟩ := record_eq_ok_iff.1 h
    rw [hres] at hr
    cases hr
    rw [startOperation_of_operation? hop] at hgrow
    exact ⟨hv, hm, hres, e, op, he, hst, hop, hgrow⟩
  · rintro ⟨hv, hm, hres, e, op, he, hst, hop, hgrow⟩
    refine record_eq_ok_iff.2 ⟨hv, [], e, op, hm, hres, he, hst, ?_, ?_⟩
    · rwa [startOperation_of_operation? hop]
    · have hset : (doc.pathItem c.template).setOperation op c.method
          = doc.pathItem c.template := by
        generalize hi : doc.pathItem c.template = item
        rw [operation?, hi] at hop
        cases hcm : c.method <;> rw [hcm] at hop <;> simp only [PathItem.operation?] at hop <;>
          simp [PathItem.setOperation, ← hop]
      have hget := get?_paths_of_mem (mem_templates_of_operation? hop)
      rw [hset, Members.put_eq_self hget]

/-- A recorded exchange is absorbed at once. -/
theorem record_idempotent {doc next : Document} {x : Exchange} {c : Cell}
    (h : doc.record x = .ok (c, next)) : next.record x = .ok (c, next) := by
  obtain ⟨hv, -, -, -, hm, -⟩ := record_eq_ok_iff.1 h
  obtain ⟨new, e, op, -, he, hst, hgrow, hop⟩ := operation?_of_record h
  obtain ⟨hq, hp⟩ := Exchange.inferred_evidence he
  have hres := resolve_of_record h []
  rw [List.append_nil] at hres
  refine record_eq_self_iff.2 ⟨?_, hm, hres, e, op, he, hst, hop, hgrow.absorbs hq hp⟩
  rw [rest_of_record h]
  exact hv

/-- An absorbed exchange stays so when another one is recorded. -/
theorem record_keeps_absorbed {doc next : Document} {x y : Exchange} {c d : Cell}
    (habs : doc.record x = .ok (c, doc)) (h : doc.record y = .ok (d, next))
    (hempty : d = c → (y.reply.IsEmpty ↔ x.reply.IsEmpty)) : next.record x = .ok (c, next) := by
  obtain ⟨hv, hm, hres, e, op, he, hst, hop, hgrow⟩ := record_eq_self_iff.1 habs
  obtain ⟨more, hmore⟩ := prefix_addNew doc.templates d.template
  have htemplates : next.templates = doc.templates ++ more := by
    rw [templates_of_record h, hmore]
  have hres' : Template.resolve x.request.url next.templates = .ok ⟨c.template, []⟩ := by
    rw [htemplates]
    exact resolve_of_record habs more
  have hv' : next.swagger = formatVersion := by
    rw [rest_of_record h]
    exact hv
  by_cases hcell : d.template = c.template ∧ d.method = c.method
  · obtain ⟨htemplate, hmethod⟩ := hcell
    obtain ⟨new, e', op', hr', he', hst', hgrow', hop'⟩ := operation?_of_record h
    rw [htemplate] at hr' hgrow' hop'
    rw [hmethod] at hgrow' hop'
    obtain rfl : new = [] := Template.parameters_eq_nil hr' (mem_templates_of_operation? hop)
    rw [startOperation_of_operation? hop] at hgrow'
    obtain ⟨hq, hp⟩ := Exchange.inferred_evidence he
    obtain ⟨hq', hp'⟩ := Exchange.inferred_evidence he'
    have hempty' : e'.statusText = e.statusText → (e'.reply = none ↔ e.reply = none) := by
      intro hs
      rw [Exchange.evidence_reply_eq_none_iff he', Exchange.evidence_reply_eq_none_iff he]
      refine hempty ?_
      obtain ⟨t, m, s⟩ := d
      obtain ⟨t', m', s'⟩ := c
      simp only [Cell.mk.injEq] at htemplate hmethod hst hst' ⊢
      exact ⟨htemplate, hmethod, by rw [hst', hs, hst]⟩
    exact record_eq_self_iff.2
      ⟨hv', hm, hres', e, op', he, hst, hop', hgrow.keeps hq hp hq' hp' hempty' hgrow'⟩
  · rw [← operation?_of_record_ne h hcell] at hop
    exact record_eq_self_iff.2 ⟨hv', hm, hres', e, op, he, hst, hop, hgrow⟩

/-- **A recorded exchange is absorbed for the rest of a run.** -/
theorem record_absorbed {doc next last : Document} {x : Exchange} {c : Cell}
    {later : List Exchange} (h : doc.record x = .ok (c, next))
    (hrun : (next.recordAll false later).outcome = .ok last)
    (hempty : ∀ y, (y, Event.recorded c) ∈ later.zip (next.recordAll false later).events →
      (y.reply.IsEmpty ↔ x.reply.IsEmpty)) :
    last.record x = .ok (c, last) := by
  obtain ⟨log, hlog, rfl⟩ := exists_records hrun
  rw [hlog.recordAll, List.zip_map'] at hempty
  have hempty' : ∀ l ∈ log, l.cell = c → (l.exchange.reply.IsEmpty ↔ x.reply.IsEmpty) :=
    fun l hl hc => hempty l.exchange (List.mem_map.2 ⟨l, hl, by rw [hc]⟩)
  clear hempty hrun
  induction hlog with
  | refl => exact record_idempotent h
  | @snoc mid last log y d e run step shows ih =>
      have hmid := ih fun l hl => hempty' l (List.mem_append_left _ hl)
      exact record_keeps_absorbed hmid step (hempty' ⟨y, d, e⟩ (by simp))

/-- A reply with a number in its body. -/
def numberReply : Exchange :=
  ⟨{ method := "GET", url := "/a" },
    { status := 200, body := .object [("k", .atom (.int 1))] }⟩

/-- Two later exchanges, of which the first one goes to the same cell and shows less. -/
def laterReplies : List Exchange :=
  [⟨{ method := "GET", url := "/a" }, { status := 200, body := .object [] }⟩,
    ⟨{ method := "POST", url := "/a", body := .text "b" }, { status := 201 }⟩]

/-- The cell of the first exchange. -/
def numberCell : Cell := ⟨"/a", .get, "200"⟩

/-- The first exchange is absorbed for the rest of the run. -/
theorem record_absorbed_numberReply : ∃ next last,
    ({} : Document).record numberReply = .ok (numberCell, next) ∧
    (next.recordAll false laterReplies).outcome = .ok last ∧
    (∀ y, (y, Event.recorded numberCell)
        ∈ laterReplies.zip (next.recordAll false laterReplies).events →
      (y.reply.IsEmpty ↔ numberReply.reply.IsEmpty)) ∧
    last.record numberReply = .ok (numberCell, last) := by
  obtain ⟨next, hnext⟩ : ∃ next, ({} : Document).record numberReply = .ok (numberCell, next) :=
    ⟨_, rfl⟩
  have hevents : (next.recordAll false laterReplies).events
      = [.recorded numberCell, .recorded ⟨"/a", .post, "201"⟩] := by
    cases hnext
    rfl
  obtain ⟨last, hlast⟩ : ∃ last, (next.recordAll false laterReplies).outcome = .ok last := by
    cases hnext
    exact ⟨_, rfl⟩
  have hfull : ¬numberReply.reply.IsEmpty := by
    rintro ⟨v, hv, hnull⟩
    cases hv
    cases hnull
  have hempty : ∀ y, (y, Event.recorded numberCell)
      ∈ laterReplies.zip (next.recordAll false laterReplies).events →
        (y.reply.IsEmpty ↔ numberReply.reply.IsEmpty) := by
    rw [hevents]
    intro y hy
    simp only [laterReplies, List.zip_cons_cons, List.zip_nil_left, List.mem_cons,
      Prod.mk.injEq, Event.recorded.injEq] at hy
    rcases hy with ⟨rfl, -⟩ | ⟨-, hc⟩ | hy
    · refine iff_of_false ?_ hfull
      rintro ⟨v, hv, hnull⟩
      cases hv
      cases hnull
    · exact absurd hc (by decide)
    · cases hy
  exact ⟨next, last, hnext, hlast, hempty, record_absorbed hnext hlast hempty⟩

end Document

end ApiScribe
