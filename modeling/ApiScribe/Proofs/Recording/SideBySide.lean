/-
**Recording side by side.**

Two documents that go on from the same one side by side can be put together.  One would expect the
document of a single run through both parts.  That is what comes out for the templates, the content
types and the status codes, but not always for parameters and schemas.  A template that both parts
made for themselves may have other parameters on the one side than on the other; and a property of a
body that the second part no longer requires is joined by the single run only.  The union is the
document of the single run exactly if nothing of this happens.

Main definitions:

* `ApiScribe.requestShapes`, `ApiScribe.replyShapes` — the schemas that exchanges show;
* `ApiScribe.Document.Combines` — nothing is lost in the union.

Main results:

* `ApiScribe.Operation.Reflects.eq` — what an operation holds determines it;
* `ApiScribe.Document.union_eq_recordAll_iff` — the union is the document of the single run exactly
  if nothing is lost.
-/

import ApiScribe.Proofs.Recording.Cells
import ApiScribe.Proofs.Recording.Union

set_option autoImplicit false

namespace ApiScribe

/-! ### One cell -/

section

variable {before p q u f : Option Schema} {as ss : List Schema}

/-- If nothing is lost, the union of two runs is the run through both. -/
theorem unionOption_eq (hplain : ∀ b, before = some b → b.Plain) (has : ∀ s ∈ as, s.Inferred)
    (hss : ∀ s ∈ ss, s.Inferred) (hp : joinAll before as = .ok p) (hq : joinAll before ss = .ok q)
    (hf : joinAll p ss = .ok f) (hu : unionOption Schema.join p q = .ok u)
    (h : ∀ a b, p = some a → q = some b → Schema.Rejoins before a ss) : u = f := by
  cases p with
  | none =>
      -- the first run joined nothing, so that both other runs are the same
      rw [(eq_nil_of_joinAll hp).1, hf, Except.ok.injEq] at hq
      rw [hq, ← Except.ok.inj hu]
  | some a =>
      obtain ⟨c, rfl⟩ := joinAll_some hf
      cases q with
      | none =>
          rw [(eq_nil_of_joinAll hq).2] at hf
          rw [← Except.ok.inj hu, ← Except.ok.inj hf]
      | some b =>
          obtain ⟨r, hj, hr⟩ := unionOption_some_iff.1 hu
          have hways : Schema.TwoWays before as ss a b r c :=
            ⟨hplain, has, hss, hp, hq, hj, hf⟩
          rw [← hr, Schema.eq_of_rejoins hways (h a b rfl rfl)]

/-- If the union of two runs is the run through both up to order, nothing is lost. -/
theorem rejoins_of_unionOption (hplain : ∀ b, before = some b → b.Plain)
    (has : ∀ s ∈ as, s.Inferred) (hss : ∀ s ∈ ss, s.Inferred) (hp : joinAll before as = .ok p)
    (hq : joinAll before ss = .ok q) (hf : joinAll p ss = .ok f)
    (hu : unionOption Schema.join p q = .ok u)
    (halike : ∀ a b, u = some a → f = some b → Schema.Alike a b) {a b : Schema}
    (ha : p = some a) (hb : q = some b) : Schema.Rejoins before a ss := by
  subst ha hb
  obtain ⟨c, rfl⟩ := joinAll_some hf
  obtain ⟨r, hj, hr⟩ := unionOption_some_iff.1 hu
  have hways : Schema.TwoWays before as ss a b r c := ⟨hplain, has, hss, hp, hq, hj, hf⟩
  exact Schema.rejoins_of_alike hways (halike r c hr.symm rfl)

end

/-! ### Operations -/

/-- The content types that are taken over are not empty. -/
theorem isEmpty_of_mem_types {es : List Evidence} {f : Evidence → Option String} {t : String}
    (h : t ∈ addAll [] (es.flatMap fun e => shownTypes (f e))) : t.isEmpty = false := by
  rw [mem_addAll] at h
  obtain ⟨e, -, ht⟩ := List.mem_flatMap.1 (h.resolve_left (by simp))
  simpa using (List.mem_filter.1 ht).2

/-- Answers under one status code have one description. -/
theorem description_eq {es es' : List Evidence} {s d d' : String}
    (h : ∃ e ∈ es, e.statusText = s ∧ d = statusPhrase e.status)
    (h' : ∃ e ∈ es', e.statusText = s ∧ d' = statusPhrase e.status) : d = d' := by
  obtain ⟨e, -, hs, rfl⟩ := h
  obtain ⟨e', -, hs', rfl⟩ := h'
  rw [Evidence.status_eq (hs.trans hs'.symm)]

namespace Operation

/-- Operations of the same template agree if they have the same content types, bodies, status codes
and answers. -/
theorem Reflects.ext {new : List ValueParameter} {es : List Evidence} {op op' : Operation}
    (h : op.Reflects new es) (hconsumes : op'.consumes = op.consumes)
    (hproduces : op'.produces = op.produces) (hparameters : op'.parameters = op.parameters)
    (hkeys : op'.responses.keys = op.responses.keys)
    (hresponses : ∀ s r r', op.responses.get? s = some r → op'.responses.get? s = some r' →
      r' = r) (hextras : op'.extras = op.extras) : op' = op := by
  have hnodup : op'.responses.keys.Nodup := hkeys ▸ h.nodup_statuses
  have hall : op'.responses = op.responses := by
    refine Members.ext_keys hnodup hkeys fun s hs => ?_
    obtain ⟨r', hr'⟩ := Members.mem_keys_iff.1 hs
    rw [hkeys] at hs
    obtain ⟨r, hr⟩ := Members.mem_keys_iff.1 hs
    rw [hr, hr', hresponses s r r' hr hr']
  obtain ⟨consumes, produces, parameters, responses, extras⟩ := op
  obtain ⟨consumes', produces', parameters', responses', extras'⟩ := op'
  simp only at hconsumes hproduces hparameters hall hextras
  rw [hconsumes, hproduces, hparameters, hall, hextras]

/-- **What an operation holds determines it.** -/
theorem Reflects.eq {new : List ValueParameter} {es : List Evidence} {op op' : Operation}
    (h : op.Reflects new es) (h' : op'.Reflects new es) : op' = op := by
  refine h.ext ?_ ?_ ?_ ?_ (fun s r r' hr hr' => ?_) ?_
  · rw [h.consumes, h'.consumes]
  · rw [h.produces, h'.produces]
  · obtain ⟨body, hjoin, hparams⟩ := h.parameters
    obtain ⟨body', hjoin', hparams'⟩ := h'.parameters
    rw [hjoin, Except.ok.injEq] at hjoin'
    rw [hparams, hparams', hjoin']
  · rw [h.statuses, h'.statuses]
  · obtain ⟨hextras, hdesc, hjoin⟩ := h.responses s r hr
    obtain ⟨hextras', hdesc', hjoin'⟩ := h'.responses s r' hr'
    rw [hjoin, Except.ok.injEq] at hjoin'
    have hd := description_eq hdesc hdesc'
    obtain ⟨d, schema, extras⟩ := r
    obtain ⟨d', schema', extras'⟩ := r'
    simp only at hextras hextras' hjoin' hd
    rw [hextras, hextras', hjoin', hd]
  · rw [h.extras, h'.extras]

end Operation

namespace Operation

/-- A union of operations of one template is what a single run makes of both, if the schemas are. -/
theorem Reflects.union {new new' : List ValueParameter} {base as bs : List Evidence}
    {a b u c : Operation} (ha : a.Reflects new (base ++ as)) (hb : b.Reflects new' (base ++ bs))
    (hc : c.Reflects new (base ++ as ++ bs)) (hu : a.union b = .ok u)
    (hparameters : u.parameters = c.parameters)
    (hschemas : ∀ s r r', u.responses.get? s = some r → c.responses.get? s = some r' →
      r.schema = r'.schema) : u = c := by
  obtain ⟨hresponses, -, hconsumes, hproduces, hextras⟩ := union_eq_ok_iff.1 hu
  refine hc.ext ?_ ?_ hparameters ?_ (fun s r r' hr hr' => ?_) ?_
  · rw [hconsumes, unionTexts_eq_addAll (fun t ht => isEmpty_of_mem_types (hb.consumes ▸ ht)),
      ha.consumes, hb.consumes, hc.consumes, List.flatMap_append, List.flatMap_append,
      List.flatMap_append, List.flatMap_append, addAll_common]
  · rw [hproduces, unionTexts_eq_addAll (fun t ht => isEmpty_of_mem_types (hb.produces ▸ ht)),
      ha.produces, hb.produces, hc.produces, List.flatMap_append, List.flatMap_append,
      List.flatMap_append, List.flatMap_append, addAll_common]
  · rw [keys_unionMembers hresponses, ha.statuses, hb.statuses, hc.statuses, List.map_append,
      List.map_append, List.map_append, List.map_append, addAll_common]
  · -- the answer of the union has the description of the one side or of the other
    have hunion := get?_unionMembers hb.nodup_statuses hresponses s
    have hside : r'.extras = [] ∧ ∃ e ∈ base ++ as ++ (base ++ bs), e.statusText = s
        ∧ r'.description = statusPhrase e.status := by
      cases hra : a.responses.get? s with
      | none =>
          rw [hra, unionOption, hr', Except.ok.injEq] at hunion
          obtain ⟨hextras, ⟨e, he, hs, hd⟩, -⟩ := hb.responses s r' hunion
          exact ⟨hextras, e, List.mem_append_right _ he, hs, hd⟩
      | some ra =>
          obtain ⟨hextras, ⟨e, he, hs, hd⟩, -⟩ := ha.responses s ra hra
          rw [hra, hr'] at hunion
          cases hrb : b.responses.get? s with
          | none =>
              rw [hrb, unionOption, Except.ok.injEq, Option.some.injEq] at hunion
              exact ⟨hunion ▸ hextras, e, List.mem_append_left _ he, hs, hunion ▸ hd⟩
          | some rb =>
              rw [hrb] at hunion
              obtain ⟨rc, hj, hrc⟩ := unionOption_some_iff.1 hunion
              cases hrc
              obtain ⟨-, hdesc, hext⟩ := Response.union_eq_ok_iff.1 hj
              exact ⟨hext.trans hextras, e, List.mem_append_left _ he, hs, hdesc.trans hd⟩
    obtain ⟨hextras, hdesc, -⟩ := hc.responses s r hr
    have hd := description_eq hdesc hside.2
    have hs := hschemas s r' r hr' hr
    have hext := hside.1
    obtain ⟨d, schema, extras⟩ := r
    obtain ⟨d', schema', extras'⟩ := r'
    simp only at hextras hext hd hs
    rw [hextras, hext, hd, hs]
  · rw [hextras, ha.extras, hc.extras]

end Operation

/-! ### Shapes of exchanges -/

/-- The schemas of the request bodies of exchanges. -/
def requestShapes (xs : List Exchange) : List Schema :=
  xs.filterMap fun x =>
    match x.request.bodySchema with
    | .ok shape => shape
    | .error _ => none

/-- The schemas of the replies of exchanges under a status code. -/
def replyShapes (status : String) (xs : List Exchange) : List Schema :=
  (xs.filter (·.reply.statusText = status)).filterMap fun x =>
    match x.reply.bodySchema with
    | .ok shape => shape
    | .error _ => none

section

variable {xs : List Exchange} {es : List Evidence}

theorem requestShapes_eq (h : List.Forall₂ (fun x e => Exchange.evidence x = .ok e) xs es) :
    requestShapes xs = es.filterMap Evidence.request := by
  induction h with
  | nil => rfl
  | @cons x e xs es hx _ ih =>
      obtain ⟨hq, -⟩ := Exchange.evidence_eq_ok_iff.1 hx
      rw [requestShapes] at ih ⊢
      rw [List.filterMap_cons, List.filterMap_cons, hq, ih]

theorem replyShapes_eq (h : List.Forall₂ (fun x e => Exchange.evidence x = .ok e) xs es)
    (status : String) : replyShapes status xs = repliesUnder status es := by
  induction h with
  | nil => rfl
  | @cons x e xs es hx _ ih =>
      obtain ⟨-, hp, -⟩ := Exchange.evidence_eq_ok_iff.1 hx
      have hst := Exchange.statusText_eq hx
      rw [replyShapes, repliesUnder] at ih ⊢
      by_cases hs : e.statusText = status
      · rw [List.filter_cons_of_pos (by simp [hst, hs]), List.filter_cons_of_pos (by simp [hs]),
          List.filterMap_cons, List.filterMap_cons, hp, ih]
      · rw [List.filter_cons_of_neg (by simp [hst, hs]), List.filter_cons_of_neg (by simp [hs])]
        exact ih

end

/-! ### Documents -/

/-- The parameters of templates are known by their names. -/
theorem newAt_eq_of_names {log log' : List Entry} {t t' : String}
    (h : (newAt log t).map ValueParameter.name = (newAt log' t').map ValueParameter.name) :
    newAt log t = newAt log' t' := by
  obtain ⟨names, -, hnew⟩ := exists_newAt log t
  obtain ⟨names', -, hnew'⟩ := exists_newAt log' t'
  rw [hnew, hnew', map_name_ofPlaceholder, map_name_ofPlaceholder] at h
  rw [hnew, hnew', h]

theorem valueNames_of_parameters {op : Operation} {new : List ValueParameter}
    {body : Option Schema} (h : op.parameters = new.map .value ++ bodyParameters body) :
    valueNames op.parameters = new.map ValueParameter.name := by
  rw [h, valueNames_append, valueNames_map_value, valueNames_bodyParameters, List.append_nil]

theorem filter_isBody (new : List ValueParameter) (body : Option Schema) :
    (new.map Parameter.value ++ bodyParameters body).filter (fun p => !p.isBody)
      = new.map .value := by
  have hvalues : (new.map Parameter.value).filter (fun p => !p.isBody) = new.map .value := by
    refine List.filter_eq_self.2 fun p hp => ?_
    obtain ⟨v, -, rfl⟩ := List.mem_map.1 hp
    rfl
  have hbody : (bodyParameters body).filter (fun p => !p.isBody) = [] := by
    cases body <;> rfl
  rw [List.filter_append, hvalues, hbody, List.append_nil]

namespace Document

/-- Nothing is lost in the union of two documents that went on from `doc`, of which the second one
recorded `ys`. -/
structure Combines (doc first second : Document) (ys : List Exchange) : Prop where
  /-- An operation of both has no parameter in the second document that it lacks in the first. -/
  names : ∀ t m a b, first.operation? t m = some a → second.operation? t m = some b →
    ∀ name ∈ valueNames b.parameters, name ∈ valueNames a.parameters
  /-- An operation of the second document under a template of both has the parameters that it would
  have taken over in the first. -/
  siblings : ∀ t m b, t ∈ first.templates → first.operation? t m = none →
    second.operation? t m = some b →
      b.parameters.filter (!·.isBody) = (first.pathItem t).siblingParameters
  /-- Nothing that was joined of request bodies is lost. -/
  bodies : ∀ t m p q, first.bodySchema? t m = some p → second.bodySchema? t m = some q →
    Schema.Rejoins (doc.bodySchema? t m) p (requestShapes (second.observations ys t m))
  /-- Nothing that was joined of replies is lost. -/
  replies : ∀ t m s p q, first.replySchema? t m s = some p → second.replySchema? t m s = some q →
    Schema.Rejoins (doc.replySchema? t m s) p (replyShapes s (second.observations ys t m))

/-- Two documents that went on from one document, a document that went on from the first of them
through the log of the second, and the union of the two. -/
structure SideBySide (info : Info) (base as bs : List Entry)
    (doc first second single union : Document) : Prop where
  /-- The run to the document from which both went on. -/
  start : Records { info } base doc
  /-- The run to the first document. -/
  left : Records doc as first
  /-- The run to the second document. -/
  right : Records doc bs second
  /-- The single run through both parts. -/
  both : Records first bs single
  /-- No reply is empty. -/
  full : ∀ l ∈ as ++ bs, l.evidence.reply ≠ none
  /-- The union. -/
  united : first.union second = .ok union

namespace SideBySide

variable {info : Info} {base as bs : List Entry} {doc first second single union : Document}

variable (h : SideBySide info base as bs doc first second single union)

include h

theorem reflects_doc : doc.Reflects base := reflects_of_records h.start

theorem reflects_first : first.Reflects (base ++ as) :=
  reflects_of_records (h.start.trans h.left)

theorem reflects_second : second.Reflects (base ++ bs) :=
  reflects_of_records (h.start.trans h.right)

theorem reflects_single : single.Reflects (base ++ as ++ bs) :=
  reflects_of_records ((h.start.trans h.left).trans h.both)

theorem operation? (t : String) (m : Method) :
    unionOption Operation.union (first.operation? t m) (second.operation? t m)
      = .ok (union.operation? t m) :=
  operation?_union h.reflects_second.nodup_templates h.united t m

/-- What the two parts show of request bodies is joined in the union, if the second operation has no
parameter that the first one lacks. -/
theorem bodySchema? {t : String} {m : Method}
    (hnames : ∀ a b, first.operation? t m = some a → second.operation? t m = some b →
      ∀ name ∈ valueNames b.parameters, name ∈ valueNames a.parameters) :
    unionOption Schema.join (first.bodySchema? t m) (second.bodySchema? t m)
      = .ok (union.bodySchema? t m)
    ∧ ∀ a u, first.operation? t m = some a → union.operation? t m = some u →
      u.parameters
        = (newAt (base ++ as) t).map .value ++ bodyParameters (union.bodySchema? t m) := by
  have hunion := h.operation? t m
  cases ha : first.operation? t m with
  | none =>
      rw [ha] at hunion
      have heq := Except.ok.inj hunion
      refine ⟨?_, fun a u hn => by cases hn⟩
      rw [Document.bodySchema?, Document.bodySchema?, Document.bodySchema?, ha, ← heq]
      rfl
  | some a =>
      obtain ⟨-, hra⟩ := h.reflects_first.operation ha
      obtain ⟨bodyA, -, hpa⟩ := hra.parameters
      rw [ha] at hunion
      rw [bodySchema?_of_parameters ha hpa]
      cases hb : second.operation? t m with
      | none =>
          rw [hb] at hunion
          have heq : union.operation? t m = some a := (Except.ok.inj hunion).symm
          have hschema := bodySchema?_of_parameters heq hpa
          constructor
          · rw [Document.bodySchema?, hb, hschema]
            exact unionOption_none_right bodyA
          · intro a' u ha' hu'
            rw [heq, Option.some.injEq] at hu'
            rw [← hu', hschema]
            exact hpa
      | some b =>
          obtain ⟨-, hrb⟩ := h.reflects_second.operation hb
          obtain ⟨bodyB, -, hpb⟩ := hrb.parameters
          rw [hb] at hunion
          obtain ⟨u, hj, hu⟩ := unionOption_some_iff.1 hunion
          -- the names of the second operation's own parameters are known to the first one
          have hsub : ∀ p ∈ newAt (base ++ bs) t,
              p.name ∈ (newAt (base ++ as) t).map ValueParameter.name := by
            intro p hp
            have hname := hnames a b ha hb p.name
            rw [valueNames_of_parameters hpa, valueNames_of_parameters hpb] at hname
            exact hname (List.mem_map_of_mem hp)
          obtain ⟨x, hx, hpu⟩ := Operation.parameters_union hpa hpb (nodup_newAt _ t).2
            (nodup_newAt _ t).2 hsub hj
          rw [bodySchema?_of_parameters hb hpb, bodySchema?_of_parameters hu.symm hpu]
          refine ⟨hx, fun a' u' ha' hu' => ?_⟩
          rw [← hu, Option.some.injEq] at hu'
          rw [← hu']
          exact hpu

/-- What the two parts show of replies is joined in the union. -/
theorem replySchema? (t : String) (m : Method) (s : String) :
    unionOption Schema.join (first.replySchema? t m s) (second.replySchema? t m s)
      = .ok (union.replySchema? t m s) := by
  have hunion := h.operation? t m
  cases ha : first.operation? t m with
  | none =>
      rw [ha] at hunion
      rw [Document.replySchema?, Document.replySchema?, Document.replySchema?, ha,
        ← Except.ok.inj hunion]
      rfl
  | some a =>
      rw [ha] at hunion
      rw [replySchema?_of_operation ha]
      cases hb : second.operation? t m with
      | none =>
          rw [hb] at hunion
          have heq : union.operation? t m = some a := (Except.ok.inj hunion).symm
          rw [Document.replySchema?, hb, replySchema?_of_operation heq]
          exact unionOption_none_right _
      | some b =>
          rw [hb] at hunion
          obtain ⟨u, hj, hu⟩ := unionOption_some_iff.1 hunion
          rw [replySchema?_of_operation hb, replySchema?_of_operation hu.symm]
          exact Operation.replySchema_union (h.reflects_second.operation hb).2.nodup_statuses hj s

/-- The schema of a request body in the single run. -/
theorem body_single (t : String) (m : Method) :
    joinAll (first.bodySchema? t m) ((entriesAt bs t m).filterMap Evidence.request)
      = .ok (single.bodySchema? t m) :=
  h.reflects_first.append_body h.reflects_single t m

/-- The schema of a reply in the single run. -/
theorem reply_single (t : String) (m : Method) (s : String) :
    joinAll (first.replySchema? t m s) (repliesUnder s (entriesAt bs t m))
      = .ok (single.replySchema? t m s) :=
  h.reflects_first.append_reply h.reflects_single
    (fun l hl => h.full l (List.mem_append_right as hl)) t m s

theorem shapes_right (t : String) (m : Method) :
    requestShapes (second.observations (bs.map Entry.exchange) t m)
      = (entriesAt bs t m).filterMap Evidence.request :=
  requestShapes_eq (h.right.forall₂_evidence t m)

theorem replies_right (t : String) (m : Method) (s : String) :
    replyShapes s (second.observations (bs.map Entry.exchange) t m)
      = repliesUnder s (entriesAt bs t m) :=
  replyShapes_eq (h.right.forall₂_evidence t m) s

/-- The entries of an operation that the first document lacks are those of the second one. -/
theorem entriesAt_of_none {t : String} {m : Method} (ha : first.operation? t m = none) :
    entriesAt (base ++ as ++ bs) t m = entriesAt (base ++ bs) t m := by
  have hnil := h.reflects_first.entriesAt_eq_nil ha
  rw [entriesAt_append, List.append_eq_nil_iff] at hnil
  rw [entriesAt_append, entriesAt_append, entriesAt_append, hnil.1, hnil.2, List.nil_append]

/-- The entries of an operation that the second document lacks are those of the first one. -/
theorem entriesAt_of_none_right {t : String} {m : Method} (hb : second.operation? t m = none) :
    entriesAt (base ++ as ++ bs) t m = entriesAt (base ++ as) t m := by
  have hnil := h.reflects_second.entriesAt_eq_nil hb
  rw [entriesAt_append, List.append_eq_nil_iff] at hnil
  rw [entriesAt_append, hnil.2, List.append_nil]

/-- The parameters of a template of the first document stay in the single run. -/
theorem newAt_first {t : String} (ht : t ∈ first.templates) :
    newAt (base ++ as ++ bs) t = newAt (base ++ as) t :=
  newAt_append (h.reflects_first.mem_templates_iff.1 ht)

/-- The parameters of a template that the first document lacks are those of the second one. -/
theorem newAt_second {t : String} (ht : t ∉ first.templates) :
    newAt (base ++ as ++ bs) t = newAt (base ++ bs) t := by
  have hlog : t ∉ (base ++ as).map fun l => l.cell.template :=
    mt h.reflects_first.mem_templates_iff.2 ht
  have hbase : t ∉ base.map fun l => l.cell.template := by
    intro hmem
    rw [List.map_append] at hlog
    exact hlog (List.mem_append_left _ hmem)
  rw [newAt_of_not_mem hlog, newAt_of_not_mem hbase]

/-- What stands at a request body in the union and in the single run. -/
theorem body_eq {t : String} {m : Method}
    (hnames : ∀ a b, first.operation? t m = some a → second.operation? t m = some b →
      ∀ name ∈ valueNames b.parameters, name ∈ valueNames a.parameters)
    (hrejoins : ∀ p q, first.bodySchema? t m = some p → second.bodySchema? t m = some q →
      Schema.Rejoins (doc.bodySchema? t m) p ((entriesAt bs t m).filterMap Evidence.request)) :
    union.bodySchema? t m = single.bodySchema? t m :=
  unionOption_eq (fun _ hb => h.start.plain_bodySchema? hb) (h.left.inferred_requests t m)
    (h.right.inferred_requests t m) (h.reflects_doc.append_body h.reflects_first t m)
    (h.reflects_doc.append_body h.reflects_second t m) (h.body_single t m)
    (h.bodySchema? hnames).1 hrejoins

/-- What stands at a reply in the union and in the single run. -/
theorem reply_eq {t : String} {m : Method} {s : String}
    (hrejoins : ∀ p q, first.replySchema? t m s = some p → second.replySchema? t m s = some q →
      Schema.Rejoins (doc.replySchema? t m s) p (repliesUnder s (entriesAt bs t m))) :
    union.replySchema? t m s = single.replySchema? t m s :=
  unionOption_eq (fun _ hb => h.start.plain_replySchema? hb) (h.left.inferred_replies t m s)
    (h.right.inferred_replies t m s)
    (h.reflects_doc.append_reply h.reflects_first
      (fun l hl => h.full l (List.mem_append_left bs hl)) t m s)
    (h.reflects_doc.append_reply h.reflects_second
      (fun l hl => h.full l (List.mem_append_right as hl)) t m s) (h.reply_single t m s)
    (h.replySchema? t m s) hrejoins

/-- An operation of the single run that the second document shows. -/
theorem exists_single {t : String} {m : Method}
    (hne : entriesAt (base ++ as) t m ≠ [] ∨ entriesAt (base ++ bs) t m ≠ []) :
    ∃ c, single.operation? t m = some c
      ∧ c.Reflects (newAt (base ++ as ++ bs) t) (entriesAt (base ++ as ++ bs) t m) := by
  refine h.reflects_single.present t m fun hnil => ?_
  rw [entriesAt_append, entriesAt_append, List.append_eq_nil_iff, List.append_eq_nil_iff] at hnil
  rw [entriesAt_append, entriesAt_append, hnil.1.1, hnil.1.2, hnil.2] at hne
  simp at hne

/-- **If the union agrees with the single run, nothing is lost.** -/
theorem combines_of_agree (hagree : union.Agree single) :
    Combines doc first second (bs.map Entry.exchange) := by
  have hnames : ∀ t m a b, first.operation? t m = some a → second.operation? t m = some b →
      ∀ name ∈ valueNames b.parameters, name ∈ valueNames a.parameters := by
    intro t m a b ha hb name hname
    have hunion := h.operation? t m
    rw [ha, hb] at hunion
    obtain ⟨u, hj, hu⟩ := unionOption_some_iff.1 hunion
    obtain ⟨hne, hra⟩ := h.reflects_first.operation ha
    obtain ⟨c, hc, hrc⟩ := h.exists_single (Or.inl hne)
    obtain ⟨bodyA, -, hpa⟩ := hra.parameters
    obtain ⟨bodyC, -, hpc⟩ := hrc.parameters
    -- the union has all names of the second operation, and the single run only those of the first
    have hmem := mem_valueNames_unionParameters (Operation.union_eq_ok_iff.1 hj).2.1 (Or.inr hname)
    rw [hagree.names t m u c hu.symm hc, valueNames_of_parameters hpc,
      h.newAt_first (mem_templates_of_operation? ha)] at hmem
    rwa [valueNames_of_parameters hpa]
  refine ⟨hnames, fun t m b ht ha hb => ?_, fun t m p q hp hq => ?_, fun t m s p q hp hq => ?_⟩
  · -- the union takes the second operation over as it is
    have hunion := h.operation? t m
    rw [ha, hb] at hunion
    obtain ⟨hne, hrb⟩ := h.reflects_second.operation hb
    obtain ⟨c, hc, hrc⟩ := h.exists_single (Or.inr hne)
    obtain ⟨bodyB, -, hpb⟩ := hrb.parameters
    obtain ⟨bodyC, -, hpc⟩ := hrc.parameters
    have hvalues := hagree.names t m b c (Except.ok.inj hunion).symm hc
    rw [valueNames_of_parameters hpb, valueNames_of_parameters hpc] at hvalues
    rw [hpb, filter_isBody, h.reflects_first.siblingParameters ht, newAt_eq_of_names hvalues,
      h.newAt_first ht]
  · rw [h.shapes_right t m]
    exact rejoins_of_unionOption (fun _ hb => h.start.plain_bodySchema? hb)
      (h.left.inferred_requests t m) (h.right.inferred_requests t m)
      (h.reflects_doc.append_body h.reflects_first t m)
      (h.reflects_doc.append_body h.reflects_second t m) (h.body_single t m)
      (h.bodySchema? (hnames t m)).1 (hagree.bodies t m) hp hq
  · rw [h.replies_right t m s]
    exact rejoins_of_unionOption (fun _ hb => h.start.plain_replySchema? hb)
      (h.left.inferred_replies t m s) (h.right.inferred_replies t m s)
      (h.reflects_doc.append_reply h.reflects_first
        (fun l hl => h.full l (List.mem_append_left bs hl)) t m s)
      (h.reflects_doc.append_reply h.reflects_second
        (fun l hl => h.full l (List.mem_append_right as hl)) t m s) (h.reply_single t m s)
      (h.replySchema? t m s) (hagree.replies t m s) hp hq

/-- If nothing is lost, an operation that only the second document has is that of the single run. -/
theorem single_operation?_of_none (hc : Combines doc first second (bs.map Entry.exchange))
    {t : String} {m : Method} {b : Operation} (ha : first.operation? t m = none)
    (hb : second.operation? t m = some b) : single.operation? t m = some b := by
  obtain ⟨hne, hrb⟩ := h.reflects_second.operation hb
  obtain ⟨c, hc', hrc⟩ := h.exists_single (Or.inr hne)
  have hnew : newAt (base ++ as ++ bs) t = newAt (base ++ bs) t := by
    by_cases ht : t ∈ first.templates
    · have hsiblings := hc.siblings t m b ht ha hb
      obtain ⟨bodyB, -, hpb⟩ := hrb.parameters
      rw [hpb, filter_isBody, h.reflects_first.siblingParameters ht] at hsiblings
      rw [h.newAt_first ht]
      refine (List.map_injective_iff.2 (fun p q hpq => ?_) hsiblings).symm
      exact Parameter.value.inj hpq
    · exact h.newAt_second ht
  rw [hnew, h.entriesAt_of_none ha] at hrc
  rw [hc', hrc.eq hrb]

/-- If nothing is lost, the union of two operations is that of the single run. -/
theorem single_operation?_of_union (hc : Combines doc first second (bs.map Entry.exchange))
    {t : String} {m : Method} {a b u : Operation} (ha : first.operation? t m = some a)
    (hb : second.operation? t m = some b) (hu : union.operation? t m = some u)
    (hj : a.union b = .ok u) : single.operation? t m = some u := by
  obtain ⟨hne, hra⟩ := h.reflects_first.operation ha
  obtain ⟨-, hrb⟩ := h.reflects_second.operation hb
  obtain ⟨c, hc', hrc⟩ := h.exists_single (Or.inl hne)
  rw [h.newAt_first (mem_templates_of_operation? ha)] at hrc
  have hbody := h.body_eq (hc.names t m) (fun p q hp hq => by
    rw [← h.shapes_right t m]
    exact hc.bodies t m p q hp hq)
  have hreply : ∀ s, union.replySchema? t m s = single.replySchema? t m s :=
    fun s => h.reply_eq fun p q hp hq => by
      rw [← h.replies_right t m s]
      exact hc.replies t m s p q hp hq
  obtain ⟨bodyC, -, hpc⟩ := hrc.parameters
  have hparameters : u.parameters = c.parameters := by
    rw [(h.bodySchema? (hc.names t m)).2 a u ha hu, hpc, hbody, bodySchema?_of_parameters hc' hpc]
  have hschemas : ∀ s r r', u.responses.get? s = some r →
      c.responses.get? s = some r' → r.schema = r'.schema := by
    intro s r r' hr hr'
    have heq := hreply s
    rw [replySchema?_of_operation hu, replySchema?_of_operation hc', hr, hr'] at heq
    exact heq
  rw [entriesAt_append] at hra hrb
  rw [entriesAt_append, entriesAt_append] at hrc
  rw [hc', Operation.Reflects.union hra hrb hrc hj hparameters hschemas]

/-- If nothing is lost, the union has the operations of the single run. -/
theorem operation?_eq (hc : Combines doc first second (bs.map Entry.exchange)) (t : String)
    (m : Method) : union.operation? t m = single.operation? t m := by
  have hunion := h.operation? t m
  cases ha : first.operation? t m with
  | none =>
      rw [ha] at hunion
      rw [← Except.ok.inj hunion]
      cases hb : second.operation? t m with
      | none =>
          have hnil := h.reflects_second.entriesAt_eq_nil hb
          rw [h.reflects_single.absent t m ((h.entriesAt_of_none ha).trans hnil)]
      | some b => rw [h.single_operation?_of_none hc ha hb]
  | some a =>
      obtain ⟨hne, hra⟩ := h.reflects_first.operation ha
      rw [ha] at hunion
      cases hb : second.operation? t m with
      | none =>
          obtain ⟨c, hc', hrc⟩ := h.exists_single (Or.inl hne)
          rw [h.newAt_first (mem_templates_of_operation? ha), h.entriesAt_of_none_right hb] at hrc
          rw [hb] at hunion
          rw [← Except.ok.inj hunion, hc', hrc.eq hra]
      | some b =>
          rw [hb] at hunion
          obtain ⟨u, hj, hu⟩ := unionOption_some_iff.1 hunion
          rw [← hu, h.single_operation?_of_union hc ha hb hu.symm hj]

/-- **If nothing is lost, the union is the document of the single run.** -/
theorem eq_of_combines (hc : Combines doc first second (bs.map Entry.exchange)) :
    union = single := by
  have htemplates : union.templates = single.templates := by
    rw [templates_union h.united, h.reflects_first.templates, h.reflects_second.templates,
      h.reflects_single.templates, List.map_append, List.map_append, List.map_append,
      List.map_append, addAll_common]
  have hitems : ∀ t, union.pathItem t = single.pathItem t := by
    intro t
    have hshared := shared_union h.reflects_second.nodup_templates h.united t
      (h.reflects_first.shared t) (h.reflects_second.shared t)
    refine PathItem.ext_operations (h.operation?_eq hc t) ?_ ?_
    · rw [hshared.1, (h.reflects_single.shared t).1]
    · rw [hshared.2, (h.reflects_single.shared t).2]
  have hnodup : union.templates.Nodup := htemplates ▸ h.reflects_single.nodup_templates
  have hpaths : union.paths = single.paths := by
    refine Members.ext_keys hnodup htemplates fun t ht => ?_
    have hsingle : t ∈ single.templates := htemplates ▸ ht
    rw [get?_paths_of_mem ht, get?_paths_of_mem hsingle, hitems t]
  rw [(union_eq_ok_iff.1 h.united).2.2.2, h.both.rest, hpaths]

end SideBySide

/-- The template under which an exchange was recorded. -/
def eventTemplate? : Event → Option String
  | .recorded cell => some cell.template
  | .skipped .. => none

/-- **The union of two documents that went on side by side is the document of the single run exactly
if nothing is lost.**  If it is not, it differs by more than the order of members. -/
theorem union_eq_recordAll_iff {info : Info} {xs as bs : List Exchange}
    {doc first second single union : Document}
    (hdoc : (({ info } : Document).recordAll false xs).outcome = .ok doc)
    (hfirst : (doc.recordAll false as).outcome = .ok first)
    (hsecond : (doc.recordAll false bs).outcome = .ok second)
    (hsingle : (doc.recordAll false (as ++ bs)).outcome = .ok single)
    (hunion : first.union second = .ok union) (hfull : ∀ x ∈ as ++ bs, ¬x.reply.IsEmpty)
    (htemplates : ((doc.recordAll false (as ++ bs)).events.drop as.length).map eventTemplate?
      = (doc.recordAll false bs).events.map eventTemplate?) :
    (union = single ↔ Combines doc first second bs)
      ∧ (union.same single = true → union = single) := by
  obtain ⟨base, hbase, -⟩ := exists_records hdoc
  obtain ⟨logA, hleft, rfl⟩ := exists_records hfirst
  obtain ⟨logB, hright, rfl⟩ := exists_records hsecond
  obtain ⟨logAB, hboth, hlog⟩ := exists_records hsingle
  -- the single run passes through the first document, and records the second part as it was
  obtain ⟨logA', logB', rfl, hA', hB'⟩ := List.map_eq_append_iff.1 hlog
  obtain ⟨mid, hmid, hrest⟩ := hboth.split
  obtain ⟨rfl, rfl⟩ := hleft.unique hmid hA'.symm
  have hlogs : logB' = logB := by
    refine hrest.eq_of_templates hright hB' ?_
    rw [← hlog, hboth.recordAll, hright.recordAll, List.map_append, List.length_map,
      List.drop_append_of_le_length (by simp), List.drop_of_length_le (by simp), List.nil_append,
      List.map_map, List.map_map] at htemplates
    have hsome := congrArg (List.filterMap id) htemplates
    simpa [List.filterMap_map, Function.comp_def, eventTemplate?, List.filterMap_eq_map']
      using hsome
  subst hlogs
  have hfull' : ∀ l ∈ logA ++ logB', l.evidence.reply ≠ none := by
    intro l hl hnone
    have hshows : l.exchange.evidence = .ok l.evidence := (hboth.entry hl).1
    refine hfull l.exchange ?_ ((Exchange.evidence_reply_eq_none_iff hshows).1 hnone)
    rw [← List.map_append]
    exact List.mem_map_of_mem hl
  have h : SideBySide info base logA logB' doc first second single union :=
    ⟨hbase, hleft, hright, hrest, hfull', hunion⟩
  have hself : single.Agree single :=
    agree_self (fun t m p hp => ((hbase.trans hleft).trans hrest).plain_bodySchema? hp)
      fun t m s p hp => ((hbase.trans hleft).trans hrest).plain_replySchema? hp
  refine ⟨⟨fun heq => ?_, h.eq_of_combines⟩, fun hsame => ?_⟩
  · exact h.combines_of_agree (heq ▸ hself)
  · exact h.eq_of_combines (h.combines_of_agree (agree_of_same hsame))

/-- An exchange with a reply under one template. -/
def helloExchange (body : Value) : Exchange :=
  ⟨{ method := "GET", url := "/hello" }, { status := 200, body }⟩

/-- A reply that holds an object with two members. -/
def pairReply : Exchange :=
  helloExchange (.object [("k", .object [("p", .atom (.int 1)), ("q", .atom (.int 2))])])

/-- A reply that holds an object with one of the two members. -/
def partReply : Exchange := helloExchange (.object [("k", .object [("p", .atom (.int 1))])])

/-- A reply that holds no object. -/
def bareReply : Exchange := helloExchange (.object [])

theorem not_isEmpty_helloExchange (ms : Members String Value) :
    ¬(helloExchange (.object ms)).reply.IsEmpty := by
  rintro ⟨v, hv, hnull⟩
  cases hv
  cases hnull

/-- A member that the second part shows with less in it is put together as in the single run. -/
theorem union_eq_recordAll_iff_partReply : ∃ first second single union : Document,
    (({} : Document).recordAll false []).outcome = .ok {} ∧
    (({} : Document).recordAll false [pairReply]).outcome = .ok first ∧
    (({} : Document).recordAll false [partReply]).outcome = .ok second ∧
    (({} : Document).recordAll false ([pairReply] ++ [partReply])).outcome = .ok single ∧
    first.union second = .ok union ∧ (∀ x ∈ [pairReply] ++ [partReply], ¬x.reply.IsEmpty) ∧
    ((({} : Document).recordAll false ([pairReply] ++ [partReply])).events.drop
        [pairReply].length).map eventTemplate?
      = (({} : Document).recordAll false [partReply]).events.map eventTemplate? ∧
    (union = single ↔ Combines {} first second [partReply]) ∧
      (union.same single = true → union = single) := by
  have hempty : (({ info := {} } : Document).recordAll false []).outcome = .ok {} := rfl
  obtain ⟨first, hfirst⟩ : ∃ first,
      (({} : Document).recordAll false [pairReply]).outcome = .ok first := ⟨_, rfl⟩
  obtain ⟨second, hsecond⟩ : ∃ second,
      (({} : Document).recordAll false [partReply]).outcome = .ok second := ⟨_, rfl⟩
  obtain ⟨single, hsingle⟩ : ∃ single,
      (({} : Document).recordAll false ([pairReply] ++ [partReply])).outcome = .ok single :=
    ⟨_, rfl⟩
  obtain ⟨union, hunion⟩ : ∃ union, first.union second = .ok union := by
    cases hfirst
    cases hsecond
    exact ⟨_, rfl⟩
  have hfull : ∀ x ∈ [pairReply] ++ [partReply], ¬x.reply.IsEmpty := by
    intro x hx
    simp only [List.cons_append, List.nil_append, List.mem_cons, List.not_mem_nil, or_false] at hx
    rcases hx with rfl | rfl
    · exact not_isEmpty_helloExchange _
    · exact not_isEmpty_helloExchange _
  have htemplates : ((({} : Document).recordAll false ([pairReply] ++ [partReply])).events.drop
        [pairReply].length).map eventTemplate?
      = (({} : Document).recordAll false [partReply]).events.map eventTemplate? := by
    decide +kernel
  exact ⟨first, second, single, union, hempty, hfirst, hsecond, hsingle, hunion, hfull, htemplates,
    union_eq_recordAll_iff hempty hfirst hsecond hsingle hunion hfull htemplates⟩

/-- If the second part shows the member with less in it and then not at all, the union still
requires of the member what only the first part showed, and the single run does not. -/
theorem union_ne_recordAll_bareReply : ∃ first second single union : Document,
    (({} : Document).recordAll false [pairReply]).outcome = .ok first ∧
    (({} : Document).recordAll false [partReply, bareReply]).outcome = .ok second ∧
    (({} : Document).recordAll false ([pairReply] ++ [partReply, bareReply])).outcome
      = .ok single ∧
    first.union second = .ok union ∧
    (∀ x ∈ [pairReply] ++ [partReply, bareReply], ¬x.reply.IsEmpty) ∧
    ((({} : Document).recordAll false ([pairReply] ++ [partReply, bareReply])).events.drop
        [pairReply].length).map eventTemplate?
      = (({} : Document).recordAll false [partReply, bareReply]).events.map eventTemplate? ∧
    union.same single = false ∧ union ≠ single := by
  obtain ⟨first, hfirst⟩ : ∃ first,
      (({} : Document).recordAll false [pairReply]).outcome = .ok first := ⟨_, rfl⟩
  obtain ⟨second, hsecond⟩ : ∃ second,
      (({} : Document).recordAll false [partReply, bareReply]).outcome = .ok second := ⟨_, rfl⟩
  obtain ⟨single, hsingle⟩ : ∃ single,
      (({} : Document).recordAll false ([pairReply] ++ [partReply, bareReply])).outcome
        = .ok single := ⟨_, rfl⟩
  obtain ⟨union, hunion⟩ : ∃ union, first.union second = .ok union := by
    cases hfirst
    cases hsecond
    exact ⟨_, rfl⟩
  have hfull : ∀ x ∈ [pairReply] ++ [partReply, bareReply], ¬x.reply.IsEmpty := by
    intro x hx
    simp only [List.cons_append, List.nil_append, List.mem_cons, List.not_mem_nil, or_false] at hx
    rcases hx with rfl | rfl | rfl
    · exact not_isEmpty_helloExchange _
    · exact not_isEmpty_helloExchange _
    · exact not_isEmpty_helloExchange _
  have htemplates :
      ((({} : Document).recordAll false ([pairReply] ++ [partReply, bareReply])).events.drop
        [pairReply].length).map eventTemplate?
      = (({} : Document).recordAll false [partReply, bareReply]).events.map eventTemplate? := by
    decide +kernel
  have hsame : union.same single = false := by
    cases hfirst
    cases hsecond
    cases hsingle
    cases hunion
    rfl
  have hself : single.same single = true := by
    cases hsingle
    rfl
  refine ⟨first, second, single, union, hfirst, hsecond, hsingle, hunion, hfull, htemplates, hsame,
    fun heq => ?_⟩
  rw [heq, hself] at hsame
  cases hsame

end Document

end ApiScribe
