/-
**What a run records, said of its exchanges.**

The document of a strict run from the empty document can be read off the exchanges, without looking
at the run: an exchange belongs to the template that its URL has in the final document, and an
operation holds what the exchanges of its template and method show.

Main definitions:

* `ApiScribe.Document.templateOf?` — the template of an exchange in a document;
* `ApiScribe.Document.observations` — the exchanges of a template and a method;
* `ApiScribe.Operation.Describes`, `ApiScribe.Document.Describes` — an operation and a document hold
  just what exchanges show.

Main result: `ApiScribe.Document.describes_of_recordAll` — the document of a strict run from the
empty document describes the exchanges of the run.
-/

import ApiScribe.Proofs.Recording.Digest

set_option autoImplicit false

namespace ApiScribe

/-- The body of a request as it is decoded. -/
def Request.decoded (request : Request) : Except BodyError Value :=
  readBody request.body request.contentType?

/-- The body of a reply as it is decoded. -/
def Reply.decoded (reply : Reply) : Except BodyError Value :=
  readBody reply.body reply.contentType?

/-- The content types that are announced, without empty ones, in order of first appearance. -/
def distinctTypes (types : List (Option String)) : List String :=
  (types.reduceOption.filter fun t => !t.isEmpty).eraseDups

/-- An operation holds just what exchanges show, after the parameters of its template. -/
structure Operation.Describes (new : List ValueParameter) (xs : List Exchange) (op : Operation) :
    Prop where
  /-- The content types of the requests. -/
  consumes : op.consumes = distinctTypes (xs.map (·.request.contentType?))
  /-- The content types of the replies. -/
  produces : op.produces = distinctTypes (xs.map (·.reply.contentType?))
  /-- The status codes in order of first appearance. -/
  statuses : op.responses.keys = (xs.map (·.reply.statusText)).eraseDups
  /-- The schema under a status code is that of the replies since the last empty one. -/
  replies : ∀ s r, op.responses.get? s = some r →
    ∃ vs, (xs.filter (·.reply.statusText = s)).mapM (·.reply.decoded) = .ok vs
      ∧ Schema.ofSamples (vs.rtakeWhile fun v => !v.isNull) = .ok r.schema
  /-- The parameters of the template, and the body with the schema of the requests that have one. -/
  parameters : ∃ vs body,
    (xs.filter fun x => !x.request.body.isNull).mapM (·.request.decoded) = .ok vs
      ∧ Schema.ofSamples vs = .ok body
      ∧ op.parameters = new.map .value ++ (body.map fun schema => .body { schema }).toList
  /-- There is a body exactly if one of the requests has one. -/
  body : op.body?.isSome ↔ ∃ x ∈ xs, x.request.body.isNull = false

namespace Document

/-- The template of an exchange in a document. -/
def templateOf? (doc : Document) (x : Exchange) : Option String :=
  match Template.resolve x.request.url doc.templates with
  | .ok r => some r.template
  | .error _ => none

/-- The exchanges of a template and a method in a document. -/
def observations (doc : Document) (xs : List Exchange) (t : String) (m : Method) : List Exchange :=
  xs.filter fun x => doc.templateOf? x = some t ∧ x.request.method? = some m

/-- A document that was `start` at first holds just what exchanges show. -/
structure Describes (doc start : Document) (xs : List Exchange) : Prop where
  /-- Every exchange has a template and a method. -/
  placed : ∀ x ∈ xs, ∃ t m, doc.templateOf? x = some t ∧ x.request.method? = some m
  /-- The templates of the exchanges in order of first appearance. -/
  templates : doc.templates = (xs.filterMap doc.templateOf?).eraseDups
  /-- There is an operation exactly where there are exchanges. -/
  operations : ∀ t m, (doc.operation? t m).isSome ↔ ∃ x, x ∈ doc.observations xs t m
  /-- An operation holds what its exchanges show, with the parameters that were new when its
  template appeared first. -/
  each : ∀ t m op, doc.operation? t m = some op →
    ∃ before x after mid new, xs = before ++ x :: after ∧ doc.templateOf? x = some t
      ∧ (∀ y ∈ before, doc.templateOf? y ≠ some t)
      ∧ (start.recordAll false before).outcome = .ok mid
      ∧ Template.resolve x.request.url mid.templates = .ok ⟨t, new⟩
      ∧ op.Describes new (doc.observations xs t m)

end Document

/-! ### Evidence and bodies -/

section

variable {xs : List Exchange} {es : List Evidence}

/-- The content types of one side of the exchanges, as the evidence shows them. -/
theorem addAll_shownTypes {shown : Evidence → Option String} {announced : Exchange → Option String}
    (hside : ∀ x e, Exchange.evidence x = .ok e → shown e = announced x)
    (h : List.Forall₂ (fun x e => Exchange.evidence x = .ok e) xs es) :
    addAll [] (es.flatMap fun e => shownTypes (shown e)) = distinctTypes (xs.map announced) := by
  rw [distinctTypes, eraseDups_eq_addAll]
  congr 1
  induction h with
  | nil => rfl
  | @cons x e xs es hx _ ih =>
      rw [List.flatMap_cons, List.map_cons, ih, hside x e hx]
      cases announced x with
      | none => simp [shownTypes]
      | some t => by_cases hempty : t.isEmpty = true <;> simp [shownTypes, hempty]

theorem Exchange.statusText_eq {x : Exchange} {e : Evidence} (h : x.evidence = .ok e) :
    x.reply.statusText = e.statusText := by
  obtain ⟨-, -, -, -, hst⟩ := evidence_eq_ok_iff.1 h
  rw [Reply.statusText, Evidence.statusText, hst]

theorem map_statusText (h : List.Forall₂ (fun x e => Exchange.evidence x = .ok e) xs es) :
    es.map Evidence.statusText = xs.map (·.reply.statusText) := by
  induction h with
  | nil => rfl
  | cons hx _ ih => rw [List.map_cons, List.map_cons, ih, Exchange.statusText_eq hx]

/-- The bodies of the requests that have one, with the schemas that were seen. -/
theorem exists_decoded_requests
    (h : List.Forall₂ (fun x e => Exchange.evidence x = .ok e) xs es) :
    ∃ vs, (xs.filter fun x => !x.request.body.isNull).mapM (·.request.decoded) = .ok vs
      ∧ List.Forall₂ (fun v s => Schema.ofSample v = .ok s) vs
          (es.filterMap Evidence.request) := by
  simp only [mapM_eq_ok_iff]
  induction h with
  | nil => exact ⟨[], .nil, .nil⟩
  | @cons x e xs es hx _ ih =>
      obtain ⟨vs, hvs, hss⟩ := ih
      obtain ⟨hq, -⟩ := Exchange.evidence_eq_ok_iff.1 hx
      rcases Request.bodySchema_eq_ok_iff.1 hq with ⟨hnull, hnone⟩ | ⟨hnull, v, s, hv, hs, hsome⟩
      · refine ⟨vs, ?_, ?_⟩
        · simpa [hnull] using hvs
        · simpa [hnone] using hss
      · refine ⟨v :: vs, ?_, ?_⟩
        · rw [List.filter_cons_of_pos (by simp [hnull])]
          exact .cons hv hvs
        · rw [List.filterMap_cons_some hsome]
          exact .cons hs hss

/-- A body that was seen in a reply, with the schema that it leaves. -/
def LeavesShape (v : Value) (shape : Option Schema) : Prop :=
  (v.isNull = true ∧ shape = none) ∨
    (v.isNull = false ∧ ∃ s, Schema.ofSample v = .ok s ∧ shape = some s)

/-- The bodies of the replies under a status code, with the schemas that they leave. -/
theorem exists_decoded_replies
    (h : List.Forall₂ (fun x e => Exchange.evidence x = .ok e) xs es) (status : String) :
    ∃ vs, (xs.filter (·.reply.statusText = status)).mapM (·.reply.decoded) = .ok vs
      ∧ List.Forall₂ LeavesShape vs
          ((es.filter (·.statusText = status)).map Evidence.reply) := by
  simp only [mapM_eq_ok_iff]
  induction h with
  | nil => exact ⟨[], .nil, .nil⟩
  | @cons x e xs es hx _ ih =>
      obtain ⟨vs, hvs, hss⟩ := ih
      obtain ⟨-, hp, -⟩ := Exchange.evidence_eq_ok_iff.1 hx
      obtain ⟨v, hv, hshape⟩ := Reply.bodySchema_eq_ok_iff.1 hp
      have hst := Exchange.statusText_eq hx
      by_cases hs : e.statusText = status
      · refine ⟨v :: vs, ?_, ?_⟩
        · rw [List.filter_cons_of_pos (by simp [hst, hs])]
          exact .cons hv hvs
        · rw [List.filter_cons_of_pos (by simp [hs]), List.map_cons]
          exact .cons hshape hss
      · refine ⟨vs, ?_, ?_⟩
        · rwa [List.filter_cons_of_neg (by simp [hst, hs])]
        · rwa [List.filter_cons_of_neg (by simp [hs])]

end

theorem forall₂_takeWhile {vs : List Value} {shapes : List (Option Schema)}
    (h : List.Forall₂ LeavesShape vs shapes) :
    List.Forall₂ (fun v s => Schema.ofSample v = .ok s) (vs.takeWhile fun v => !v.isNull)
      (shapes.takeWhile Option.isSome).reduceOption := by
  induction h with
  | nil => exact .nil
  | @cons v shape vs shapes hv _ ih =>
      rcases hv with ⟨hnull, rfl⟩ | ⟨hnull, s, hs, rfl⟩
      · simp [hnull]
      · rw [List.takeWhile_cons_of_pos (by simp [hnull]), List.takeWhile_cons_of_pos (by simp),
          List.reduceOption_cons_of_some]
        exact .cons hs ih

/-- The bodies since the last empty one, with their schemas. -/
theorem forall₂_rtakeWhile {vs : List Value} {shapes : List (Option Schema)}
    (h : List.Forall₂ LeavesShape vs shapes) :
    List.Forall₂ (fun v s => Schema.ofSample v = .ok s) (vs.rtakeWhile fun v => !v.isNull)
      (shapes.rtakeWhile Option.isSome).reduceOption := by
  rw [List.rtakeWhile, List.rtakeWhile, List.reduceOption, List.filterMap_reverse,
    List.forall₂_reverse_iff]
  exact forall₂_takeWhile (List.forall₂_reverse_iff.2 h)

/-- A run of joins ends with a schema exactly if there is something to join. -/
theorem isSome_joinAll {ss : List Schema} {body : Option Schema} (h : joinAll none ss = .ok body) :
    body.isSome ↔ ss ≠ [] := by
  cases ss with
  | nil =>
      cases h
      simp
  | cons s ss =>
      obtain ⟨t, -, hrest⟩ := joinAll_cons.1 h
      obtain ⟨r, rfl⟩ := joinAll_some hrest
      simp

theorem body?_eq {op : Operation} {new : List ValueParameter} {body : Option Schema}
    (h : op.parameters = new.map .value ++ bodyParameters body) :
    op.body? = body.map fun schema => { schema } := by
  induction new generalizing op with
  | nil =>
      rw [Operation.body?, h]
      cases body <;> rfl
  | cons v new ih =>
      -- a value in front of the others is passed over
      have hrest : ({ op with parameters := new.map .value ++ bodyParameters body } :
          Operation).body? = _ := ih rfl
      rw [← hrest, Operation.body?, h]
      rfl

/-- **An operation that holds what evidence shows describes the exchanges.** -/
theorem Operation.Reflects.describes {new : List ValueParameter} {xs : List Exchange}
    {es : List Evidence} {op : Operation} (h : op.Reflects new es)
    (hshows : List.Forall₂ (fun x e => Exchange.evidence x = .ok e) xs es) :
    op.Describes new xs where
  consumes := by
    rw [h.consumes]
    exact addAll_shownTypes (fun x e he => (Exchange.evidence_eq_ok_iff.1 he).2.2.1) hshows
  produces := by
    rw [h.produces]
    exact addAll_shownTypes (fun x e he => (Exchange.evidence_eq_ok_iff.1 he).2.2.2.1) hshows
  statuses := by
    rw [h.statuses, map_statusText hshows, eraseDups_eq_addAll]
  replies := by
    intro s r hr
    obtain ⟨vs, hvs, hshapes⟩ := exists_decoded_replies hshows s
    obtain ⟨-, -, hjoin⟩ := h.responses s r hr
    exact ⟨vs, hvs, Schema.ofSamples_eq_ok_iff.2 ⟨_, forall₂_rtakeWhile hshapes, hjoin⟩⟩
  parameters := by
    obtain ⟨vs, hvs, hss⟩ := exists_decoded_requests hshows
    obtain ⟨body, hjoin, hparams⟩ := h.parameters
    exact ⟨vs, body, hvs, Schema.ofSamples_eq_ok_iff.2 ⟨_, hss, hjoin⟩, hparams⟩
  body := by
    obtain ⟨vs, hvs, hss⟩ := exists_decoded_requests hshows
    obtain ⟨body, hjoin, hparams⟩ := h.parameters
    have hlength := (mapM_eq_ok_iff.1 hvs).length_eq.trans hss.length_eq
    rw [body?_eq hparams, Option.isSome_map, isSome_joinAll hjoin]
    constructor
    · intro hne
      have hne' : (xs.filter fun x => !x.request.body.isNull) ≠ [] := by
        intro hnil
        rw [hnil, List.length_nil] at hlength
        exact hne (List.length_eq_zero_iff.1 hlength.symm)
      obtain ⟨x, hx⟩ := List.exists_mem_of_ne_nil _ hne'
      exact ⟨x, (List.mem_filter.1 hx).1, by simpa using (List.mem_filter.1 hx).2⟩
    · rintro ⟨x, hx, hbody⟩ hnil
      rw [hnil, List.length_nil, List.length_eq_zero_iff, List.filter_eq_nil_iff] at hlength
      exact hlength x hx (by simp [hbody])

/-! ### Documents -/

namespace Document

section

variable {info : Info} {log : List Entry} {doc : Document}

theorem Records.templateOf? {start : Document} (h : Records start log doc) {l : Entry}
    (hl : l ∈ log) : doc.templateOf? l.exchange = some l.cell.template := by
  have hres := h.resolve hl []
  rw [List.append_nil] at hres
  rw [Document.templateOf?, hres]

/-- The exchanges of a template and a method are those of the entries. -/
theorem Records.observations {start : Document} (h : Records start log doc) (t : String)
    (m : Method) : doc.observations (log.map Entry.exchange) t m
      = (log.filter fun l => l.cell.template = t ∧ l.cell.method = m).map Entry.exchange := by
  rw [Document.observations, List.filter_map]
  congr 1
  refine List.filter_congr fun l hl => ?_
  obtain ⟨-, hm, -⟩ := h.entry hl
  simp [h.templateOf? hl, hm]

/-- The evidence of an operation is that of its exchanges. -/
theorem Records.forall₂_evidence {start : Document} (h : Records start log doc) (t : String)
    (m : Method) : List.Forall₂ (fun x e => Exchange.evidence x = .ok e)
      (doc.observations (log.map Entry.exchange) t m) (entriesAt log t m) := by
  rw [h.observations, entriesAt, List.forall₂_map_left_iff, List.forall₂_map_right_iff,
    List.forall₂_same]
  exact fun l hl => (h.entry (List.mem_filter.1 hl).1).1

/-- The parameters of a template are those that were new when the template appeared first. -/
theorem Records.exists_first {start : Document} (h : Records start log doc)
    (hstart : start.templates = []) {t : String} (ht : t ∈ log.map fun l => l.cell.template) :
    ∃ before l after mid, log = before ++ l :: after ∧ l.cell.template = t
      ∧ (∀ l' ∈ before, l'.cell.template ≠ t) ∧ Records start before mid ∧ t ∉ mid.templates
      ∧ Template.resolve l.exchange.request.url mid.templates = .ok ⟨t, newAt log t⟩ := by
  obtain ⟨l', hl', hl't⟩ := List.mem_map.1 ht
  have hfound : (log.find? (·.cell.template = t)).isSome :=
    List.find?_isSome.2 ⟨l', hl', by simpa using hl't⟩
  obtain ⟨l, hl⟩ := Option.isSome_iff_exists.1 hfound
  obtain ⟨hlt, before, after, hsplit, hbefore⟩ := List.find?_eq_some_iff_append.1 hl
  have hlt : l.cell.template = t := of_decide_eq_true hlt
  have hbefore : ∀ l' ∈ before, l'.cell.template ≠ t := fun l' hl' => by
    simpa using hbefore l' hl'
  obtain ⟨mid, h₁, h₂⟩ := (hsplit ▸ h).split
  obtain ⟨mid', hstep, -, -⟩ := h₂.head
  obtain ⟨new, -, -, hr, -⟩ := operation?_of_record hstep
  rw [hlt] at hr
  -- the template is not among those of the entries before
  have hnew : t ∉ mid.templates := by
    rw [h₁.templates, hstart, mem_addAll]
    rintro (hmem | hmem)
    · cases hmem
    · obtain ⟨l', hl', hl't⟩ := List.mem_map.1 hmem
      exact hbefore l' hl' hl't
  refine ⟨before, l, after, mid, hsplit, hlt, hbefore, h₁, hnew, ?_⟩
  have hmade : newAt log t = new := by
    rw [newAt, hl, new_eq_newParametersOf hr hnew]
  rw [hmade]
  exact hr

/-- **The document of a strict run from the empty document describes the exchanges of the run.** -/
theorem describes_of_recordAll {xs : List Exchange}
    (h : (({ info } : Document).recordAll false xs).outcome = .ok doc) :
    doc.Describes { info } xs := by
  obtain ⟨log, hrun, rfl⟩ := exists_records h
  have hreflects := reflects_of_records hrun
  -- an exchange keeps its template, so that the final document groups them as the log does
  have hentries : ∀ t m, entriesAt log t m ≠ [] ↔
      ∃ x, x ∈ doc.observations (log.map Entry.exchange) t m := by
    intro t m
    have hlength := (hrun.forall₂_evidence t m).length_eq
    rw [← List.length_pos_iff, ← hlength, List.length_pos_iff_exists_mem]
  refine ⟨?_, ?_, fun t m => ?_, fun t m op hop => ?_⟩
  · intro x hx
    obtain ⟨l, hl, rfl⟩ := List.mem_map.1 hx
    exact ⟨l.cell.template, l.cell.method, hrun.templateOf? hl, (hrun.entry hl).2.1⟩
  · rw [hreflects.templates, eraseDups_eq_addAll, List.filterMap_map]
    congr 1
    rw [← List.filterMap_eq_map]
    refine List.filterMap_congr fun l hl => ?_
    exact (hrun.templateOf? hl).symm
  · rw [← hentries]
    constructor
    · intro hsome
      obtain ⟨op, hop⟩ := Option.isSome_iff_exists.1 hsome
      exact (hreflects.operation hop).1
    · intro hne
      obtain ⟨op, hop, -⟩ := hreflects.present t m hne
      rw [hop]
      rfl
  · obtain ⟨hne, hop⟩ := hreflects.operation hop
    obtain ⟨before, l, after, mid, hsplit, hlt, hbefore, hmid, -, hres⟩ :=
      hrun.exists_first rfl (mem_templates_of_entriesAt hne)
    refine ⟨before.map Entry.exchange, l.exchange, after.map Entry.exchange, mid, newAt log t,
      ?_, ?_, ?_, ?_, hres, hop.describes (hrun.forall₂_evidence t m)⟩
    · rw [hsplit, List.map_append, List.map_cons]
    · rw [hrun.templateOf? (hsplit ▸ by simp), hlt]
    · intro y hy
      obtain ⟨l', hl', rfl⟩ := List.mem_map.1 hy
      rw [hrun.templateOf? (hsplit ▸ List.mem_append_left _ hl')]
      exact fun heq => hbefore l' hl' (Option.some.inj heq)
    · rw [hmid.recordAll]

end

/-- Exchanges with two users: a reply that is emptied and filled again, and a body from another
method, which takes over the parameter of the template. -/
def userExchanges : List Exchange :=
  [⟨{ method := "GET", url := "/users/00000000-0000-4000-8000-000000000000" },
      { status := 200, body := .object [("k", .atom (.int 1))] }⟩,
    ⟨{ method := "get", url := "/users/1" }, { status := 200 }⟩,
    ⟨{ method := "GET", url := "/users/2" }, { status := 200, body := .text "a" }⟩,
    ⟨{ method := "POST", url := "/users/3", body := .text "b" }, { status := 404 }⟩]

/-- A run over the exchanges with two users is described by them. -/
theorem describes_of_recordAll_userExchanges : ∃ doc,
    (({ info := {} } : Document).recordAll false userExchanges).outcome = .ok doc ∧
    doc.Describes { info := {} } userExchanges := by
  have hok : (({ info := {} } : Document).recordAll false userExchanges).outcome.toBool = true := by
    decide +kernel
  cases hdoc : (({ info := {} } : Document).recordAll false userExchanges).outcome with
  | error err =>
      rw [hdoc] at hok
      cases hok
  | ok doc => exact ⟨doc, rfl, describes_of_recordAll hdoc⟩

end Document

end ApiScribe
