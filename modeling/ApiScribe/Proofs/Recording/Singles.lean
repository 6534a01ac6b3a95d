/-
**A run is the union of its exchanges.**

Recorded in an empty document of its own, an exchange leaves one operation with what it shows.  The
union with that document then does what recording the exchange would have done, if the exchange goes
to the template that is made of its own path: the operation that a run starts takes its parameters
over from its siblings, and that of the single exchange brings them itself.  They are the same,
since a template tells the names of its placeholders as long as no path has placeholders of its own.

An empty reply is the exception, which a run takes for the last word and a union for silence.

Main definitions:

* `ApiScribe.Evidence.operation` — the operation that an exchange leaves by itself;
* `ApiScribe.Document.recordEach`, `ApiScribe.Document.unionAll` — exchanges recorded each in a
  document of its own, and documents united one after the other;
* `ApiScribe.Document.ResolvesOwn` — a run in which each exchange has the template made of its path.

Main results:

* `ApiScribe.Operation.Reflects.union_eq_ok_iff` — one operation;
* `ApiScribe.Document.Reflects.record_iff_union` — one step of a run;
* `ApiScribe.Document.recordAll_eq_unionAll` — **the whole run**.
-/

import ApiScribe.Proofs.Recording.Union

set_option autoImplicit false

namespace ApiScribe

/-! ### Operations -/

/-- The operation that an exchange leaves where there was none. -/
def Evidence.operation (e : Evidence) (new : List ValueParameter) : Operation where
  consumes := appendNew [] e.requestType
  produces := appendNew [] e.replyType
  parameters := new.map .value ++ bodyParameters e.request
  responses := [(e.statusText, e.response none e.reply)]

namespace Operation

/-- In an operation that has only parameters an exchange leaves what it leaves by itself. -/
theorem grows_parameters_iff {new : List ValueParameter} {e : Evidence} {op : Operation} :
    ({ parameters := new.map .value } : Operation).Grows [] e op ↔ op = e.operation new := by
  have hparameters : joinParameters e.request (new.map .value)
      = .ok (new.map .value ++ bodyParameters e.request) := by
    have hjoin : joinAll none e.request.toList = .ok e.request := by
      cases e.request <;> rfl
    have hnone : joinParameters e.request (new.map .value ++ bodyParameters none)
        = .ok (new.map .value ++ bodyParameters e.request) :=
      joinParameters_eq_ok_iff.2 ⟨_, hjoin, rfl⟩
    rwa [bodyParameters, Option.map_none, Option.toList_none, List.append_nil] at hnone
  have hreply : joinReply none e.reply = .ok e.reply := by
    cases e.reply <;> rfl
  constructor
  · intro h
    obtain ⟨schema, hschema, hresponses⟩ := h.responses
    have hschema : joinReply none e.reply = .ok schema := hschema
    have hp := h.parameters
    rw [addParameters_nil, hparameters, Except.ok.injEq] at hp
    rw [hreply, Except.ok.injEq] at hschema
    obtain ⟨consumes, produces, parameters, responses, extras⟩ := op
    rw [Evidence.operation, Operation.mk.injEq]
    exact ⟨h.consumes, h.produces, hp.symm, hschema ▸ hresponses, h.extras⟩
  · rintro rfl
    exact ⟨rfl, rfl, by rw [addParameters_nil]; exact hparameters, ⟨_, hreply, rfl⟩, rfl⟩

/-- The union with the parameters that an exchange leaves by itself joins its body. -/
theorem unionParameters_operation {vs : List ValueParameter} (hvs : ∀ p ∈ vs, p.place = .path)
    (body : Option Schema) (e : Evidence) :
    unionParameters (vs.map .value ++ bodyParameters body) (e.operation vs).parameters
      = joinParameters e.request (vs.map .value ++ bodyParameters body) := by
  rw [Evidence.operation, unionParameters_of_subset hvs hvs fun p hp => List.mem_map_of_mem hp]
  cases e.request with
  | none => rfl
  | some s =>
      have hone : unionBody { schema := s } (vs.map .value ++ bodyParameters body)
          = joinBody s (vs.map .value ++ bodyParameters body) := by
        clear hvs
        induction vs with
        | nil => cases body <;> rfl
        | cons v vs ih => rw [List.map_cons, List.cons_append, unionBody, joinBody, ih]
      have hbody : bodyParameters (some s) = [.body { schema := s }] := rfl
      rw [hbody, unionParameters, unionParameter, hone, joinParameters]
      cases joinBody s (vs.map .value ++ bodyParameters body) <;> rfl

/-- The union with the answer that an exchange leaves by itself joins its reply. -/
theorem Reflects.unionMembers_operation {new : List ValueParameter} {es : List Evidence}
    {op : Operation} (h : op.Reflects new es) {e : Evidence} (he : e.reply ≠ none) :
    unionMembers Response.union op.responses (e.operation new).responses
      = (joinReply ((e.before op).bind Response.schema) e.reply).map fun schema =>
          op.responses.put e.statusText (e.response (e.before op) schema) := by
  obtain ⟨s, hs⟩ := Option.ne_none_iff_exists'.1 he
  rw [Evidence.operation, unionMembers, Evidence.before, hs, joinReply]
  cases hr : op.responses.get? e.statusText with
  | none => rfl
  | some r =>
      -- the description of the status code is already there
      obtain ⟨-, ⟨e', -, hst, hd⟩, -⟩ := h.responses _ r hr
      rw [Evidence.status_eq hst] at hd
      obtain ⟨description, schema, extras⟩ := r
      simp only at hd
      subst hd
      cases schema with
      | none => rfl
      | some t =>
          simp only [Response.union, Evidence.response, unionOption, Option.bind_some, joinOption]
          cases Schema.join t s <;> rfl

/-- **The union with what an exchange leaves by itself does what recording it does.** -/
theorem Reflects.union_eq_ok_iff {new : List ValueParameter} {es : List Evidence}
    {op op' : Operation} (h : op.Reflects new es) (hnew : ∀ p ∈ new, p.place = .path)
    {e : Evidence} (he : e.reply ≠ none) :
    op.union (e.operation new) = .ok op' ↔ op.Grows [] e op' := by
  obtain ⟨body, -, hparams⟩ := h.parameters
  have hparameters : unionParameters op.parameters (e.operation new).parameters
      = joinParameters e.request op.parameters := by
    rw [hparams]
    exact unionParameters_operation hnew body e
  have htexts : ∀ (texts : List String) (t : Option String),
      unionTexts texts (appendNew [] t) = appendNew texts t := by
    intro texts t
    rw [appendNew_eq_addAll, appendNew_eq_addAll, unionTexts_eq_addAll, addAll_addAll, addAll_nil]
    intro u hu
    rw [mem_addAll] at hu
    simpa using (List.mem_filter.1 (hu.resolve_left (by simp))).2
  rw [Operation.union, h.unionMembers_operation he, hparameters]
  constructor
  · intro hunion
    split at hunion
    · cases hunion
    · rename_i responses hresponses
      obtain ⟨schema, hschema, rfl⟩ := map_eq_ok_iff.1 hresponses
      obtain ⟨parameters, hp, rfl⟩ := map_eq_ok_iff.1 hunion
      exact ⟨htexts _ _, htexts _ _, by rwa [addParameters_nil], ⟨schema, hschema, rfl⟩, rfl⟩
  · intro hgrow
    obtain ⟨schema, hschema, hresponses⟩ := hgrow.responses
    have hp := hgrow.parameters
    rw [addParameters_nil] at hp
    rw [hschema, hp]
    obtain ⟨consumes, produces, parameters, responses, extras⟩ := op'
    simp only [Except.map, Except.ok.injEq, Operation.mk.injEq]
    exact ⟨(htexts _ _).trans hgrow.consumes.symm, (htexts _ _).trans hgrow.produces.symm, trivial,
      hresponses.symm, hgrow.extras.symm⟩

end Operation

/-! ### Documents with one operation -/

/-- The union with a path item that has one operation. -/
theorem PathItem.union_single_eq_ok_iff {item item' : PathItem} {op : Operation} {m : Method}
    (hshared : item.parameters = none) :
    item.union (({} : PathItem).setOperation op m) = .ok item' ↔
      ∃ op', unionOption Operation.union (item.operation? m) (some op) = .ok (some op')
        ∧ item' = item.setOperation op' m := by
  have hempty : ∀ n, ({} : PathItem).operation? n = none := fun n => by cases n <;> rfl
  obtain ⟨hparameters, hextras⟩ := setOperation_shared {} op m
  rw [union_eq_ok_iff, hshared, hparameters]
  constructor
  · rintro ⟨hops, hshared', hextras'⟩
    have hm := hops m
    rw [operation?_setOperation, if_pos rfl] at hm
    cases hop : item'.operation? m with
    | none =>
        rw [hop] at hm
        exact absurd (eq_none_of_unionOption hm).2 (by simp)
    | some op' =>
        rw [hop] at hm
        refine ⟨op', hm, ext_operations (fun n => ?_) ?_ ?_⟩
        · rw [operation?_setOperation]
          split
          · rename_i hn
            rw [← hn, hop]
          · rename_i hn
            have h := hops n
            rw [operation?_setOperation, if_neg hn, hempty, unionOption_none_right,
              Except.ok.injEq] at h
            exact h.symm
        · rw [(setOperation_shared item op' m).1, hshared, hshared']
          rfl
        · rw [(setOperation_shared item op' m).2, hextras']
  · rintro ⟨op', hop', rfl⟩
    refine ⟨fun n => ?_, ?_, (setOperation_shared item op' m).2⟩
    · rw [operation?_setOperation, operation?_setOperation]
      split
      · rename_i hn
        rw [← hn, hop']
      · rw [hempty, unionOption_none_right]
    · rw [(setOperation_shared item op' m).1, hshared]
      rfl

namespace Document

/-- The document in which one operation is recorded. -/
def single (info : Info) (t : String) (m : Method) (op : Operation) : Document :=
  { info, paths := [(t, ({} : PathItem).setOperation op m)] }

/-- The union with a document that has one operation. -/
theorem union_single_eq_ok_iff {doc next : Document} {info : Info} {t : String} {m : Method}
    {op : Operation} (hv : doc.swagger = formatVersion)
    (hshared : (doc.pathItem t).parameters = none) :
    doc.union (single info t m op) = .ok next ↔
      ∃ op', unionOption Operation.union (doc.operation? t m) (some op) = .ok (some op')
        ∧ next = { doc with
            paths := doc.paths.put t ((doc.pathItem t).setOperation op' m) } := by
  have hmembers : ∀ paths, unionMembers PathItem.union doc.paths (single info t m op).paths
      = .ok paths ↔ ∃ op', unionOption Operation.union (doc.operation? t m) (some op)
          = .ok (some op') ∧ paths = doc.paths.put t ((doc.pathItem t).setOperation op' m) := by
    intro paths
    rw [single, unionMembers_cons_eq_ok_iff]
    simp only [unionMembers, Except.ok.injEq]
    by_cases ht : t ∈ doc.templates
    · rw [get?_paths_of_mem ht]
      constructor
      · rintro ⟨item, hitem, rfl⟩
        obtain ⟨item', hitem', hsome⟩ := unionOption_some_iff.1 hitem
        cases hsome
        obtain ⟨op', hop', rfl⟩ := (PathItem.union_single_eq_ok_iff hshared).1 hitem'
        exact ⟨op', hop', rfl⟩
      · rintro ⟨op', hop', rfl⟩
        have hitem := (PathItem.union_single_eq_ok_iff hshared).2 ⟨op', hop', rfl⟩
        exact ⟨_, unionOption_some_iff.2 ⟨_, hitem, rfl⟩, rfl⟩
    · rw [operation?_of_not_mem ht, Members.get?_eq_none_iff.2 ht, pathItem_of_not_mem ht]
      simp [eq_comm]
  rw [union_eq_ok_iff, hmembers]
  constructor
  · rintro ⟨-, -, ⟨op', hop', hpaths⟩, hnext⟩
    exact ⟨op', hop', by rw [hnext, hpaths]⟩
  · rintro ⟨op', hop', rfl⟩
    exact ⟨hv, rfl, ⟨op', hop', rfl⟩, rfl⟩

/-- In an empty document an exchange leaves the operation that it leaves by itself. -/
theorem record_empty_eq_ok_iff {info : Info} {x : Exchange} {c : Cell} {doc : Document} :
    ({ info } : Document).record x = .ok (c, doc) ↔
      ∃ path e, pathOf x.request.url = .ok path ∧ x.request.method? = some c.method
        ∧ x.evidence = .ok e ∧ c.template = (Template.generalize path).1
        ∧ c.status = e.statusText
        ∧ doc = single info c.template c.method (e.operation (Template.newParameters path)) := by
  have hnil : ∀ path, Template.resolvePath path ({ info } : Document).templates
      = ⟨(Template.generalize path).1, Template.newParameters path⟩ := fun path => rfl
  have hstart : ∀ t m, (({ info } : Document).pathItem t).startOperation m = {} := by
    intro t m
    rw [pathItem_of_not_mem (by simp [templates, Members.keys]), PathItem.startOperation_empty]
  rw [record_eq_ok_iff]
  constructor
  · rintro ⟨-, new, e, op, hm, hr, he, hst, hgrow, rfl⟩
    obtain ⟨path, hpath, hr⟩ := Template.resolve_eq_ok_iff.1 hr
    rw [hnil, Template.Resolution.mk.injEq] at hr
    obtain ⟨ht, rfl⟩ := hr
    rw [hstart, Operation.grows_empty_iff, Operation.grows_parameters_iff] at hgrow
    subst hgrow
    exact ⟨path, e, hpath, hm, he, ht.symm, hst, rfl⟩
  · rintro ⟨path, e, hpath, hm, he, ht, hst, rfl⟩
    refine ⟨rfl, Template.newParameters path, e, _, hm, ?_, he, hst, ?_, rfl⟩
    · exact Template.resolve_eq_ok_iff.2 ⟨path, hpath, by rw [hnil, ht]⟩
    · rw [hstart, Operation.grows_empty_iff, Operation.grows_parameters_iff]

/-! ### Runs -/

/-- Every entry of a log has the template that is made of its own path, and the path has no
placeholders of its own. -/
def OwnTemplates (log : List Entry) : Prop :=
  ∀ l ∈ log, ∃ path, pathOf l.exchange.request.url = .ok path
    ∧ ¬Template.HasPlaceholder path.toList ∧ l.cell.template = (Template.generalize path).1

/-- The parameters that were made for a template are those that a path makes for it again. -/
theorem OwnTemplates.newAt_eq {log : List Entry} (h : OwnTemplates log) {path : String}
    (hpath : ¬Template.HasPlaceholder path.toList)
    (hmem : (Template.generalize path).1 ∈ log.map fun l => l.cell.template) :
    newAt log (Template.generalize path).1 = Template.newParameters path := by
  rw [newAt]
  cases hl : log.find? (·.cell.template = (Template.generalize path).1) with
  | none =>
      obtain ⟨l, hl', ht⟩ := List.mem_map.1 hmem
      exact absurd (decide_eq_true ht) (List.find?_eq_none.1 hl l hl')
  | some l =>
      obtain ⟨path', hpath', hplain, ht⟩ := h l (List.mem_of_find?_eq_some hl)
      have hsame : l.cell.template = (Template.generalize path).1 := by
        simpa using List.find?_some hl
      have hresolve : Template.resolve l.exchange.request.url []
          = .ok ⟨(Template.generalize path').1, Template.newParameters path'⟩ :=
        Template.resolve_eq_ok_iff.2 ⟨path', hpath', rfl⟩
      simp only [newParametersOf, hresolve]
      exact Template.newParameters_eq_of_template hplain hpath (ht.symm.trans hsame)

section

variable {log : List Entry} {doc next last : Document} {info : Info} {x : Exchange}

/-- What an operation grows by is what its union with the single operation adds. -/
theorem Reflects.grows_iff_union (h : doc.Reflects log) (hlog : OwnTemplates log) {path : String}
    (hplain : ¬Template.HasPlaceholder path.toList) {new : List ValueParameter}
    (hnew : Template.resolvePath path doc.templates = ⟨(Template.generalize path).1, new⟩)
    {e : Evidence} (he : e.reply ≠ none) (m : Method) (op : Operation) :
    ((doc.pathItem (Template.generalize path).1).startOperation m).Grows new e op ↔
      unionOption Operation.union (doc.operation? (Template.generalize path).1 m)
        (some (e.operation (Template.newParameters path))) = .ok (some op) := by
  rcases Template.resolvePath_cases path doc.templates with ⟨t, hfind, ht⟩ | ⟨-, hmem, ht⟩
  · -- a known template: its operations have the parameters that the path would make
    rw [hnew, Template.Resolution.mk.injEq] at ht
    obtain ⟨rfl, rfl⟩ := ht
    have hmem := List.mem_of_find?_eq_some hfind
    have hparameters := hlog.newAt_eq hplain (h.mem_templates_iff.1 hmem)
    cases hop : doc.operation? (Template.generalize path).1 m with
    | none =>
        have hnone : (doc.pathItem (Template.generalize path).1).operation? m = none := hop
        rw [PathItem.startOperation, hnone, Option.getD_none, h.siblingParameters hmem,
          hparameters, Operation.grows_parameters_iff, unionOption_none_left, Except.ok.injEq,
          Option.some.injEq, eq_comm]
    | some op₀ =>
        have hreflects := (h.operation hop).2
        rw [hparameters] at hreflects
        rw [startOperation_of_operation? hop, unionOption_some_iff,
          ← hreflects.union_eq_ok_iff (hparameters ▸ (nodup_newAt log _).2) he]
        simp
  · -- a new template: there is nothing before
    rw [hnew, Template.Resolution.mk.injEq] at ht
    rw [ht.2, operation?_of_not_mem hmem, pathItem_of_not_mem hmem, PathItem.startOperation_empty,
      Operation.grows_empty_iff, Operation.grows_parameters_iff, unionOption_none_left,
      Except.ok.injEq, Option.some.injEq, eq_comm]

/-- **A step of a run is the union with the document of the exchange alone.** -/
theorem Reflects.record_iff_union (h : doc.Reflects log) (hlog : OwnTemplates log)
    (hfull : ¬x.reply.IsEmpty)
    (hplain : ∀ path, pathOf x.request.url = .ok path → ¬Template.HasPlaceholder path.toList)
    (hown : ∀ path, pathOf x.request.url = .ok path →
      (Template.resolvePath path doc.templates).template = (Template.generalize path).1) :
    (∃ c, doc.record x = .ok (c, next)) ↔
      ∃ c alone, ({ info } : Document).record x = .ok (c, alone) ∧ doc.union alone = .ok next := by
  constructor
  · rintro ⟨c, hc⟩
    obtain ⟨-, new, e, op, hm, hr, he, hst, hgrow, rfl⟩ := record_eq_ok_iff.1 hc
    obtain ⟨path, hpath, hr⟩ := Template.resolve_eq_ok_iff.1 hr
    obtain ⟨t, m, s⟩ := c
    obtain rfl : (Template.generalize path).1 = t := by rw [← hown path hpath, hr]
    refine ⟨_, _, record_empty_eq_ok_iff.2 ⟨path, e, hpath, hm, he, rfl, hst, rfl⟩, ?_⟩
    have hreply : e.reply ≠ none := mt (Exchange.evidence_reply_eq_none_iff he).1 hfull
    rw [union_single_eq_ok_iff h.version (h.shared _).1]
    exact ⟨op, (h.grows_iff_union hlog (hplain path hpath) hr hreply _ op).1 hgrow, rfl⟩
  · rintro ⟨c, alone, hc, hunion⟩
    obtain ⟨path, e, hpath, hm, he, ht, hst, rfl⟩ := record_empty_eq_ok_iff.1 hc
    obtain ⟨t, m, s⟩ := c
    obtain rfl : t = (Template.generalize path).1 := ht
    have hreply : e.reply ≠ none := mt (Exchange.evidence_reply_eq_none_iff he).1 hfull
    rw [union_single_eq_ok_iff h.version (h.shared _).1] at hunion
    obtain ⟨op, hop, rfl⟩ := hunion
    obtain ⟨new, hr⟩ : ∃ new, Template.resolvePath path doc.templates
        = ⟨(Template.generalize path).1, new⟩ := ⟨_, by rw [← hown path hpath]⟩
    have hgrow := (h.grows_iff_union hlog (hplain path hpath) hr hreply m op).2 hop
    exact ⟨_, record_eq_ok_iff.2 ⟨h.version, new, e, op, hm,
      Template.resolve_eq_ok_iff.2 ⟨path, hpath, hr⟩, he, hst, hgrow, rfl⟩⟩

end

/-- Exchanges, recorded each by itself in a document. -/
def recordEach (doc : Document) (xs : List Exchange) : Except RecordError (List Document) :=
  xs.mapM fun x => (doc.record x).map Prod.snd

/-- The union of a document with others, one after the other. -/
def unionAll (doc : Document) (docs : List Document) : Except RecordError Document :=
  docs.foldlM Document.union doc

/-- Every exchange of a strict run goes, when its turn comes, to the template that is made of its
own path. -/
def ResolvesOwn (doc : Document) (xs : List Exchange) : Prop :=
  ∀ before x after mid path, xs = before ++ x :: after →
    (doc.recordAll false before).outcome = .ok mid → pathOf x.request.url = .ok path →
    (Template.resolvePath path mid.templates).template = (Template.generalize path).1

theorem recordEach_cons_eq_ok_iff {doc : Document} {x : Exchange} {xs : List Exchange}
    {docs : List Document} :
    doc.recordEach (x :: xs) = .ok docs ↔
      ∃ c alone rest, doc.record x = .ok (c, alone) ∧ doc.recordEach xs = .ok rest
        ∧ docs = alone :: rest := by
  simp only [recordEach, mapM_eq_ok_iff, List.forall₂_cons_left_iff, map_eq_ok_iff]
  constructor
  · rintro ⟨alone, rest, ⟨⟨c, alone'⟩, hx, rfl⟩, hxs, rfl⟩
    exact ⟨c, alone', rest, hx, hxs, rfl⟩
  · rintro ⟨c, alone, rest, hx, hxs, rfl⟩
    exact ⟨alone, rest, ⟨(c, alone), hx, rfl⟩, hxs, rfl⟩

theorem unionAll_cons_eq_ok_iff {doc single last : Document} {docs : List Document} :
    doc.unionAll (single :: docs) = .ok last ↔
      ∃ next, doc.union single = .ok next ∧ next.unionAll docs = .ok last := by
  rw [unionAll, List.foldlM_cons]
  cases doc.union single with
  | error e => simp [bind, Except.bind]
  | ok next => simp [bind, Except.bind, unionAll]

theorem ResolvesOwn.cons {doc next : Document} {x : Exchange} {xs : List Exchange} {c : Cell}
    (h : doc.ResolvesOwn (x :: xs)) (step : doc.record x = .ok (c, next)) :
    next.ResolvesOwn xs := by
  intro before y after mid path hxs hmid
  refine h (x :: before) y after mid path (by rw [hxs, List.cons_append]) ?_
  rw [outcome_recordAll_cons, step]
  exact hmid

/-- An exchange that goes to the template of its own path joins the log. -/
theorem OwnTemplates.concat {log : List Entry} {doc next : Document} {x : Exchange} {c : Cell}
    (h : OwnTemplates log) (step : doc.record x = .ok (c, next)) (e : Evidence)
    (hplain : ∀ path, pathOf x.request.url = .ok path → ¬Template.HasPlaceholder path.toList)
    (hown : ∀ path, pathOf x.request.url = .ok path →
      (Template.resolvePath path doc.templates).template = (Template.generalize path).1) :
    OwnTemplates (log ++ [⟨x, c, e⟩]) := by
  obtain ⟨new, _, op, hr, -⟩ := operation?_of_record step
  obtain ⟨path, hpath, hr⟩ := Template.resolve_eq_ok_iff.1 hr
  intro l hl
  rcases List.mem_append.1 hl with hl | hl
  · exact h l hl
  · rw [List.mem_singleton.1 hl]
    exact ⟨path, hpath, hplain path hpath, by rw [← hown path hpath, hr]⟩

/-- A run ends where the unions with the documents of its exchanges end. -/
theorem Reflects.recordAll_iff_unionAll {log : List Entry} {doc last : Document} {info : Info}
    {xs : List Exchange} (h : doc.Reflects log) (hlog : OwnTemplates log)
    (hfull : ∀ x ∈ xs, ¬x.reply.IsEmpty)
    (hplain : ∀ x ∈ xs, ∀ path, pathOf x.request.url = .ok path →
      ¬Template.HasPlaceholder path.toList)
    (hown : doc.ResolvesOwn xs) :
    (doc.recordAll false xs).outcome = .ok last ↔
      ∃ docs, ({ info } : Document).recordEach xs = .ok docs ∧ doc.unionAll docs = .ok last := by
  induction xs generalizing doc log with
  | nil =>
      constructor
      · intro hlast
        exact ⟨[], rfl, hlast⟩
      · rintro ⟨docs, hdocs, hlast⟩
        cases hdocs
        exact hlast
  | cons x xs ih =>
      have hplain₀ := hplain x List.mem_cons_self
      have hown₀ := fun path => hown [] x xs doc path rfl rfl
      have hstep : ∀ next, (∃ c, doc.record x = .ok (c, next)) ↔ ∃ c alone,
          ({ info } : Document).record x = .ok (c, alone) ∧ doc.union alone = .ok next :=
        fun next => h.record_iff_union hlog (hfull x List.mem_cons_self) hplain₀ hown₀
      have hrest : ∀ c next, doc.record x = .ok (c, next) →
          ((next.recordAll false xs).outcome = .ok last ↔ ∃ docs,
            ({ info } : Document).recordEach xs = .ok docs ∧ next.unionAll docs = .ok last) := by
        intro c next hx
        obtain ⟨-, e, -, -, he, -⟩ := operation?_of_record hx
        exact ih (h.record hx he) (hlog.concat hx e hplain₀ hown₀)
          (fun y hy => hfull y (List.mem_cons_of_mem x hy))
          (fun y hy => hplain y (List.mem_cons_of_mem x hy)) (hown.cons hx)
      constructor
      · intro hlast
        rw [outcome_recordAll_cons] at hlast
        cases hx : doc.record x with
        | error e =>
            rw [hx] at hlast
            cases hlast
        | ok r =>
            rw [hx] at hlast
            obtain ⟨c', alone, halone, hunion⟩ := (hstep r.2).1 ⟨r.1, hx⟩
            obtain ⟨docs, hdocs, hall⟩ := (hrest r.1 r.2 hx).1 hlast
            exact ⟨alone :: docs, recordEach_cons_eq_ok_iff.2 ⟨c', alone, docs, halone, hdocs, rfl⟩,
              unionAll_cons_eq_ok_iff.2 ⟨r.2, hunion, hall⟩⟩
      · rintro ⟨docs, hdocs, hall⟩
        obtain ⟨c', alone, rest, halone, hrest', rfl⟩ := recordEach_cons_eq_ok_iff.1 hdocs
        obtain ⟨next, hunion, hall⟩ := unionAll_cons_eq_ok_iff.1 hall
        obtain ⟨c, hx⟩ := (hstep next).2 ⟨c', alone, halone, hunion⟩
        rw [outcome_recordAll_cons, hx]
        exact (hrest c next hx).2 ⟨rest, hrest', hall⟩

/-- **A run from the empty document is the union of its exchanges**: either both fail, or the
documents are equal. -/
theorem recordAll_eq_unionAll {info : Info} {xs : List Exchange}
    (hfull : ∀ x ∈ xs, ¬x.reply.IsEmpty)
    (hplain : ∀ x ∈ xs, ∀ path, pathOf x.request.url = .ok path →
      ¬Template.HasPlaceholder path.toList)
    (hown : ({ info } : Document).ResolvesOwn xs) :
    (({ info } : Document).recordAll false xs).outcome.toOption
      = ((({ info } : Document).recordEach xs).bind
          ({ info } : Document).unionAll).toOption := by
  have hoption : ∀ {ε : Type} (r : Except ε Document) (last : Document),
      r.toOption = some last ↔ r = .ok last := by
    intro ε r last
    cases r <;> simp [Except.toOption]
  refine Option.ext fun last => ?_
  have hrun : (({ info } : Document).recordAll false xs).outcome = .ok last ↔
      ∃ docs, ({ info } : Document).recordEach xs = .ok docs
        ∧ ({ info } : Document).unionAll docs = .ok last :=
    (reflects_empty info).recordAll_iff_unionAll (List.forall_mem_nil _) hfull hplain hown
  rw [hoption, hoption, hrun]
  cases ({ info } : Document).recordEach xs with
  | error e => simp [Except.bind]
  | ok docs => simp [Except.bind]

/-- Exchanges about two users, of which the second starts an operation beside the first, and the
third shows more of the first. -/
def siblingExchanges : List Exchange :=
  [⟨{ method := "GET", url := "/users/00000000-0000-4000-8000-000000000000" },
      { status := 200, body := .object [("k", .atom (.int 1))] }⟩,
    ⟨{ method := "POST", url := "/users/11111111-1111-4111-8111-111111111111", body := .text "b" },
      { status := 201, body := .text "c" }⟩,
    ⟨{ method := "get", url := "/users/11111111-1111-4111-8111-111111111111" },
      { status := 200, body := .object [("k", .atom (.int 2)), ("j", .text "d")] }⟩]

/-- The run over the exchanges about two users is the union of its exchanges. -/
theorem recordAll_eq_unionAll_siblings : ∃ last,
    (({ info := {} } : Document).recordAll false siblingExchanges).outcome = .ok last ∧
    ((({ info := {} } : Document).recordEach siblingExchanges).bind
      ({ info := {} } : Document).unionAll).toOption = some last := by
  have hfull : ∀ x ∈ siblingExchanges, ¬x.reply.IsEmpty := by
    intro x hx
    simp only [siblingExchanges, List.mem_cons, List.not_mem_nil, or_false] at hx
    rcases hx with rfl | rfl | rfl <;>
    · rintro ⟨v, hv, hnull⟩
      cases hv
      cases hnull
  have hplain : ∀ x ∈ siblingExchanges, ∀ path, pathOf x.request.url = .ok path →
      ¬Template.HasPlaceholder path.toList := by
    have hbrace : ∀ x ∈ siblingExchanges,
        (pathOf x.request.url).toOption.all (fun path => '{' ∉ path.toList) = true := by
      decide +kernel
    rintro x hx path hpath ⟨before, name, after, hcs, -⟩
    have hnone := hbrace x hx
    rw [hpath] at hnone
    have hmem : '{' ∈ path.toList := by simp [hcs]
    simp [Except.toOption, hmem] at hnone
  have htemplates : ∀ n ∈ [1, 2, 3], (({ info := {} } : Document).recordAll false
      (siblingExchanges.take n)).outcome.toOption.map templates = some ["/users/{uuid}"] := by
    decide +kernel
  have hown : ({ info := {} } : Document).ResolvesOwn siblingExchanges := by
    have hknown : ∀ n ∈ [1, 2, 3], ∀ mid, (({ info := {} } : Document).recordAll false
        (siblingExchanges.take n)).outcome = .ok mid → mid.templates = ["/users/{uuid}"] := by
      intro n hn mid hmid
      have h := htemplates n hn
      rw [hmid] at h
      exact Option.some.inj h
    have hresolve : (Template.resolvePath "/users/11111111-1111-4111-8111-111111111111"
        ["/users/{uuid}"]).template
          = (Template.generalize "/users/11111111-1111-4111-8111-111111111111").1 := by
      decide +kernel
    have hsecond : pathOf "/users/11111111-1111-4111-8111-111111111111"
        = .ok "/users/11111111-1111-4111-8111-111111111111" := by rfl
    intro before x after mid path hxs hmid hpath
    rcases before with _ | ⟨y, _ | ⟨z, _ | ⟨u, before⟩⟩⟩
    · cases hmid
      rfl
    · simp only [siblingExchanges, List.cons_append, List.nil_append, List.cons.injEq] at hxs
      obtain ⟨rfl, rfl, -⟩ := hxs
      rw [hsecond, Except.ok.injEq] at hpath
      rw [hknown 1 (by decide) mid hmid, ← hpath, hresolve]
    · simp only [siblingExchanges, List.cons_append, List.nil_append, List.cons.injEq] at hxs
      obtain ⟨rfl, rfl, rfl, -⟩ := hxs
      rw [hsecond, Except.ok.injEq] at hpath
      rw [hknown 2 (by decide) mid hmid, ← hpath, hresolve]
    · have hlen := congrArg List.length hxs
      simp [siblingExchanges] at hlen
  have hunion := recordAll_eq_unionAll hfull hplain hown
  obtain ⟨last, hlast, -⟩ := exists_ok_of_toOption (htemplates 3 (by decide))
  have hall : (({ info := {} } : Document).recordAll false siblingExchanges).outcome = .ok last :=
    hlast
  rw [hall] at hunion
  exact ⟨last, hall, hunion.symm⟩

end Document

end ApiScribe
