/-
**What a document is after a run.**

A document that starts empty is at any time what its log says.  The templates are those of the log
in order of first appearance; under a template there is an operation for each method of the log; and
an operation holds what its own entries show, with the parameters that were made for its template
when the template was new.  Operations that came later have taken these over from the ones before.

Main definitions:

* `ApiScribe.lastReplies` — the schemas of the replies under a status code since the last empty one;
* `ApiScribe.Operation.Reflects` — an operation holds what a list of evidence shows;
* `ApiScribe.entriesAt`, `ApiScribe.newAt` — the part of a log that goes to one operation, and the
  parameters that were made for a template;
* `ApiScribe.Document.Reflects` — a document holds what a log says.

Main results:

* `ApiScribe.Operation.Reflects.grows` — one exchange more;
* `ApiScribe.PathItem.siblingParameters_eq` — what a new operation takes over;
* `ApiScribe.Document.reflects_of_records` — a run from the empty document leaves what its log says.
-/

import ApiScribe.Proofs.Recording.Absorption
import Mathlib.Data.List.DropRight
import Mathlib.Data.List.ReduceOption

set_option autoImplicit false

namespace ApiScribe

/-! ### Operations -/

/-- The schemas of the replies under a status code since the last empty one. -/
def lastReplies (status : String) (es : List Evidence) : List Schema :=
  (((es.filter (·.statusText = status)).map Evidence.reply).rtakeWhile Option.isSome).reduceOption

theorem lastReplies_concat_of_ne {status : String} {es : List Evidence} {e : Evidence}
    (h : e.statusText ≠ status) : lastReplies status (es ++ [e]) = lastReplies status es := by
  rw [lastReplies, List.filter_append]
  simp [lastReplies, h]

theorem lastReplies_concat_none {status : String} {es : List Evidence} {e : Evidence}
    (h : e.statusText = status) (hr : e.reply = none) : lastReplies status (es ++ [e]) = [] := by
  rw [lastReplies, List.filter_append]
  simp [h, hr]

theorem lastReplies_concat_some {status : String} {es : List Evidence} {e : Evidence} {s : Schema}
    (h : e.statusText = status) (hr : e.reply = some s) :
    lastReplies status (es ++ [e]) = lastReplies status es ++ [s] := by
  rw [lastReplies, List.filter_append]
  simp [lastReplies, h, hr, List.reduceOption_append]

theorem lastReplies_eq_nil {s : String} {es : List Evidence}
    (h : s ∉ es.map Evidence.statusText) : lastReplies s es = [] := by
  have hfilter : es.filter (·.statusText = s) = [] := by
    refine List.filter_eq_nil_iff.2 fun e he => ?_
    have hne : e.statusText ≠ s := fun heq => h (List.mem_map.2 ⟨e, he, heq⟩)
    simpa using hne
  rw [lastReplies, hfilter]
  rfl

/-- The parameter for a body, if there is one. -/
def bodyParameters (body : Option Schema) : List Parameter :=
  (body.map fun schema => .body { schema }).toList

/-- Joining a body into parameters that end with one. -/
theorem joinParameters_eq_ok_iff {vs : List ValueParameter} {body shape : Option Schema}
    {ps : List Parameter} :
    joinParameters shape (vs.map .value ++ bodyParameters body) = .ok ps ↔
      ∃ body', joinAll body shape.toList = .ok body'
        ∧ ps = vs.map .value ++ bodyParameters body' := by
  cases shape with
  | none => simp [joinParameters, joinAll, @eq_comm _ _ ps]
  | some s =>
      rw [joinParameters]
      induction vs generalizing ps with
      | nil =>
          cases body with
          | none => simp [bodyParameters, joinBody, joinAll, joinOption, @eq_comm _ _ ps]
          | some b =>
              cases hj : Schema.join b s with
              | error err => simp [bodyParameters, joinBody, joinAll, joinOption, hj, Except.map]
              | ok r =>
                  simp [bodyParameters, joinBody, joinAll, joinOption, hj, Except.map,
                    @eq_comm _ _ ps]
      | cons v vs ih =>
          rw [List.map_cons, List.cons_append, joinBody, map_eq_ok_iff]
          constructor
          · rintro ⟨qs, hqs, rfl⟩
            obtain ⟨body', hbody, rfl⟩ := ih.1 hqs
            exact ⟨body', hbody, rfl⟩
          · rintro ⟨body', hbody, rfl⟩
            exact ⟨_, ih.2 ⟨body', hbody, rfl⟩, rfl⟩

/-- An operation holds what a list of evidence shows, after the parameters of its template. -/
structure Operation.Reflects (new : List ValueParameter) (es : List Evidence) (op : Operation) :
    Prop where
  /-- The content types of requests in order of first appearance. -/
  consumes : op.consumes = addAll [] (es.flatMap fun e => shownTypes e.requestType)
  /-- The content types of replies in order of first appearance. -/
  produces : op.produces = addAll [] (es.flatMap fun e => shownTypes e.replyType)
  /-- The parameters of the template, and the body if there was one. -/
  parameters : ∃ body, joinAll none (es.filterMap Evidence.request) = .ok body
    ∧ op.parameters = new.map .value ++ bodyParameters body
  /-- The status codes in order of first appearance. -/
  statuses : op.responses.keys = addAll [] (es.map Evidence.statusText)
  /-- What stands under a status code. -/
  responses : ∀ s r, op.responses.get? s = some r → r.extras = []
    ∧ (∃ e ∈ es, e.statusText = s ∧ r.description = statusPhrase e.status)
    ∧ joinAll none (lastReplies s es) = .ok r.schema
  /-- There are no free members. -/
  extras : op.extras = []

namespace Operation

theorem reflects_nil (new : List ValueParameter) :
    ({ parameters := new.map .value } : Operation).Reflects new [] where
  consumes := rfl
  produces := rfl
  parameters := ⟨none, rfl, by simp [bodyParameters]⟩
  statuses := rfl
  responses := by
    intro s r h
    cases h
  extras := rfl

/-- In an empty operation new parameters could as well stand before. -/
theorem grows_empty_iff {new : List ValueParameter} {e : Evidence} {op : Operation} :
    ({} : Operation).Grows new e op
      ↔ ({ parameters := new.map .value } : Operation).Grows [] e op := by
  have hp : addParameters [] new = addParameters (new.map .value) [] := by
    simp [addParameters, valueNames]
  constructor
  · intro h
    exact ⟨h.consumes, h.produces, hp ▸ h.parameters, h.responses, h.extras⟩
  · intro h
    exact ⟨h.consumes, h.produces, hp ▸ h.parameters, h.responses, h.extras⟩

theorem Reflects.nodup_statuses {new : List ValueParameter} {es : List Evidence} {op : Operation}
    (h : op.Reflects new es) : op.responses.keys.Nodup := by
  rw [h.statuses]
  exact nodup_addAll List.nodup_nil _

/-- The schema under a status code is what the replies since the last empty one add up to, also if
there was none. -/
theorem Reflects.joinAll_replies {new : List ValueParameter} {es : List Evidence} {op : Operation}
    (h : op.Reflects new es) (s : String) :
    joinAll none (lastReplies s es) = .ok ((op.responses.get? s).bind Response.schema) := by
  cases hr : op.responses.get? s with
  | some r => exact (h.responses s r hr).2.2
  | none =>
      have hs : s ∉ es.map Evidence.statusText := by
        intro hmem
        refine Members.get?_eq_none_iff.1 hr ?_
        rw [h.statuses]
        exact mem_addAll.2 (Or.inr hmem)
      rw [lastReplies_eq_nil hs]
      rfl

/-- **An operation that takes over one exchange more holds what it shows in addition.** -/
theorem Reflects.grows {new : List ValueParameter} {es : List Evidence} {op op' : Operation}
    {e : Evidence} (h : op.Reflects new es) (hg : op.Grows [] e op') :
    op'.Reflects new (es ++ [e]) := by
  obtain ⟨body, hbody, hparams⟩ := h.parameters
  have hp := hg.parameters
  rw [addParameters_nil, hparams] at hp
  obtain ⟨body', hbody', hparams'⟩ := joinParameters_eq_ok_iff.1 hp
  obtain ⟨schema, hschema, hresponses⟩ := hg.responses
  refine ⟨?_, ?_, ⟨body', ?_, hparams'⟩, ?_, ?_, ?_⟩
  · rw [hg.consumes, h.consumes, appendNew_eq_addAll, List.flatMap_append, addAll_append]
    simp
  · rw [hg.produces, h.produces, appendNew_eq_addAll, List.flatMap_append, addAll_append]
    simp
  · have hone : [e].filterMap Evidence.request = e.request.toList := by
      cases he : e.request <;> simp [he]
    rw [List.filterMap_append, hone]
    exact joinAll_append.2 ⟨body, hbody, hbody'⟩
  · rw [hresponses, Members.keys_put_eq, h.statuses, List.map_append, addAll_append]
    rfl
  · intro s r hr
    rw [hresponses, Members.get?_put] at hr
    split at hr
    · rename_i hs
      cases hr
      refine ⟨?_, ⟨e, by simp, hs, rfl⟩, ?_⟩
      · cases hb : e.before op with
        | none => rfl
        | some r => exact (h.responses _ r hb).1
      · change joinAll none (lastReplies s (es ++ [e])) = .ok schema
        -- an empty reply is the last word, and takes away what was shown before
        cases he : e.reply with
        | none =>
            rw [he] at hschema
            cases hschema
            rw [lastReplies_concat_none hs he]
            rfl
        | some t =>
            rw [he] at hschema
            obtain ⟨u, hu, rfl⟩ := joinReply_eq_ok_some_iff.1 hschema
            rw [lastReplies_concat_some hs he, ← hs]
            exact joinAll_append.2 ⟨_, h.joinAll_replies _, joinAll_cons.2 ⟨u, hu, rfl⟩⟩
    · rename_i hs
      obtain ⟨hextras, ⟨e', he', hst, hd⟩, hj⟩ := h.responses s r hr
      refine ⟨hextras, ⟨e', List.mem_append_left _ he', hst, hd⟩, ?_⟩
      rwa [lastReplies_concat_of_ne hs]
  · rw [hg.extras]
    exact h.extras

end Operation

/-! ### Parameters of a template -/

theorem mem_of_mem_firstOfEachName {ps : List ValueParameter} {p : ValueParameter}
    (h : p ∈ firstOfEachName ps) : p ∈ ps := by
  induction ps with
  | nil => cases h
  | cons q ps ih =>
      rcases List.mem_cons.1 h with rfl | h
      · exact List.mem_cons_self
      · exact List.mem_cons_of_mem q (ih (List.mem_filter.1 h).1)

/-- What comes later counts only under names that are new. -/
theorem firstOfEachName_append (ps more : List ValueParameter) :
    firstOfEachName (ps ++ more) = firstOfEachName ps
      ++ (firstOfEachName more).filter fun q => q.name ∉ ps.map ValueParameter.name := by
  induction ps with
  | nil => simp [firstOfEachName]
  | cons p ps ih =>
      rw [List.cons_append, firstOfEachName, firstOfEachName, ih, List.filter_append,
        List.filter_filter, List.cons_append]
      congr 2
      refine List.filter_congr fun q _ => ?_
      by_cases hq : q.name = p.name <;> simp [hq]

/-- Parameters that all have a namesake among those before them add nothing. -/
theorem firstOfEachName_append_of_subset {ps more : List ValueParameter}
    (h : ∀ q ∈ more, q.name ∈ ps.map ValueParameter.name) :
    firstOfEachName (ps ++ more) = firstOfEachName ps := by
  have hnil :
      (firstOfEachName more).filter (fun q => q.name ∉ ps.map ValueParameter.name) = [] := by
    refine List.filter_eq_nil_iff.2 fun q hq => ?_
    have hmem := h q (mem_of_mem_firstOfEachName hq)
    simpa using hmem
  rw [firstOfEachName_append, hnil, List.append_nil]

/-- Parameters of distinct names are the first ones of their names. -/
theorem firstOfEachName_eq_self {ps : List ValueParameter}
    (h : (ps.map ValueParameter.name).Nodup) : firstOfEachName ps = ps := by
  induction ps with
  | nil => rfl
  | cons p ps ih =>
      rw [List.map_cons, List.nodup_cons] at h
      rw [firstOfEachName, ih h.2, List.filter_eq_self.2]
      intro q hq
      have hne : q.name ≠ p.name := fun he => h.1 (List.mem_map.2 ⟨q, hq, he⟩)
      simpa using hne

/-- Among parameters of the path, and a body, the ones of the path are just these. -/
theorem filterMap_pathValue? {vs : List ValueParameter} (h : ∀ p ∈ vs, p.place = .path)
    (body : Option Schema) :
    (vs.map Parameter.value ++ bodyParameters body).filterMap Parameter.pathValue? = vs := by
  have hbody : (bodyParameters body).filterMap Parameter.pathValue? = [] := by
    cases body <;> simp [bodyParameters, Parameter.pathValue?]
  rw [List.filterMap_append, hbody, List.append_nil, List.filterMap_map]
  refine (List.filterMap_congr fun p hp => ?_).trans List.filterMap_some
  simp [Parameter.pathValue?, h p hp]

/-- **A new operation takes over the parameters of its template**, if all operations before it have
just these. -/
theorem PathItem.siblingParameters_eq {item : PathItem} {new : List ValueParameter}
    (hshared : item.parameters = none) (hnames : (new.map ValueParameter.name).Nodup)
    (hplace : ∀ p ∈ new, p.place = .path)
    (hops : ∀ m op, item.operation? m = some op →
      ∃ body, op.parameters = new.map .value ++ bodyParameters body)
    {m : Method} {op : Operation} (hm : item.operation? m = some op) :
    item.siblingParameters = new.map .value := by
  have hall : ∀ n ∈ item.operations, n.2.parameters.filterMap Parameter.pathValue? = new := by
    rintro ⟨n, op'⟩ hn
    obtain ⟨body, hbody⟩ := hops n op' (mem_operations_iff.1 hn)
    rw [hbody]
    exact filterMap_pathValue? hplace body
  -- the first operation gives all of them, and the others repeat them
  have hmem : (m, op) ∈ item.operations := mem_operations_iff.2 hm
  rw [siblingParameters, sharedNames, hshared]
  cases hl : item.operations with
  | nil =>
      rw [hl] at hmem
      cases hmem
  | cons n ns =>
      rw [hl] at hall
      have hfirst := hall n List.mem_cons_self
      have hrest : ∀ q ∈ ns.flatMap fun k => k.2.parameters.filterMap Parameter.pathValue?,
          q ∈ new := by
        intro q hq
        obtain ⟨k, hk, hqk⟩ := List.mem_flatMap.1 hq
        rwa [hall k (List.mem_cons_of_mem n hk)] at hqk
      simp only [List.flatMap_cons, hfirst, Option.getD_none, List.map_nil, List.contains_nil,
        Bool.not_false, List.filter_true]
      rw [firstOfEachName_append_of_subset fun q hq => List.mem_map_of_mem (hrest q hq),
        firstOfEachName_eq_self hnames]

/-! ### Documents -/

/-- A new operation under a new template is empty. -/
theorem PathItem.startOperation_empty (m : Method) :
    ({} : PathItem).startOperation m = {} := by
  cases m <;> rfl

/-- What is shown by the entries of a log that go to one operation. -/
def entriesAt (log : List Entry) (t : String) (m : Method) : List Evidence :=
  (log.filter fun l => l.cell.template = t ∧ l.cell.method = m).map Entry.evidence

/-- The parameters that are made for the template of a URL if it is new. -/
def newParametersOf (url : String) : List ValueParameter :=
  match Template.resolve url [] with
  | .ok r => r.parameters
  | .error _ => []

/-- The parameters that were made for a template when it was new. -/
def newAt (log : List Entry) (t : String) : List ValueParameter :=
  match log.find? (·.cell.template = t) with
  | some l => newParametersOf l.exchange.request.url
  | none => []

theorem entriesAt_concat (log : List Entry) (l : Entry) (t : String) (m : Method) :
    entriesAt (log ++ [l]) t m
      = entriesAt log t m
        ++ if l.cell.template = t ∧ l.cell.method = m then [l.evidence] else [] := by
  rw [entriesAt, List.filter_append, List.map_append, entriesAt]
  congr 1
  by_cases h : l.cell.template = t ∧ l.cell.method = m <;> simp [h]

theorem mem_templates_of_entriesAt {log : List Entry} {t : String} {m : Method}
    (h : entriesAt log t m ≠ []) : t ∈ log.map fun l => l.cell.template := by
  obtain ⟨e, he⟩ := List.exists_mem_of_ne_nil _ h
  obtain ⟨l, hl, -⟩ := List.mem_map.1 he
  obtain ⟨hmem, hcell⟩ := List.mem_filter.1 hl
  exact List.mem_map.2 ⟨l, hmem, (of_decide_eq_true hcell).1⟩

/-- The parameters of a template do not change once it is known. -/
theorem newAt_append {log more : List Entry} {t : String}
    (h : t ∈ log.map fun l => l.cell.template) : newAt (log ++ more) t = newAt log t := by
  obtain ⟨l, hl, rfl⟩ := List.mem_map.1 h
  have hfound : (log.find? (·.cell.template = l.cell.template)).isSome := by
    rw [List.find?_isSome]
    exact ⟨l, hl, by simp⟩
  obtain ⟨l', hl'⟩ := Option.isSome_iff_exists.1 hfound
  rw [newAt, newAt, List.find?_append, hl']
  rfl

theorem newAt_of_not_mem {log more : List Entry} {t : String}
    (h : t ∉ log.map fun l => l.cell.template) : newAt (log ++ more) t = newAt more t := by
  have hnone : log.find? (·.cell.template = t) = none := by
    refine List.find?_eq_none.2 fun l hl ht => h ?_
    exact List.mem_map.2 ⟨l, hl, of_decide_eq_true ht⟩
  rw [newAt, newAt, List.find?_append, hnone]
  rfl

/-- The parameters that are made for a template have distinct names, and nothing but these. -/
theorem exists_newParametersOf (url : String) : ∃ names : List String,
    names.Nodup ∧ newParametersOf url = names.map ValueParameter.ofPlaceholder := by
  rw [newParametersOf]
  cases h : Template.resolve url [] with
  | error err => exact ⟨[], List.nodup_nil, rfl⟩
  | ok r =>
      obtain ⟨path, -, rfl⟩ := Template.resolve_eq_ok_iff.1 h
      exact ⟨(Template.generalize path).2, Template.nodup_generalize path, rfl⟩

theorem exists_newAt (log : List Entry) (t : String) : ∃ names : List String,
    names.Nodup ∧ newAt log t = names.map ValueParameter.ofPlaceholder := by
  rw [newAt]
  split
  · exact exists_newParametersOf _
  · exact ⟨[], List.nodup_nil, rfl⟩

@[simp] theorem map_name_ofPlaceholder (names : List String) :
    (names.map ValueParameter.ofPlaceholder).map ValueParameter.name = names := by
  have hname : ValueParameter.name ∘ ValueParameter.ofPlaceholder = id := rfl
  rw [List.map_map, hname, List.map_id]

theorem nodup_newAt (log : List Entry) (t : String) :
    ((newAt log t).map ValueParameter.name).Nodup ∧ ∀ p ∈ newAt log t, p.place = .path := by
  obtain ⟨names, hnodup, hnew⟩ := exists_newAt log t
  rw [hnew, map_name_ofPlaceholder]
  refine ⟨hnodup, fun p hp => ?_⟩
  obtain ⟨name, -, rfl⟩ := List.mem_map.1 hp
  rfl

namespace Document

/-- The parameters of a template that is not known are the ones that are made for it. -/
theorem new_eq_newParametersOf {doc : Document} {url t : String} {new : List ValueParameter}
    (h : Template.resolve url doc.templates = .ok ⟨t, new⟩) (ht : t ∉ doc.templates) :
    new = newParametersOf url := by
  rw [newParametersOf, Template.resolve_nil h ht]

/-- A document holds what a log says. -/
structure Reflects (log : List Entry) (doc : Document) : Prop where
  /-- The document is of the version that is recorded. -/
  version : doc.swagger = formatVersion
  /-- The templates in order of first appearance. -/
  templates : doc.templates = addAll [] (log.map fun l => l.cell.template)
  /-- Operations share nothing. -/
  shared : ∀ t, (doc.pathItem t).parameters = none ∧ (doc.pathItem t).extras = []
  /-- There is no operation without entries. -/
  absent : ∀ t m, entriesAt log t m = [] → doc.operation? t m = none
  /-- An operation holds what its entries show. -/
  present : ∀ t m, entriesAt log t m ≠ [] →
    ∃ op, doc.operation? t m = some op ∧ op.Reflects (newAt log t) (entriesAt log t m)

/-- A document in which nothing is recorded holds what the empty log says. -/
theorem reflects_empty (info : Info) : ({ info } : Document).Reflects [] where
  version := rfl
  templates := rfl
  shared := fun _ => ⟨rfl, rfl⟩
  absent := fun t m _ => operation?_of_not_mem (by simp [Document.templates, Members.keys]) m
  present := fun t m h => absurd rfl h

/-- An operation that is there has entries. -/
theorem Reflects.operation {log : List Entry} {doc : Document} (h : doc.Reflects log) {t : String}
    {m : Method} {op : Operation} (hop : doc.operation? t m = some op) :
    entriesAt log t m ≠ [] ∧ op.Reflects (newAt log t) (entriesAt log t m) := by
  by_cases hnil : entriesAt log t m = []
  · rw [h.absent t m hnil] at hop
    cases hop
  · obtain ⟨op', hop', hreflects⟩ := h.present t m hnil
    rw [hop, Option.some.injEq] at hop'
    exact ⟨hnil, hop' ▸ hreflects⟩

/-- An operation that is not there has no entries. -/
theorem Reflects.entriesAt_eq_nil {log : List Entry} {doc : Document} (h : doc.Reflects log)
    {t : String} {m : Method} (hop : doc.operation? t m = none) : entriesAt log t m = [] := by
  by_contra hne
  obtain ⟨op, hop', -⟩ := h.present t m hne
  rw [hop] at hop'
  cases hop'

theorem Reflects.mem_templates_iff {log : List Entry} {doc : Document} (h : doc.Reflects log)
    {t : String} : t ∈ doc.templates ↔ t ∈ log.map fun l => l.cell.template := by
  rw [h.templates, mem_addAll]
  exact or_iff_right (by simp)

theorem Reflects.nodup_templates {log : List Entry} {doc : Document} (h : doc.Reflects log) :
    doc.templates.Nodup := by
  rw [h.templates]
  exact nodup_addAll List.nodup_nil _

/-- A known template has entries for some method. -/
theorem Reflects.exists_operation {log : List Entry} {doc : Document} (h : doc.Reflects log)
    {t : String} (ht : t ∈ doc.templates) : ∃ m op, doc.operation? t m = some op := by
  obtain ⟨l, hl, rfl⟩ := List.mem_map.1 (h.mem_templates_iff.1 ht)
  have hmem : entriesAt log l.cell.template l.cell.method ≠ [] := by
    intro hempty
    have hin : l.evidence ∈ entriesAt log l.cell.template l.cell.method :=
      List.mem_map_of_mem (List.mem_filter.2 ⟨hl, by simp⟩)
    rw [hempty] at hin
    cases hin
  obtain ⟨op, hop, -⟩ := h.present _ _ hmem
  exact ⟨l.cell.method, op, hop⟩

/-- What a new operation takes over are the parameters of its template. -/
theorem Reflects.siblingParameters {log : List Entry} {doc : Document} (h : doc.Reflects log)
    {t : String} (ht : t ∈ doc.templates) :
    (doc.pathItem t).siblingParameters = (newAt log t).map .value := by
  obtain ⟨m, op, hop⟩ := h.exists_operation ht
  obtain ⟨hnames, hplace⟩ := nodup_newAt log t
  refine PathItem.siblingParameters_eq (h.shared t).1 hnames hplace (fun m' op' hop' => ?_) hop
  obtain ⟨body, -, hparams⟩ := (h.operation (m := m') hop').2.parameters
  exact ⟨body, hparams⟩

/-- The operation of a cell before an exchange is recorded, with the parameters of the template,
holds what its entries show. -/
theorem Reflects.start {log : List Entry} {doc : Document} (h : doc.Reflects log) {t : String}
    (ht : t ∈ doc.templates) (m : Method) :
    ((doc.pathItem t).startOperation m).Reflects (newAt log t) (entriesAt log t m) := by
  by_cases hnil : entriesAt log t m = []
  · have hnone : (doc.pathItem t).operation? m = none := h.absent t m hnil
    rw [PathItem.startOperation, hnone, Option.getD_none, h.siblingParameters ht, hnil]
    exact Operation.reflects_nil _
  · obtain ⟨op, hop, hreflects⟩ := h.present t m hnil
    rwa [startOperation_of_operation? hop]

/-- The operation of a cell after an exchange is recorded holds what the exchange shows in
addition. -/
theorem Reflects.grown {log : List Entry} {doc next : Document} {x : Exchange} {c : Cell}
    {e : Evidence} (h : doc.Reflects log) (step : doc.record x = .ok (c, next))
    (shows : x.evidence = .ok e) : ∃ op, next.operation? c.template c.method = some op
      ∧ op.Reflects (newAt (log ++ [⟨x, c, e⟩]) c.template)
        (entriesAt log c.template c.method ++ [e]) := by
  obtain ⟨new, e', op, hr, he', -, hgrow, hop⟩ := operation?_of_record step
  rw [shows, Except.ok.injEq] at he'
  subst he'
  refine ⟨op, hop, ?_⟩
  by_cases ht : c.template ∈ doc.templates
  · -- a known template has no new parameters, and its operations start with the old ones
    obtain rfl : new = [] := Template.parameters_eq_nil hr ht
    rw [newAt_append (h.mem_templates_iff.1 ht)]
    exact (h.start ht c.method).grows hgrow
  · -- under a new template the operation is empty, and its parameters are the new ones
    have hlog : c.template ∉ log.map fun l => l.cell.template := mt h.mem_templates_iff.2 ht
    have hnil := h.entriesAt_eq_nil (operation?_of_not_mem ht c.method)
    obtain rfl := new_eq_newParametersOf hr ht
    rw [pathItem_of_not_mem ht, PathItem.startOperation_empty] at hgrow
    have hone := (Operation.reflects_nil _).grows (Operation.grows_empty_iff.1 hgrow)
    rw [newAt_of_not_mem hlog, newAt, hnil]
    simpa using hone

/-- **A step of a run adds its entry to what the document holds.** -/
theorem Reflects.record {log : List Entry} {doc next : Document} {x : Exchange} {c : Cell}
    {e : Evidence} (h : doc.Reflects log) (step : doc.record x = .ok (c, next))
    (shows : x.evidence = .ok e) : next.Reflects (log ++ [⟨x, c, e⟩]) := by
  have hne : ∀ {t m}, ¬(c.template = t ∧ c.method = m) →
      entriesAt (log ++ [⟨x, c, e⟩]) t m = entriesAt log t m := by
    intro t m hcell
    rw [entriesAt_concat, if_neg hcell, List.append_nil]
  refine ⟨?_, ?_, fun t => ?_, fun t m hnil => ?_, fun t m hnil => ?_⟩
  · rw [rest_of_record step]
    exact h.version
  · rw [templates_of_record step, h.templates, List.map_append, addAll_append]
    rfl
  · rw [(shared_of_record step t).1, (shared_of_record step t).2]
    exact h.shared t
  · have hcell : ¬(c.template = t ∧ c.method = m) := by
      intro hcell
      rw [entriesAt_concat, if_pos hcell] at hnil
      simp at hnil
    rw [operation?_of_record_ne step hcell]
    exact h.absent t m (hne hcell ▸ hnil)
  · by_cases hcell : c.template = t ∧ c.method = m
    · obtain ⟨rfl, rfl⟩ := hcell
      rw [entriesAt_concat, if_pos ⟨rfl, rfl⟩]
      exact h.grown step shows
    · rw [operation?_of_record_ne step hcell, hne hcell]
      rw [hne hcell] at hnil
      rw [newAt_append (mem_templates_of_entriesAt hnil)]
      exact h.present t m hnil

/-- **A run from the empty document leaves what its log says.** -/
theorem reflects_of_records {info : Info} {log : List Entry} {doc : Document}
    (h : Records { info } log doc) : doc.Reflects log := by
  induction h with
  | refl => exact reflects_empty info
  | snoc _ step shows ih => exact ih.record step shows

end Document

end ApiScribe
