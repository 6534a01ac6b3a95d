/-
**The cells of a document.**

A schema stands in a document in one of two places: for a method under a template, as that of the
request body, or for a status code of such a method, as that of the reply.  After a run from the
empty document it is what the entries of its cell add up to, and a run that goes on adds what it
shows.

Main definitions:

* `ApiScribe.Document.bodySchema?`, `ApiScribe.Document.replySchema?` — the schemas of a document;
* `ApiScribe.repliesUnder` — the schemas of all replies under a status code;
* `ApiScribe.Document.Agree` — two documents have the same names and schemas, up to order.

Main results:

* `ApiScribe.Document.Reflects.joinAll_body`, `ApiScribe.Document.Reflects.joinAll_reply` — a cell
  is what its entries add up to;
* `ApiScribe.Document.Reflects.append_body`, `ApiScribe.Document.Reflects.append_reply` — what a run
  that goes on adds to a cell;
* `ApiScribe.Document.agree_self`, `ApiScribe.Document.agree_of_same` — equal documents agree, and
  so do documents that are equal up to order.
-/

import ApiScribe.Document.Same
import ApiScribe.Proofs.Recording.Reference
import ApiScribe.Proofs.Schema.Rejoin

set_option autoImplicit false

namespace ApiScribe

/-! ### Evidence in parts -/

theorem entriesAt_append (log more : List Entry) (t : String) (m : Method) :
    entriesAt (log ++ more) t m = entriesAt log t m ++ entriesAt more t m := by
  rw [entriesAt, List.filter_append, List.map_append]
  rfl

theorem mem_entriesAt {log : List Entry} {t : String} {m : Method} {e : Evidence}
    (h : e ∈ entriesAt log t m) : ∃ l ∈ log, l.evidence = e := by
  obtain ⟨l, hl, rfl⟩ := List.mem_map.1 h
  exact ⟨l, (List.mem_filter.1 hl).1, rfl⟩

/-- The schemas of the replies under a status code. -/
def repliesUnder (status : String) (es : List Evidence) : List Schema :=
  (es.filter (·.statusText = status)).filterMap Evidence.reply

/-- Replies that are not empty are added to the ones before. -/
theorem lastReplies_append {status : String} {es more : List Evidence}
    (h : ∀ e ∈ more, e.reply ≠ none) :
    lastReplies status (es ++ more) = lastReplies status es ++ repliesUnder status more := by
  -- from the end of the list, since that is where replies are added
  induction more using List.reverseRecOn with
  | nil => simp [repliesUnder]
  | append_singleton more e ih =>
      have hmore : ∀ e' ∈ more, e'.reply ≠ none := fun e' he' =>
        h e' (List.mem_append_left _ he')
      rw [← List.append_assoc]
      by_cases hs : e.statusText = status
      · obtain ⟨s, hr⟩ := Option.ne_none_iff_exists'.1 (h e (by simp))
        rw [lastReplies_concat_some hs hr, ih hmore, repliesUnder, repliesUnder,
          List.filter_append, List.filterMap_append]
        simp [hs, hr]
      · rw [lastReplies_concat_of_ne hs, ih hmore, repliesUnder, repliesUnder,
          List.filter_append, List.filterMap_append]
        simp [hs]

/-- What goes on from a run is what is joined to its outcome. -/
theorem joinAll_of_append {ss more : List Schema} {mid after : Option Schema}
    (h : joinAll none ss = .ok mid) (hall : joinAll none (ss ++ more) = .ok after) :
    joinAll mid more = .ok after := by
  obtain ⟨mid', hmid, hmore⟩ := joinAll_append.1 hall
  rw [h, Except.ok.injEq] at hmid
  rwa [hmid]

namespace Document

/-- The shapes that the entries of a log show are those of samples. -/
theorem Records.inferred {doc next : Document} {log : List Entry} (h : Records doc log next)
    {l : Entry} (hl : l ∈ log) : (∀ s, l.evidence.request = some s → s.Inferred)
      ∧ ∀ s, l.evidence.reply = some s → s.Inferred :=
  Exchange.inferred_evidence (h.entry hl).1

/-- The log of a run is determined by its exchanges. -/
theorem Records.unique {doc next next' : Document} {log log' : List Entry}
    (h : Records doc log next) (h' : Records doc log' next')
    (hlog : log.map Entry.exchange = log'.map Entry.exchange) : log = log' ∧ next = next' := by
  induction log generalizing doc log' with
  | nil =>
      rw [List.map_nil, eq_comm, List.map_eq_nil_iff] at hlog
      subst hlog
      have hrun := h.recordAll
      have hrun' := h'.recordAll
      rw [hrun, Run.mk.injEq, Except.ok.injEq] at hrun'
      exact ⟨rfl, hrun'.2⟩
  | cons l log ih =>
      cases log' with
      | nil => cases hlog
      | cons l' log' =>
          rw [List.map_cons, List.map_cons, List.cons.injEq] at hlog
          obtain ⟨mid, hstep, hshows, hrest⟩ := h.head
          obtain ⟨mid', hstep', hshows', hrest'⟩ := h'.head
          rw [← hlog.1] at hstep' hshows'
          rw [hstep, Except.ok.injEq, Prod.mk.injEq] at hstep'
          rw [hshows, Except.ok.injEq] at hshows'
          rw [← hstep'.2] at hrest'
          obtain ⟨hlogs, hnext⟩ := ih hrest hrest' hlog.2
          obtain ⟨x, c, e⟩ := l
          obtain ⟨x', c', e'⟩ := l'
          simp only at hlog hstep' hshows'
          rw [hlog.1, hstep'.1, hshows', hlogs]
          exact ⟨rfl, hnext⟩

/-- Runs of the same exchanges that record them under the same templates have the same log. -/
theorem Records.eq_of_templates {doc doc' next next' : Document} {log log' : List Entry}
    (h : Records doc log next) (h' : Records doc' log' next')
    (hlog : log.map Entry.exchange = log'.map Entry.exchange)
    (ht : log.map (fun l => l.cell.template) = log'.map fun l => l.cell.template) :
    log = log' := by
  have hentry := fun l => h.entry (l := l)
  have hentry' := fun l => h'.entry (l := l)
  clear h h'
  induction log generalizing log' with
  | nil => exact (List.map_eq_nil_iff.1 hlog.symm).symm
  | cons l log ih =>
      cases log' with
      | nil => cases hlog
      | cons l' log' =>
          rw [List.map_cons, List.map_cons, List.cons.injEq] at hlog ht
          obtain ⟨he, hm, hs⟩ := hentry l List.mem_cons_self
          obtain ⟨he', hm', hs'⟩ := hentry' l' List.mem_cons_self
          have hrest := ih hlog.2 ht.2 (fun k hk => hentry k (List.mem_cons_of_mem l hk))
            fun k hk => hentry' k (List.mem_cons_of_mem l' hk)
          obtain ⟨x, ⟨t, m, s⟩, e⟩ := l
          obtain ⟨x', ⟨t', m', s'⟩, e'⟩ := l'
          simp only at hlog ht he he' hm hm' hs hs'
          rw [← hlog.1] at he' hm'
          rw [he, Except.ok.injEq] at he'
          rw [hm, Option.some.injEq] at hm'
          rw [hlog.1, ht.1, hm', hs, hs', he', hrest]

/-! ### Schemas of a document -/

/-- The schema of the request body of a method under a template. -/
def bodySchema? (doc : Document) (t : String) (m : Method) : Option Schema :=
  ((doc.operation? t m).bind Operation.body?).map BodyParameter.schema

/-- The schema of the reply under a status code. -/
def replySchema? (doc : Document) (t : String) (m : Method) (s : String) : Option Schema :=
  ((doc.operation? t m).bind fun op => op.responses.get? s).bind Response.schema

theorem bodySchema?_of_parameters {doc : Document} {t : String} {m : Method} {op : Operation}
    {new : List ValueParameter} {body : Option Schema} (hop : doc.operation? t m = some op)
    (h : op.parameters = new.map .value ++ bodyParameters body) : doc.bodySchema? t m = body := by
  rw [bodySchema?, hop, Option.bind_some, body?_eq h]
  cases body <;> rfl

theorem replySchema?_of_operation {doc : Document} {t : String} {m : Method} {op : Operation}
    (hop : doc.operation? t m = some op) (s : String) :
    doc.replySchema? t m s = (op.responses.get? s).bind Response.schema := by
  rw [replySchema?, hop]
  rfl

section

variable {doc : Document} {log : List Entry}

/-- **The schema of a request body is what the requests of its operation add up to.** -/
theorem Reflects.joinAll_body (h : doc.Reflects log) (t : String) (m : Method) :
    joinAll none ((entriesAt log t m).filterMap Evidence.request)
      = .ok (doc.bodySchema? t m) := by
  by_cases hnil : entriesAt log t m = []
  · rw [hnil, bodySchema?, h.absent t m hnil]
    rfl
  · obtain ⟨op, hop, hreflects⟩ := h.present t m hnil
    obtain ⟨body, hjoin, hparams⟩ := hreflects.parameters
    rw [hjoin, bodySchema?_of_parameters hop hparams]

/-- **The schema of a reply is what the replies of its cell add up to since the last empty one.** -/
theorem Reflects.joinAll_reply (h : doc.Reflects log) (t : String) (m : Method) (s : String) :
    joinAll none (lastReplies s (entriesAt log t m)) = .ok (doc.replySchema? t m s) := by
  by_cases hnil : entriesAt log t m = []
  · rw [hnil, replySchema?, h.absent t m hnil]
    rfl
  · obtain ⟨op, hop, hreflects⟩ := h.present t m hnil
    rw [replySchema?_of_operation hop]
    exact hreflects.joinAll_replies s

variable {next : Document} {more : List Entry}

/-- What a run that goes on adds to the schema of a request body. -/
theorem Reflects.append_body (h : doc.Reflects log) (h' : next.Reflects (log ++ more)) (t : String)
    (m : Method) :
    joinAll (doc.bodySchema? t m) ((entriesAt more t m).filterMap Evidence.request)
      = .ok (next.bodySchema? t m) := by
  have hall := h'.joinAll_body t m
  rw [entriesAt_append, List.filterMap_append] at hall
  exact joinAll_of_append (h.joinAll_body t m) hall

/-- What a run that goes on adds to the schema of a reply, if no reply is empty. -/
theorem Reflects.append_reply (h : doc.Reflects log) (h' : next.Reflects (log ++ more))
    (hfull : ∀ l ∈ more, l.evidence.reply ≠ none) (t : String) (m : Method) (s : String) :
    joinAll (doc.replySchema? t m s) (repliesUnder s (entriesAt more t m))
      = .ok (next.replySchema? t m s) := by
  have hall := h'.joinAll_reply t m s
  rw [entriesAt_append, lastReplies_append (fun e he => ?_)] at hall
  · exact joinAll_of_append (h.joinAll_reply t m s) hall
  · obtain ⟨l, hl, rfl⟩ := mem_entriesAt he
    exact hfull l hl

end

/-! ### Shapes -/

section

variable {doc next : Document} {log : List Entry}

theorem Records.inferred_requests (h : Records doc log next) (t : String) (m : Method) :
    ∀ s ∈ (entriesAt log t m).filterMap Evidence.request, s.Inferred := by
  intro s hs
  obtain ⟨e, he, hes⟩ := List.mem_filterMap.1 hs
  obtain ⟨l, hl, rfl⟩ := mem_entriesAt he
  exact (h.inferred hl).1 s hes

theorem Records.inferred_replies (h : Records doc log next) (t : String) (m : Method)
    (status : String) : ∀ s ∈ repliesUnder status (entriesAt log t m), s.Inferred := by
  intro s hs
  obtain ⟨e, he, hes⟩ := List.mem_filterMap.1 hs
  obtain ⟨l, hl, rfl⟩ := mem_entriesAt (List.mem_filter.1 he).1
  exact (h.inferred hl).2 s hes

theorem mem_repliesUnder_of_mem_lastReplies {status : String} {es : List Evidence} {s : Schema}
    (h : s ∈ lastReplies status es) : s ∈ repliesUnder status es := by
  have hsome := (List.rtakeWhile_suffix Option.isSome _).subset (List.reduceOption_mem_iff.1 h)
  obtain ⟨e, he, hes⟩ := List.mem_map.1 hsome
  exact List.mem_filterMap.2 ⟨e, he, hes⟩

/-- The schemas of a document that was recorded are plain. -/
theorem Records.plain_bodySchema? {info : Info} (h : Records { info } log doc) {t : String}
    {m : Method} {b : Schema} (hb : doc.bodySchema? t m = some b) : b.Plain := by
  have hrun := (reflects_of_records h).joinAll_body t m
  rw [hb] at hrun
  exact Schema.Plain.joinAll (fun _ hn => by cases hn) (h.inferred_requests t m) hrun

theorem Records.plain_replySchema? {info : Info} (h : Records { info } log doc) {t : String}
    {m : Method} {s : String} {b : Schema} (hb : doc.replySchema? t m s = some b) : b.Plain := by
  have hrun := (reflects_of_records h).joinAll_reply t m s
  rw [hb] at hrun
  refine Schema.Plain.joinAll (fun _ hn => by cases hn) (fun r hr => ?_) hrun
  exact h.inferred_replies t m s r (mem_repliesUnder_of_mem_lastReplies hr)

end

/-! ### Agreement -/

/-- Two documents have the same names and schemas, up to order. -/
structure Agree (a b : Document) : Prop where
  /-- The parameters of an operation have the same names. -/
  names : ∀ t m op op', a.operation? t m = some op → b.operation? t m = some op' →
    valueNames op.parameters = valueNames op'.parameters
  /-- The request bodies have schemas that are equal up to order. -/
  bodies : ∀ t m p q, a.bodySchema? t m = some p → b.bodySchema? t m = some q → Schema.Alike p q
  /-- The replies have schemas that are equal up to order. -/
  replies : ∀ t m s p q, a.replySchema? t m s = some p → b.replySchema? t m s = some q →
    Schema.Alike p q

/-- A document agrees with itself if its schemas are plain. -/
theorem agree_self {doc : Document} (hbodies : ∀ t m p, doc.bodySchema? t m = some p → p.Plain)
    (hreplies : ∀ t m s p, doc.replySchema? t m s = some p → p.Plain) : doc.Agree doc where
  names := by
    intro t m op op' hop hop'
    rw [hop, Option.some.injEq] at hop'
    rw [hop']
  bodies := by
    intro t m p q hp hq
    rw [hp, Option.some.injEq] at hq
    exact hq ▸ Schema.alike_self (hbodies t m p hp)
  replies := by
    intro t m s p q hp hq
    rw [hp, Option.some.injEq] at hq
    exact hq ▸ Schema.alike_self (hreplies t m s p hp)

theorem get?_of_sameMapping {α : Type} {same : α → α → Bool} {xs ys : Members String α}
    (h : sameMapping same xs ys = true) {k : String} {x : α} (hx : xs.get? k = some x) :
    ∃ y, ys.get? k = some y ∧ same x y = true := by
  rw [sameMapping, Bool.and_eq_true, List.all_eq_true] at h
  have hk := h.2 (k, x) (Members.mem_of_get? hx)
  cases hy : ys.get? k with
  | none => simp [hy] at hk
  | some y => exact ⟨y, rfl, by simpa [hy] using hk⟩

theorem valueNames_of_same {ps qs : List Parameter} (h : sameList Parameter.same ps qs = true) :
    valueNames ps = valueNames qs := by
  rw [sameList_iff] at h
  induction h with
  | nil => rfl
  | @cons p q ps qs hpq _ ih =>
      cases p with
      | value v =>
          cases q with
          | value w =>
              simp only [Parameter.same, Bool.and_eq_true, beq_iff_eq] at hpq
              have hname : v.name = w.name := hpq.1.1.1.1.2
              simpa [valueNames, hname] using ih
          | body b => simp [Parameter.same] at hpq
      | body b =>
          cases q with
          | value w => simp [Parameter.same] at hpq
          | body c => simpa [valueNames] using ih

theorem body?_of_same {op op' : Operation}
    (h : sameList Parameter.same op.parameters op'.parameters = true) {b c : BodyParameter}
    (hb : op.body? = some b) (hc : op'.body? = some c) : b.schema.same c.schema = true := by
  rw [Operation.body?] at hb hc
  rw [sameList_iff] at h
  generalize op.parameters = ps at h hb
  generalize op'.parameters = qs at h hc
  induction h with
  | nil => cases hb
  | @cons p q ps qs hpq _ ih =>
      cases p with
      | value v =>
          cases q with
          | value w => exact ih hb hc
          | body c => simp [Parameter.same] at hpq
      | body b' =>
          cases q with
          | value w => simp [Parameter.same] at hpq
          | body c' =>
              cases hb
              cases hc
              simp only [Parameter.same, Bool.and_eq_true] at hpq
              exact hpq.1.2

/-- Operations that are equal up to order stand at the same places of documents that are so. -/
theorem same_operation {a b : Document} (h : a.same b = true) {t : String} {m : Method}
    {op op' : Operation} (hop : a.operation? t m = some op) (hop' : b.operation? t m = some op') :
    op.same op' = true := by
  simp only [Document.same, Bool.and_eq_true] at h
  obtain ⟨item, hitem⟩ := Members.mem_keys_iff.1 (mem_templates_of_operation? hop)
  obtain ⟨item', hitem', hsame⟩ := get?_of_sameMapping h.1.2 hitem
  rw [operation?, pathItem, hitem, Option.getD_some] at hop
  rw [operation?, pathItem, hitem', Option.getD_some] at hop'
  simp only [PathItem.same, Bool.and_eq_true, List.all_eq_true] at hsame
  have hm := hsame.1.1 m (by cases m <;> decide)
  rwa [hop, hop', sameOption] at hm

/-- Documents that are equal up to order agree. -/
theorem agree_of_same {a b : Document} (h : a.same b = true) : a.Agree b where
  names := by
    intro t m op op' hop hop'
    have hsame := same_operation h hop hop'
    simp only [Operation.same, Bool.and_eq_true] at hsame
    exact valueNames_of_same hsame.1.1.2
  bodies := by
    intro t m p q hp hq
    obtain ⟨c, hc, rfl⟩ := Option.map_eq_some_iff.1 hp
    obtain ⟨op, hop, hbody⟩ := Option.bind_eq_some_iff.1 hc
    obtain ⟨c', hc', rfl⟩ := Option.map_eq_some_iff.1 hq
    obtain ⟨op', hop', hbody'⟩ := Option.bind_eq_some_iff.1 hc'
    have hsame := same_operation h hop hop'
    simp only [Operation.same, Bool.and_eq_true] at hsame
    exact Or.inl (body?_of_same hsame.1.1.2 hbody hbody')
  replies := by
    intro t m s p q hp hq
    obtain ⟨r, hr, hrp⟩ := Option.bind_eq_some_iff.1 hp
    obtain ⟨op, hop, hget⟩ := Option.bind_eq_some_iff.1 hr
    obtain ⟨r', hr', hrq⟩ := Option.bind_eq_some_iff.1 hq
    obtain ⟨op', hop', hget'⟩ := Option.bind_eq_some_iff.1 hr'
    have hsame := same_operation h hop hop'
    simp only [Operation.same, Bool.and_eq_true] at hsame
    obtain ⟨r'', hr'', hresponse⟩ := get?_of_sameMapping hsame.1.2 hget
    obtain rfl : r'' = r' := Option.some.inj (hr''.symm.trans hget')
    simp only [Response.same, Bool.and_eq_true] at hresponse
    have hschema := hresponse.1.2
    rw [hrp, hrq, sameOption] at hschema
    exact Or.inl hschema

end Document

end ApiScribe
