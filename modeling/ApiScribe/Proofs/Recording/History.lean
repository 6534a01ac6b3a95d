/-
**What a run leaves behind.**

A strict run that ends well records every exchange in a cell, one after the other.  The log of the
run says in which, and it is all that is needed to say what the run did: templates are added in the
order of the log, an exchange keeps its template to the end, and what is recorded in no cell of an
operation leaves that operation as it is.

Main definitions:

* `ApiScribe.Entry` — a line of a log;
* `ApiScribe.Document.Records` — a run with its log.

Main results:

* `ApiScribe.Document.exists_records`, `ApiScribe.Document.Records.recordFrom` — strict runs are the
  ones that have a log, and the log tells their events;
* `ApiScribe.Document.operation?_of_record`, `ApiScribe.Document.operation?_of_record_ne` — what a
  step does to the operations;
* `ApiScribe.Document.invariant_of_recordFrom` — what every step keeps, a run keeps;
* `ApiScribe.Document.Records.templates` — the templates after a run;
* `ApiScribe.Document.Records.resolve` — every exchange of a run keeps its template;
* `ApiScribe.Document.resolve_settles` — **a URL settles on its template**.
-/

import ApiScribe.Proofs.Recording.Evidence
import ApiScribe.Proofs.Template.Resolve

set_option autoImplicit false

namespace ApiScribe

/-- A line of a log: an exchange, the cell that it was recorded in, and what it showed. -/
structure Entry where
  /-- The exchange. -/
  exchange : Exchange
  /-- The cell. -/
  cell : Cell
  /-- What it showed. -/
  evidence : Evidence

namespace Document

/-- A run of exchanges, all of which are recorded, with its log. -/
inductive Records : Document → List Entry → Document → Prop
  /-- The empty run. -/
  | refl (doc : Document) : Records doc [] doc
  /-- A run with one exchange more. -/
  | snoc {doc mid next : Document} {log : List Entry} {x : Exchange} {c : Cell} {e : Evidence}
      (run : Records doc log mid) (step : mid.record x = .ok (c, next))
      (shows : x.evidence = .ok e) : Records doc (log ++ [⟨x, c, e⟩]) next

/-! ### One step -/

theorem pathItem_put (doc : Document) (t t' : String) (item : PathItem) :
    ({ doc with paths := doc.paths.put t item } : Document).pathItem t'
      = if t = t' then item else doc.pathItem t' := by
  rw [pathItem, Members.get?_put]
  split
  · rfl
  · rfl

theorem get?_paths_of_mem {doc : Document} {t : String} (h : t ∈ doc.templates) :
    doc.paths.get? t = some (doc.pathItem t) := by
  obtain ⟨item, hitem⟩ := Members.mem_keys_iff.1 h
  rw [pathItem, hitem]
  rfl

theorem pathItem_of_not_mem {doc : Document} {t : String} (h : t ∉ doc.templates) :
    doc.pathItem t = {} := by
  rw [pathItem, Members.get?_eq_none_iff.2 h]
  rfl

theorem operation?_of_not_mem {doc : Document} {t : String} (h : t ∉ doc.templates) (m : Method) :
    doc.operation? t m = none := by
  rw [operation?, pathItem_of_not_mem h]
  cases m <;> rfl

section

variable {doc next : Document} {x : Exchange} {c : Cell}

/-- A step changes nothing but what is recorded under templates. -/
theorem rest_of_record (h : doc.record x = .ok (c, next)) :
    next = { doc with paths := next.paths } := by
  obtain ⟨-, new, e, op, -, -, -, -, -, rfl⟩ := record_eq_ok_iff.1 h
  rfl

theorem templates_of_record (h : doc.record x = .ok (c, next)) :
    next.templates = addNew doc.templates c.template := by
  obtain ⟨-, new, e, op, -, -, -, -, -, rfl⟩ := record_eq_ok_iff.1 h
  exact Members.keys_put_eq doc.paths _ _

/-- The operation of the cell grows by what the exchange shows. -/
theorem operation?_of_record (h : doc.record x = .ok (c, next)) :
    ∃ new e op, Template.resolve x.request.url doc.templates = .ok ⟨c.template, new⟩
      ∧ x.evidence = .ok e ∧ c.status = e.statusText
      ∧ ((doc.pathItem c.template).startOperation c.method).Grows new e op
      ∧ next.operation? c.template c.method = some op := by
  obtain ⟨-, new, e, op, -, hr, he, hst, hgrow, rfl⟩ := record_eq_ok_iff.1 h
  refine ⟨new, e, op, hr, he, hst, hgrow, ?_⟩
  rw [operation?, pathItem_put, if_pos rfl, PathItem.operation?_setOperation, if_pos rfl]

/-- Every other operation stays as it is. -/
theorem operation?_of_record_ne (h : doc.record x = .ok (c, next)) {t : String} {m : Method}
    (hne : ¬(c.template = t ∧ c.method = m)) : next.operation? t m = doc.operation? t m := by
  obtain ⟨-, new, e, op, -, -, -, -, -, rfl⟩ := record_eq_ok_iff.1 h
  rw [operation?, operation?, pathItem_put]
  by_cases ht : c.template = t
  · rw [if_pos ht, PathItem.operation?_setOperation, if_neg fun hm => hne ⟨ht, hm⟩, ht]
  · rw [if_neg ht]

/-- What all operations under a template share stays as it is. -/
theorem shared_of_record (h : doc.record x = .ok (c, next)) (t : String) :
    (next.pathItem t).parameters = (doc.pathItem t).parameters
      ∧ (next.pathItem t).extras = (doc.pathItem t).extras := by
  obtain ⟨-, new, e, op, -, -, -, -, -, rfl⟩ := record_eq_ok_iff.1 h
  rw [pathItem_put]
  by_cases ht : c.template = t
  · rw [if_pos ht, ht]
    cases c.method <;> exact ⟨rfl, rfl⟩
  · rw [if_neg ht]
    exact ⟨rfl, rfl⟩

/-- An exchange that is recorded keeps its template, whatever templates are added. -/
theorem resolve_of_record (h : doc.record x = .ok (c, next)) (more : List String) :
    Template.resolve x.request.url (next.templates ++ more) = .ok ⟨c.template, []⟩ := by
  obtain ⟨-, new, e, op, -, hr, -⟩ := record_eq_ok_iff.1 h
  rw [templates_of_record h]
  exact Template.resolve_append hr more

end

/-! ### Runs -/

/-- The outcome of a run does not depend on how its exchanges are counted. -/
theorem outcome_recordFrom (skip : Bool) (i j : Nat) (doc : Document) (xs : List Exchange) :
    (doc.recordFrom skip i xs).outcome = (doc.recordFrom skip j xs).outcome := by
  induction xs generalizing doc i j with
  | nil => rfl
  | cons x xs ih =>
      rw [recordFrom, recordFrom]
      cases doc.record x with
      | ok r => exact ih (i + 1) (j + 1) r.2
      | error e =>
          simp only
          cases (skip && e.isSkippable) with
          | true => exact ih (i + 1) (j + 1) doc
          | false => rfl

/-- **What every step keeps, a run keeps**, also one that passes over exchanges. -/
theorem invariant_of_recordFrom {P : Document → Prop}
    (hstep : ∀ {doc next x c}, P doc → doc.record x = .ok (c, next) → P next) {skip : Bool}
    {index : Nat} {doc last : Document} {xs : List Exchange} (hdoc : P doc)
    (h : (doc.recordFrom skip index xs).outcome = .ok last) : P last := by
  induction xs generalizing doc index with
  | nil =>
      cases h
      exact hdoc
  | cons x xs ih =>
      rw [recordFrom] at h
      cases hx : doc.record x with
      | ok r =>
          rw [hx] at h
          exact ih (hstep hdoc hx) h
      | error e =>
          cases hskip : skip && e.isSkippable with
          | true =>
              simp only [hx, hskip, if_true] at h
              exact ih hdoc h
          | false => simp [hx, hskip] at h

/-- A run in two parts, of which the first ends well. -/
theorem recordFrom_append {skip : Bool} {index : Nat} {doc mid : Document} {xs : List Exchange}
    (h : (doc.recordFrom skip index xs).outcome = .ok mid) (ys : List Exchange) :
    doc.recordFrom skip index (xs ++ ys)
      = { mid.recordFrom skip (index + xs.length) ys with
          events := (doc.recordFrom skip index xs).events
            ++ (mid.recordFrom skip (index + xs.length) ys).events } := by
  induction xs generalizing doc index with
  | nil =>
      cases h
      rfl
  | cons x xs ih =>
      have hindex : index + (x :: xs).length = index + 1 + xs.length := by
        rw [List.length_cons]
        omega
      rw [recordFrom] at h
      rw [List.cons_append, recordFrom, recordFrom, hindex]
      cases hx : doc.record x with
      | ok r =>
          rw [hx] at h
          simp only [ih h]
          rfl
      | error e =>
          cases hskip : skip && e.isSkippable with
          | true =>
              simp only [hx, hskip, if_true] at h
              simp only [hskip, if_true, ih h]
              rfl
          | false => simp [hx, hskip] at h

/-- A run that ends well tells of every exchange what became of it. -/
theorem length_events {skip : Bool} {index : Nat} {doc last : Document} {xs : List Exchange}
    (h : (doc.recordFrom skip index xs).outcome = .ok last) :
    (doc.recordFrom skip index xs).events.length = xs.length := by
  induction xs generalizing doc index with
  | nil => rfl
  | cons x xs ih =>
      rw [recordFrom] at h ⊢
      cases hx : doc.record x with
      | ok r =>
          rw [hx] at h
          exact congrArg Nat.succ (ih h)
      | error e =>
          cases hskip : skip && e.isSkippable with
          | true =>
              simp only [hx, hskip, if_true] at h
              simp only [hskip, if_true]
              exact congrArg Nat.succ (ih h)
          | false => simp [hx, hskip] at h

/-- The outcome of a strict run, step by step. -/
theorem outcome_recordAll_cons (doc : Document) (x : Exchange) (xs : List Exchange) :
    (doc.recordAll false (x :: xs)).outcome
      = (doc.record x).bind fun r => (r.2.recordAll false xs).outcome := by
  rw [recordAll, recordFrom]
  cases doc.record x with
  | error e => rfl
  | ok r => exact outcome_recordFrom false 1 0 r.2 xs

theorem Records.trans {doc mid next : Document} {log more : List Entry}
    (h₁ : Records doc log mid) (h₂ : Records mid more next) : Records doc (log ++ more) next := by
  induction h₂ with
  | refl => simpa using h₁
  | snoc _ step shows ih =>
      rw [← List.append_assoc]
      exact .snoc ih step shows

/-- A run in two parts. -/
theorem Records.split {doc next : Document} {log more : List Entry}
    (h : Records doc (log ++ more) next) : ∃ mid, Records doc log mid ∧ Records mid more next := by
  generalize hall : log ++ more = all at h
  induction h generalizing more with
  | refl =>
      obtain ⟨rfl, rfl⟩ := List.append_eq_nil_iff.1 hall
      exact ⟨doc, .refl doc, .refl doc⟩
  | @snoc mid next log' x c e run step shows ih =>
      -- the last step belongs to the second part, unless that is empty
      rcases List.eq_nil_or_concat more with rfl | ⟨more', l, rfl⟩
      · rw [List.append_nil] at hall
        exact ⟨next, hall ▸ .snoc run step shows, .refl next⟩
      · rw [List.concat_eq_append, ← List.append_assoc] at hall
        obtain ⟨hlog, hl⟩ := List.append_inj' hall rfl
        obtain ⟨mid', h₁, h₂⟩ := ih hlog
        rw [List.cons.injEq] at hl
        refine ⟨mid', h₁, ?_⟩
        rw [List.concat_eq_append, hl.1]
        exact .snoc h₂ step shows

/-- The first step of a run. -/
theorem Records.head {doc next : Document} {l : Entry} {log : List Entry}
    (h : Records doc (l :: log) next) : ∃ mid, doc.record l.exchange = .ok (l.cell, mid)
      ∧ l.exchange.evidence = .ok l.evidence ∧ Records mid log next := by
  have hsplit : Records doc ([l] ++ log) next := h
  obtain ⟨mid, hone, hrest⟩ := hsplit.split
  refine ⟨mid, ?_⟩
  generalize hl : [l] = single at hone
  cases hone with
  | refl => cases hl
  | @snoc mid' _ log' x c e run step shows =>
      have hnil : log' = [] := by
        have hlen := congrArg List.length hl
        rw [List.length_append, List.length_singleton] at hlen
        exact List.length_eq_zero_iff.1 (by simpa using hlen.symm)
      subst hnil
      cases hl
      generalize hempty : ([] : List Entry) = log' at run
      cases run with
      | refl => exact ⟨step, shows, hrest⟩
      | snoc => simp at hempty

/-- A strict run that ends well has a log. -/
theorem exists_records {doc next : Document} {xs : List Exchange} {index : Nat}
    (h : (doc.recordFrom false index xs).outcome = .ok next) :
    ∃ log, Records doc log next ∧ log.map Entry.exchange = xs := by
  induction xs generalizing doc index with
  | nil =>
      cases h
      exact ⟨[], .refl _, rfl⟩
  | cons x xs ih =>
      rw [recordFrom] at h
      cases hx : doc.record x with
      | error err => simp [hx] at h
      | ok r =>
          obtain ⟨c, mid⟩ := r
          rw [hx] at h
          obtain ⟨log, hrun, hlog⟩ := ih h
          obtain ⟨-, e, -, -, he, -⟩ := operation?_of_record hx
          have hone : Records doc [⟨x, c, e⟩] mid := .snoc (.refl doc) hx he
          exact ⟨⟨x, c, e⟩ :: log, hone.trans hrun, by rw [List.map_cons, hlog]⟩

/-- The events of a run are told by its log. -/
theorem Records.recordFrom {doc mid : Document} {log : List Entry} (h : Records doc log mid)
    (index : Nat) (xs : List Exchange) :
    doc.recordFrom false index (log.map Entry.exchange ++ xs)
      = { mid.recordFrom false (index + log.length) xs with
          events := log.map (fun l => Event.recorded l.cell)
            ++ (mid.recordFrom false (index + log.length) xs).events } := by
  induction h generalizing xs with
  | refl => rfl
  | @snoc mid next log x c e run step shows ih =>
      have hindex : index + (log ++ [Entry.mk x c e]).length = index + log.length + 1 := by
        rw [List.length_append, List.length_singleton, Nat.add_assoc]
      rw [List.map_append, List.map_singleton, List.append_assoc, List.singleton_append, ih, hindex,
        Document.recordFrom, step]
      simp [Run.after]

/-- A run with a log ends well. -/
theorem Records.recordAll {doc next : Document} {log : List Entry} (h : Records doc log next) :
    doc.recordAll false (log.map Entry.exchange)
      = ⟨log.map fun l => .recorded l.cell, .ok next⟩ := by
  have hrun := h.recordFrom 0 []
  rw [List.append_nil] at hrun
  rw [Document.recordAll, hrun]
  simp [Document.recordFrom]

/-- What the log says of an exchange is what the exchange says itself. -/
theorem Records.entry {doc next : Document} {log : List Entry} (h : Records doc log next)
    {l : Entry} (hl : l ∈ log) : l.exchange.evidence = .ok l.evidence
      ∧ l.exchange.request.method? = some l.cell.method
      ∧ l.cell.status = l.evidence.statusText := by
  induction h with
  | refl => cases hl
  | @snoc mid next log x c e run step shows ih =>
      rcases List.mem_append.1 hl with hl | hl
      · exact ih hl
      · obtain ⟨-, new, e', op, hm, -, he, hst, -⟩ := record_eq_ok_iff.1 step
        rw [shows, Except.ok.injEq] at he
        rw [List.mem_singleton.1 hl]
        exact ⟨shows, hm, he ▸ hst⟩

/-- A run changes nothing but what is recorded under templates. -/
theorem Records.rest {doc next : Document} {log : List Entry} (h : Records doc log next) :
    next = { doc with paths := next.paths } := by
  induction h with
  | refl => rfl
  | snoc _ step _ ih =>
      rw [rest_of_record step, ih]

/-- **The templates after a run are those before it, with those of the log in order.** -/
theorem Records.templates {doc next : Document} {log : List Entry} (h : Records doc log next) :
    next.templates = addAll doc.templates (log.map fun l => l.cell.template) := by
  induction h with
  | refl => rfl
  | snoc _ step _ ih =>
      rw [templates_of_record step, ih, List.map_append, addAll_append]
      rfl

/-- **Every exchange of a run keeps its template to the end**, and beyond. -/
theorem Records.resolve {doc next : Document} {log : List Entry} (h : Records doc log next)
    {l : Entry} (hl : l ∈ log) (more : List String) :
    Template.resolve l.exchange.request.url (next.templates ++ more)
      = .ok ⟨l.cell.template, []⟩ := by
  induction h generalizing more with
  | refl => cases hl
  | @snoc mid next log x c e run step shows ih =>
      rcases List.mem_append.1 hl with hl | hl
      · obtain ⟨added, hadded⟩ := prefix_addNew mid.templates c.template
        have htemplates : next.templates = mid.templates ++ added := by
          rw [templates_of_record step, hadded]
        rw [htemplates, List.append_assoc]
        exact ih hl (added ++ more)
      · rw [List.mem_singleton.1 hl]
        exact resolve_of_record step more

/-- **A URL settles on its template**: the template matches the path, it brings no parameters when
it is known, and once an exchange with the URL is recorded, the URL is resolved to it for the rest
of the run, with nothing new. -/
theorem resolve_settles (doc : Document) {url path : String} (h : pathOf url = .ok path) :
    ∃ t new, Template.resolve url doc.templates = .ok ⟨t, new⟩
      ∧ Template.matches t path = true
      ∧ (new ≠ [] → t ∉ doc.templates)
      ∧ ∀ (x : Exchange) (later : List Exchange) (last : Document), x.request.url = url →
        (doc.recordAll false (x :: later)).outcome = .ok last →
          Template.resolve url last.templates = .ok ⟨t, []⟩ := by
  obtain ⟨t, new, hres⟩ : ∃ t new, Template.resolvePath path doc.templates = ⟨t, new⟩ :=
    ⟨_, _, rfl⟩
  have hresolve : Template.resolve url doc.templates = .ok ⟨t, new⟩ :=
    Template.resolve_eq_ok_iff.2 ⟨path, h, hres⟩
  refine ⟨t, new, hresolve, ?_, ?_, ?_⟩
  · rcases Template.resolvePath_cases path doc.templates with ⟨s, hfind, hs⟩ | ⟨-, -, hs⟩
    · rw [hs] at hres
      cases hres
      have hsome := List.find?_some hfind
      exact hsome
    · rw [hs] at hres
      cases hres
      exact Template.matches_generalize path
  · intro hnew ht
    exact hnew (Template.parameters_eq_nil hresolve ht)
  · rintro x later last rfl hrun
    obtain ⟨log, hlog, hxs⟩ := exists_records hrun
    obtain ⟨l, log', rfl, rfl, -⟩ := List.map_eq_cons_iff.1 hxs
    obtain ⟨mid, hstep, -, -⟩ := hlog.head
    obtain ⟨new', -, -, hres', -⟩ := operation?_of_record hstep
    rw [hresolve, Except.ok.injEq, Template.Resolution.mk.injEq] at hres'
    have hlast := hlog.resolve List.mem_cons_self []
    rwa [List.append_nil, ← hres'.1] at hlast

/-- A URL whose path holds braces of its own and a UUID. -/
def bracedUrl : String := "/%7Ba\x7d/00000000-0000-4000-8000-000000000000?q=1"

/-- Exchanges of which the first one goes to the URL with braces. -/
def bracedExchanges : List Exchange :=
  [⟨{ method := "GET", url := bracedUrl }, { status := 200 }⟩,
    ⟨{ method := "GET", url := "/b/c" }, { status := 200 }⟩]

/-- The URL with braces settles on a template with a placeholder for its UUID. -/
theorem resolve_settles_braced : ∃ path last,
    pathOf bracedUrl = .ok path ∧
    (({} : Document).recordAll false bracedExchanges).outcome = .ok last ∧
    ∃ t, Template.matches t path = true
      ∧ Template.resolve bracedUrl last.templates = .ok ⟨t, []⟩ := by
  have hpath : pathOf bracedUrl = .ok "/{a}/00000000-0000-4000-8000-000000000000" := by rfl
  obtain ⟨last, hlast⟩ :
      ∃ last, (({} : Document).recordAll false bracedExchanges).outcome = .ok last := ⟨_, rfl⟩
  obtain ⟨t, -, -, hmatches, -, hrun⟩ := resolve_settles {} hpath
  exact ⟨_, last, hpath, hlast, t, hmatches, hrun _ _ last rfl hlast⟩

end Document

end ApiScribe
