/-
**What a skipping run passes over.**

A skipping run goes on after an exchange that cannot be recorded, with the document that was current
before it.  Whether an exchange is passed over depends on the exchanges before it, so that the ones
that are kept are told by the run itself; but it ends where the strict run of those ends.  Two things
end it early: a URL that is refused, and a cause that cannot be reported because a schema that it
speaks of cannot be shown.  The second one never arises if it does not in the document at the start,
as recording adds no free members.

Main definitions:

* `ApiScribe.Exchange.Admissible` — an exchange that is recorded or passed over;
* `ApiScribe.Document.kept`, `ApiScribe.Document.turn` — the exchanges that are recorded, and what
  becomes of one;
* `ApiScribe.Document.EverySchema` — what holds of every schema of a document;
* `ApiScribe.Document.Ready` — the invariant of a skipping run.

Main results:

* `ApiScribe.Operation.Grows.forall_schemas`, `ApiScribe.Document.EverySchema.record` — what one
  exchange keeps of the schemas;
* `ApiScribe.Document.outcome_kept` — where a run ends that passes over exchanges;
* `ApiScribe.Document.Ready.record`, `ApiScribe.Document.Ready.isSkippable` — one step of a run;
* `ApiScribe.Document.Ready.recordFrom` — a whole run;
* `ApiScribe.Document.recordAll_skipping` — **a skipping run is the strict run of what could be
  recorded, and a refused URL ends it**.
-/

import ApiScribe.Proofs.Recording.Reachable
import ApiScribe.Proofs.Schema.Showable
import ApiScribe.Proofs.Traffic.Body

set_option autoImplicit false

namespace ApiScribe

/-! ### What an exchange keeps of the schemas -/

/-- A body after another one has been put among parameters is an old one, the new one, or a join of
the two. -/
theorem PutsBody.cases_mem {b d : BodyParameter} {ps qs : List Parameter} (h : PutsBody b ps qs)
    (hd : .body d ∈ qs) :
    .body d ∈ ps ∨ d = b
      ∨ ∃ c, .body c ∈ ps ∧ Schema.join c.schema b.schema = .ok d.schema := by
  cases h with
  | new hnone =>
      rcases List.mem_append.1 hd with hd | hd
      · exact Or.inl hd
      · exact Or.inr (Or.inl (Parameter.body.inj (List.mem_singleton.1 hd)))
  | @joined before after c s hjoin =>
      rcases List.mem_append.1 hd with hd | hd
      · exact Or.inl (List.mem_append_left _ hd)
      · rcases List.mem_cons.1 hd with hd | hd
        · cases hd
          exact Or.inr (Or.inr ⟨c, by simp, hjoin⟩)
        · exact Or.inl (List.mem_append_right _ (List.mem_cons_of_mem _ hd))

section

variable {S : Schema → Prop} {op op' : Operation} {new : List ValueParameter} {e : Evidence}

/-- **What joins keep and the schemas of an exchange have, an operation keeps that takes over the
exchange.** -/
theorem Operation.Grows.forall_schemas (hg : op.Grows new e op')
    (hjoin : ∀ {a b r}, S a → S b → Schema.join a b = .ok r → S r)
    (hop : ∀ s ∈ op.schemas, S s) (hrequest : ∀ s, e.request = some s → S s)
    (hreply : ∀ s, e.reply = some s → S s) : ∀ s ∈ op'.schemas, S s := by
  intro s hs
  rcases Operation.mem_schemas_iff.1 hs with ⟨d, hd, rfl⟩ | ⟨status, r, hr, hrs⟩
  · have hold : ∀ c, .body c ∈ addParameters op.parameters new → S c.schema := fun c hc =>
      hop _ (Operation.mem_schemas_iff.2 (Or.inl ⟨c, mem_of_body_mem_addParameters hc, rfl⟩))
    have hparameters := hg.parameters
    cases hbody : e.request with
    | none =>
        rw [hbody] at hparameters
        exact hold d (Except.ok.inj hparameters ▸ hd)
    | some q =>
        rw [hbody] at hparameters
        rcases (putsBody_of_joinBody hparameters).cases_mem hd with hd | rfl | ⟨c, hc, hj⟩
        · exact hold d hd
        · exact hrequest q hbody
        · exact hjoin (hold c hc) (hrequest q hbody) hj
  · obtain ⟨schema, hschema, hresponses⟩ := hg.responses
    rw [hresponses] at hr
    rcases Members.mem_of_mem_put hr with hr | hr
    · exact hop s (Operation.mem_schemas_iff.2 (Or.inr ⟨status, r, hr, hrs⟩))
    · cases hr
      have hs : schema = some s := hrs
      subst hs
      cases hbody : e.reply with
      | none =>
          rw [hbody] at hschema
          cases hschema
      | some q =>
          rw [hbody] at hschema
          obtain ⟨t, ht, heq⟩ := map_eq_ok_iff.1 hschema
          cases heq
          -- a schema of a reply is new, or the join with what stood there
          cases hbefore : (e.before op).bind Response.schema with
          | none =>
              rw [hbefore] at ht
              cases ht
              exact hreply s hbody
          | some b =>
              rw [hbefore] at ht
              obtain ⟨r', hget, hb⟩ := Option.bind_eq_some_iff.1 hbefore
              have hknown : b ∈ op.schemas :=
                Operation.mem_schemas_iff.2 (Or.inr ⟨_, r', Members.mem_of_get? hget, hb⟩)
              exact hjoin (hop b hknown) (hreply q hbody) ht

end

/-! ### One step -/

/-- An exchange whose URL is accepted, and whose bodies have texts as names. -/
structure Exchange.Admissible (x : Exchange) : Prop where
  /-- The URL is accepted. -/
  url : ∃ path, pathOf x.request.url = .ok path
  /-- The names in the body of the request are texts. -/
  request : x.request.body.Keyed
  /-- The names in the body of the reply are texts. -/
  reply : x.reply.body.Keyed

theorem Exchange.Admissible.keyed {x : Exchange} (h : x.Admissible) {v : Value} (hv : x.Sends v) :
    v.Keyed := by
  rcases hv with hv | hv
  · exact keyed_of_readBody h.request hv
  · exact keyed_of_readBody h.reply hv

namespace Document

variable {doc next : Document} {x : Exchange}

/-- A document of the version that is recorded in, of which all schemas that an exchange can meet can
be shown. -/
structure Ready (doc : Document) : Prop where
  /-- The version. -/
  version : doc.swagger = formatVersion
  /-- The schemas can be shown. -/
  shown : ∀ t m op, doc.operation? t m = some op → ∀ s ∈ op.schemas, s.isShowable = true

theorem ready_of_operations (hversion : doc.swagger = formatVersion)
    (hshown : ∀ op ∈ doc.operations, ∀ s ∈ op.schemas, s.isShowable = true) : doc.Ready :=
  ⟨hversion, fun _ _ op hop => hshown op (mem_operations_of_operation? hop)⟩

/-- Every schema that is recorded in a document has a property. -/
def EverySchema (doc : Document) (S : Schema → Prop) : Prop :=
  ∀ t m op, doc.operation? t m = some op → ∀ s ∈ op.schemas, S s

/-- A new operation takes over path parameters from its siblings, but no schemas. -/
theorem EverySchema.startOperation {S : Schema → Prop} (h : doc.EverySchema S) (t : String)
    (m : Method) : ∀ s ∈ ((doc.pathItem t).startOperation m).schemas, S s := by
  rw [PathItem.startOperation]
  cases hop : (doc.pathItem t).operation? m with
  | some op => exact h t m op hop
  | none =>
      intro s hs
      rcases Operation.mem_schemas_iff.1 hs with ⟨b, hb, -⟩ | ⟨status, r, hr, -⟩
      · obtain ⟨v, -, hv⟩ := List.mem_map.1 hb
        cases hv
      · cases hr

/-- **What joins keep and the schemas of samples have, a document keeps** when an exchange is
recorded. -/
theorem EverySchema.record {S : Schema → Prop} {c : Cell} (h : doc.EverySchema S)
    (hjoin : ∀ {a b r}, S a → S b → Schema.join a b = .ok r → S r)
    (hinferred : ∀ {s : Schema}, s.Inferred → S s) (step : doc.record x = .ok (c, next)) :
    next.EverySchema S := by
  intro t m op hop
  by_cases hcell : c.template = t ∧ c.method = m
  · obtain ⟨rfl, rfl⟩ := hcell
    obtain ⟨new, e, op', -, he, -, hgrow, hop'⟩ := operation?_of_record step
    rw [hop, Option.some.injEq] at hop'
    subst hop'
    obtain ⟨hrequest, hreply⟩ := Exchange.inferred_evidence he
    exact hgrow.forall_schemas hjoin (h.startOperation _ _) (fun s hs => hinferred (hrequest s hs))
      fun s hs => hinferred (hreply s hs)
  · rw [operation?_of_record_ne step hcell] at hop
    exact h t m op hop

/-- **An exchange that is recorded leaves a document that a run can go on from.** -/
theorem Ready.record {c : Cell} (h : doc.Ready) (step : doc.record x = .ok (c, next)) :
    next.Ready where
  version := by
    rw [rest_of_record step]
    exact h.version
  shown := EverySchema.record h.shown Schema.isShowable_join Schema.Inferred.isShowable step

/-- **An exchange that is not recorded can be passed over.** -/
theorem Ready.isSkippable {e : RecordError} (h : doc.Ready)
    (hx : x.request.method?.isSome = true → x.Admissible) (hr : doc.record x = .error e) :
    e.isSkippable = true := by
  rcases record_eq_error hr with ⟨hversion, -⟩ | ⟨-, rfl⟩ | ⟨m, hm, hcase⟩
  · exact absurd h.version hversion
  · rfl
  · have hx := hx (by rw [hm]; rfl)
    rcases hcase with ⟨err, hurl, -⟩ | ⟨path, resolution, -, -, hrefuses⟩
    · obtain ⟨path, hpath⟩ := hx.url
      rw [hpath] at hurl
      cases hurl
    · cases hrefuses with
      | body err => rfl
      | sample sends cause =>
          rcases Schema.ofSample_eq_error cause with ⟨w, rfl⟩ | ⟨hnot, -⟩
          · rfl
          · exact absurd (hx.keyed sends) hnot
      | @join v b s err sends known shape cause =>
          exact Schema.isReported_of_join_eq_error (EverySchema.startOperation h.shown _ m b known)
            (Schema.inferred_ofSample shape).isShowable cause

/-! ### A whole run -/

/-- The exchanges that can be recorded in the document that is current at their turn. -/
def kept (doc : Document) : List Exchange → List Exchange
  | [] => []
  | x :: rest =>
    match doc.record x with
    | .ok (_, next) => x :: next.kept rest
    | .error _ => doc.kept rest

/-- What becomes of an exchange that has `index` others before it. -/
def turn (doc : Document) (index : Nat) (x : Exchange) : Event :=
  match doc.record x with
  | .ok (cell, _) => .recorded cell
  | .error e => .skipped index x.request e

/-- A run that ends well ends where the strict run of what is kept ends. -/
theorem outcome_kept {skip : Bool} {xs : List Exchange} {last : Document} {i : Nat}
    (h : (doc.recordFrom skip i xs).outcome = .ok last) (j : Nat) :
    (doc.recordFrom false j (doc.kept xs)).outcome = .ok last := by
  induction xs generalizing doc i j with
  | nil => exact h
  | cons x xs ih =>
      rw [Document.recordFrom] at h
      rw [kept]
      cases hr : doc.record x with
      | ok r =>
          rw [hr] at h
          simp only [Document.recordFrom, hr]
          exact ih h (j + 1)
      | error e =>
          cases hskip : skip && e.isSkippable with
          | true =>
              simp only [hr, hskip, if_true] at h
              exact ih h j
          | false => simp [hr, hskip] at h

/-- **A skipping run ends well, where the strict run of what is kept ends.** -/
theorem Ready.recordFrom {xs : List Exchange} (h : doc.Ready)
    (hxs : ∀ x ∈ xs, x.request.method?.isSome = true → x.Admissible) (i j : Nat) :
    ∃ last, last.Ready ∧ (doc.recordFrom true i xs).outcome = .ok last
      ∧ (doc.recordFrom false j (doc.kept xs)).outcome = .ok last := by
  suffices hwell : ∃ last, last.Ready ∧ (doc.recordFrom true i xs).outcome = .ok last by
    obtain ⟨last, hlast, hskip⟩ := hwell
    exact ⟨last, hlast, hskip, outcome_kept hskip j⟩
  induction xs generalizing doc i with
  | nil => exact ⟨doc, h, rfl⟩
  | cons x xs ih =>
      obtain ⟨hx, hxs⟩ := List.forall_mem_cons.1 hxs
      rw [Document.recordFrom]
      cases hr : doc.record x with
      | ok r => exact ih (h.record hr) hxs (i + 1)
      | error e =>
          simp only [h.isSkippable hx hr, Bool.and_self, if_true]
          exact ih h hxs (i + 1)

/-- In a skipping run every exchange has its turn with the document that the ones before it left. -/
theorem Ready.event {xs : List Exchange} (h : doc.Ready)
    (hxs : ∀ x ∈ xs, x.request.method?.isSome = true → x.Admissible) {i : Nat} {x : Exchange}
    (hi : xs[i]? = some x) :
    ∃ current, (doc.recordAll true (xs.take i)).outcome = .ok current
      ∧ (doc.recordAll true xs).events[i]? = some (current.turn i x) := by
  obtain ⟨hlt, hget⟩ := List.getElem?_eq_some_iff.1 hi
  have hlength : (xs.take i).length = i := List.length_take_of_le (Nat.le_of_lt hlt)
  have hsplit : xs = xs.take i ++ x :: xs.drop (i + 1) := by
    rw [← hget, List.getElem_cons_drop, List.take_append_drop]
  obtain ⟨current, hready, hcurrent, -⟩ :=
    h.recordFrom (fun y hy => hxs y (List.mem_of_mem_take hy)) 0 0
  refine ⟨current, hcurrent, ?_⟩
  have hbefore := length_events hcurrent
  rw [hlength] at hbefore
  have hrun := recordFrom_append hcurrent (x :: xs.drop (i + 1))
  rw [← hsplit, hlength, Nat.zero_add] at hrun
  rw [recordAll, hrun, List.getElem?_append_right (Nat.le_of_eq hbefore), hbefore, Nat.sub_self,
    Document.recordFrom, turn]
  cases hr : current.record x with
  | ok r => rfl
  | error e =>
      simp only [hready.isSkippable (hxs x (List.mem_of_getElem? hi)) hr, Bool.and_self, if_true]
      rfl

/-- **A skipping run is the strict run of what could be recorded, and a refused URL ends it.** -/
theorem recordAll_skipping (hversion : doc.swagger = formatVersion)
    (hshown : ∀ op ∈ doc.operations, ∀ s ∈ op.schemas, s.isShowable = true) :
    (∀ xs : List Exchange, (∀ x ∈ xs, x.request.method?.isSome = true → x.Admissible) →
      (∃ last, (doc.recordAll true xs).outcome = .ok last
        ∧ (doc.recordAll false (doc.kept xs)).outcome = .ok last)
      ∧ (doc.recordAll true xs).events.length = xs.length
      ∧ ∀ i x, xs[i]? = some x →
          ∃ current, (doc.recordAll true (xs.take i)).outcome = .ok current
            ∧ (doc.recordAll true xs).events[i]? = some (current.turn i x))
    ∧ ∀ (before : List Exchange) (x : Exchange) (after : List Exchange) (e : UrlError),
        (∀ y ∈ before, y.request.method?.isSome = true → y.Admissible) →
        x.request.method?.isSome = true → pathOf x.request.url = .error e →
        (doc.recordAll true (before ++ x :: after)).outcome = .error (.url e)
          ∧ (doc.recordAll true (before ++ x :: after)).events.length = before.length := by
  have hready := ready_of_operations hversion hshown
  constructor
  · intro xs hxs
    obtain ⟨last, -, hskip, hstrict⟩ := hready.recordFrom hxs 0 0
    exact ⟨⟨last, hskip, hstrict⟩, length_events hskip, fun i x hi => hready.event hxs hi⟩
  · intro before x after e hbefore hmethod hurl
    obtain ⟨m, hm⟩ := Option.isSome_iff_exists.1 hmethod
    obtain ⟨mid, hmid, hrun, -⟩ := hready.recordFrom hbefore 0 0
    have hstop := record_of_url_error hmid.version hm hurl
    have hlength := length_events hrun
    rw [recordAll, recordFrom_append hrun, Document.recordFrom, hstop]
    simp [RecordError.isSkippable, hlength]

/-- A document with one reply, whose schema says something about names. -/
def namedDocument (names : Members Atom Value) : Document :=
  { paths := [("/a", { get := some { responses := [("200",
      { description := "OK", schema := some (.scalar .string [("x-names", .map names)]) })] } })] }

/-- Exchanges of which the last one fits the reply; the first one has no operation, and the second one
has a body of another type. -/
def namedExchanges : List Exchange :=
  [⟨{ method := "TRACE", url := "http://[" }, { status := 200 }⟩,
    ⟨{ method := "GET", url := "/a" }, { status := 200, body := .atom (.int 5) }⟩,
    ⟨{ method := "GET", url := "/a" }, { status := 200, body := .text "b" }⟩]

/-- An exchange with a URL that is refused. -/
def refusedExchange : Exchange := ⟨{ method := "GET", url := "http://[" }, { status := 200 }⟩

theorem admissible_of_mem_namedExchanges {x : Exchange} (hx : x ∈ namedExchanges)
    (hmethod : x.request.method?.isSome = true) : x.Admissible := by
  rcases List.mem_cons.1 hx with rfl | hx
  · exact absurd hmethod (by decide)
  · rcases List.mem_cons.1 hx with rfl | hx
    · exact ⟨⟨"/a", by rfl⟩, .atom _, .atom _⟩
    · rw [List.mem_singleton.1 hx]
      exact ⟨⟨"/a", by rfl⟩, .atom _, .atom _⟩

/-- Where the names are numbers, one exchange is kept, and the refused URL ends the run. -/
theorem recordAll_skipping_numbers : ∃ last e,
    let doc := namedDocument [(.int 1, .text "one"), (.int 2, .text "two")]
    (doc.recordAll true namedExchanges).outcome = .ok last ∧
    (doc.recordAll false (doc.kept namedExchanges)).outcome = .ok last ∧
    doc.kept namedExchanges = namedExchanges.drop 2 ∧
    (doc.recordAll true namedExchanges).events.length = 3 ∧
    (doc.recordAll true (namedExchanges ++ [refusedExchange])).outcome = .error (.url e) := by
  have hshown : ∀ op ∈ (namedDocument [(.int 1, .text "one"), (.int 2, .text "two")]).operations,
      ∀ s ∈ op.schemas, s.isShowable = true := by decide
  obtain ⟨hruns, hstops⟩ := recordAll_skipping rfl hshown
  have hadmissible := fun x => admissible_of_mem_namedExchanges (x := x)
  obtain ⟨e, he⟩ : ∃ e, pathOf refusedExchange.request.url = .error e := ⟨_, rfl⟩
  obtain ⟨⟨last, hskip, hstrict⟩, hlength, -⟩ := hruns namedExchanges hadmissible
  exact ⟨last, e, hskip, hstrict, rfl, hlength,
    (hstops namedExchanges refusedExchange [] e hadmissible rfl he).1⟩

/-- Where a text stands beside a number, a body of another type ends the run. -/
theorem recordAll_skipping_fails_mixed :
    let doc := namedDocument [(.int 1, .text "one"), (.text "b", .text "two")]
    doc.swagger = formatVersion ∧
    (∀ x ∈ namedExchanges, x.request.method?.isSome = true → x.Admissible) ∧
    ∃ e, (doc.recordAll true namedExchanges).outcome = .error e :=
  ⟨rfl, fun _ => admissible_of_mem_namedExchanges, _, rfl⟩

end Document

end ApiScribe
