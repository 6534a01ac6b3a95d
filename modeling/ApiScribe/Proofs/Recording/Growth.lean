/-
**What a document keeps when an exchange is recorded.**

An exchange is recorded in one cell of a document.  Beside the cell everything stays as it is.  In the
operation of the cell content types, answers and parameters are added and none is taken away, and the
schemas of the two bodies say at each position what they said before.  Only a reply without a body
takes a schema away, that of its own status code.  What is new stands at the end, except for a new
operation, which has the place of its method.

Main definitions:

* `ApiScribe.GrownBody` — parameters of which the first body may have grown;
* `ApiScribe.Operation.KeptIn`, `ApiScribe.Document.KeptIn` — what one step keeps of an operation, and
  of a document;
* `ApiScribe.Operation.Within`, `ApiScribe.Document.Within` — what a run keeps of them.

Main results:

* `ApiScribe.Operation.Grows.keptIn` — an operation that takes over an exchange keeps what it says;
* `ApiScribe.Document.keptIn_of_record` — **recording touches one cell, and takes nothing away**;
* `ApiScribe.Document.not_appends_operations` — a new operation need not be the last one;
* `ApiScribe.Document.within_of_recordAll` — **a run loses nothing but schemas of answers**.
-/

import ApiScribe.Proofs.Recording.Skipping
import ApiScribe.Proofs.Schema.Growth

set_option autoImplicit false

namespace ApiScribe

/-! ### Parts of an operation -/

theorem prefix_appendNew (texts : List String) (text : Option String) :
    texts <+: appendNew texts text := by
  rw [appendNew_eq_addAll]
  exact prefix_addAll _ _

/-- Parameters are as before, but the first body may say more, and if there was no body, there may be
one at the end. -/
inductive GrownBody : List Parameter → List Parameter → Prop
  /-- There was no body, and there is none. -/
  | nil : GrownBody [] []
  /-- There was no body. -/
  | new (s : Schema) : GrownBody [] [.body { schema := s }]
  /-- The first body keeps its name, its free members and what its schema says. -/
  | body {b : BodyParameter} {s : Schema} {ps : List Parameter} (within : b.schema.Within s) :
      GrownBody (.body b :: ps) (.body { b with schema := s } :: ps)
  /-- Other parameters stay as they are. -/
  | value {v : ValueParameter} {ps qs : List Parameter} (rest : GrownBody ps qs) :
      GrownBody (.value v :: ps) (.value v :: qs)

theorem GrownBody.refl (ps : List Parameter) : GrownBody ps ps := by
  induction ps with
  | nil => exact .nil
  | cons p ps ih =>
      cases p with
      | value v => exact .value ih
      | body b => exact .body (.refl b.schema)

theorem GrownBody.trans {ps qs rs : List Parameter} (h : GrownBody ps qs) (h' : GrownBody qs rs) :
    GrownBody ps rs := by
  induction h generalizing rs with
  | nil => exact h'
  | new s =>
      cases h' with
      | @body b s' _ _ => exact .new s'
  | body within =>
      cases h' with
      | body within' => exact .body (within.trans within')
  | value _ ih =>
      cases h' with
      | value rest' => exact .value (ih rest')

theorem GrownBody.of_joinBody {schema : Schema} {ps qs : List Parameter}
    (hps : ∀ b, .body b ∈ ps → b.schema.HasExtras DistinctBeside) (h : joinBody schema ps = .ok qs) :
    GrownBody ps qs := by
  induction ps generalizing qs with
  | nil =>
      cases h
      exact .new schema
  | cons p ps ih =>
      cases p with
      | body b =>
          obtain ⟨s, hj, rfl⟩ := map_eq_ok_iff.1 h
          exact .body (.of_join (hps b List.mem_cons_self) hj)
      | value v =>
          obtain ⟨rest, hrest, rfl⟩ := map_eq_ok_iff.1 h
          exact .value (ih (fun b hb => hps b (List.mem_cons_of_mem _ hb)) hrest)

/-- An operation keeps what it says when an exchange is recorded under a status code. -/
structure Operation.KeptIn (x : Exchange) (status : String) (op op' : Operation) : Prop where
  /-- Every content type of requests is kept, and a new one is the last. -/
  consumes : op.consumes <+: op'.consumes
  /-- So is every content type of replies. -/
  produces : op.produces <+: op'.produces
  /-- Every parameter is kept, and what the body of the request says. -/
  parameters : GrownBody op.parameters op'.parameters
  /-- The status codes are in order, and a new one is the last. -/
  statuses : op'.responses.keys = addNew op.responses.keys status
  /-- Other answers stay as they are. -/
  others : ∀ s, s ≠ status → op'.responses.get? s = op.responses.get? s
  /-- The answer keeps its free members, and what its schema says unless there is no body. -/
  answer : ∀ r, op.responses.get? status = some r → ∃ r', op'.responses.get? status = some r'
    ∧ r'.extras = r.extras
    ∧ ((∀ v, readBody x.reply.body x.reply.contentType? = .ok v → v.isNull = false) →
        ∀ s, r.schema = some s → ∃ s', r'.schema = some s' ∧ s.Within s')
  /-- The free members stay. -/
  extras : op'.extras = op.extras

/-- The schema of a reply with a body keeps what was recorded before. -/
theorem joinReply_keeps {before reply after : Option Schema} {s : Schema}
    (h : joinReply before reply = .ok after) (hreply : reply ≠ none) (hs : before = some s)
    (hextras : s.HasExtras DistinctBeside) : ∃ s', after = some s' ∧ s.Within s' := by
  cases reply with
  | none => exact absurd rfl hreply
  | some q =>
      obtain ⟨s', hj, rfl⟩ := map_eq_ok_iff.1 h
      rw [hs] at hj
      exact ⟨s', rfl, .of_join hextras hj⟩

/-- **An operation that takes over an exchange keeps what it says.** -/
theorem Operation.Grows.keptIn {op op' : Operation} {x : Exchange} {e : Evidence}
    (h : op.Grows [] e op') (he : x.evidence = .ok e)
    (hop : ∀ s ∈ op.schemas, s.HasExtras DistinctBeside) :
    op.KeptIn x e.statusText op' := by
  obtain ⟨-, hreply, -⟩ := Exchange.evidence_eq_ok_iff.1 he
  obtain ⟨schema, hschema, hresponses⟩ := h.responses
  have hparameters := h.parameters
  rw [addParameters_nil] at hparameters
  refine ⟨h.consumes ▸ prefix_appendNew _ _, h.produces ▸ prefix_appendNew _ _, ?_, ?_, ?_, ?_,
    h.extras⟩
  · cases hbody : e.request with
    | none =>
        rw [hbody] at hparameters
        exact Except.ok.inj hparameters ▸ GrownBody.refl _
    | some q =>
        rw [hbody] at hparameters
        exact .of_joinBody (fun b hb => hop _ (Operation.mem_schemas_iff.2 (Or.inl ⟨b, hb, rfl⟩)))
          hparameters
  · rw [hresponses, Members.keys_put_eq]
  · intro s hs
    rw [hresponses, Members.get?_put, if_neg (Ne.symm hs)]
  · intro r hr
    have hbefore : e.before op = some r := hr
    refine ⟨e.response (e.before op) schema, by rw [hresponses, Members.get?_put, if_pos rfl], ?_, ?_⟩
    · rw [Evidence.response, hbefore]
      rfl
    · intro hbody s hs
      -- a reply that says something has a schema
      have hsome : e.reply ≠ none := by
        intro hnone
        rw [hnone] at hreply
        obtain ⟨v, hv, ⟨hnull, -⟩ | ⟨-, t, -, ht⟩⟩ := Reply.bodySchema_eq_ok_iff.1 hreply
        · rw [hbody v hv] at hnull
          cases hnull
        · cases ht
      exact joinReply_keeps hschema hsome (by rw [hbefore]; exact hs)
        (hop s (Operation.mem_schemas_iff.2 (Or.inr ⟨_, r, Members.mem_of_get? hr, hs⟩)))

/-- What an operation keeps in a run: nothing is lost but schemas of answers. -/
structure Operation.Within (op op' : Operation) : Prop where
  /-- The content types of requests. -/
  consumes : op.consumes <+: op'.consumes
  /-- The content types of replies. -/
  produces : op.produces <+: op'.produces
  /-- The parameters, and what the body of the request says. -/
  parameters : GrownBody op.parameters op'.parameters
  /-- The status codes. -/
  statuses : op.responses.keys <+: op'.responses.keys
  /-- The free members of the answers. -/
  answers : ∀ s r, op.responses.get? s = some r →
    ∃ r', op'.responses.get? s = some r' ∧ r'.extras = r.extras
  /-- The free members. -/
  extras : op'.extras = op.extras

theorem Operation.Within.refl (op : Operation) : op.Within op where
  consumes := List.prefix_refl _
  produces := List.prefix_refl _
  parameters := .refl _
  statuses := List.prefix_refl _
  answers := fun _ r hr => ⟨r, hr, rfl⟩
  extras := rfl

theorem Operation.Within.trans {a b c : Operation} (h : a.Within b) (h' : b.Within c) :
    a.Within c where
  consumes := h.consumes.trans h'.consumes
  produces := h.produces.trans h'.produces
  parameters := h.parameters.trans h'.parameters
  statuses := h.statuses.trans h'.statuses
  answers := fun s r hr => by
    obtain ⟨r', hr', hextras⟩ := h.answers s r hr
    obtain ⟨r'', hr'', hextras'⟩ := h'.answers s r' hr'
    exact ⟨r'', hr'', hextras'.trans hextras⟩
  extras := h'.extras.trans h.extras

theorem Operation.KeptIn.within {op op' : Operation} {x : Exchange} {status : String}
    (h : op.KeptIn x status op') : op.Within op' where
  consumes := h.consumes
  produces := h.produces
  parameters := h.parameters
  statuses := h.statuses ▸ prefix_addNew _ _
  answers := fun s r hr => by
    by_cases hs : s = status
    · subst hs
      obtain ⟨r', hr', hextras, -⟩ := h.answer r hr
      exact ⟨r', hr', hextras⟩
    · exact ⟨r, (h.others s hs).trans hr, rfl⟩
  extras := h.extras

/-! ### Documents -/

namespace PathItem

/-- The methods that have an operation, in the order in which they are written. -/
theorem keys_operations (item : PathItem) :
    item.operations.keys = Method.all.filter fun m => (item.operation? m).isSome := by
  rw [operations, Members.keys, List.map_filterMap]
  induction Method.all with
  | nil => rfl
  | cons m ms ih =>
      rw [List.filterMap_cons, List.filter_cons, ih]
      cases item.operation? m <;> rfl

theorem mem_keys_operations {item : PathItem} {m : Method} :
    m ∈ item.operations.keys ↔ ∃ op, item.operation? m = some op := by
  rw [keys_operations, List.mem_filter, Option.isSome_iff_exists]
  exact and_iff_right (by cases m <;> decide)

end PathItem

namespace Document

/-- A document keeps what it says when an exchange is recorded in a cell. -/
structure KeptIn (x : Exchange) (c : Cell) (doc next : Document) : Prop where
  /-- The version, what the document says about itself and the free members stay. -/
  rest : next = { doc with paths := next.paths }
  /-- The templates are in order, and a new one is the last. -/
  templates : next.templates = addNew doc.templates c.template
  /-- What is recorded under other templates stays as it is. -/
  others : ∀ t, t ≠ c.template → next.paths.get? t = doc.paths.get? t
  /-- The parameters that all operations under the template share stay. -/
  shared : (next.pathItem c.template).parameters = (doc.pathItem c.template).parameters
  /-- The free members under the template stay. -/
  extras : (next.pathItem c.template).extras = (doc.pathItem c.template).extras
  /-- The operations of other methods stay as they are. -/
  siblings : ∀ m, m ≠ c.method → next.operation? c.template m = doc.operation? c.template m
  /-- The operations are in order. -/
  ordered : (doc.pathItem c.template).operations.keys.Sublist
    (next.pathItem c.template).operations.keys
  /-- A new one takes the place of its method. -/
  placed : (next.pathItem c.template).operations.keys = Method.all.filter fun m =>
    m = c.method ∨ m ∈ (doc.pathItem c.template).operations.keys
  /-- There is an operation for the cell, which keeps what it says. -/
  operation : ∃ op', next.operation? c.template c.method = some op'
    ∧ ∀ op, doc.operation? c.template c.method = some op → op.KeptIn x c.status op'

variable {doc next : Document} {x : Exchange} {c : Cell}

/-- **Recording touches one cell, and takes nothing away.** -/
theorem keptIn_of_record (hdoc : doc.EverySchema fun s => s.HasExtras DistinctBeside)
    (step : doc.record x = .ok (c, next)) : doc.KeptIn x c next := by
  have hsiblings : ∀ m, m ≠ c.method →
      next.operation? c.template m = doc.operation? c.template m := fun m hm =>
    operation?_of_record_ne step fun h => hm h.2.symm
  obtain ⟨new, e, op', hr, he, hstatus, hgrow, hop'⟩ := operation?_of_record step
  have hplaced : (next.pathItem c.template).operations.keys = Method.all.filter fun m =>
      m = c.method ∨ m ∈ (doc.pathItem c.template).operations.keys := by
    rw [PathItem.keys_operations (next.pathItem c.template)]
    refine List.filter_congr fun m _ => ?_
    rw [Bool.eq_iff_iff, decide_eq_true_iff, Option.isSome_iff_exists, PathItem.mem_keys_operations]
    by_cases hm : m = c.method
    · subst hm
      exact ⟨fun _ => Or.inl rfl, fun _ => ⟨op', hop'⟩⟩
    · rw [or_iff_right hm, ← operation?, ← operation?, hsiblings m hm]
  refine
    { rest := rest_of_record step
      templates := templates_of_record step
      others := ?_
      shared := (shared_of_record step c.template).1
      extras := (shared_of_record step c.template).2
      siblings := hsiblings
      ordered := ?_
      placed := hplaced
      operation := ⟨op', hop', fun op hop => ?_⟩ }
  · intro t ht
    obtain ⟨-, -, -, -, -, -, -, -, -, rfl⟩ := record_eq_ok_iff.1 step
    rw [Members.get?_put, if_neg (Ne.symm ht)]
  · rw [PathItem.keys_operations, PathItem.keys_operations]
    refine List.monotone_filter_right _ fun m hm => Option.isSome_iff_exists.2 ?_
    by_cases hc : m = c.method
    · exact ⟨op', hc ▸ hop'⟩
    · exact Option.isSome_iff_exists.1 ((congrArg Option.isSome (hsiblings m hc)).trans hm)
  · obtain rfl : new = [] := Template.parameters_eq_nil hr (mem_templates_of_operation? hop)
    have hstart : (doc.pathItem c.template).startOperation c.method = op := by
      rw [PathItem.startOperation, ← operation?, hop, Option.getD_some]
    rw [hstart] at hgrow
    exact hstatus ▸ hgrow.keptIn he (hdoc _ _ op hop)

/-- The schema of a body with a note at a property. -/
def notedBody : Schema := .object [("k", .scalar .integer [("x-note", .text "k")])] ["k"] []

/-- The schema of an answer with a note, and with unknown items. -/
def notedReply : Schema := .array none [("x-note", .text "r")]

/-- A document with notes at an operation, at its body and at its answer. -/
def notesDocument : Document :=
  { paths := [("/a", { post := some {
      parameters := [.body { schema := notedBody }]
      responses := [("200", {
        description := "d"
        schema := some notedReply
        extras := [("x-note", .text "a")] })]
      extras := [("x-note", .text "o")] } })] }

/-- An exchange without the property of the body, whose reply has items. -/
def itemsExchange : Exchange :=
  ⟨{ method := "POST", url := "/a", body := .object [("j", .atom (.int 1))] },
    { status := 200, body := .list [.atom (.int 1)] }⟩

/-- All notes are kept. -/
theorem keptIn_of_record_notes : ∃ c next,
    (notesDocument.EverySchema fun s => s.HasExtras DistinctBeside) ∧
    notesDocument.record itemsExchange = .ok (c, next) ∧ c = ⟨"/a", .post, "200"⟩ ∧
    notesDocument.KeptIn itemsExchange c next := by
  have hrun : (notesDocument.record itemsExchange).toOption.map Prod.fst
      = some ⟨"/a", .post, "200"⟩ := by decide +kernel
  obtain ⟨⟨c, next⟩, hstep, rfl⟩ := exists_ok_of_toOption hrun
  have hdoc : notesDocument.EverySchema fun s => s.HasExtras DistinctBeside := by
    intro t m op hop s hs
    have hmem : s = notedBody ∨ s = notedReply := by
      have hop := mem_operations_of_operation? hop
      simp only [notesDocument, operations, PathItem.operations, Method.all, PathItem.operation?,
        List.flatMap_cons, List.flatMap_nil, List.append_nil, List.mem_map] at hop
      obtain ⟨n, hn, rfl⟩ := hop
      simp only [List.filterMap, Option.map, List.mem_singleton] at hn
      simpa [hn, Operation.schemas, Parameter.schema?] using hs
    rcases hmem with rfl | rfl
    · refine .object (by simp) List.nodup_nil fun k s hs => ?_
      cases List.mem_singleton.1 hs
      exact .scalar (List.nodup_singleton _)
    · exact .untyped (List.nodup_singleton _)
  exact ⟨_, next, hdoc, hstep, rfl, keptIn_of_record hdoc hstep⟩

/-- A document with a PUT under one template. -/
def putDocument : Document := { paths := [("/a", { put := some {} })] }

/-- The first GET beside it. -/
def getExchange : Exchange := ⟨{ method := "GET", url := "/a" }, { status := 200 }⟩

/-- **A new operation need not be the last one**: a GET stands before a PUT. -/
theorem not_appends_operations : ∃ c next,
    putDocument.record getExchange = .ok (c, next) ∧ c.template = "/a" ∧
    (putDocument.pathItem "/a").operations.keys = [.put] ∧
    (next.pathItem "/a").operations.keys = [.get, .put] ∧
    ¬((putDocument.pathItem "/a").operations.keys <+: (next.pathItem "/a").operations.keys) := by
  have hrun : (putDocument.record getExchange).toOption.map (fun r =>
      (r.1.template, (r.2.pathItem "/a").operations.keys)) = some ("/a", [.get, .put]) := by
    decide +kernel
  obtain ⟨⟨c, next⟩, hstep, hresult⟩ := exists_ok_of_toOption hrun
  obtain ⟨htemplate, hkeys⟩ := Prod.mk.inj hresult
  refine ⟨c, next, hstep, htemplate, rfl, hkeys, ?_⟩
  rw [show (next.pathItem "/a").operations.keys = [.get, .put] from hkeys]
  decide

/-! ### Runs -/

/-- What a document keeps in a run. -/
structure Within (doc last : Document) : Prop where
  /-- The version, what the document says about itself and the free members. -/
  rest : last = { doc with paths := last.paths }
  /-- The templates. -/
  templates : doc.templates <+: last.templates
  /-- What all operations under a template share. -/
  shared : ∀ t, (last.pathItem t).parameters = (doc.pathItem t).parameters
    ∧ (last.pathItem t).extras = (doc.pathItem t).extras
  /-- The operations. -/
  operations : ∀ t m op, doc.operation? t m = some op →
    ∃ op', last.operation? t m = some op' ∧ op.Within op'

theorem Within.refl (doc : Document) : doc.Within doc where
  rest := rfl
  templates := List.prefix_refl _
  shared := fun _ => ⟨rfl, rfl⟩
  operations := fun _ _ op hop => ⟨op, hop, .refl op⟩

theorem Within.trans {a b c : Document} (h : a.Within b) (h' : b.Within c) : a.Within c where
  rest := by
    rw [h'.rest, h.rest]
  templates := h.templates.trans h'.templates
  shared := fun t =>
    ⟨(h'.shared t).1.trans (h.shared t).1, (h'.shared t).2.trans (h.shared t).2⟩
  operations := fun t m op hop => by
    obtain ⟨op', hop', hwithin⟩ := h.operations t m op hop
    obtain ⟨op'', hop'', hwithin'⟩ := h'.operations t m op' hop'
    exact ⟨op'', hop'', hwithin.trans hwithin'⟩

theorem Within.of_record (hdoc : doc.EverySchema fun s => s.HasExtras DistinctBeside)
    (step : doc.record x = .ok (c, next)) : doc.Within next where
  rest := rest_of_record step
  templates := templates_of_record step ▸ prefix_addNew _ _
  shared := shared_of_record step
  operations := fun t m op hop => by
    by_cases hcell : c.template = t ∧ c.method = m
    · obtain ⟨rfl, rfl⟩ := hcell
      obtain ⟨op', hop', hkept⟩ := (keptIn_of_record hdoc step).operation
      exact ⟨op', hop', (hkept op hop).within⟩
    · exact ⟨op, (operation?_of_record_ne step hcell).trans hop, .refl op⟩

/-- **A run loses nothing but schemas of answers**, whether or not it passes over exchanges. -/
theorem within_of_recordAll {skip : Bool} {xs : List Exchange} {last : Document}
    (hdoc : doc.EverySchema fun s => s.HasExtras DistinctBeside)
    (run : (doc.recordAll skip xs).outcome = .ok last) : doc.Within last := by
  refine (invariant_of_recordFrom (P := fun d =>
    (d.EverySchema fun s => s.HasExtras DistinctBeside) ∧ doc.Within d) ?_
    ⟨hdoc, .refl doc⟩ run).2
  rintro mid next x c ⟨hmid, hwithin⟩ step
  exact ⟨hmid.record Schema.HasExtras.distinct_join
    (fun hs => hs.hasExtras fun _ => List.nodup_nil) step, hwithin.trans (.of_record hmid step)⟩

end Document

end ApiScribe
