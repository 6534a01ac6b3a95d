/-
**Names of templates and path parameters.**

A template asks for a value under each of its names, and a value is declared by a path parameter of
the operation, or by one that all operations under the template share.  Recording declares the names
that it makes, and a new operation takes over what its siblings declare.  Three things get in the way.
A path may spell out a placeholder itself, and nothing declares that name.  A shared parameter of any
place keeps a new operation from taking over its namesakes in the path.  And an operation that a union
copies leaves behind what its own side shares, if the other side says what is shared there.  Apart
from these, names stay declared.

Main definitions:

* `ApiScribe.pathNames` — the names of the path parameters;
* `ApiScribe.PathItem.Declares`, `ApiScribe.Document.DeclaresAt`, `ApiScribe.Document.Declared` — all
  operations declare the names of their template;
* `ApiScribe.PathItem.NamesakesInPath` — no shared parameter keeps a name from being taken over;
* `ApiScribe.Document.Provides` — a template whose names stay declared in every run.

Main results:

* `ApiScribe.PathItem.mem_pathNames_siblingParameters` — the names that a new operation takes over;
* `ApiScribe.PathItem.declares_recorded_iff`, `ApiScribe.PathItem.declares_union_iff` — what an
  exchange and a union keep under one template;
* `ApiScribe.Document.declaresAt_of_record_iff`, `ApiScribe.Document.Provides.recordAll` — **what one
  exchange and a run keep**;
* `ApiScribe.Document.declared_of_union_iff` — **what a union keeps**;
* `ApiScribe.Document.declares_iff_of_recordAll` — **what a run from the empty document declares**.
-/

import ApiScribe.Proofs.Recording.Reference
import ApiScribe.Proofs.Recording.Skipping
import ApiScribe.Proofs.Template.Placeholder

set_option autoImplicit false

namespace ApiScribe

/-! ### Path parameters -/

/-- The names of the path parameters. -/
def pathNames (ps : List Parameter) : List String :=
  (ps.filterMap Parameter.pathValue?).map ValueParameter.name

theorem Parameter.pathValue?_eq_some_iff {p : Parameter} {v : ValueParameter} :
    p.pathValue? = some v ↔ p = .value v ∧ v.place = .path := by
  cases p with
  | body b => simp [pathValue?]
  | value w =>
      rw [pathValue?, Option.ite_none_right_eq_some, Option.some.injEq, Parameter.value.injEq,
        and_comm]
      exact and_congr_right fun he => by rw [he]

theorem mem_pathNames_iff {ps : List Parameter} {name : String} :
    name ∈ pathNames ps ↔ ∃ v, .value v ∈ ps ∧ v.place = .path ∧ v.name = name := by
  simp only [pathNames, List.mem_map, List.mem_filterMap, Parameter.pathValue?_eq_some_iff]
  constructor
  · rintro ⟨v, ⟨p, hp, rfl, hplace⟩, hname⟩
    exact ⟨v, hp, hplace, hname⟩
  · rintro ⟨v, hv, hplace, hname⟩
    exact ⟨v, ⟨_, hv, rfl, hplace⟩, hname⟩

theorem pathNames_append (ps qs : List Parameter) :
    pathNames (ps ++ qs) = pathNames ps ++ pathNames qs := by
  rw [pathNames, List.filterMap_append, List.map_append, pathNames, pathNames]

/-- A body that is put among parameters leaves those of the path as they are. -/
theorem PutsBody.pathValues_eq {b : BodyParameter} {ps qs : List Parameter} (h : PutsBody b ps qs) :
    qs.filterMap Parameter.pathValue? = ps.filterMap Parameter.pathValue? := by
  have hbody : ∀ c : BodyParameter, [Parameter.body c].filterMap Parameter.pathValue? = [] :=
    fun _ => rfl
  cases h with
  | new _ => rw [List.filterMap_append, hbody, List.append_nil]
  | joined _ =>
      rw [List.filterMap_append, List.filterMap_append]
      rfl

theorem PutsBody.pathNames_eq {b : BodyParameter} {ps qs : List Parameter} (h : PutsBody b ps qs) :
    pathNames qs = pathNames ps := congrArg (List.map ValueParameter.name) h.pathValues_eq

/-- An exchange that brings no new parameters leaves those of the path as they are. -/
theorem Operation.Grows.pathValues_eq {op op' : Operation} {e : Evidence} (h : op.Grows [] e op') :
    op'.parameters.filterMap Parameter.pathValue? = op.parameters.filterMap Parameter.pathValue? := by
  have hp := h.parameters
  rw [addParameters_nil] at hp
  cases hr : e.request with
  | none =>
      rw [hr] at hp
      rw [Except.ok.inj hp]
  | some s =>
      rw [hr] at hp
      exact (putsBody_of_joinBody hp).pathValues_eq

theorem Operation.Grows.pathNames_eq {op op' : Operation} {e : Evidence} (h : op.Grows [] e op') :
    pathNames op'.parameters = pathNames op.parameters :=
  congrArg (List.map ValueParameter.name) h.pathValues_eq

/-- A parameter that is added takes no place from those of the path. -/
theorem unionParameter_pathNames {ps qs : List Parameter} {p : Parameter}
    (h : unionParameter ps p = .ok qs) {name : String} (hname : name ∈ pathNames ps) :
    name ∈ pathNames qs := by
  cases p with
  | body b => rwa [(putsBody_of_unionBody h).pathNames_eq]
  | value v =>
      rw [← Except.ok.inj h]
      split
      · exact hname
      · rw [pathNames_append]
        exact List.mem_append_left _ hname

/-- An operation that is on the first side of a union, or on both, keeps its path parameters. -/
theorem unionOption_pathNames {a c : Operation} {b : Option Operation}
    (h : unionOption Operation.union (some a) b = .ok (some c)) {name : String}
    (hname : name ∈ pathNames a.parameters) : name ∈ pathNames c.parameters := by
  cases b with
  | none =>
      cases h
      exact hname
  | some b =>
      obtain ⟨c', hc, hcc⟩ := unionOption_some_iff.1 h
      cases hcc
      exact invariant_of_unionParameters (P := fun ps => name ∈ pathNames ps)
        (fun p _ _ _ hqs hp => unionParameter_pathNames hp hqs) hname
        (Operation.union_eq_ok_iff.1 hc).2.1

/-- Taking the first parameter of each name loses no name. -/
theorem mem_name_firstOfEachName {vs : List ValueParameter} {name : String} :
    name ∈ (firstOfEachName vs).map ValueParameter.name ↔ name ∈ vs.map ValueParameter.name := by
  induction vs with
  | nil => rfl
  | cons v vs ih =>
      rw [firstOfEachName, List.map_cons, List.map_cons, List.mem_cons, List.mem_cons, ← ih]
      refine or_congr_right' fun hne => ?_
      simp only [List.mem_map, List.mem_filter, decide_eq_true_eq]
      constructor
      · rintro ⟨w, hw, hname⟩
        exact ⟨w, hw.1, hname⟩
      · rintro ⟨w, hw, hname⟩
        exact ⟨w, ⟨hw, fun he => hne (hname.symm.trans he)⟩, hname⟩

/-! ### Path items -/

namespace PathItem

variable {item : PathItem} {t : String}

/-- The parameters that all operations share, which may be none. -/
def shared (item : PathItem) : List Parameter := item.parameters.getD []

theorem mem_sharedNames_of_pathNames {name : String} (h : name ∈ pathNames item.shared) :
    name ∈ item.sharedNames := by
  obtain ⟨v, hv, -, hname⟩ := mem_pathNames_iff.1 h
  exact List.mem_map.2 ⟨.value v, hv, hname⟩

/-- **A new operation takes over the names that its siblings declare in the path**, but none that a
shared parameter has, whatever the place of that one. -/
theorem mem_pathNames_siblingParameters {name : String} :
    name ∈ pathNames item.siblingParameters ↔
      name ∉ item.sharedNames
        ∧ ∃ m op, item.operation? m = some op ∧ name ∈ pathNames op.parameters := by
  -- the values that are taken over, before those of equal names are left out
  obtain ⟨vs, hvs⟩ : ∃ vs, (item.operations.flatMap fun m =>
      m.2.parameters.filterMap Parameter.pathValue?).filter
        (fun p => !item.sharedNames.contains p.name) = vs := ⟨_, rfl⟩
  have hmem : ∀ v, v ∈ vs ↔ v.name ∉ item.sharedNames ∧
      ∃ m op, item.operation? m = some op ∧ .value v ∈ op.parameters ∧ v.place = .path := by
    intro v
    simp only [← hvs, List.mem_filter, List.mem_flatMap, List.mem_filterMap, Prod.exists,
      mem_operations_iff, Parameter.pathValue?_eq_some_iff, Bool.not_eq_true',
      List.contains_eq_mem, decide_eq_false_iff_not, existsAndEq, true_and]
    rw [and_comm]
  rw [mem_pathNames_iff, siblingParameters, hvs]
  constructor
  · rintro ⟨v, hv, hplace, rfl⟩
    obtain ⟨w, hw, hwv⟩ := List.mem_map.1 hv
    cases hwv
    obtain ⟨hshared, m, op, hop, hown, -⟩ := (hmem v).1 (mem_of_mem_firstOfEachName hw)
    exact ⟨hshared, m, op, hop, mem_pathNames_iff.2 ⟨v, hown, hplace, rfl⟩⟩
  · rintro ⟨hshared, m, op, hop, hname⟩
    obtain ⟨v, hv, hplace, rfl⟩ := mem_pathNames_iff.1 hname
    have hkept : v ∈ vs := (hmem v).2 ⟨hshared, m, op, hop, hv, hplace⟩
    obtain ⟨w, hw, hwv⟩ := List.mem_map.1 (mem_name_firstOfEachName.2 (List.mem_map_of_mem hkept))
    obtain ⟨-, -, -, -, -, hwplace⟩ := (hmem w).1 (mem_of_mem_firstOfEachName hw)
    exact ⟨w, List.mem_map_of_mem hw, hwplace, hwv⟩

/-- Each operation declares the names of a template, by path parameters of its own or by shared ones. -/
def Declares (item : PathItem) (t : String) : Prop :=
  ∀ n ∈ item.operations, ∀ name ∈ Template.names t.toList,
    name ∈ pathNames n.2.parameters ∨ name ∈ pathNames item.shared

instance (item : PathItem) (t : String) : Decidable (item.Declares t) :=
  inferInstanceAs (Decidable (∀ n ∈ item.operations, ∀ name ∈ Template.names t.toList,
    name ∈ pathNames n.2.parameters ∨ name ∈ pathNames item.shared))

theorem declares_iff : item.Declares t ↔
    ∀ m op, item.operation? m = some op → ∀ name ∈ Template.names t.toList,
      name ∈ pathNames op.parameters ∨ name ∈ pathNames item.shared :=
  ⟨fun h m op hop => h (m, op) (mem_operations_iff.2 hop),
    fun h n hn => h n.1 n.2 (mem_operations_iff.1 hn)⟩

/-- Each name of a template that a shared parameter has is the name of a shared path parameter. -/
def NamesakesInPath (item : PathItem) (t : String) : Prop :=
  ∀ name ∈ Template.names t.toList, name ∈ item.sharedNames → name ∈ pathNames item.shared

instance (item : PathItem) (t : String) : Decidable (item.NamesakesInPath t) :=
  inferInstanceAs (Decidable (∀ name ∈ Template.names t.toList,
    name ∈ item.sharedNames → name ∈ pathNames item.shared))

/-- Whether the names stay declared when an operation is set is up to that operation. -/
theorem declares_setOperation_iff {m : Method} {op : Operation} (h : item.Declares t) :
    (item.setOperation op m).Declares t ↔ ∀ name ∈ Template.names t.toList,
      name ∈ pathNames op.parameters ∨ name ∈ pathNames item.shared := by
  have hshared : (item.setOperation op m).shared = item.shared := by
    rw [shared, (setOperation_shared item op m).1, shared]
  rw [declares_iff] at h ⊢
  rw [hshared]
  constructor
  · exact fun hset => hset m op (by rw [operation?_setOperation, if_pos rfl])
  · intro hnew n op' hop'
    rw [operation?_setOperation] at hop'
    split at hop'
    · cases hop'
      exact hnew
    · exact h n op' hop'

/-- **What is taken over declares the names**, unless a shared parameter stands in the way. -/
theorem siblingParameters_declare_iff (hops : ∃ m op, item.operation? m = some op)
    (h : item.Declares t) :
    (∀ name ∈ Template.names t.toList,
        name ∈ pathNames item.siblingParameters ∨ name ∈ pathNames item.shared)
      ↔ item.NamesakesInPath t := by
  simp only [mem_pathNames_siblingParameters]
  constructor
  · intro hnew name hname htaken
    exact (hnew name hname).resolve_left fun hown => hown.1 htaken
  · intro hnamesakes name hname
    by_cases htaken : name ∈ item.sharedNames
    · exact Or.inr (hnamesakes name hname htaken)
    · obtain ⟨m, op, hop⟩ := hops
      have hown := (declares_iff.1 h m op hop name hname).resolve_right
        (mt mem_sharedNames_of_pathNames htaken)
      exact Or.inl ⟨htaken, m, op, hop, hown⟩

/-- **An operation that starts as recording starts it keeps the names declared**, unless it is new and
a shared parameter stands in the way. -/
theorem declares_recorded_iff {m : Method} {op : Operation}
    (hops : ∃ n op, item.operation? n = some op) (h : item.Declares t)
    (hop : pathNames op.parameters = pathNames (item.startOperation m).parameters) :
    (item.setOperation op m).Declares t ↔
      (∃ before, item.operation? m = some before) ∨ item.NamesakesInPath t := by
  rw [declares_setOperation_iff h, hop, startOperation]
  cases hm : item.operation? m with
  | some before => exact iff_of_true (declares_iff.1 h m before hm) (Or.inl ⟨before, rfl⟩)
  | none =>
      rw [or_iff_right (by simp)]
      exact siblingParameters_declare_iff hops h

/-- **A union of path items keeps the names declared**, unless an operation of the second one alone
needs what the second one shares, and the first one shares something else. -/
theorem declares_union_iff {a b c : PathItem} (ha : a.Declares t) (hb : b.Declares t)
    (h : a.union b = .ok c) :
    c.Declares t ↔ ∀ n ∈ b.operations, a.operation? n.1 = none → ∀ shared ∈ a.parameters,
      ∀ name ∈ Template.names t.toList,
        name ∈ pathNames n.2.parameters ∨ name ∈ pathNames shared := by
  obtain ⟨hops, hparameters, -⟩ := operation?_union h
  have hleft : ∀ shared ∈ a.parameters, c.shared = shared := by
    intro shared hshared
    rw [PathItem.shared, hparameters, Option.mem_def.1 hshared]
    rfl
  have hright : a.parameters = none → c.shared = b.shared := by
    intro hnone
    rw [shared, hparameters, hnone]
    rfl
  have hcopied : ∀ m, a.operation? m = none → c.operation? m = b.operation? m := by
    intro m hm
    have hu := hops m
    rw [hm] at hu
    exact (Except.ok.inj hu).symm
  rw [declares_iff] at ha hb ⊢
  constructor
  · intro hc n hn hm shared hshared name hname
    have hop := hcopied n.1 hm
    rw [mem_operations_iff.1 hn] at hop
    rw [← hleft shared hshared]
    exact hc n.1 n.2 hop name hname
  · intro hneeds m op hop name hname
    cases hm : a.operation? m with
    | some before =>
        have hu := hops m
        rw [hm, hop] at hu
        refine (ha m before hm name hname).imp (unionOption_pathNames hu) fun hshared => ?_
        cases hparams : a.parameters with
        | none =>
            rw [shared, hparams] at hshared
            cases hshared
        | some own =>
            rw [hleft own hparams]
            rwa [shared, hparams] at hshared
    | none =>
        rw [hcopied m hm] at hop
        cases hparams : a.parameters with
        | none =>
            rw [hright hparams]
            exact hb m op hop name hname
        | some own =>
            rw [hleft own hparams]
            exact hneeds (m, op) (mem_operations_iff.2 hop) hm own hparams name hname

end PathItem

/-! ### Documents -/

namespace Document

/-- Each operation under a template declares the names of the template. -/
def DeclaresAt (doc : Document) (t : String) : Prop := (doc.pathItem t).Declares t

instance (doc : Document) (t : String) : Decidable (doc.DeclaresAt t) :=
  inferInstanceAs (Decidable ((doc.pathItem t).Declares t))

/-- Each operation of a document declares the names of its template. -/
def Declared (doc : Document) : Prop := ∀ t ∈ doc.templates, doc.DeclaresAt t

instance (doc : Document) : Decidable doc.Declared :=
  inferInstanceAs (Decidable (∀ t ∈ doc.templates, doc.DeclaresAt t))

/-- Under a template that is not known there is nothing to declare. -/
theorem declared_iff {doc : Document} : doc.Declared ↔ ∀ t, doc.DeclaresAt t := by
  refine ⟨fun h t => PathItem.declares_iff.2 fun m op hop => ?_, fun h t _ => h t⟩
  exact PathItem.declares_iff.1 (h t (mem_templates_of_operation? hop)) m op hop

/-- A document with one operation under a template with one placeholder. -/
def idDocument (shared : Option (List Parameter)) (m : Method) (own : List ValueParameter) :
    Document :=
  { paths := [("/a/{id}",
      ({ parameters := shared } : PathItem).setOperation { parameters := own.map .value } m)] }

/-- A shared parameter at a place. -/
def sharedAt (place : Place) (name : String) : Option (List Parameter) :=
  some [.value { place, name }]

/-! ### Exchanges -/

section

variable {doc next : Document} {x : Exchange} {c : Cell}

/-- Under a known template an exchange is recorded in an operation that starts as recording starts
it. -/
theorem exists_setOperation_of_record (ht : c.template ∈ doc.templates)
    (step : doc.record x = .ok (c, next)) :
    ∃ op, next.pathItem c.template = (doc.pathItem c.template).setOperation op c.method
      ∧ pathNames op.parameters
        = pathNames ((doc.pathItem c.template).startOperation c.method).parameters := by
  obtain ⟨-, new, e, op, -, hr, -, -, hgrow, rfl⟩ := record_eq_ok_iff.1 step
  obtain rfl : new = [] := Template.parameters_eq_nil hr ht
  exact ⟨op, by rw [pathItem_put, if_pos rfl], hgrow.pathNames_eq⟩

/-- **An exchange keeps the names of a template with operations declared exactly if it is not the
first one of its method, or no shared parameter of another place has one of the names.** -/
theorem declaresAt_of_record_iff (hops : ∃ m op, doc.operation? c.template m = some op)
    (hdoc : doc.DeclaresAt c.template) (step : doc.record x = .ok (c, next)) :
    next.DeclaresAt c.template ↔ (∃ op, doc.operation? c.template c.method = some op)
      ∨ (doc.pathItem c.template).NamesakesInPath c.template := by
  obtain ⟨m, op, hop⟩ := hops
  obtain ⟨op', hitem, hnames⟩ :=
    exists_setOperation_of_record (mem_templates_of_operation? hop) step
  rw [DeclaresAt, hitem]
  exact PathItem.declares_recorded_iff ⟨m, op, hop⟩ hdoc hnames

/-- The first exchange of its method. -/
def postExchange : Exchange := ⟨{ method := "POST", url := "/a/1" }, { status := 201 }⟩

/-- Where a header is shared, a new operation has the parameter of its sibling. -/
theorem declaresAt_of_record_iff_header : ∃ c next,
    let doc := idDocument (sharedAt .header "trace") .get [.ofPlaceholder "id"]
    doc.record postExchange = .ok (c, next) ∧ c = ⟨"/a/{id}", .post, "201"⟩ ∧
    (∃ m op, doc.operation? c.template m = some op) ∧ doc.DeclaresAt c.template ∧
    next.DeclaresAt c.template := by
  have hrun : ((idDocument (sharedAt .header "trace") .get [.ofPlaceholder "id"]).record
      postExchange).toOption.map Prod.fst = some ⟨"/a/{id}", .post, "201"⟩ := by decide +kernel
  obtain ⟨⟨c, next⟩, hstep, rfl⟩ := exists_ok_of_toOption hrun
  have hdoc : (idDocument (sharedAt .header "trace") .get [.ofPlaceholder "id"]).DeclaresAt
      "/a/{id}" := by decide +kernel
  refine ⟨_, next, hstep, rfl, ⟨.get, _, rfl⟩, hdoc,
    (declaresAt_of_record_iff ⟨.get, _, rfl⟩ hdoc hstep).2 (Or.inr ?_)⟩
  decide +kernel

/-- Where a part of the query of the same name is shared, a new operation goes without. -/
theorem not_declaresAt_of_record_query : ∃ c next,
    let doc := idDocument (sharedAt .query "id") .get [.ofPlaceholder "id"]
    doc.record postExchange = .ok (c, next) ∧ c.template = "/a/{id}" ∧
    (∃ m op, doc.operation? "/a/{id}" m = some op) ∧ doc.DeclaresAt "/a/{id}" ∧
    ¬next.DeclaresAt "/a/{id}" := by
  have hrun : ((idDocument (sharedAt .query "id") .get [.ofPlaceholder "id"]).record
      postExchange).toOption.map (fun r => (r.1.template, decide (r.2.DeclaresAt "/a/{id}")))
        = some ("/a/{id}", false) := by decide +kernel
  obtain ⟨⟨c, next⟩, hstep, hresult⟩ := exists_ok_of_toOption hrun
  obtain ⟨htemplate, hnot⟩ := Prod.mk.inj hresult
  exact ⟨c, next, hstep, htemplate, ⟨.get, _, rfl⟩, by decide +kernel, of_decide_eq_false hnot⟩

/-- There are operations under a template that declare its names, and what they share leaves them
declared when there are more. -/
structure Provides (doc : Document) (t : String) : Prop where
  /-- The names are declared. -/
  declares : doc.DeclaresAt t
  /-- There is an operation. -/
  operations : ∃ m op, doc.operation? t m = some op
  /-- A shared parameter with one of the names has a namesake in the path. -/
  namesakes : (doc.pathItem t).NamesakesInPath t

/-- **What provides the names of a template provides them after an exchange**, whatever its own
template is. -/
theorem Provides.record {t : String} (h : doc.Provides t) (step : doc.record x = .ok (c, next)) :
    next.Provides t where
  declares := by
    obtain ⟨hdoc, hops, hshared⟩ := h
    by_cases ht : c.template = t
    · subst ht
      obtain ⟨m, op, hop⟩ := hops
      obtain ⟨op', hitem, hnames⟩ :=
        exists_setOperation_of_record (mem_templates_of_operation? hop) step
      rw [DeclaresAt, hitem]
      exact (PathItem.declares_recorded_iff ⟨m, op, hop⟩ hdoc hnames).2 (Or.inr hshared)
    · obtain ⟨-, new, e, op, -, -, -, -, -, rfl⟩ := record_eq_ok_iff.1 step
      rw [DeclaresAt, pathItem_put, if_neg ht]
      exact hdoc
  operations := by
    obtain ⟨m, op, hop⟩ := h.operations
    by_cases hcell : c.template = t ∧ c.method = m
    · obtain ⟨rfl, rfl⟩ := hcell
      obtain ⟨new, e, op', -, -, -, -, hop'⟩ := operation?_of_record step
      exact ⟨_, op', hop'⟩
    · exact ⟨m, op, (operation?_of_record_ne step hcell).trans hop⟩
  namesakes := by
    have hshared := (shared_of_record step t).1
    rw [PathItem.NamesakesInPath, PathItem.sharedNames, PathItem.shared, hshared]
    exact h.namesakes

/-- **What provides the names of a template provides them after a run**, whether or not it passes over
exchanges. -/
theorem Provides.recordAll {t : String} {skip : Bool} {xs : List Exchange} (h : doc.Provides t)
    (hrun : (doc.recordAll skip xs).outcome = .ok next) : next.Provides t :=
  invariant_of_recordFrom Provides.record h hrun

end

/-! ### Unions -/

/-- **A union of documents that declare the names of their templates does so exactly if no operation
of the second one alone needs what its own side shares where the first side shares something.** -/
theorem declared_of_union_iff {a b c : Document} (hn : b.templates.Nodup) (ha : a.Declared)
    (hb : b.Declared) (h : a.union b = .ok c) :
    c.Declared ↔ ∀ t ∈ b.templates, ∀ n ∈ (b.pathItem t).operations, a.operation? t n.1 = none →
      ∀ shared ∈ (a.pathItem t).parameters, ∀ name ∈ Template.names t.toList,
        name ∈ pathNames n.2.parameters ∨ name ∈ pathNames shared := by
  rw [declared_iff] at ha hb ⊢
  have hall : ∀ t, c.DeclaresAt t ↔ ∀ n ∈ (b.pathItem t).operations,
      a.operation? t n.1 = none → ∀ shared ∈ (a.pathItem t).parameters,
        ∀ name ∈ Template.names t.toList,
          name ∈ pathNames n.2.parameters ∨ name ∈ pathNames shared := by
    intro t
    rcases pathItem_union hn h t with hu | ⟨hbt, hc⟩ | ⟨hat, hc⟩
    · exact PathItem.declares_union_iff (ha t) (hb t) hu
    · rw [DeclaresAt, hc, pathItem_of_not_mem hbt]
      exact iff_of_true (ha t) fun n hn' => absurd hn' List.not_mem_nil
    · rw [DeclaresAt, hc, pathItem_of_not_mem hat]
      exact iff_of_true (hb t) (by simp)
  constructor
  · exact fun hc t _ => (hall t).1 (hc t)
  · refine fun hneeds t => (hall t).2 fun n hn' => ?_
    have ht : t ∈ b.templates := mem_templates_of_operation? (PathItem.mem_operations_iff.1 hn')
    exact hneeds t ht n hn'

/-- Where only the second side shares anything, its operation has what it needs. -/
theorem declared_of_union_iff_copied : ∃ c,
    let a := idDocument none .get [.ofPlaceholder "id"]
    let b := idDocument (sharedAt .path "id") .post []
    b.templates.Nodup ∧ a.Declared ∧ b.Declared ∧ a.union b = .ok c ∧ c.Declared := by
  have ha : (idDocument none .get [.ofPlaceholder "id"]).Declared := by decide +kernel
  have hb : (idDocument (sharedAt .path "id") .post []).Declared := by decide +kernel
  obtain ⟨c, hc⟩ : ∃ c, (idDocument none .get [.ofPlaceholder "id"]).union
      (idDocument (sharedAt .path "id") .post []) = .ok c := ⟨_, rfl⟩
  have hn : (idDocument (sharedAt .path "id") .post []).templates.Nodup := by decide
  exact ⟨c, hn, ha, hb, hc, (declared_of_union_iff hn ha hb hc).2 (by decide +kernel)⟩

/-- Where the first side says that nothing is shared, the operation of the second one goes without. -/
theorem not_declared_of_union_empty : ∃ c,
    let a := idDocument (some []) .get [.ofPlaceholder "id"]
    let b := idDocument (sharedAt .path "id") .post []
    a.Declared ∧ b.Declared ∧ a.union b = .ok c ∧ ¬c.Declared :=
  ⟨_, by decide +kernel, by decide +kernel, rfl, by decide +kernel⟩

/-! ### Runs from the empty document -/

/-- **In a run from the empty document the path parameters of an operation are those that were made
for its template**: they are declared once and required, and they are the names of the template exactly
if the path that it was made of spells out no further ones. -/
theorem declares_iff_of_recordAll {info : Info} {skip : Bool} {xs : List Exchange} {doc : Document}
    {t : String} {m : Method} {op : Operation}
    (h : (({ info } : Document).recordAll skip xs).outcome = .ok doc)
    (hop : doc.operation? t m = some op) :
    (pathNames op.parameters).Nodup
      ∧ (∀ p, .value p ∈ op.parameters → p.place = .path → p.required = true)
      ∧ ∃ x path,
          ((({ info } : Document).kept xs).find? fun y => doc.templateOf? y = some t) = some x
            ∧ pathOf x.request.url = .ok path
            ∧ pathNames op.parameters = (Template.generalize path).2
            ∧ ((∀ name, name ∈ Template.names t.toList ↔ name ∈ pathNames op.parameters)
                ↔ ∀ name ∈ Template.names path.toList, name ∈ pathNames op.parameters) := by
  obtain ⟨log, hrun, hlog⟩ := exists_records (outcome_kept h 0)
  obtain ⟨hne, hreflects⟩ := (reflects_of_records hrun).operation hop
  obtain ⟨before, l, after, mid, hsplit, hlt, hbefore, -, hnew, hres⟩ :=
    hrun.exists_first rfl (mem_templates_of_entriesAt hne)
  obtain ⟨path, hpath, -, ht, hmade⟩ := Template.exists_path_of_resolve hres hnew
  obtain ⟨body, -, hparams⟩ := hreflects.parameters
  have hvalues : op.parameters.filterMap Parameter.pathValue? = Template.newParameters path := by
    rw [hparams, filterMap_pathValue? (nodup_newAt log t).2, hmade]
  have hnames : pathNames op.parameters = (Template.generalize path).2 := by
    rw [pathNames, hvalues, Template.newParameters, map_name_ofPlaceholder]
  refine ⟨hnames ▸ Template.nodup_generalize path, fun p hp hplace => ?_, l.exchange, path, ?_,
    hpath, hnames, ?_⟩
  · have hmem : p ∈ Template.newParameters path := by
      rw [← hvalues]
      exact List.mem_filterMap.2 ⟨_, hp, Parameter.pathValue?_eq_some_iff.2 ⟨rfl, hplace⟩⟩
    obtain ⟨name, -, rfl⟩ := List.mem_map.1 hmem
    rfl
  · rw [← hlog, hsplit, List.map_append, List.map_cons, List.find?_eq_some_iff_append]
    refine ⟨?_, before.map Entry.exchange, after.map Entry.exchange, rfl, fun y hy => ?_⟩
    · simpa [hlt] using hrun.templateOf? (l := l) (hsplit ▸ by simp)
    · obtain ⟨l', hl', rfl⟩ := List.mem_map.1 hy
      have htemplate := hrun.templateOf? (l := l') (hsplit ▸ List.mem_append_left _ hl')
      simpa [htemplate] using hbefore l' hl'
  · simp only [ht, hnames, Template.mem_names_generalize]
    exact ⟨fun hsame name hname => (hsame name).1 (Or.inr hname),
      fun hown name => ⟨fun hname => hname.elim id (hown name), Or.inl⟩⟩

/-- Exchanges with a UUID for a path, and of another method under the same template. -/
def uuidExchanges : List Exchange :=
  [⟨{ method := "GET", url := "/00000000-0000-4000-8000-000000000000" }, { status := 200 }⟩,
    ⟨{ method := "POST", url := "/1" }, { status := 201 }⟩]

/-- The parameter is made for the UUID, and the second method takes it over. -/
theorem declares_iff_of_recordAll_uuid :
    ∃ (doc : Document) (op : Operation) (x : Exchange) (path : String),
      (({} : Document).recordAll true uuidExchanges).outcome = .ok doc ∧
      doc.operation? "/{uuid}" .post = some op ∧ (pathNames op.parameters).Nodup ∧
      ((({} : Document).kept uuidExchanges).find? fun y =>
        doc.templateOf? y = some "/{uuid}") = some x ∧
      pathOf x.request.url = .ok path ∧
      pathNames op.parameters = (Template.generalize path).2 := by
  have hrun : (({} : Document).recordAll true uuidExchanges).outcome.toOption.map
      (fun doc => (doc.operation? "/{uuid}" .post).isSome) = some true := by decide +kernel
  obtain ⟨doc, hdoc, hsome⟩ := exists_ok_of_toOption hrun
  obtain ⟨op, hop⟩ := Option.isSome_iff_exists.1 hsome
  obtain ⟨hnodup, -, x, path, hfirst, hpath, hmade, -⟩ := declares_iff_of_recordAll hdoc hop
  exact ⟨doc, op, x, path, hdoc, hop, hnodup, hfirst, hpath, hmade⟩

/-- An exchange whose path spells out a placeholder. -/
def spelledExchange : Exchange := ⟨{ method := "GET", url := "/a/{id}" }, { status := 200 }⟩

/-- The name that a path spells out is not declared. -/
theorem not_declares_spelled : ∃ doc op,
    (({} : Document).recordAll false [spelledExchange]).outcome = .ok doc ∧
    doc.operation? "/a/{id}" .get = some op ∧
    ¬∀ name, name ∈ Template.names "/a/{id}".toList ↔ name ∈ pathNames op.parameters := by
  have hrun : (({} : Document).recordAll false [spelledExchange]).outcome.toOption.map
      (fun doc => (doc.operation? "/a/{id}" .get).map (pathNames ·.parameters))
        = some (some []) := by decide +kernel
  obtain ⟨doc, hdoc, hnames⟩ := exists_ok_of_toOption hrun
  obtain ⟨op, hop, hnil⟩ := Option.map_eq_some_iff.1 hnames
  refine ⟨doc, op, hdoc, hop, fun h => ?_⟩
  have hid := (h "id").1 (by decide +kernel)
  rw [hnil] at hid
  cases hid

end Document

end ApiScribe
