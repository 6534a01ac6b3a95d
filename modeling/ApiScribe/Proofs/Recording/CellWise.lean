/-
**The union of two documents, cell by cell.**

What a union of documents is can be said without saying how it is made: under each name stands what
one of the sides has, or what the two have together, and the names of the first side come first.
This holds at every level, of templates, methods and status codes, and in the end it comes down to
joins of schemas, at the cells that have one on both sides.  A union fails only there.

Main definitions:

* `ApiScribe.UnionOf` — what stands under a name, given what the two sides have there;
* `ApiScribe.Parameter.Takes` — what becomes of a parameter of the first side;
* `ApiScribe.Document.IsUnion` and its companions — what a union is;
* `ApiScribe.Document.Combinable` — documents whose mappings are mappings, with one body at most for
  an operation;
* `ApiScribe.Document.Clashes` — a cell with two schemas that have no join.

Main results:

* `ApiScribe.Operation.isUnion_of_union`, `ApiScribe.Document.isUnion_of_union` — the union is what it
  should be;
* `ApiScribe.Document.IsUnion.not_clashes`, `ApiScribe.Document.exists_union` — there is one exactly
  if no cell clashes;
* `ApiScribe.Document.union_cellWise` — **a union is cell-wise, and fails only where a cell clashes**;
* `ApiScribe.Document.Combinable.union` — so that more documents can be combined.
-/

import ApiScribe.Proofs.Recording.Cells
import ApiScribe.Proofs.Recording.Parameters
import ApiScribe.Proofs.Recording.Reachable

set_option autoImplicit false

namespace ApiScribe

/-! ### Optional parts -/

/-- What stands under a name in a union: what one side has there, or what `R` makes of both. -/
inductive UnionOf {α : Type} (R : α → α → α → Prop) : Option α → Option α → Option α → Prop
  /-- Neither side has anything. -/
  | neither : UnionOf R none none none
  /-- Only the first side has something. -/
  | left (a : α) : UnionOf R (some a) none (some a)
  /-- Only the second side has something. -/
  | right (b : α) : UnionOf R none (some b) (some b)
  /-- Both sides have something. -/
  | both {a b c : α} (joint : R a b c) : UnionOf R (some a) (some b) (some c)

section

variable {α ε : Type} {R : α → α → α → Prop} {combine : α → α → Except ε α} {a b c : Option α}

theorem UnionOf.exists_iff (h : UnionOf R a b c) :
    (∃ z, c = some z) ↔ (∃ x, a = some x) ∨ ∃ y, b = some y := by
  cases h <;> simp

theorem unionOf_of_unionOption
    (hR : ∀ x y z, a = some x → b = some y → combine x y = .ok z → R x y z)
    (h : unionOption combine a b = .ok c) : UnionOf R a b c := by
  cases a with
  | none =>
      cases h
      cases b with
      | none => exact .neither
      | some y => exact .right y
  | some x =>
      cases b with
      | none =>
          cases h
          exact .left x
      | some y =>
          obtain ⟨z, hz, rfl⟩ := unionOption_some_iff.1 h
          exact .both (hR x y z rfl rfl hz)

theorem UnionOf.forall {P : α → Prop} (h : UnionOf R a b c) (ha : ∀ x, a = some x → P x)
    (hb : ∀ y, b = some y → P y) (hR : ∀ x y z, P x → P y → R x y z → P z) :
    ∀ z, c = some z → P z := by
  rintro z rfl
  cases h with
  | left => exact ha z rfl
  | right => exact hb z rfl
  | both joint => exact hR _ _ z (ha _ rfl) (hb _ rfl) joint

theorem UnionOf.exists_joint {x y : α} (h : UnionOf R (some x) (some y) c) :
    ∃ z, c = some z ∧ R x y z := by
  cases h with
  | both joint => exact ⟨_, rfl, joint⟩

theorem UnionOf.none_right (o : Option α) : UnionOf R o none o := by
  cases o with
  | none => exact .neither
  | some x => exact .left x

theorem UnionOf.none_left (o : Option α) : UnionOf R none o o := by
  cases o with
  | none => exact .neither
  | some y => exact .right y

end

/-! ### Parameters -/

/-- A parameter of the first side, given the schema of the body of the second: a body is joined with
it, and anything else stays as it is. -/
inductive Parameter.Takes (body : Option Schema) : Parameter → Parameter → Prop
  /-- A single value. -/
  | value (v : ValueParameter) : Takes body (.value v) (.value v)
  /-- The body. -/
  | body {p : BodyParameter} {s : Schema}
      (schema : UnionOf (fun s t r => Schema.join s t = .ok r) (some p.schema) body (some s)) :
      Takes body (.body p) (.body { p with schema := s })

/-- With the union of the two bodies in place of the body, each parameter takes over what it should. -/
theorem forall₂_takes_putBody {ps : List Parameter} {o o' : Option BodyParameter} (h : OneBody ps)
    (hunion : unionOption BodyParameter.union (firstBody ps) o = .ok o') :
    List.Forall₂ (Parameter.Takes (o.map BodyParameter.schema)) ps (putBody o' ps) := by
  have hvalues : ∀ {qs : List Parameter}, (∀ q ∈ qs, q.isBody = false) →
      List.Forall₂ (Parameter.Takes (o.map BodyParameter.schema)) qs qs := fun hqs =>
    List.forall₂_same.2 fun q hq => by
      cases q with
      | value v => exact .value v
      | body b => cases hqs _ hq
  induction ps with
  | nil => exact .nil
  | cons p ps ih =>
      cases p with
      | value v => exact .cons (.value v) (ih (oneBody_value.1 h) hunion)
      | body p =>
          have hrest := oneBody_body.1 h
          rw [putBody_body, putBody_of_values hrest]
          refine .cons ?_ (hvalues hrest)
          cases o with
          | none =>
              cases hunion
              exact .body (.left _)
          | some b =>
              obtain ⟨q, hq, rfl⟩ := unionOption_some_iff.1 hunion
              obtain ⟨s, hs, rfl⟩ := map_eq_ok_iff.1 hq
              exact .body (.both hs)

/-! ### Operations -/

/-- An answer that is the union of two. -/
structure Response.IsUnion (a b c : Response) : Prop where
  /-- The description is that of the first side. -/
  description : c.description = a.description
  /-- The schemas are joined, or the only one is taken. -/
  schema : UnionOf (fun s t r => Schema.join s t = .ok r) a.schema b.schema c.schema
  /-- The free members are those of the first side. -/
  extras : c.extras = a.extras

/-- An operation that is the union of two. -/
structure Operation.IsUnion (a b c : Operation) : Prop where
  /-- New content types of requests, unless empty, are added once. -/
  consumes : c.consumes
    = a.consumes ++ (b.consumes.filter fun t => t ∉ a.consumes && !t.isEmpty).eraseDups
  /-- So are new content types of replies. -/
  produces : c.produces
    = a.produces ++ (b.produces.filter fun t => t ∉ a.produces && !t.isEmpty).eraseDups
  /-- The parameters of the first side take over the body, and new ones are added. -/
  parameters : ∃ ps, List.Forall₂ (Parameter.Takes (b.body?.map BodyParameter.schema)) a.parameters ps
    ∧ c.parameters = ps ++ newParameters a.parameters b.parameters
  /-- New status codes are added. -/
  statuses : c.responses.keys
    = a.responses.keys ++ b.responses.keys.filter fun s => s ∉ a.responses.keys
  /-- Under each status code stands what one side has there, or the union of both. -/
  answers : ∀ s, UnionOf Response.IsUnion (a.responses.get? s) (b.responses.get? s)
    (c.responses.get? s)
  /-- The free members are those of the first side. -/
  extras : c.extras = a.extras

section

variable {a b c : Operation}

theorem Response.isUnion_of_union {a b c : Response} (h : a.union b = .ok c) : a.IsUnion b c := by
  obtain ⟨hschema, hdescription, hextras⟩ := Response.union_eq_ok_iff.1 h
  exact ⟨hdescription, unionOf_of_unionOption (fun _ _ _ _ _ hj => hj) hschema, hextras⟩

/-- **The union of two operations is what it should be.** -/
theorem Operation.isUnion_of_union (hn : b.responses.keys.Nodup) (ha : OneBody a.parameters)
    (hb : OneBody b.parameters) (h : a.union b = .ok c) : a.IsUnion b c := by
  obtain ⟨hresponses, hparameters, hconsumes, hproduces, hextras⟩ := Operation.union_eq_ok_iff.1 h
  refine ⟨hconsumes.trans (unionTexts_eq_append _ _), hproduces.trans (unionTexts_eq_append _ _), ?_,
    ?_, fun s => ?_, hextras⟩
  · rw [unionParameters_eq ha hb] at hparameters
    obtain ⟨o, ho, hparameters⟩ := map_eq_ok_iff.1 hparameters
    refine ⟨putBody o a.parameters, ?_, hparameters.symm⟩
    rw [body?_eq_firstBody]
    exact forall₂_takes_putBody ha ho
  · rw [keys_unionMembers hresponses, addAll_eq_append_filter hn]
  · exact unionOf_of_unionOption (fun _ _ _ _ _ => Response.isUnion_of_union)
      (get?_unionMembers hn hresponses s)

/-- Two operations have a union if their schemas have joins. -/
theorem Operation.exists_union (hn : b.responses.keys.Nodup) (ha : OneBody a.parameters)
    (hb : OneBody b.parameters)
    (hbody : ∀ p q, a.body? = some p → b.body? = some q → ∃ s, Schema.join p.schema q.schema = .ok s)
    (hanswers : ∀ s r r' p q, a.responses.get? s = some r → b.responses.get? s = some r' →
      r.schema = some p → r'.schema = some q → ∃ t, Schema.join p q = .ok t) :
    ∃ c, a.union b = .ok c := by
  obtain ⟨responses, hresponses⟩ :
      ∃ rs, unionMembers Response.union a.responses b.responses = .ok rs := by
    refine exists_unionMembers hn fun m hm => exists_unionOption fun r r' hr hr' => ?_
    cases hr'
    obtain ⟨schema, hschema⟩ := exists_unionOption (hanswers m.1 r m.2 · · hr
      (Members.get?_of_mem hn hm))
    exact ⟨{ r with schema := schema }, Response.union_eq_ok_iff.2 ⟨hschema, rfl, rfl⟩⟩
  obtain ⟨o, ho⟩ : ∃ o,
      unionOption BodyParameter.union (firstBody a.parameters) (firstBody b.parameters) = .ok o := by
    rw [← body?_eq_firstBody, ← body?_eq_firstBody]
    refine exists_unionOption fun p q hp hq => ?_
    obtain ⟨s, hs⟩ := hbody p q hp hq
    exact ⟨{ p with schema := s }, map_eq_ok_iff.2 ⟨s, hs, rfl⟩⟩
  have hparameters : unionParameters a.parameters b.parameters
      = .ok (putBody o a.parameters ++ newParameters a.parameters b.parameters) := by
    rw [unionParameters_eq ha hb, ho]
    rfl
  exact ⟨{ a with
    consumes := unionTexts a.consumes b.consumes
    produces := unionTexts a.produces b.produces
    parameters := putBody o a.parameters ++ newParameters a.parameters b.parameters
    responses := responses },
    Operation.union_eq_ok_iff.2 ⟨hresponses, hparameters, rfl, rfl, rfl⟩⟩

/-- Where two operations have a union, their bodies have a join. -/
theorem Operation.IsUnion.join_bodies (h : a.IsUnion b c) {p q : BodyParameter}
    (hp : a.body? = some p) (hq : b.body? = some q) :
    ∃ s, Schema.join p.schema q.schema = .ok s := by
  obtain ⟨ps, htakes, -⟩ := h.parameters
  have hmem : .body p ∈ a.parameters := by
    obtain ⟨r, hr, hrp⟩ := List.exists_of_findSome?_eq_some (body?_eq_firstBody a ▸ hp)
    cases r with
    | value v => cases hrp
    | body r =>
        cases hrp
        exact hr
  obtain ⟨r, -, htake⟩ := forall₂_mem_left htakes hmem
  rw [hq] at htake
  cases htake with
  | body schema =>
      obtain ⟨s, -, hj⟩ := schema.exists_joint
      exact ⟨s, hj⟩

end

/-! ### Documents -/

/-- A path item that is the union of two. -/
structure PathItem.IsUnion (a b c : PathItem) : Prop where
  /-- For each method there is what one side has for it, or the union of both. -/
  operations : ∀ m, UnionOf Operation.IsUnion (a.operation? m) (b.operation? m) (c.operation? m)
  /-- The shared parameters are those of the first side, if it has the member at all. -/
  parameters : c.parameters = a.parameters.or b.parameters
  /-- The free members are those of the first side. -/
  extras : c.extras = a.extras

theorem PathItem.isUnion_of_union {a b c : PathItem}
    (hops : ∀ m x y z, a.operation? m = some x → b.operation? m = some y → x.union y = .ok z →
      x.IsUnion y z) (h : a.union b = .ok c) : a.IsUnion b c := by
  obtain ⟨hunion, hparameters, hextras⟩ := PathItem.operation?_union h
  refine ⟨fun m => unionOf_of_unionOption (hops m) (hunion m), ?_, hextras⟩
  rw [hparameters]
  cases a.parameters <;> rfl

namespace Document

/-- A document that is the union of two. -/
structure IsUnion (a b c : Document) : Prop where
  /-- Everything but what stands under templates is that of the first side. -/
  rest : c = { a with paths := c.paths }
  /-- New templates are added. -/
  templates : c.templates = a.templates ++ b.templates.filter fun t => t ∉ a.templates
  /-- Under each template stands what one side has there, or the union of both. -/
  items : ∀ t, UnionOf PathItem.IsUnion (a.paths.get? t) (b.paths.get? t) (c.paths.get? t)

/-- A document of the version that can be combined, in which templates and the status codes of each
operation are distinct, and no operation has two bodies. -/
structure Combinable (doc : Document) : Prop where
  /-- The version. -/
  version : doc.swagger = formatVersion
  /-- The templates are distinct. -/
  templates : doc.templates.Nodup
  /-- The status codes are distinct. -/
  statuses : ∀ t m op, doc.operation? t m = some op → op.responses.keys.Nodup
  /-- There is at most one body. -/
  bodies : ∀ t m op, doc.operation? t m = some op → OneBody op.parameters

theorem combinable_of_operations {doc : Document} (hversion : doc.swagger = formatVersion)
    (htemplates : doc.templates.Nodup)
    (hops : ∀ op ∈ doc.operations, op.responses.keys.Nodup ∧ OneBody op.parameters) :
    doc.Combinable where
  version := hversion
  templates := htemplates
  statuses := fun _ _ op hop => (hops op (mem_operations_of_operation? hop)).1
  bodies := fun _ _ op hop => (hops op (mem_operations_of_operation? hop)).2

/-- Somewhere both documents have a schema, and the two have no join. -/
inductive Clashes (a b : Document) : Prop
  /-- The two are those of a body. -/
  | body {t : String} {m : Method} {p q : Schema} {e : SchemaError}
      (first : a.bodySchema? t m = some p) (second : b.bodySchema? t m = some q)
      (fails : Schema.join p q = .error e) : Clashes a b
  /-- The two are those of an answer. -/
  | reply {t : String} {m : Method} {s : String} {p q : Schema} {e : SchemaError}
      (first : a.replySchema? t m s = some p) (second : b.replySchema? t m s = some q)
      (fails : Schema.join p q = .error e) : Clashes a b

section

variable {a b c : Document}

theorem operation?_of_get? {doc : Document} {t : String} {item : PathItem}
    (h : doc.paths.get? t = some item) (m : Method) : doc.operation? t m = item.operation? m := by
  rw [operation?, pathItem, h, Option.getD_some]

/-- **The union of two documents is what it should be.** -/
theorem isUnion_of_union (ha : a.Combinable) (hb : b.Combinable) (h : a.union b = .ok c) :
    a.IsUnion b c := by
  obtain ⟨-, -, hpaths, hrest⟩ := union_eq_ok_iff.1 h
  refine ⟨hrest, ?_, fun t => ?_⟩
  · rw [templates_union h, addAll_eq_append_filter hb.templates]
  · refine unionOf_of_unionOption (fun item item' item'' hitem hitem' => ?_)
      (get?_unionMembers hb.templates hpaths t)
    refine PathItem.isUnion_of_union fun m x y z hx hy => ?_
    rw [← operation?_of_get? hitem] at hx
    rw [← operation?_of_get? hitem'] at hy
    exact Operation.isUnion_of_union (hb.statuses t m y hy) (ha.bodies t m x hx) (hb.bodies t m y hy)

/-- For each method under each template there is what one side has, or the union of both. -/
theorem IsUnion.operation (h : a.IsUnion b c) (t : String) (m : Method) :
    UnionOf Operation.IsUnion (a.operation? t m) (b.operation? t m) (c.operation? t m) := by
  have hempty : ({} : PathItem).operation? m = none := by cases m <;> rfl
  have hitem := h.items t
  rw [operation?, operation?, operation?, pathItem, pathItem, pathItem]
  revert hitem
  generalize a.paths.get? t = x
  generalize b.paths.get? t = y
  generalize c.paths.get? t = z
  rintro (_ | item | item | hjoint)
  · simp only [Option.getD_none, hempty]
    exact .neither
  · simp only [Option.getD_none, Option.getD_some, hempty]
    exact .none_right _
  · simp only [Option.getD_none, Option.getD_some, hempty]
    exact .none_left _
  · exact hjoint.operations m

theorem bodySchema?_eq_some_iff {doc : Document} {t : String} {m : Method} {s : Schema} :
    doc.bodySchema? t m = some s ↔
      ∃ op p, doc.operation? t m = some op ∧ op.body? = some p ∧ p.schema = s := by
  simp only [bodySchema?, Option.map_eq_some_iff, Option.bind_eq_some_iff]
  constructor
  · rintro ⟨p, ⟨op, hop, hp⟩, hs⟩
    exact ⟨op, p, hop, hp, hs⟩
  · rintro ⟨op, p, hop, hp, hs⟩
    exact ⟨p, ⟨op, hop, hp⟩, hs⟩

theorem replySchema?_eq_some_iff {doc : Document} {t : String} {m : Method} {status : String}
    {s : Schema} : doc.replySchema? t m status = some s ↔
      ∃ op r, doc.operation? t m = some op ∧ op.responses.get? status = some r
        ∧ r.schema = some s := by
  simp only [replySchema?, Option.bind_eq_some_iff]
  constructor
  · rintro ⟨r, ⟨op, hop, hr⟩, hs⟩
    exact ⟨op, r, hop, hr, hs⟩
  · rintro ⟨op, r, hop, hr, hs⟩
    exact ⟨r, ⟨op, hop, hr⟩, hs⟩

/-- Where there is a union, no cell clashes. -/
theorem IsUnion.not_clashes (h : a.IsUnion b c) : ¬a.Clashes b := by
  rintro (@⟨t, m, _, _, e, hfirst, hsecond, hfails⟩ |
      @⟨t, m, status, _, _, e, hfirst, hsecond, hfails⟩)
  · obtain ⟨op, p, hop, hp, rfl⟩ := bodySchema?_eq_some_iff.1 hfirst
    obtain ⟨op', q, hop', hq, rfl⟩ := bodySchema?_eq_some_iff.1 hsecond
    have hunion := h.operation t m
    rw [hop, hop'] at hunion
    obtain ⟨_, -, hjoint⟩ := hunion.exists_joint
    obtain ⟨s, hs⟩ := hjoint.join_bodies hp hq
    exact nomatch hs.symm.trans hfails
  · obtain ⟨op, r, hop, hr, hp⟩ := replySchema?_eq_some_iff.1 hfirst
    obtain ⟨op', r', hop', hr', hq⟩ := replySchema?_eq_some_iff.1 hsecond
    have hunion := h.operation t m
    rw [hop, hop'] at hunion
    obtain ⟨_, -, hjoint⟩ := hunion.exists_joint
    have hanswer := hjoint.answers status
    rw [hr, hr'] at hanswer
    obtain ⟨_, -, hanswer⟩ := hanswer.exists_joint
    have hschema := hanswer.schema
    rw [hp, hq] at hschema
    obtain ⟨_, -, hj⟩ := hschema.exists_joint
    exact nomatch hj.symm.trans hfails

/-- Where no cell clashes, there is a union. -/
theorem exists_union (ha : a.Combinable) (hb : b.Combinable) (h : ¬a.Clashes b) :
    ∃ c, a.union b = .ok c := by
  have hjoin : ∀ {p q : Schema}, (∀ e, Schema.join p q ≠ .error e) →
      ∃ s, Schema.join p q = .ok s := by
    intro p q hno
    cases hj : Schema.join p q with
    | ok s => exact ⟨s, rfl⟩
    | error e => exact absurd hj (hno e)
  have hops : ∀ t m op op', a.operation? t m = some op → b.operation? t m = some op' →
      ∃ c, op.union op' = .ok c := by
    intro t m op op' hop hop'
    refine Operation.exists_union (hb.statuses t m op' hop') (ha.bodies t m op hop)
      (hb.bodies t m op' hop') (fun p q hp hq => ?_) fun s r r' p q hr hr' hp hq => ?_
    · exact hjoin fun e he => h (.body (bodySchema?_eq_some_iff.2 ⟨op, p, hop, hp, rfl⟩)
        (bodySchema?_eq_some_iff.2 ⟨op', q, hop', hq, rfl⟩) he)
    · exact hjoin fun e he => h (.reply (replySchema?_eq_some_iff.2 ⟨op, r, hop, hr, hp⟩)
        (replySchema?_eq_some_iff.2 ⟨op', r', hop', hr', hq⟩) he)
  obtain ⟨paths, hpaths⟩ : ∃ paths, unionMembers PathItem.union a.paths b.paths = .ok paths := by
    refine exists_unionMembers hb.templates fun n hn => exists_unionOption ?_
    rintro item item' hitem ⟨⟩
    have hitem' := Members.get?_of_mem hb.templates hn
    refine PathItem.exists_union fun m => exists_unionOption fun op op' hop hop' => ?_
    exact hops n.1 m op op' ((operation?_of_get? hitem m).trans hop)
      ((operation?_of_get? hitem' m).trans hop')
  exact ⟨{ a with paths }, union_eq_ok_iff.2 ⟨ha.version, hb.version, hpaths, rfl⟩⟩

/-- **The union of two documents is cell-wise**: it fails exactly if both have a schema at some cell,
and the two have no join; otherwise each of its parts is that of one side, or the union of both. -/
theorem union_cellWise (ha : a.Combinable) (hb : b.Combinable) :
    ((∃ e, a.union b = .error e) ↔ a.Clashes b) ∧
    ∀ c, a.union b = .ok c → a.IsUnion b c ∧
      ∀ t m, (∃ op, c.operation? t m = some op) ↔
        (∃ op, a.operation? t m = some op) ∨ ∃ op, b.operation? t m = some op := by
  refine ⟨⟨?_, ?_⟩, fun c hc => ?_⟩
  · rintro ⟨e, he⟩
    by_contra hno
    obtain ⟨c, hc⟩ := exists_union ha hb hno
    exact nomatch he.symm.trans hc
  · intro hclash
    cases hc : a.union b with
    | ok c => exact absurd hclash (isUnion_of_union ha hb hc).not_clashes
    | error e => exact ⟨e, rfl⟩
  · have hunion := isUnion_of_union ha hb hc
    exact ⟨hunion, fun t m => (hunion.operation t m).exists_iff⟩

/-- Documents that can be combined can be combined with others afterwards. -/
theorem Combinable.union (ha : a.Combinable) (hb : b.Combinable) (h : a.union b = .ok c) :
    c.Combinable := by
  have hops : ∀ t m op, c.operation? t m = some op →
      op.responses.keys.Nodup ∧ OneBody op.parameters := by
    intro t m
    have hunion : UnionOf (fun x y z => Operation.union x y = .ok z) (a.operation? t m)
        (b.operation? t m) (c.operation? t m) :=
      unionOf_of_unionOption (fun _ _ _ _ _ hz => hz) (operation?_union hb.templates h t m)
    refine hunion.forall (fun x hx => ⟨ha.statuses t m x hx, ha.bodies t m x hx⟩)
      (fun y hy => ⟨hb.statuses t m y hy, hb.bodies t m y hy⟩) ?_
    rintro x y z ⟨hxs, hxb⟩ ⟨-, hyb⟩ hz
    obtain ⟨hresponses, hparameters, -⟩ := Operation.union_eq_ok_iff.1 hz
    refine ⟨?_, (holdsBoth_unionParameters hxb hyb hparameters).oneBody⟩
    rw [keys_unionMembers hresponses]
    exact nodup_addAll hxs _
  have htemplates : c.templates.Nodup := by
    rw [templates_union h]
    exact nodup_addAll ha.templates _
  have hversion : c.swagger = formatVersion := by
    rw [(union_eq_ok_iff.1 h).2.2.2]
    exact ha.version
  exact ⟨hversion, htemplates, fun t m op hop => (hops t m op hop).1,
    fun t m op hop => (hops t m op hop).2⟩

end

/-- A document with parameters and a body of one operation. -/
def itemsDocument : Document :=
  { paths := [("/a", { post := some {
      consumes := ["text/csv"]
      parameters := [.value { place := .query, name := "q" },
        .body { schema := .object [("k", .scalar .integer [])] ["k"] [] }]
      responses := [("200", { description := "A" })] } })] }

/-- Another one, in which a parameter is repeated, a content type is empty, and an answer has a
schema. -/
def linesDocument : Document :=
  { paths := [("/b", {}), ("/a", { post := some {
      consumes := ["", "text/xml", "text/csv", "text/xml"]
      parameters := [.value { place := .query, name := "r" }, .value { place := .query, name := "q" },
        .body { name := "lines", schema := .object [] [] [] },
        .value { place := .query, name := "r", type := "integer" },
        .value { place := .header, name := "q" }]
      responses := [("404", { description := "B" }),
        ("200", { description := "B", schema := some (.scalar .string []) })] } })] }

/-- The union of the two, whose new parameters stand in the order of the second document. -/
theorem union_cellWise_items : ∃ c op,
    itemsDocument.Combinable ∧ linesDocument.Combinable ∧
    itemsDocument.union linesDocument = .ok c ∧ itemsDocument.IsUnion linesDocument c ∧
    c.operation? "/a" .post = some op ∧ op.consumes = ["text/csv", "text/xml"] ∧
    op.parameters.map Parameter.slot
      = [some (.query, "q"), none, some (.query, "r"), some (.header, "q")] ∧
    op.responses.keys = ["200", "404"] := by
  have hitems : itemsDocument.Combinable :=
    combinable_of_operations rfl (by decide) (by decide)
  have hlines : linesDocument.Combinable :=
    combinable_of_operations rfl (by decide) (by decide)
  obtain ⟨c, hc⟩ : ∃ c, itemsDocument.union linesDocument = .ok c := ⟨_, rfl⟩
  obtain ⟨hunion, hops⟩ := (union_cellWise hitems hlines).2 c hc
  obtain ⟨op, hop⟩ := (hops "/a" .post).2 (Or.inl ⟨_, rfl⟩)
  refine ⟨c, op, hitems, hlines, hc, hunion, hop, ?_⟩
  cases hc
  cases hop
  decide

end Document

end ApiScribe
