/-
**Documents shown as data.**

Every object of a document is shown as its fields, of which absent ones are left out, and its free
members.  If the free members can be stored, neither get in the way of the other, and the whole is a
JSON value.

Main definitions:

* `ApiScribe.Storable` — free members that can be stored;
* `ApiScribe.Schema.shownObject`, `ApiScribe.Parameter.shown`, `ApiScribe.Document.shown` and others —
  the fields of the objects, absent ones included.

Main results:

* `ApiScribe.Parameter.exists_shows`, `ApiScribe.Document.exists_shows` and others — what is shown;
* `ApiScribe.Document.toJson?_eq` — **the data of a document are a JSON value**.
-/

import ApiScribe.Proofs.Document.Extras

set_option autoImplicit false

namespace ApiScribe

/-- Free members that stand beside fields of the given names and can be stored as JSON. -/
def Storable (names : List String) (extras : Extras) : Prop :=
  FreeBeside names extras ∧ JsonExtras extras

theorem isJson_textsToValue (texts : List String) : (textsToValue texts).IsJson := by
  refine Value.isJson_list_iff.2 fun v hv => ?_
  obtain ⟨t, -, rfl⟩ := List.mem_map.1 hv
  trivial

/-- A mapping is a JSON value if its members are. -/
theorem isJson_mapValues {α : Type} {f : α → Value} {ms : Members String α} (hn : ms.keys.Nodup)
    (h : ∀ m ∈ ms, (f m.2).IsJson) : (Value.object (ms.mapValues f)).IsJson := by
  refine Value.isJson_object_iff.2 ⟨by simpa using hn, fun m hm => ?_⟩
  obtain ⟨n, hn, rfl⟩ := List.mem_map.1 hm
  exact h n hn

/-- What is shown under a rule is a JSON value if its fields are. -/
theorem View.isJson_objectOf {fields : Members String Value} {extras : Extras}
    (hn : fields.keys.Nodup) (h : Storable fields.keys extras) (hfields : ∀ m ∈ fields, m.2.IsJson) :
    (({} : View).objectOf fields extras).IsJson := by
  rw [View.objectOf_eq hn h.1 h.2]
  exact isJson_object_shown hn h.1 h.2 hfields

/-! ### Schemas -/

namespace Schema

theorem propertiesToMembers_eq (nulls : Bool) (ps : List (String × Schema)) :
    propertiesToMembers nulls ps = Members.mapValues (Schema.toValue nulls) ps := by
  induction ps with
  | nil => rfl
  | cons p ps ih => rw [propertiesToMembers, ih]; rfl

theorem shownMembers_append {fields : Members String Value} {ex : Extras} (h : JsonExtras ex) :
    shownMembers false (fields ++ ex) = shownMembers false fields ++ ex := by
  have hex := shownMembers_eq_self h
  rw [shownMembers, if_neg Bool.false_ne_true] at hex ⊢
  rw [List.filter_append, hex]
  rfl

/-- The fields of an object schema. -/
def shownObject (ps : List (String × Schema)) (req : List String) : Members String Value :=
  [("type", .text "object"),
    ("properties", .object (Members.mapValues (Schema.toValue false) ps)),
    ("required", if req.isEmpty then .null else textsToValue req)]

/-- The fields of an array schema. -/
def shownArray (items : Option Schema) : Members String Value :=
  [("type", .text "array"), ("items", items.elim (.object []) (Schema.toValue false))]

/-- The fields of a scalar schema. -/
def shownScalar (kind : ScalarKind) : Members String Value := [("type", .text kind.name)]

section

variable {ex : Extras} (hex : JsonExtras ex)

include hex

theorem toValue_object (ps : List (String × Schema)) (req : List String) :
    (object ps req ex).toValue false
      = .object (shownMembers false (shownObject ps req) ++ ex) := by
  rw [toValue, shownMembers_append hex, propertiesToMembers_eq]
  rfl

theorem toValue_array (items : Option Schema) :
    (array items ex).toValue false = .object (shownMembers false (shownArray items) ++ ex) := by
  cases items with
  | none =>
      rw [toValue, shownMembers_append hex]
      rfl
  | some s =>
      rw [toValue, shownMembers_append hex]
      rfl

theorem toValue_scalar (kind : ScalarKind) :
    (scalar kind ex).toValue false = .object (shownMembers false (shownScalar kind) ++ ex) := by
  rw [toValue, shownMembers_append hex]
  rfl

end

theorem isNull_toValue (s : Schema) : (s.toValue false).isNull = false := by
  cases s with
  | array items ex => cases items <;> rfl
  | object ps req ex => rfl
  | scalar kind ex => rfl

/-- A schema is shown as a JSON value. -/
theorem isJson_toValue {s : Schema} (h : s.HasExtras Storable) : (s.toValue false).IsJson := by
  induction h with
  | @object ps req ex hn hown _ ih =>
      rw [toValue_object hown.2]
      refine isJson_object_shown (by simp [shownObject]) hown.1 hown.2 fun m hm => ?_
      simp only [shownObject, List.mem_cons, List.not_mem_nil, or_false] at hm
      rcases hm with rfl | rfl | rfl
      · trivial
      · exact isJson_mapValues hn fun p hp => ih p.1 p.2 hp
      · cases req with
        | nil => trivial
        | cons r req => exact isJson_textsToValue (r :: req)
  | @untyped ex hown =>
      rw [toValue_array hown.2]
      refine isJson_object_shown (by simp [shownArray]) hown.1 hown.2 fun m hm => ?_
      simp only [shownArray, List.mem_cons, List.not_mem_nil, or_false] at hm
      rcases hm with rfl | rfl
      · trivial
      · exact Value.isJson_object_iff.2 ⟨List.nodup_nil, by simp⟩
  | @array s ex hown hitems ih =>
      rw [toValue_array hown.2]
      refine isJson_object_shown (by simp [shownArray]) hown.1 hown.2 fun m hm => ?_
      simp only [shownArray, List.mem_cons, List.not_mem_nil, or_false] at hm
      rcases hm with rfl | rfl
      · trivial
      · exact ih
  | @scalar kind ex hown =>
      rw [toValue_scalar hown.2]
      refine isJson_object_shown (by simp [shownScalar]) hown.1 hown.2 fun m hm => ?_
      rw [List.mem_singleton.1 hm]
      trivial

end Schema

/-! ### Parameters and answers -/

/-- The fields of a parameter. -/
def Parameter.shown : Parameter → Members String Value
  | .value p =>
    [("in", .text p.place.name), ("name", .text p.name), ("type", .text p.type),
      ("required", .atom (.bool p.required)), ("description", p.description.elim .null .text)]
  | .body p => [("in", .text "body"), ("name", .text p.name), ("schema", p.schema.toValue false)]

/-- The free members of a parameter. -/
def Parameter.extras : Parameter → Extras
  | .value p => p.extras
  | .body p => p.extras

theorem Parameter.toValue_eq (p : Parameter) :
    p.toValue {} = ({} : View).objectOf p.shown p.extras := by
  cases p <;> rfl

theorem Parameter.nodup_shown (p : Parameter) : p.shown.keys.Nodup := by
  cases p with
  | value p => change ["in", "name", "type", "required", "description"].Nodup; decide
  | body p => change ["in", "name", "schema"].Nodup; decide

theorem Parameter.HasExtras.storable {p : Parameter} (h : p.HasExtras Storable) :
    Storable p.shown.keys p.extras := by
  cases p with
  | value p => exact h
  | body p => exact h.1

theorem Parameter.exists_shows {p : Parameter} (h : p.HasExtras Storable) :
    ∃ ms, p.toValue {} = .map ms ∧ Shows ms p.shown p.extras := by
  rw [p.toValue_eq]
  exact View.exists_shows p.nodup_shown h.storable.1 h.storable.2

theorem Parameter.isJson_toValue {p : Parameter} (h : p.HasExtras Storable) :
    (p.toValue {}).IsJson := by
  rw [p.toValue_eq]
  refine View.isJson_objectOf p.nodup_shown h.storable fun m hm => ?_
  cases p with
  | value p =>
      simp only [shown, List.mem_cons, List.not_mem_nil, or_false] at hm
      rcases hm with rfl | rfl | rfl | rfl | rfl
      · trivial
      · trivial
      · trivial
      · trivial
      · cases p.description <;> trivial
  | body p =>
      simp only [shown, List.mem_cons, List.not_mem_nil, or_false] at hm
      rcases hm with rfl | rfl | rfl
      · trivial
      · trivial
      · exact Schema.isJson_toValue h.2

theorem isJson_parametersToValue {ps : List Parameter} (h : ∀ p ∈ ps, p.HasExtras Storable) :
    (parametersToValue {} ps).IsJson := by
  refine Value.isJson_list_iff.2 fun v hv => ?_
  obtain ⟨p, hp, rfl⟩ := List.mem_map.1 hv
  exact Parameter.isJson_toValue (h p hp)

/-- The fields of an answer. -/
def Response.shown (r : Response) : Members String Value :=
  [("description", .text r.description), ("schema", schemaToValue {} r.schema)]

theorem Response.nodup_shown (r : Response) : r.shown.keys.Nodup := by
  change ["description", "schema"].Nodup
  decide

theorem Response.exists_shows {r : Response} (h : r.HasExtras Storable) :
    ∃ ms, r.toValue {} = .map ms ∧ Shows ms r.shown r.extras :=
  View.exists_shows r.nodup_shown h.own.1 h.own.2

theorem Response.isJson_toValue {r : Response} (h : r.HasExtras Storable) :
    (r.toValue {}).IsJson := by
  refine View.isJson_objectOf r.nodup_shown h.own fun m hm => ?_
  simp only [List.mem_cons, List.not_mem_nil, or_false] at hm
  rcases hm with rfl | rfl
  · trivial
  · cases hs : r.schema with
    | none => trivial
    | some s => exact Schema.isJson_toValue (h.schema s hs)

/-! ### Operations and path items -/

/-- The fields of an operation. -/
def Operation.shown (op : Operation) : Members String Value :=
  [("consumes", textsToValue op.consumes), ("produces", textsToValue op.produces),
    ("parameters", if op.parameters.isEmpty then .null else parametersToValue {} op.parameters),
    ("responses", .object (op.responses.mapValues (Response.toValue {})))]

theorem Operation.toValue_eq (op : Operation) :
    op.toValue {} = ({} : View).objectOf op.shown op.extras := by
  rw [Operation.toValue, Operation.shown, View.objectOf, View.objectOf]
  cases op.parameters <;> rfl

theorem Operation.isNull_toValue (op : Operation) : (op.toValue {}).isNull = false := rfl

theorem Operation.nodup_shown (op : Operation) : op.shown.keys.Nodup := by
  change ["consumes", "produces", "parameters", "responses"].Nodup
  decide

theorem Operation.exists_shows {op : Operation} (h : op.HasExtras Storable) :
    ∃ ms, op.toValue {} = .map ms ∧ Shows ms op.shown op.extras := by
  rw [op.toValue_eq]
  exact View.exists_shows op.nodup_shown h.own.1 h.own.2

theorem Operation.isJson_toValue {op : Operation} (h : op.HasExtras Storable) :
    (op.toValue {}).IsJson := by
  rw [op.toValue_eq]
  refine View.isJson_objectOf op.nodup_shown h.own fun m hm => ?_
  simp only [shown, List.mem_cons, List.not_mem_nil, or_false] at hm
  rcases hm with rfl | rfl | rfl | rfl
  · exact isJson_textsToValue _
  · exact isJson_textsToValue _
  · by_cases hp : op.parameters.isEmpty = true
    · rw [if_pos hp]
      trivial
    · rw [if_neg hp]
      exact isJson_parametersToValue h.parameters
  · exact isJson_mapValues h.statuses fun r hr => Response.isJson_toValue (h.responses r hr)

/-- The fields of a path item. -/
def PathItem.shown (item : PathItem) : Members String Value :=
  Method.all.map (fun m => (m.name, (item.operation? m).elim .null (Operation.toValue {})))
    ++ [("parameters", item.parameters.elim .null (parametersToValue {}))]

theorem PathItem.nodup_shown (item : PathItem) : item.shown.keys.Nodup := by
  change (Method.all.map Method.name ++ ["parameters"]).Nodup
  decide

theorem PathItem.exists_shows {item : PathItem} (h : item.HasExtras Storable) :
    ∃ ms, item.toValue {} = .map ms ∧ Shows ms item.shown item.extras :=
  View.exists_shows item.nodup_shown h.own.1 h.own.2

theorem PathItem.isJson_toValue {item : PathItem} (h : item.HasExtras Storable) :
    (item.toValue {}).IsJson := by
  refine View.isJson_objectOf item.nodup_shown h.own fun m hm => ?_
  rcases List.mem_append.1 hm with hm | hm
  · obtain ⟨n, -, rfl⟩ := List.mem_map.1 hm
    cases hop : item.operation? n with
    | none => trivial
    | some op => exact Operation.isJson_toValue (h.operations n op hop)
  · rw [List.mem_singleton.1 hm]
    cases hp : item.parameters with
    | none => trivial
    | some ps => exact isJson_parametersToValue (h.parameters ps hp)

/-! ### Documents -/

/-- The fields of a self-description. -/
def Info.shown (info : Info) : Members String Value :=
  [("title", .text info.title), ("version", .text info.version)]

theorem Info.nodup_shown (info : Info) : info.shown.keys.Nodup := by
  change ["title", "version"].Nodup
  decide

theorem Info.exists_shows {info : Info} (h : Storable ["title", "version"] info.extras) :
    ∃ ms, info.toValue {} = .map ms ∧ Shows ms info.shown info.extras :=
  View.exists_shows info.nodup_shown h.1 h.2

theorem Info.isJson_toValue {info : Info} (h : Storable ["title", "version"] info.extras) :
    (info.toValue {}).IsJson := by
  refine View.isJson_objectOf info.nodup_shown h fun m hm => ?_
  simp only [List.mem_cons, List.not_mem_nil, or_false] at hm
  rcases hm with rfl | rfl <;> trivial

namespace Document

/-- The fields of a document. -/
def shown (doc : Document) : Members String Value :=
  [("swagger", .text doc.swagger), ("info", doc.info.toValue {}),
    ("paths", .object (doc.paths.mapValues (PathItem.toValue {})))]

theorem nodup_shown (doc : Document) : doc.shown.keys.Nodup := by
  change ["swagger", "info", "paths"].Nodup
  decide

variable {doc : Document}

theorem exists_shows (h : doc.HasExtras Storable) :
    ∃ ms, doc.toValue {} = .map ms ∧ Shows ms doc.shown doc.extras :=
  View.exists_shows doc.nodup_shown h.own.1 h.own.2

/-- A document is shown as a JSON value. -/
theorem isJson_toValue (h : doc.HasExtras Storable) : (doc.toValue {}).IsJson := by
  refine View.isJson_objectOf doc.nodup_shown h.own fun m hm => ?_
  simp only [List.mem_cons, List.not_mem_nil, or_false] at hm
  rcases hm with rfl | rfl | rfl
  · trivial
  · exact Info.isJson_toValue h.info
  · exact isJson_mapValues h.templates fun t ht => PathItem.isJson_toValue (h.paths t ht)

/-- **The data of a document are a JSON value**, which is stored as it is. -/
theorem toJson?_eq (h : doc.HasExtras Storable) : doc.toJson? = some (doc.toValue {}) :=
  Value.jsonForm?_of_isJson (isJson_toValue h)

end Document

end ApiScribe
