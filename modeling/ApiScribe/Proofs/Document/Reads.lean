/-
**What an object is read from.**

An object of a document is read from the members of a mapping: each field from what stands under its
names, and the free members from what no field takes.  For each kind of object this is said once, by a
structure with the fields of the object.  What else there is to say of reading goes by these
structures, and does not look at how the checks of the fields are put together.

Main definitions: `ApiScribe.Operation.ReadFrom` and its companions — each field of an object is what
the members say.

Main results:

* `ApiScribe.Schema.objectOfMembers_eq_valid_iff` and its companions — what a schema of each kind is
  read from;
* `ApiScribe.Operation.ofValue_map_eq_valid_iff` and its companions — **an object is read exactly if
  each of its fields is**.
-/

import ApiScribe.Proofs.Validation.Fields

set_option autoImplicit false

namespace ApiScribe

variable {α : Type} {ms : Members Atom Value}

/-- Only mappings are read as objects. -/
theorem asObject_eq_valid {v : Value} {read : Members Atom Value → Checked α} {a : α}
    (h : asObject v read = .valid a) : ∃ ms, v = .map ms ∧ read ms = .valid a := by
  cases v with
  | map ms => exact ⟨ms, rfl, h⟩
  | atom _ => cases h
  | list _ => cases h
  | tuple _ => cases h
  | set _ => cases h

/-- A field of one name is what stands there, or its default. -/
theorem optionalField_eq_valid_iff {name : String} {default a : α} {read : Value → Checked α} :
    optionalField ms [name] default read = .valid a ↔
      (ms.get? (.text name)).elim (.valid default) read = .valid a := by
  rw [optionalField, findField]
  cases ms.get? (.text name) with
  | none => rfl
  | some v => exact Checked.under_eq_valid_iff

/-! ### Schemas -/

namespace Schema

/-- The properties of an object schema are read as any other field. -/
theorem propertiesField_eq_valid_iff {ps : Members String Schema} :
    propertiesField ms = .valid ps ↔
      optionalField ms ["properties"] [] propertiesOfValue = .valid ps := by
  rw [optionalField_eq_valid_iff]
  induction ms with
  | nil => rfl
  | cons m ms ih =>
      obtain ⟨k, v⟩ := m
      rw [propertiesField, Members.get?_cons]
      split
      · rfl
      · exact ih

/-- And so are the items of an array schema. -/
theorem itemsField_eq_valid_iff {items : Option Schema} :
    itemsField ms = .valid items ↔ optionalField ms ["items"] none itemsOfValue = .valid items := by
  rw [optionalField_eq_valid_iff]
  induction ms with
  | nil => rfl
  | cons m ms ih =>
      obtain ⟨k, v⟩ := m
      rw [itemsField, Members.get?_cons]
      split
      · rfl
      · exact ih

theorem propertiesOfMembers_eq (ms : Members Atom Value) :
    propertiesOfMembers ms = readMembersWith Schema.ofValue ms := by
  induction ms with
  | nil => rfl
  | cons m ms ih =>
      obtain ⟨k, v⟩ := m
      rw [propertiesOfMembers, readMembersWith, ih]

/-- Properties are read as any other mapping. -/
theorem propertiesOfValue_eq (v : Value) :
    propertiesOfValue v = readMapping Schema.ofValue v := by
  cases v with
  | map ms =>
      rw [propertiesOfValue, propertiesOfMembers_eq]
      rfl
  | atom _ => rfl
  | list _ => rfl
  | tuple _ => rfl
  | set _ => rfl

/-- A schema of items is read as any schema. -/
theorem ofValue_of_itemsOfValue {v : Value} {s : Schema} (h : itemsOfValue v = .valid (some s)) :
    Schema.ofValue v = .valid s := by
  cases v with
  | map ms =>
      rw [itemsOfValue] at h
      rw [Schema.ofValue]
      cases htag : memberTag ms with
      | untyped =>
          rw [htag] at h
          obtain ⟨u, -, heq⟩ := Checked.map_eq_valid_iff.1 (Checked.under_eq_valid_iff.1 h)
          cases heq
      | _ =>
          rw [htag] at h
          obtain ⟨t, ht, heq⟩ := Checked.map_eq_valid_iff.1 h
          cases heq
          exact ht
  | _ => cases h

variable {s : Schema}

theorem objectOfMembers_eq_valid_iff {properties : Checked (Members String Schema)} :
    objectOfMembers ms properties = .valid s ↔ ∃ type ps req ex,
      optionalField ms ["type"] "object" (readOneOf ["object"]) = .valid type
        ∧ properties = .valid ps ∧ optionalField ms ["required"] [] readRequired = .valid req
        ∧ freeMembers ms objectFields = .valid ex ∧ s = .object ps req ex := by
  constructor
  · intro h
    obtain ⟨_, ex, h₁, hex, rfl⟩ := Checked.seq_eq_valid_iff.1 h
    obtain ⟨_, req, h₂, hreq, rfl⟩ := Checked.seq_eq_valid_iff.1 h₁
    obtain ⟨_, ps, h₃, hps, rfl⟩ := Checked.seq_eq_valid_iff.1 h₂
    obtain ⟨type, htype, rfl⟩ := Checked.map_eq_valid_iff.1 h₃
    exact ⟨type, ps, req, ex, htype, Checked.under_eq_valid_iff.1 hps, hreq, hex, rfl⟩
  · rintro ⟨type, ps, req, ex, htype, hps, hreq, hex, rfl⟩
    rw [objectOfMembers, htype, hps, hreq, hex]
    rfl

theorem arrayOfMembers_eq_valid_iff {items : Checked (Option Schema)} :
    arrayOfMembers ms items = .valid s ↔ ∃ type t ex,
      optionalField ms ["type"] "array" (readOneOf ["array"]) = .valid type ∧ items = .valid t
        ∧ freeMembers ms arrayFields = .valid ex ∧ s = .array t ex := by
  constructor
  · intro h
    obtain ⟨_, ex, h₁, hex, rfl⟩ := Checked.seq_eq_valid_iff.1 h
    obtain ⟨_, t, h₂, ht, rfl⟩ := Checked.seq_eq_valid_iff.1 h₁
    obtain ⟨type, htype, rfl⟩ := Checked.map_eq_valid_iff.1 h₂
    exact ⟨type, t, ex, htype, Checked.under_eq_valid_iff.1 ht, hex, rfl⟩
  · rintro ⟨type, t, ex, htype, ht, hex, rfl⟩
    rw [arrayOfMembers, htype, ht, hex]
    rfl

theorem scalarOfMembers_eq_valid_iff :
    scalarOfMembers ms = .valid s ↔ ∃ kind ex, requiredField ms ["type"] readScalarKind = .valid kind
      ∧ freeMembers ms scalarFields = .valid ex ∧ s = .scalar kind ex := by
  constructor
  · intro h
    obtain ⟨_, ex, h₁, hex, rfl⟩ := Checked.seq_eq_valid_iff.1 h
    obtain ⟨kind, hkind, rfl⟩ := Checked.map_eq_valid_iff.1 h₁
    exact ⟨kind, ex, hkind, hex, rfl⟩
  · rintro ⟨kind, ex, hkind, hex, rfl⟩
    rw [scalarOfMembers, hkind, hex]
    rfl

end Schema

/-! ### Parameters and answers -/

/-- A parameter that is a single value is what the members say. -/
structure ValueParameter.ReadFrom (ms : Members Atom Value) (p : ValueParameter) : Prop where
  /-- The place. -/
  place : requiredField ms placeNames readPlace = .valid p.place
  /-- The name. -/
  name : requiredField ms ["name"] readText = .valid p.name
  /-- The type. -/
  type : optionalField ms ["type"] "string" readText = .valid p.type
  /-- Whether it is required. -/
  required : optionalField ms ["required"] false readTruth = .valid p.required
  /-- The description. -/
  description : optionalField ms ["description"] none (readNullable readText) = .valid p.description
  /-- The free members. -/
  extras : freeMembers ms [placeNames, ["name"], ["type"], ["required"], ["description"]]
    = .valid p.extras

theorem ValueParameter.ofValue_map_eq_valid_iff {p : ValueParameter} :
    ValueParameter.ofValue (.map ms) = .valid p ↔ p.ReadFrom ms := by
  constructor
  · intro h
    obtain ⟨_, ex, h₁, hex, rfl⟩ := Checked.seq_eq_valid_iff.1 h
    obtain ⟨_, description, h₂, hdescription, rfl⟩ := Checked.seq_eq_valid_iff.1 h₁
    obtain ⟨_, required, h₃, hrequired, rfl⟩ := Checked.seq_eq_valid_iff.1 h₂
    obtain ⟨_, type, h₄, htype, rfl⟩ := Checked.seq_eq_valid_iff.1 h₃
    obtain ⟨_, name, h₅, hname, rfl⟩ := Checked.seq_eq_valid_iff.1 h₄
    obtain ⟨place, hplace, rfl⟩ := Checked.map_eq_valid_iff.1 h₅
    exact ⟨hplace, hname, htype, hrequired, hdescription, hex⟩
  · rintro ⟨hplace, hname, htype, hrequired, hdescription, hex⟩
    rw [ValueParameter.ofValue, asObject, hplace, hname, htype, hrequired, hdescription, hex]
    rfl

/-- The body of a request is what the members say. -/
structure BodyParameter.ReadFrom (ms : Members Atom Value) (p : BodyParameter) : Prop where
  /-- The place can only be one. -/
  place : ∃ place, optionalField ms placeNames "body" (readOneOf ["body"]) = .valid place
  /-- The name. -/
  name : optionalField ms ["name"] "body" readText = .valid p.name
  /-- The schema. -/
  schema : requiredField ms schemaNames Schema.ofValue = .valid p.schema
  /-- The free members. -/
  extras : freeMembers ms [placeNames, ["name"], schemaNames] = .valid p.extras

theorem BodyParameter.ofValue_map_eq_valid_iff {p : BodyParameter} :
    BodyParameter.ofValue (.map ms) = .valid p ↔ p.ReadFrom ms := by
  constructor
  · intro h
    obtain ⟨_, ex, h₁, hex, rfl⟩ := Checked.seq_eq_valid_iff.1 h
    obtain ⟨_, schema, h₂, hschema, rfl⟩ := Checked.seq_eq_valid_iff.1 h₁
    obtain ⟨_, name, h₃, hname, rfl⟩ := Checked.seq_eq_valid_iff.1 h₂
    obtain ⟨place, hplace, rfl⟩ := Checked.map_eq_valid_iff.1 h₃
    exact ⟨⟨place, hplace⟩, hname, hschema, hex⟩
  · rintro ⟨⟨place, hplace⟩, hname, hschema, hex⟩
    rw [BodyParameter.ofValue, asObject, hplace, hname, hschema, hex]
    rfl

/-- An answer is what the members say. -/
structure Response.ReadFrom (ms : Members Atom Value) (r : Response) : Prop where
  /-- The description. -/
  description : requiredField ms ["description"] readText = .valid r.description
  /-- The schema. -/
  schema : optionalField ms schemaNames none (readNullable Schema.ofValue) = .valid r.schema
  /-- The free members. -/
  extras : freeMembers ms [["description"], schemaNames] = .valid r.extras

theorem Response.ofValue_map_eq_valid_iff {r : Response} :
    Response.ofValue (.map ms) = .valid r ↔ r.ReadFrom ms := by
  constructor
  · intro h
    obtain ⟨_, ex, h₁, hex, rfl⟩ := Checked.seq_eq_valid_iff.1 h
    obtain ⟨_, schema, h₂, hschema, rfl⟩ := Checked.seq_eq_valid_iff.1 h₁
    obtain ⟨description, hdescription, rfl⟩ := Checked.map_eq_valid_iff.1 h₂
    exact ⟨hdescription, hschema, hex⟩
  · rintro ⟨hdescription, hschema, hex⟩
    rw [Response.ofValue, asObject, hdescription, hschema, hex]
    rfl

/-! ### Operations and path items -/

/-- An operation is what the members say. -/
structure Operation.ReadFrom (ms : Members Atom Value) (op : Operation) : Prop where
  /-- The content types of requests. -/
  consumes : optionalField ms ["consumes"] [] (readSequence readText) = .valid op.consumes
  /-- The content types of replies. -/
  produces : optionalField ms ["produces"] [] (readSequence readText) = .valid op.produces
  /-- The parameters. -/
  parameters : optionalField ms ["parameters"] [] (readSequence Parameter.ofValue)
    = .valid op.parameters
  /-- The answers. -/
  responses : optionalField ms ["responses"] [] readResponses = .valid op.responses
  /-- The free members. -/
  extras : freeMembers ms [["consumes"], ["produces"], ["parameters"], ["responses"]]
    = .valid op.extras

theorem Operation.ofValue_map_eq_valid_iff {op : Operation} :
    Operation.ofValue (.map ms) = .valid op ↔ op.ReadFrom ms := by
  constructor
  · intro h
    obtain ⟨_, ex, h₁, hex, rfl⟩ := Checked.seq_eq_valid_iff.1 h
    obtain ⟨_, responses, h₂, hresponses, rfl⟩ := Checked.seq_eq_valid_iff.1 h₁
    obtain ⟨_, parameters, h₃, hparameters, rfl⟩ := Checked.seq_eq_valid_iff.1 h₂
    obtain ⟨_, produces, h₄, hproduces, rfl⟩ := Checked.seq_eq_valid_iff.1 h₃
    obtain ⟨consumes, hconsumes, rfl⟩ := Checked.map_eq_valid_iff.1 h₄
    exact ⟨hconsumes, hproduces, hparameters, hresponses, hex⟩
  · rintro ⟨hconsumes, hproduces, hparameters, hresponses, hex⟩
    rw [Operation.ofValue, asObject, hconsumes, hproduces, hparameters, hresponses, hex]
    rfl

/-- A path item is what the members say. -/
structure PathItem.ReadFrom (ms : Members Atom Value) (item : PathItem) : Prop where
  /-- The operations of all methods. -/
  operations : ∀ m, operationField ms m = .valid (item.operation? m)
  /-- The shared parameters. -/
  parameters : optionalField ms ["parameters"] none (readNullable (readSequence Parameter.ofValue))
    = .valid item.parameters
  /-- The free members. -/
  extras : freeMembers ms (Method.all.map (fun m => [m.name]) ++ [["parameters"]])
    = .valid item.extras

theorem PathItem.ofValue_map_eq_valid_iff {item : PathItem} :
    PathItem.ofValue (.map ms) = .valid item ↔ item.ReadFrom ms := by
  constructor
  · intro h
    obtain ⟨_, ex, h₁, hex, rfl⟩ := Checked.seq_eq_valid_iff.1 h
    obtain ⟨_, ps, h₂, hps, rfl⟩ := Checked.seq_eq_valid_iff.1 h₁
    obtain ⟨_, patch, h₃, hpatch, rfl⟩ := Checked.seq_eq_valid_iff.1 h₂
    obtain ⟨_, head, h₄, hhead, rfl⟩ := Checked.seq_eq_valid_iff.1 h₃
    obtain ⟨_, options, h₅, hoptions, rfl⟩ := Checked.seq_eq_valid_iff.1 h₄
    obtain ⟨_, delete, h₆, hdelete, rfl⟩ := Checked.seq_eq_valid_iff.1 h₅
    obtain ⟨_, post, h₇, hpost, rfl⟩ := Checked.seq_eq_valid_iff.1 h₆
    obtain ⟨_, put, h₈, hput, rfl⟩ := Checked.seq_eq_valid_iff.1 h₇
    obtain ⟨get, hget, rfl⟩ := Checked.map_eq_valid_iff.1 h₈
    refine ⟨fun m => ?_, hps, hex⟩
    cases m <;> assumption
  · rintro ⟨hop, hps, hex⟩
    rw [PathItem.ofValue, asObject, hop .get, hop .put, hop .post, hop .delete, hop .options,
      hop .head, hop .patch, hps, hex]
    rfl

/-! ### Documents -/

/-- What a document says about itself is what the members say. -/
structure Info.ReadFrom (ms : Members Atom Value) (info : Info) : Prop where
  /-- The title. -/
  title : optionalField ms ["title"] "Generated Schema" readText = .valid info.title
  /-- The version. -/
  version : optionalField ms ["version"] "1.0" readText = .valid info.version
  /-- The free members. -/
  extras : freeMembers ms [["title"], ["version"]] = .valid info.extras

theorem Info.ofValue_map_eq_valid_iff {info : Info} :
    Info.ofValue (.map ms) = .valid info ↔ info.ReadFrom ms := by
  constructor
  · intro h
    obtain ⟨_, ex, h₁, hex, rfl⟩ := Checked.seq_eq_valid_iff.1 h
    obtain ⟨_, version, h₂, hversion, rfl⟩ := Checked.seq_eq_valid_iff.1 h₁
    obtain ⟨title, htitle, rfl⟩ := Checked.map_eq_valid_iff.1 h₂
    exact ⟨htitle, hversion, hex⟩
  · rintro ⟨htitle, hversion, hex⟩
    rw [Info.ofValue, asObject, htitle, hversion, hex]
    rfl

/-- A document is what the members say. -/
structure Document.ReadFrom (ms : Members Atom Value) (doc : Document) : Prop where
  /-- The version of the format. -/
  swagger : optionalField ms ["swagger"] formatVersion readText = .valid doc.swagger
  /-- What it says about itself. -/
  info : optionalField ms ["info"] {} Info.ofValue = .valid doc.info
  /-- The path templates. -/
  paths : optionalField ms ["paths"] [] readPaths = .valid doc.paths
  /-- The free members. -/
  extras : freeMembers ms [["swagger"], ["info"], ["paths"]] = .valid doc.extras

theorem Document.ofValue_map_eq_valid_iff {doc : Document} :
    Document.ofValue (.map ms) = .valid doc ↔ doc.ReadFrom ms := by
  constructor
  · intro h
    obtain ⟨_, ex, h₁, hex, rfl⟩ := Checked.seq_eq_valid_iff.1 h
    obtain ⟨_, paths, h₂, hpaths, rfl⟩ := Checked.seq_eq_valid_iff.1 h₁
    obtain ⟨_, info, h₃, hinfo, rfl⟩ := Checked.seq_eq_valid_iff.1 h₂
    obtain ⟨swagger, hswagger, rfl⟩ := Checked.map_eq_valid_iff.1 h₃
    exact ⟨hswagger, hinfo, hpaths, hex⟩
  · rintro ⟨hswagger, hinfo, hpaths, hex⟩
    rw [Document.ofValue, asObject, hswagger, hinfo, hpaths, hex]
    rfl

end ApiScribe
