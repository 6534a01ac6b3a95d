/-
**Documents are restored from their data.**

A document shown as data is read back as it was: absent members become absent again by their
defaults, a schema and a parameter are read as the variant that they were, and free members stay free.
One thing can go wrong.  The schema of an answer has a second name, and where an answer without a
schema has a free member of that name, the free member is taken for the schema.

Main definition: `ApiScribe.Response.Restorable` — an answer whose free members stay free.

Main results:

* `ApiScribe.Schema.ofValue_toValue`, `ApiScribe.Parameter.ofValue_toValue` — schemas and parameters
  are always restored;
* `ApiScribe.Document.parse_toJson?_iff` — **which documents are restored**;
* `ApiScribe.Document.parse_toJson?_ne_strayAnswer` — one that is not.
-/

import ApiScribe.Proofs.Document.Parse
import ApiScribe.Proofs.Document.Shown

set_option autoImplicit false

namespace ApiScribe

/-! ### Schemas -/

namespace Schema

/-- The kind of schema is told by the member for its type alone. -/
theorem memberTag_of_get? {ms : Members Atom Value} {v : Value}
    (h : ms.get? (.text "type") = some v) : memberTag ms = memberTag [(.text "type", v)] := by
  rw [memberTag, memberTag, h]
  rfl

theorem readScalarKind_name (kind : ScalarKind) :
    readScalarKind (.text kind.name) = .valid kind := by
  cases kind <;> rfl

/-- Required names are read back, and none at all as no names. -/
theorem readRequired_texts (req : List String) :
    readRequired (.list (req.map .text)) = .valid req := by
  have hread : readSequence readText (.list (req.map .text)) = .valid req := readTexts req
  rw [readRequired, readNullable, hread]
  rfl

/-- An object schema is restored if its properties are. -/
theorem objectOfMembers_shown {ms : Members Atom Value} {ps : List (String × Schema)}
    {req : List String} {ex : Extras} (h : Shows ms (shownObject ps req) ex)
    (hps : ∀ p ∈ ps, Schema.ofValue (p.2.toValue false) = .valid p.2)
    (hn : (Members.keys ps).Nodup) :
    objectOfMembers ms (propertiesField ms) = .valid (.object ps req ex) := by
  have htype : optionalField ms ["type"] "object" (readOneOf ["object"]) = .valid "object" :=
    h.optionalField (v := .text "object") rfl (by simp) (by simp) nofun fun _ => rfl
  have hproperties : propertiesField ms = .valid ps := by
    rw [propertiesField_eq_valid_iff]
    refine h.optionalField (v := .object (Members.mapValues (Schema.toValue false) ps)) rfl (by simp)
      (by simp) nofun fun _ => ?_
    rw [propertiesOfValue_eq]
    exact (ofList_readMembersWith_eq_valid_iff hn).2 hps
  have hrequired : optionalField ms ["required"] [] readRequired = .valid req :=
    h.optionalField_list (g := fun req => .list (req.map .text)) rfl rfl (readRequired_texts req)
  have hfree : freeMembers ms objectFields = .valid ex :=
    h.freeMembers (.cons ⟨[], rfl, by simp⟩ (.cons ⟨[], rfl, by simp⟩ (.cons ⟨[], rfl, by simp⟩ .nil)))
  exact objectOfMembers_eq_valid_iff.2 ⟨_, ps, req, ex, htype, hproperties, hrequired, hfree, rfl⟩

/-- An array schema is restored if its items are. -/
theorem arrayOfMembers_shown {ms : Members Atom Value} {items : Option Schema} {ex : Extras}
    (h : Shows ms (shownArray items) ex)
    (hitems : ∀ s, items = some s → itemsOfValue (s.toValue false) = .valid (some s)) :
    arrayOfMembers ms (itemsField ms) = .valid (.array items ex) := by
  have htype : optionalField ms ["type"] "array" (readOneOf ["array"]) = .valid "array" :=
    h.optionalField (v := .text "array") rfl (by simp) (by simp) nofun fun _ => rfl
  have hread : itemsField ms = .valid items := by
    rw [itemsField_eq_valid_iff]
    refine h.optionalField (v := items.elim (.object []) (Schema.toValue false)) rfl (by simp)
      (by simp) (fun hnull => ?_) fun _ => ?_
    · cases items with
      | none => rfl
      | some s => exact absurd hnull (by simp [s.isNull_toValue])
    · cases items with
      | none => rfl
      | some s => exact hitems s rfl
  have hfree : freeMembers ms arrayFields = .valid ex :=
    h.freeMembers (.cons ⟨[], rfl, by simp⟩ (.cons ⟨[], rfl, by simp⟩ .nil))
  exact arrayOfMembers_eq_valid_iff.2 ⟨_, items, ex, htype, hread, hfree, rfl⟩

/-- A scalar schema is restored. -/
theorem scalarOfMembers_shown {ms : Members Atom Value} {kind : ScalarKind} {ex : Extras}
    (h : Shows ms (shownScalar kind) ex) : scalarOfMembers ms = .valid (.scalar kind ex) := by
  have htype : requiredField ms ["type"] readScalarKind = .valid kind :=
    h.requiredField (v := .text kind.name) rfl rfl (readScalarKind_name kind)
  have hfree : freeMembers ms scalarFields = .valid ex :=
    h.freeMembers (.cons ⟨[], rfl, by simp⟩ .nil)
  exact scalarOfMembers_eq_valid_iff.2 ⟨kind, ex, htype, hfree, rfl⟩

/-- **A schema is restored from its data**, be it items or not. -/
theorem ofValue_toValue {s : Schema} (h : s.HasExtras Storable) :
    Schema.ofValue (s.toValue false) = .valid s ∧ itemsOfValue (s.toValue false) = .valid (some s) := by
  induction h with
  | @object ps req ex hn hown _ ih =>
      obtain ⟨hfree, hjson⟩ := hown
      rw [toValue_object hjson]
      have hshows : Shows (shownMembers false (shownObject ps req) ++ ex).named (shownObject ps req) ex :=
        .object (by simp [shownObject]) hfree
      have htag : memberTag (shownMembers false (shownObject ps req) ++ ex).named = .object :=
        memberTag_of_get? (hshows.get?_shown rfl rfl)
      have hread := objectOfMembers_shown hshows (fun p hp => (ih p.1 p.2 hp).1) hn
      rw [Value.object, ← Members.named, Schema.ofValue, itemsOfValue, htag, hread]
      exact ⟨rfl, rfl⟩
  | @untyped ex hown =>
      obtain ⟨hfree, hjson⟩ := hown
      rw [toValue_array hjson]
      have hshows : Shows (shownMembers false (shownArray none) ++ ex).named (shownArray none) ex :=
        .object (by simp [shownArray]) hfree
      have htag : memberTag (shownMembers false (shownArray none) ++ ex).named = .array :=
        memberTag_of_get? (hshows.get?_shown rfl rfl)
      have hread := arrayOfMembers_shown hshows (fun _ h => by cases h)
      rw [Value.object, ← Members.named, Schema.ofValue, itemsOfValue, htag, hread]
      exact ⟨rfl, rfl⟩
  | @array s ex hown hitems ih =>
      obtain ⟨hfree, hjson⟩ := hown
      rw [toValue_array hjson]
      have hshows : Shows (shownMembers false (shownArray (some s)) ++ ex).named (shownArray (some s)) ex :=
        .object (by simp [shownArray]) hfree
      have htag : memberTag (shownMembers false (shownArray (some s)) ++ ex).named = .array :=
        memberTag_of_get? (hshows.get?_shown rfl rfl)
      have hread := arrayOfMembers_shown hshows fun t ht => Option.some.inj ht ▸ ih.2
      rw [Value.object, ← Members.named, Schema.ofValue, itemsOfValue, htag, hread]
      exact ⟨rfl, rfl⟩
  | @scalar kind ex hown =>
      obtain ⟨hfree, hjson⟩ := hown
      rw [toValue_scalar hjson]
      have hshows : Shows (shownMembers false (shownScalar kind) ++ ex).named (shownScalar kind) ex :=
        .object (by simp [shownScalar]) hfree
      have htag : memberTag (shownMembers false (shownScalar kind) ++ ex).named = .scalar := by
        rw [memberTag_of_get? (hshows.get?_shown rfl rfl)]
        cases kind <;> rfl
      rw [Value.object, ← Members.named, Schema.ofValue, itemsOfValue, htag,
        scalarOfMembers_shown hshows]
      exact ⟨rfl, rfl⟩

end Schema

/-! ### Parameters -/

theorem readPlace_name (place : Place) : readPlace (.text place.name) = .valid place := by
  cases place <;> rfl

theorem denotesBody_of_get? {ms : Members Atom Value} {place : String}
    (h : ms.get? (.text "in") = some (.text place)) : denotesBody (.map ms) = (place == "body") := by
  rw [denotesBody, h]

theorem ValueParameter.ofValue_toValue {p : ValueParameter} (h : (Parameter.value p).HasExtras Storable) :
    Parameter.ofValue ((Parameter.value p).toValue {}) = .valid (.value p) := by
  obtain ⟨ms, hvalue, hms⟩ := Parameter.exists_shows h
  have hbody : denotesBody (.map ms) = false := by
    rw [denotesBody_of_get? (hms.get?_shown rfl rfl)]
    cases p.place <;> rfl
  have hplace : requiredField ms placeNames readPlace = .valid p.place :=
    hms.requiredField (v := .text p.place.name) rfl rfl (readPlace_name p.place)
  have hname : requiredField ms ["name"] readText = .valid p.name :=
    hms.requiredField (v := .text p.name) rfl rfl rfl
  have htype : optionalField ms ["type"] "string" readText = .valid p.type :=
    hms.optionalField (v := .text p.type) rfl (by simp) (by simp) nofun fun _ => rfl
  have hrequired : optionalField ms ["required"] false readTruth = .valid p.required :=
    hms.optionalField (v := .atom (.bool p.required)) rfl (by simp) (by simp) nofun fun _ => rfl
  have hdescription : optionalField ms ["description"] none (readNullable readText)
      = .valid p.description :=
    hms.optionalField_nullable (g := .text) rfl (by simp) (by simp) (fun _ => rfl) fun _ _ => rfl
  have hfree : freeMembers ms [placeNames, ["name"], ["type"], ["required"], ["description"]]
      = .valid p.extras :=
    hms.freeMembers (.cons ⟨["in_"], rfl, nofun⟩ (.cons ⟨[], rfl, by simp⟩
      (.cons ⟨[], rfl, by simp⟩ (.cons ⟨[], rfl, by simp⟩ (.cons ⟨[], rfl, by simp⟩ .nil)))))
  rw [hvalue, Parameter.ofValue, hbody, if_neg Bool.false_ne_true,
    ValueParameter.ofValue_map_eq_valid_iff.2
      ⟨hplace, hname, htype, hrequired, hdescription, hfree⟩]
  rfl

theorem BodyParameter.ofValue_toValue {p : BodyParameter} (h : (Parameter.body p).HasExtras Storable) :
    Parameter.ofValue ((Parameter.body p).toValue {}) = .valid (.body p) := by
  obtain ⟨ms, hvalue, hms⟩ := Parameter.exists_shows h
  have hbody : denotesBody (.map ms) = true := denotesBody_of_get? (hms.get?_shown rfl rfl)
  have hplace : optionalField ms placeNames "body" (readOneOf ["body"]) = .valid "body" :=
    hms.optionalField (v := .text "body") rfl (by simp [Parameter.shown])
      (fun h => by cases h) (fun h => by cases h) fun _ => rfl
  have hname : optionalField ms ["name"] "body" readText = .valid p.name :=
    hms.optionalField (v := .text p.name) rfl (by simp) (by simp) (fun h => by cases h) fun _ => rfl
  have hread : requiredField ms schemaNames Schema.ofValue = .valid p.schema :=
    hms.requiredField (v := p.schema.toValue false) rfl p.schema.isNull_toValue
      (Schema.ofValue_toValue h.2).1
  have hfree : freeMembers ms [placeNames, ["name"], schemaNames] = .valid p.extras := by
    refine hms.freeMembers (.cons ⟨["in_"], rfl, fun h => by cases h⟩ (.cons ⟨[], rfl, by simp⟩
      (.cons ⟨["schema_"], rfl, fun hnull => ?_⟩ .nil)))
    exact absurd hnull (by simp [p.schema.isNull_toValue])
  rw [hvalue, Parameter.ofValue, hbody, if_pos rfl,
    BodyParameter.ofValue_map_eq_valid_iff.2 ⟨⟨_, hplace⟩, hname, hread, hfree⟩]
  rfl

/-- **A parameter is restored from its data.** -/
theorem Parameter.ofValue_toValue {p : Parameter} (h : p.HasExtras Storable) :
    Parameter.ofValue (p.toValue {}) = .valid p := by
  cases p with
  | value p => exact ValueParameter.ofValue_toValue h
  | body p => exact BodyParameter.ofValue_toValue h

/-! ### Answers and operations -/

/-- An answer without a schema has no free member under the second name of the schema. -/
def Response.Restorable (r : Response) : Prop := r.schema = none → "schema_" ∉ r.extras.keys

/-- **An answer is restored from its data exactly if no free member is taken for its schema.** -/
theorem Response.ofValue_toValue_iff {r : Response} (h : r.HasExtras Storable) :
    Response.ofValue (r.toValue {}) = .valid r ↔ r.Restorable := by
  obtain ⟨ms, hvalue, hms⟩ := r.exists_shows h
  have hdescription : requiredField ms ["description"] readText = .valid r.description :=
    hms.requiredField (v := .text r.description) rfl rfl rfl
  have hschema : schemaToValue {} r.schema = r.schema.elim .null (Schema.toValue false) := by
    cases r.schema <;> rfl
  have hfield : r.shown.get? "schema" = some (r.schema.elim .null (Schema.toValue false)) :=
    congrArg some hschema
  have hother : "schema_" ∉ r.shown.keys := by simp [Response.shown]
  rw [hvalue, Response.ofValue_map_eq_valid_iff]
  constructor
  · intro hread hnone hmem
    -- the free member is found in place of the schema, and is not absent
    obtain ⟨v, hv⟩ := Members.mem_keys_iff.1 hmem
    have hfound : findField ms schemaNames = some ("schema_", v) := by
      have hfirst := hms.get?_field hfield
      have hsecond := (hms.get?_free hother).trans hv
      rw [hnone] at hfirst
      rw [schemaNames, findField, hfirst, findField, hsecond]
      rfl
    have hnull := (h.own.2 _ (Members.mem_of_get? hv)).2
    have hs := hread.schema
    rw [optionalField, hfound] at hs
    have hs := Checked.under_eq_valid_iff.1 hs
    rw [readNullable, hnull, hnone] at hs
    obtain ⟨t, -, hsome⟩ := Checked.map_eq_valid_iff.1 hs
    cases hsome
  · intro hr
    have hrest : r.schema = none → ∀ k ∈ ["schema_"], k ∉ r.extras.keys := by
      intro hnone k hk
      rw [List.mem_singleton.1 hk]
      exact hr hnone
    have hread : optionalField ms schemaNames none (readNullable Schema.ofValue)
        = .valid r.schema :=
      hms.optionalField_nullable hfield (by simpa using hother) hrest Schema.isNull_toValue
        fun s hs => (Schema.ofValue_toValue (h.schema s hs)).1
    refine ⟨hdescription, hread, hms.freeMembers (.cons ⟨[], rfl, by simp⟩
      (.cons ⟨["schema_"], rfl, fun hnull => hrest ?_⟩ .nil))⟩
    cases hs : r.schema with
    | none => rfl
    | some s =>
        rw [hs] at hnull
        exact absurd hnull (by simp [schemaToValue, s.isNull_toValue])

theorem readResponses_object_iff {rs : Members String Response} (hn : rs.keys.Nodup)
    (h : ∀ m ∈ rs, m.2.HasExtras Storable) :
    readResponses (.object (rs.mapValues (Response.toValue {}))) = .valid rs ↔
      ∀ m ∈ rs, m.2.Restorable := by
  have hread : readResponses (.object (rs.mapValues (Response.toValue {})))
      = Members.ofList <$> readMembersWith Response.ofValue
          (rs.mapValues (Response.toValue {})).named := by
    rw [readResponses_object (by simpa using hn)]
    rfl
  rw [hread, ofList_readMembersWith_eq_valid_iff hn]
  exact forall₂_congr fun m hm => Response.ofValue_toValue_iff (h m hm)

/-- **An operation is restored from its data exactly if its answers are.** -/
theorem Operation.ofValue_toValue_iff {op : Operation} (h : op.HasExtras Storable) :
    Operation.ofValue (op.toValue {}) = .valid op ↔ ∀ m ∈ op.responses, m.2.Restorable := by
  obtain ⟨ms, hvalue, hms⟩ := op.exists_shows h
  have hconsumes : optionalField ms ["consumes"] [] (readSequence readText) = .valid op.consumes :=
    hms.optionalField (v := textsToValue op.consumes) rfl (by simp) (by simp) nofun
      fun _ => readTexts op.consumes
  have hproduces : optionalField ms ["produces"] [] (readSequence readText) = .valid op.produces :=
    hms.optionalField (v := textsToValue op.produces) rfl (by simp) (by simp) nofun
      fun _ => readTexts op.produces
  have hps : optionalField ms ["parameters"] [] (readSequence Parameter.ofValue)
      = .valid op.parameters := by
    exact hms.optionalField_list (g := parametersToValue {}) rfl rfl
      (readSequence_map fun p hp => Parameter.ofValue_toValue (h.parameters p hp))
  have hex : freeMembers ms [["consumes"], ["produces"], ["parameters"], ["responses"]]
      = .valid op.extras :=
    hms.freeMembers (.cons ⟨[], rfl, by simp⟩ (.cons ⟨[], rfl, by simp⟩
      (.cons ⟨[], rfl, by simp⟩ (.cons ⟨[], rfl, by simp⟩ .nil))))
  have hfield : optionalField ms ["responses"] [] readResponses = .valid op.responses ↔
      readResponses (.object (op.responses.mapValues (Response.toValue {}))) = .valid op.responses := by
    rw [hms.optionalField_shown "responses"
      (v := .object (op.responses.mapValues (Response.toValue {}))) rfl rfl,
      Checked.under_eq_valid_iff]
  rw [hvalue, Operation.ofValue_map_eq_valid_iff, ← readResponses_object_iff h.statuses h.responses,
    ← hfield]
  exact ⟨fun hread => hread.responses, fun hresponses =>
    ⟨hconsumes, hproduces, hps, hresponses, hex⟩⟩

/-! ### Path items and documents -/

/-- The operation of a method is restored exactly if its answers are. -/
theorem operationField_eq_valid_iff {item : PathItem} {ms : Members Atom Value}
    (hms : Shows ms item.shown item.extras) (m : Method)
    (h : ∀ op, item.operation? m = some op → op.HasExtras Storable) :
    operationField ms m = .valid (item.operation? m) ↔
      ∀ op, item.operation? m = some op → ∀ r ∈ op.responses, r.2.Restorable := by
  have hfield : item.shown.get? m.name
      = some ((item.operation? m).elim .null (Operation.toValue {})) := by
    cases m <;> rfl
  cases hop : item.operation? m with
  | none =>
      rw [hop] at hfield
      refine iff_of_true ?_ nofun
      exact hms.optionalField hfield (by simp) (by simp) (fun _ => rfl) nofun
  | some op =>
      rw [hop] at hfield
      rw [operationField, hms.optionalField_shown m.name hfield op.isNull_toValue,
        Checked.under_eq_valid_iff]
      change (Operation.ofValue (op.toValue {})).map some = .valid (some op) ↔ _
      have hiff := Operation.ofValue_toValue_iff (h op hop)
      constructor
      · intro hread op' hop'
        obtain ⟨b, hb, heq⟩ := Checked.map_eq_valid_iff.1 hread
        cases heq
        cases hop'
        exact hiff.1 hb
      · intro hr
        exact Checked.map_eq_valid_iff.2 ⟨op, hiff.2 (hr op rfl), rfl⟩

/-- **A path item is restored from its data exactly if the answers of its operations are.** -/
theorem PathItem.ofValue_toValue_iff {item : PathItem} (h : item.HasExtras Storable) :
    PathItem.ofValue (item.toValue {}) = .valid item ↔
      ∀ m op, item.operation? m = some op → ∀ r ∈ op.responses, r.2.Restorable := by
  obtain ⟨ms, hvalue, hms⟩ := item.exists_shows h
  have hfield := fun m => operationField_eq_valid_iff hms m (h.operations m)
  have hps : optionalField ms ["parameters"] none (readNullable (readSequence Parameter.ofValue))
      = .valid item.parameters := by
    refine hms.optionalField_nullable (g := parametersToValue {}) rfl (by simp) (by simp)
      (fun _ => rfl) fun ps hps => ?_
    exact readSequence_map fun p hp => Parameter.ofValue_toValue (h.parameters ps hps p hp)
  have hex : freeMembers ms (Method.all.map (fun m => [m.name]) ++ [["parameters"]])
      = .valid item.extras := by
    refine hms.freeMembers (.cons ⟨[], rfl, by simp⟩ (.cons ⟨[], rfl, by simp⟩
      (.cons ⟨[], rfl, by simp⟩ (.cons ⟨[], rfl, by simp⟩ (.cons ⟨[], rfl, by simp⟩
      (.cons ⟨[], rfl, by simp⟩ (.cons ⟨[], rfl, by simp⟩ (.cons ⟨[], rfl, by simp⟩ .nil))))))))
  rw [hvalue, PathItem.ofValue_map_eq_valid_iff]
  constructor
  · intro hread m
    exact (hfield m).1 (hread.operations m)
  · intro hr
    exact ⟨fun m => (hfield m).2 (hr m), hps, hex⟩

/-- **A self-description is restored from its data.** -/
theorem Info.ofValue_toValue {info : Info} (h : Storable ["title", "version"] info.extras) :
    Info.ofValue (info.toValue {}) = .valid info := by
  obtain ⟨ms, hvalue, hms⟩ := info.exists_shows h
  have htitle : optionalField ms ["title"] "Generated Schema" readText = .valid info.title :=
    hms.optionalField (v := .text info.title) rfl (by simp) (by simp) nofun fun _ => rfl
  have hversion : optionalField ms ["version"] "1.0" readText = .valid info.version :=
    hms.optionalField (v := .text info.version) rfl (by simp) (by simp) nofun fun _ => rfl
  have hex : freeMembers ms [["title"], ["version"]] = .valid info.extras :=
    hms.freeMembers (.cons ⟨[], rfl, by simp⟩ (.cons ⟨[], rfl, by simp⟩ .nil))
  rw [hvalue, Info.ofValue_map_eq_valid_iff]
  exact ⟨htitle, hversion, hex⟩

namespace Document

/-- Every answer under every path template keeps its free members free. -/
def Restorable (doc : Document) : Prop :=
  ∀ t ∈ doc.paths, ∀ m op, t.2.operation? m = some op → ∀ r ∈ op.responses, r.2.Restorable

/-- **A document is restored from its data exactly if its answers are.** -/
theorem ofValue_toValue_iff {doc : Document} (h : doc.HasExtras Storable) :
    Document.ofValue (doc.toValue {}) = .valid doc ↔ doc.Restorable := by
  obtain ⟨ms, hvalue, hms⟩ := doc.exists_shows h
  have hswagger : optionalField ms ["swagger"] formatVersion readText = .valid doc.swagger :=
    hms.optionalField (v := .text doc.swagger) rfl (by simp) (by simp) nofun fun _ => rfl
  have hself : optionalField ms ["info"] {} Info.ofValue = .valid doc.info :=
    hms.optionalField (v := doc.info.toValue {}) rfl (by simp) (by simp) nofun
      fun _ => Info.ofValue_toValue h.info
  have hex : freeMembers ms [["swagger"], ["info"], ["paths"]] = .valid doc.extras :=
    hms.freeMembers (.cons ⟨[], rfl, by simp⟩ (.cons ⟨[], rfl, by simp⟩
      (.cons ⟨[], rfl, by simp⟩ .nil)))
  have hfield : optionalField ms ["paths"] [] readPaths = .valid doc.paths ↔
      readPaths (.object (doc.paths.mapValues (PathItem.toValue {}))) = .valid doc.paths := by
    rw [hms.optionalField_shown "paths"
      (v := .object (doc.paths.mapValues (PathItem.toValue {}))) rfl rfl, Checked.under_eq_valid_iff]
  have hread : readPaths (.object (doc.paths.mapValues (PathItem.toValue {}))) = .valid doc.paths ↔
      doc.Restorable := by
    have hpath : readPaths (.object (doc.paths.mapValues (PathItem.toValue {})))
        = Members.ofList <$> readMembersWith readPathItem
            (doc.paths.mapValues (PathItem.toValue {})).named := rfl
    rw [hpath, ofList_readMembersWith_eq_valid_iff h.templates]
    exact forall₂_congr fun t ht => PathItem.ofValue_toValue_iff (h.paths t ht)
  rw [hvalue, Document.ofValue_map_eq_valid_iff, ← hread, ← hfield]
  exact ⟨fun hdoc => hdoc.paths, fun hpaths => ⟨hswagger, hself, hpaths, hex⟩⟩

/-- The version of a document that is shown. -/
theorem checkVersion_toValue {doc : Document} (h : doc.HasExtras Storable) :
    checkVersion (doc.toValue {}) = none ↔ doc.swagger = formatVersion := by
  obtain ⟨ms, hvalue, hms⟩ := doc.exists_shows h
  have hget : Members.get? ms (.text "swagger") = some (.text doc.swagger) :=
    hms.get?_shown rfl rfl
  rw [hvalue, checkVersion]
  simp only [hget, Option.getD_some]
  split <;> simp_all

theorem parse_toValue_iff {doc : Document} (h : doc.HasExtras Storable) :
    Document.parse (doc.toValue {}) = .ok doc ↔ doc.swagger = formatVersion ∧ doc.Restorable := by
  rw [← checkVersion_toValue h, ← ofValue_toValue_iff h, Document.parse]
  cases checkVersion (doc.toValue {}) with
  | some e => simp
  | none =>
      cases Document.ofValue (doc.toValue {}) with
      | valid d => simp
      | invalid issues => simp

/-- **Which documents are restored from their data.**  Of a document whose free members are JSON data,
none of them absent, nothing is lost or changed exactly if it is of the version of the format, no free
member has the name of a field beside it, and no answer without a schema has a free member under the
second name of the schema. -/
theorem parse_toJson?_iff {doc : Document} (h : doc.HasExtras fun _ => JsonExtras) :
    doc.toJson?.map Document.parse = some (.ok doc) ↔
      doc.swagger = formatVersion ∧ doc.WellFormed ∧ doc.Restorable := by
  constructor
  · intro hparse
    obtain ⟨v, hv, hdoc⟩ := Option.map_eq_some_iff.1 hparse
    have hwell := wellFormed_of_parse hdoc
    have hall : doc.HasExtras Storable := HasExtras.and hwell h
    rw [toJson?_eq hall, Option.some.injEq] at hv
    subst hv
    obtain ⟨hversion, hrestorable⟩ := (parse_toValue_iff hall).1 hdoc
    exact ⟨hversion, hwell, hrestorable⟩
  · rintro ⟨hversion, hwell, hrestorable⟩
    have hall : doc.HasExtras Storable := HasExtras.and hwell h
    rw [toJson?_eq hall, Option.map_some, (parse_toValue_iff hall).2 ⟨hversion, hrestorable⟩]

/-- A document of one answer. -/
def ofAnswer (r : Response) : Document :=
  { paths := [("/a", { get := some { responses := [("200", r)] } })] }

theorem hasExtras_ofAnswer {R : List String → Extras → Prop} {r : Response}
    (hnil : ∀ names, R names []) (hr : r.HasExtras R) : (ofAnswer r).HasExtras R where
  own := hnil _
  info := hnil _
  templates := by simp [ofAnswer]
  paths := by
    intro t ht
    rw [ofAnswer, List.mem_singleton] at ht
    subst ht
    refine ⟨hnil _, fun m op hop => ?_, nofun⟩
    cases m with
    | get =>
        cases hop
        refine ⟨hnil _, nofun, by simp, fun r' hr' => ?_⟩
        rw [List.mem_singleton.1 hr']
        exact hr
    | put => cases hop
    | post => cases hop
    | delete => cases hop
    | options => cases hop
    | head => cases hop
    | patch => cases hop

/-- An answer without a schema, with a free member under the second name of the schema. -/
def strayAnswer : Response :=
  { description := "OK", extras := [("schema_", .object [("type", .text "string")])] }

/-- The same beside a schema. -/
def keptAnswer : Response := { strayAnswer with schema := some (.scalar .string []) }

theorem jsonExtras_strayAnswer : JsonExtras strayAnswer.extras := by
  intro m hm
  rw [List.mem_singleton.1 hm]
  refine ⟨Value.isJson_object_iff.2 ⟨by simp, fun n hn => ?_⟩, rfl⟩
  rw [List.mem_singleton.1 hn]
  trivial

theorem hasExtras_strayAnswer : (ofAnswer strayAnswer).HasExtras fun _ => JsonExtras :=
  hasExtras_ofAnswer (fun _ _ hm => by cases hm) ⟨jsonExtras_strayAnswer, nofun⟩

/-- Beside a schema, a free member under the second name of the schema stays free. -/
theorem parse_toJson?_iff_keptAnswer :
    ((ofAnswer keptAnswer).HasExtras fun _ => JsonExtras) ∧ (ofAnswer keptAnswer).Restorable ∧
      ((ofAnswer keptAnswer).toJson?.map Document.parse = some (.ok (ofAnswer keptAnswer)) ↔
        (ofAnswer keptAnswer).swagger = formatVersion ∧ (ofAnswer keptAnswer).WellFormed
          ∧ (ofAnswer keptAnswer).Restorable) := by
  have hextras : (ofAnswer keptAnswer).HasExtras fun _ => JsonExtras := by
    refine hasExtras_ofAnswer (fun _ _ hm => by cases hm) ⟨jsonExtras_strayAnswer, fun s hs => ?_⟩
    cases hs
    exact .scalar (by simp [JsonExtras])
  refine ⟨hextras, ?_, parse_toJson?_iff hextras⟩
  intro t ht m op hop r hr hnone
  rw [ofAnswer, List.mem_singleton] at ht
  subst ht
  cases m <;> cases hop
  rw [List.mem_singleton.1 hr] at hnone
  cases hnone

/-- Data that give an answer two members for a schema, of which the first is absent. -/
def strayData : Value :=
  .object [("swagger", .text "2.0"), ("paths", .object [("/a", .object [("get", .object
    [("responses", .object [("200", .object [("description", .text "OK"), ("schema", .null),
      ("schema_", .object [("type", .text "string")])])])])])])]

/-- Without a schema, the free member is taken for the schema. -/
theorem parse_toJson?_ne_strayAnswer :
    Document.parse strayData = .ok (ofAnswer strayAnswer) ∧
      ((ofAnswer strayAnswer).HasExtras fun _ => JsonExtras) ∧
      (ofAnswer strayAnswer).toJson?.map Document.parse
        = some (.ok (ofAnswer { description := "OK", schema := some (.scalar .string []) })) ∧
      (ofAnswer strayAnswer).toJson?.map Document.parse ≠ some (.ok (ofAnswer strayAnswer)) := by
  have hparse : (ofAnswer strayAnswer).toJson?.map Document.parse
      = some (.ok (ofAnswer { description := "OK", schema := some (.scalar .string []) })) := rfl
  refine ⟨rfl, hasExtras_strayAnswer, hparse, fun heq => ?_⟩
  rw [hparse] at heq
  cases heq

end Document

end ApiScribe
