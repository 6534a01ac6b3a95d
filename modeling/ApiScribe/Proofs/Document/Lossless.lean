/-
**Loading loses nothing.**

A document that was read from JSON data is shown as data that contain them.  Object by object each
field that is read is shown as it was given, or as its default; the free members are those that no
field took; and schemas are contained at every depth by induction on the data.

Main results:

* `ApiScribe.Field.keeps_of_optionalField`, `ApiScribe.Field.keeps_of_requiredField` — what is read
  of a field is kept;
* `ApiScribe.Schema.contained` — schemas contain their data;
* `ApiScribe.Parameter.contains_of_ofValue`, `ApiScribe.Response.contains_of_ofValue`,
  `ApiScribe.Operation.contains_of_ofValue`, `ApiScribe.PathItem.contains_of_ofValue` — so do the
  objects of a document;
* `ApiScribe.Document.contains_of_parse` — **and so do documents**.
-/

import ApiScribe.Proofs.Document.Contains

set_option autoImplicit false

namespace ApiScribe

variable {α : Type}

theorem Value.eq_null_of_isNull {v : Value} (h : v.isNull = true) : v = .null := by
  cases v with
  | atom a =>
      cases a with
      | null => rfl
      | _ => cases h
  | _ => cases h

/-! ### What is read of fields -/

section

variable {ms : Members String Value} {f : Field} {a : α} {read : Value → Checked α} {g : α → Value}

/-- A field with a default is kept if what stands there is. -/
theorem Field.keeps_of_optionalField {default : α}
    (h : optionalField ms.named f.names default read = .valid a)
    (hdefault : f.default.getD .null = g default)
    (hread : ∀ n v, (n, v) ∈ ms → read v = .valid a → f.Keeps (some v) (g a)) :
    f.Keeps (f.given? ms) (g a) := by
  rw [← map_findField]
  rw [optionalField] at h
  split at h
  · rename_i n v hfound
    rw [hfound]
    have hget := (mem_of_findField hfound).2
    rw [Members.get?_named] at hget
    exact hread n v (Members.mem_of_get? hget) (Checked.under_eq_valid_iff.1 h)
  · rename_i hfound
    rw [hfound]
    cases h
    exact hdefault ▸ .absent

/-- A field without a default is kept if what stands there is. -/
theorem Field.keeps_of_requiredField (h : requiredField ms.named f.names read = .valid a)
    (hread : ∀ n v, (n, v) ∈ ms → read v = .valid a → f.Keeps (some v) (g a)) :
    f.Keeps (f.given? ms) (g a) := by
  rw [← map_findField]
  rw [requiredField] at h
  split at h
  · rename_i n v hfound
    rw [hfound]
    have hget := (mem_of_findField hfound).2
    rw [Members.get?_named] at hget
    exact hread n v (Members.mem_of_get? hget) (Checked.under_eq_valid_iff.1 h)
  · cases h

end

section

variable {f : Field} {v : Value}

/-- The absent value is read as nothing, which is shown as the absent value. -/
theorem Field.keeps_of_readNullable {read : Value → Checked α} {g : α → Value} {o : Option α}
    (h : readNullable read v = .valid o) (hdefault : f.default = none)
    (hread : ∀ a, read v = .valid a → v.isNull = false → f.Keeps (some v) (g a)) :
    f.Keeps (some v) (o.elim .null g) := by
  rw [readNullable] at h
  split at h
  · rename_i hnull
    cases h
    rw [Value.eq_null_of_isNull hnull]
    have hkeeps : f.Keeps (some .null) (f.default.getD .null) := .null
    rwa [hdefault] at hkeeps
  · rename_i hnull
    obtain ⟨a, ha, rfl⟩ := Checked.map_eq_valid_iff.1 h
    exact hread a ha (by simpa using hnull)

/-- What cannot be read from the absent value is not read from it. -/
theorem isNull_of_read {read : Value → Checked α} {a : α} (h : read v = .valid a)
    (hnull : ∀ a, read .null ≠ .valid a) : v.isNull = false := by
  rw [Bool.eq_false_iff]
  intro hv
  rw [Value.eq_null_of_isNull hv] at h
  exact hnull a h

/-- Data that are taken as they are. -/
theorem Field.keeps_verbatim (hpart : f.part = .verbatim) (hv : v.isNull = false) :
    f.Keeps (some v) v :=
  .present hv hv (hpart ▸ .verbatim v)

end

/-- A text of JSON data is read as it is. -/
theorem eq_text_of_readText {v : Value} (hv : v.IsJson) {s : String} (h : readText v = .valid s) :
    v = .text s := by
  cases v with
  | atom a =>
      cases a with
      | text t =>
          cases h
          rfl
      | bytes bs => cases hv
      | _ => cases h
  | _ => cases h

/-- One of a few texts is read as it is. -/
theorem eq_text_of_readOneOf {v : Value} {allowed : List String} {s : String}
    (h : readOneOf allowed v = .valid s) : v = .text s ∧ s ∈ allowed := by
  cases v with
  | atom a =>
      cases a with
      | text t =>
          rw [readOneOf] at h
          split at h
          · rename_i hmem
            cases h
            exact ⟨rfl, List.contains_iff_mem.1 hmem⟩
          · cases h
      | _ => cases h
  | _ => cases h

theorem eq_text_of_readPlace {v : Value} {place : Place} (h : readPlace v = .valid place) :
    v = .text place.name := by
  obtain ⟨name, hname, rfl⟩ := Checked.map_eq_valid_iff.1 h
  obtain ⟨rfl, hmem⟩ := eq_text_of_readOneOf hname
  simp only [List.mem_cons, List.not_mem_nil, or_false] at hmem
  rcases hmem with rfl | rfl | rfl | rfl <;> rfl

theorem eq_text_of_readScalarKind {v : Value} {kind : ScalarKind}
    (h : readScalarKind v = .valid kind) : v = .text kind.name := by
  obtain ⟨name, hname, rfl⟩ := Checked.map_eq_valid_iff.1 h
  obtain ⟨rfl, hmem⟩ := eq_text_of_readOneOf hname
  simp only [List.mem_cons, List.not_mem_nil, or_false] at hmem
  rcases hmem with rfl | rfl | rfl | rfl <;> rfl

section

variable {ms : Members String Value} {f : Field} (hjson : ∀ m ∈ ms, m.2.IsJson)

include hjson

/-- A text is kept. -/
theorem Field.keeps_text {default s : String}
    (h : optionalField ms.named f.names default readText = .valid s)
    (hdefault : f.default = some (.text default)) (hpart : f.part = .verbatim) :
    f.Keeps (f.given? ms) (.text s) := by
  refine keeps_of_optionalField h (by rw [hdefault]; rfl) fun n v hmem hread => ?_
  have hv : v.IsJson := hjson _ hmem
  rw [eq_text_of_readText hv hread]
  exact keeps_verbatim hpart rfl

theorem Field.keeps_requiredText {s : String} (h : requiredField ms.named f.names readText = .valid s)
    (hpart : f.part = .verbatim) : f.Keeps (f.given? ms) (.text s) := by
  refine keeps_of_requiredField h fun n v hmem hread => ?_
  have hv : v.IsJson := hjson _ hmem
  rw [eq_text_of_readText hv hread]
  exact keeps_verbatim hpart rfl

end

/-- A text that can only be one is kept. -/
theorem Field.keeps_tag {ms : Members String Value} {f : Field} {tag default s : String}
    (h : optionalField ms.named f.names default (readOneOf [tag]) = .valid s)
    (hdefault : f.default = some (.text tag)) (hpart : f.part = .verbatim) :
    f.Keeps (f.given? ms) (.text tag) := by
  refine keeps_of_optionalField (g := fun _ => .text tag) h (by rw [hdefault]; rfl)
    fun n v _ hread => ?_
  obtain ⟨rfl, hmem⟩ := eq_text_of_readOneOf hread
  rw [List.mem_singleton.1 hmem]
  exact keeps_verbatim hpart rfl

/-! ### Sequences and mappings -/

/-- The items of a sequence are read one by one. -/
theorem forall₂_of_readItemsFrom {read : Value → Checked α} {start : Nat} {vs : List Value}
    {as : List α} (h : readItemsFrom read start vs = .valid as) :
    List.Forall₂ (fun v a => read v = .valid a) vs as := by
  induction vs generalizing start as with
  | nil =>
      cases h
      exact .nil
  | cons v vs ih =>
      obtain ⟨g, rest, h₁, hrest, rfl⟩ := Checked.seq_eq_valid_iff.1 h
      obtain ⟨a, ha, rfl⟩ := Checked.map_eq_valid_iff.1 h₁
      exact .cons (Checked.under_eq_valid_iff.1 ha) (ih hrest)

/-- A sequence of JSON data is a list. -/
theorem exists_list_of_readSequence {read : Value → Checked α} {v : Value} (hv : v.IsJson)
    {as : List α} (h : readSequence read v = .valid as) :
    ∃ vs, v = .list vs ∧ List.Forall₂ (fun v a => read v = .valid a) vs as := by
  rw [readSequence] at h
  split at h
  · rename_i vs hvs
    cases v with
    | list us =>
        cases hvs
        exact ⟨_, rfl, forall₂_of_readItemsFrom h⟩
    | tuple us => cases hv
    | set us => cases hv
    | atom a => cases hvs
    | map ms => cases hvs
  · cases h

/-- A list of texts is read as it is. -/
theorem eq_textsToValue_of_readSequence {v : Value} (hv : v.IsJson) {texts : List String}
    (h : readSequence readText v = .valid texts) : v = textsToValue texts := by
  obtain ⟨vs, rfl, hvs⟩ := exists_list_of_readSequence hv h
  have hall := Value.isJson_list_iff.1 hv
  rw [textsToValue, Value.list.injEq]
  clear h hv
  induction hvs with
  | nil => rfl
  | cons hread _ ih =>
      rw [List.map_cons, ← eq_text_of_readText (hall _ List.mem_cons_self) hread,
        ← ih fun u hu => hall u (List.mem_cons_of_mem _ hu)]

/-- A list of texts is kept. -/
theorem Field.keeps_texts {ms : Members String Value} (hjson : ∀ m ∈ ms, m.2.IsJson) {f : Field}
    {texts : List String}
    (h : optionalField ms.named f.names [] (readSequence readText) = .valid texts)
    (hdefault : f.default = some (.list [])) (hpart : f.part = .verbatim) :
    f.Keeps (f.given? ms) (textsToValue texts) := by
  refine keeps_of_optionalField h (by rw [hdefault]; rfl) fun n v hmem hread => ?_
  have hv : v.IsJson := hjson _ hmem
  rw [eq_textsToValue_of_readSequence hv hread]
  exact keeps_verbatim hpart rfl

/-- Sequences contain their data if their items do. -/
theorem contains_of_readSequence {item : Part} {read : Value → Checked α} {g : α → Value}
    {v : Value} (hv : v.IsJson) {as : List α} (h : readSequence read v = .valid as)
    (heach : ∀ u a, u.IsJson → read u = .valid a → Contains item u (g a)) :
    Contains (.sequence item) v (.list (as.map g)) := by
  obtain ⟨vs, rfl, hvs⟩ := exists_list_of_readSequence hv h
  obtain ⟨hlength, hget⟩ := List.forall₂_iff_get.1 hvs
  refine .sequence (by rw [List.length_map, hlength]) fun i u w hu hw => ?_
  obtain ⟨hi, rfl⟩ := List.getElem?_eq_some_iff.1 hu
  rw [List.getElem?_map, Option.map_eq_some_iff] at hw
  obtain ⟨a, ha, rfl⟩ := hw
  obtain ⟨hi', rfl⟩ := List.getElem?_eq_some_iff.1 ha
  exact heach _ _ (Value.isJson_list_iff.1 hv _ (List.getElem_mem hi)) (hget i hi hi')

/-- Mappings contain their data if their members do. -/
theorem contains_of_readMapping {member : Part} {read : Value → Checked α} {g : α → Value}
    {ms : Members String Value} (hn : ms.keys.Nodup) {as : Members String α}
    (h : readMapping read (.object ms) = .valid as)
    (heach : ∀ m ∈ ms, ∀ a, read m.2 = .valid a → Contains member m.2 (g a)) :
    Contains (.mapping member) (.object ms) (.object (as.mapValues g)) := by
  obtain ⟨ns, hread, rfl⟩ := Checked.map_eq_valid_iff.1 h
  have hns := readMembersWith_eq_valid_iff.1 hread
  have hkeys : ms.keys = ns.keys := by
    clear hn h hread heach
    induction hns with
    | nil => rfl
    | cons hmn _ ih => rw [Members.keys_cons, Members.keys_cons, hmn.1, ih]
  rw [Members.ofList_eq_self (hkeys ▸ hn)]
  refine .mapping (by rw [Members.keys_mapValues, hkeys]) fun k v w hv hw => ?_
  obtain ⟨⟨k', a⟩, hmem, heq⟩ := List.mem_map.1 (Members.mem_of_get? hw)
  cases heq
  obtain ⟨⟨k'', u⟩, hmem', hname, hvalue⟩ := forall₂_mem_right hns hmem
  cases hname
  have hu := Members.get?_of_mem hn hmem'
  rw [hv, Option.some.injEq] at hu
  subst hu
  exact heach _ hmem' _ hvalue

/-- A mapping of JSON data is an object. -/
theorem exists_object_of_asMapping {β : Type} {v : Value} (hv : v.IsJson)
    {read : Members Atom Value → Checked β} {b : β} (h : asMapping v read = .valid b) :
    ∃ ms : Members String Value, v = .object ms ∧ ms.keys.Nodup ∧ ∀ m ∈ ms, m.2.IsJson := by
  cases v with
  | map ms =>
      obtain ⟨ns, rfl⟩ := Members.exists_named fun m hm => (Value.jsonMembers_iff.1 hv.1 m hm).1
      exact ⟨ns, rfl, Value.isJson_object_iff.1 hv⟩
  | atom _ => cases h
  | list _ => cases h
  | tuple _ => cases h
  | set _ => cases h

/-- And so is an object that is read from JSON data. -/
theorem exists_object_of_asObject {β : Type} {v : Value} (hv : v.IsJson)
    {read : Members Atom Value → Checked β} {b : β} (h : asObject v read = .valid b) :
    ∃ ms : Members String Value, v = .object ms ∧ ms.keys.Nodup ∧ (∀ m ∈ ms, m.2.IsJson) ∧
      read ms.named = .valid b := by
  obtain ⟨ms, rfl, hread⟩ := asObject_eq_valid h
  obtain ⟨ns, rfl⟩ := Members.exists_named fun m hm => (Value.jsonMembers_iff.1 hv.1 m hm).1
  obtain ⟨hn, hjson⟩ := Value.isJson_object_iff.1 hv
  exact ⟨ns, rfl, hn, hjson, hread⟩

/-! ### Schemas -/

namespace Schema

variable {ms : Members String Value}

/-- The type of a schema tells its fields. -/
theorem fields_eq (ms : Members String Value) : ObjectKind.schema.fields ms =
    match memberTag ms.named with
    | .object => ObjectKind.objectSchemaFields
    | .array => ObjectKind.arraySchemaFields
    | _ => [{ name := "type" }] := by
  rw [ObjectKind.fields, memberTag, Members.get?_named, Members.textAt?]
  cases ms.get? "type" with
  | none => rfl
  | some v =>
      cases v with
      | atom a =>
          cases a with
          | text t =>
              by_cases hobject : t = "object"
              · rw [hobject]
                rfl
              · by_cases harray : t = "array"
                · rw [harray]
                  rfl
                · simp [hobject, harray]
          | _ => rfl
      | _ => rfl

/-- The schema of items as data. -/
def itemsToValue (items : Option Schema) : Value := items.elim (.object []) (toValue false)

/-- Required names as data, which are absent if there are none. -/
def requiredToValue (req : List String) : Value := if req.isEmpty then .null else textsToValue req

/-- Properties as data. -/
def propertiesToValue (ps : Members String Schema) : Value :=
  .object (Members.mapValues (toValue false) ps)

theorem toValue_object_eq (ps : List (String × Schema)) (req : List String) (ex : Extras) :
    (object ps req ex).toValue false = .object (shownMembers false (shownObject ps req ++ ex)) := by
  rw [toValue, propertiesToMembers_eq]
  rfl

theorem toValue_array_eq (items : Option Schema) (ex : Extras) :
    (array items ex).toValue false = .object (shownMembers false (shownArray items ++ ex)) := by
  cases items with
  | none =>
      rw [toValue]
      rfl
  | some s =>
      rw [toValue]
      rfl

theorem toValue_scalar_eq (kind : ScalarKind) (ex : Extras) :
    (scalar kind ex).toValue false = .object (shownMembers false (shownScalar kind ++ ex)) := by
  rw [toValue]
  rfl

/-- Required names are kept.  The absent value and an empty list both stand for none. -/
theorem keeps_readRequired {f : Field} {v : Value} (hv : v.IsJson) (hdefault : f.default = none)
    (hpart : f.part = .verbatim) (homits : f.omitsEmpty = true) {req : List String}
    (h : readRequired v = .valid req) : f.Keeps (some v) (requiredToValue req) := by
  obtain ⟨o, ho, rfl⟩ := Checked.map_eq_valid_iff.1 h
  have heq : requiredToValue (o.getD []) = o.elim .null requiredToValue := by
    cases o <;> rfl
  rw [heq]
  refine Field.keeps_of_readNullable ho hdefault fun texts htexts _ => ?_
  rw [eq_textsToValue_of_readSequence hv htexts]
  cases texts with
  | nil => exact .empty homits
  | cons t ts => exact Field.keeps_verbatim hpart rfl

/-- Data contain those of a schema, of items and of properties, as far as these can be read. -/
structure Contained (v : Value) : Prop where
  /-- As a schema. -/
  schema : ∀ s, Schema.ofValue v = .valid s → Contains (.object .schema) v (s.toValue false)
  /-- As the schema of items. -/
  items : ∀ t, itemsOfValue v = .valid t → Contains (.object .schema) v (itemsToValue t)
  /-- As properties. -/
  properties : ∀ ps, propertiesOfValue v = .valid ps →
    Contains (.mapping (.object .schema)) v (propertiesToValue ps)

section

variable {s : Schema} (hn : ms.keys.Nodup)

include hn

theorem contains_objectOfMembers (hjson : ∀ m ∈ ms, m.2.IsJson)
    (hall : ∀ m ∈ ms, Contained m.2) (htag : memberTag ms.named = .object)
    (h : objectOfMembers ms.named (propertiesField ms.named) = .valid s) :
    Contains (.object .schema) (.object ms) (s.toValue false) := by
  have hfields : ObjectKind.schema.fields ms = ObjectKind.objectSchemaFields := by
    rw [fields_eq, htag]
  obtain ⟨type, ps, req, ex, htype, hps, hreq, hex, rfl⟩ := objectOfMembers_eq_valid_iff.1 h
  rw [toValue_object_eq]
  refine contains_shown hn hfields ?_ hex
  refine .cons ⟨rfl, ?_⟩ (.cons ⟨rfl, ?_⟩ (.cons ⟨rfl, ?_⟩ .nil))
  · exact Field.keeps_tag htype rfl rfl
  · refine Field.keeps_of_optionalField (g := propertiesToValue)
      (propertiesField_eq_valid_iff.1 hps) rfl fun n v hmem hread => ?_
    exact .present (isNull_of_read hread nofun) rfl ((hall _ hmem).properties ps hread)
  · exact Field.keeps_of_optionalField (g := requiredToValue) hreq rfl fun n v hmem hread =>
      keeps_readRequired (hjson _ hmem) rfl rfl rfl hread

theorem contains_arrayOfMembers (hall : ∀ m ∈ ms, Contained m.2) (htag : memberTag ms.named = .array)
    (h : arrayOfMembers ms.named (itemsField ms.named) = .valid s) :
    Contains (.object .schema) (.object ms) (s.toValue false) := by
  have hfields : ObjectKind.schema.fields ms = ObjectKind.arraySchemaFields := by
    rw [fields_eq, htag]
  obtain ⟨type, items, ex, htype, hitems, hex, rfl⟩ := arrayOfMembers_eq_valid_iff.1 h
  rw [toValue_array_eq]
  refine contains_shown hn hfields ?_ hex
  refine .cons ⟨rfl, ?_⟩ (.cons ⟨rfl, ?_⟩ .nil)
  · exact Field.keeps_tag htype rfl rfl
  · refine Field.keeps_of_optionalField (g := itemsToValue)
      (itemsField_eq_valid_iff.1 hitems) rfl fun n v hmem hread => ?_
    refine .present (isNull_of_read hread nofun) ?_ ((hall _ hmem).items items hread)
    cases items with
    | none => rfl
    | some s => exact s.isNull_toValue

theorem contains_scalarOfMembers (htag : memberTag ms.named = .scalar)
    (h : scalarOfMembers ms.named = .valid s) :
    Contains (.object .schema) (.object ms) (s.toValue false) := by
  have hfields : ObjectKind.schema.fields ms = [{ name := "type" }] := by
    rw [fields_eq, htag]
  obtain ⟨kind, ex, hkind, hex, rfl⟩ := scalarOfMembers_eq_valid_iff.1 h
  rw [toValue_scalar_eq]
  refine contains_shown hn hfields ?_ hex
  refine .cons ⟨rfl, ?_⟩ .nil
  refine Field.keeps_of_requiredField (g := fun kind => .text (ScalarKind.name kind)) hkind
    fun n v _ hread => ?_
  rw [eq_text_of_readScalarKind hread]
  exact Field.keeps_verbatim rfl rfl

end

/-- The schema of items that is not known has no members. -/
theorem contains_untyped : Contains (.object .schema) (.object []) (itemsToValue none) := by
  have hshown : ShowsFields [] (ObjectKind.schema.fields []) [("type", .null)] :=
    .cons ⟨rfl, .absent⟩ .nil
  have hn : (Members.keys ([] : Members String Value)).Nodup := List.nodup_nil
  exact contains_shown hn rfl hshown rfl

/-- Only what has no members is read as the schema of items that is not known. -/
theorem eq_nil_of_itemsOfValue (h : itemsOfValue (.object ms) = .valid none) : ms = [] := by
  rw [Value.object, ← Members.named, itemsOfValue] at h
  cases htag : memberTag ms.named with
  | untyped =>
      rw [htag] at h
      obtain ⟨u, hu, -⟩ := Checked.map_eq_valid_iff.1 (Checked.under_eq_valid_iff.1 h)
      cases ms with
      | nil => rfl
      | cons m ms =>
          obtain ⟨g, -, h₁, -, -⟩ := Checked.seq_eq_valid_iff.1 hu
          obtain ⟨a, ha, -⟩ := Checked.map_eq_valid_iff.1 h₁
          cases ha
  | _ =>
      rw [htag] at h
      obtain ⟨s, -, heq⟩ := Checked.map_eq_valid_iff.1 h
      cases heq

/-- **Schemas contain their data**, at every depth. -/
theorem contained {v : Value} (hv : v.IsJson) : Contained v := by
  refine Value.jsonInduct (motive := Contained) ?atom ?list ?object hv
  case atom => exact fun a _ => ⟨nofun, nofun, nofun⟩
  case list => exact fun vs _ _ => ⟨nofun, nofun, nofun⟩
  case object =>
      intro ms hn hjson hall
      have hschema : ∀ s, Schema.ofValue (.object ms) = .valid s →
          Contains (.object .schema) (.object ms) (s.toValue false) := by
        intro s h
        rw [Value.object, ← Members.named, Schema.ofValue] at h
        split at h
        · rename_i htag
          exact contains_objectOfMembers hn hjson hall htag (Checked.under_eq_valid_iff.1 h)
        · rename_i htag
          exact contains_arrayOfMembers hn hall htag (Checked.under_eq_valid_iff.1 h)
        · rename_i htag
          exact contains_scalarOfMembers hn htag (Checked.under_eq_valid_iff.1 h)
        · cases h
      refine ⟨hschema, fun t h => ?_, fun ps h => ?_⟩
      · cases t with
        | some s => exact hschema s (ofValue_of_itemsOfValue h)
        | none =>
            rw [eq_nil_of_itemsOfValue h]
            exact contains_untyped
      · rw [propertiesOfValue_eq] at h
        exact contains_of_readMapping hn h fun m hm s hs => (hall m hm).schema s hs

end Schema

/-! ### Parameters and answers -/

/-- The place of a parameter tells its fields. -/
theorem fields_parameter (ms : Members String Value) : ObjectKind.parameter.fields ms =
    if denotesBody (.object ms) then ObjectKind.bodyFields else ObjectKind.valueFields := by
  rw [ObjectKind.fields, Value.object, ← Members.named, denotesBody, Members.get?_named,
    Members.textAt?]
  cases ms.get? "in" with
  | none => rfl
  | some v =>
      cases v with
      | atom a =>
          cases a with
          | text t => simp
          | _ => rfl
      | _ => rfl

theorem BodyParameter.contains_of_ofValue {v : Value} {p : BodyParameter} (hv : v.IsJson)
    (hbody : denotesBody v = true) (h : BodyParameter.ofValue v = .valid p) :
    Contains (.object .parameter) v ((Parameter.body p).toValue {}) := by
  obtain ⟨ms, rfl, hn, hjson, h⟩ := exists_object_of_asObject hv h
  have hfields : ObjectKind.parameter.fields ms = ObjectKind.bodyFields := by
    rw [fields_parameter, hbody, if_pos rfl]
  obtain ⟨⟨place, hplace⟩, hname, hschema, hex⟩ := BodyParameter.ofValue_map_eq_valid_iff.1 h
  rw [Parameter.toValue_eq]
  refine contains_objectOf hn hfields ?_ hex
  refine .cons ⟨rfl, ?_⟩ (.cons ⟨rfl, ?_⟩ (.cons ⟨rfl, ?_⟩ .nil))
  · exact Field.keeps_tag hplace rfl rfl
  · exact Field.keeps_text hjson hname rfl rfl
  · refine Field.keeps_of_requiredField (g := Schema.toValue false) hschema
      fun n v hmem hread => ?_
    exact .present (isNull_of_read hread nofun) p.schema.isNull_toValue
      ((Schema.contained (hjson _ hmem)).schema p.schema hread)

theorem ValueParameter.contains_of_ofValue {v : Value} {p : ValueParameter} (hv : v.IsJson)
    (hbody : denotesBody v = false) (h : ValueParameter.ofValue v = .valid p) :
    Contains (.object .parameter) v ((Parameter.value p).toValue {}) := by
  obtain ⟨ms, rfl, hn, hjson, h⟩ := exists_object_of_asObject hv h
  have hfields : ObjectKind.parameter.fields ms = ObjectKind.valueFields := by
    rw [fields_parameter, hbody, if_neg Bool.false_ne_true]
  obtain ⟨hplace, hname, htype, hrequired, hdescription, hex⟩ :=
    ValueParameter.ofValue_map_eq_valid_iff.1 h
  rw [Parameter.toValue_eq]
  refine contains_objectOf hn hfields ?_ hex
  refine .cons ⟨rfl, ?_⟩ (.cons ⟨rfl, ?_⟩ (.cons ⟨rfl, ?_⟩ (.cons ⟨rfl, ?_⟩ (.cons ⟨rfl, ?_⟩ .nil))))
  · refine Field.keeps_of_requiredField (g := fun p => .text (Place.name p)) hplace
      fun n v _ hread => ?_
    rw [eq_text_of_readPlace hread]
    exact Field.keeps_verbatim rfl rfl
  · exact Field.keeps_requiredText hjson hname rfl
  · exact Field.keeps_text hjson htype rfl rfl
  · refine Field.keeps_of_optionalField (g := fun b => .atom (.bool b)) hrequired rfl
      fun n v _ hread => ?_
    exact .present (isNull_of_read hread nofun) rfl (.truth hread)
  · refine Field.keeps_of_optionalField (g := fun o => Option.elim o .null .text) hdescription rfl
      fun n v hmem hread => ?_
    refine Field.keeps_of_readNullable hread rfl fun t ht _ => ?_
    have hv : v.IsJson := hjson _ hmem
    rw [eq_text_of_readText hv ht]
    exact Field.keeps_verbatim rfl rfl

/-- **A parameter contains its data.** -/
theorem Parameter.contains_of_ofValue {v : Value} {p : Parameter} (hv : v.IsJson)
    (h : Parameter.ofValue v = .valid p) : Contains (.object .parameter) v (p.toValue {}) := by
  rw [Parameter.ofValue] at h
  split at h
  · rename_i hbody
    obtain ⟨b, hb, rfl⟩ := Checked.map_eq_valid_iff.1 (Checked.under_eq_valid_iff.1 h)
    exact BodyParameter.contains_of_ofValue hv hbody hb
  · rename_i hbody
    obtain ⟨b, hb, rfl⟩ := Checked.map_eq_valid_iff.1 (Checked.under_eq_valid_iff.1 h)
    exact ValueParameter.contains_of_ofValue hv (by simpa using hbody) hb

theorem contains_parametersToValue {v : Value} {ps : List Parameter} (hv : v.IsJson)
    (h : readSequence Parameter.ofValue v = .valid ps) :
    Contains (.sequence (.object .parameter)) v (parametersToValue {} ps) :=
  contains_of_readSequence hv h fun _ _ hu hread => Parameter.contains_of_ofValue hu hread

/-- **An answer contains its data.** -/
theorem Response.contains_of_ofValue {v : Value} {r : Response} (hv : v.IsJson)
    (h : Response.ofValue v = .valid r) : Contains (.object .response) v (r.toValue {}) := by
  obtain ⟨ms, rfl, hn, hjson, h⟩ := exists_object_of_asObject hv h
  obtain ⟨hdescription, hschema, hex⟩ := Response.ofValue_map_eq_valid_iff.1 h
  have heq : schemaToValue {} r.schema = r.schema.elim .null (Schema.toValue false) := by
    cases r.schema <;> rfl
  refine contains_objectOf hn rfl (.cons ⟨rfl, ?_⟩ (.cons ⟨rfl, ?_⟩ .nil)) hex
  · exact Field.keeps_requiredText hjson hdescription rfl
  · rw [heq]
    refine Field.keeps_of_optionalField (g := fun o => Option.elim o .null (Schema.toValue false))
      hschema rfl fun n v hmem hread => ?_
    refine Field.keeps_of_readNullable hread rfl fun s hs hnull => ?_
    exact .present hnull s.isNull_toValue ((Schema.contained (hjson _ hmem)).schema s hs)

/-! ### Operations and path items -/

/-- **An operation contains its data.** -/
theorem Operation.contains_of_ofValue {v : Value} {op : Operation} (hv : v.IsJson)
    (h : Operation.ofValue v = .valid op) : Contains (.object .operation) v (op.toValue {}) := by
  obtain ⟨ms, rfl, hn, hjson, h⟩ := exists_object_of_asObject hv h
  obtain ⟨hconsumes, hproduces, hparameters, hresponses, hex⟩ := Operation.ofValue_map_eq_valid_iff.1 h
  rw [Operation.toValue_eq]
  refine contains_objectOf hn rfl
    (.cons ⟨rfl, ?_⟩ (.cons ⟨rfl, ?_⟩ (.cons ⟨rfl, ?_⟩ (.cons ⟨rfl, ?_⟩ .nil)))) hex
  · exact Field.keeps_texts hjson hconsumes rfl rfl
  · exact Field.keeps_texts hjson hproduces rfl rfl
  · refine Field.keeps_of_optionalField
      (g := fun ps => if List.isEmpty ps then .null else parametersToValue {} ps) hparameters rfl
      fun n v hmem hread => ?_
    have hcontains := contains_parametersToValue (hjson _ hmem) hread
    cases hps : op.parameters with
    | nil =>
        rw [hps] at hcontains
        cases hcontains with
        | @sequence _ vs _ hlength _ =>
            rw [List.eq_nil_of_length_eq_zero hlength]
            exact .empty rfl
    | cons p ps =>
        rw [hps] at hcontains
        exact .present (isNull_of_read hread nofun) rfl hcontains
  · refine Field.keeps_of_optionalField
      (g := fun rs => .object (Members.mapValues (Response.toValue {}) rs)) hresponses rfl
      fun n v hmem hread => ?_
    obtain ⟨ns, rfl, hns, hmembers⟩ := exists_object_of_asMapping (hjson _ hmem) hread
    rw [readResponses_object hns] at hread
    exact .present rfl rfl (contains_of_readMapping hns hread fun m hm r hr =>
      Response.contains_of_ofValue (hmembers m hm) hr)

/-- The operation of a method is kept. -/
theorem keeps_operationField {ms : Members String Value} (hjson : ∀ m ∈ ms, m.2.IsJson) {m : Method}
    {o : Option Operation} (h : operationField ms.named m = .valid o) :
    Field.Keeps { name := m.name, part := .object .operation }
      (Field.given? { name := m.name, part := .object .operation } ms)
      (o.elim .null (Operation.toValue {})) := by
  refine Field.keeps_of_optionalField (g := fun o => Option.elim o .null (Operation.toValue {})) h rfl
    fun n v hmem hread => ?_
  refine Field.keeps_of_readNullable hread rfl fun op hop hnull => ?_
  exact .present hnull op.isNull_toValue (Operation.contains_of_ofValue (hjson _ hmem) hop)

/-- **A path item contains its data.** -/
theorem PathItem.contains_of_ofValue {v : Value} {item : PathItem} (hv : v.IsJson)
    (h : PathItem.ofValue v = .valid item) : Contains (.object .pathItem) v (item.toValue {}) := by
  obtain ⟨ms, rfl, hn, hjson, h⟩ := exists_object_of_asObject hv h
  obtain ⟨hoperations, hps, hex⟩ := PathItem.ofValue_map_eq_valid_iff.1 h
  have hkeeps (m : Method) := keeps_operationField hjson (hoperations m)
  refine contains_objectOf hn rfl (.cons ⟨rfl, hkeeps .get⟩ (.cons ⟨rfl, hkeeps .put⟩
    (.cons ⟨rfl, hkeeps .post⟩ (.cons ⟨rfl, hkeeps .delete⟩ (.cons ⟨rfl, hkeeps .options⟩
    (.cons ⟨rfl, hkeeps .head⟩ (.cons ⟨rfl, hkeeps .patch⟩ (.cons ⟨rfl, ?_⟩ .nil)))))))) hex
  refine Field.keeps_of_optionalField (g := fun o => Option.elim o .null (parametersToValue {})) hps rfl
    fun n v hmem hread => ?_
  refine Field.keeps_of_readNullable hread rfl fun qs hqs hnull => ?_
  exact .present hnull rfl (contains_parametersToValue (hjson _ hmem) hqs)

/-! ### Documents -/

/-- **A self-description contains its data.** -/
theorem Info.contains_of_ofValue {v : Value} {info : Info} (hv : v.IsJson)
    (h : Info.ofValue v = .valid info) : Contains (.object .info) v (info.toValue {}) := by
  obtain ⟨ms, rfl, hn, hjson, h⟩ := exists_object_of_asObject hv h
  obtain ⟨htitle, hversion, hex⟩ := Info.ofValue_map_eq_valid_iff.1 h
  exact contains_objectOf hn rfl (.cons ⟨rfl, Field.keeps_text hjson htitle rfl rfl⟩
    (.cons ⟨rfl, Field.keeps_text hjson hversion rfl rfl⟩ .nil)) hex

/-- Nothing under a path template is shown as no members, and else its data are contained. -/
theorem contains_of_readPathItem {v : Value} {item : PathItem} (hv : v.IsJson)
    (h : readPathItem v = .valid item) : Contains (.object .pathItem) v (item.toValue {}) := by
  rw [readPathItem] at h
  split at h
  · rename_i hnull
    have hblank : PathItem.ofValue (.map []) = .valid {} := rfl
    rw [hblank] at h
    cases h
    rw [Value.eq_null_of_isNull hnull]
    exact .blank
  · exact PathItem.contains_of_ofValue hv h

namespace Document

/-- **A document of any version contains its data.** -/
theorem contains_of_ofValue {v : Value} {doc : Document} (hv : v.IsJson)
    (h : Document.ofValue v = .valid doc) : Contains (.object .document) v (doc.toValue {}) := by
  obtain ⟨ms, rfl, hn, hjson, h⟩ := exists_object_of_asObject hv h
  obtain ⟨hswagger, hinfo, hpaths, hex⟩ := Document.ofValue_map_eq_valid_iff.1 h
  refine contains_objectOf hn rfl (.cons ⟨rfl, ?_⟩ (.cons ⟨rfl, ?_⟩ (.cons ⟨rfl, ?_⟩ .nil))) hex
  · exact Field.keeps_text hjson hswagger rfl rfl
  · refine Field.keeps_of_optionalField (g := Info.toValue {}) hinfo rfl fun n v hmem hread => ?_
    exact .present (isNull_of_read hread nofun) rfl (Info.contains_of_ofValue (hjson _ hmem) hread)
  · refine Field.keeps_of_optionalField
      (g := fun ps => .object (Members.mapValues (PathItem.toValue {}) ps)) hpaths rfl
      fun n v hmem hread => ?_
    rw [readPaths] at hread
    split at hread
    · rename_i hnull
      rw [Value.eq_null_of_isNull hnull, ← Checked.valid.inj hread]
      exact .null
    · obtain ⟨ns, rfl, hns, hmembers⟩ := exists_object_of_asMapping (hjson _ hmem) hread
      exact .present rfl rfl (contains_of_readMapping hns hread fun m hm item hitem =>
        contains_of_readPathItem (hmembers m hm) hitem)

end Document

end ApiScribe
