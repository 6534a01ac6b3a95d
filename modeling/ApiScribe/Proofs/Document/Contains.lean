/-
**Data that contain other data.**

Data may name a field by its second name, leave out what has a default, and give absent members for
nothing; the data that a document is shown as do none of this.  They contain the data that the
document was read from if nothing is lost and nothing is made up: at every object each member that is
not absent is there again, each free member as it was, and what is there beside them is a default.

Main definitions:

* `ApiScribe.Part`, `ApiScribe.Field`, `ApiScribe.ObjectKind.fields` — the format as a table: the
  fields of each kind of object, with their second names, their parts and their defaults;
* `ApiScribe.ObjectKind.given?` — what data give under a name of the format;
* `ApiScribe.Contains` — **data contain other data**, at every depth;
* `ApiScribe.Field.Keeps` — what is shown for one field.

Main results:

* `ApiScribe.Contains.isJson` — what contains JSON data is JSON data;
* `ApiScribe.contains_shown` — **an object that shows its fields and its free members contains its
  data**.
-/

import ApiScribe.Proofs.Document.Parse
import ApiScribe.Proofs.Document.Shown

set_option autoImplicit false

namespace ApiScribe

/-! ### The format -/

/-- The kinds of objects in a document. -/
inductive ObjectKind where
  /-- A document. -/
  | document
  /-- What a document says about itself. -/
  | info
  /-- Everything under a path template. -/
  | pathItem
  /-- An operation. -/
  | operation
  /-- A parameter. -/
  | parameter
  /-- An answer. -/
  | response
  /-- A schema. -/
  | schema
  deriving DecidableEq, Repr

/-- What may stand at a place of a document. -/
inductive Part where
  /-- Data that are taken as they are. -/
  | verbatim
  /-- A truth value, or what denotes one. -/
  | truth
  /-- An object. -/
  | object (kind : ObjectKind)
  /-- A sequence. -/
  | sequence (item : Part)
  /-- A mapping from names. -/
  | mapping (member : Part)
  deriving DecidableEq, Repr

/-- A field of an object. -/
structure Field where
  /-- The name. -/
  name : String
  /-- The name under which the field is found if there is no member of its own name. -/
  second : Option String := none
  /-- What stands there. -/
  part : Part := .verbatim
  /-- What is shown if data do not have the field. -/
  default : Option Value := none
  /-- Whether an empty list stands for no field. -/
  omitsEmpty : Bool := false
  /-- The default is JSON data. -/
  isJson : ∀ d, default = some d → d.IsJson := by
    simp [Value.object, Value.IsJson, jsonMembers, jsonItems, Atom.IsJson, Members.keys]

/-- The names under which a field is found. -/
def Field.names (f : Field) : List String := f.name :: f.second.toList

/-- What the members of an object give for a field. -/
def Field.given? (f : Field) (ms : Members String Value) : Option Value :=
  (ms.get? f.name).or (f.second.bind ms.get?)

/-- The text under a name. -/
def Members.textAt? (ms : Members String Value) (name : String) : Option String :=
  match ms.get? name with
  | some (.atom (.text s)) => some s
  | _ => none

namespace ObjectKind

/-- The fields of the body of a request. -/
def bodyFields : List Field :=
  [{ name := "in", second := some "in_", default := some (.text "body") },
    { name := "name", default := some (.text "body") },
    { name := "schema", second := some "schema_", part := .object .schema }]

/-- The fields of a parameter that is a single value. -/
def valueFields : List Field :=
  [{ name := "in", second := some "in_" },
    { name := "name" },
    { name := "type", default := some (.text "string") },
    { name := "required", part := .truth, default := some (.atom (.bool false)) },
    { name := "description" }]

/-- The fields of an object schema. -/
def objectSchemaFields : List Field :=
  [{ name := "type", default := some (.text "object") },
    { name := "properties", part := .mapping (.object .schema), default := some (.object []) },
    { name := "required", omitsEmpty := true }]

/-- The fields of an array schema. -/
def arraySchemaFields : List Field :=
  [{ name := "type", default := some (.text "array") },
    { name := "items", part := .object .schema, default := some (.object []) }]

/-- The fields of a kind of object.  Which fields a parameter or a schema has depends on the place of
the one and on the type of the other. -/
def fields : ObjectKind → Members String Value → List Field
  | document, _ =>
    [{ name := "swagger", default := some (.text "2.0") },
      { name := "info", part := .object .info
        default := some (.object
          [("title", .text "Generated Schema"), ("version", .text "1.0")]) },
      { name := "paths", part := .mapping (.object .pathItem), default := some (.object []) }]
  | info, _ =>
    [{ name := "title", default := some (.text "Generated Schema") },
      { name := "version", default := some (.text "1.0") }]
  | pathItem, _ =>
    Method.all.map (fun m => { name := m.name, part := .object .operation })
      ++ [{ name := "parameters", part := .sequence (.object .parameter) }]
  | operation, _ =>
    [{ name := "consumes", default := some (.list []) },
      { name := "produces", default := some (.list []) },
      { name := "parameters", part := .sequence (.object .parameter), omitsEmpty := true },
      { name := "responses", part := .mapping (.object .response), default := some (.object []) }]
  | parameter, ms => if ms.textAt? "in" = some "body" then bodyFields else valueFields
  | response, _ =>
    [{ name := "description" },
      { name := "schema", second := some "schema_", part := .object .schema }]
  | schema, ms =>
    if ms.textAt? "type" = some "object" then objectSchemaFields
    else if ms.textAt? "type" = some "array" then arraySchemaFields
    else [{ name := "type" }]

variable (kind : ObjectKind) (ms : Members String Value)

/-- The field with a name. -/
def field? (name : String) : Option Field := (kind.fields ms).find? (·.name = name)

/-- What data give under a name: under that of a field what they give for the field, and under any
other name what they have there, unless a field takes it under its second name. -/
def given? (name : String) : Option Value :=
  match kind.field? ms name with
  | some f => f.given? ms
  | none =>
    if (kind.fields ms).any fun f => f.second = some name && !ms.has f.name then none
    else ms.get? name

/-- What stands under a name.  Free members are taken as they are. -/
def partAt (name : String) : Part := ((kind.field? ms name).map Field.part).getD .verbatim

/-- Whether an empty list under a name stands for no member. -/
def omitsEmptyAt (name : String) : Prop := ∃ f, kind.field? ms name = some f ∧ f.omitsEmpty = true

end ObjectKind

/-! ### Containment -/

/-- The second data contain the first ones, as data for a part. -/
inductive Contains : Part → Value → Value → Prop
  /-- Data are the same. -/
  | verbatim (v : Value) : Contains .verbatim v v
  /-- What denotes a truth value is shown as the truth value. -/
  | truth {v : Value} {b : Bool} (denotes : readTruth v = .valid b) :
      Contains .truth v (.atom (.bool b))
  /-- Sequences have the same length and contain each other item by item. -/
  | sequence {item : Part} {vs ws : List Value} (length : vs.length = ws.length)
      (each : ∀ (i : Nat) v w, vs[i]? = some v → ws[i]? = some w → Contains item v w) :
      Contains (.sequence item) (.list vs) (.list ws)
  /-- Mappings have the same names in the same order and contain each other name by name. -/
  | mapping {member : Part} {ms ns : Members String Value} (names : ms.keys = ns.keys)
      (each : ∀ k v w, ms.get? k = some v → ns.get? k = some w → Contains member v w) :
      Contains (.mapping member) (.object ms) (.object ns)
  /-- Nothing under a path template is shown as no members. -/
  | blank : Contains (.object .pathItem) .null (.object [])
  /-- Every member that is given and not absent is shown, what is shown contains it, and what is shown
  beside it is the default of a field. -/
  | object {kind : ObjectKind} {ms ns : Members String Value} (nodup : ns.keys.Nodup)
      (kept : ∀ k v, kind.given? ms k = some v → v.isNull = false →
        ¬(kind.omitsEmptyAt ms k ∧ v = .list []) → ∃ w, ns.get? k = some w)
      (each : ∀ k v w, kind.given? ms k = some v → v.isNull = false → ns.get? k = some w →
        Contains (kind.partAt ms k) v w)
      (fresh : ∀ k w, ns.get? k = some w → (∃ v, kind.given? ms k = some v ∧ v.isNull = false) ∨
        ∃ f ∈ kind.fields ms, f.name = k ∧ f.default = some w) :
      Contains (.object kind) (.object ms) (.object ns)

/-- What is shown for a field, from what data give for it.  Nothing at all and the absent value leave
the default. -/
inductive Field.Keeps (f : Field) : Option Value → Value → Prop
  /-- Nothing is given. -/
  | absent : Keeps f none (f.default.getD .null)
  /-- The absent value is given. -/
  | null : Keeps f (some .null) (f.default.getD .null)
  /-- An empty list is given and stands for nothing. -/
  | empty (omits : f.omitsEmpty = true) : Keeps f (some (.list [])) .null
  /-- What is given is shown. -/
  | present {v w : Value} (given : v.isNull = false) (shown : w.isNull = false)
      (contains : Contains f.part v w) : Keeps f (some v) w

/-- Members are what is shown for fields, in their order. -/
def ShowsFields (ms : Members String Value) (fields : List Field) (shown : Members String Value) :
    Prop :=
  List.Forall₂ (fun f m => f.name = m.1 ∧ f.Keeps (f.given? ms) m.2) fields shown

/-! ### JSON data -/

/-- What data give under a name is one of their members. -/
theorem ObjectKind.mem_of_given? {kind : ObjectKind} {ms : Members String Value} {k : String}
    {v : Value} (h : kind.given? ms k = some v) : ∃ n, (n, v) ∈ ms := by
  rw [given?] at h
  split at h
  · rw [Field.given?, Option.or_eq_some_iff] at h
    rcases h with h | ⟨-, h⟩
    · exact ⟨_, Members.mem_of_get? h⟩
    · obtain ⟨n, -, hn⟩ := Option.bind_eq_some_iff.1 h
      exact ⟨n, Members.mem_of_get? hn⟩
  · split at h
    · cases h
    · exact ⟨k, Members.mem_of_get? h⟩

/-- **What contains JSON data is JSON data.** -/
theorem Contains.isJson {part : Part} {v w : Value} (h : Contains part v w) (hv : v.IsJson) :
    w.IsJson := by
  induction h with
  | verbatim v => exact hv
  | truth _ => trivial
  | @sequence item vs ws length each ih =>
      rw [Value.isJson_list_iff] at hv ⊢
      intro w hw
      obtain ⟨i, hi, rfl⟩ := List.getElem_of_mem hw
      have hi' : i < vs.length := length ▸ hi
      exact ih i _ _ (List.getElem?_eq_getElem hi') (List.getElem?_eq_getElem hi)
        (hv _ (List.getElem_mem hi'))
  | @mapping member ms ns names each ih =>
      rw [Value.isJson_object_iff] at hv ⊢
      refine ⟨names ▸ hv.1, fun n hn => ?_⟩
      have hget := Members.get?_of_mem (names ▸ hv.1) (show (n.1, n.2) ∈ ns from hn)
      have hk : n.1 ∈ ms.keys := names ▸ Members.mem_keys_of_get? hget
      obtain ⟨v, hv'⟩ := Members.mem_keys_iff.1 hk
      exact ih n.1 v n.2 hv' hget (hv.2 _ (Members.mem_of_get? hv'))
  | blank => exact Value.isJson_object_iff.2 ⟨List.nodup_nil, by simp⟩
  | @object kind ms ns nodup kept each fresh ih =>
      rw [Value.isJson_object_iff] at hv ⊢
      refine ⟨nodup, fun n hn => ?_⟩
      have hget := Members.get?_of_mem nodup (show (n.1, n.2) ∈ ns from hn)
      rcases fresh n.1 n.2 hget with ⟨v, hgiven, hnull⟩ | ⟨f, -, -, hd⟩
      · obtain ⟨k, hk⟩ := ObjectKind.mem_of_given? hgiven
        exact ih n.1 v n.2 hgiven hnull hget (hv.2 _ hk)
      · exact f.isJson _ hd

/-! ### Fields and free members -/

/-- No two fields of an object have the same name. -/
theorem ObjectKind.nodup_fields (kind : ObjectKind) (ms : Members String Value) :
    ((kind.fields ms).map Field.name).Nodup := by
  cases kind with
  | document => exact (by decide : ["swagger", "info", "paths"].Nodup)
  | info => exact (by decide : ["title", "version"].Nodup)
  | pathItem => exact (by decide : (Method.all.map Method.name ++ ["parameters"]).Nodup)
  | operation => exact (by decide : ["consumes", "produces", "parameters", "responses"].Nodup)
  | parameter =>
      rw [fields]
      split
      · exact (by decide : ["in", "name", "schema"].Nodup)
      · exact (by decide : ["in", "name", "type", "required", "description"].Nodup)
  | response => exact (by decide : ["description", "schema"].Nodup)
  | schema =>
      rw [fields]
      split
      · exact (by decide : ["type", "properties", "required"].Nodup)
      · split
        · exact (by decide : ["type", "items"].Nodup)
        · exact (by decide : ["type"].Nodup)

namespace ObjectKind

variable {kind : ObjectKind} {ms : Members String Value} {k : String}

theorem mem_fields_of_field? {f : Field} (h : kind.field? ms k = some f) :
    f ∈ kind.fields ms ∧ f.name = k :=
  ⟨List.mem_of_find?_eq_some h, by simpa using List.find?_some h⟩

theorem name_ne_of_field?_eq_none (h : kind.field? ms k = none) :
    ∀ f ∈ kind.fields ms, f.name ≠ k := by
  simpa [field?] using h

/-- What data give under the name of a field is what they give for the field. -/
theorem given?_of_field? {f : Field} (h : kind.field? ms k = some f) :
    kind.given? ms k = f.given? ms := by
  rw [given?, h]

end ObjectKind

section

variable {ms : Members String Value}

theorem map_findField (f : Field) :
    (findField ms.named f.names).map (·.2) = f.given? ms := by
  rw [Field.names, Field.given?, findField, Members.get?_named]
  cases hname : ms.get? f.name with
  | some v => rfl
  | none =>
      cases f.second with
      | none => rfl
      | some n =>
          simp only [Option.toList, findField, Members.get?_named, Option.bind_some, Option.none_or]
          cases ms.get? n <;> rfl

/-- A field takes the member of its own name, or that of its second name if there is no other. -/
theorem map_fst_findField_eq_some_iff {f : Field} {k : String} :
    (findField ms.named f.names).map (·.1) = some k ↔
      k ∈ ms.keys ∧ (f.name = k ∨ f.second = some k ∧ f.name ∉ ms.keys) := by
  rw [Field.names, findField, Members.get?_named]
  cases hname : ms.get? f.name with
  | some v =>
      have hmem : f.name ∈ ms.keys := Members.mem_keys_of_get? hname
      simp only [Option.map_some, Option.some.injEq, hmem, not_true, and_false, or_false]
      exact ⟨fun h => ⟨h ▸ hmem, h⟩, fun h => h.2⟩
  | none =>
      have hmem : f.name ∉ ms.keys := Members.get?_eq_none_iff.1 hname
      cases hsecond : f.second with
      | none =>
          refine iff_of_false (by simp [findField]) ?_
          rintro ⟨hk, rfl | ⟨hnone, -⟩⟩
          · exact hmem hk
          · cases hnone
      | some n =>
          simp only [Option.toList, findField, Members.get?_named]
          cases hn : ms.get? n with
          | none =>
              refine iff_of_false (by simp) ?_
              rintro ⟨hk, rfl | ⟨heq, -⟩⟩
              · exact hmem hk
              · cases heq
                exact Members.get?_eq_none_iff.1 hn hk
          | some v =>
              simp only [Option.map_some, Option.some.injEq]
              constructor
              · rintro rfl
                exact ⟨Members.mem_keys_of_get? hn, Or.inr ⟨rfl, hmem⟩⟩
              · rintro ⟨hk, rfl | ⟨rfl, -⟩⟩
                · exact absurd hk hmem
                · rfl

theorem mem_takenNames_iff {fields : List Field} {k : String} :
    k ∈ takenNames ms.named (fields.map Field.names) ↔
      k ∈ ms.keys ∧ ∃ f ∈ fields, f.name = k ∨ f.second = some k ∧ f.name ∉ ms.keys := by
  rw [takenNames, List.mem_filterMap]
  constructor
  · rintro ⟨names, hnames, htakes⟩
    obtain ⟨f, hf, rfl⟩ := List.mem_map.1 hnames
    obtain ⟨hk, htakes⟩ := map_fst_findField_eq_some_iff.1 htakes
    exact ⟨hk, f, hf, htakes⟩
  · rintro ⟨hk, f, hf, htakes⟩
    exact ⟨f.names, List.mem_map_of_mem hf, map_fst_findField_eq_some_iff.2 ⟨hk, htakes⟩⟩

/-- The free members are those that no field takes. -/
theorem freeMembers_named (hn : ms.keys.Nodup) (names : List (List String)) :
    freeMembers ms.named names
      = .valid (ms.filter fun m => !(takenNames ms.named names).contains m.1) := by
  have hbeside : ∀ (taken : List String) (ms : Members String Value),
      freeMembersBeside taken ms.named = .valid (ms.filter fun m => !taken.contains m.1) := by
    intro taken ms
    induction ms with
    | nil => rfl
    | cons m ms ih =>
        rw [Members.named] at ih
        rw [Members.named, List.map_cons, freeMembersBeside, ih, List.filter_cons]
        simp only [readMemberName]
        cases taken.contains m.1 <;> rfl
  rw [freeMembers, hbeside, Checked.map_valid, Members.ofList_eq_self]
  exact hn.sublist (List.filter_sublist.map _)

theorem get?_filter (hn : ms.keys.Nodup) (p : String × Value → Bool) {k : String} {v : Value} :
    Members.get? (ms.filter p) k = some v ↔ ms.get? k = some v ∧ p (k, v) = true := by
  have hn' : (Members.keys (ms.filter p)).Nodup := hn.sublist (List.filter_sublist.map _)
  constructor
  · intro h
    obtain ⟨hmem, hp⟩ := List.mem_filter.1 (Members.mem_of_get? h)
    exact ⟨Members.get?_of_mem hn hmem, hp⟩
  · rintro ⟨h, hp⟩
    exact Members.get?_of_mem hn' (List.mem_filter.2 ⟨Members.mem_of_get? h, hp⟩)

end

/-! ### What is kept of a field -/

namespace Field

variable {f : Field} {v w : Value}

/-- What is given is shown, unless it stands for nothing. -/
theorem Keeps.isNull_eq (h : f.Keeps (some v) w) (hv : v.isNull = false)
    (homits : ¬(f.omitsEmpty = true ∧ v = .list [])) : w.isNull = false := by
  cases h with
  | null => cases hv
  | empty hempty => exact absurd ⟨hempty, rfl⟩ homits
  | present _ hshows _ => exact hshows

/-- What is shown for what is given contains it. -/
theorem Keeps.contains_part (h : f.Keeps (some v) w) (hv : v.isNull = false)
    (hw : w.isNull = false) : Contains f.part v w := by
  cases h with
  | null => cases hv
  | empty _ => cases hw
  | present _ _ hcontains => exact hcontains

/-- What is shown is there for what is given, or it is the default. -/
theorem Keeps.given_or_default {given : Option Value} (h : f.Keeps given w)
    (hw : w.isNull = false) :
    (∃ v, given = some v ∧ v.isNull = false) ∨ f.default = some w := by
  -- without a default nothing would be shown
  have hdefault : w = f.default.getD .null → f.default = some w := by
    rintro rfl
    cases hd : f.default with
    | none =>
        rw [hd] at hw
        cases hw
    | some d => rfl
  cases h with
  | absent => exact Or.inr (hdefault rfl)
  | null => exact Or.inr (hdefault rfl)
  | empty _ => cases hw
  | @present v _ hv _ _ => exact Or.inl ⟨v, rfl, hv⟩

end Field

/-! ### Objects -/

section

variable {kind : ObjectKind} {ms shown : Members String Value} {ex : Extras}

theorem ShowsFields.keys {fields : List Field} (h : ShowsFields ms fields shown) :
    shown.keys = fields.map Field.name := by
  induction h with
  | nil => rfl
  | cons hfm _ ih => rw [Members.keys_cons, List.map_cons, hfm.1, ih]

theorem ShowsFields.nodup (h : ShowsFields ms (kind.fields ms) shown) : shown.keys.Nodup := by
  rw [h.keys]
  exact kind.nodup_fields ms

/-- Under a name that is no field's, the free members are what data give there. -/
theorem get?_freeMembers (hn : ms.keys.Nodup)
    (hfree : freeMembers ms.named ((kind.fields ms).map Field.names) = .valid ex) {k : String}
    (hf : kind.field? ms k = none) : Members.get? ex k = kind.given? ms k := by
  have hnot := ObjectKind.name_ne_of_field?_eq_none hf
  rw [freeMembers_named hn] at hfree
  cases hfree
  rw [ObjectKind.given?, hf]
  refine Option.ext fun v => ?_
  rw [get?_filter hn]
  simp only [Bool.not_eq_true', Bool.eq_false_iff, Ne, List.contains_iff_mem, mem_takenNames_iff]
  have htaken : ((kind.fields ms).any fun f => f.second = some k && !ms.has f.name) = true ↔
      ∃ f ∈ kind.fields ms, f.second = some k ∧ f.name ∉ ms.keys := by
    simp [List.any_eq_true, ← Members.has_iff_mem_keys]
  by_cases hany : ((kind.fields ms).any fun f => f.second = some k && !ms.has f.name) = true
  · rw [if_pos hany]
    obtain ⟨f, hmem, hsecond⟩ := htaken.1 hany
    refine iff_of_false (fun h => h.2 ⟨Members.mem_keys_of_get? h.1, f, hmem, Or.inr hsecond⟩) ?_
    simp
  · rw [if_neg hany]
    refine ⟨fun h => h.1, fun h => ⟨h, ?_⟩⟩
    rintro ⟨-, f, hmem, hname | hsecond⟩
    · exact hnot f hmem hname
    · exact hany (htaken.2 ⟨f, hmem, hsecond⟩)

/-- Under the name of a field the field is shown, and under any other name what data give there. -/
theorem get?_shown_append (hn : ms.keys.Nodup) (hshown : ShowsFields ms (kind.fields ms) shown)
    (hfree : freeMembers ms.named ((kind.fields ms).map Field.names) = .valid ex) (k : String) :
    (∃ f w, kind.field? ms k = some f ∧ f.Keeps (kind.given? ms k) w ∧
        Members.get? (shown ++ ex) k = some w) ∨
      kind.field? ms k = none ∧ Members.get? (shown ++ ex) k = kind.given? ms k := by
  cases hf : kind.field? ms k with
  | some f =>
      left
      obtain ⟨hmem, hname⟩ := ObjectKind.mem_fields_of_field? hf
      obtain ⟨⟨n, w⟩, hm, heq, hkeeps⟩ := forall₂_mem_left hshown hmem
      have hget : Members.get? shown k = some w := by
        rw [← hname, heq]
        exact Members.get?_of_mem hshown.nodup hm
      rw [ObjectKind.given?_of_field? hf]
      exact ⟨f, w, rfl, hkeeps, by rw [get?_append, hget, Option.some_or]⟩
  | none =>
      right
      have hget : Members.get? shown k = none := by
        refine Members.get?_eq_none_iff.2 fun hk => ?_
        rw [hshown.keys] at hk
        obtain ⟨f, hmem, hname⟩ := List.mem_map.1 hk
        exact ObjectKind.name_ne_of_field?_eq_none hf f hmem hname
      exact ⟨rfl, by rw [get?_append, hget, Option.none_or, get?_freeMembers hn hfree hf]⟩

theorem nodup_keys_shown_append (hn : ms.keys.Nodup) (hshown : ShowsFields ms (kind.fields ms) shown)
    (hfree : freeMembers ms.named ((kind.fields ms).map Field.names) = .valid ex) :
    (Members.keys (shown ++ ex)).Nodup := by
  rw [freeMembers_named hn] at hfree
  cases hfree
  rw [Members.keys, List.map_append, List.nodup_append]
  refine ⟨hshown.nodup, hn.sublist (List.filter_sublist.map _), ?_⟩
  rintro k hk l hl rfl
  change k ∈ shown.keys at hk
  rw [hshown.keys] at hk
  obtain ⟨f, hf, rfl⟩ := List.mem_map.1 hk
  obtain ⟨m, hm, hname⟩ := List.mem_map.1 hl
  obtain ⟨hmem, htaken⟩ := List.mem_filter.1 hm
  -- a field takes the member of its name
  have htakes : m.1 ∈ takenNames ms.named ((kind.fields ms).map Field.names) :=
    mem_takenNames_iff.2 ⟨List.mem_map_of_mem hmem, f, hf, Or.inl hname.symm⟩
  simp [htakes] at htaken

/-- What is shown is what stands there and is not absent. -/
theorem get?_shownMembers_iff (hn : ms.keys.Nodup) {k : String} {w : Value} :
    (shownMembers false ms).get? k = some w ↔ ms.get? k = some w ∧ w.isNull = false := by
  rw [shownMembers, if_neg Bool.false_ne_true, get?_filter hn, Bool.not_eq_true']

/-- **An object that shows its fields and its free members contains its data.** -/
theorem contains_shown (hn : ms.keys.Nodup) {fields : List Field} (hfields : kind.fields ms = fields)
    (hshown : ShowsFields ms fields shown)
    (hfree : freeMembers ms.named (fields.map Field.names) = .valid ex) :
    Contains (.object kind) (.object ms) (.object (shownMembers false (shown ++ ex))) := by
  subst hfields
  have hnodup := nodup_keys_shown_append hn hshown hfree
  refine .object (hnodup.sublist (keys_shownMembers_sublist _)) (fun k v hv hnull homits => ?kept)
    (fun k v w hv hnull hw => ?each) fun k w hw => ?fresh
  case kept =>
    rcases get?_shown_append hn hshown hfree k with ⟨f, w, hf, hkeeps, hk⟩ | ⟨-, hk⟩
    · rw [hv] at hkeeps
      have hshows := hkeeps.isNull_eq hnull fun h => homits ⟨⟨f, hf, h.1⟩, h.2⟩
      exact ⟨w, (get?_shownMembers_iff hnodup).2 ⟨hk, hshows⟩⟩
    · exact ⟨v, (get?_shownMembers_iff hnodup).2 ⟨hk.trans hv, hnull⟩⟩
  case each =>
    obtain ⟨hw, hshows⟩ := (get?_shownMembers_iff hnodup).1 hw
    rcases get?_shown_append hn hshown hfree k with ⟨f, w', hf, hkeeps, hk⟩ | ⟨hf, hk⟩
    · rw [hk, Option.some.injEq] at hw
      subst hw
      rw [hv] at hkeeps
      rw [ObjectKind.partAt, hf]
      exact hkeeps.contains_part hnull hshows
    · rw [hk, hv, Option.some.injEq] at hw
      subst hw
      rw [ObjectKind.partAt, hf]
      exact .verbatim v
  case fresh =>
    obtain ⟨hw, hshows⟩ := (get?_shownMembers_iff hnodup).1 hw
    rcases get?_shown_append hn hshown hfree k with ⟨f, w', hf, hkeeps, hk⟩ | ⟨-, hk⟩
    · rw [hk, Option.some.injEq] at hw
      subst hw
      obtain ⟨hmem, hname⟩ := ObjectKind.mem_fields_of_field? hf
      exact (hkeeps.given_or_default hshows).imp_right fun hdefault => ⟨f, hmem, hname, hdefault⟩
    · exact Or.inl ⟨w, hk ▸ hw, hshows⟩

/-- The same for an object whose free members override fields of their names, since there are none. -/
theorem contains_objectOf (hn : ms.keys.Nodup) {fields : List Field}
    (hfields : kind.fields ms = fields) (hshown : ShowsFields ms fields shown)
    (hfree : freeMembers ms.named (fields.map Field.names) = .valid ex) :
    Contains (.object kind) (.object ms) (({} : View).objectOf shown ex) := by
  subst hfields
  have hnodup := nodup_keys_shown_append hn hshown hfree
  have heq : ({} : View).objectOf shown ex = .object (shownMembers false (shown ++ ex)) := by
    rw [View.objectOf, Members.putAll_of_disjoint, shownMembers, shownMembers, shownMembers,
      if_neg Bool.false_ne_true, if_neg Bool.false_ne_true, if_neg Bool.false_ne_true,
      List.filter_append]
    rw [shownMembers, shownMembers, if_neg Bool.false_ne_true, if_neg Bool.false_ne_true, Members.keys,
      Members.keys, ← List.map_append, ← List.filter_append]
    exact hnodup.sublist (List.filter_sublist.map _)
  rw [heq]
  exact contains_shown hn rfl hshown hfree

end

end ApiScribe
