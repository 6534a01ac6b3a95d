/-
**Documents in files and back.**

A file holds the data of a document as text.  If the text is read as the data, a document is restored
from its file exactly if it is restored from its data.  JSON and YAML differ in which data they keep.

Main results:

* `ApiScribe.Document.read_write?_json_iff` — **documents are read back from JSON files**;
* `ApiScribe.Document.read_write?_json_rubout` — a template that JSON text holds and YAML does not;
* `ApiScribe.Document.read_write?_yaml_iff` — **documents are read back from YAML files**;
* `ApiScribe.Document.read_write?_yaml_nextLine` — a template that is read back as another one.
-/

import ApiScribe.Document.File
import ApiScribe.Proofs.Document.Restore
import ApiScribe.Proofs.Yaml.Flow
import ApiScribe.Proofs.Yaml.Written
import ApiScribe.Recording.Run

set_option autoImplicit false

namespace ApiScribe

/-! ### Line breaks -/

/-- A text without carriage returns stays as it is. -/
theorem plainBreaks_eq_self {cs : List Char} (h : '\r' ∉ cs) : plainBreaks cs = cs := by
  fun_induction plainBreaks cs with
  | case1 rest _ => exact absurd List.mem_cons_self h
  | case2 rest _ _ => exact absurd List.mem_cons_self h
  | case3 c rest _ _ ih => rw [ih fun hmem => h (List.mem_cons_of_mem c hmem)]
  | case4 => rfl

/-- What is read as YAML holds no carriage returns. -/
theorem plainBreaks_of_read? {cs : List Char} {reading : Yaml.Reading}
    (h : Yaml.read? cs = some reading) : plainBreaks cs = cs := by
  refine plainBreaks_eq_self fun hmem => ?_
  exact absurd (List.all_eq_true.1 (Yaml.isAllowed_of_read? h) '\r' hmem) (by decide)

namespace Document

variable {doc : Document}

/-- A document is read from a text that stands for its data exactly if it is restored from the
data. -/
theorem read_eq_ok_iff {cs : List Char} (h : doc.HasExtras Storable)
    (hread : Yaml.read? cs = some ⟨doc.toValue {}, false⟩) :
    Document.read cs = .ok doc ↔ doc.swagger = formatVersion ∧ doc.Restorable := by
  rw [← parse_toValue_iff h, Document.read, plainBreaks_of_read? hread, hread]
  dsimp only
  cases Document.parse (doc.toValue {}) with
  | error e => simp
  | ok d => simp

/-- **Documents are read back from JSON files.**  A well-formed document whose free members are JSON
data and whose data are kept is read back exactly if it is of the version of the format and no answer
without a schema has a free member under the second name of the schema. -/
theorem read_write?_json_iff (h : doc.HasExtras fun _ => JsonExtras) (hwell : doc.WellFormed)
    (hkept : Json.IsKept (doc.toValue {})) :
    (doc.write? .json).map Document.read = some (.ok doc) ↔
      doc.swagger = formatVersion ∧ doc.Restorable := by
  have hall : doc.HasExtras Storable := HasExtras.and hwell h
  have hjson := isJson_toValue hall
  obtain ⟨ms, hms⟩ : ∃ ms, doc.toValue {} = .object ms := ⟨_, rfl⟩
  rw [write?, toJson?_eq hall, Option.map_some, Option.map_some, Option.some.injEq]
  rw [hms] at hjson hkept
  refine read_eq_ok_iff hall ?_
  rw [hms]
  exact Yaml.read?_write hjson hkept

/-- A member beside a schema that has the second name of the schema is written and read back. -/
theorem read_write?_json_iff_keptAnswer :
    ((ofAnswer keptAnswer).HasExtras fun _ => JsonExtras) ∧ (ofAnswer keptAnswer).WellFormed ∧
      Json.IsKept ((ofAnswer keptAnswer).toValue {}) ∧
      (((ofAnswer keptAnswer).write? .json).map Document.read = some (.ok (ofAnswer keptAnswer)) ↔
        (ofAnswer keptAnswer).swagger = formatVersion ∧ (ofAnswer keptAnswer).Restorable) := by
  have hextras : (ofAnswer keptAnswer).HasExtras fun _ => JsonExtras := by
    refine hasExtras_ofAnswer (fun _ _ hm => by cases hm) ⟨jsonExtras_strayAnswer, fun s hs => ?_⟩
    cases hs
    exact .scalar fun _ hm => by cases hm
  have hwell : (ofAnswer keptAnswer).WellFormed := by
    refine hasExtras_ofAnswer (fun _ => ⟨List.nodup_nil, fun _ hk => by cases hk⟩)
      ⟨⟨by decide, by decide⟩, fun s hs => ?_⟩
    cases hs
    exact .scalar ⟨List.nodup_nil, fun _ hk => by cases hk⟩
  have hvalue : (ofAnswer keptAnswer).toValue {} = .object [("swagger", .text "2.0"),
      ("info", .object [("title", .text "Generated Schema"), ("version", .text "1.0")]),
      ("paths", .object [("/a", .object [("get", .object [("consumes", .list []),
        ("produces", .list []), ("responses", .object [("200", .object [("description", .text "OK"),
          ("schema", .object [("type", .text "string")]),
          ("schema_", .object [("type", .text "string")])])])])])])] := rfl
  have hkept : Json.IsKept ((ofAnswer keptAnswer).toValue {}) := by
    rw [hvalue]
    simp only [Json.IsKept, Value.each_object_iff, Value.each_list_iff, Value.text,
      Value.each_atom_iff, List.forall_mem_cons, List.not_mem_nil, false_imp_iff, implies_true,
      and_true]
    decide
  exact ⟨hextras, hwell, hkept, read_write?_json_iff hextras hwell hkept⟩

/-- A document of one path template. -/
def ofTemplate (t : String) : Document :=
  { paths := [(t, { get := some { responses := [("200", { description := "OK" })] } })] }

theorem hasExtras_ofTemplate {R : List String → Extras → Prop} (hnil : ∀ names, R names [])
    (t : String) : (ofTemplate t).HasExtras R where
  own := hnil _
  info := hnil _
  templates := by simp [ofTemplate]
  paths := by
    intro m hm
    rw [ofTemplate, List.mem_singleton] at hm
    subst hm
    have hanswer : (ofAnswer { description := "OK" }).HasExtras R :=
      hasExtras_ofAnswer hnil ⟨hnil _, nofun⟩
    exact hanswer.paths ("/a", _) (List.mem_singleton.2 rfl)

theorem restorable_ofTemplate (t : String) : (ofTemplate t).Restorable := by
  intro t' ht m op hop r hr hnone
  rw [ofTemplate, List.mem_singleton] at ht
  subst ht
  cases m <;> cases hop
  rw [List.mem_singleton.1 hr]
  simp

/-- A request for a path with a control character that JSON text holds as it is. -/
def rubout : Exchange := ⟨{ method := "GET", url := "/a%7Fb" }, { status := 200 }⟩

/-- The JSON file of a document that holds such a character cannot be read. -/
theorem read_write?_json_rubout : ∃ doc : Document,
    (({} : Document).recordAll false [rubout]).outcome = .ok doc ∧
    (doc.HasExtras fun _ => JsonExtras) ∧ doc.WellFormed ∧ doc.swagger = formatVersion ∧
    doc.Restorable ∧ (doc.write? .json).map Document.read = some (.error .notYaml) := by
  refine ⟨ofTemplate "/a\x7fb", rfl, hasExtras_ofTemplate (fun _ _ hm => by cases hm) _,
    hasExtras_ofTemplate (fun _ => ⟨List.nodup_nil, fun _ hk => by cases hk⟩) _, rfl,
    restorable_ofTemplate _, ?_⟩
  have hnot : ((ofTemplate "/a\x7fb").write? .json).map (fun cs =>
      (plainBreaks cs).all Yaml.isAllowed) = some false := by decide +kernel
  obtain ⟨text, htext, hnot⟩ := Option.map_eq_some_iff.1 hnot
  have hread : Yaml.read? (plainBreaks text) = none := by
    by_contra hsome
    obtain ⟨reading, hreading⟩ := Option.ne_none_iff_exists'.1 hsome
    rw [Yaml.isAllowed_of_read? hreading] at hnot
    cases hnot
  rw [htext, Option.map_some, Document.read, hread]

/-- **Documents are read back from YAML files.**  A well-formed document whose free members are JSON
data and whose data are kept is read back exactly if it is of the version of the format and no answer
without a schema has a free member under the second name of the schema. -/
theorem read_write?_yaml_iff (h : doc.HasExtras fun _ => JsonExtras) (hwell : doc.WellFormed)
    (hkept : Yaml.isKeptMembers 0 (doc.toValue {}).members = true) :
    (doc.write? .yaml).map Document.read = some (.ok doc) ↔
      doc.swagger = formatVersion ∧ doc.Restorable := by
  have hall : doc.HasExtras Storable := HasExtras.and hwell h
  have hjson := isJson_toValue hall
  obtain ⟨ms, hms⟩ : ∃ ms, doc.toValue {} = .object ms := ⟨_, rfl⟩
  rw [write?, toJson?_eq hall, Option.map_some, Option.map_some, Option.some.injEq]
  rw [hms] at hjson hkept
  refine read_eq_ok_iff hall ?_
  rw [hms]
  exact Yaml.read?_writeMembers hjson hkept

/-- A template that cannot stand without quotes is written and read back. -/
theorem read_write?_yaml_iff_quoted :
    ((ofTemplate "/a: 'b").HasExtras fun _ => JsonExtras) ∧ (ofTemplate "/a: 'b").WellFormed ∧
      Yaml.isKeptMembers 0 ((ofTemplate "/a: 'b").toValue {}).members = true ∧
      (((ofTemplate "/a: 'b").write? .yaml).map Document.read = some (.ok (ofTemplate "/a: 'b")) ↔
        (ofTemplate "/a: 'b").swagger = formatVersion ∧ (ofTemplate "/a: 'b").Restorable) := by
  have hextras : (ofTemplate "/a: 'b").HasExtras fun _ => JsonExtras :=
    hasExtras_ofTemplate (fun _ _ hm => by cases hm) _
  have hwell : (ofTemplate "/a: 'b").WellFormed :=
    hasExtras_ofTemplate (fun _ => ⟨List.nodup_nil, fun _ hk => by cases hk⟩) _
  have hkept : Yaml.isKeptMembers 0 ((ofTemplate "/a: 'b").toValue {}).members = true := by
    decide +kernel
  exact ⟨hextras, hwell, hkept, read_write?_yaml_iff hextras hwell hkept⟩

/-- A request for a path with the older line break. -/
def nextLine : Exchange := ⟨{ method := "GET", url := "/a%C2%85b" }, { status := 200 }⟩

/-- The YAML file of a document that holds this line break is read as a document with a blank in its
place. -/
theorem read_write?_yaml_nextLine : ∃ doc doc' : Document,
    (({} : Document).recordAll false [nextLine]).outcome = .ok doc ∧
    (doc.HasExtras fun _ => JsonExtras) ∧ doc.WellFormed ∧ doc.swagger = formatVersion ∧
    doc.Restorable ∧ (doc.write? .yaml).map Document.read = some (.ok doc') ∧
    doc.paths.keys = ["/a\u0085b"] ∧ doc'.paths.keys = ["/a b"] := by
  have hkeys : ((ofTemplate "/a\u0085b").write? .yaml).map (fun cs =>
      (Document.read cs).toOption.map fun doc => doc.paths.keys) = some (some ["/a b"]) := by
    decide +kernel
  obtain ⟨text, htext, hkeys⟩ := Option.map_eq_some_iff.1 hkeys
  obtain ⟨doc', hread, hkeys⟩ := Option.map_eq_some_iff.1 hkeys
  have hread : Document.read text = .ok doc' := by
    cases hdoc : Document.read text with
    | error e =>
        rw [hdoc] at hread
        cases hread
    | ok d =>
        rw [hdoc] at hread
        cases hread
        rfl
  refine ⟨ofTemplate "/a\u0085b", doc', rfl, hasExtras_ofTemplate (fun _ _ hm => by cases hm) _,
    hasExtras_ofTemplate (fun _ => ⟨List.nodup_nil, fun _ hk => by cases hk⟩) _, rfl,
    restorable_ofTemplate _, ?_, rfl, hkeys⟩
  rw [htext, Option.map_some, hread]

end Document

end ApiScribe
