/-
**The schemas of samples.**

The schema of a sample requires every property that it has, at every depth, and carries no free
members.  Samples that are seen one after the other are joined from the left, and that is all that
recording knows of the bodies of one place.

Main definitions:

* `ApiScribe.Value.items?` — the items of a sequence of either kind;
* `ApiScribe.MakesProperties` — the properties that the members of a sample make;
* `ApiScribe.Value.Keyed` — mappings, wherever they are looked at, have distinct texts as names;
* `ApiScribe.Value.AtMappings`, `ApiScribe.Value.Proper`, `ApiScribe.Value.NamesApart` — mappings, where
  they are looked at, are as wanted; no two members have one name; the texts of all names differ;
* `ApiScribe.Schema.Inferred` — the schemas that require exactly their properties;
* `ApiScribe.joinAll` — schemas joined one after the other into the one recorded before;
* `ApiScribe.Schema.ofSamples` — the schema of a run of samples.

Main results:

* `ApiScribe.Value.induct`, `ApiScribe.Value.inductItems` — induction on values;
* `ApiScribe.Schema.ofSample_map_eq_ok_iff` — the properties of a sample are its members that are
  present;
* `ApiScribe.Schema.ofSample_eq_error` — why a sample has no schema;
* `ApiScribe.Schema.inferred_ofSample` — the schema of a sample is inferred;
* `ApiScribe.joinAll_append` — a run in two parts.
-/

import ApiScribe.Proofs.Schema.Join
import ApiScribe.Recording.Operation

set_option autoImplicit false

namespace ApiScribe

/-! ### Values -/

/-- Induction on values: an item is smaller than its sequence, a member than its mapping. -/
theorem Value.induct {motive : Value → Prop}
    (atom : ∀ a, motive (.atom a))
    (list : ∀ xs, (∀ v ∈ xs, motive v) → motive (.list xs))
    (tuple : ∀ xs, (∀ v ∈ xs, motive v) → motive (.tuple xs))
    (set : ∀ xs, motive (.set xs))
    (map : ∀ ms, (∀ a v, (a, v) ∈ ms → motive v) → motive (.map ms)) : ∀ v, motive v
  | .atom a => atom a
  | .list xs => list xs fun v h =>
      have : sizeOf v < 1 + sizeOf xs := by
        have := List.sizeOf_lt_of_mem h
        omega
      induct atom list tuple set map v
  | .tuple xs => tuple xs fun v h =>
      have : sizeOf v < 1 + sizeOf xs := by
        have := List.sizeOf_lt_of_mem h
        omega
      induct atom list tuple set map v
  | .set xs => set xs
  | .map ms => map ms fun a v h =>
      have : sizeOf v < 1 + sizeOf ms := by
        have h₁ := List.sizeOf_lt_of_mem h
        have h₂ : sizeOf (a, v) = 1 + sizeOf a + sizeOf v := by simp
        omega
      induct atom list tuple set map v

/-- The items of a sequence of either kind. -/
def Value.items? : Value → Option (List Value)
  | .list xs => some xs
  | .tuple xs => some xs
  | _ => none

theorem Value.items?_eq_some_iff {v : Value} {xs : List Value} :
    v.items? = some xs ↔ v = .list xs ∨ v = .tuple xs := by
  cases v <;> simp [Value.items?]

/-- Induction on values, for sequences of either kind at once. -/
theorem Value.inductItems {motive : Value → Prop}
    (atom : ∀ a, motive (.atom a))
    (sequence : ∀ v xs, v.items? = some xs → (∀ w ∈ xs, motive w) → motive v)
    (set : ∀ xs, motive (.set xs))
    (map : ∀ ms, (∀ a v, (a, v) ∈ ms → motive v) → motive (.map ms)) (v : Value) : motive v := by
  induction v using Value.induct with
  | atom a => exact atom a
  | list xs ih => exact sequence (.list xs) xs rfl ih
  | tuple xs ih => exact sequence (.tuple xs) xs rfl ih
  | set xs => exact set xs
  | map ms ih => exact map ms ih

theorem Schema.ofSample_of_items_nil {v : Value} (h : v.items? = some []) :
    Schema.ofSample v = .ok (.array none []) := by
  rcases Value.items?_eq_some_iff.1 h with rfl | rfl
  · rfl
  · rfl

/-- The schema of a sequence is that of its first item. -/
theorem Schema.ofSample_of_items_cons {v w : Value} {ws : List Value}
    (h : v.items? = some (w :: ws)) :
    Schema.ofSample v = (Schema.ofSample w).map fun s => .array (some s) [] := by
  rcases Value.items?_eq_some_iff.1 h with rfl | rfl
  · rw [Schema.ofSample]
  · rw [Schema.ofSample]

/-! ### Objects -/

/-- A property with its schema, as a member of a sample makes it. -/
def MakesProperty (m : Atom × Value) (p : String × Schema) : Prop :=
  readText (.atom m.1) = .valid p.1 ∧ Schema.ofSample m.2 = .ok p.2

/-- The text that names a member, if there is one. -/
def Atom.name? (a : Atom) : Option String := (readText (.atom a)).toOption

/-- The members of a mapping that are not null, one after the other under the texts that name them. -/
def Value.listed : Value → Members String Value
  | .map ms => (ms.filter fun m => !m.2.isNull).filterMap fun m => m.1.name?.map fun k => (k, m.2)
  | .atom _ | .list _ | .tuple _ | .set _ => []

/-- The properties that the members of a sample make: one for each that is present. -/
def MakesProperties (ms : Members Atom Value) (ps : Members String Schema) : Prop :=
  List.Forall₂ MakesProperty (ms.filter fun m => !m.2.isNull) ps

theorem sampleMembers_eq_ok_iff {ms : Members Atom Value} {shapes : Members Atom Schema} :
    sampleMembers ms = .ok shapes ↔
      List.Forall₂ (fun m n => n.1 = m.1 ∧ Schema.ofSample m.2 = .ok n.2)
        (ms.filter fun m => !m.2.isNull) shapes := by
  induction ms generalizing shapes with
  | nil =>
      rw [sampleMembers, List.filter_nil, List.forall₂_nil_left_iff, Except.ok.injEq]
      exact eq_comm
  | cons m ms ih =>
      obtain ⟨a, v⟩ := m
      rw [sampleMembers]
      by_cases hv : v.isNull = true
      · simp only [hv, if_true, Bool.not_true, Bool.false_eq_true, not_false_eq_true,
          List.filter_cons_of_neg, ih]
      · simp only [hv, if_false, Bool.not_false, List.filter_cons_of_pos, Bool.false_eq_true,
          List.forall₂_cons_left_iff]
        cases hs : Schema.ofSample v with
        | error e => simp
        | ok s =>
            simp only [map_eq_ok_iff, ih, Except.ok.injEq]
            constructor
            · rintro ⟨rest, hrest, rfl⟩
              exact ⟨(a, s), rest, ⟨rfl, rfl⟩, hrest, rfl⟩
            · rintro ⟨⟨b, t⟩, rest, ⟨rfl, rfl⟩, hrest, rfl⟩
              exact ⟨rest, hrest, rfl⟩

theorem namedProperties_eq_valid_iff {shapes : Members Atom Schema} {ps : Members String Schema} :
    namedProperties shapes = .valid ps ↔
      List.Forall₂ (fun m p => readText (.atom m.1) = .valid p.1 ∧ m.2 = p.2) shapes ps := by
  induction shapes generalizing ps with
  | nil =>
      rw [namedProperties, List.forall₂_nil_left_iff, Checked.valid.injEq]
      exact eq_comm
  | cons m shapes ih =>
      obtain ⟨a, s⟩ := m
      simp only [namedProperties, readMember, Checked.seq_eq_valid_iff, Checked.map_eq_valid_iff,
        Checked.under_eq_valid_iff, Checked.under_valid, Checked.valid.injEq,
        List.forall₂_cons_left_iff, ih]
      constructor
      · rintro ⟨_, rest, ⟨p, ⟨_, _, ⟨k, hk, rfl⟩, rfl, rfl⟩, rfl⟩, hrest, rfl⟩
        exact ⟨(k, s), rest, ⟨hk, rfl⟩, hrest, rfl⟩
      · rintro ⟨⟨k, t⟩, rest, ⟨hk, rfl⟩, hrest, rfl⟩
        exact ⟨_, rest, ⟨(k, s), ⟨_, s, ⟨k, hk, rfl⟩, rfl, rfl⟩, rfl⟩, hrest, rfl⟩

/-- Names that are texts are read as the required ones. -/
theorem readItemsFrom_names {shapes : Members Atom Schema} {ps : Members String Schema}
    (h : namedProperties shapes = .valid ps) (start : Nat) :
    readItemsFrom readText start (shapes.keys.map .atom) = .valid ps.keys := by
  have hnames := namedProperties_eq_valid_iff.1 h
  clear h
  induction hnames generalizing start with
  | nil => rfl
  | cons hm _ ih =>
      rw [Members.keys_cons, List.map_cons, readItemsFrom, hm.1, ih, Members.keys_cons]
      rfl

theorem Schema.ofMembers_eq_valid_iff {shapes : Members Atom Schema} {s : Schema} :
    Schema.ofMembers shapes = .valid s ↔
      ∃ ps, namedProperties shapes = .valid ps
        ∧ s = .object (Members.ofList ps) (Members.keys ps) [] := by
  simp only [Schema.ofMembers, Checked.seq_eq_valid_iff, Checked.map_eq_valid_iff,
    Checked.under_eq_valid_iff]
  constructor
  · rintro ⟨_, req, ⟨ps, hps, rfl⟩, hreq, rfl⟩
    have hnames : readSequence readText (.list (shapes.keys.map .atom)) = .valid ps.keys :=
      readItemsFrom_names hps 0
    rw [hnames, Checked.valid.injEq] at hreq
    exact ⟨ps, hps, by rw [hreq]⟩
  · rintro ⟨ps, hps, rfl⟩
    exact ⟨_, ps.keys, ⟨ps, hps, rfl⟩, readItemsFrom_names hps 0, rfl⟩

/-- The schema of a mapping. -/
theorem Schema.ofSample_map_eq_ok_iff {ms : List (Atom × Value)} {s : Schema} :
    Schema.ofSample (.map ms) = .ok s ↔
      ∃ ps, MakesProperties ms ps ∧ s = .object (Members.ofList ps) (Members.keys ps) [] := by
  have hmakes : ∀ ps, MakesProperties ms ps ↔
      ∃ shapes, sampleMembers ms = .ok shapes ∧ namedProperties shapes = .valid ps := by
    intro ps
    simp only [sampleMembers_eq_ok_iff, namedProperties_eq_valid_iff]
    refine forall₂_comp_iff fun m p => ⟨fun h => ⟨(m.1, p.2), ⟨rfl, h.2⟩, h.1, rfl⟩, ?_⟩
    rintro ⟨n, hm, hp⟩
    exact ⟨hm.1 ▸ hp.1, hp.2 ▸ hm.2⟩
  simp only [hmakes]
  rw [Schema.ofSample]
  cases hms : sampleMembers ms with
  | error e => simp
  | ok shapes =>
      cases hs : Schema.ofMembers shapes with
      | valid t =>
          obtain ⟨ps, hps, rfl⟩ := Schema.ofMembers_eq_valid_iff.1 hs
          simp [hs, hps, eq_comm]
      | invalid issues =>
          have hnone : ∀ ps, namedProperties shapes ≠ .valid ps := fun ps hps => by
            have := Schema.ofMembers_eq_valid_iff.2 ⟨ps, hps, rfl⟩
            rw [hs] at this
            cases this
          simp [hs, hnone]

section

variable {ms : Members Atom Value} {ps : Members String Schema}

/-- A member that is present makes a property. -/
theorem MakesProperties.exists_mem (h : MakesProperties ms ps) {a : Atom} {v : Value}
    (hm : (a, v) ∈ ms) (hv : v.isNull = false) : ∃ p ∈ ps, MakesProperty (a, v) p :=
  forall₂_mem_left h (List.mem_filter.2 ⟨hm, by simpa using hv⟩)

/-- The properties are the schemas of the members that are not null, under the texts that name
them. -/
theorem MakesProperties.forall₂_listed (h : MakesProperties ms ps) :
    List.Forall₂ (fun m p => m.1 = p.1 ∧ Schema.ofSample m.2 = .ok p.2) (Value.map ms).listed ps := by
  rw [MakesProperties] at h
  rw [Value.listed]
  generalize ms.filter (fun m => !m.2.isNull) = members at h ⊢
  induction h with
  | nil => exact .nil
  | @cons m p _ _ hm _ ih =>
      have hname : m.1.name? = some p.1 := by
        rw [Atom.name?, hm.1]
        rfl
      rw [List.filterMap_cons, hname]
      exact .cons ⟨rfl, hm.2⟩ ih

theorem MakesProperties.keys_eq (h : MakesProperties ms ps) :
    Members.keys ps = (Value.map ms).listed.keys := by
  have hlisted := h.forall₂_listed
  clear h
  generalize (Value.map ms).listed = members at hlisted
  induction hlisted with
  | nil => rfl
  | cons hm _ ih => rw [Members.keys_cons, Members.keys_cons, ih, hm.1]

/-- A property is made by a member that is present. -/
theorem MakesProperties.mem (h : MakesProperties ms ps) {k : String} {s : Schema}
    (hp : (k, s) ∈ ps) :
    ∃ a v, (a, v) ∈ ms ∧ v.isNull = false ∧ readText (.atom a) = .valid k
      ∧ Schema.ofSample v = .ok s := by
  obtain ⟨⟨a, v⟩, hm, hname, hs⟩ := forall₂_mem_right h hp
  obtain ⟨hm, hv⟩ := List.mem_filter.1 hm
  exact ⟨a, v, hm, by simpa using hv, hname, hs⟩

end

/-! ### Samples without a schema -/

/-- Wherever a schema looks at a mapping, its names are distinct, and those of the members that are
present are texts. -/
inductive Value.Keyed : Value → Prop
  /-- Atoms. -/
  | atom (a : Atom) : Value.Keyed (.atom a)
  /-- Sequences, which are looked at in their first item. -/
  | sequence {v : Value} {xs : List Value} (items : v.items? = some xs)
      (first : ∀ w ws, xs = w :: ws → Value.Keyed w) : Value.Keyed v
  /-- Mappings, which are looked at in the members that are present. -/
  | map {ms : List (Atom × Value)} (nodup : (Members.keys ms).Nodup)
      (texts : ∀ a v, (a, v) ∈ ms → v.isNull = false → ∃ k, a = .text k)
      (each : ∀ a v, (a, v) ∈ ms → v.isNull = false → Value.Keyed v) : Value.Keyed (.map ms)

/-- Wherever a schema looks at a mapping, `P` holds of its members. -/
inductive Value.AtMappings (P : Members Atom Value → Prop) : Value → Prop
  /-- Atoms. -/
  | atom (a : Atom) : Value.AtMappings P (.atom a)
  /-- Sequences, which are looked at in their first item. -/
  | sequence {v : Value} {xs : List Value} (items : v.items? = some xs)
      (first : ∀ w ws, xs = w :: ws → Value.AtMappings P w) : Value.AtMappings P v
  /-- Collections, which are not looked at. -/
  | set (items : List Atom) : Value.AtMappings P (.set items)
  /-- Mappings, which are looked at in the members that are present. -/
  | map {ms : List (Atom × Value)} (here : P ms)
      (each : ∀ a v, (a, v) ∈ ms → v.isNull = false → Value.AtMappings P v) :
      Value.AtMappings P (.map ms)

/-- Wherever a schema looks at a mapping, no two of its members have one name, as in any mapping. -/
abbrev Value.Proper : Value → Prop := Value.AtMappings fun ms => ms.keys.Nodup

theorem Value.Keyed.member {ms : List (Atom × Value)} (h : Value.Keyed (.map ms)) {a : Atom}
    {v : Value} (hm : (a, v) ∈ ms) (hv : v.isNull = false) : v.Keyed ∧ ∃ k, a = .text k := by
  cases h with
  | sequence items => simp [Value.items?] at items
  | map _ texts each => exact ⟨each a v hm hv, texts a v hm hv⟩

theorem Value.Keyed.first {v w : Value} {ws : List Value} (h : v.Keyed)
    (items_eq : v.items? = some (w :: ws)) : w.Keyed := by
  cases h with
  | atom a => simp [Value.items?] at items_eq
  | sequence items hfirst =>
      rw [items_eq] at items
      exact hfirst w ws (Option.some.inj items).symm
  | map => simp [Value.items?] at items_eq

theorem Value.AtMappings.member {P : Members Atom Value → Prop} {ms : List (Atom × Value)}
    (h : Value.AtMappings P (.map ms)) :
    P ms ∧ ∀ a v, (a, v) ∈ ms → v.isNull = false → Value.AtMappings P v := by
  cases h with
  | sequence items => simp [Value.items?] at items
  | map here each => exact ⟨here, each⟩

theorem Value.AtMappings.first {P : Members Atom Value → Prop} {v w : Value} {ws : List Value}
    (h : Value.AtMappings P v) (items_eq : v.items? = some (w :: ws)) : Value.AtMappings P w := by
  cases h with
  | atom a => simp [Value.items?] at items_eq
  | sequence items hfirst =>
      rw [items_eq] at items
      exact hfirst w ws (Option.some.inj items).symm
  | set xs => simp [Value.items?] at items_eq
  | map => simp [Value.items?] at items_eq

/-- Members whose names are texts make properties. -/
theorem exists_namedProperties {shapes : Members Atom Schema}
    (h : ∀ m ∈ shapes, ∃ k, m.1 = .text k) : ∃ ps, namedProperties shapes = .valid ps := by
  induction shapes with
  | nil => exact ⟨[], rfl⟩
  | cons m shapes ih =>
      obtain ⟨ps, hps⟩ := ih fun n hn => h n (List.mem_cons_of_mem m hn)
      obtain ⟨a, s⟩ := m
      obtain ⟨k, rfl⟩ := h (a, s) List.mem_cons_self
      refine ⟨(k, s) :: ps, ?_⟩
      rw [namedProperties, hps]
      rfl

/-- Members whose names are texts make an object. -/
theorem Schema.exists_ofMembers {ms : Members Atom Value} {shapes : Members Atom Schema}
    (h : sampleMembers ms = .ok shapes)
    (texts : ∀ a v, (a, v) ∈ ms → v.isNull = false → ∃ k, a = .text k) :
    ∃ s, Schema.ofMembers shapes = .valid s := by
  have htexts : ∀ m ∈ shapes, ∃ k, m.1 = .text k := by
    intro m hm
    obtain ⟨⟨a, v⟩, hmem, ha, -⟩ := forall₂_mem_right (sampleMembers_eq_ok_iff.1 h) hm
    obtain ⟨hmem, hv⟩ := List.mem_filter.1 hmem
    exact ha ▸ texts a v hmem (by simpa using hv)
  obtain ⟨ps, hps⟩ := exists_namedProperties htexts
  exact ⟨_, Schema.ofMembers_eq_valid_iff.2 ⟨ps, hps, rfl⟩⟩

theorem exists_of_sampleMembers_eq_error {ms : Members Atom Value} {e : SchemaError}
    (h : sampleMembers ms = .error e) :
    ∃ a v, (a, v) ∈ ms ∧ v.isNull = false ∧ Schema.ofSample v = .error e := by
  induction ms with
  | nil => cases h
  | cons m ms ih =>
      obtain ⟨b, w⟩ := m
      have later : sampleMembers ms = .error e →
          ∃ a v, (a, v) ∈ (b, w) :: ms ∧ v.isNull = false ∧ Schema.ofSample v = .error e := by
        intro hms
        obtain ⟨a, v, hm, hrest⟩ := ih hms
        exact ⟨a, v, List.mem_cons_of_mem _ hm, hrest⟩
      rw [sampleMembers] at h
      by_cases hw : w.isNull = true
      · rw [if_pos hw] at h
        exact later h
      · rw [if_neg hw] at h
        split at h
        · rename_i he
          cases h
          exact ⟨b, w, List.mem_cons_self, by simpa using hw, he⟩
        · exact later (map_eq_error_iff.1 h)

/-- A sample that has no schema holds a value that none describes, or a mapping in which a name is
not a text. -/
theorem Schema.ofSample_eq_error {v : Value} {e : SchemaError} (h : Schema.ofSample v = .error e) :
    (∃ w, e = .unsupportedValue w) ∨ (¬v.Keyed ∧ ∃ issues, e = .invalidNames issues) := by
  induction v using Value.inductItems generalizing e with
  | atom a =>
      rw [Schema.ofSample] at h
      split at h
      · cases h
      · cases h
        exact Or.inl ⟨_, rfl⟩
  | sequence v xs hv ih =>
      cases xs with
      | nil =>
          rw [ofSample_of_items_nil hv] at h
          cases h
      | cons w ws =>
          rw [ofSample_of_items_cons hv] at h
          refine (ih w List.mem_cons_self (map_eq_error_iff.1 h)).imp_right ?_
          exact fun h => ⟨fun hkeyed => h.1 (hkeyed.first hv), h.2⟩
  | set xs =>
      rw [Schema.ofSample] at h
      cases h
      exact Or.inl ⟨_, rfl⟩
  | map ms ih =>
      rw [Schema.ofSample] at h
      split at h
      · rename_i hms
        cases h
        obtain ⟨a, v, hm, hv, he⟩ := exists_of_sampleMembers_eq_error hms
        refine (ih a v hm he).imp_right ?_
        exact fun h => ⟨fun hkeyed => h.1 (hkeyed.member hm hv).1, h.2⟩
      · rename_i shapes hms
        split at h
        · cases h
        · rename_i issues hinvalid
          cases h
          refine Or.inr ⟨fun hkeyed => ?_, _, rfl⟩
          obtain ⟨t, ht⟩ := Schema.exists_ofMembers hms fun a v hm hv => (hkeyed.member hm hv).2
          rw [ht] at hinvalid
          cases hinvalid

/-! ### Schemas that require all they have -/

/-- The schemas that require exactly their properties, at every depth, and carry no free members. -/
inductive Schema.Inferred : Schema → Prop
  /-- An object. -/
  | object {ps : List (String × Schema)} {req : List String} (nodup : (Members.keys ps).Nodup)
      (required : ∀ k, k ∈ req ↔ k ∈ Members.keys ps)
      (each : ∀ k s, (k, s) ∈ ps → Schema.Inferred s) : Schema.Inferred (.object ps req [])
  /-- An array of unknown items. -/
  | untyped : Schema.Inferred (.array none [])
  /-- An array. -/
  | array {s : Schema} (items : Schema.Inferred s) : Schema.Inferred (.array (some s) [])
  /-- A scalar. -/
  | scalar (kind : ScalarKind) : Schema.Inferred (.scalar kind [])

theorem Schema.Inferred.property {s : Schema} (h : s.Inferred) {k : String} {p : Schema}
    (hp : s.property? k = some p) : p.Inferred := by
  cases h with
  | object _ _ each => exact each k p (Members.mem_of_get? hp)
  | untyped => cases hp
  | array _ => cases hp
  | scalar kind => cases hp

theorem Schema.Inferred.item {s p : Schema} (h : s.Inferred) (hp : s.items? = some p) :
    p.Inferred := by
  cases h with
  | object _ _ _ => cases hp
  | untyped => cases hp
  | array items =>
      cases hp
      exact items
  | scalar kind => cases hp

/-- The schema of a sample requires exactly the properties that it has. -/
theorem Schema.inferred_ofSample {v : Value} {s : Schema} (h : Schema.ofSample v = .ok s) :
    s.Inferred := by
  induction v using Value.inductItems generalizing s with
  | atom a =>
      rw [Schema.ofSample] at h
      split at h
      · cases h
        exact .scalar _
      · cases h
  | sequence v xs hv ih =>
      cases xs with
      | nil =>
          rw [Schema.ofSample_of_items_nil hv, Except.ok.injEq] at h
          exact h ▸ .untyped
      | cons w xs =>
          rw [Schema.ofSample_of_items_cons hv] at h
          obtain ⟨t, hw, rfl⟩ := map_eq_ok_iff.1 h
          exact .array (ih w List.mem_cons_self hw)
  | set xs => simp [Schema.ofSample] at h
  | map ms ih =>
      obtain ⟨ps, hm, rfl⟩ := Schema.ofSample_map_eq_ok_iff.1 h
      refine .object (Members.nodup_keys_ofList ps) (fun k => Members.mem_keys_ofList.symm)
        fun k s hs => ?_
      replace hs := Members.mem_of_mem_ofList hs
      obtain ⟨a, v, hv, -, -, ht⟩ := hm.mem hs
      exact ih a v hv ht

/-! ### Runs of samples -/

/-- Joins schemas one after the other into the one recorded before, if there is one. -/
def joinAll (before : Option Schema) : List Schema → Except SchemaError (Option Schema)
  | [] => .ok before
  | s :: rest =>
    match joinOption before s with
    | .error e => .error e
    | .ok joined => joinAll (some joined) rest

/-- The schema of a run of samples, if there are any: each is joined into that of the ones before
it. -/
def Schema.ofSamples (vs : List Value) : Except SchemaError (Option Schema) :=
  match vs.mapM Schema.ofSample with
  | .error e => .error e
  | .ok ss => joinAll none ss

theorem joinAll_cons {before : Option Schema} {s : Schema} {rest : List Schema}
    {after : Option Schema} :
    joinAll before (s :: rest) = .ok after ↔
      ∃ t, joinOption before s = .ok t ∧ joinAll (some t) rest = .ok after := by
  rw [joinAll]
  cases joinOption before s <;> simp

/-- A run in two parts. -/
theorem joinAll_append {before after : Option Schema} {ss ts : List Schema} :
    joinAll before (ss ++ ts) = .ok after ↔
      ∃ mid, joinAll before ss = .ok mid ∧ joinAll mid ts = .ok after := by
  induction ss generalizing before with
  | nil => simp [joinAll]
  | cons s ss ih =>
      rw [List.cons_append, joinAll_cons]
      constructor
      · rintro ⟨t, ht, hrest⟩
        obtain ⟨mid, hss, hts⟩ := ih.1 hrest
        exact ⟨mid, joinAll_cons.2 ⟨t, ht, hss⟩, hts⟩
      · rintro ⟨mid, hss, hts⟩
        obtain ⟨t, ht, hrest⟩ := joinAll_cons.1 hss
        exact ⟨t, ht, ih.2 ⟨mid, hrest, hts⟩⟩

/-- A run that starts with a schema, or that joins one, ends with one. -/
theorem joinAll_some {s : Schema} {ss : List Schema} {after : Option Schema}
    (h : joinAll (some s) ss = .ok after) : ∃ r, after = some r := by
  induction ss generalizing s with
  | nil => exact ⟨s, (Except.ok.inj h).symm⟩
  | cons t ss ih =>
      obtain ⟨u, -, hrest⟩ := joinAll_cons.1 h
      exact ih hrest

/-- A run that ends without a schema starts from nothing and joins nothing. -/
theorem eq_nil_of_joinAll {before : Option Schema} {ss : List Schema}
    (h : joinAll before ss = .ok none) : before = none ∧ ss = [] := by
  cases ss with
  | nil => exact ⟨Except.ok.inj h, rfl⟩
  | cons s ss =>
      obtain ⟨t, -, hrest⟩ := joinAll_cons.1 h
      obtain ⟨r, hr⟩ := joinAll_some hrest
      cases hr

theorem Schema.ofSamples_eq_ok_iff {vs : List Value} {after : Option Schema} :
    Schema.ofSamples vs = .ok after ↔
      ∃ ss, List.Forall₂ (fun v s => Schema.ofSample v = .ok s) vs ss
        ∧ joinAll none ss = .ok after := by
  rw [Schema.ofSamples]
  simp only [← mapM_eq_ok_iff]
  cases vs.mapM Schema.ofSample <;> simp

end ApiScribe
