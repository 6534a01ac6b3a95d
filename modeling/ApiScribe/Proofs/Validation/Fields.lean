/-
**Reading back what was shown.**

An object is shown as its fields, of which absent ones are left out, and its free members.  Reading
such data finds each field under its first name, or its default, and takes the rest as free members.
There is one exception: where a field is left out, a free member under its second name takes its
place.

Main definitions:

* `ApiScribe.FreeBeside` — free members as they may stand beside fields;
* `ApiScribe.Shows` — members are those of an object with given fields and free members;
* `ApiScribe.NamesField` — the names under which a field is found, the first of which is its own.

Main results:

* `ApiScribe.View.objectOf_eq` — fields and free members do not override each other;
* `ApiScribe.Shows.optionalField`, `ApiScribe.Shows.requiredField` — **a field is read back**;
* `ApiScribe.Shows.freeMembers` — **and so are the free members**;
* `ApiScribe.readSequence_map`, `ApiScribe.ofList_readMembersWith_eq_valid_iff` — sequences and
  mappings.
-/

import ApiScribe.Document.OfValue
import ApiScribe.Document.ToValue
import ApiScribe.Proofs.Data.Json
import ApiScribe.Proofs.Outcome

set_option autoImplicit false

namespace ApiScribe

variable {α β : Type}

/-! ### Objects -/

/-- Free members as they may stand beside fields with the given names: theirs are distinct, and none
is the name of a field. -/
def FreeBeside (names : List String) (extras : Extras) : Prop :=
  extras.keys.Nodup ∧ ∀ k ∈ extras.keys, k ∉ names

/-- Free members that a JSON text can hold, of which none is absent. -/
def JsonExtras (extras : Extras) : Prop := ∀ m ∈ extras, m.2.IsJson ∧ m.2.isNull = false

theorem shownMembers_eq_self {extras : Extras} (h : JsonExtras extras) :
    shownMembers false extras = extras := by
  rw [shownMembers, if_neg Bool.false_ne_true]
  refine List.filter_eq_self.2 fun m hm => ?_
  rw [(h m hm).2]
  rfl

theorem keys_shownMembers_sublist (fields : Members String Value) :
    (shownMembers false fields).keys.Sublist fields.keys := by
  rw [shownMembers, if_neg Bool.false_ne_true]
  exact List.filter_sublist.map _

theorem get?_shownMembers {fields : Members String Value} (hn : fields.keys.Nodup) {name : String}
    {v : Value} (h : fields.get? name = some v) :
    (shownMembers false fields).get? name = if v.isNull then none else some v := by
  rw [shownMembers, if_neg Bool.false_ne_true]
  induction fields with
  | nil => cases h
  | cons m fields ih =>
      rw [Members.keys_cons, List.nodup_cons] at hn
      rw [Members.get?_cons] at h
      by_cases hm : m.1 = name
      · rw [if_pos hm, Option.some.injEq] at h
        -- no later field has the name
        have hrest : Members.get? (fields.filter fun m => !m.2.isNull) name = none := by
          refine Members.get?_eq_none_iff.2 fun hk => hn.1 ?_
          rw [hm]
          exact (List.filter_sublist.map _).subset hk
        rw [List.filter_cons, h]
        cases hv : v.isNull with
        | true => simpa using hrest
        | false => simp [Members.get?_cons, hm, h]
      · rw [if_neg hm] at h
        rw [List.filter_cons]
        split
        · rw [Members.get?_cons, if_neg hm]
          exact ih hn.2 h
        · exact ih hn.2 h

theorem get?_append (ms ns : Members String Value) (name : String) :
    Members.get? (ms ++ ns) name = (ms.get? name).or (ns.get? name) := by
  induction ms with
  | nil => rfl
  | cons m ms ih =>
      rw [List.cons_append, Members.get?_cons, Members.get?_cons]
      split
      · rfl
      · exact ih

/-- The members of an object that is shown: fields that are not absent, and free members. -/
structure Shows (ms : Members Atom Value) (fields : Members String Value) (extras : Extras) :
    Prop where
  /-- The fields come first. -/
  eq : ms = (shownMembers false fields ++ extras).named
  /-- The fields have distinct names. -/
  nodup : fields.keys.Nodup
  /-- The free members stand beside the fields. -/
  free : FreeBeside fields.keys extras

/-- **Fields and free members do not override each other.** -/
theorem View.objectOf_eq {fields : Members String Value} {extras : Extras}
    (hn : fields.keys.Nodup) (hfree : FreeBeside fields.keys extras) (hjson : JsonExtras extras) :
    ({} : View).objectOf fields extras = .object (shownMembers false fields ++ extras) := by
  have hsub := keys_shownMembers_sublist fields
  rw [View.objectOf, shownMembers_eq_self hjson, Members.putAll_of_disjoint]
  rw [List.nodup_append]
  refine ⟨hn.sublist hsub, hfree.1, ?_⟩
  rintro a ha b hb rfl
  exact hfree.2 a hb (hsub.subset ha)

theorem Shows.object {fields : Members String Value} {extras : Extras} (hn : fields.keys.Nodup)
    (hfree : FreeBeside fields.keys extras) :
    Shows (shownMembers false fields ++ extras).named fields extras := ⟨rfl, hn, hfree⟩

theorem View.exists_shows {fields : Members String Value} {extras : Extras}
    (hn : fields.keys.Nodup) (hfree : FreeBeside fields.keys extras) (hjson : JsonExtras extras) :
    ∃ ms, ({} : View).objectOf fields extras = .map ms ∧ Shows ms fields extras :=
  ⟨_, View.objectOf_eq hn hfree hjson, .object hn hfree⟩

/-- An object that is shown is a JSON value if its fields are. -/
theorem isJson_object_shown {fields : Members String Value} {extras : Extras}
    (hn : fields.keys.Nodup) (hfree : FreeBeside fields.keys extras) (hjson : JsonExtras extras)
    (hfields : ∀ m ∈ fields, m.2.IsJson) :
    (Value.object (shownMembers false fields ++ extras)).IsJson := by
  have hsub := keys_shownMembers_sublist fields
  refine Value.isJson_object_iff.2 ⟨?_, fun m hm => ?_⟩
  · rw [Members.keys, List.map_append, List.nodup_append]
    refine ⟨hn.sublist hsub, hfree.1, ?_⟩
    rintro a ha b hb rfl
    exact hfree.2 a hb (hsub.subset ha)
  · rcases List.mem_append.1 hm with hm | hm
    · rw [shownMembers, if_neg Bool.false_ne_true] at hm
      exact hfields m (List.mem_filter.1 hm).1
    · exact (hjson m hm).1

/-- The names under which a field is found.  The first is its own; where the field is absent, no free
member has another one of them. -/
def NamesField (extras : Extras) (field : String × Value) (names : List String) : Prop :=
  ∃ rest, names = field.1 :: rest ∧ (field.2.isNull = true → ∀ k ∈ rest, k ∉ extras.keys)

section

variable {ms : Members Atom Value} {fields : Members String Value} {extras : Extras}

/-- What is found under the name of a field. -/
theorem Shows.get?_field (h : Shows ms fields extras) {name : String} {v : Value}
    (hv : fields.get? name = some v) :
    ms.get? (.text name) = if v.isNull then none else some v := by
  have hfree : extras.get? name = none :=
    Members.get?_eq_none_iff.2 fun hk => h.free.2 name hk (Members.mem_keys_of_get? hv)
  rw [h.eq, Members.get?_named, get?_append, get?_shownMembers h.nodup hv, hfree, Option.or_none]

theorem Shows.get?_shown (h : Shows ms fields extras) {name : String} {v : Value}
    (hv : fields.get? name = some v) (hnull : v.isNull = false) :
    ms.get? (.text name) = some v := by
  rw [h.get?_field hv, hnull]
  rfl

/-- What is found under any other name is a free member. -/
theorem Shows.get?_free (h : Shows ms fields extras) {name : String} (hname : name ∉ fields.keys) :
    ms.get? (.text name) = extras.get? name := by
  have hnone : (shownMembers false fields).get? name = none :=
    Members.get?_eq_none_iff.2 fun hk => hname ((keys_shownMembers_sublist fields).subset hk)
  rw [h.eq, Members.get?_named, get?_append, hnone, Option.none_or]

theorem findField_eq_none {names : List String} (h : ∀ k ∈ names, ms.get? (.text k) = none) :
    findField ms names = none := by
  induction names with
  | nil => rfl
  | cons k names ih =>
      rw [findField, h k List.mem_cons_self]
      exact ih fun j hj => h j (List.mem_cons_of_mem k hj)

theorem mem_of_findField {names : List String} {k : String} {v : Value}
    (h : findField ms names = some (k, v)) : k ∈ names ∧ ms.get? (.text k) = some v := by
  induction names with
  | nil => cases h
  | cons n names ih =>
      rw [findField] at h
      split at h
      · rename_i w hw
        cases h
        exact ⟨List.mem_cons_self, hw⟩
      · obtain ⟨hk, hget⟩ := ih h
        exact ⟨List.mem_cons_of_mem n hk, hget⟩

/-- A field that is shown is found under its own name, and one that is absent is not found. -/
theorem Shows.findField (h : Shows ms fields extras) {name : String} {v : Value}
    (hv : fields.get? name = some v) {rest : List String} (hfields : ∀ k ∈ rest, k ∉ fields.keys)
    (hrest : v.isNull = true → ∀ k ∈ rest, k ∉ extras.keys) :
    findField ms (name :: rest) = if v.isNull then none else some (name, v) := by
  rw [ApiScribe.findField, h.get?_field hv]
  cases hnull : v.isNull with
  | true =>
      refine findField_eq_none fun k hk => ?_
      rw [h.get?_free (hfields k hk)]
      exact Members.get?_eq_none_iff.2 (hrest hnull k hk)
  | false => rfl

/-- **A field with a default is read back.** -/
theorem Shows.optionalField (h : Shows ms fields extras) {name : String} {v : Value}
    (hv : fields.get? name = some v) {rest : List String} {default a : α}
    {read : Value → Checked α} (hfields : ∀ k ∈ rest, k ∉ fields.keys)
    (hrest : v.isNull = true → ∀ k ∈ rest, k ∉ extras.keys)
    (hdefault : v.isNull = true → default = a) (hread : v.isNull = false → read v = .valid a) :
    optionalField ms (name :: rest) default read = .valid a := by
  rw [ApiScribe.optionalField, h.findField hv hfields hrest]
  cases hnull : v.isNull with
  | true => exact congrArg Checked.valid (hdefault hnull)
  | false => simp [hread hnull]

/-- What is nothing where it is absent is read back. -/
theorem Shows.optionalField_nullable (h : Shows ms fields extras) {name : String} {o : Option α}
    {g : α → Value} {rest : List String} {read : Value → Checked α}
    (hv : fields.get? name = some (o.elim .null g)) (hfields : ∀ k ∈ rest, k ∉ fields.keys)
    (hrest : o = none → ∀ k ∈ rest, k ∉ extras.keys) (hnull : ∀ a, (g a).isNull = false)
    (hread : ∀ a, o = some a → read (g a) = .valid a) :
    ApiScribe.optionalField ms (name :: rest) none (readNullable read) = .valid o := by
  cases o with
  | none => exact h.optionalField hv hfields (fun _ => hrest rfl) (fun _ => rfl) nofun
  | some a =>
      have hshown : (g a).isNull = true → False := by simp [hnull a]
      refine h.optionalField hv hfields (fun h => (hshown h).elim) (fun h => (hshown h).elim)
        fun _ => ?_
      rw [Option.elim, readNullable, hnull a, hread a rfl]
      rfl

/-- And so is a list that is absent where it is empty. -/
theorem Shows.optionalField_list (h : Shows ms fields extras) {name : String} {as : List α}
    {g : List α → Value} {read : Value → Checked (List α)}
    (hv : fields.get? name = some (if as.isEmpty then .null else g as))
    (hnull : (g as).isNull = false) (hread : read (g as) = .valid as) :
    ApiScribe.optionalField ms [name] [] read = .valid as := by
  cases as with
  | nil => exact h.optionalField hv (by simp) (by simp) (fun _ => rfl) nofun
  | cons a as =>
      refine h.optionalField (v := g (a :: as)) hv (by simp) (by simp) (fun h => ?_) fun _ => hread
      rw [hnull] at h
      cases h

/-- A field that is shown is read under its own name. -/
theorem Shows.optionalField_shown (h : Shows ms fields extras) (name : String) {v : Value}
    (hv : fields.get? name = some v) (hnull : v.isNull = false) (rest : List String) (default : α)
    (read : Value → Checked α) :
    ApiScribe.optionalField ms (name :: rest) default read = (read v).under (.name name) := by
  rw [ApiScribe.optionalField, ApiScribe.findField, h.get?_shown hv hnull]

/-- **A field without a default is read back.** -/
theorem Shows.requiredField (h : Shows ms fields extras) {name : String} {v : Value}
    (hv : fields.get? name = some v) {rest : List String} {a : α} {read : Value → Checked α}
    (hnull : v.isNull = false) (hread : read v = .valid a) :
    requiredField ms (name :: rest) read = .valid a := by
  rw [ApiScribe.requiredField, ApiScribe.findField, h.get?_field hv]
  simp [hnull, hread]

theorem freeMembersBeside_append (taken : List String) (first : Members String Value)
    (second : Members String Value) (hfirst : ∀ k ∈ first.keys, k ∈ taken)
    (hsecond : ∀ k ∈ second.keys, k ∉ taken) :
    freeMembersBeside taken (first ++ second).named = .valid second := by
  induction first with
  | cons m first ih =>
      rw [List.cons_append, Members.named, List.map_cons, freeMembersBeside]
      have hm : taken.contains m.1 = true := List.contains_iff_mem.2 (hfirst m.1 (by simp))
      simp only [readMemberName, hm, if_true]
      exact ih fun k hk => hfirst k (by simp [hk])
  | nil =>
      rw [List.nil_append]
      clear hfirst
      induction second with
      | nil => rfl
      | cons m second ih =>
          have hm : taken.contains m.1 = false := by
            rw [Bool.eq_false_iff, Ne, List.contains_iff_mem]
            exact hsecond m.1 (by simp)
          have hrest := ih fun k hk => hsecond k (by simp [hk])
          rw [Members.named] at hrest
          rw [Members.named, List.map_cons, freeMembersBeside]
          simp only [readMemberName, hm, hrest]
          rfl

/-- **The free members are read back.** -/
theorem Shows.freeMembers (h : Shows ms fields extras) {names : List (List String)}
    (hnames : List.Forall₂ (NamesField extras) fields names) :
    freeMembers ms names = .valid extras := by
  -- every field that is shown is taken under its own name
  have htaken : ∀ k ∈ (shownMembers false fields).keys, k ∈ takenNames ms names := by
    intro k hk
    obtain ⟨⟨j, v⟩, hm, rfl⟩ := List.mem_map.1 hk
    rw [shownMembers, if_neg Bool.false_ne_true, List.mem_filter] at hm
    obtain ⟨hm, hshown⟩ := hm
    have hnull : v.isNull = false := by simpa using hshown
    obtain ⟨ns, hns, rest, rfl, -⟩ := forall₂_mem_left hnames hm
    have hv := Members.get?_of_mem h.nodup hm
    refine List.mem_filterMap.2 ⟨_, hns, ?_⟩
    rw [ApiScribe.findField, h.get?_field hv, hnull]
    rfl
  -- and no free member is taken
  have hfree : ∀ k ∈ extras.keys, k ∉ takenNames ms names := by
    intro k hk hmem
    obtain ⟨ns, hns, hfound⟩ := List.mem_filterMap.1 hmem
    obtain ⟨⟨j, v⟩, hj, rfl⟩ := Option.map_eq_some_iff.1 hfound
    obtain ⟨⟨name, w⟩, hm, rest, rfl, hrest⟩ := forall₂_mem_right hnames hns
    have hw := Members.get?_of_mem h.nodup hm
    obtain ⟨hjmem, hjget⟩ := mem_of_findField hj
    rcases List.mem_cons.1 hjmem with rfl | hjrest
    · exact h.free.2 _ hk (Members.mem_keys_of_get? hw)
    · cases hnull : w.isNull with
      | true => exact hrest hnull j hjrest hk
      | false =>
          rw [ApiScribe.findField, h.get?_field hw, hnull] at hj
          cases hj
          exact h.free.2 _ hk (Members.mem_keys_of_get? hw)
  rw [ApiScribe.freeMembers, h.eq]
  rw [h.eq] at htaken hfree
  rw [freeMembersBeside_append _ _ _ htaken hfree, Checked.map_valid,
    Members.ofList_eq_self h.free.1]

end

/-! ### Sequences and mappings -/

theorem readItemsFrom_map {f : α → Value} {read : Value → Checked α} {xs : List α}
    (h : ∀ x ∈ xs, read (f x) = .valid x) (start : Nat) :
    readItemsFrom read start (xs.map f) = .valid xs := by
  induction xs generalizing start with
  | nil => rfl
  | cons x xs ih =>
      have hrest := ih (fun y hy => h y (List.mem_cons_of_mem x hy)) (start + 1)
      rw [List.map_cons, readItemsFrom, h x List.mem_cons_self, hrest]
      rfl

/-- A sequence is read back if its items are. -/
theorem readSequence_map {f : α → Value} {read : Value → Checked α} {xs : List α}
    (h : ∀ x ∈ xs, read (f x) = .valid x) :
    readSequence read (.list (xs.map f)) = .valid xs :=
  readItemsFrom_map h 0

@[simp] theorem Members.keys_mapValues (f : α → β) (ms : Members String α) :
    (ms.mapValues f).keys = ms.keys := by
  rw [Members.keys, Members.mapValues, List.map_map]
  rfl

theorem readTexts (texts : List String) :
    readSequence readText (textsToValue texts) = .valid texts :=
  readSequence_map fun _ _ => rfl

/-- The members of a mapping are read one by one. -/
theorem readMembersWith_eq_valid_iff {read : Value → Checked α} {ms : Members String Value}
    {ns : Members String α} :
    readMembersWith read ms.named = .valid ns ↔
      List.Forall₂ (fun m n => m.1 = n.1 ∧ read m.2 = .valid n.2) ms ns := by
  induction ms generalizing ns with
  | nil =>
      rw [List.forall₂_nil_left_iff]
      exact ⟨fun h => (Checked.valid.inj h).symm, fun h => h ▸ rfl⟩
  | cons m ms ih =>
      have hmember : ∀ b, readMember (.text m.1) (read m.2) = .valid b ↔
          m.1 = b.1 ∧ read m.2 = .valid b.2 := by
        intro b
        rw [readMember]
        cases read m.2 with
        | valid a =>
            change Checked.valid (m.1, a) = .valid b ↔ _
            rw [Checked.valid.injEq, Checked.valid.injEq, Prod.ext_iff]
        | invalid issues =>
            refine iff_of_false (fun h => ?_) (fun h => ?_)
            · cases h
            · cases h.2
      rw [Members.named, List.map_cons, readMembersWith, List.forall₂_cons_left_iff,
        Checked.seq_eq_valid_iff]
      constructor
      · rintro ⟨g, rest, hg, hrest, rfl⟩
        obtain ⟨b, hb, rfl⟩ := Checked.map_eq_valid_iff.1 hg
        exact ⟨b, rest, (hmember b).1 hb, ih.1 hrest, rfl⟩
      · rintro ⟨b, rest, hb, hrest, rfl⟩
        exact ⟨_, rest, Checked.map_eq_valid_iff.2 ⟨b, (hmember b).2 hb, rfl⟩, ih.2 hrest, rfl⟩

/-- **A mapping is read back exactly if its members are.** -/
theorem ofList_readMembersWith_eq_valid_iff {f : α → Value} {read : Value → Checked α}
    {ms : Members String α} (hn : ms.keys.Nodup) :
    Members.ofList <$> readMembersWith read (ms.mapValues f).named = .valid ms ↔
      ∀ m ∈ ms, read (f m.2) = .valid m.2 := by
  have hkeys : ∀ {ns : Members String α}, List.Forall₂ (fun m n => m.1 = n.1
      ∧ read m.2 = .valid n.2) (ms.mapValues f) ns → ns.keys = ms.keys := by
    intro ns h
    rw [Members.mapValues, List.forall₂_map_left_iff] at h
    have hfst := h.imp fun m n hmn => hmn.1
    rw [Members.keys, Members.keys]
    clear h hn
    induction hfst with
    | nil => rfl
    | cons hmn _ ih => rw [List.map_cons, List.map_cons, hmn, ih]
  rw [Checked.map_eq_valid_iff]
  constructor
  · rintro ⟨ns, hread, hns⟩ m hm
    have h := readMembersWith_eq_valid_iff.1 hread
    rw [Members.ofList_eq_self (hkeys h ▸ hn)] at hns
    subst hns
    rw [Members.mapValues, List.forall₂_map_left_iff, List.forall₂_same] at h
    exact (h m hm).2
  · intro h
    refine ⟨ms, readMembersWith_eq_valid_iff.2 ?_, Members.ofList_eq_self hn⟩
    rw [Members.mapValues, List.forall₂_map_left_iff, List.forall₂_same]
    exact fun m hm => ⟨rfl, h m hm⟩

/-- Where the names are texts already, answers are read like any mapping. -/
theorem readResponses_object {ms : Members String Value} (hn : ms.keys.Nodup) :
    readResponses (.object ms) = readMapping Response.ofValue (.object ms) := by
  have hnamed : (ms.named.map fun m => (m.1.plain, m.2)) = ms := by
    rw [Members.named, List.map_map]
    exact List.map_id _
  rw [readResponses, Value.object, ← Members.named, asMapping, hnamed, Members.ofList_eq_self hn]
  rfl

end ApiScribe
