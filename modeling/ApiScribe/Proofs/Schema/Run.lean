/-
**The schema of a run, said of its samples.**

The schema of a run of samples is computed join by join, but it can be read off the samples.  A run
of mappings requires the names of the first sample that all others have, as often as the first sample
lists them, which is once unless two of its members are named by one text; and it has the names that
any sample has.  What
it says of a name that the first sample has is the schema of a run again: of what the leading
samples have there, up to the first one that lacks the name.  Any other name keeps the schema of the
first sample that has it.  A run of sequences says of the items what the run of all first items
says.

Main definitions:

* `ApiScribe.Value.present` — the members of a mapping that are not null, by name;
* `ApiScribe.Value.first?` — the first item of a sequence;
* `ApiScribe.Schema.DescribesMappings`, `ApiScribe.Schema.DescribesSequences` — the schema of a run
  in terms of the samples.

Main results:

* `ApiScribe.Schema.outline_of_ofSample` — what the schema of a sample says, one step inside;
* `ApiScribe.Schema.describes_of_ofSamples` — **the schema of a run in closed form**.
-/

import ApiScribe.Proofs.Schema.Outline

set_option autoImplicit false

namespace ApiScribe

/-- The members of a mapping that are not null, by name: of members with one name the last one counts,
in the place of the first. -/
def Value.present (v : Value) : Members String Value := Members.ofList v.listed

/-- The first item of a sequence. -/
def Value.first? (v : Value) : Option Value := v.items?.bind List.head?

/-! ### Mappings that agree name by name -/

namespace Members

variable {α β : Type} {S : α → β → Prop}

/-- Two mappings have the same names in the same order, and what stands under them is related. -/
def Related (S : α → β → Prop) (xs : Members String α) (ys : Members String β) : Prop :=
  List.Forall₂ (fun m n => m.1 = n.1 ∧ S m.2 n.2) xs ys

section

variable {xs new : Members String α} {ys new' : Members String β}

theorem Related.keys_eq (h : xs.Related S ys) : xs.keys = ys.keys := by
  induction h with
  | nil => rfl
  | cons hmn _ ih => rw [keys_cons, keys_cons, hmn.1, ih]

theorem Related.get? (h : xs.Related S ys) (k : String) :
    Option.Rel S (xs.get? k) (ys.get? k) := by
  induction h with
  | nil => exact .none
  | cons hmn _ ih =>
      rw [get?_cons, get?_cons, ← hmn.1]
      split
      · exact .some hmn.2
      · exact ih

theorem Related.put (h : xs.Related S ys) (k : String) {a : α} {b : β} (hab : S a b) :
    (xs.put k a).Related S (ys.put k b) := by
  induction h with
  | nil => exact .cons ⟨rfl, hab⟩ .nil
  | @cons m n _ _ hmn hrest ih =>
      obtain ⟨j, a'⟩ := m
      obtain ⟨j', b'⟩ := n
      obtain ⟨rfl, hab'⟩ : j = j' ∧ S a' b' := hmn
      rw [Members.put, Members.put]
      split
      · exact .cons ⟨rfl, hab⟩ hrest
      · exact .cons ⟨rfl, hab'⟩ ih

theorem Related.putAll (h : xs.Related S ys) (hnew : new.Related S new') :
    (xs.putAll new).Related S (ys.putAll new') := by
  induction hnew generalizing xs ys with
  | nil => exact h
  | @cons m n _ _ hmn _ ih =>
      rw [putAll_cons, putAll_cons, ← hmn.1]
      exact ih (h.put m.1 hmn.2)

end

end Members

namespace Schema

/-! ### One sample -/

/-- A sample that is absent, or has a schema, as the schema is. -/
abbrev Sampled : Option Value → Option Schema → Prop :=
  Option.Rel fun v s => ofSample v = .ok s

/-- The properties of the schema of a mapping are the schemas of what is present in it. -/
theorem related_present {ms : List (Atom × Value)} {ps : Members String Schema}
    (h : MakesProperties ms ps) :
    (Value.map ms).present.Related (fun v s => ofSample v = .ok s) (Members.ofList ps) :=
  Members.Related.putAll .nil h.forall₂_listed

/-- The schema of a sample has the names that are present in it, with the schemas of what is there,
and the schema of the first item. -/
theorem outline_of_ofSample {v : Value} {s : Schema} (h : ofSample v = .ok s) :
    s.names = v.present.keys ∧ (∀ k, Sampled (v.present.get? k) (s.property? k))
      ∧ Sampled v.first? s.items? := by
  have sequence : ∀ xs, v.items? = some xs → v.present = [] →
      s.names = v.present.keys ∧ (∀ k, Sampled (v.present.get? k) (s.property? k))
        ∧ Sampled v.first? s.items? := by
    intro xs hxs hpresent
    rw [hpresent, Value.first?, hxs]
    cases xs with
    | nil =>
        rw [ofSample_of_items_nil hxs, Except.ok.injEq] at h
        subst h
        exact ⟨rfl, fun k => .none, .none⟩
    | cons w ws =>
        rw [ofSample_of_items_cons hxs] at h
        obtain ⟨t, ht, rfl⟩ := map_eq_ok_iff.1 h
        exact ⟨rfl, fun k => .none, .some ht⟩
  cases v with
  | atom a =>
      rw [ofSample] at h
      split at h
      · cases h
        exact ⟨rfl, fun k => .none, .none⟩
      · cases h
  | list xs => exact sequence xs rfl rfl
  | tuple xs => exact sequence xs rfl rfl
  | set xs => cases h
  | map ms =>
      obtain ⟨ps, hm, rfl⟩ := ofSample_map_eq_ok_iff.1 h
      have hrelated := related_present hm
      exact ⟨hrelated.keys_eq.symm, hrelated.get?, .none⟩

theorem typeName_of_items {v : Value} {s : Schema} {xs : List Value} (h : ofSample v = .ok s)
    (hxs : v.items? = some xs) : s.typeName = "array" := by
  cases xs with
  | nil =>
      rw [ofSample_of_items_nil hxs, Except.ok.injEq] at h
      exact h ▸ rfl
  | cons w ws =>
      rw [ofSample_of_items_cons hxs] at h
      obtain ⟨t, -, rfl⟩ := map_eq_ok_iff.1 h
      rfl

/-- The schema of a mapping requires the names that it lists. -/
theorem required_of_ofSample {v : Value} {s : Schema} (h : ofSample v = .ok s)
    (hobject : s.typeName = "object") : s.required = v.listed.keys := by
  cases v with
  | atom a =>
      rw [ofSample] at h
      split at h
      · cases h
        exact absurd hobject (name_ne _).1
      · cases h
  | list xs => exact absurd (hobject.symm.trans (typeName_of_items h rfl)) (by decide)
  | tuple xs => exact absurd (hobject.symm.trans (typeName_of_items h rfl)) (by decide)
  | set xs => cases h
  | map ms =>
      obtain ⟨ps, hm, rfl⟩ := ofSample_map_eq_ok_iff.1 h
      exact hm.keys_eq

/-! ### Many samples -/

/-- What the leading samples of a run, up to the first one without the member, have there. -/
def leadingMembers (k : String) (vs : List Value) : List Value :=
  (vs.takeWhile fun v => v.present.has k).filterMap fun v => v.present.get? k

section

variable {vs : List Value} {ss : List Schema}

theorem forall₂_leading (h : List.Forall₂ (fun v s => ofSample v = .ok s) vs ss) (k : String) :
    List.Forall₂ (fun v s => ofSample v = .ok s) (leadingMembers k vs) (leading k ss) := by
  induction h with
  | nil => exact .nil
  | @cons v s vs ss hv _ ih =>
      have hk := (outline_of_ofSample hv).2.1 k
      rw [leadingMembers, List.takeWhile_cons, leading, Members.has]
      generalize hw : v.present.get? k = w at hk
      generalize s.property? k = p at hk
      cases hk with
      | none => exact .nil
      | some hwp =>
          simp only [Option.isSome_some, if_true, List.filterMap_cons, hw]
          exact .cons hwp ih

theorem sampled_findSome? (h : List.Forall₂ (fun v s => ofSample v = .ok s) vs ss) (k : String) :
    Sampled (vs.findSome? (·.present.get? k)) (ss.findSome? (·.property? k)) := by
  induction h with
  | nil => exact .none
  | @cons v s vs ss hv _ ih =>
      have hk := (outline_of_ofSample hv).2.1 k
      rw [List.findSome?_cons, List.findSome?_cons]
      generalize v.present.get? k = w at hk ⊢
      generalize s.property? k = p at hk ⊢
      cases hk with
      | none => exact ih
      | some hwp => exact .some hwp

theorem forall₂_first (h : List.Forall₂ (fun v s => ofSample v = .ok s) vs ss) :
    List.Forall₂ (fun v s => ofSample v = .ok s) (vs.filterMap Value.first?)
      (ss.filterMap items?) := by
  have hfirst : ∀ ⦃v s⦄, ofSample v = .ok s → Sampled v.first? s.items? :=
    fun _ _ hv => (outline_of_ofSample hv).2.2
  exact List.rel_filterMap hfirst h

theorem flatMap_names (h : List.Forall₂ (fun v s => ofSample v = .ok s) vs ss) :
    ss.flatMap names = vs.flatMap fun v => v.present.keys := by
  induction h with
  | nil => rfl
  | cons hv _ ih => rw [List.flatMap_cons, List.flatMap_cons, ih, (outline_of_ofSample hv).1]

theorem all_names (h : List.Forall₂ (fun v s => ofSample v = .ok s) vs ss) (k : String) :
    (ss.all fun s => s.names.contains k) = vs.all fun v => v.present.has k := by
  induction h with
  | nil => rfl
  | @cons v s _ _ hv _ ih =>
      have hk : s.names.contains k = v.present.has k := by
        rw [Bool.eq_iff_iff, Members.has_iff_mem_keys, (outline_of_ofSample hv).1]
        exact List.contains_iff_mem
      rw [List.all_cons, List.all_cons, ih, hk]

end

theorem Plain.exists_object {r : Schema} (h : r.Plain) (htype : r.typeName = "object") :
    ∃ ps req, r = .object ps req [] := by
  cases h with
  | object _ _ _ => exact ⟨_, _, rfl⟩
  | untyped => simp [typeName] at htype
  | array _ => simp [typeName] at htype
  | scalar kind => exact absurd htype (name_ne kind).1

theorem Plain.exists_array {r : Schema} (h : r.Plain) (htype : r.typeName = "array") :
    ∃ items, r = .array items [] := by
  cases h with
  | object _ _ _ => simp [typeName] at htype
  | untyped => exact ⟨_, rfl⟩
  | array _ => exact ⟨_, rfl⟩
  | scalar kind => exact absurd htype (name_ne kind).2

/-- The schema of a run of mappings, said of the first one and of the others. -/
structure DescribesMappings (v : Value) (vs : List Value) (r : Schema) : Prop where
  /-- It is an object without free members. -/
  shape : ∃ ps req, r = .object ps req []
  /-- It requires the names that all samples have, as the first one lists them. -/
  required : r.required = v.listed.keys.filter fun k => vs.all fun w => w.present.has k
  /-- It has the names of all samples, in the order in which they are first seen. -/
  names : r.names = ((v :: vs).flatMap fun w => w.present.keys).eraseDups
  /-- A name of the first sample has the schema of a run, of what the leading samples have there. -/
  leading : ∀ k ∈ v.present.keys, ∃ s, r.property? k = some s
    ∧ ofSamples (leadingMembers k (v :: vs)) = .ok (some s)
  /-- Any other name has the schema of what is there in the first sample that has it. -/
  late : ∀ k ∈ r.names, k ∉ v.present.keys → ∃ w s, vs.findSome? (·.present.get? k) = some w
    ∧ ofSample w = .ok s ∧ r.property? k = some s

/-- The schema of a run of sequences. -/
structure DescribesSequences (vs : List Value) (r : Schema) : Prop where
  /-- It is an array without free members. -/
  shape : ∃ items, r = .array items []
  /-- Its items are unknown if all samples are empty. -/
  unknown : r.items? = none ↔ ∀ w ∈ vs, w.items? = some []
  /-- They have the schema of the run of all first items. -/
  items : ofSamples (vs.filterMap Value.first?) = .ok r.items?

/-- A run ends without a schema exactly if it has no samples. -/
theorem eq_none_iff_of_ofSamples {vs : List Value} {after : Option Schema}
    (h : ofSamples vs = .ok after) : after = none ↔ vs = [] := by
  obtain ⟨ss, hss, hjoin⟩ := ofSamples_eq_ok_iff.1 h
  constructor
  · rintro rfl
    obtain ⟨-, rfl⟩ := eq_nil_of_joinAll hjoin
    exact List.forall₂_nil_right_iff.1 hss
  · rintro rfl
    rw [List.forall₂_nil_left_iff.1 hss] at hjoin
    exact (Except.ok.inj hjoin).symm

section

variable {v : Value} {vs : List Value} {s r : Schema} {ss : List Schema}

/-- The schema of a run is plain, and of the type of the first sample. -/
theorem plain_of_run (hv : ofSample v = .ok s)
    (hvs : List.Forall₂ (fun w t => ofSample w = .ok t) vs ss)
    (h : joinAll (some s) ss = .ok (some r)) :
    r.Plain ∧ r.typeName = s.typeName ∧ ∀ t ∈ ss, t.Inferred := by
  have hss : ∀ t ∈ ss, t.Inferred := fun t ht => by
    obtain ⟨w, -, hw⟩ := forall₂_mem_right hvs ht
    exact inferred_ofSample hw
  have hbefore : ∀ b, some s = some b → b.Plain := fun b hb =>
    Option.some.inj hb ▸ (inferred_ofSample hv).plain
  exact ⟨Plain.joinAll hbefore hss h, typeName_joinAll h, hss⟩

/-- A run that starts with a mapping. -/
theorem describesMappings_of_run (hv : ofSample v = .ok s)
    (hvs : List.Forall₂ (fun w t => ofSample w = .ok t) vs ss)
    (h : joinAll (some s) ss = .ok (some r)) (hobject : s.typeName = "object") :
    r.DescribesMappings v vs := by
  obtain ⟨hplain, htype, hss⟩ := plain_of_run hv hvs h
  obtain ⟨hnames, -, -⟩ := outline_of_ofSample hv
  have hs : s.Inferred := inferred_ofSample hv
  refine ⟨?_, ?_, ?_, fun k hk => ?_, fun k hk hkv => ?_⟩
  · exact hplain.exists_object (htype.trans hobject)
  · rw [required_joinAll hss h, required_of_ofSample hv hobject]
    exact List.filter_congr fun k _ => all_names hvs k
  · have hnodup : ([] ++ v.present.keys).Nodup := hnames ▸ hs.plain.nodup_names
    rw [names_joinAll h, flatMap_names hvs, hnames, List.flatMap_cons, eraseDups_eq_addAll,
      addAll_append, addAll_eq_append hnodup, List.nil_append]
  · rw [← hnames] at hk
    obtain ⟨p, hp⟩ := mem_names_iff.1 hk
    obtain ⟨q, hq, hrun⟩ := property?_joinAll_of_mem hss h (hs.mem_required.2 hk) hp
    refine ⟨q, hq, ofSamples_eq_ok_iff.2 ⟨_, forall₂_leading (.cons hv hvs) k, ?_⟩⟩
    rw [leading_cons_some hp]
    exact joinAll_none_cons.2 hrun
  · rw [← hnames] at hkv
    obtain ⟨p, hp⟩ := mem_names_iff.1 hk
    have hlate := property?_joinAll_of_not_mem h fun hmem => hkv (hs.mem_required.1 hmem)
    rw [property?_eq_none_iff.2 hkv, Option.none_or, hp] at hlate
    have hsampled := sampled_findSome? hvs k
    rw [← hlate] at hsampled
    generalize vs.findSome? (·.present.get? k) = w at hsampled ⊢
    cases hsampled with
    | some hw => exact ⟨_, p, rfl, hw, hp⟩

/-- A run of sequences. -/
theorem describesSequences_of_run (hv : ofSample v = .ok s)
    (hvs : List.Forall₂ (fun w t => ofSample w = .ok t) vs ss)
    (h : joinAll (some s) ss = .ok (some r)) (hitems : ∀ w ∈ v :: vs, ∃ xs, w.items? = some xs) :
    r.DescribesSequences (v :: vs) := by
  obtain ⟨hplain, htype, hss⟩ := plain_of_run hv hvs h
  have hfirst := forall₂_first (.cons hv hvs)
  have hrun : ofSamples ((v :: vs).filterMap Value.first?) = .ok r.items? :=
    ofSamples_eq_ok_iff.2 ⟨_, hfirst, items?_joinAll (joinAll_none_cons.2 h)⟩
  refine ⟨?_, ?_, hrun⟩
  · obtain ⟨xs, hxs⟩ := hitems v List.mem_cons_self
    exact hplain.exists_array (htype.trans (typeName_of_items hv hxs))
  · rw [eq_none_iff_of_ofSamples hrun, List.filterMap_eq_nil_iff]
    refine forall₂_congr fun w hw => ?_
    obtain ⟨xs, hxs⟩ := hitems w hw
    rw [Value.first?, hxs, Option.bind_some, List.head?_eq_none_iff, Option.some.injEq]

end

/-- **The schema of a run in closed form.** -/
theorem describes_of_ofSamples {v : Value} {vs : List Value} {r : Schema}
    (h : ofSamples (v :: vs) = .ok (some r)) :
    ((∀ w ∈ v :: vs, ∃ ms, w = .map ms) → r.DescribesMappings v vs) ∧
    ((∀ w ∈ v :: vs, ∃ xs, w.items? = some xs) → r.DescribesSequences (v :: vs)) := by
  obtain ⟨ss, hss, hjoin⟩ := ofSamples_eq_ok_iff.1 h
  obtain ⟨s, ss, hv, hvs, rfl⟩ := List.forall₂_cons_left_iff.1 hss
  have hrun := joinAll_none_cons.1 hjoin
  refine ⟨fun hmaps => describesMappings_of_run hv hvs hrun ?_,
    describesSequences_of_run hv hvs hrun⟩
  obtain ⟨ms, rfl⟩ := hmaps v List.mem_cons_self
  obtain ⟨ps, -, rfl⟩ := ofSample_map_eq_ok_iff.1 hv
  rfl

/-- The first of three accounts: its owner has a name and an age, and its note is null. -/
def firstAccount : Value :=
  .object [("owner", .object [("name", .text "n"), ("age", .atom (.int 7))]), ("note", .atom .null),
    ("tags", .list [])]

/-- The other two accounts: the owner of the one has no age, and the other one has no owner. -/
def laterAccounts : List Value :=
  [.object [("tags", .list [.text "t"]), ("note", .text "x"),
      ("owner", .object [("name", .text "m")])],
    .object [("note", .atom (.bool true)), ("tags", .list [])]]

/-- The schema of the three accounts: it still requires a name of the owner, who is not required,
and does not know that a note was a boolean once. -/
def accountsSchema : Schema :=
  .object [("owner", .object [("name", .scalar .string []), ("age", .scalar .integer [])]
      ["name"] []),
    ("tags", .array (some (.scalar .string [])) []), ("note", .scalar .string [])] ["tags"] []

/-- Sequences of both kinds, some of them empty. -/
def emptyAtFirst : List Value :=
  [.list [], .tuple [.atom (.int 1), .text "t"], .list [.atom (.int 2)], .tuple []]

/-- The schema of three accounts, and the schema of four sequences, in terms of the samples. -/
theorem describes_of_ofSamples_accounts :
    ofSamples (firstAccount :: laterAccounts) = .ok (some accountsSchema) ∧
    accountsSchema.DescribesMappings firstAccount laterAccounts ∧
    ofSamples emptyAtFirst = .ok (some (.array (some (.scalar .integer [])) [])) ∧
    DescribesSequences emptyAtFirst (.array (some (.scalar .integer [])) []) := by
  have hmaps : ∀ w ∈ firstAccount :: laterAccounts, ∃ ms, w = .map ms := by
    intro w hw
    simp only [laterAccounts, List.mem_cons, List.not_mem_nil, or_false] at hw
    rcases hw with rfl | rfl | rfl <;> exact ⟨_, rfl⟩
  have hsequences : ∀ w ∈ emptyAtFirst, ∃ xs, w.items? = some xs := by
    intro w hw
    simp only [emptyAtFirst, List.mem_cons, List.not_mem_nil, or_false] at hw
    rcases hw with rfl | rfl | rfl | rfl <;> exact ⟨_, rfl⟩
  have hrun : ofSamples (firstAccount :: laterAccounts) = .ok (some accountsSchema) := by rfl
  have hrun' : ofSamples emptyAtFirst = .ok (some (.array (some (.scalar .integer [])) [])) := by
    rfl
  exact ⟨hrun, (describes_of_ofSamples hrun).1 hmaps, hrun',
    (describes_of_ofSamples hrun').2 hsequences⟩

end Schema

end ApiScribe
