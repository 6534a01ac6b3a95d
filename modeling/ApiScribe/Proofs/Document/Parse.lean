/-
**Documents from data are well-formed.**

A free member is what no field has taken.  Since a field is looked for under its own name first, no
free member has the name of a field.

Main results:

* `ApiScribe.freeBeside_of_freeMembers` — free members stand beside fields;
* `ApiScribe.Document.wellFormed_of_parse` — **documents from data are well-formed**.
-/

import ApiScribe.Proofs.Document.Extras
import ApiScribe.Proofs.Document.Reads

set_option autoImplicit false

namespace ApiScribe

variable {α : Type}

/-! ### Fields -/

section

variable {ms : Members Atom Value}

/-- What is read of a field is its default or comes from one of the members. -/
theorem optionalField_eq_valid {names : List String} {default a : α} {read : Value → Checked α}
    (h : optionalField ms names default read = .valid a) :
    a = default ∨ ∃ name v, ms.get? (.text name) = some v ∧ read v = .valid a := by
  rw [optionalField] at h
  split at h
  · rename_i name v hfound
    exact Or.inr ⟨name, v, (mem_of_findField hfound).2, Checked.under_eq_valid_iff.1 h⟩
  · exact Or.inl (Checked.valid.inj h).symm

theorem requiredField_eq_valid {names : List String} {a : α} {read : Value → Checked α}
    (h : requiredField ms names read = .valid a) :
    ∃ name v, ms.get? (.text name) = some v ∧ read v = .valid a := by
  rw [requiredField] at h
  split at h
  · rename_i name v hfound
    exact ⟨name, v, (mem_of_findField hfound).2, Checked.under_eq_valid_iff.1 h⟩
  · cases h

theorem readNullable_eq_valid {v : Value} {read : Value → Checked α} {a : α}
    (h : readNullable read v = .valid (some a)) : read v = .valid a := by
  rw [readNullable] at h
  split at h
  · cases h
  · obtain ⟨b, hb, heq⟩ := Checked.map_eq_valid_iff.1 h
    cases heq
    exact hb

/-- A member has a name only if the name is a text. -/
theorem readMemberName_eq_valid {k : Atom} {name : String} (h : readMemberName k = .valid name) :
    k = .text name := by
  cases k with
  | text s => exact congrArg Atom.text (Checked.valid.inj h)
  | _ => cases h

theorem mem_of_freeMembersBeside {taken : List String} {ex : Extras}
    (h : freeMembersBeside taken ms = .valid ex) {m : String × Value} (hm : m ∈ ex) :
    m.1 ∉ taken ∧ (.text m.1, m.2) ∈ ms := by
  induction ms generalizing ex with
  | nil =>
      cases h
      cases hm
  | cons n ms ih =>
      obtain ⟨a, v⟩ := n
      have later : ∀ ex', freeMembersBeside taken ms = .valid ex' → m ∈ ex' →
          m.1 ∉ taken ∧ (.text m.1, m.2) ∈ (a, v) :: ms := by
        intro ex' hex' hm'
        obtain ⟨hnot, hmem⟩ := ih hex' hm'
        exact ⟨hnot, List.mem_cons_of_mem _ hmem⟩
      rw [freeMembersBeside] at h
      split at h
      · rename_i name hname
        split at h
        · exact later ex h hm
        · rename_i htaken
          obtain ⟨ex', hex', rfl⟩ := Checked.map_eq_valid_iff.1 h
          rcases List.mem_cons.1 hm with rfl | hm
          · rw [readMemberName_eq_valid hname]
            exact ⟨fun hmem => htaken (List.contains_iff_mem.2 hmem), List.mem_cons_self⟩
          · exact later ex' hex' hm
      · obtain ⟨g, ex', hg, -⟩ := Checked.seq_eq_valid_iff.1 h
        cases hg

/-- Free members are members, and no field has taken them. -/
theorem mem_of_freeMembers {names : List (List String)} {ex : Extras}
    (h : freeMembers ms names = .valid ex) {m : String × Value} (hm : m ∈ ex) :
    m.1 ∉ takenNames ms names ∧ (.text m.1, m.2) ∈ ms := by
  obtain ⟨ex', hex', rfl⟩ := Checked.map_eq_valid_iff.1 h
  exact mem_of_freeMembersBeside hex' (Members.mem_of_mem_ofList hm)

/-- **Free members stand beside the fields.** -/
theorem freeBeside_of_freeMembers {names : List (List String)} {ex : Extras}
    (h : freeMembers ms names = .valid ex) : FreeBeside (names.filterMap List.head?) ex := by
  have hn : ex.keys.Nodup := by
    obtain ⟨ex', -, rfl⟩ := Checked.map_eq_valid_iff.1 h
    exact Members.nodup_keys_ofList ex'
  refine ⟨hn, fun k hk hname => ?_⟩
  obtain ⟨m, hm, rfl⟩ := List.mem_map.1 hk
  obtain ⟨hnot, hmem⟩ := mem_of_freeMembers h hm
  obtain ⟨ns, hns, hhead⟩ := List.mem_filterMap.1 hname
  -- a field is found under its own name if there is such a member
  refine hnot (List.mem_filterMap.2 ⟨ns, hns, ?_⟩)
  obtain ⟨v, hv⟩ := Members.mem_keys_iff.1 (List.mem_map_of_mem hmem)
  cases ns with
  | nil => cases hhead
  | cons n ns =>
      cases hhead
      rw [findField, hv]
      rfl

end

/-! ### Sequences and mappings -/

theorem mem_of_readItemsFrom {read : Value → Checked α} {start : Nat} {vs : List Value}
    {xs : List α} (h : readItemsFrom read start vs = .valid xs) {x : α} (hx : x ∈ xs) :
    ∃ v ∈ vs, read v = .valid x := by
  induction vs generalizing start xs with
  | nil =>
      cases h
      cases hx
  | cons v vs ih =>
      obtain ⟨g, rest, h₁, hrest, rfl⟩ := Checked.seq_eq_valid_iff.1 h
      obtain ⟨y, hy, rfl⟩ := Checked.map_eq_valid_iff.1 h₁
      rcases List.mem_cons.1 hx with rfl | hx
      · exact ⟨v, List.mem_cons_self, Checked.under_eq_valid_iff.1 hy⟩
      · obtain ⟨w, hw, hread⟩ := ih hrest hx
        exact ⟨w, List.mem_cons_of_mem v hw, hread⟩

theorem mem_of_readSequence {read : Value → Checked α} {v : Value} {xs : List α}
    (h : readSequence read v = .valid xs) {x : α} (hx : x ∈ xs) :
    ∃ ws, sequenceItems? v = some ws ∧ ∃ w ∈ ws, read w = .valid x := by
  rw [readSequence] at h
  split at h
  · rename_i ws hws
    exact ⟨ws, hws, mem_of_readItemsFrom h hx⟩
  · cases h

theorem mem_of_readMembersWith {read : Value → Checked α} {ms : Members Atom Value}
    {ns : Members String α} (h : readMembersWith read ms = .valid ns) {n : String × α}
    (hn : n ∈ ns) : ∃ k v, (k, v) ∈ ms ∧ read v = .valid n.2 := by
  induction ms generalizing ns with
  | nil =>
      cases h
      cases hn
  | cons m ms ih =>
      obtain ⟨g, rest, h₁, hrest, rfl⟩ := Checked.seq_eq_valid_iff.1 h
      obtain ⟨b, hb, rfl⟩ := Checked.map_eq_valid_iff.1 h₁
      rcases List.mem_cons.1 hn with rfl | hn
      · obtain ⟨f, a, hf, ha, rfl⟩ := Checked.seq_eq_valid_iff.1 hb
        obtain ⟨name, -, rfl⟩ := Checked.map_eq_valid_iff.1 hf
        exact ⟨m.1, m.2, List.mem_cons_self, Checked.under_eq_valid_iff.1 ha⟩
      · obtain ⟨k, v, hkv, hread⟩ := ih hrest hn
        exact ⟨k, v, List.mem_cons_of_mem m hkv, hread⟩

/-- Of members with one name the last one stays, so that names become distinct. -/
theorem mem_of_ofList_readMembersWith {read : Value → Checked α} {ms : Members Atom Value}
    {ns : Members String α} (h : Members.ofList <$> readMembersWith read ms = .valid ns) :
    ns.keys.Nodup ∧ ∀ n ∈ ns, ∃ k v, (k, v) ∈ ms ∧ read v = .valid n.2 := by
  obtain ⟨ns', hread, rfl⟩ := Checked.map_eq_valid_iff.1 h
  exact ⟨Members.nodup_keys_ofList ns', fun n hn =>
    mem_of_readMembersWith hread (Members.mem_of_mem_ofList hn)⟩

/-- What is read of a mapping has distinct names, and each of its members comes from one of the
mapping. -/
theorem mem_of_readMapping {read : Value → Checked α} {v : Value} {ns : Members String α}
    (h : readMapping read v = .valid ns) : ∃ ms, v = .map ms ∧
      ns.keys.Nodup ∧ ∀ n ∈ ns, ∃ k w, (k, w) ∈ ms ∧ read w = .valid n.2 := by
  cases v with
  | map ms => exact ⟨ms, rfl, mem_of_ofList_readMembersWith h⟩
  | _ => cases h

/-! ### Schemas -/

section

variable {ms : Members Atom Value} {s : Schema}

theorem hasExtras_objectOfMembers {ps : Checked (Members String Schema)}
    (hps : ∀ qs, ps = .valid qs → qs.keys.Nodup ∧ ∀ q ∈ qs, q.2.HasExtras FreeBeside)
    (h : objectOfMembers ms ps = .valid s) : s.HasExtras FreeBeside := by
  obtain ⟨-, qs, req, ex, -, hqs, -, hex, rfl⟩ := Schema.objectOfMembers_eq_valid_iff.1 h
  obtain ⟨hn, hqs⟩ := hps qs hqs
  exact .object hn (freeBeside_of_freeMembers hex) fun k s hk => hqs (k, s) hk

theorem hasExtras_arrayOfMembers {items : Checked (Option Schema)}
    (hitems : ∀ t, items = .valid (some t) → t.HasExtras FreeBeside)
    (h : arrayOfMembers ms items = .valid s) : s.HasExtras FreeBeside := by
  obtain ⟨-, t, ex, -, ht, hex, rfl⟩ := Schema.arrayOfMembers_eq_valid_iff.1 h
  have hfree := freeBeside_of_freeMembers hex
  cases t with
  | none => exact .untyped hfree
  | some t => exact .array hfree (hitems t ht)

theorem hasExtras_scalarOfMembers (h : scalarOfMembers ms = .valid s) :
    s.HasExtras FreeBeside := by
  obtain ⟨kind, ex, -, hex, rfl⟩ := Schema.scalarOfMembers_eq_valid_iff.1 h
  exact .scalar (freeBeside_of_freeMembers hex)

end

/-- **Schemas from data are well-formed**, and so are the items and properties that are read with
them. -/
theorem Schema.hasExtras_of_ofValue (v : Value) :
    (∀ s, Schema.ofValue v = .valid s → s.HasExtras FreeBeside) ∧
      (∀ s, itemsOfValue v = .valid (some s) → s.HasExtras FreeBeside) ∧
      ∀ ps, propertiesOfValue v = .valid ps →
        ps.keys.Nodup ∧ ∀ p ∈ ps, p.2.HasExtras FreeBeside := by
  induction v using Value.induct with
  | atom a => exact ⟨nofun, nofun, nofun⟩
  | list xs _ => exact ⟨nofun, nofun, nofun⟩
  | tuple xs _ => exact ⟨nofun, nofun, nofun⟩
  | set as => exact ⟨nofun, nofun, nofun⟩
  | map ms ih =>
      have hps : ∀ qs, propertiesField ms = .valid qs →
          qs.keys.Nodup ∧ ∀ q ∈ qs, q.2.HasExtras FreeBeside := by
        intro qs hqs
        rcases optionalField_eq_valid (propertiesField_eq_valid_iff.1 hqs) with
          rfl | ⟨n, w, hget, hw⟩
        · exact ⟨List.nodup_nil, by simp⟩
        · exact (ih _ w (Members.mem_of_get? hget)).2.2 qs hw
      have hitems : ∀ t, itemsField ms = .valid (some t) → t.HasExtras FreeBeside := by
        intro t ht
        rcases optionalField_eq_valid (itemsField_eq_valid_iff.1 ht) with hnone | ⟨n, w, hget, hw⟩
        · cases hnone
        · exact (ih _ w (Members.mem_of_get? hget)).2.1 t hw
      have hschema : ∀ s, Schema.ofValue (.map ms) = .valid s → s.HasExtras FreeBeside := by
        intro s h
        rw [Schema.ofValue] at h
        split at h
        · exact hasExtras_objectOfMembers hps (Checked.under_eq_valid_iff.1 h)
        · exact hasExtras_arrayOfMembers hitems (Checked.under_eq_valid_iff.1 h)
        · exact hasExtras_scalarOfMembers (Checked.under_eq_valid_iff.1 h)
        · cases h
      refine ⟨hschema, fun s h => hschema s (ofValue_of_itemsOfValue h), fun ps h => ?_⟩
      rw [propertiesOfValue, propertiesOfMembers_eq] at h
      obtain ⟨hnodup, hmem⟩ := mem_of_ofList_readMembersWith h
      refine ⟨hnodup, fun p hp => ?_⟩
      obtain ⟨k, w, hkw, hw⟩ := hmem p hp
      exact (ih k w hkw).1 _ hw

/-! ### Documents -/

theorem Parameter.hasExtras_of_ofValue {v : Value} {p : Parameter}
    (h : Parameter.ofValue v = .valid p) : p.HasExtras FreeBeside := by
  rw [Parameter.ofValue] at h
  split at h
  · obtain ⟨b, hb, rfl⟩ := Checked.map_eq_valid_iff.1 (Checked.under_eq_valid_iff.1 h)
    obtain ⟨ms, rfl, -⟩ := asObject_eq_valid hb
    have hread := BodyParameter.ofValue_map_eq_valid_iff.1 hb
    obtain ⟨n, w, hget, hw⟩ := requiredField_eq_valid hread.schema
    exact ⟨freeBeside_of_freeMembers hread.extras,
      (Schema.hasExtras_of_ofValue w).1 b.schema hw⟩
  · obtain ⟨b, hb, rfl⟩ := Checked.map_eq_valid_iff.1 (Checked.under_eq_valid_iff.1 h)
    obtain ⟨ms, rfl, -⟩ := asObject_eq_valid hb
    exact freeBeside_of_freeMembers (ValueParameter.ofValue_map_eq_valid_iff.1 hb).extras

theorem Response.hasExtras_of_ofValue {v : Value} {r : Response}
    (h : Response.ofValue v = .valid r) : r.HasExtras FreeBeside := by
  obtain ⟨ms, rfl, -⟩ := asObject_eq_valid h
  have hread := Response.ofValue_map_eq_valid_iff.1 h
  refine ⟨freeBeside_of_freeMembers hread.extras, fun s hs => ?_⟩
  rcases optionalField_eq_valid (hs ▸ hread.schema) with hnone | ⟨n, w, hget, hw⟩
  · cases hnone
  · exact (Schema.hasExtras_of_ofValue w).1 s (readNullable_eq_valid hw)

theorem mem_of_readResponses {v : Value} {ns : Members String Response}
    (h : readResponses v = .valid ns) :
    ns.keys.Nodup ∧ ∀ n ∈ ns, n.2.HasExtras FreeBeside := by
  cases v with
  | map ms =>
      obtain ⟨hnodup, hresponses⟩ := mem_of_ofList_readMembersWith h
      refine ⟨hnodup, fun n hn => ?_⟩
      obtain ⟨-, w, -, hw⟩ := hresponses n hn
      exact Response.hasExtras_of_ofValue hw
  | _ => cases h

theorem Operation.hasExtras_of_ofValue {v : Value} {op : Operation}
    (h : Operation.ofValue v = .valid op) : op.HasExtras FreeBeside := by
  obtain ⟨ms, rfl, -⟩ := asObject_eq_valid h
  have hread := Operation.ofValue_map_eq_valid_iff.1 h
  have hall : op.responses.keys.Nodup ∧ ∀ m ∈ op.responses, m.2.HasExtras FreeBeside := by
    rcases optionalField_eq_valid hread.responses with hnil | ⟨n, w, hget, hw⟩
    · rw [hnil]
      exact ⟨List.nodup_nil, by simp⟩
    · exact mem_of_readResponses hw
  refine ⟨freeBeside_of_freeMembers hread.extras, fun p hp => ?_, hall.1, hall.2⟩
  rcases optionalField_eq_valid hread.parameters with hnil | ⟨n, w, hget, hw⟩
  · rw [hnil] at hp
    cases hp
  · obtain ⟨-, -, u, -, hread⟩ := mem_of_readSequence hw hp
    exact Parameter.hasExtras_of_ofValue hread

theorem hasExtras_of_operationField {ms : Members Atom Value} {m : Method} {op : Operation}
    (h : operationField ms m = .valid (some op)) :
    op.HasExtras FreeBeside := by
  rcases optionalField_eq_valid h with hnone | ⟨n, w, hget, hw⟩
  · cases hnone
  · exact Operation.hasExtras_of_ofValue (readNullable_eq_valid hw)

theorem PathItem.hasExtras_of_ofValue {v : Value} {item : PathItem}
    (h : PathItem.ofValue v = .valid item) : item.HasExtras FreeBeside := by
  obtain ⟨ms, rfl, -⟩ := asObject_eq_valid h
  have hread := PathItem.ofValue_map_eq_valid_iff.1 h
  refine ⟨freeBeside_of_freeMembers hread.extras, fun m op hop => ?_, fun qs hqs p hp => ?_⟩
  · exact hasExtras_of_operationField (hop ▸ hread.operations m)
  · rcases optionalField_eq_valid (hqs ▸ hread.parameters) with hnone | ⟨n, w, hget, hw⟩
    · cases hnone
    · obtain ⟨-, -, u, -, hread⟩ := mem_of_readSequence (readNullable_eq_valid hw) hp
      exact Parameter.hasExtras_of_ofValue hread

theorem Info.freeBeside_of_ofValue {v : Value} {info : Info}
    (h : Info.ofValue v = .valid info) : FreeBeside ["title", "version"] info.extras := by
  obtain ⟨ms, rfl, -⟩ := asObject_eq_valid h
  exact freeBeside_of_freeMembers (Info.ofValue_map_eq_valid_iff.1 h).extras

/-- **Documents from data are well-formed.** -/
theorem Document.wellFormed_of_ofValue {v : Value} {doc : Document}
    (h : Document.ofValue v = .valid doc) : doc.WellFormed := by
  obtain ⟨ms, rfl, -⟩ := asObject_eq_valid h
  have hread := Document.ofValue_map_eq_valid_iff.1 h
  have hitems : doc.paths.keys.Nodup ∧ ∀ m ∈ doc.paths, m.2.HasExtras FreeBeside := by
    rcases optionalField_eq_valid hread.paths with hnil | ⟨n, w, hget, hw⟩
    · rw [hnil]
      exact ⟨List.nodup_nil, by simp⟩
    · rw [readPaths] at hw
      split at hw
      · rw [← Checked.valid.inj hw]
        exact ⟨List.nodup_nil, by simp⟩
      · obtain ⟨ns, -, hn, hall⟩ := mem_of_readMapping hw
        refine ⟨hn, fun m hm => ?_⟩
        obtain ⟨-, u, -, hread⟩ := hall m hm
        rw [readPathItem] at hread
        split at hread <;> exact PathItem.hasExtras_of_ofValue hread
  refine ⟨freeBeside_of_freeMembers hread.extras, ?_, hitems.1, hitems.2⟩
  rcases optionalField_eq_valid hread.info with hself | ⟨n, w, hget, hw⟩
  · rw [hself]
    exact ⟨List.nodup_nil, by simp [Members.keys]⟩
  · exact Info.freeBeside_of_ofValue hw

/-- What is read as a document of the format and version is read as a document. -/
theorem Document.ofValue_of_parse {v : Value} {doc : Document} (h : Document.parse v = .ok doc) :
    Document.ofValue v = .valid doc := by
  rw [Document.parse] at h
  split at h
  · cases h
  · split at h
    · rename_i hdoc
      cases h
      exact hdoc
    · cases h

/-- **Documents of the format and version are well-formed.** -/
theorem Document.wellFormed_of_parse {v : Value} {doc : Document} (h : Document.parse v = .ok doc) :
    doc.WellFormed :=
  wellFormed_of_ofValue (ofValue_of_parse h)

end ApiScribe
