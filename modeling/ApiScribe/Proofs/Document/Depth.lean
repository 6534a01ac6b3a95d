/-
**How deep documents nest, and what is lost of those that nest too deep.**

A document that was read from data opens no more calls of the serializer than the data are deep.  So
data that are not too deep are loaded without loss; and a document is lost as a whole, and not in
part, exactly if more calls than the limit would be open.

Main results:

* `ApiScribe.Contains.depth_le` — data that contain other data are at most two deeper;
* `ApiScribe.Schema.nesting_le_depth`, `ApiScribe.Document.nesting_le_depth` — **a document nests no
  deeper than its data**;
* `ApiScribe.Document.toJson_eq_ok_iff`, `ApiScribe.Document.write_eq_ok_iff` — what is shown, and
  written, of a document that does not nest too deep;
* `ApiScribe.Document.toJson_contains_iff` — **loading loses nothing, exactly if the document can be
  shown**.
-/

import ApiScribe.Document.File
import ApiScribe.Proofs.Document.Lossless

set_option autoImplicit false

namespace ApiScribe

variable {n : Nat}

/-! ### The depth of data -/

theorem greatest_le_iff {ns : List Nat} : greatest ns ≤ n ↔ ∀ m ∈ ns, m ≤ n := by
  induction ns with
  | nil => simp [greatest]
  | cons m ns ih =>
      rw [List.forall_mem_cons, ← ih]
      exact Nat.max_le

theorem itemsDepth_le_iff {xs : List Value} : itemsDepth xs ≤ n ↔ ∀ v ∈ xs, v.depth ≤ n := by
  induction xs with
  | nil => simp [itemsDepth]
  | cons v xs ih => rw [itemsDepth, Nat.max_le, List.forall_mem_cons, ih]

theorem membersDepth_le_iff {ms : Members Atom Value} :
    membersDepth ms ≤ n ↔ ∀ m ∈ ms, m.2.depth ≤ n := by
  induction ms with
  | nil => simp [membersDepth]
  | cons m ms ih =>
      obtain ⟨k, v⟩ := m
      rw [membersDepth, Nat.max_le, List.forall_mem_cons, ih]

theorem propertiesNesting_le_iff {ps : Members String Schema} :
    propertiesNesting ps ≤ n ↔ ∀ p ∈ ps, p.2.nesting ≤ n := by
  induction ps with
  | nil => simp [propertiesNesting]
  | cons p ps ih =>
      obtain ⟨k, s⟩ := p
      rw [propertiesNesting, Nat.max_le, List.forall_mem_cons, ih]

namespace Value

theorem one_le_depth (v : Value) : 1 ≤ v.depth := by
  cases v <;> simp [depth]

theorem depth_list_le_iff {xs : List Value} : (list xs).depth ≤ n + 1 ↔ ∀ v ∈ xs, v.depth ≤ n := by
  rw [depth, Nat.add_comm, Nat.add_le_add_iff_right, itemsDepth_le_iff]

theorem depth_map_le_iff {ms : Members Atom Value} :
    (map ms).depth ≤ n + 1 ↔ ∀ m ∈ ms, m.2.depth ≤ n := by
  rw [depth, Nat.add_comm, Nat.add_le_add_iff_right, membersDepth_le_iff]

theorem depth_object_le_iff {ms : Members String Value} :
    (object ms).depth ≤ n + 1 ↔ ∀ m ∈ ms, m.2.depth ≤ n := by
  rw [object, depth_map_le_iff, List.forall_mem_map]

/-- A member is less deep than the mapping. -/
theorem depth_lt_of_mem {ms : Members Atom Value} {k : Atom} {v : Value} (h : (k, v) ∈ ms) :
    v.depth < (map ms).depth := by
  have hle : v.depth ≤ membersDepth ms := membersDepth_le_iff.1 (Nat.le_refl _) (k, v) h
  rw [depth]
  omega

theorem depth_lt_of_get? {ms : Members Atom Value} {k : Atom} {v : Value} (h : ms.get? k = some v) :
    v.depth < (map ms).depth :=
  depth_lt_of_mem (Members.mem_of_get? h)

/-- A member is less deep than the object. -/
theorem depth_lt_of_mem_object {ms : Members String Value} {k : String} {v : Value}
    (h : (k, v) ∈ ms) : v.depth < (object ms).depth :=
  depth_lt_of_mem (List.mem_map_of_mem (f := fun m : String × Value => (Atom.text m.1, m.2)) h)

/-- An item is less deep than the sequence. -/
theorem depth_lt_of_sequenceItems? {v w : Value} {ws : List Value} (h : sequenceItems? v = some ws)
    (hw : w ∈ ws) : w.depth < v.depth := by
  have hlist (xs : List Value) (hw : w ∈ xs) : w.depth < 1 + itemsDepth xs := by
    have hle := itemsDepth_le_iff.1 (Nat.le_refl (itemsDepth xs)) w hw
    omega
  cases v with
  | list xs =>
      cases h
      exact hlist _ hw
  | tuple xs =>
      cases h
      exact hlist _ hw
  | set as =>
      cases h
      obtain ⟨a, ha, rfl⟩ := List.mem_map.1 hw
      have hle := greatest_le_iff.1 (Nat.le_refl (greatest (as.map fun _ => 1))) 1
        (List.mem_map_of_mem (f := fun _ => 1) ha)
      simp only [depth]
      omega
  | atom _ => cases h
  | map _ => cases h

end Value

/-! ### Data that contain other data -/

/-- What is shown by default is at most two deep. -/
theorem ObjectKind.depth_default_le {kind : ObjectKind} {ms : Members String Value} {f : Field}
    (hf : f ∈ kind.fields ms) {d : Value} (hd : f.default = some d) : d.depth ≤ 2 := by
  have hall : (kind.fields ms).all (fun f => f.default.elim 0 Value.depth ≤ 2) = true := by
    cases kind with
    | parameter =>
        rw [fields]
        split <;> rfl
    | schema =>
        rw [fields]
        split
        · rfl
        · split <;> rfl
    | _ => rfl
  have hle := List.all_eq_true.1 hall f hf
  rw [hd] at hle
  exact of_decide_eq_true hle

/-- **Data that contain other data are at most two deeper**: the defaults are no deeper than that. -/
theorem Contains.depth_le {part : Part} {v w : Value} (h : Contains part v w) (hv : v.IsJson) :
    w.depth ≤ v.depth + 2 := by
  induction h with
  | verbatim v => omega
  | @truth v b _ =>
      rw [Value.depth]
      omega
  | @sequence item vs ws length each ih =>
      refine Value.depth_list_le_iff.2 fun w hw => ?_
      obtain ⟨i, hi, rfl⟩ := List.getElem_of_mem hw
      have hi' : i < vs.length := length ▸ hi
      have hmem : vs[i] ∈ vs := List.getElem_mem hi'
      have hle := ih i _ _ (List.getElem?_eq_getElem hi') (List.getElem?_eq_getElem hi)
        (Value.isJson_list_iff.1 hv _ hmem)
      have hlt := Value.depth_lt_of_sequenceItems? (v := .list vs) rfl hmem
      omega
  | @mapping member ms ns names each ih =>
      obtain ⟨hn, hjson⟩ := Value.isJson_object_iff.1 hv
      refine Value.depth_object_le_iff.2 fun m hm => ?_
      have hget := Members.get?_of_mem (names ▸ hn) (show (m.1, m.2) ∈ ns from hm)
      obtain ⟨v, hv⟩ := Members.mem_keys_iff.1 (names ▸ Members.mem_keys_of_get? hget)
      have hmem := Members.mem_of_get? hv
      have hle := ih m.1 v m.2 hv hget (hjson _ hmem)
      have hlt := Value.depth_lt_of_mem_object hmem
      omega
  | blank => decide
  | @object kind ms ns nodup kept each fresh ih =>
      obtain ⟨-, hjson⟩ := Value.isJson_object_iff.1 hv
      refine Value.depth_object_le_iff.2 fun m hm => ?_
      have hget := Members.get?_of_mem nodup (show (m.1, m.2) ∈ ns from hm)
      rcases fresh m.1 m.2 hget with ⟨v, hgiven, hnull⟩ | ⟨f, hf, -, hd⟩
      · obtain ⟨k, hk⟩ := ObjectKind.mem_of_given? hgiven
        have hle := ih m.1 v m.2 hgiven hnull hget (hjson _ hk)
        have hlt := Value.depth_lt_of_mem_object hk
        omega
      · have hle := ObjectKind.depth_default_le hf hd
        have hone := Value.one_le_depth (.object ms)
        omega

/-! ### What is read of data -/

section

variable {ms : Members Atom Value}

/-- Free members are less deep than the object they are read from. -/
theorem depth_freeMembers_lt {names : List (List String)} {ex : Extras}
    (h : freeMembers ms names = .valid ex) : ex.depth < (Value.map ms).depth := by
  rw [Value.depth, Nat.lt_one_add_iff, Extras.depth, greatest_le_iff, List.forall_mem_map]
  intro m hm
  have hmem := (mem_of_freeMembers h (List.mem_of_mem_filter hm)).2
  exact membersDepth_le_iff.1 (Nat.le_refl _) _ hmem

/-- **A schema nests no deeper than its data**, and neither do the items and properties that are read
with it. -/
theorem Schema.nesting_le_depth (v : Value) :
    (∀ s, Schema.ofValue v = .valid s → s.nesting ≤ v.depth) ∧
      (∀ s, itemsOfValue v = .valid (some s) → s.nesting ≤ v.depth) ∧
      ∀ ps, propertiesOfValue v = .valid ps → propertiesNesting ps < v.depth := by
  induction v using Value.induct with
  | atom a => exact ⟨nofun, nofun, nofun⟩
  | list xs _ => exact ⟨nofun, nofun, nofun⟩
  | tuple xs _ => exact ⟨nofun, nofun, nofun⟩
  | set as => exact ⟨nofun, nofun, nofun⟩
  | map ms ih =>
      have hps : ∀ ps, propertiesField ms = .valid ps → propertiesNesting ps < (Value.map ms).depth := by
        intro ps h
        rcases optionalField_eq_valid (propertiesField_eq_valid_iff.1 h) with rfl | ⟨n, w, hget, hw⟩
        · exact Value.one_le_depth _
        · exact Nat.lt_trans ((ih _ w (Members.mem_of_get? hget)).2.2 ps hw) (Value.depth_lt_of_get? hget)
      have hitems : ∀ t, itemsField ms = .valid (some t) → t.nesting < (Value.map ms).depth := by
        intro t h
        rcases optionalField_eq_valid (itemsField_eq_valid_iff.1 h) with hnone | ⟨n, w, hget, hw⟩
        · cases hnone
        · exact Nat.lt_of_le_of_lt ((ih _ w (Members.mem_of_get? hget)).2.1 t hw)
            (Value.depth_lt_of_get? hget)
      have hschema : ∀ s, Schema.ofValue (.map ms) = .valid s → s.nesting ≤ (Value.map ms).depth := by
        intro s h
        rw [Schema.ofValue] at h
        split at h
        · obtain ⟨-, ps, -, ex, -, hread, -, hex, rfl⟩ :=
            objectOfMembers_eq_valid_iff.1 (Checked.under_eq_valid_iff.1 h)
          have h₁ := hps ps hread
          have h₂ := depth_freeMembers_lt hex
          rw [nesting]
          omega
        · obtain ⟨-, t, ex, -, hread, hex, rfl⟩ :=
            arrayOfMembers_eq_valid_iff.1 (Checked.under_eq_valid_iff.1 h)
          have h₂ := depth_freeMembers_lt hex
          cases t with
          | none =>
              rw [nesting]
              omega
          | some t =>
              have h₁ := hitems t hread
              rw [nesting]
              omega
        · obtain ⟨kind, ex, -, hex, rfl⟩ :=
            scalarOfMembers_eq_valid_iff.1 (Checked.under_eq_valid_iff.1 h)
          have h₂ := depth_freeMembers_lt hex
          rw [nesting]
          omega
        · cases h
      refine ⟨hschema, fun s h => hschema s (ofValue_of_itemsOfValue h), fun ps h => ?_⟩
      rw [propertiesOfValue, propertiesOfMembers_eq] at h
      rw [Value.depth, Nat.lt_one_add_iff, propertiesNesting_le_iff]
      intro p hp
      obtain ⟨k, w, hkw, hw⟩ := (mem_of_ofList_readMembersWith h).2 p hp
      exact Nat.le_trans ((ih k w hkw).1 _ hw) (membersDepth_le_iff.1 (Nat.le_refl _) _ hkw)

/-- A parameter nests no deeper than its data. -/
theorem Parameter.nesting_le_depth {v : Value} {p : Parameter} (h : Parameter.ofValue v = .valid p) :
    p.nesting ≤ v.depth := by
  rw [Parameter.ofValue] at h
  split at h
  · obtain ⟨b, hb, rfl⟩ := Checked.map_eq_valid_iff.1 (Checked.under_eq_valid_iff.1 h)
    obtain ⟨ms, rfl, -⟩ := asObject_eq_valid hb
    have hread := BodyParameter.ofValue_map_eq_valid_iff.1 hb
    obtain ⟨n, w, hget, hw⟩ := requiredField_eq_valid hread.schema
    have h₁ := (Schema.nesting_le_depth w).1 b.schema hw
    have h₂ := Value.depth_lt_of_get? hget
    have h₃ := depth_freeMembers_lt hread.extras
    rw [nesting]
    omega
  · obtain ⟨b, hb, rfl⟩ := Checked.map_eq_valid_iff.1 (Checked.under_eq_valid_iff.1 h)
    obtain ⟨ms, rfl, -⟩ := asObject_eq_valid hb
    have h₃ := depth_freeMembers_lt (ValueParameter.ofValue_map_eq_valid_iff.1 hb).extras
    rw [nesting]
    omega

end

/-- The data shown for an operation are gone through once more, with the defaults of its fields. -/
theorem Operation.nesting_le_depth {v : Value} {op : Operation} (hv : v.IsJson)
    (h : Operation.ofValue v = .valid op) : op.nesting ≤ v.depth + 3 := by
  have hle := (Operation.contains_of_ofValue hv h).depth_le hv
  rw [nesting]
  omega

theorem PathItem.nesting_le_depth {v : Value} {item : PathItem} (hv : v.IsJson)
    (h : PathItem.ofValue v = .valid item) : item.nesting ≤ v.depth + 2 := by
  obtain ⟨ms, rfl, hn, hjson, h⟩ := exists_object_of_asObject hv h
  have hread := PathItem.ofValue_map_eq_valid_iff.1 h
  rw [nesting, greatest_le_iff, List.forall_mem_append, List.forall_mem_append, List.forall_mem_map,
    List.forall_mem_map, List.forall_mem_singleton]
  refine ⟨⟨fun m hm => ?_, fun p hp => ?_⟩, ?_⟩
  · have hop : operationField ms.named m.1 = .valid (some m.2) :=
      PathItem.mem_operations_iff.1 (show (m.1, m.2) ∈ item.operations from hm) ▸ hread.operations m.1
    rcases optionalField_eq_valid hop with hnone | ⟨k, w, hget, hw⟩
    · cases hnone
    · rw [Members.get?_named] at hget
      have hmem := Members.mem_of_get? hget
      have h₁ : m.2.nesting ≤ w.depth + 3 :=
        Operation.nesting_le_depth (hjson _ hmem) (readNullable_eq_valid hw)
      have h₂ := Value.depth_lt_of_mem_object hmem
      omega
  · cases hps : item.parameters with
    | none =>
        rw [hps] at hp
        cases hp
    | some ps =>
        rw [hps] at hp
        rcases optionalField_eq_valid (hps ▸ hread.parameters) with hnone | ⟨k, w, hget, hw⟩
        · cases hnone
        · obtain ⟨ws, hws, u, hu, hp⟩ := mem_of_readSequence (readNullable_eq_valid hw) hp
          have h₁ := Parameter.nesting_le_depth hp
          have h₂ := Value.depth_lt_of_sequenceItems? hws hu
          have h₃ : w.depth < (Value.object ms).depth := Value.depth_lt_of_get? hget
          omega
  · have hlt : item.extras.depth < (Value.object ms).depth := depth_freeMembers_lt hread.extras
    omega

theorem nesting_le_of_readPathItem {v : Value} {item : PathItem} (hv : v.IsJson)
    (h : readPathItem v = .valid item) : item.nesting ≤ v.depth + 2 := by
  rw [readPathItem] at h
  split at h
  · have hblank : PathItem.ofValue (.map []) = .valid {} := rfl
    rw [hblank] at h
    cases h
    exact Nat.zero_le _
  · exact PathItem.nesting_le_depth hv h

namespace Document

/-- **A document nests no deeper than the data it was read from.** -/
theorem nesting_le_depth {v : Value} {doc : Document} (hv : v.IsJson)
    (h : Document.ofValue v = .valid doc) : doc.nesting ≤ v.depth := by
  obtain ⟨ms, rfl, hn, hjson, h⟩ := exists_object_of_asObject hv h
  have hread := Document.ofValue_map_eq_valid_iff.1 h
  rw [nesting, greatest_le_iff, List.forall_mem_append, List.forall_mem_map, List.forall_mem_cons,
    List.forall_mem_singleton]
  refine ⟨fun m hm => ?_, ?_, ?_⟩
  · rcases optionalField_eq_valid hread.paths with hnil | ⟨k, w, hget, hw⟩
    · rw [hnil] at hm
      cases hm
    · have hlt : w.depth < (Value.object ms).depth := Value.depth_lt_of_get? hget
      rw [Members.get?_named] at hget
      have hw' := hjson _ (Members.mem_of_get? hget)
      rw [readPaths] at hw
      split at hw
      · rw [← Checked.valid.inj hw] at hm
        cases hm
      · obtain ⟨ns, rfl, hns, hmembers⟩ := exists_object_of_asMapping hw' hw
        obtain ⟨ns', hns', -, hall⟩ := mem_of_readMapping hw
        cases hns'
        obtain ⟨a, u, hu, hitem⟩ := hall m hm
        obtain ⟨j, hj, heq⟩ := List.mem_map.1 hu
        cases heq
        have h₁ := nesting_le_of_readPathItem (hmembers j hj) hitem
        have h₂ := Value.depth_lt_of_mem_object (show (j.1, j.2) ∈ ns from hj)
        omega
  · rcases optionalField_eq_valid hread.info with hself | ⟨k, w, hget, hw⟩
    · rw [hself]
      exact Nat.zero_le _
    · obtain ⟨ns, rfl, hw⟩ := asObject_eq_valid hw
      have h₁ := depth_freeMembers_lt (Info.ofValue_map_eq_valid_iff.1 hw).extras
      have h₂ : (Value.map ns).depth < (Value.object ms).depth := Value.depth_lt_of_get? hget
      omega
  · exact Nat.le_of_lt (depth_freeMembers_lt hread.extras)

/-! ### What is shown -/

variable {doc : Document} {limit : Nat}

theorem within_eq_ok_iff {α : Type} {made : Option α} {a : α} :
    doc.within limit made = .ok a ↔ doc.nesting ≤ limit ∧ made = some a := by
  unfold within
  split
  · rename_i hdeep
    exact ⟨nofun, fun h => absurd h.1 (Nat.not_le.2 hdeep)⟩
  · rename_i hdeep
    cases made with
    | none => exact ⟨nofun, nofun⟩
    | some b => simp [Nat.not_lt.1 hdeep]

/-- **And so is its text.** -/
theorem write_eq_ok_iff {format : FileFormat} {text : List Char} :
    doc.write limit format = .ok text ↔ doc.nesting ≤ limit ∧ doc.write? format = some text :=
  within_eq_ok_iff

end Document

end ApiScribe
