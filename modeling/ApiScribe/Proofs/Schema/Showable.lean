/-
**Schemas that a message can show.**

The message about a join that fails shows schemas with their members sorted by name.  The members that
a schema has of itself are named by texts, so that only its free members can stand in the way, at any
depth.  A join brings no free members but those of its sides, and schemas of samples have none; so
where all schemas can be shown, they can be shown for good, and so can every cause that comes from
joining them.

Main results:

* `ApiScribe.Json.isSortable_object_iff` — when the members within an object can be sorted;
* `ApiScribe.Schema.isShowable_object_iff` and others — when a schema can be shown;
* `ApiScribe.Schema.isShowable_join` — **a join of schemas that can be shown can be shown**;
* `ApiScribe.Schema.isReported_of_join_eq_error` — **if there is no join, the cause is reported**.
-/

import ApiScribe.Proofs.Schema.Sample

set_option autoImplicit false

namespace ApiScribe

/-! ### Values -/

namespace Json

theorem areMembersSortable_iff {ms : Members Atom Value} :
    areMembersSortable ms = true ↔ ∀ m ∈ ms, isSortable m.2 = true := by
  induction ms with
  | nil => simp [areMembersSortable]
  | cons m ms ih =>
      rw [areMembersSortable, Bool.and_eq_true, ih, List.forall_mem_cons]

theorem areItemsSortable_iff {xs : List Value} :
    areItemsSortable xs = true ↔ ∀ v ∈ xs, isSortable v = true := by
  induction xs with
  | nil => simp [areItemsSortable]
  | cons v xs ih => rw [areItemsSortable, Bool.and_eq_true, ih, List.forall_mem_cons]

/-- Texts have an order. -/
theorem areSortable_texts (names : List String) : areSortable (names.map .text) = true := by
  cases names with
  | nil => rfl
  | cons name names => simp [areSortable]

theorem isSortable_object_iff {ms : Members String Value} :
    isSortable (.object ms) = true ↔ ∀ m ∈ ms, isSortable m.2 = true := by
  have hkeys : Members.keys (ms.map fun m => (Atom.text m.1, m.2)) = ms.keys.map .text := by
    rw [Members.keys, Members.keys, List.map_map, List.map_map]
    rfl
  rw [Value.object, isSortable, hkeys, areSortable_texts, Bool.true_and, areMembersSortable_iff,
    List.forall_mem_map]

/-- Members that are absent need not be looked at. -/
theorem isSortable_shownMembers_iff {ms : Members String Value} :
    isSortable (.object (shownMembers false ms)) = true ↔ ∀ m ∈ ms, isSortable m.2 = true := by
  rw [isSortable_object_iff, shownMembers, if_neg Bool.false_ne_true]
  constructor
  · intro h m hm
    by_cases hn : m.2.isNull = true
    · obtain ⟨k, v⟩ := m
      cases v with
      | atom a => rfl
      | list xs => cases hn
      | tuple xs => cases hn
      | set xs => rfl
      | map ns => cases hn
    · exact h m (List.mem_filter.2 ⟨hm, by simpa using hn⟩)
  · exact fun h m hm => h m (List.mem_filter.1 hm).1

end Json

/-! ### Schemas -/

/-- Free members within which names can be sorted. -/
def Extras.Sortable (extras : Extras) : Prop := ∀ m ∈ extras, Json.isSortable m.2 = true

theorem Extras.Sortable.joinExtras {ex ex' : Extras} (h : ex.Sortable) (h' : ex'.Sortable) :
    Extras.Sortable (joinExtras ex ex') := by
  intro m hm
  rcases Members.mem_of_mem_putAll hm with hm | hm
  · exact h' m hm
  · exact h m hm

theorem isSortable_properties_iff {ps : List (String × Schema)} :
    Json.isSortable (.object (propertiesToMembers false ps)) = true ↔
      ∀ p ∈ ps, p.2.isShowable = true := by
  rw [Json.isSortable_object_iff]
  induction ps with
  | nil => simp [propertiesToMembers]
  | cons p ps ih =>
      rw [propertiesToMembers, List.forall_mem_cons, List.forall_mem_cons, ih]
      rfl

namespace Schema

theorem isShowable_object_iff {ps : List (String × Schema)} {req : List String} {ex : Extras} :
    (Schema.object ps req ex).isShowable = true ↔
      (∀ p ∈ ps, p.2.isShowable = true) ∧ ex.Sortable := by
  have hrequired : Json.isSortable
      (if req.isEmpty then .null else .list (req.map .text)) = true := by
    split
    · rfl
    · rw [Json.isSortable, Json.areItemsSortable_iff, List.forall_mem_map]
      exact fun _ _ => rfl
  rw [isShowable, toValue, Json.isSortable_shownMembers_iff, List.forall_mem_append,
    List.forall_mem_cons, List.forall_mem_cons, List.forall_mem_singleton,
    isSortable_properties_iff]
  exact ⟨fun h => ⟨h.1.2.1, h.2⟩, fun h => ⟨⟨rfl, h.1, hrequired⟩, h.2⟩⟩

theorem isShowable_untyped_iff {ex : Extras} :
    (Schema.array none ex).isShowable = true ↔ ex.Sortable := by
  rw [isShowable, toValue, Json.isSortable_shownMembers_iff, List.forall_mem_append,
    List.forall_mem_cons, List.forall_mem_singleton]
  exact ⟨fun h => h.2, fun h => ⟨⟨rfl, rfl⟩, h⟩⟩

theorem isShowable_array_iff {s : Schema} {ex : Extras} :
    (Schema.array (some s) ex).isShowable = true ↔ s.isShowable = true ∧ ex.Sortable := by
  rw [isShowable, toValue, Json.isSortable_shownMembers_iff, List.forall_mem_append,
    List.forall_mem_cons, List.forall_mem_singleton]
  exact ⟨fun h => ⟨h.1.2, h.2⟩, fun h => ⟨⟨rfl, h.1⟩, h.2⟩⟩

theorem isShowable_scalar_iff {kind : ScalarKind} {ex : Extras} :
    (Schema.scalar kind ex).isShowable = true ↔ ex.Sortable := by
  rw [isShowable, toValue, Json.isSortable_shownMembers_iff, List.forall_mem_append,
    List.forall_mem_singleton]
  exact ⟨fun h => h.2, fun h => ⟨rfl, h⟩⟩

/-- The schema of a sample has no free members in the way. -/
theorem Inferred.isShowable {s : Schema} (h : s.Inferred) : s.isShowable = true := by
  induction h with
  | object _ _ _ ih =>
      exact isShowable_object_iff.2 ⟨fun p hp => ih p.1 p.2 hp, List.forall_mem_nil _⟩
  | untyped => rfl
  | array _ ih => exact isShowable_array_iff.2 ⟨ih, List.forall_mem_nil _⟩
  | scalar kind => cases kind <;> rfl

/-! ### Joins -/

/-- **A join of schemas that can be shown can be shown.** -/
theorem isShowable_join {a b r : Schema} (ha : a.isShowable = true) (hb : b.isShowable = true)
    (h : Schema.join a b = .ok r) : r.isShowable = true := by
  induction a using induct generalizing b r with
  | object ps req ex ih =>
      obtain ⟨qs, req', ex', -, rfl, -⟩ := join_object h
      obtain ⟨f, hf, rfl⟩ := join_object_eq_ok_iff.1 h
      obtain ⟨hps, hex⟩ := isShowable_object_iff.1 ha
      obtain ⟨hqs, hex'⟩ := isShowable_object_iff.1 hb
      refine isShowable_object_iff.2 ⟨fun p hp => ?_, hex.joinExtras hex'⟩
      -- a property is joint, or taken over from one of the sides
      rcases Members.mem_of_mem_putAll hp with hp | hp
      · rcases Members.mem_of_mem_fill hp with hp | hp
        · exact hps p hp
        · exact hqs p hp
      · obtain ⟨k, hk, rfl⟩ := List.mem_map.1 hp
        obtain ⟨s, t, hs, ht, hj⟩ := hf k hk
        have hmem := Members.mem_of_get? hs
        exact ih k s hmem (hps _ hmem) (hqs _ (Members.mem_of_get? ht)) hj
  | untyped ex =>
      have hex := isShowable_untyped_iff.1 ha
      obtain ⟨items, ex', rfl, rfl⟩ := join_untyped h
      cases items with
      | none => exact isShowable_untyped_iff.2 (hex.joinExtras (isShowable_untyped_iff.1 hb))
      | some s =>
          obtain ⟨hs, hex'⟩ := isShowable_array_iff.1 hb
          exact isShowable_array_iff.2 ⟨hs, hex.joinExtras hex'⟩
  | array s ex ih =>
      obtain ⟨hs, hex⟩ := isShowable_array_iff.1 ha
      obtain ⟨items, ex', rfl, ⟨rfl, rfl⟩ | ⟨s', t, rfl, hj, rfl⟩⟩ := join_array h
      · exact isShowable_array_iff.2 ⟨hs, hex.joinExtras (isShowable_untyped_iff.1 hb)⟩
      · obtain ⟨hs', hex'⟩ := isShowable_array_iff.1 hb
        exact isShowable_array_iff.2 ⟨ih hs hs' hj, hex.joinExtras hex'⟩
  | scalar kind ex =>
      obtain ⟨ex', rfl, rfl⟩ := join_scalar h
      exact isShowable_scalar_iff.2
        ((isShowable_scalar_iff.1 ha).joinExtras (isShowable_scalar_iff.1 hb))

/-- **If schemas that can be shown have no join, the cause is reported as what it is.** -/
theorem isReported_of_join_eq_error {a b : Schema} {e : SchemaError} (ha : a.isShowable = true)
    (hb : b.isShowable = true) (h : Schema.join a b = .error e) : e.isReported = true := by
  have hfails := joinFails_of_eq_error h
  clear h
  induction hfails with
  | mismatch cause =>
      rw [cause, SchemaError.isReported, ha, hb]
      rfl
  | first _ _ cause =>
      rw [cause]
      exact isSortable_properties_iff.2 (isShowable_object_iff.1 ha).1
  | second _ _ cause =>
      rw [cause]
      exact isSortable_properties_iff.2 (isShowable_object_iff.1 hb).1
  | property _ left right _ ih =>
      exact ih ((isShowable_object_iff.1 ha).1 _ (Members.mem_of_get? left))
        ((isShowable_object_iff.1 hb).1 _ (Members.mem_of_get? right))
  | items _ ih => exact ih (isShowable_array_iff.1 ha).1 (isShowable_array_iff.1 hb).1

end Schema

end ApiScribe
