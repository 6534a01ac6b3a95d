/-
**JSON values.**

A value that a JSON text can hold is its own JSON form.  A mapping among such values has distinct
texts for names, so that it is an object; this module gives induction on JSON values in that form.

Main definitions:

* `ApiScribe.Members.named` — members as those of an object;
* `ApiScribe.Value.Each` — all atoms and all names of a value have two properties.

Main results:

* `ApiScribe.Value.isJson_object_iff` — when an object is a JSON value;
* `ApiScribe.Value.jsonInduct` — induction on JSON values;
* `ApiScribe.Value.IsJson.keyed` — the names in a JSON value are distinct texts;
* `ApiScribe.Value.jsonForm?_of_isJson` — **a JSON value is its own JSON form**.
-/

import ApiScribe.Data.JsonForm
import ApiScribe.Proofs.Members
import ApiScribe.Proofs.Schema.Sample

set_option autoImplicit false

namespace ApiScribe

/-! ### Members with names -/

namespace Members

/-- Members as those of an object. -/
def named (ms : Members String Value) : Members Atom Value := ms.map fun m => (.text m.1, m.2)

theorem keys_named (ms : Members String Value) : ms.named.keys = ms.keys.map .text := by
  rw [keys, keys, named, List.map_map, List.map_map]
  rfl

theorem get?_named (ms : Members String Value) (name : String) :
    ms.named.get? (.text name) = ms.get? name := by
  induction ms with
  | nil => rfl
  | cons m ms ih =>
      rw [named, List.map_cons, get?_cons, get?_cons]
      simp only [Atom.text.injEq]
      rw [← ih]
      rfl

theorem named_append (ms ns : Members String Value) : (ms ++ ns).named = ms.named ++ ns.named :=
  List.map_append

/-- The names of members become atoms, and their values stay. -/
theorem forall_mem_named {ms : Members String Value} {P : Value → Prop} :
    (∀ m ∈ ms.named, P m.2) ↔ ∀ m ∈ ms, P m.2 := by
  rw [named, List.forall_mem_map]

theorem nodup_keys_named {ms : Members String Value} :
    ms.named.keys.Nodup ↔ ms.keys.Nodup := by
  rw [keys_named, List.Nodup, List.pairwise_map]
  simp only [ne_eq, Atom.text.injEq]
  rfl

/-- Members whose names are texts are those of an object. -/
theorem exists_named {ms : Members Atom Value} (h : ∀ m ∈ ms, ∃ s, m.1 = .text s) :
    ∃ ns : Members String Value, ms = ns.named := by
  induction ms with
  | nil => exact ⟨[], rfl⟩
  | cons m ms ih =>
      obtain ⟨ns, rfl⟩ := ih fun n hn => h n (List.mem_cons_of_mem m hn)
      obtain ⟨k, v⟩ := m
      obtain ⟨s, hs⟩ := h (k, v) List.mem_cons_self
      exact ⟨(s, v) :: ns, by rw [show k = .text s from hs]; rfl⟩

end Members

/-! ### JSON values -/

namespace Value

theorem jsonItems_iff {xs : List Value} : jsonItems xs ↔ ∀ v ∈ xs, v.IsJson := by
  induction xs with
  | nil => simp [jsonItems]
  | cons v xs ih => simp [jsonItems, ih]

theorem jsonMembers_iff {ms : Members Atom Value} :
    jsonMembers ms ↔ ∀ m ∈ ms, (∃ s, m.1 = .text s) ∧ m.2.IsJson := by
  induction ms with
  | nil => simp [jsonMembers]
  | cons m ms ih => simp [jsonMembers, ih, and_assoc]

theorem isJson_list_iff {xs : List Value} : (Value.list xs).IsJson ↔ ∀ v ∈ xs, v.IsJson := by
  rw [IsJson, jsonItems_iff]

/-- An object is a JSON value if its names are distinct and its members are JSON values. -/
theorem isJson_object_iff {ms : Members String Value} :
    (Value.object ms).IsJson ↔ ms.keys.Nodup ∧ ∀ m ∈ ms, m.2.IsJson := by
  rw [object, IsJson, jsonMembers_iff]
  constructor
  · rintro ⟨h, hn⟩
    refine ⟨Members.nodup_keys_named.1 hn, fun m hm => ?_⟩
    exact (h (.text m.1, m.2) (List.mem_map.2 ⟨m, hm, rfl⟩)).2
  · rintro ⟨hn, h⟩
    refine ⟨fun m hm => ?_, Members.nodup_keys_named.2 hn⟩
    obtain ⟨n, hmem, rfl⟩ := List.mem_map.1 hm
    exact ⟨⟨n.1, rfl⟩, h n hmem⟩

/-- Induction on JSON values. -/
theorem jsonInduct {motive : Value → Prop} (atom : ∀ a, a.IsJson → motive (.atom a))
    (list : ∀ xs, (∀ v ∈ xs, v.IsJson) → (∀ v ∈ xs, motive v) → motive (.list xs))
    (object : ∀ ms : Members String Value, ms.keys.Nodup → (∀ m ∈ ms, m.2.IsJson) →
      (∀ m ∈ ms, motive m.2) → motive (.object ms)) {v : Value} (h : v.IsJson) : motive v := by
  induction v using Value.induct with
  | atom a => exact atom a h
  | list xs ih =>
      have hxs := isJson_list_iff.1 h
      exact list xs hxs fun v hv => ih v hv (hxs v hv)
  | tuple xs => cases h
  | set xs => cases h
  | map ms ih =>
      obtain ⟨ns, rfl⟩ := Members.exists_named fun m hm => (jsonMembers_iff.1 h.1 m hm).1
      obtain ⟨hn, hns⟩ := isJson_object_iff.1 h
      exact object ns hn hns fun m hm =>
        ih (.text m.1) m.2 (List.mem_map.2 ⟨m, hm, rfl⟩) (hns m hm)

/-- An object is keyed if its names are distinct and its members that are not null are keyed. -/
theorem keyed_object {ms : Members String Value} (hn : ms.keys.Nodup)
    (h : ∀ m ∈ ms, m.2.isNull = false → m.2.Keyed) : (Value.object ms).Keyed := by
  refine .map (Members.nodup_keys_named.2 hn) ?_ ?_
  · intro a w hm _
    obtain ⟨m, -, he⟩ := List.mem_map.1 hm
    cases he
    exact ⟨m.1, rfl⟩
  · intro a w hm hw
    obtain ⟨m, hmem, he⟩ := List.mem_map.1 hm
    cases he
    exact h m hmem hw

/-- JSON values have distinct texts as names. -/
theorem IsJson.keyed {v : Value} (h : v.IsJson) : v.Keyed := by
  refine jsonInduct (motive := Keyed) (fun a _ => .atom a) ?list ?object h
  case list =>
      intro xs _ ih
      exact .sequence rfl fun w ws hxs => ih w (hxs ▸ List.mem_cons_self)
  case object => exact fun ms hn _ ih => keyed_object hn fun m hm _ => ih m hm

/-- **A JSON value is its own JSON form.** -/
theorem jsonForm?_of_isJson {v : Value} (h : v.IsJson) : v.jsonForm? = some v := by
  refine jsonInduct (motive := fun v => v.jsonForm? = some v) ?atom ?list ?object h
  case atom =>
      intro a ha
      cases a with
      | float x =>
          obtain ⟨hx, -⟩ : x.isFinite = true ∧ x.Canonical := ha
          simp [jsonForm?, Atom.jsonForm?, hx]
      | null => rfl
      | bool b => rfl
      | int n => rfl
      | text s => rfl
      | bytes bs => cases ha
      | date d => cases ha
      | moment t => cases ha
  case list =>
      intro xs hxs ih
      have hitems : jsonFormItems? xs = some xs := by
        clear hxs
        induction xs with
        | nil => rfl
        | cons v xs ihxs =>
            rw [jsonFormItems?, ih v List.mem_cons_self,
              ihxs fun w hw => ih w (List.mem_cons_of_mem v hw)]
      rw [jsonForm?, hitems]
      rfl
  case object =>
      intro ms hn hms ih
      have hmembers : jsonFormMembers? ms.named = some ms := by
        clear hn hms
        induction ms with
        | nil => rfl
        | cons m ms ihms =>
            have hrest := ihms fun n hn => ih n (List.mem_cons_of_mem m hn)
            rw [Members.named] at hrest
            rw [Members.named, List.map_cons, jsonFormMembers?, ih m List.mem_cons_self, hrest]
            rfl
      rw [object, jsonForm?]
      rw [Members.named] at hmembers
      rw [hmembers, Option.map_some, Members.ofList_eq_self hn]
      rfl

/-! ### Properties of all atoms and names -/

/-- Whether the atoms of a value and the names of its members have two properties. -/
inductive Each (P : Atom → Prop) (N : String → Prop) : Value → Prop
  /-- An atom. -/
  | atom {a : Atom} (h : P a) : Each P N (.atom a)
  /-- A list. -/
  | list {xs : List Value} (h : ∀ v ∈ xs, Each P N v) : Each P N (.list xs)
  /-- An object. -/
  | object {ms : Members String Value} (hname : ∀ m ∈ ms, N m.1)
      (h : ∀ m ∈ ms, Each P N m.2) : Each P N (.object ms)

variable {P P' : Atom → Prop} {N N' : String → Prop}

theorem each_atom_iff {a : Atom} : Each P N (.atom a) ↔ P a := by
  constructor
  · intro h
    cases h with
    | atom h => exact h
  · exact .atom

theorem each_list_iff {xs : List Value} : Each P N (.list xs) ↔ ∀ v ∈ xs, Each P N v := by
  constructor
  · intro h
    cases h with
    | list h => exact h
  · exact .list

theorem each_object_iff {ms : Members String Value} :
    Each P N (.object ms) ↔ (∀ m ∈ ms, N m.1) ∧ ∀ m ∈ ms, Each P N m.2 := by
  constructor
  · intro h
    generalize hv : Value.object ms = v at h
    cases h with
    | atom h => cases hv
    | list h => cases hv
    | object hname h =>
        have hinj : Function.Injective fun m : String × Value => (Atom.text m.1, m.2) := by
          rintro ⟨k, v⟩ ⟨l, w⟩ heq
          cases heq
          rfl
        rw [object, object, map.injEq, List.map_inj_right fun _ _ => @hinj _ _] at hv
        subst hv
        exact ⟨hname, h⟩
  · exact fun h => .object h.1 h.2

/-- A property of the atoms of JSON values. -/
theorem Each.imp_of_isJson {v : Value} (hv : v.IsJson) (hP : ∀ a, a.IsJson → P a → P' a)
    (hN : ∀ s, N s → N' s) (h : Each P N v) : Each P' N' v := by
  refine jsonInduct (motive := fun v => Each P N v → Each P' N' v) ?atom ?list ?object hv h
  case atom => exact fun a ha h => .atom (hP a ha (each_atom_iff.1 h))
  case list => exact fun xs _ ih h => .list fun v hv => ih v hv (each_list_iff.1 h v hv)
  case object =>
      intro ms _ _ ih h
      obtain ⟨hname, h⟩ := each_object_iff.1 h
      exact .object (fun m hm => hN m.1 (hname m hm)) fun m hm => ih m hm (h m hm)

end Value

end ApiScribe
