/-
**Values that equal themselves.**

Equality of values is that of numbers, so that not-a-number differs from itself, and a mapping equals
another one if what is found there under each of its names does.  A value is regular if neither can
get in the way: it has no not-a-number, and no two names of a mapping stand for the same.

Main definitions:

* `ApiScribe.Value.Regular`, `ApiScribe.Extras.Regular` — regular values and free members.

Main results:

* `ApiScribe.Value.Regular.same_self` — regular values equal themselves;
* `ApiScribe.sameMapping_of_get?` — mappings are equal if what is found in them is;
* `ApiScribe.Extras.same_of_get?` — free members are equal if the same is found in them.
-/

import ApiScribe.Document.Same
import ApiScribe.Proofs.Members
import Mathlib.Data.List.Forall2

set_option autoImplicit false

namespace ApiScribe

/-! ### Values -/

/-- No number is not-a-number, and no two names of a mapping stand for the same, at every depth. -/
inductive Value.Regular : Value → Prop
  /-- An undivided datum. -/
  | atom {a : Atom} (number : a ≠ .float .nan) : Regular (.atom a)
  /-- A sequence. -/
  | list {vs : List Value} (each : ∀ v ∈ vs, Regular v) : Regular (.list vs)
  /-- A sequence of fixed make-up. -/
  | tuple {vs : List Value} (each : ∀ v ∈ vs, Regular v) : Regular (.tuple vs)
  /-- A collection of atoms. -/
  | set (items : List Atom) : Regular (.set items)
  /-- A mapping. -/
  | map {ms : List (Atom × Value)} (names : ms.Pairwise fun m n => n.1.sameKey m.1 = false)
      (each : ∀ k v, (k, v) ∈ ms → Regular v) : Regular (.map ms)

theorem Atom.same_self {a : Atom} (h : a ≠ .float .nan) : a.same a = true := by
  cases a with
  | float x =>
      cases x with
      | nan => exact absurd rfl h
      | infinite s => simp [Atom.same, Atom.number?, sameNumber, Binary64.same]
      | finite s m e => simp [Atom.same, Atom.number?, sameNumber, Binary64.same]
  | moment t =>
      simp only [Atom.same, Atom.number?, Moment.same]
      cases t.offset <;> simp
  | bool b => simp [Atom.same, Atom.number?, sameNumber]
  | int n => simp [Atom.same, Atom.number?, sameNumber]
  | null => rfl
  | text s => simp [Atom.same, Atom.number?]
  | bytes bs => simp [Atom.same, Atom.number?]
  | date d => simp [Atom.same, Atom.number?]

theorem Atom.sameKey_self (a : Atom) : a.sameKey a = true := by
  simp [Atom.sameKey]

/-- Of names that stand for different things each is found at its own place. -/
theorem find?_sameKey {ms : Members Atom Value}
    (h : ms.Pairwise fun m n => n.1.sameKey m.1 = false) {m : Atom × Value} (hm : m ∈ ms) :
    ms.find? (fun n => m.1.sameKey n.1) = some m := by
  induction ms with
  | nil => cases hm
  | cons n ms ih =>
      obtain ⟨hn, hms⟩ := List.pairwise_cons.1 h
      rcases List.mem_cons.1 hm with rfl | hm
      · exact List.find?_cons_of_pos (Atom.sameKey_self m.1)
      · rw [List.find?_cons_of_neg (by simp [hn m hm])]
        exact ih hms hm

theorem sameItems_self {vs : List Value} (h : ∀ v ∈ vs, v.same v = true) :
    sameItems vs vs = true := by
  induction vs with
  | nil => rfl
  | cons v vs ih =>
      rw [sameItems, Bool.and_eq_true]
      exact ⟨h v List.mem_cons_self, ih fun w hw => h w (List.mem_cons_of_mem v hw)⟩

theorem sameMembers_of_find? {xs ys : Members Atom Value}
    (h : ∀ m ∈ xs, ∃ n, ys.find? (fun n => m.1.sameKey n.1) = some n ∧ m.2.same n.2 = true) :
    sameMembers xs ys = true := by
  induction xs with
  | nil => rfl
  | cons m xs ih =>
      obtain ⟨n, hn, hsame⟩ := h m List.mem_cons_self
      obtain ⟨k, v⟩ := m
      rw [sameMembers, hn, Bool.and_eq_true]
      exact ⟨hsame, ih fun m' hm' => h m' (List.mem_cons_of_mem _ hm')⟩

/-- **A regular value equals itself.** -/
theorem Value.Regular.same_self {v : Value} (h : v.Regular) : v.same v = true := by
  induction h with
  | atom number =>
      rw [Value.same]
      exact Atom.same_self number
  | list _ ih =>
      rw [Value.same]
      exact sameItems_self ih
  | tuple _ ih =>
      rw [Value.same]
      exact sameItems_self ih
  | set items =>
      simp only [Value.same, beq_self_eq_true, Bool.true_and, List.all_eq_true]
      exact fun a ha => List.any_eq_true.2 ⟨a, ha, Atom.sameKey_self a⟩
  | map names _ ih =>
      simp only [Value.same, beq_self_eq_true, Bool.true_and]
      exact sameMembers_of_find? fun m hm => ⟨m, find?_sameKey names hm, ih m.1 m.2 hm⟩

/-! ### Mappings -/

section

variable {α : Type} {same : α → α → Bool}

theorem sameOption_self {o : Option α} (h : ∀ a, o = some a → same a a = true) :
    sameOption same o o = true := by
  cases o with
  | none => rfl
  | some a => exact h a rfl

theorem sameList_iff {xs ys : List α} :
    sameList same xs ys = true ↔ List.Forall₂ (fun x y => same x y = true) xs ys := by
  induction xs generalizing ys with
  | nil => cases ys <;> simp [sameList]
  | cons x xs ih => cases ys <;> simp [sameList, ih]

theorem sameList_self {xs : List α} (h : ∀ x ∈ xs, same x x = true) :
    sameList same xs xs = true := sameList_iff.2 (List.forall₂_same.2 h)

/-- Mappings are equal if what is found in them is. -/
theorem sameMapping_of_get? {xs ys : Members String α} (hn : xs.keys.Nodup)
    (hlength : xs.length = ys.length)
    (h : ∀ k, sameOption same (xs.get? k) (ys.get? k) = true) :
    sameMapping same xs ys = true := by
  rw [sameMapping, hlength, beq_self_eq_true, Bool.true_and, List.all_eq_true]
  rintro ⟨k, x⟩ hm
  have hk := h k
  rw [Members.get?_of_mem hn hm] at hk
  cases hy : ys.get? k with
  | none => simp [hy, sameOption] at hk
  | some y => simpa [hy, sameOption] using hk

end

/-! ### Free members -/

/-- Free members with distinct names and regular values. -/
structure Extras.Regular (ex : Extras) : Prop where
  /-- No name is repeated. -/
  names : (Members.keys ex).Nodup
  /-- The values are regular. -/
  each : ∀ k v, (k, v) ∈ ex → v.Regular

namespace Extras

theorem regular_nil : Extras.Regular [] := ⟨List.nodup_nil, fun _ _ h => by cases h⟩

/-- Free members are equal if the same is found in them. -/
theorem same_of_get? {xs ys : Extras} (hx : xs.Regular) (hy : (Members.keys ys).Nodup)
    (h : ∀ k, Members.get? xs k = Members.get? ys k) : Extras.same xs ys = true := by
  have hkeys : ∀ k, k ∈ Members.keys xs ↔ k ∈ Members.keys ys := by
    intro k
    rw [Members.mem_keys_iff, Members.mem_keys_iff, h]
  have hlength : xs.length = ys.length := by
    have hperm := ((List.perm_ext_iff_of_nodup hx.names hy).2 hkeys).length_eq
    simpa [Members.keys] using hperm
  rw [Extras.same, hlength, beq_self_eq_true, Bool.true_and, List.all_eq_true]
  rintro ⟨k, v⟩ hm
  rw [← h, Members.get?_of_mem hx.names hm]
  exact (hx.each k v hm).same_self

theorem Regular.same_self {ex : Extras} (h : ex.Regular) : Extras.same ex ex = true :=
  same_of_get? h h.names fun _ => rfl

end Extras

end ApiScribe
