/-
**Outcomes that end well.**

Reading, joining and recording may fail, and whatever is built from them fails with them.  A result
that did come out tells that every part came out, and what it was; this module says so once for an
outcome that is worked on, for a list of outcomes, and for a checked result.

Main results: `ApiScribe.map_eq_ok_iff`, `ApiScribe.mapM_eq_ok_iff`, for outcomes that end badly
`ApiScribe.map_eq_error_iff`, `ApiScribe.mapError_eq_error_iff`, and for checked results
`ApiScribe.Checked.map_eq_valid_iff`, `ApiScribe.Checked.seq_eq_valid_iff`.
-/

import ApiScribe.Validation.Issue
import Mathlib.Data.List.Forall2

set_option autoImplicit false

namespace ApiScribe

variable {α β ε : Type}

/-- What is made of an outcome ends well exactly if the outcome does. -/
theorem map_eq_ok_iff {x : Except ε α} {f : α → β} {b : β} :
    x.map f = .ok b ↔ ∃ a, x = .ok a ∧ f a = b := by
  cases x with
  | error e => simp [Except.map]
  | ok a => simp [Except.map]

/-- An outcome ends well if something can be computed of what it leaves. -/
theorem exists_ok_of_toOption {x : Except ε α} {f : α → β} {b : β}
    (h : x.toOption.map f = some b) : ∃ a, x = .ok a ∧ f a = b := by
  cases x with
  | error e => cases h
  | ok a => exact ⟨a, rfl, Option.some.inj h⟩

/-- What is made of an outcome fails exactly if the outcome does, and for the same cause. -/
theorem map_eq_error_iff {x : Except ε α} {f : α → β} {e : ε} :
    x.map f = .error e ↔ x = .error e := by
  cases x <;> simp [Except.map]

/-- A cause that was put into other words. -/
theorem mapError_eq_error_iff {δ : Type} {x : Except ε α} {f : ε → δ} {d : δ} :
    x.mapError f = .error d ↔ ∃ e, x = .error e ∧ f e = d := by
  cases x <;> simp [Except.mapError]

/-- A list is translated exactly if each of its items is. -/
theorem mapM_eq_ok_iff {f : α → Except ε β} {xs : List α} {ys : List β} :
    xs.mapM f = .ok ys ↔ List.Forall₂ (fun x y => f x = .ok y) xs ys := by
  induction xs generalizing ys with
  | nil =>
      rw [List.mapM_nil, List.forall₂_nil_left_iff]
      exact ⟨fun h => (Except.ok.inj h).symm, fun h => h ▸ rfl⟩
  | cons x xs ih =>
      rw [List.mapM_cons, List.forall₂_cons_left_iff]
      cases hx : f x with
      | error e => simp [bind, Except.bind]
      | ok y =>
          cases hxs : xs.mapM f with
          | error e =>
              have hnone : ∀ zs, ¬List.Forall₂ (fun x y => f x = .ok y) xs zs := by
                intro zs hz
                rw [← ih, hxs] at hz
                cases hz
              simp [bind, Except.bind, hnone]
          | ok zs =>
              have hzs := ih.1 hxs
              simp only [bind, Except.bind, pure, Except.pure, Except.ok.injEq]
              constructor
              · rintro rfl
                exact ⟨y, zs, rfl, hzs, rfl⟩
              · rintro ⟨y', zs', rfl, hzs', rfl⟩
                rw [← ih, hxs, Except.ok.injEq] at hzs'
                rw [hzs']

/-- Of two lists that are related item by item, an item of the first is related to one of the
second. -/
theorem forall₂_mem_left {R : α → β → Prop} {xs : List α} {ys : List β}
    (h : List.Forall₂ R xs ys) {x : α} (hx : x ∈ xs) : ∃ y ∈ ys, R x y := by
  induction h with
  | nil => cases hx
  | cons hxy _ ih =>
      rcases List.mem_cons.1 hx with rfl | hx
      · exact ⟨_, List.mem_cons_self, hxy⟩
      · obtain ⟨y, hy, hr⟩ := ih hx
        exact ⟨y, List.mem_cons_of_mem _ hy, hr⟩

/-- And an item of the second to one of the first. -/
theorem forall₂_mem_right {R : α → β → Prop} {xs : List α} {ys : List β}
    (h : List.Forall₂ R xs ys) {y : β} (hy : y ∈ ys) : ∃ x ∈ xs, R x y :=
  forall₂_mem_left h.flip hy

/-- Two lists that are related by way of a third one are related by way of its items. -/
theorem forall₂_comp_iff {γ : Type} {R : α → γ → Prop} {S : γ → β → Prop} {T : α → β → Prop}
    (h : ∀ x z, T x z ↔ ∃ y, R x y ∧ S y z) {xs : List α} {zs : List β} :
    List.Forall₂ T xs zs ↔ ∃ ys, List.Forall₂ R xs ys ∧ List.Forall₂ S ys zs := by
  constructor
  · intro hxs
    induction hxs with
    | nil => exact ⟨[], .nil, .nil⟩
    | cons hx _ ih =>
        obtain ⟨y, hy, hz⟩ := (h _ _).1 hx
        obtain ⟨ys, hys, hzs⟩ := ih
        exact ⟨y :: ys, .cons hy hys, .cons hz hzs⟩
  · rintro ⟨ys, hxs, hzs⟩
    induction hxs generalizing zs with
    | nil =>
        cases hzs
        exact .nil
    | cons hx _ ih =>
        cases hzs with
        | cons hz hrest => exact .cons ((h _ _).2 ⟨_, hx, hz⟩) (ih hrest)

/-- Two lists that are related item by item are related part by part. -/
theorem forall₂_append_left {R : α → β → Prop} {xs ys : List α} {zs : List β}
    (h : List.Forall₂ R (xs ++ ys) zs) :
    ∃ us ws, List.Forall₂ R xs us ∧ List.Forall₂ R ys ws ∧ zs = us ++ ws := by
  induction xs generalizing zs with
  | nil => exact ⟨[], zs, .nil, h, rfl⟩
  | cons x xs ih =>
      obtain ⟨z, zs', hz, hrest, rfl⟩ := List.forall₂_cons_left_iff.1 h
      obtain ⟨us, ws, hus, hws, rfl⟩ := ih hrest
      exact ⟨z :: us, ws, .cons hz hus, hws, rfl⟩

/-! ### Checked results -/

namespace Checked

theorem map_eq_valid_iff {f : α → β} {x : Checked α} {b : β} :
    f <$> x = .valid b ↔ ∃ a, x = .valid a ∧ f a = b := by
  cases x with
  | valid a => simp
  | invalid issues =>
      refine iff_of_false (fun h => ?_) (fun ⟨_, h, _⟩ => ?_)
      · cases h
      · cases h

theorem seq_eq_valid_iff {f : Checked (α → β)} {x : Checked α} {b : β} :
    f <*> x = .valid b ↔ ∃ g a, f = .valid g ∧ x = .valid a ∧ g a = b := by
  cases f with
  | valid g =>
      cases x with
      | valid a => simp
      | invalid issues =>
          refine iff_of_false (fun h => ?_) (fun ⟨_, _, _, h, _⟩ => ?_)
          · cases h
          · cases h
  | invalid issues =>
      refine iff_of_false (fun h => ?_) (fun ⟨_, _, h, _⟩ => ?_)
      · cases x <;> cases h
      · cases h

theorem under_eq_valid_iff {s : Segment} {x : Checked α} {a : α} :
    x.under s = .valid a ↔ x = .valid a := by
  cases x with
  | valid b => simp
  | invalid issues =>
      refine iff_of_false (fun h => ?_) (fun h => ?_)
      · cases h
      · cases h

end Checked

end ApiScribe
