/-
**Laws of members in order.**

A mapping is known by its names, in order, and by what each name stands for.  Writing many members
at once extends the names by the new ones, in the order in which they are first seen; this order is
an operation on lists of its own, `ApiScribe.addAll`, which also orders content types and templates.

Main definitions:

* `ApiScribe.addNew`, `ApiScribe.addAll` — a list with what is new at its end.

Main results:

* `ApiScribe.addAll_addAll` — adding a list that was itself extended is adding twice;
* `ApiScribe.eraseDups_eq_addAll` — the list without repetitions is the empty list with all added;
* `ApiScribe.Members.keys_putAll`, `ApiScribe.Members.keys_fill` — the names after many writes;
* `ApiScribe.Members.get?_fill`, `ApiScribe.Members.get?_putAll_map` — the look-up after them;
* `ApiScribe.Members.ext_keys` — names and look-up determine a mapping without repetitions.
-/

import ApiScribe.Data.Members
import Mathlib.Data.List.Induction

set_option autoImplicit false

namespace ApiScribe

variable {κ α : Type} [DecidableEq κ]

/-! ### What is new at the end -/

/-- A list with `x` at its end, unless it is there already. -/
def addNew (xs : List κ) (x : κ) : List κ := if x ∈ xs then xs else xs ++ [x]

/-- A list with the new ones of `ys` at its end, in the order in which they are first seen. -/
def addAll (xs ys : List κ) : List κ := ys.foldl addNew xs

@[simp] theorem mem_addNew {xs : List κ} {x y : κ} : y ∈ addNew xs x ↔ y ∈ xs ∨ y = x := by
  unfold addNew
  split
  · constructor
    · exact Or.inl
    · rintro (h | rfl)
      · exact h
      · assumption
  · simp

theorem addNew_of_mem {xs : List κ} {x : κ} (h : x ∈ xs) : addNew xs x = xs := if_pos h

theorem nodup_addNew {xs : List κ} (h : xs.Nodup) (x : κ) : (addNew xs x).Nodup := by
  unfold addNew
  split
  · exact h
  · rename_i hx
    refine List.nodup_append.2 ⟨h, by simp, ?_⟩
    intro a ha b hb hab
    rw [List.mem_singleton.1 hb] at hab
    exact hx (hab ▸ ha)

@[simp] theorem addAll_nil (xs : List κ) : addAll xs [] = xs := rfl

@[simp] theorem addAll_cons (xs : List κ) (y : κ) (ys : List κ) :
    addAll xs (y :: ys) = addAll (addNew xs y) ys := rfl

theorem addAll_append (xs ys zs : List κ) : addAll xs (ys ++ zs) = addAll (addAll xs ys) zs :=
  List.foldl_append

@[simp] theorem mem_addAll {xs ys : List κ} {x : κ} : x ∈ addAll xs ys ↔ x ∈ xs ∨ x ∈ ys := by
  induction ys generalizing xs with
  | nil => simp
  | cons y ys ih =>
      rw [addAll_cons, ih, mem_addNew, List.mem_cons, or_assoc]

theorem nodup_addAll {xs : List κ} (h : xs.Nodup) (ys : List κ) : (addAll xs ys).Nodup := by
  induction ys generalizing xs with
  | nil => exact h
  | cons y ys ih => exact ih (nodup_addNew h y)

/-- New ones without repetitions are added as they are. -/
theorem addAll_eq_append {xs ys : List κ} (h : (xs ++ ys).Nodup) : addAll xs ys = xs ++ ys := by
  induction ys generalizing xs with
  | nil => rw [addAll_nil, List.append_nil]
  | cons y ys ih =>
      have hy : y ∉ xs := fun hmem => (List.nodup_append.1 h).2.2 y hmem y List.mem_cons_self rfl
      have hnew : addNew xs y = xs ++ [y] := if_neg hy
      rw [addAll_cons, hnew, ih (by simpa using h), List.append_assoc, List.singleton_append]

/-- A list with others added has the list as its initial part. -/
theorem prefix_addAll (xs ys : List κ) : xs <+: addAll xs ys := by
  induction ys generalizing xs with
  | nil => exact List.prefix_refl _
  | cons y ys ih =>
      have hnew : xs <+: addNew xs y := by
        rw [addNew]
        split
        · exact List.prefix_refl _
        · exact List.prefix_append _ _
      exact hnew.trans (ih (addNew xs y))

theorem prefix_addNew (xs : List κ) (x : κ) : xs <+: addNew xs x := prefix_addAll xs [x]

/-- Nothing is added by what is there already. -/
theorem addAll_of_subset {xs ys : List κ} (h : ∀ y ∈ ys, y ∈ xs) : addAll xs ys = xs := by
  induction ys with
  | nil => rfl
  | cons y ys ih =>
      rw [addAll_cons, addNew_of_mem (h y List.mem_cons_self)]
      exact ih fun z hz => h z (List.mem_cons_of_mem y hz)

/-- Adding a list that was itself extended is adding twice. -/
theorem addAll_addAll (xs ys zs : List κ) :
    addAll xs (addAll ys zs) = addAll (addAll xs ys) zs := by
  induction zs generalizing ys with
  | nil => rfl
  | cons z zs ih =>
      have hz : addAll xs (addNew ys z) = addNew (addAll xs ys) z := by
        by_cases h : z ∈ ys
        · rw [addNew_of_mem h, addNew_of_mem (mem_addAll.2 (Or.inr h))]
        · have hys : addNew ys z = ys ++ [z] := if_neg h
          rw [hys, addAll_append, addAll_cons, addAll_nil]
      rw [addAll_cons, ih, hz, addAll_cons]

/-- Adding two lists with the same beginning is adding the beginning once. -/
theorem addAll_common (xs ys zs : List κ) :
    addAll (addAll [] (xs ++ ys)) (addAll [] (xs ++ zs)) = addAll [] (xs ++ ys ++ zs) := by
  rw [addAll_addAll, addAll_append (addAll _ _), addAll_append [] (xs ++ ys), addAll_nil]
  congr 1
  refine addAll_of_subset fun x hx => ?_
  exact mem_addAll.2 (Or.inr (List.mem_append_left ys hx))

/-- A list with others added is the list, and then the others without repetitions. -/
theorem addAll_eq_append_eraseDups (xs ys : List κ) :
    addAll xs ys = xs ++ (ys.filter fun y => y ∉ xs).eraseDups := by
  induction ys generalizing xs with
  | nil => simp
  | cons y ys ih =>
      rw [addAll_cons, ih]
      by_cases hy : y ∈ xs
      · rw [addNew_of_mem hy, List.filter_cons_of_neg (by simpa using hy)]
      · have hnew : addNew xs y = xs ++ [y] := if_neg hy
        rw [hnew, List.filter_cons_of_pos (by simpa using hy), List.eraseDups_cons,
          List.filter_filter, List.append_assoc, List.singleton_append]
        congr 3
        refine List.filter_congr fun z _ => ?_
        by_cases hz : z = y <;> simp [hz]

/-- A list without its repetitions is the empty list with all of it added. -/
theorem eraseDups_eq_addAll (ys : List κ) : ys.eraseDups = addAll [] ys := by
  rw [addAll_eq_append_eraseDups, List.nil_append, List.filter_eq_self.2 (by simp)]

/-- A list with others added, of which none is repeated. -/
theorem addAll_eq_append_filter {ys : List κ} (h : ys.Nodup) (xs : List κ) :
    addAll xs ys = xs ++ ys.filter fun y => y ∉ xs := by
  have hnew : ([] ++ ys.filter fun y => y ∉ xs).Nodup := h.filter _
  rw [addAll_eq_append_eraseDups, eraseDups_eq_addAll, addAll_eq_append hnew, List.nil_append]

namespace Members

/-! ### Look-up -/

theorem get?_cons (m : κ × α) (ms : Members κ α) (k : κ) :
    get? (m :: ms) k = if m.1 = k then some m.2 else get? ms k := rfl

theorem get?_eq_none_iff {ms : Members κ α} {k : κ} : ms.get? k = none ↔ k ∉ ms.keys := by
  have h := has_iff_mem_keys ms k
  rw [has, Option.isSome_iff_ne_none] at h
  exact ⟨fun hn hk => h.2 hk hn, fun hk => Classical.not_not.1 fun hn => hk (h.1 hn)⟩

theorem mem_keys_iff {ms : Members κ α} {k : κ} :
    k ∈ ms.keys ↔ ∃ a, ms.get? k = some a := by
  rw [← has_iff_mem_keys, has, Option.isSome_iff_exists]

theorem mem_of_get? {ms : Members κ α} {k : κ} {a : α} (h : ms.get? k = some a) :
    (k, a) ∈ ms := by
  induction ms with
  | nil => simp at h
  | cons m ms ih =>
      rw [get?_cons] at h
      split at h
      · rename_i hk
        cases h
        subst hk
        exact List.mem_cons_self
      · exact List.mem_cons_of_mem m (ih h)

theorem mem_keys_of_get? {ms : Members κ α} {k : κ} {a : α} (h : ms.get? k = some a) :
    k ∈ ms.keys := mem_keys_iff.2 ⟨a, h⟩

theorem get?_of_mem {ms : Members κ α} {k : κ} {a : α} (hn : ms.keys.Nodup) (h : (k, a) ∈ ms) :
    ms.get? k = some a := by
  induction ms with
  | nil => simp at h
  | cons m ms ih =>
      rw [keys_cons, List.nodup_cons] at hn
      rw [get?_cons]
      rcases List.mem_cons.1 h with rfl | h
      · simp
      · have hk : k ∈ keys ms := List.mem_map.2 ⟨(k, a), h, rfl⟩
        have hm : m.1 ≠ k := fun e => hn.1 (e ▸ hk)
        rw [if_neg hm]
        exact ih hn.2 h

/-- Two mappings without repetitions agree if they have the same names in the same order, with the
same under each of them. -/
theorem ext_keys {xs ys : Members κ α} (hn : xs.keys.Nodup) (hk : xs.keys = ys.keys)
    (h : ∀ k ∈ xs.keys, xs.get? k = ys.get? k) : xs = ys := by
  induction xs generalizing ys with
  | nil => exact (List.map_eq_nil_iff.1 hk.symm).symm
  | cons x xs ih =>
      cases ys with
      | nil => simp at hk
      | cons y ys =>
          rw [keys_cons, keys_cons, List.cons.injEq] at hk
          rw [keys_cons, List.nodup_cons] at hn
          have hx : x = y := by
            have h₀ := h x.1 (by simp)
            rw [get?_cons, get?_cons, if_pos rfl, if_pos hk.1.symm] at h₀
            exact Prod.ext hk.1 (Option.some.inj h₀)
          have hrest : xs = ys := by
            refine ih hn.2 hk.2 fun k hmem => ?_
            have hne : x.1 ≠ k := fun e => hn.1 (e ▸ hmem)
            have h₁ := h k (List.mem_cons_of_mem _ hmem)
            rwa [get?_cons, get?_cons, if_neg hne, if_neg (hx ▸ hne)] at h₁
          rw [hx, hrest]

/-! ### One write -/

/-- The names after a write. -/
theorem keys_put_eq (ms : Members κ α) (k : κ) (a : α) :
    (ms.put k a).keys = addNew ms.keys k := by
  rw [keys_put, addNew]
  simp only [has_iff_mem_keys]

/-- Writing what is there changes nothing. -/
theorem put_eq_self {ms : Members κ α} {k : κ} {a : α} (h : ms.get? k = some a) :
    ms.put k a = ms := by
  induction ms with
  | nil => simp at h
  | cons m ms ih =>
      obtain ⟨k', a'⟩ := m
      rw [get?_cons] at h
      by_cases hk : k' = k
      · simp only [hk, if_true] at h
        simp [put, hk, Option.some.inj h]
      · simp only [hk, if_false] at h
        simp [put, hk, ih h]

/-- Of two writes under one name the second one counts. -/
theorem put_put (ms : Members κ α) (k : κ) (a b : α) : (ms.put k a).put k b = ms.put k b := by
  induction ms with
  | nil => simp [put]
  | cons m ms ih =>
      obtain ⟨k', a'⟩ := m
      by_cases hk : k' = k
      · simp [put, hk]
      · simp [put, hk, ih]

/-- Writes under two names that are present can be done in either order. -/
theorem put_comm {ms : Members κ α} {j k : κ} (hne : j ≠ k) (hj : j ∈ ms.keys) (hk : k ∈ ms.keys)
    (a b : α) : (ms.put j a).put k b = (ms.put k b).put j a := by
  induction ms with
  | nil => cases hj
  | cons m ms ih =>
      obtain ⟨i, c⟩ := m
      rw [keys_cons, List.mem_cons] at hj hk
      by_cases hij : i = j
      · subst hij
        simp [put, hne]
      · by_cases hik : i = k
        · subst hik
          simp [put, hij]
        · have hj' := hj.resolve_left fun he => hij he.symm
          have hk' := hk.resolve_left fun he => hik he.symm
          simp [put, hij, hik, ih hj' hk']

theorem mem_of_mem_put {ms : Members κ α} {k : κ} {a : α} {m : κ × α} (h : m ∈ ms.put k a) :
    m ∈ ms ∨ m = (k, a) := by
  induction ms with
  | nil => exact Or.inr (List.mem_singleton.1 h)
  | cons n ms ih =>
      obtain ⟨k', a'⟩ := n
      rw [put] at h
      split at h
      · rename_i hk
        rcases List.mem_cons.1 h with rfl | h
        · exact Or.inr (by rw [hk])
        · exact Or.inl (List.mem_cons_of_mem _ h)
      · rcases List.mem_cons.1 h with rfl | h
        · exact Or.inl List.mem_cons_self
        · exact (ih h).imp (List.mem_cons_of_mem _) id

/-! ### Many writes -/

@[simp] theorem putAll_nil (ms : Members κ α) : ms.putAll [] = ms := rfl

@[simp] theorem putAll_cons (ms : Members κ α) (m : κ × α) (new : Members κ α) :
    ms.putAll (m :: new) = (ms.put m.1 m.2).putAll new := rfl

theorem keys_putAll (ms new : Members κ α) : (ms.putAll new).keys = addAll ms.keys new.keys := by
  induction new generalizing ms with
  | nil => rfl
  | cons m new ih => rw [putAll_cons, ih, keys_put_eq, keys_cons, addAll_cons]

theorem mem_of_mem_putAll {ms new : Members κ α} {m : κ × α} (h : m ∈ ms.putAll new) :
    m ∈ ms ∨ m ∈ new := by
  induction new generalizing ms with
  | nil => exact Or.inl h
  | cons n new ih =>
      rw [putAll_cons] at h
      rcases ih h with h | h
      · rcases mem_of_mem_put h with h | rfl
        · exact Or.inl h
        · exact Or.inr List.mem_cons_self
      · exact Or.inr (List.mem_cons_of_mem _ h)

/-- Writing what is there changes nothing. -/
theorem putAll_eq_self {ms new : Members κ α} (h : ∀ m ∈ new, ms.get? m.1 = some m.2) :
    ms.putAll new = ms := by
  induction new with
  | nil => rfl
  | cons m new ih =>
      rw [putAll_cons, put_eq_self (h m List.mem_cons_self)]
      exact ih fun n hn => h n (List.mem_cons_of_mem m hn)

/-- What is written under each of several names is what is found there. -/
theorem get?_putAll_map (ms : Members κ α) (names : List κ) (f : κ → α) (k : κ) :
    (ms.putAll (names.map fun n => (n, f n))).get? k
      = if k ∈ names then some (f k) else ms.get? k := by
  induction names generalizing ms with
  | nil => simp
  | cons n names ih =>
      rw [List.map_cons, putAll_cons, ih, get?_put]
      by_cases hk : k ∈ names
      · simp [hk]
      · by_cases hn : n = k
        · simp [hn]
        · have hn' : k ≠ n := fun e => hn e.symm
          simp [hk, hn, hn']

/-- After many writes a name stands for what was written last, and if nothing was, for what it stood
for before. -/
theorem get?_putAll {ms new : Members κ α} (h : new.keys.Nodup) (k : κ) :
    (ms.putAll new).get? k = (new.get? k).or (ms.get? k) := by
  induction new generalizing ms with
  | nil => simp
  | cons m new ih =>
      rw [keys_cons, List.nodup_cons] at h
      rw [putAll_cons, ih h.2, get?_put, get?_cons]
      by_cases hk : m.1 = k
      · have hnone : get? new k = none := get?_eq_none_iff.2 (hk ▸ h.1)
        simp [hk, hnone]
      · simp [hk]

/-- Members without repetitions are written to a mapping that has none of them as they are. -/
theorem putAll_of_disjoint {ms new : Members κ α} (h : (ms.keys ++ new.keys).Nodup) :
    ms.putAll new = ms ++ new := by
  induction new generalizing ms with
  | nil => simp
  | cons m new ih =>
      have hm : m.1 ∉ ms.keys := fun hk =>
        (List.nodup_append.1 h).2.2 m.1 hk m.1 (by simp) rfl
      have hput : ms.put m.1 m.2 = ms ++ [m] := by
        clear h ih
        induction ms with
        | nil => rfl
        | cons n ms ihm =>
            rw [keys_cons, List.mem_cons, not_or] at hm
            have hn : n.1 ≠ m.1 := fun e => hm.1 e.symm
            simp [put, hn, ihm hm.2]
      rw [putAll_cons, hput, ih (by simpa [keys] using h)]
      simp

theorem mem_of_mem_ofList {new : Members κ α} {m : κ × α} (h : m ∈ ofList new) : m ∈ new :=
  (mem_of_mem_putAll h).resolve_left nofun

theorem nodup_keys_ofList (new : Members κ α) : (ofList new).keys.Nodup := by
  rw [ofList, keys_putAll]
  exact nodup_addAll List.nodup_nil _

theorem mem_keys_ofList {new : Members κ α} {k : κ} : k ∈ (ofList new).keys ↔ k ∈ new.keys := by
  rw [ofList, keys_putAll, mem_addAll]
  exact or_iff_right List.not_mem_nil

/-- A list without repetitions is a mapping already. -/
theorem ofList_eq_self {new : Members κ α} (h : new.keys.Nodup) : ofList new = new :=
  putAll_of_disjoint h

/-! ### Writes to new names only -/

@[simp] theorem fill_nil (ms : Members κ α) : ms.fill [] = ms := rfl

theorem fill_cons (ms : Members κ α) (m : κ × α) (new : Members κ α) :
    ms.fill (m :: new) = (if ms.has m.1 then ms else ms.put m.1 m.2).fill new := rfl

theorem keys_fill (ms new : Members κ α) : (ms.fill new).keys = addAll ms.keys new.keys := by
  induction new generalizing ms with
  | nil => rfl
  | cons m new ih =>
      rw [fill_cons, ih, keys_cons, addAll_cons]
      by_cases h : ms.has m.1 = true
      · rw [if_pos h, addNew_of_mem ((has_iff_mem_keys ms m.1).1 h)]
      · rw [if_neg h, keys_put_eq]

/-- After a fill a name stands for what it stood for, and if it stood for nothing, for what is
filled in. -/
theorem get?_fill (ms new : Members κ α) (k : κ) :
    (ms.fill new).get? k = (ms.get? k).or (new.get? k) := by
  induction new generalizing ms with
  | nil => simp
  | cons m new ih =>
      rw [fill_cons, ih, get?_cons]
      by_cases h : ms.has m.1 = true
      · rw [if_pos h]
        by_cases hk : m.1 = k
        · obtain ⟨a, ha⟩ := mem_keys_iff.1 ((has_iff_mem_keys ms m.1).1 h)
          rw [← hk, ha]
          rfl
        · rw [if_neg hk]
      · rw [if_neg h, get?_put]
        by_cases hk : m.1 = k
        · have hnone : ms.get? k = none :=
            get?_eq_none_iff.2 (hk ▸ mt (has_iff_mem_keys ms m.1).2 h)
          simp [hk, hnone]
        · simp [hk]

theorem mem_of_mem_fill {ms new : Members κ α} {m : κ × α} (h : m ∈ ms.fill new) :
    m ∈ ms ∨ m ∈ new := by
  induction new generalizing ms with
  | nil => exact Or.inl h
  | cons n new ih =>
      rw [fill_cons] at h
      rcases ih h with hm | hm
      · split at hm
        · exact Or.inl hm
        · rcases mem_of_mem_put hm with hm | hm
          · exact Or.inl hm
          · exact Or.inr (List.mem_cons.2 (Or.inl hm))
      · exact Or.inr (List.mem_cons_of_mem n hm)

/-- Filling in names that are there changes nothing. -/
theorem fill_eq_self {ms new : Members κ α} (h : ∀ k ∈ new.keys, k ∈ ms.keys) :
    ms.fill new = ms := by
  induction new with
  | nil => rfl
  | cons m new ih =>
      have hm : ms.has m.1 = true := (has_iff_mem_keys ms m.1).2 (h m.1 (by simp))
      rw [fill_cons, if_pos hm]
      exact ih fun k hk => h k (List.mem_cons_of_mem _ hk)

end Members

end ApiScribe
