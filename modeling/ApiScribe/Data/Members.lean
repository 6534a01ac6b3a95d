/-
**Members in order.**

A mapping whose order can be observed is a list of names with what they stand for.  Writing to a
name that is present changes what it stands for and moves nothing; a new name goes to the end.

Main definitions:

* `ApiScribe.Members` — names with what they stand for;
* `ApiScribe.Members.get?`, `ApiScribe.Members.put`, `ApiScribe.Members.keys` — look-up, writing,
  and the names in order;
* `ApiScribe.Members.ofList`, `ApiScribe.Members.fill` — writing all members of a list, and only
  those whose names are not yet present.

Main results:

* `ApiScribe.Members.get?_put` — the look-up after a write;
* `ApiScribe.Members.keys_put` — the names after a write: the same, or one more at the end.
-/

set_option autoImplicit false

namespace ApiScribe

/-- Names with what they stand for, in order. -/
abbrev Members (κ α : Type) := List (κ × α)

namespace Members

variable {κ α β : Type}

/-- The names in order. -/
def keys (ms : Members κ α) : List κ := ms.map (·.1)

/-- Applies `f` to what each name stands for. -/
def mapValues (f : α → β) (ms : Members κ α) : Members κ β := ms.map fun m => (m.1, f m.2)

@[simp] theorem keys_nil : keys ([] : Members κ α) = [] := rfl

@[simp] theorem keys_cons (m : κ × α) (ms : Members κ α) : keys (m :: ms) = m.1 :: keys ms := rfl

variable [DecidableEq κ]

/-- What a name stands for. -/
def get? : Members κ α → κ → Option α
  | [], _ => none
  | (k', a) :: rest, k => if k' = k then some a else get? rest k

/-- Whether a name is present. -/
def has (ms : Members κ α) (k : κ) : Bool := (ms.get? k).isSome

/-- Makes `k` stand for `a`, in place if it is present and else at the end. -/
def put : Members κ α → κ → α → Members κ α
  | [], k, a => [(k, a)]
  | (k', a') :: rest, k, a => if k' = k then (k', a) :: rest else (k', a') :: put rest k a

/-- Writes all members of `new` in turn. -/
def putAll (ms new : Members κ α) : Members κ α := new.foldl (fun acc m => acc.put m.1 m.2) ms

/-- The members of a list, of which a later one overrides an earlier one of its name. -/
def ofList (new : Members κ α) : Members κ α := putAll [] new

/-- Writes the members of `new` whose names are not present. -/
def fill (ms new : Members κ α) : Members κ α :=
  new.foldl (fun acc m => if acc.has m.1 then acc else acc.put m.1 m.2) ms

/-! ### Laws -/

@[simp] theorem get?_nil (k : κ) : get? ([] : Members κ α) k = none := rfl

/-- A name is present exactly if it is among the names. -/
theorem has_iff_mem_keys (ms : Members κ α) (k : κ) : ms.has k = true ↔ k ∈ ms.keys := by
  induction ms with
  | nil => simp [has]
  | cons m ms ih =>
    by_cases h : m.1 = k
    · simp [has, get?, h]
    · have h' : k ≠ m.1 := fun e => h e.symm
      simpa [has, get?, h, h'] using ih

/-- After a write the written name stands for what was written, and every other name for what it
stood for before. -/
theorem get?_put (ms : Members κ α) (k j : κ) (a : α) :
    (ms.put k a).get? j = if k = j then some a else ms.get? j := by
  induction ms with
  | nil => simp [put, get?]
  | cons m ms ih =>
    by_cases h : m.1 = k
    · subst h
      by_cases hj : m.1 = j <;> simp [put, get?, hj]
    · by_cases hj : m.1 = j
      · subst hj
        have h' : k ≠ m.1 := fun e => h e.symm
        simp [put, get?, h, h']
      · simp [put, get?, h, hj, ih]

/-- A write keeps the names and their order; a new name comes at the end. -/
theorem keys_put (ms : Members κ α) (k : κ) (a : α) :
    (ms.put k a).keys = if ms.has k then ms.keys else ms.keys ++ [k] := by
  induction ms with
  | nil => simp [put, has]
  | cons m ms ih =>
    by_cases h : m.1 = k
    · simp [put, has, get?, h]
    · have hh : has (m :: ms) k = has ms k := by simp [has, get?, h]
      rw [hh]
      simp only [put, h, if_false, keys_cons, ih]
      split <;> simp

end Members

end ApiScribe
