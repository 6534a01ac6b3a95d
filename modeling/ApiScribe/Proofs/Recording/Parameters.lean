/-
**The union of two lists of parameters.**

Parameters are added one after the other, so that what has been added already counts for those that
come later.  A parameter is known by its slot: its place and its name, or that it is the body.  So
the union has the parameters of the first list in their order, with the body joined if there is one on
both sides, and after them the first parameter of each slot that the first list leaves empty.

Main definitions:

* `ApiScribe.firstBody`, `ApiScribe.putBody`, `ApiScribe.OneBody` — the body among parameters;
* `ApiScribe.Parameter.slot`, `ApiScribe.newParameters` — what the second list adds;
* `ApiScribe.HoldsBoth` — parameters that hold those of two lists.

Main results:

* `ApiScribe.unionParameters_eq` — **the union of parameters in one equation**;
* `ApiScribe.holdsBoth_unionParameters` — it holds the parameters of both lists;
* `ApiScribe.unionParameters_of_slots` — where all slots are filled, only the body changes.
-/

import ApiScribe.Proofs.Recording.Union

set_option autoImplicit false

namespace ApiScribe

/-! ### The body among parameters -/

/-- The body, if a parameter is one. -/
def Parameter.body? : Parameter → Option BodyParameter
  | .value _ => none
  | .body b => some b

/-- The first body among parameters. -/
def firstBody (ps : List Parameter) : Option BodyParameter := ps.findSome? Parameter.body?

/-- One body for two. -/
def BodyParameter.union (p b : BodyParameter) : Except SchemaError BodyParameter :=
  (Schema.join p.schema b.schema).map fun joined => { p with schema := joined }

/-- Parameters with all bodies replaced by another one, if there is one. -/
def putBody (o : Option BodyParameter) (ps : List Parameter) : List Parameter :=
  ps.map fun p => p.body?.elim p fun b => .body (o.getD b)

/-- There is at most one body. -/
def OneBody (ps : List Parameter) : Prop := (ps.filter Parameter.isBody).length ≤ 1

instance (ps : List Parameter) : Decidable (OneBody ps) :=
  inferInstanceAs (Decidable ((ps.filter Parameter.isBody).length ≤ 1))

@[simp] theorem firstBody_nil : firstBody [] = none := rfl

@[simp] theorem firstBody_value (v : ValueParameter) (ps : List Parameter) :
    firstBody (.value v :: ps) = firstBody ps := rfl

@[simp] theorem firstBody_body (b : BodyParameter) (ps : List Parameter) :
    firstBody (.body b :: ps) = some b := rfl

theorem Operation.body?_eq_firstBody (op : Operation) : op.body? = firstBody op.parameters := by
  rw [body?, firstBody]
  congr 1
  funext p
  cases p <;> rfl

@[simp] theorem putBody_value (o : Option BodyParameter) (v : ValueParameter)
    (ps : List Parameter) : putBody o (.value v :: ps) = .value v :: putBody o ps := rfl

@[simp] theorem putBody_body (o : Option BodyParameter) (b : BodyParameter)
    (ps : List Parameter) : putBody o (.body b :: ps) = .body (o.getD b) :: putBody o ps := rfl

theorem oneBody_value {v : ValueParameter} {ps : List Parameter} :
    OneBody (.value v :: ps) ↔ OneBody ps := Iff.rfl

theorem filter_isBody_of_values {ps : List Parameter} (h : ∀ p ∈ ps, p.isBody = false) :
    ps.filter Parameter.isBody = [] :=
  List.filter_eq_nil_iff.2 fun p hp => by simp [h p hp]

theorem oneBody_of_values {ps : List Parameter} (h : ∀ p ∈ ps, p.isBody = false) : OneBody ps := by
  rw [OneBody, filter_isBody_of_values h]
  exact Nat.zero_le 1

/-- Beside the one body there are only values. -/
theorem oneBody_body {b : BodyParameter} {ps : List Parameter} :
    OneBody (.body b :: ps) ↔ ∀ p ∈ ps, p.isBody = false := by
  have hcons : (Parameter.body b :: ps).filter Parameter.isBody
      = .body b :: ps.filter Parameter.isBody := rfl
  rw [OneBody, hcons, List.length_cons]
  constructor
  · intro h
    have hnil := List.length_eq_zero_iff.1 (Nat.le_zero.1 (Nat.le_of_succ_le_succ h))
    exact fun p hp => by simpa using List.filter_eq_nil_iff.1 hnil p hp
  · intro h
    rw [filter_isBody_of_values h]
    exact Nat.le_refl 1

theorem OneBody.sublist {ps qs : List Parameter} (h : OneBody ps) (hsub : qs.Sublist ps) :
    OneBody qs := (hsub.filter _).length_le.trans h

theorem oneBody_append_values {ps qs : List Parameter} (h : OneBody ps)
    (hqs : ∀ q ∈ qs, q.isBody = false) : OneBody (ps ++ qs) := by
  rw [OneBody, List.filter_append, filter_isBody_of_values hqs, List.append_nil]
  exact h

theorem oneBody_values_append {ps qs : List Parameter} (hps : ∀ p ∈ ps, p.isBody = false)
    (h : OneBody qs) : OneBody (ps ++ qs) := by
  rw [OneBody, List.filter_append, filter_isBody_of_values hps, List.nil_append]
  exact h

theorem firstBody_append (ps qs : List Parameter) :
    firstBody (ps ++ qs) = (firstBody ps).or (firstBody qs) := List.findSome?_append

theorem firstBody_of_values {ps : List Parameter} (h : ∀ p ∈ ps, p.isBody = false) :
    firstBody ps = none := by
  refine List.findSome?_eq_none_iff.2 fun p hp => ?_
  cases p with
  | value v => rfl
  | body b => cases h _ hp

theorem putBody_of_values {ps : List Parameter} (h : ∀ p ∈ ps, p.isBody = false)
    (o : Option BodyParameter) : putBody o ps = ps := by
  refine List.map_congr_left (g := id) (fun p hp => ?_) |>.trans (List.map_id ps)
  cases p with
  | value v => rfl
  | body b => cases h _ hp

/-- Putting back the one body changes nothing. -/
theorem putBody_firstBody {ps : List Parameter} (h : OneBody ps) :
    putBody (firstBody ps) ps = ps := by
  induction ps with
  | nil => rfl
  | cons p ps ih =>
      cases p with
      | value v => rw [firstBody_value, putBody_value, ih (oneBody_value.1 h)]
      | body b =>
          rw [firstBody_body, putBody_body, putBody_of_values (oneBody_body.1 h)]
          rfl

/-- What it is to join a body into the one that there is, or to add it. -/
theorem unionBody_eq {ps : List Parameter} (h : OneBody ps) (b : BodyParameter) :
    unionBody b ps = (firstBody ps).elim (.ok (ps ++ [.body b])) fun p =>
      (p.union b).map fun q => putBody (some q) ps := by
  induction ps with
  | nil => rfl
  | cons p ps ih =>
      cases p with
      | value v =>
          rw [unionBody, ih (oneBody_value.1 h), firstBody_value]
          cases firstBody ps with
          | none => rfl
          | some p =>
              simp only [Option.elim_some]
              cases p.union b <;> rfl
      | body p =>
          have hvalues := oneBody_body.1 h
          have hany : ps.any Parameter.isBody = false := by
            rw [List.any_eq_false]
            exact fun q hq => by simp [hvalues q hq]
          rw [unionBody, hany, firstBody_body, Option.elim_some, BodyParameter.union]
          cases Schema.join p.schema b.schema with
          | error err => rfl
          | ok s =>
              simp [Except.map, putBody_of_values hvalues]

theorem isBody_eq_false_of_firstBody {ps : List Parameter} (h : firstBody ps = none) :
    ∀ p ∈ ps, p.isBody = false := by
  intro p hp
  have hbody := List.findSome?_eq_none_iff.1 h p hp
  cases p with
  | value v => rfl
  | body b => cases hbody

theorem firstBody_putBody {ps : List Parameter} {p : BodyParameter} (h : firstBody ps = some p)
    (q : BodyParameter) : firstBody (putBody (some q) ps) = some q := by
  induction ps with
  | nil => cases h
  | cons r ps ih =>
      cases r with
      | value v => exact ih h
      | body b => rfl

theorem oneBody_putBody {ps : List Parameter} (o : Option BodyParameter) :
    OneBody (putBody o ps) ↔ OneBody ps := by
  have hlength : ((putBody o ps).filter Parameter.isBody).length
      = (ps.filter Parameter.isBody).length := by
    induction ps with
    | nil => rfl
    | cons p ps ih =>
        cases p with
        | value v => exact ih
        | body b => exact congrArg Nat.succ ih
  rw [OneBody, hlength, OneBody]

theorem mem_value_putBody {ps : List Parameter} {o : Option BodyParameter} {v : ValueParameter} :
    .value v ∈ putBody o ps ↔ .value v ∈ ps := by
  induction ps with
  | nil => exact Iff.rfl
  | cons p ps ih => cases p <;> simp [ih]

/-! ### What the second list adds -/

/-- What tells a parameter from others: its place and its name, and nothing for the body. -/
def Parameter.slot : Parameter → Option (Place × String)
  | .value p => some (p.place, p.name)
  | .body _ => none

/-- The first parameter of each slot. -/
def firstOfEachSlot : List Parameter → List Parameter
  | [] => []
  | p :: rest => p :: (firstOfEachSlot rest).filter (·.slot ≠ p.slot)

/-- What the second side adds: its first parameter of each slot that the first side leaves empty. -/
def newParameters (first second : List Parameter) : List Parameter :=
  (firstOfEachSlot second).filter fun p => p.slot ∉ first.map Parameter.slot

theorem newParameters_cons_of_mem {first second : List Parameter} {p : Parameter}
    (h : p.slot ∈ first.map Parameter.slot) :
    newParameters first (p :: second) = newParameters first second := by
  rw [newParameters, firstOfEachSlot, List.filter_cons_of_neg (by simpa using h),
    List.filter_filter, newParameters]
  refine List.filter_congr fun q _ => ?_
  by_cases hq : q.slot = p.slot
  · simp [hq ▸ h]
  · simp [hq]

/-- What is added counts for the parameters that come later. -/
theorem newParameters_cons_of_not_mem {first second : List Parameter} {p : Parameter}
    (h : p.slot ∉ first.map Parameter.slot) :
    newParameters first (p :: second) = p :: newParameters (first ++ [p]) second := by
  rw [newParameters, firstOfEachSlot, List.filter_cons_of_pos (by simpa using h),
    List.filter_filter, newParameters]
  congr 1
  refine List.filter_congr fun q _ => ?_
  simp

theorem newParameters_congr {first first' second : List Parameter}
    (h : first'.map Parameter.slot = first.map Parameter.slot) :
    newParameters first' second = newParameters first second := by
  rw [newParameters, h, newParameters]

theorem any_fillsSlot_iff {ps : List Parameter} {v : ValueParameter} :
    ps.any (Parameter.fillsSlot v) = true ↔ (Parameter.value v).slot ∈ ps.map Parameter.slot := by
  rw [List.any_eq_true, List.mem_map]
  refine exists_congr fun p => and_congr_right fun _ => ?_
  cases p with
  | body b => simp [Parameter.fillsSlot, Parameter.slot]
  | value w => simp [Parameter.fillsSlot, ValueParameter.sameSlot, Parameter.slot]

theorem slot_body_mem_iff {ps : List Parameter} {b : BodyParameter} :
    (Parameter.body b).slot ∈ ps.map Parameter.slot ↔ firstBody ps ≠ none := by
  induction ps with
  | nil => simp
  | cons p ps ih =>
      cases p with
      | value v => simpa [Parameter.slot] using ih
      | body c => simp [Parameter.slot]

theorem map_slot_putBody (o : Option BodyParameter) (ps : List Parameter) :
    (putBody o ps).map Parameter.slot = ps.map Parameter.slot := by
  induction ps with
  | nil => rfl
  | cons p ps ih => cases p <;> simp [ih, Parameter.slot]

theorem putBody_append (o : Option BodyParameter) (ps qs : List Parameter) :
    putBody o (ps ++ qs) = putBody o ps ++ putBody o qs := List.map_append

theorem putBody_putBody {ps : List Parameter} (o : Option BodyParameter) (b : BodyParameter) :
    putBody (some b) (putBody o ps) = putBody (some b) ps := by
  induction ps with
  | nil => rfl
  | cons p ps ih => cases p <;> simp [ih]

theorem newParameters_sublist {first second : List Parameter} :
    (newParameters first second).Sublist second := by
  refine List.filter_sublist.trans ?_
  induction second with
  | nil => exact List.Sublist.refl _
  | cons p second ih => exact (List.filter_sublist.trans ih).cons_cons p

theorem newParameters_eq_nil {first second : List Parameter}
    (h : ∀ p ∈ second, p.slot ∈ first.map Parameter.slot) : newParameters first second = [] := by
  refine List.eq_nil_iff_forall_not_mem.2 fun p hp => ?_
  have hslot := (List.mem_filter.1 hp).2
  simp [h p (newParameters_sublist.subset hp)] at hslot

/-- After what is added, no slot of the second list is empty. -/
theorem slot_mem_append_newParameters {first second : List Parameter} {p : Parameter}
    (h : p ∈ second) : p.slot ∈ (first ++ newParameters first second).map Parameter.slot := by
  induction second generalizing first with
  | nil => cases h
  | cons q second ih =>
      by_cases hq : q.slot ∈ first.map Parameter.slot
      · rw [newParameters_cons_of_mem hq]
        rcases List.mem_cons.1 h with rfl | h
        · exact List.map_append ▸ List.mem_append_left _ hq
        · exact ih h
      · rw [newParameters_cons_of_not_mem hq, List.append_cons]
        rcases List.mem_cons.1 h with rfl | h
        · exact List.mem_map_of_mem (by simp)
        · exact ih h

/-- The body is added if there is none. -/
theorem firstBody_newParameters {first second : List Parameter} (h : firstBody first = none) :
    firstBody (newParameters first second) = firstBody second := by
  induction second generalizing first with
  | nil => rfl
  | cons p second ih =>
      cases p with
      | body b =>
          rw [newParameters_cons_of_not_mem (mt slot_body_mem_iff.1 (not_not_intro h))]
          rfl
      | value v =>
          by_cases hv : (Parameter.value v).slot ∈ first.map Parameter.slot
          · rw [newParameters_cons_of_mem hv]
            exact ih h
          · rw [newParameters_cons_of_not_mem hv]
            exact ih (by rw [firstBody_append, h]; rfl)

/-- No body is added if there is one. -/
theorem isBody_newParameters {first second : List Parameter} (h : firstBody first ≠ none) :
    ∀ p ∈ newParameters first second, p.isBody = false := by
  intro p hp
  cases p with
  | value v => rfl
  | body b =>
      have hslot := (List.mem_filter.1 hp).2
      simp [slot_body_mem_iff.2 h] at hslot

/-- **The union of parameters**: those of the first list, with the union of the two bodies in place of
the body, and those that the second list adds. -/
theorem unionParameters_eq {first second : List Parameter} (h₁ : OneBody first)
    (h₂ : OneBody second) :
    unionParameters first second
      = (unionOption BodyParameter.union (firstBody first) (firstBody second)).map fun o =>
          putBody o first ++ newParameters first second := by
  induction second generalizing first with
  | nil =>
      rw [firstBody_nil, unionOption_none_right]
      simp [unionParameters, Except.map, putBody_firstBody h₁, newParameters, firstOfEachSlot]
  | cons p second ih =>
      rw [unionParameters]
      cases p with
      | value v =>
          have h₂ := oneBody_value.1 h₂
          have hv : ∀ q ∈ [Parameter.value v], q.isBody = false := by simp [Parameter.isBody]
          rw [unionParameter, firstBody_value]
          by_cases hslot : first.any (Parameter.fillsSlot v) = true
          · rw [if_pos hslot]
            simp only [ih h₁ h₂, newParameters_cons_of_mem (any_fillsSlot_iff.1 hslot)]
          · rw [if_neg hslot]
            simp only [ih (oneBody_append_values h₁ hv) h₂, firstBody_append, firstBody_of_values hv,
              Option.or_none, putBody_append, putBody_of_values hv, List.append_assoc,
              newParameters_cons_of_not_mem (mt any_fillsSlot_iff.2 hslot), List.singleton_append]
      | body b =>
          -- no other body comes later
          have hvalues := oneBody_body.1 h₂
          have hnone := firstBody_of_values hvalues
          have h₂ := oneBody_of_values hvalues
          rw [unionParameter, unionBody_eq h₁, firstBody_body]
          cases hp : firstBody first with
          | none =>
              have hfirst := isBody_eq_false_of_firstBody hp
              have hone : OneBody (first ++ [.body b]) :=
                oneBody_values_append hfirst (oneBody_body.2 (by simp))
              have hnew : newParameters first (.body b :: second)
                  = .body b :: newParameters (first ++ [.body b]) second :=
                newParameters_cons_of_not_mem (mt slot_body_mem_iff.1 (not_not_intro hp))
              simp only [Option.elim_none, ih hone h₂, firstBody_append, hp, hnone, firstBody_body,
                Option.none_or, unionOption_none_right, unionOption_none_left,
                Except.map, putBody_append, putBody_of_values hfirst, hnew, List.append_assoc]
              rfl
          | some p =>
              have hnew : newParameters first (.body b :: second) = newParameters first second :=
                newParameters_cons_of_mem (slot_body_mem_iff.2 (by simp [hp]))
              rw [Option.elim_some, hnew, unionOption]
              cases p.union b with
              | error e => rfl
              | ok q =>
                  simp only [Except.map, ih ((oneBody_putBody _).2 h₁) h₂, hnone,
                    unionOption_none_right, firstBody_putBody hp, putBody_putBody,
                    newParameters_congr (map_slot_putBody _ _)]

/-! ### What the union holds -/

/-- Parameters hold those of two lists: at most one body, which is that of both, no slot left empty,
and no values but theirs. -/
structure HoldsBoth (first second ps : List Parameter) : Prop where
  /-- There is at most one body. -/
  oneBody : OneBody ps
  /-- It is the body of both sides. -/
  body : unionOption BodyParameter.union (firstBody first) (firstBody second) = .ok (firstBody ps)
  /-- The slots of the first list are filled. -/
  keeps : ∀ v, first.any (Parameter.fillsSlot v) = true → ps.any (Parameter.fillsSlot v) = true
  /-- The slots of the second list are filled. -/
  slots : ∀ v, .value v ∈ second → ps.any (Parameter.fillsSlot v) = true
  /-- There are no other values. -/
  values : ∀ v, .value v ∈ ps → .value v ∈ first ∨ .value v ∈ second

/-- **A union of parameters holds those of both sides.** -/
theorem holdsBoth_unionParameters {first second ps : List Parameter} (h₁ : OneBody first)
    (h₂ : OneBody second) (h : unionParameters first second = .ok ps) :
    HoldsBoth first second ps := by
  rw [unionParameters_eq h₁ h₂] at h
  obtain ⟨o, ho, rfl⟩ := map_eq_ok_iff.1 h
  have hslots : (putBody o first ++ newParameters first second).map Parameter.slot
      = first.map Parameter.slot ++ (newParameters first second).map Parameter.slot := by
    rw [List.map_append, map_slot_putBody]
  have hbodies : OneBody (putBody o first ++ newParameters first second)
      ∧ firstBody (putBody o first ++ newParameters first second) = o := by
    rw [firstBody_append]
    cases hp : firstBody first with
    | none =>
        -- the body comes from the second list
        have hfirst := isBody_eq_false_of_firstBody hp
        rw [hp] at ho
        cases ho
        rw [putBody_of_values hfirst, hp, Option.none_or, firstBody_newParameters hp]
        exact ⟨oneBody_values_append hfirst (h₂.sublist newParameters_sublist), rfl⟩
    | some p =>
        have hsome : firstBody first ≠ none := by simp [hp]
        cases o with
        | none => exact absurd (eq_none_of_unionOption ho).1 hsome
        | some q =>
            rw [firstBody_putBody hp, Option.some_or]
            exact ⟨oneBody_append_values ((oneBody_putBody _).2 h₁) (isBody_newParameters hsome), rfl⟩
  refine ⟨hbodies.1, hbodies.2.symm ▸ ho, fun v hv => ?_, fun v hv => ?_, fun v hv => ?_⟩
  · rw [any_fillsSlot_iff, hslots]
    exact List.mem_append_left _ (any_fillsSlot_iff.1 hv)
  · rw [any_fillsSlot_iff, hslots, ← List.map_append]
    exact slot_mem_append_newParameters hv
  · rcases List.mem_append.1 hv with hv | hv
    · exact Or.inl (mem_value_putBody.1 hv)
    · exact Or.inr (newParameters_sublist.subset hv)

/-- A union with parameters whose slots are filled changes nothing but the body. -/
theorem unionParameters_of_slots {ps second : List Parameter} (h₁ : OneBody ps)
    (h₂ : OneBody second)
    (hslots : ∀ v, .value v ∈ second → ps.any (Parameter.fillsSlot v) = true)
    {o : Option BodyParameter}
    (hbody : unionOption BodyParameter.union (firstBody ps) (firstBody second) = .ok o)
    (hsome : firstBody ps = none → firstBody second = none) :
    unionParameters ps second = .ok (putBody o ps) := by
  have hfilled : ∀ p ∈ second, p.slot ∈ ps.map Parameter.slot := by
    intro p hp
    cases p with
    | value v => exact any_fillsSlot_iff.1 (hslots v hp)
    | body b =>
        refine slot_body_mem_iff.2 fun hnone => ?_
        exact nomatch isBody_eq_false_of_firstBody (hsome hnone) _ hp
  rw [unionParameters_eq h₁ h₂, hbody, newParameters_eq_nil hfilled]
  simp only [Except.map, List.append_nil]

end ApiScribe
