/-
**Joining two schemas.**

The first schema is the one recorded so far, the second one that of the newest observation.  Joining
never widens a type: the two must agree, at the root and at every property that both require.  A
property stays required only if both sides require it; one that is not required by both keeps the
schema under which it was first seen.

Main definition: `ApiScribe.Schema.join`.
-/

import ApiScribe.Schema.Error

set_option autoImplicit false

namespace ApiScribe

/-- The names that both sides require, in the order of the first. -/
def jointRequired (first second : List String) : List String := first.filter second.contains

/-- The free members of both sides; a name on both sides keeps its value of the first. -/
def joinExtras (first second : Extras) : Extras := second.putAll first

/-- The outcomes of joining the properties named in `names`, in the order of `names`, given the
outcomes under the names that are properties on both sides. -/
def collectJoint (first second : Members String Schema)
    (outcomes : Members String (Except SchemaError Schema)) :
    List String → Except SchemaError (Members String Schema)
  | [] => .ok []
  | name :: rest =>
    if !first.has name then .error (.missingRequired name .first first)
    else
      match outcomes.get? name with
      | none => .error (.missingRequired name .second second)
      | some (.error e) => .error e
      | some (.ok s) => (collectJoint first second outcomes rest).map ((name, s) :: ·)

mutual

/-- One schema for the values of both. -/
def Schema.join : Schema → Schema → Except SchemaError Schema
  | .object ps req ex, .object ps' req' ex' =>
    let joint := jointRequired req req'
    (collectJoint ps ps' (joinShared joint ps ps') joint).map fun joined =>
      .object ((Members.fill ps ps').putAll joined) joint (joinExtras ex ex')
  | .array none ex, .array items' ex' => .ok (.array items' (joinExtras ex ex'))
  | .array (some s) ex, .array none ex' => .ok (.array (some s) (joinExtras ex ex'))
  | .array (some s) ex, .array (some s') ex' =>
    (Schema.join s s').map fun items => .array (some items) (joinExtras ex ex')
  | .scalar kind ex, .scalar kind' ex' =>
    if kind = kind' then .ok (.scalar kind (joinExtras ex ex'))
    else .error (.typeMismatch (.scalar kind ex) (.scalar kind' ex'))
  | first, second => .error (.typeMismatch first second)

/-- The outcomes of joining the properties named in `names` that both sides have. -/
def joinShared (names : List String) :
    List (String × Schema) → Members String Schema → Members String (Except SchemaError Schema)
  | [], _ => []
  | (name, s) :: rest, ps' =>
    match names.contains name, ps'.get? name with
    | true, some s' => (name, Schema.join s s') :: joinShared names rest ps'
    | _, _ => joinShared names rest ps'

end

end ApiScribe
