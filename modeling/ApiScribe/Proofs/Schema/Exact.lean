/-
**What the schema of a sample says, exactly.**

Building the schema of a sample looks at few of its positions: at the sample itself, at the members
of a mapping that are not null, and at the first item of a sequence.  A sample has no schema exactly
if one of these positions holds a value of a kind that no schema describes.  Otherwise its schema
says at each of them what stands there: the names of a mapping in their order, each of them required,
and the kind of an atom.  A schema that does so is the only one; so two samples that look alike where
they are looked at have the same schema, whatever else is in them.

Main definitions:

* `ApiScribe.Atom.HasKind` — the kind of an atom, in terms of the number that it stands for;
* `ApiScribe.Value.visited?` — the positions that are looked at, and what stands there;
* `ApiScribe.Value.VisitsUndescribed` — a value that no schema describes stands at one of them;
* `ApiScribe.Value.LooksLike` — two values look alike at all of them;
* `ApiScribe.Schema.Portrays` — a schema says of a sample what stands at its positions.

Main results:

* `ApiScribe.Atom.scalarKind?_eq_some_iff` — the kind of an atom;
* `ApiScribe.Schema.Portrays.unique` — a schema that portrays a sample is determined by what the
  sample looks like;
* `ApiScribe.Schema.ofSample_exact` — **which samples have a schema, and which schema it is**.
-/

import ApiScribe.Proofs.Data.Json
import ApiScribe.Proofs.Number.Whole
import ApiScribe.Proofs.Schema.Cover
import ApiScribe.Proofs.Schema.Run

set_option autoImplicit false

namespace ApiScribe

/-! ### Kinds of atoms -/

namespace Atom

/-- The rational that a number stands for.  Truth values are no numbers, and neither the infinities
nor not-a-number stand for a rational. -/
def quantity? : Atom → Option ℚ
  | .int n => some n
  | .float x => x.value?
  | _ => none

/-- Whether an atom is a number. -/
def IsNumber : Atom → Prop
  | .int _ | .float _ => True
  | _ => False

/-- Whether an atom stands for a whole number that every reader represents exactly. -/
def IsSafeWhole (a : Atom) : Prop := ∃ n : Int, a.quantity? = some (n : ℚ) ∧ |n| ≤ 2 ^ 53 - 1

/-- The kinds of the atoms that have one. -/
inductive HasKind : Atom → ScalarKind → Prop
  /-- A truth value. -/
  | boolean (b : Bool) : HasKind (.bool b) .boolean
  /-- A text. -/
  | string (s : String) : HasKind (.text s) .string
  /-- A number that is whole and not too large. -/
  | integer {a : Atom} (isNumber : a.IsNumber) (whole : a.IsSafeWhole) : HasKind a .integer
  /-- Any other number. -/
  | number {a : Atom} (isNumber : a.IsNumber) (other : ¬a.IsSafeWhole) : HasKind a .number

end Atom

theorem isSafeInteger_iff {n : Int} : isSafeInteger n = true ↔ |n| ≤ 2 ^ 53 - 1 := by
  have hmax : maxSafeInteger = 2 ^ 53 - 1 := rfl
  rw [isSafeInteger, decide_eq_true_iff, hmax, Int.abs_eq_natAbs]
  omega

namespace Atom

variable {a : Atom} {kind : ScalarKind}

/-- The kind of a number is that of the whole number that it stands for, if there is one. -/
theorem exists_scalarKind? (h : a.IsNumber) :
    ∃ whole, a.scalarKind? = some (numberKind whole)
      ∧ ∀ n : Int, whole = some n ↔ a.quantity? = some (n : ℚ) := by
  cases a with
  | int n =>
      refine ⟨some n, rfl, fun m => ?_⟩
      rw [quantity?, Option.some.injEq, Option.some.injEq, Int.cast_inj]
  | float x => exact ⟨x.toInt?, rfl, fun n => Binary64.toInt?_eq_some_iff⟩
  | null => cases h
  | bool b => cases h
  | text s => cases h
  | bytes bs => cases h
  | date d => cases h
  | moment t => cases h

/-- The kind of a number. -/
theorem scalarKind?_of_isNumber (h : a.IsNumber) :
    (a.IsSafeWhole → a.scalarKind? = some .integer)
      ∧ (¬a.IsSafeWhole → a.scalarKind? = some .number) := by
  obtain ⟨whole, hkind, hwhole⟩ := exists_scalarKind? h
  rw [hkind]
  constructor
  · rintro ⟨n, hn, hsafe⟩
    rw [(hwhole n).2 hn, numberKind, if_pos (isSafeInteger_iff.2 hsafe)]
  · intro hother
    cases whole with
    | none => rfl
    | some n =>
        have hsafe : ¬isSafeInteger n = true := fun hs =>
          hother ⟨n, (hwhole n).1 rfl, isSafeInteger_iff.1 hs⟩
        rw [numberKind, if_neg hsafe]

/-- **The kind of an atom**, in terms of the number that it stands for. -/
theorem scalarKind?_eq_some_iff : a.scalarKind? = some kind ↔ a.HasKind kind := by
  constructor
  · intro h
    have ofNumber : a.IsNumber → a.HasKind kind := by
      intro hnumber
      obtain ⟨hwhole, hother⟩ := scalarKind?_of_isNumber hnumber
      by_cases hsafe : a.IsSafeWhole
      · cases (hwhole hsafe).symm.trans h
        exact .integer hnumber hsafe
      · cases (hother hsafe).symm.trans h
        exact .number hnumber hsafe
    cases a with
    | int n => exact ofNumber trivial
    | float x => exact ofNumber trivial
    | bool b =>
        cases h
        exact .boolean b
    | text s =>
        cases h
        exact .string s
    | null => cases h
    | bytes bs => cases h
    | date d => cases h
    | moment t => cases h
  · intro h
    cases h with
    | boolean b => rfl
    | string s => rfl
    | integer hnumber hsafe => exact (scalarKind?_of_isNumber hnumber).1 hsafe
    | number hnumber hother => exact (scalarKind?_of_isNumber hnumber).2 hother

end Atom

/-! ### Positions -/

namespace Members

/-- The members of a mapping that are not null. -/
def nonNull (ms : Members Atom Value) : Members Atom Value := ms.filter fun m => !m.2.isNull

theorem mem_nonNull {ms : Members Atom Value} {m : Atom × Value} :
    m ∈ ms.nonNull ↔ m ∈ ms ∧ m.2.isNull = false := by
  rw [nonNull, List.mem_filter, Bool.not_eq_true']

theorem nodup_keys_nonNull {ms : Members Atom Value} (h : ms.keys.Nodup) : ms.nonNull.keys.Nodup :=
  h.sublist (List.filter_sublist.map _)

end Members

namespace Value

/-- One step down to a position that is looked at. -/
inductive Step where
  /-- To a member of a mapping. -/
  | member (name : String)
  /-- To the first item of a sequence. -/
  | first
  deriving DecidableEq, Repr

/-- The value one step down: a member that is not null, or the first item. -/
def below? : Value → Step → Option Value
  | .map ms, .member name => (Members.nonNull ms).get? (.text name)
  | .list (v :: _), .first => some v
  | .tuple (v :: _), .first => some v
  | _, _ => none

/-- The value at a position that is looked at. -/
def visited? (v : Value) : List Step → Option Value
  | [] => some v
  | d :: path => (v.below? d).bind fun w => w.visited? path

/-- Whether a schema describes values of this kind. -/
def IsDescribed : Value → Prop
  | .map _ | .list _ | .tuple _ => True
  | .atom (.bool _) | .atom (.int _) | .atom (.float _) | .atom (.text _) => True
  | _ => False

/-- A value of a kind that no schema describes stands at a position that is looked at. -/
def VisitsUndescribed (v : Value) : Prop := ∃ path w, v.visited? path = some w ∧ ¬w.IsDescribed

/-- The mappings at the positions that are looked at have distinct names, and those of the members
that are not null are texts. -/
def Named (v : Value) : Prop :=
  ∀ path ms, v.visited? path = some (.map ms) →
    (Members.keys ms).Nodup ∧ ∀ a w, (a, w) ∈ ms → w.isNull = false → ∃ k, a = .text k

/-- What is seen of a value without going down. -/
inductive Face where
  /-- An atom. -/
  | atom (a : Atom)
  /-- A sequence of either kind. -/
  | sequence
  /-- A collection. -/
  | set (items : List Atom)
  /-- A mapping, of which the names are seen whose members are not null. -/
  | mapping (names : List Atom)
  deriving DecidableEq, Repr

/-- What is seen of a value without going down. -/
def face : Value → Face
  | .atom a => .atom a
  | .list _ | .tuple _ => .sequence
  | .set xs => .set xs
  | .map ms => .mapping (Members.nonNull ms).keys

/-- Two values have the same positions that are looked at, and look alike at each of them. -/
def LooksLike (v w : Value) : Prop := ∀ path, (v.visited? path).map face = (w.visited? path).map face

section

variable {v w : Value} {d : Step}

theorem below?_first {ws : List Value} (h : v.items? = some (w :: ws)) : v.below? .first = some w := by
  rcases items?_eq_some_iff.1 h with rfl | rfl
  · rfl
  · rfl

/-- What stands one step down. -/
theorem below?_eq_some_iff : v.below? d = some w ↔
    (∃ ms k, v = .map ms ∧ d = .member k ∧ (Members.nonNull ms).get? (.text k) = some w)
      ∨ (∃ ws, v.items? = some (w :: ws) ∧ d = .first) := by
  constructor
  · intro h
    unfold below? at h
    split at h
    · exact Or.inl ⟨_, _, rfl, rfl, h⟩
    · cases h
      exact Or.inr ⟨_, rfl, rfl⟩
    · cases h
      exact Or.inr ⟨_, rfl, rfl⟩
    · cases h
  · rintro (⟨ms, k, rfl, rfl, h⟩ | ⟨ws, h, rfl⟩)
    · exact h
    · exact below?_first h

/-- The atoms that schemas describe are those with a kind. -/
theorem isDescribed_atom_iff {a : Atom} :
    (Value.atom a).IsDescribed ↔ ∃ kind, a.scalarKind? = some kind := by
  cases a <;> simp [IsDescribed, Atom.scalarKind?]

theorem visited?_cons (h : v.below? d = some w) (path : List Step) :
    v.visited? (d :: path) = w.visited? path := by
  rw [visited?, h, Option.bind_some]

/-- A member that is not null stands one step down. -/
theorem below?_member {ms : List (Atom × Value)} (hn : (Members.keys ms).Nodup) {k : String}
    (hm : (.text k, v) ∈ ms) (hv : v.isNull = false) : (map ms).below? (.member k) = some v :=
  Members.get?_of_mem (Members.nodup_keys_nonNull hn) (Members.mem_nonNull.2 ⟨hm, hv⟩)

theorem Named.below (h : v.Named) (hw : v.below? d = some w) : w.Named := by
  intro path ms hms
  exact h (d :: path) ms (by rwa [visited?_cons hw])

theorem VisitsUndescribed.of_below (hw : v.below? d = some w) (h : w.VisitsUndescribed) :
    v.VisitsUndescribed := by
  obtain ⟨path, u, hu, hnot⟩ := h
  exact ⟨d :: path, u, by rwa [visited?_cons hw], hnot⟩

theorem LooksLike.symm (h : v.LooksLike w) : w.LooksLike v := fun path => (h path).symm

theorem LooksLike.face_eq (h : v.LooksLike w) : v.face = w.face := Option.some.inj (h [])

/-- Values that look alike have the same steps down, to values that look alike. -/
theorem LooksLike.below (h : v.LooksLike w) {v' : Value} (hv : v.below? d = some v') :
    ∃ w', w.below? d = some w' ∧ v'.LooksLike w' := by
  have hd := h [d]
  rw [visited?_cons hv] at hd
  cases hw : w.below? d with
  | none => simp [visited?, hw] at hd
  | some w' =>
      refine ⟨w', rfl, fun path => ?_⟩
      have hpath := h (d :: path)
      rwa [visited?_cons hv, visited?_cons hw] at hpath

theorem exists_items_of_face_eq (h : v.face = .sequence) : ∃ xs, v.items? = some xs := by
  cases v with
  | list xs => exact ⟨xs, rfl⟩
  | tuple xs => exact ⟨xs, rfl⟩
  | atom a => cases h
  | set xs => cases h
  | map ms => cases h

theorem face_of_items {xs : List Value} (h : v.items? = some xs) : v.face = .sequence := by
  rcases items?_eq_some_iff.1 h with rfl | rfl
  · rfl
  · rfl

theorem LooksLike.items_cons (h : v.LooksLike w) {x : Value} {xs : List Value}
    (hv : v.items? = some (x :: xs)) :
    ∃ y ys, w.items? = some (y :: ys) ∧ x.LooksLike y := by
  obtain ⟨y, hy, hlike⟩ := h.below (below?_first hv)
  rcases below?_eq_some_iff.1 hy with ⟨_, _, _, hstep, _⟩ | ⟨ys, hw, -⟩
  · cases hstep
  · exact ⟨y, ys, hw, hlike⟩

theorem LooksLike.items_nil (h : v.LooksLike w) (hv : v.items? = some []) : w.items? = some [] := by
  obtain ⟨ys, hw⟩ := exists_items_of_face_eq (h.face_eq ▸ face_of_items hv)
  cases ys with
  | nil => exact hw
  | cons y ys =>
      obtain ⟨_, _, hcons, -⟩ := h.symm.items_cons hw
      cases hv.symm.trans hcons

/-- Whether a schema describes a value is seen without going down. -/
theorem isDescribed_iff_of_face_eq (h : v.face = w.face) : v.IsDescribed ↔ w.IsDescribed := by
  cases v <;> cases w <;> simp_all [face, IsDescribed]

theorem Keyed.named (h : v.Keyed) : v.Named := by
  intro path ms hms
  induction path generalizing v with
  | nil =>
      cases hms
      cases h with
      | sequence items => cases items
      | map nodup texts _ => exact ⟨nodup, texts⟩
  | cons d path ih =>
      obtain ⟨w, hw, hrest⟩ := Option.bind_eq_some_iff.1 hms
      refine ih ?_ hrest
      rcases below?_eq_some_iff.1 hw with ⟨ns, k, rfl, rfl, hget⟩ | ⟨ws, items_eq, rfl⟩
      · obtain ⟨hm, hnull⟩ := Members.mem_nonNull.1 (Members.mem_of_get? hget)
        exact (h.member hm hnull).1
      · exact h.first items_eq

/-- Where all that is looked at is described, values with distinct texts for names are keyed. -/
theorem Named.keyed (h : v.Named) (hv : ¬v.VisitsUndescribed) : v.Keyed := by
  induction v using Value.inductItems with
  | atom a => exact .atom a
  | sequence v xs hxs ih =>
      refine .sequence hxs ?_
      rintro w ws rfl
      have hw := below?_first hxs
      exact ih w List.mem_cons_self (h.below hw) fun hvisits => hv (.of_below hw hvisits)
  | set xs => exact absurd ⟨[], .set xs, rfl, id⟩ hv
  | map ms ih =>
      obtain ⟨nodup, texts⟩ := h [] ms rfl
      refine .map nodup texts fun a w hm hw => ?_
      obtain ⟨k, rfl⟩ := texts a w hm hw
      have hbelow := below?_member nodup hm hw
      exact ih (.text k) w hm (h.below hbelow) fun hvisits => hv (.of_below hbelow hvisits)

theorem LooksLike.visitsUndescribed (h : v.LooksLike w) (hw : w.VisitsUndescribed) :
    v.VisitsUndescribed := by
  obtain ⟨path, u, hu, hnot⟩ := hw
  have hpath := h path
  rw [hu, Option.map_some, Option.map_eq_some_iff] at hpath
  obtain ⟨u', hu', hface⟩ := hpath
  exact ⟨path, u', hu', fun hd => hnot ((isDescribed_iff_of_face_eq hface).1 hd)⟩

end

end Value

namespace Schema

/-! ### Schemas and what they say -/

/-- A schema says of a sample what stands at the positions that are looked at, and nothing else. -/
inductive Portrays : Schema → Value → Prop
  /-- An object: its properties are the members that are not null, in their order, and it requires
  them all. -/
  | object {ps : List (String × Schema)} {ms : List (Atom × Value)}
      (names : (Members.keys ps).map .text = (Members.nonNull ms).keys)
      (each : ∀ k s v, Members.get? ps k = some s → (Members.nonNull ms).get? (.text k) = some v →
        Portrays s v) :
      Portrays (.object ps (Members.keys ps) []) (.map ms)
  /-- An array without items. -/
  | empty {v : Value} (items_eq : v.items? = some []) : Portrays (.array none []) v
  /-- An array with items. -/
  | array {s : Schema} {v w : Value} {ws : List Value} (items_eq : v.items? = some (w :: ws))
      (first : Portrays s w) : Portrays (.array (some s) []) v
  /-- A scalar. -/
  | scalar {kind : ScalarKind} {a : Atom} (hasKind : a.HasKind kind) :
      Portrays (.scalar kind []) (.atom a)

section

variable {s t : Schema} {v w : Value}

/-- **A schema that portrays a sample is determined by what the sample looks like.** -/
theorem Portrays.unique (hs : s.Portrays v) (ht : t.Portrays w) (named : v.Named)
    (h : v.LooksLike w) : s = t := by
  induction hs generalizing t w with
  | @object ps ms names each ih =>
      cases ht with
      | @object ps' ms' names' each' =>
          have hface : (Members.nonNull ms).keys = (Members.nonNull ms').keys :=
            Value.Face.mapping.inj h.face_eq
          have hkeys : Members.keys ps = Members.keys ps' := by
            rw [hface, ← names'] at names
            exact (List.map_inj_right fun _ _ => Atom.text.inj).1 names
          have hnodup : (Members.keys ps).Nodup := by
            have hnonNull := Members.nodup_keys_nonNull (named [] ms rfl).1
            rw [← names, List.Nodup, List.pairwise_map] at hnonNull
            exact hnonNull.imp fun hne he => hne (congrArg Atom.text he)
          have hps : ps = ps' := by
            refine Members.ext_keys hnodup hkeys fun k hk => ?_
            obtain ⟨p, hp⟩ := Members.mem_keys_iff.1 hk
            obtain ⟨p', hp'⟩ := Members.mem_keys_iff.1 (hkeys ▸ hk)
            have hmem : Atom.text k ∈ (Members.nonNull ms).keys := names ▸ List.mem_map_of_mem hk
            obtain ⟨x, hx⟩ := Members.mem_keys_iff.1 hmem
            have hbelow : (Value.map ms).below? (.member k) = some x := hx
            obtain ⟨y, hy, hlike⟩ := h.below hbelow
            rw [hp, hp', ih k p x hp hx (each' k p' y hp' hy) (named.below hbelow) hlike]
          rw [hps]
      | empty items_eq => cases h.symm.items_nil items_eq
      | array items_eq _ =>
          obtain ⟨_, _, hitems, -⟩ := h.symm.items_cons items_eq
          cases hitems
      | scalar _ => cases h.face_eq
  | empty items_eq =>
      have hitems := h.items_nil items_eq
      cases ht with
      | object _ _ => cases hitems
      | empty _ => rfl
      | array items_eq' _ => cases hitems.symm.trans items_eq'
      | scalar _ => cases hitems
  | array items_eq first ih =>
      obtain ⟨y, ys, hitems, hlike⟩ := h.items_cons items_eq
      cases ht with
      | object _ _ => cases hitems
      | empty items_eq' => cases hitems.symm.trans items_eq'
      | array items_eq' first' =>
          cases hitems.symm.trans items_eq'
          rw [ih first' (named.below (Value.below?_first items_eq)) hlike]
      | scalar _ => cases hitems
  | scalar hasKind =>
      cases ht with
      | object _ _ => cases h.face_eq
      | empty items_eq => cases h.symm.items_nil items_eq
      | array items_eq _ =>
          obtain ⟨_, _, hitems, -⟩ := h.symm.items_cons items_eq
          cases hitems
      | scalar hasKind' =>
          cases h.face_eq
          rw [Option.some.inj ((Atom.scalarKind?_eq_some_iff.2 hasKind).symm.trans
            (Atom.scalarKind?_eq_some_iff.2 hasKind'))]

end

/-! ### The schema of a sample -/

/-- The members of a mapping that are not null have distinct texts for names, and these are the
properties of its schema. -/
theorem exists_named_nonNull {ms : List (Atom × Value)} (nodup : (Members.keys ms).Nodup)
    (texts : ∀ a w, (a, w) ∈ ms → w.isNull = false → ∃ k, a = .text k) :
    ∃ ns : Members String Value, Members.nonNull ms = ns.named
      ∧ ∀ s, ofSample (.map ms) = .ok s → ∃ ps : Members String Schema,
        ns.Related (fun v s => ofSample v = .ok s) ps ∧ s = .object ps ps.keys [] := by
  have hnamed : ∀ m ∈ Members.nonNull ms, ∃ k, m.1 = .text k := by
    intro m hm
    obtain ⟨hm, hv⟩ := Members.mem_nonNull.1 hm
    exact texts m.1 m.2 hm hv
  obtain ⟨ns, hns⟩ := Members.exists_named hnamed
  refine ⟨ns, hns, fun s hs => ?_⟩
  obtain ⟨ps, hps, rfl⟩ := ofSample_map_eq_ok_iff.1 hs
  have hrelated : ns.Related (fun v s => ofSample v = .ok s) ps := by
    have hps : List.Forall₂ MakesProperty ns.named ps := hns ▸ hps
    rw [Members.named, List.forall₂_map_left_iff] at hps
    exact hps.imp fun m p hm => ⟨Checked.valid.inj hm.1, hm.2⟩
  have hnodup : ns.keys.Nodup := by
    rw [← Members.nodup_keys_named, ← hns]
    exact Members.nodup_keys_nonNull nodup
  have hself : Members.ofList ps = ps := Members.ofList_eq_self (hrelated.keys_eq ▸ hnodup)
  exact ⟨ps, hrelated, by rw [hself]⟩

section

variable {v w : Value} {s : Schema}

/-- The schema of a sample portrays it. -/
theorem portrays_ofSample (keyed : v.Keyed) (h : ofSample v = .ok s) : s.Portrays v := by
  induction keyed generalizing s with
  | atom a =>
      rw [ofSample] at h
      split at h
      · rename_i kind hk
        cases h
        exact .scalar (Atom.scalarKind?_eq_some_iff.1 hk)
      · cases h
  | @sequence v xs items _ ih =>
      cases xs with
      | nil =>
          rw [ofSample_of_items_nil items, Except.ok.injEq] at h
          exact h ▸ .empty items
      | cons w ws =>
          rw [ofSample_of_items_cons items] at h
          obtain ⟨t, hw, rfl⟩ := map_eq_ok_iff.1 h
          exact .array items (ih w ws rfl hw)
  | @map ms nodup texts each ih =>
      obtain ⟨ns, hns, hschema⟩ := exists_named_nonNull nodup texts
      obtain ⟨ps, hrelated, rfl⟩ := hschema s h
      refine .object ?_ fun k t v ht hv => ?_
      · rw [hns, Members.keys_named, hrelated.keys_eq]
      · have hget := hrelated.get? k
        rw [ht, ← Members.get?_named, ← hns, hv] at hget
        cases hget with
        | some hvt =>
            obtain ⟨hm, hnull⟩ := Members.mem_nonNull.1 (Members.mem_of_get? hv)
            exact ih (.text k) v hm hnull hvt

theorem isDescribed_of_ofSample (h : ofSample v = .ok s) : v.IsDescribed := by
  cases v with
  | atom a =>
      rw [ofSample] at h
      split at h
      · rename_i kind hk
        exact Value.isDescribed_atom_iff.2 ⟨kind, hk⟩
      · cases h
  | list xs => trivial
  | tuple xs => trivial
  | set xs => cases h
  | map ms => trivial

/-- What stands one step down in a sample with a schema has a schema. -/
theorem exists_ofSample_below (named : v.Named) (h : ofSample v = .ok s) {d : Value.Step}
    (hw : v.below? d = some w) : ∃ t, ofSample w = .ok t := by
  rcases Value.below?_eq_some_iff.1 hw with ⟨ms, k, rfl, rfl, hget⟩ | ⟨ws, hitems, rfl⟩
  · obtain ⟨nodup, texts⟩ := named [] ms rfl
    obtain ⟨ns, hns, hschema⟩ := exists_named_nonNull nodup texts
    obtain ⟨ps, hrelated, -⟩ := hschema s h
    have hrel := hrelated.get? k
    rw [← Members.get?_named, ← hns, hget] at hrel
    generalize ps.get? k = p at hrel
    cases hrel with
    | some hwt => exact ⟨_, hwt⟩
  · rw [ofSample_of_items_cons hitems] at h
    obtain ⟨t, ht, -⟩ := map_eq_ok_iff.1 h
    exact ⟨t, ht⟩

/-- A sample with a schema holds only what schemas describe where it is looked at. -/
theorem not_visitsUndescribed_of_ofSample (named : v.Named) (h : ofSample v = .ok s) :
    ¬v.VisitsUndescribed := by
  rintro ⟨path, u, hu, hnot⟩
  induction path generalizing s v with
  | nil =>
      cases hu
      exact hnot (isDescribed_of_ofSample h)
  | cons d path ih =>
      obtain ⟨w, hw, hrest⟩ := Option.bind_eq_some_iff.1 hu
      obtain ⟨t, ht⟩ := exists_ofSample_below named h hw
      exact ih (named.below hw) ht hrest

/-- A sample without a schema holds a value that none describes where it is looked at, and that
value is reported. -/
theorem exists_visited_of_ofSample_eq_error (named : v.Named) {e : SchemaError}
    (h : ofSample v = .error e) :
    ∃ path u, e = .unsupportedValue u ∧ v.visited? path = some u ∧ ¬u.IsDescribed := by
  induction v using Value.inductItems with
  | atom a =>
      rw [ofSample] at h
      split at h
      · cases h
      · rename_i hkind
        cases h
        refine ⟨[], .atom a, rfl, rfl, fun hdescribed => ?_⟩
        obtain ⟨kind, hk⟩ := Value.isDescribed_atom_iff.1 hdescribed
        cases hkind.symm.trans hk
  | sequence v xs hxs ih =>
      cases xs with
      | nil =>
          rw [ofSample_of_items_nil hxs] at h
          cases h
      | cons w ws =>
          rw [ofSample_of_items_cons hxs] at h
          have hw := Value.below?_first hxs
          obtain ⟨path, u, he, hpath⟩ := ih w List.mem_cons_self (named.below hw) (map_eq_error_iff.1 h)
          exact ⟨.first :: path, u, he, by rwa [Value.visited?_cons hw]⟩
  | set xs =>
      cases h
      exact ⟨[], .set xs, rfl, rfl, id⟩
  | map ms ih =>
      obtain ⟨nodup, texts⟩ := named [] ms rfl
      rw [ofSample] at h
      split at h
      · rename_i hms
        cases h
        obtain ⟨a, w, hm, hw, he⟩ := exists_of_sampleMembers_eq_error hms
        obtain ⟨k, rfl⟩ := texts a w hm hw
        have hbelow := Value.below?_member nodup hm hw
        obtain ⟨path, u, he, hpath⟩ := ih (.text k) w hm (named.below hbelow) he
        exact ⟨.member k :: path, u, he, by rwa [Value.visited?_cons hbelow]⟩
      · rename_i shapes hms
        obtain ⟨t, ht⟩ := exists_ofMembers hms texts
        rw [ht] at h
        cases h

/-- **Which samples have a schema, and which schema it is.** -/
theorem ofSample_exact (named : v.Named) :
    ((∃ u, ofSample v = .error (.unsupportedValue u)) ↔ v.VisitsUndescribed)
      ∧ (¬v.VisitsUndescribed → ∃ s, ofSample v = .ok s ∧ s.Covers v ∧ s.Portrays v
        ∧ ∀ w : Value, w.Named → v.LooksLike w → ofSample w = .ok s) := by
  have exists_ok : ∀ w : Value, w.Named → ¬w.VisitsUndescribed → ∃ s, ofSample w = .ok s := by
    intro w hw hnot
    cases hs : ofSample w with
    | ok s => exact ⟨s, rfl⟩
    | error e =>
        obtain ⟨path, u, -, hu⟩ := exists_visited_of_ofSample_eq_error hw hs
        exact absurd ⟨path, u, hu⟩ hnot
  refine ⟨⟨?unsupported, ?undescribed⟩, ?schema⟩
  case unsupported =>
      rintro ⟨u, hu⟩
      obtain ⟨path, w, -, hw⟩ := exists_visited_of_ofSample_eq_error named hu
      exact ⟨path, w, hw⟩
  case undescribed =>
      intro hvisits
      cases hv : ofSample v with
      | ok s => exact absurd hvisits (not_visitsUndescribed_of_ofSample named hv)
      | error e =>
          obtain ⟨-, u, rfl, -⟩ := exists_visited_of_ofSample_eq_error named hv
          exact ⟨u, rfl⟩
  case schema =>
      intro hnot
      have portrays : ∀ {w : Value} {s : Schema}, w.Named → ¬w.VisitsUndescribed →
          ofSample w = .ok s → s.Portrays w := fun hw hnot hs => portrays_ofSample (hw.keyed hnot) hs
      obtain ⟨s, hs⟩ := exists_ok v named hnot
      refine ⟨s, hs, covers_ofSample (named.keyed hnot) hs, portrays named hnot hs, ?_⟩
      intro w hw hlike
      have hnot' : ¬w.VisitsUndescribed := fun h => hnot (hlike.visitsUndescribed h)
      obtain ⟨t, ht⟩ := exists_ok w hw hnot'
      rw [ht, (portrays named hnot hs).unique (portrays hw hnot' ht) named hlike]

end

/-- A sample of which not everything is looked at: neither what is null nor what comes second. -/
def partlySeen : Value :=
  .object [("a", .list [.object [("b", .atom (.float (.finite false 2 0)))], .set []]),
    ("c", .null), ("d", .atom (.int (2 ^ 53)))]

/-- The schema of a sample of which not everything is looked at. -/
theorem ofSample_exact_partlySeen :
    partlySeen.Named ∧ ¬partlySeen.VisitsUndescribed ∧
    ((∃ u, ofSample partlySeen = .error (.unsupportedValue u)) ↔ partlySeen.VisitsUndescribed) ∧
    ∃ s, ofSample partlySeen = .ok s ∧ s.Covers partlySeen ∧ s.Portrays partlySeen
      ∧ ∀ w : Value, w.Named → partlySeen.LooksLike w → ofSample w = .ok s := by
  have inner : (Value.object [("b", .atom (.float (.finite false 2 0)))]).Keyed :=
    Value.keyed_object (by simp) fun m hm _ => List.mem_singleton.1 hm ▸ .atom _
  have keyed : partlySeen.Keyed := by
    refine Value.keyed_object (by simp) fun m hm hnull => ?_
    simp only [List.mem_cons, List.not_mem_nil, or_false] at hm
    rcases hm with rfl | rfl | rfl
    · exact .sequence rfl fun w ws h => (List.cons.inj h).1 ▸ inner
    · cases hnull
    · exact .atom _
  have run : ofSample partlySeen = .ok (.object
      [("a", .array (some (.object [("b", .scalar .integer [])] ["b"] [])) []),
        ("d", .scalar .number [])] ["a", "d"] []) := by rfl
  have hnot := not_visitsUndescribed_of_ofSample keyed.named run
  obtain ⟨herror, hschema⟩ := ofSample_exact keyed.named
  exact ⟨keyed.named, hnot, herror, hschema hnot⟩

end Schema

end ApiScribe
