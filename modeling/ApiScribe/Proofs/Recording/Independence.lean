/-
**Independent exchanges.**

Two exchanges that belong to different operations do not disturb one another: they can be recorded
in either order, with the same outcome.  Under one template this is not plain, since an operation
that is new takes over the path parameters of its siblings, and one of them may have been new just
before.  But what that one took over is the list of what the others declare, the first parameter of
each name, and putting this list among the others leaves the first parameter of each name the same.

Main definitions:

* `ApiScribe.PathItem.declaredBy` — the path parameters that the operations of some methods declare;
* `ApiScribe.Document.Belongs` — an exchange belongs to a method under a known template.

Main results:

* `ApiScribe.firstOfEachName_insert` — the first of each name, put among those that it is taken from;
* `ApiScribe.PathItem.startOperation_setOperation` — a recorded operation changes nothing of how its
  siblings start;
* `ApiScribe.Document.record_comm` — two steps in either order;
* `ApiScribe.Document.recordAll_swap` — **two independent exchanges commute**;
* `ApiScribe.Document.recordAll_perm` — so do any number of them, in any order.
-/

import ApiScribe.Proofs.Recording.Declared

set_option autoImplicit false

namespace ApiScribe

/-- **The first parameter of each name is the same if the list of them is put in between.** -/
theorem firstOfEachName_insert (vs ws : List ValueParameter) :
    firstOfEachName (vs ++ (firstOfEachName (vs ++ ws) ++ ws)) = firstOfEachName (vs ++ ws) := by
  have hlist : firstOfEachName (firstOfEachName (vs ++ ws) ++ ws) = firstOfEachName (vs ++ ws) := by
    rw [firstOfEachName_append_of_subset fun w hw => ?_,
      firstOfEachName_eq_self (nodup_firstOfEachName _)]
    exact mem_name_firstOfEachName.2 (List.mem_map_of_mem (List.mem_append_right vs hw))
  -- what the list has from before it stands is not repeated
  have hbefore : (firstOfEachName vs).filter (fun w => w.name ∉ vs.map ValueParameter.name) = [] := by
    refine List.filter_eq_nil_iff.2 fun w hw => ?_
    have hmem := List.mem_map_of_mem (f := ValueParameter.name) (mem_of_mem_firstOfEachName hw)
    simpa using hmem
  rw [firstOfEachName_append vs (_ ++ ws), hlist, firstOfEachName_append vs ws, List.filter_append,
    hbefore, List.nil_append, List.filter_filter]
  simp

/-! ### Path items -/

namespace PathItem

variable {item : PathItem} {op op' : Operation} {m n : Method} {e : Evidence}

/-- The path parameters that the operations of some methods declare. -/
def declaredBy (item : PathItem) (ms : List Method) : List ValueParameter :=
  ms.flatMap fun m =>
    (item.operation? m).elim [] fun op => op.parameters.filterMap Parameter.pathValue?

theorem declaredBy_append (item : PathItem) (ms ns : List Method) :
    item.declaredBy (ms ++ ns) = item.declaredBy ms ++ item.declaredBy ns := List.flatMap_append

theorem declaredBy_singleton (item : PathItem) (m : Method) :
    item.declaredBy [m] = (item.operation? m).elim [] fun op =>
      op.parameters.filterMap Parameter.pathValue? := List.flatMap_singleton _ _

/-- What other methods declare does not change when an operation is set. -/
theorem declaredBy_setOperation {ms : List Method} (h : m ∉ ms) :
    (item.setOperation op m).declaredBy ms = item.declaredBy ms := by
  refine List.flatMap_congr fun n hn => ?_
  have hne : m ≠ n := fun he => h (he ▸ hn)
  rw [operation?_setOperation, if_neg hne]

theorem place_of_mem_declaredBy {ms : List Method} {v : ValueParameter}
    (h : v ∈ item.declaredBy ms) : v.place = .path := by
  obtain ⟨m, -, hm⟩ := List.mem_flatMap.1 h
  cases hop : item.operation? m with
  | none => rw [hop] at hm; cases hm
  | some op =>
      rw [hop] at hm
      obtain ⟨p, -, hp⟩ := List.mem_filterMap.1 hm
      exact (Parameter.pathValue?_eq_some_iff.1 hp).2

/-- What operations declare beside the shared parameters is taken over once for each name. -/
theorem siblingParameters_eq_declaredBy (item : PathItem) :
    item.siblingParameters
      = (firstOfEachName ((item.declaredBy Method.all).filter
          fun p => !item.sharedNames.contains p.name)).map .value := by
  have hdeclared : (item.operations.flatMap fun m =>
      m.2.parameters.filterMap Parameter.pathValue?) = item.declaredBy Method.all := by
    rw [operations, declaredBy]
    induction Method.all with
    | nil => rfl
    | cons m ms ih =>
        rw [List.flatMap_cons, ← ih, List.filterMap_cons]
        cases item.operation? m <;> rfl
  rw [siblingParameters, hdeclared]

/-- The methods before and after a given one. -/
theorem exists_all_eq (m : Method) :
    ∃ before after, Method.all = before ++ ([m] ++ after) ∧ m ∉ before ∧ m ∉ after := by
  obtain ⟨before, after, hall⟩ := List.append_of_mem (show m ∈ Method.all by cases m <;> decide)
  have hn : (before ++ m :: after).Nodup := hall ▸ (by decide : Method.all.Nodup)
  have hmid := List.nodup_middle.1 hn
  rw [List.nodup_cons, List.mem_append, not_or] at hmid
  exact ⟨before, after, hall, hmid.1.1, hmid.1.2⟩

/-- **What a new operation takes over stays the same when an exchange is recorded in a sibling**,
also if the sibling is new itself. -/
theorem siblingParameters_setOperation (h : (item.startOperation m).Grows [] e op) :
    (item.setOperation op m).siblingParameters = item.siblingParameters := by
  have hnames : (item.setOperation op m).sharedNames = item.sharedNames := by
    rw [sharedNames, sharedNames, (setOperation_shared item op m).1]
  obtain ⟨before, after, hall, hbefore, hafter⟩ := exists_all_eq m
  have hsplit : ∀ it : PathItem, it.declaredBy Method.all
      = it.declaredBy before ++ (it.declaredBy [m] ++ it.declaredBy after) := by
    intro it
    rw [hall, declaredBy_append, declaredBy_append]
  have hown : (item.setOperation op m).declaredBy [m]
      = (item.startOperation m).parameters.filterMap Parameter.pathValue? := by
    rw [declaredBy_singleton, operation?_setOperation, if_pos rfl]
    exact h.pathValues_eq
  rw [siblingParameters_eq_declaredBy (item.setOperation op m), hnames, hsplit, hown,
    declaredBy_setOperation hbefore, declaredBy_setOperation hafter]
  cases hop : item.operation? m with
  | some op₀ =>
      rw [siblingParameters_eq_declaredBy item, hsplit, declaredBy_singleton, startOperation, hop]
      rfl
  | none =>
      -- the sibling declares what it took over from the others
      set unshared := fun p : ValueParameter => !item.sharedNames.contains p.name with hunshared
      set vs := (item.declaredBy before).filter unshared with hvs
      set ws := (item.declaredBy after).filter unshared with hws
      have htaken : item.siblingParameters = (firstOfEachName (vs ++ ws)).map .value := by
        rw [siblingParameters_eq_declaredBy item, hsplit, declaredBy_singleton, hop, hvs, hws,
          ← List.filter_append]
        rfl
      have hfrom : ∀ v ∈ firstOfEachName (vs ++ ws), unshared v = true ∧ v.place = .path := by
        intro v hv
        rcases List.mem_append.1 (mem_of_mem_firstOfEachName hv) with h | h <;>
          exact ⟨(List.mem_filter.1 h).2, place_of_mem_declaredBy (List.mem_filter.1 h).1⟩
      have hvalues : item.siblingParameters.filterMap Parameter.pathValue?
          = firstOfEachName (vs ++ ws) := by
        rw [htaken]
        simpa [bodyParameters] using filterMap_pathValue? (fun v hv => (hfrom v hv).2) none
      have hkept := List.filter_eq_self.2 fun v hv => (hfrom v hv).1
      rw [startOperation, hop, Option.getD_none, hvalues, htaken, List.filter_append,
        List.filter_append, hkept, firstOfEachName_insert]

theorem startOperation_setOperation (h : (item.startOperation m).Grows [] e op) (hne : m ≠ n) :
    (item.setOperation op m).startOperation n = item.startOperation n := by
  rw [startOperation, startOperation, operation?_setOperation, if_neg hne,
    siblingParameters_setOperation h]

/-- Operations of different methods can be set in either order. -/
theorem setOperation_comm (item : PathItem) (op op' : Operation) (hne : m ≠ n) :
    (item.setOperation op m).setOperation op' n = (item.setOperation op' n).setOperation op m := by
  refine ext_operations (fun k => ?_) ?_ ?_
  · simp only [operation?_setOperation]
    by_cases hm : m = k
    · rw [if_neg fun hn => hne (hm.trans hn.symm), if_pos hm, if_pos hm]
    · rw [if_neg hm, if_neg hm]
  · simp only [(setOperation_shared _ _ _).1]
  · simp only [(setOperation_shared _ _ _).2]

end PathItem

/-! ### Exchanges -/

namespace Document

/-- An exchange belongs to a method under a template that is known. -/
structure Belongs (doc : Document) (x : Exchange) (t : String) (m : Method) : Prop where
  /-- The method is that of the request. -/
  method : x.request.method? = some m
  /-- The URL of the request leads to the template. -/
  resolves : ∃ new, Template.resolve x.request.url doc.templates = .ok ⟨t, new⟩
  /-- The template is one of the document. -/
  known : t ∈ doc.templates

/-- Two exchanges belong to different operations under known templates. -/
def Independent (doc : Document) (x y : Exchange) : Prop :=
  ∃ t m u n, doc.Belongs x t m ∧ doc.Belongs y u n ∧ ¬(t = u ∧ m = n)

section

variable {doc next last : Document} {x y : Exchange} {c d : Cell} {t u : String} {m n : Method}
  {xs ys : List Exchange}

theorem Independent.symm (h : doc.Independent x y) : doc.Independent y x := by
  obtain ⟨t, m, u, n, hx, hy, hne⟩ := h
  exact ⟨u, n, t, m, hy, hx, fun he => hne ⟨he.1.symm, he.2.symm⟩⟩

theorem Belongs.congr (h : doc.Belongs x t m) (hts : next.templates = doc.templates) :
    next.Belongs x t m :=
  ⟨h.method, hts ▸ h.resolves, hts ▸ h.known⟩

theorem Independent.congr (h : doc.Independent x y) (hts : next.templates = doc.templates) :
    next.Independent x y := by
  obtain ⟨t, m, u, n, hx, hy, hne⟩ := h
  exact ⟨t, m, u, n, hx.congr hts, hy.congr hts, hne⟩

/-- Where an exchange belongs, a step records it, without new parameters. -/
theorem Belongs.record_eq_ok_iff (h : doc.Belongs x t m) :
    doc.record x = .ok (c, next) ↔ doc.swagger = formatVersion ∧ c.template = t ∧ c.method = m
      ∧ ∃ e op, x.evidence = .ok e ∧ c.status = e.statusText
        ∧ ((doc.pathItem t).startOperation m).Grows [] e op
        ∧ next = { doc with paths := doc.paths.put t ((doc.pathItem t).setOperation op m) } := by
  obtain ⟨new, hr⟩ := h.resolves
  obtain rfl : new = [] := Template.parameters_eq_nil hr h.known
  rw [Document.record_eq_ok_iff]
  constructor
  · rintro ⟨hversion, new, e, op, hm, hr', he, hstatus, hgrow, rfl⟩
    obtain rfl : m = c.method := Option.some.inj (h.method.symm.trans hm)
    cases hr.symm.trans hr'
    exact ⟨hversion, rfl, rfl, e, op, he, hstatus, hgrow, rfl⟩
  · rintro ⟨hversion, rfl, rfl, e, op, he, hstatus, hgrow, rfl⟩
    exact ⟨hversion, [], e, op, h.method, hr, he, hstatus, hgrow, rfl⟩

/-- A step under a known template leaves the templates as they are. -/
theorem Belongs.templates_of_record (h : doc.Belongs x t m) (step : doc.record x = .ok (c, next)) :
    next.templates = doc.templates := by
  obtain ⟨-, rfl, -⟩ := h.record_eq_ok_iff.1 step
  rw [Document.templates_of_record step, addNew_of_mem h.known]

/-- A recorded operation changes nothing of how another one starts. -/
theorem startOperation_put {op : Operation} {e : Evidence}
    (hgrow : ((doc.pathItem t).startOperation m).Grows [] e op) (hne : ¬(t = u ∧ m = n)) :
    (({ doc with paths := doc.paths.put t ((doc.pathItem t).setOperation op m) } :
      Document).pathItem u).startOperation n = (doc.pathItem u).startOperation n := by
  rw [pathItem_put]
  split
  · rename_i ht
    subst ht
    exact PathItem.startOperation_setOperation hgrow fun hm => hne ⟨rfl, hm⟩
  · rfl

/-- **Two steps for different operations can be done in either order.** -/
theorem record_comm (hx : doc.Belongs x t m) (hy : doc.Belongs y u n) (hne : ¬(t = u ∧ m = n))
    (first : doc.record x = .ok (c, next)) (second : next.record y = .ok (d, last)) :
    ∃ mid, doc.record y = .ok (d, mid) ∧ mid.record x = .ok (c, last) := by
  have hy' := hy.congr (hx.templates_of_record first)
  obtain ⟨hversion, hct, hcm, e, op, he, hcs, hgrow, rfl⟩ := hx.record_eq_ok_iff.1 first
  obtain ⟨-, hdt, hdm, e', op', he', hds, hgrow', rfl⟩ := hy'.record_eq_ok_iff.1 second
  rw [startOperation_put hgrow hne] at hgrow'
  have first' := hy.record_eq_ok_iff.2 ⟨hversion, hdt, hdm, e', op', he', hds, hgrow', rfl⟩
  refine ⟨_, first', (hx.congr (hy.templates_of_record first')).record_eq_ok_iff.2
    ⟨hversion, hct, hcm, e, op, he, hcs, ?_, ?_⟩⟩
  · rw [startOperation_put hgrow' fun h => hne ⟨h.1.symm, h.2.symm⟩]
    exact hgrow
  · simp only [pathItem_put]
    by_cases ht : t = u
    · subst ht
      rw [if_pos rfl, if_pos rfl, Members.put_put, Members.put_put,
        PathItem.setOperation_comm _ _ _ fun hm => hne ⟨rfl, hm⟩]
    · rw [if_neg ht, if_neg (Ne.symm ht), Members.put_comm ht hx.known hy.known]

/-! ### Runs -/

theorem recordAll_cons_eq_ok_iff : (doc.recordAll false (x :: xs)).outcome = .ok last ↔
    ∃ c next, doc.record x = .ok (c, next) ∧ (next.recordAll false xs).outcome = .ok last := by
  rw [outcome_recordAll_cons]
  cases doc.record x with
  | error e => exact ⟨nofun, fun ⟨_, _, h, _⟩ => nomatch h⟩
  | ok r =>
      constructor
      · intro h
        exact ⟨r.1, r.2, rfl, h⟩
      · rintro ⟨c, next, h, hrest⟩
        cases h
        exact hrest

/-- The first two exchanges of a run can change places. -/
theorem recordAll_cons_cons (h : doc.Independent x y)
    (run : (doc.recordAll false (x :: y :: xs)).outcome = .ok last) :
    (doc.recordAll false (y :: x :: xs)).outcome = .ok last := by
  obtain ⟨t, m, u, n, hx, hy, hne⟩ := h
  obtain ⟨c, next, first, hrest⟩ := recordAll_cons_eq_ok_iff.1 run
  obtain ⟨d, next', second, hrest⟩ := recordAll_cons_eq_ok_iff.1 hrest
  obtain ⟨mid, first', second'⟩ := record_comm hx hy hne first second
  exact recordAll_cons_eq_ok_iff.2
    ⟨d, mid, first', recordAll_cons_eq_ok_iff.2 ⟨c, next', second', hrest⟩⟩

/-- **Independent exchanges end in the same document in any order.** -/
theorem recordAll_perm (hperm : xs.Perm ys) (h : xs.Pairwise doc.Independent)
    (run : (doc.recordAll false xs).outcome = .ok last) :
    (doc.recordAll false ys).outcome = .ok last := by
  induction hperm generalizing doc with
  | nil => exact run
  | @cons x xs ys hperm ih =>
      rw [List.pairwise_cons] at h
      obtain ⟨c, next, step, hrest⟩ := recordAll_cons_eq_ok_iff.1 run
      -- if two are left, the first exchange is independent of them, and leaves the templates
      have hrestIndep : xs.Pairwise next.Independent := by
        refine h.2.imp_of_mem fun {y z} hy _ hyz => ?_
        obtain ⟨t, m, u, n, hx, -, -⟩ := h.1 y hy
        exact hyz.congr (hx.templates_of_record step)
      exact recordAll_cons_eq_ok_iff.2 ⟨c, next, step, ih hrestIndep hrest⟩
  | swap x y xs =>
      rw [List.pairwise_cons] at h
      exact recordAll_cons_cons (h.1 _ List.mem_cons_self) run
  | @trans xs ys zs hxy hyz ihxy ihyz =>
      exact ihyz ((hxy.pairwise_iff fun h => Independent.symm h).1 h) (ihxy h run)

/-- **Exchanges for different operations under known templates can be recorded in either order**:
both runs fail, or both end in the same document. -/
theorem recordAll_swap (hx : doc.Belongs x t m) (hy : doc.Belongs y u n)
    (hne : ¬(t = u ∧ m = n)) :
    (∃ last, (doc.recordAll false [x, y]).outcome = .ok last
        ∧ (doc.recordAll false [y, x]).outcome = .ok last)
      ∨ ∃ e e', (doc.recordAll false [x, y]).outcome = .error e
        ∧ (doc.recordAll false [y, x]).outcome = .error e' := by
  have hindep : doc.Independent x y := ⟨t, m, u, n, hx, hy, hne⟩
  have hforth : ∀ last, (doc.recordAll false [x, y]).outcome = .ok last →
      (doc.recordAll false [y, x]).outcome = .ok last := fun _ => recordAll_cons_cons hindep
  have hback : ∀ last, (doc.recordAll false [y, x]).outcome = .ok last →
      (doc.recordAll false [x, y]).outcome = .ok last := fun _ => recordAll_cons_cons hindep.symm
  cases hxy : (doc.recordAll false [x, y]).outcome with
  | ok last => exact Or.inl ⟨last, rfl, hforth last hxy⟩
  | error e =>
      cases hyx : (doc.recordAll false [y, x]).outcome with
      | ok last => exact nomatch hxy.symm.trans (hback last hyx)
      | error e' => exact Or.inr ⟨e, e', rfl, rfl⟩

end

/-- A first PUT, with a body, beside the operation of another method. -/
def putExchange : Exchange :=
  ⟨{ method := "PUT", url := "/a/2", body := .object [("k", .atom (.int 1))] }, { status := 204 }⟩

/-- The first PUT and the first POST beside a GET, both of which take over its parameter. -/
theorem recordAll_swap_siblings : ∃ last,
    let doc := idDocument none .get [.ofPlaceholder "id"]
    doc.Belongs putExchange "/a/{id}" .put ∧ doc.Belongs postExchange "/a/{id}" .post ∧
    (doc.recordAll false [putExchange, postExchange]).outcome = .ok last ∧
    (doc.recordAll false [postExchange, putExchange]).outcome = .ok last ∧
    ([Method.put, .post].map fun m =>
      (last.operation? "/a/{id}" m).map fun op => op.parameters.map Parameter.name)
        = [some ["id", "body"], some ["id"]] := by
  have hresolve : ∀ x ∈ [putExchange, postExchange],
      (Template.resolve x.request.url ["/a/{id}"]).toOption.map Template.Resolution.template
        = some "/a/{id}" := by decide +kernel
  obtain ⟨⟨_, new⟩, hr, rfl⟩ := exists_ok_of_toOption (hresolve putExchange (by simp))
  obtain ⟨⟨_, new'⟩, hr', ht⟩ := exists_ok_of_toOption (hresolve postExchange (by simp))
  cases ht
  have hput : (idDocument none .get [.ofPlaceholder "id"]).Belongs putExchange "/a/{id}" .put :=
    ⟨by decide +kernel, ⟨new, hr⟩, List.mem_singleton.2 rfl⟩
  have hpost : (idDocument none .get [.ofPlaceholder "id"]).Belongs postExchange "/a/{id}" .post :=
    ⟨by decide +kernel, ⟨new', hr'⟩, List.mem_singleton.2 rfl⟩
  have hrun : ((idDocument none .get [.ofPlaceholder "id"]).recordAll false
      [putExchange, postExchange]).outcome.toOption.map (fun doc => [Method.put, .post].map fun m =>
        (doc.operation? "/a/{id}" m).map fun op => op.parameters.map Parameter.name)
      = some [some ["id", "body"], some ["id"]] := by decide +kernel
  obtain ⟨last, hlast, hnames⟩ := exists_ok_of_toOption hrun
  rcases recordAll_swap hput hpost (fun h => nomatch h.2) with ⟨last', h, h'⟩ | ⟨e, -, h, -⟩
  · cases hlast.symm.trans h
    exact ⟨last, hput, hpost, h, h', hnames⟩
  · exact nomatch hlast.symm.trans h

end Document

end ApiScribe
