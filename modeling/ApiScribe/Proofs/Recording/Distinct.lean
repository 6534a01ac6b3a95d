/-
**Templates stay apart.**

Two templates that differ only in the names of their placeholders would stand for the same paths, and
a document must not hold both.  Nothing checks this when an exchange is recorded.  It follows from how
templates come about: one is made only for a path that no known template matches, and it matches that
path itself.

Main definition: `ApiScribe.Document.Distinct` — no two templates of a document are equivalent.

Main results:

* `ApiScribe.Document.Distinct.record` — what one exchange keeps;
* `ApiScribe.Document.distinct_of_recordAll` — **what a run keeps**.
-/

import ApiScribe.Proofs.Recording.History
import ApiScribe.Proofs.Template.Placeholder

set_option autoImplicit false

namespace ApiScribe.Document

/-- No two templates of a document are equivalent. -/
def Distinct (doc : Document) : Prop :=
  doc.templates.Pairwise fun s t => ¬Template.Equivalent s t

instance (doc : Document) : Decidable doc.Distinct :=
  inferInstanceAs (Decidable (doc.templates.Pairwise fun s t => ¬Template.Equivalent s t))

/-- **An exchange adds no template that is equivalent to another one.** -/
theorem Distinct.record {doc next : Document} {x : Exchange} {c : Cell} (h : doc.Distinct)
    (step : doc.record x = .ok (c, next)) : next.Distinct := by
  obtain ⟨new, -, -, hr, -⟩ := operation?_of_record step
  rw [Distinct, templates_of_record step]
  by_cases ht : c.template ∈ doc.templates
  · rw [addNew_of_mem ht]
    exact h
  · rw [addNew, if_neg ht, List.pairwise_append]
    refine ⟨h, List.pairwise_singleton _ _, fun s hs t hmem => ?_⟩
    rw [List.mem_singleton.1 hmem]
    exact Template.not_equivalent_of_resolve hr ht s hs

/-- **Templates of which no two are equivalent stay so in a run**, whether or not it passes over
exchanges. -/
theorem distinct_of_recordAll {doc last : Document} {skip : Bool} {xs : List Exchange}
    (hdistinct : doc.Distinct) (h : (doc.recordAll skip xs).outcome = .ok last) : last.Distinct :=
  invariant_of_recordFrom Distinct.record hdistinct h

/-- A document with a template that has a placeholder. -/
def placeholderTemplates : Document := { paths := [("/a/{id}", {}), ("/", {})] }

/-- Exchanges with a path that a template matches, with one that spells out a placeholder, and with one
that has a brace alone. -/
def bracesExchanges : List Exchange :=
  [⟨{ method := "GET", url := "/a/1" }, { status := 200 }⟩,
    ⟨{ method := "GET", url := "/b/{id}" }, { status := 200 }⟩,
    ⟨{ method := "GET", url := "/%7B" }, { status := 200 }⟩]

/-- Two templates are added, and no two of the four are equivalent. -/
theorem distinct_of_recordAll_braces : ∃ last,
    placeholderTemplates.Distinct ∧
    (placeholderTemplates.recordAll false bracesExchanges).outcome = .ok last ∧
    last.templates = ["/a/{id}", "/", "/b/{id}", "/\x7b"] ∧ last.Distinct := by
  have hdistinct : placeholderTemplates.Distinct := by decide +kernel
  have hrun : (placeholderTemplates.recordAll false bracesExchanges).outcome.toOption.map templates
      = some ["/a/{id}", "/", "/b/{id}", "/\x7b"] := by decide +kernel
  obtain ⟨last, hlast, htemplates⟩ := exists_ok_of_toOption hrun
  exact ⟨last, hdistinct, hlast, htemplates, distinct_of_recordAll hdistinct hlast⟩

end ApiScribe.Document
