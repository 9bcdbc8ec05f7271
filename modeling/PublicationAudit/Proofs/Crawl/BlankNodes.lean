import PublicationAudit.Proofs.Crawl.Growth

/-!
# Blank nodes after a crawl

Facts are told apart by their text, and a blank node is its label: no step of a crawl renames the
blank nodes of a fetched document. So a document that uses a label that is in use already speaks
about the node of that label. `run_factsFor_blank` says what a crawl adds to a blank node, and that
only such documents add anything.
-/

namespace PublicationAudit

namespace Crawl

/-- After a crawl the facts of a blank node are those that it had, followed by the new facts that
the fetched documents state of the same label, each once and in the order of the requests and of the
documents. They are the same as before exactly when no fetched document states a new one. -/
theorem run_factsFor_blank (policy : CrawlPolicy) (dereference : Dereferencer) (facts : FactSet)
    (label : String) :
    let crawl := run policy dereference facts
    (∃ added, crawl.facts.factsFor (.blank label) = facts.factsFor (.blank label) ++ added ∧
      FirstMentions (· ∉ facts.toList)
        ((dereference.documents crawl.requests).filter (·.subject = .blank label)) added) ∧
    (crawl.facts.factsFor (.blank label) = facts.factsFor (.blank label) ↔
      ∀ iri ∈ crawl.requests, ∀ fact ∈ dereference.document iri,
        fact.subject = .blank label → fact ∈ facts.toList) := by
  intro crawl
  have hrun : crawl = _ := run_eq policy dereference facts
  have hfacts : crawl.facts = (facts.extend (dereference.documents crawl.requests)).2 := by
    rw [hrun]
  let stated := (dereference.documents crawl.requests).filter (·.subject = .blank label)
  let added := (stated.filter fun fact => fact ∉ facts.toList).eraseDups
  have hgrown : crawl.facts.factsFor (.blank label) = facts.factsFor (.blank label) ++ added := by
    rw [hfacts]
    exact FactSet.factsFor_extend _ _ _
  have hadded : FirstMentions (· ∉ facts.toList) stated added :=
    (firstMentions_eraseDups (fun fact => decide (fact ∉ facts.toList)) stated).congr
      fun _ _ => decide_eq_true_iff
  refine ⟨⟨added, hgrown, hadded⟩, ?_⟩
  rw [hgrown, List.append_right_eq_self, hadded.eq_nil_iff]
  simp only [stated, Dereferencer.documents, List.mem_filter, List.mem_flatMap, decide_eq_true_eq,
    not_not]
  constructor
  · intro hnone iri hiri fact hfact hsubject
    exact hnone fact ⟨⟨iri, hiri, hfact⟩, hsubject⟩
  · rintro hnone fact ⟨⟨iri, hiri, hfact⟩, hsubject⟩
    exact hnone iri hiri fact hfact hsubject

/-- A document has a meeting as a blank node. The document of the chair uses the same label for a
mandate, and the meeting gains what is said of the mandate. -/
theorem run_shares_labels :
    let facts : FactSet := .ofList [⟨.blank "b0", "urn:chair", .iri "/personen/chair"⟩]
    let dereference : Dereferencer := fun _ =>
      .ok [⟨.blank "b0", "urn:mandateOf", .iri "/personen/chair"⟩]
    facts.hasSubject (.blank "b0") = true ∧
      (run {} dereference facts).facts.factsFor (.blank "b0") ≠ facts.factsFor (.blank "b0") := by
  decide

end Crawl

end PublicationAudit
