import PublicationAudit.Proofs.Crawl.Requests

/-!
# What a crawl leaves behind

The facts and the report after a crawl. The main statement is `run_leaves`: the known facts stay as
they are, the new facts of the fetched documents follow in the order of the requests, each once, and
the report counts what happened. A failed fetch is as good as an empty document: only the number of
failures tells them apart.
-/

namespace PublicationAudit

/-- The dereferencer that serves an empty document wherever another one fails. -/
def Dereferencer.forgiving (dereference : Dereferencer) : Dereferencer :=
  fun iri => .ok (dereference.document iri)

/-- Where the facts mention no entity, nothing is requested at all. -/
theorem RequestLevels.second_eq_nil {policy : CrawlPolicy} {dereference : Dereferencer}
    {facts : FactSet} {second : List String}
    (h : RequestLevels policy dereference facts [] second) : second = [] := by
  by_cases hstops : policy.StopsAt (facts.toList ++ dereference.documents [])
  · exact h.stopped hstops
  · refine (h.expanded hstops).eq_nil_iff.2 ?_
    intro iri hmention
    cases hmention

namespace Crawl

variable (policy : CrawlPolicy) (dereference : Dereferencer) (facts : FactSet)

/-- The facts that a crawl adds are the new ones of the documents, when they are first met. -/
theorem run_facts :
    ∃ added, (run policy dereference facts).facts.toList = facts.toList ++ added ∧
      FirstMentions (· ∉ facts.toList)
        (dereference.documents (allRequests policy dereference facts)) added := by
  refine ⟨_, ?_, (firstMentions_eraseDups (fun fact => decide (fact ∉ facts.toList)) _).congr ?_⟩
  · rw [run_eq]
    exact FactSet.toList_extend_eq _ _
  · intro fact _
    exact decide_eq_true_iff

/-- The number of added facts is that by which the set grows. -/
theorem run_factsAdded :
    (run policy dereference facts).facts.size =
      facts.size + (run policy dereference facts).report.factsAdded := by
  rw [run_eq]
  exact FactSet.size_extend _ _

/-- There is no level exactly when the facts mention no entity. -/
theorem run_levels_eq_zero_iff :
    (run policy dereference facts).report.levels = 0 ↔ ∀ iri ∈ facts.iris, ¬ IsEntity iri := by
  have hlevels := requestLevels policy dereference facts
  rw [← hlevels.mentioned.eq_nil_iff, run_eq]
  constructor
  · intro hnone
    by_contra hsome
    have hcounted := List.countP_eq_zero.1 hnone (firstLevel facts) List.mem_cons_self
    exact hcounted (decide_eq_true hsome)
  · intro hfirst
    rw [hfirst] at hlevels
    rw [hfirst, hlevels.second_eq_nil]
    rfl

/-- A crawl for which failures are empty documents differs in the number of failures alone. -/
theorem run_forgiving :
    run policy dereference.forgiving facts =
      { run policy dereference facts with
        report := { (run policy dereference facts).report with failed := 0 } } := by
  have hdocument : ∀ iri ∈ allRequests policy dereference facts,
      dereference.forgiving.document iri = dereference.document iri := fun _ _ => rfl
  have hnone : (allRequests policy dereference facts).countP dereference.forgiving.fails = 0 :=
    List.countP_eq_zero.2 fun _ _ hfails => Bool.false_ne_true hfails
  rw [run_of_documents hdocument, hnone]

/-- After a crawl the known facts stand first, as they were, and then the new facts of the fetched
documents, each once and in the order of the requests and of the documents. The report counts the
requests, the failures among them, the new facts, and the levels that have requests, of which there
is none exactly when the facts mention no entity. Were every failure an empty document, the requests
and facts would be the same, and so would all counts but that of the failures. -/
theorem run_leaves (policy : CrawlPolicy) (dereference : Dereferencer) (facts : FactSet) :
    let crawl := run policy dereference facts
    (∃ added, crawl.facts.toList = facts.toList ++ added ∧
      FirstMentions (· ∉ facts.toList) (dereference.documents crawl.requests) added ∧
      crawl.report.factsAdded = added.length) ∧
    crawl.report.requested = crawl.requests.length ∧
    crawl.report.failed = crawl.requests.countP dereference.fails ∧
    (∃ first second, RequestLevels policy dereference facts first second ∧
      crawl.requests = first ++ second ∧
      crawl.report.levels = [first, second].countP (· ≠ [])) ∧
    (crawl.report.levels = 0 ↔ ∀ iri ∈ facts.iris, ¬ IsEntity iri) ∧
    run policy dereference.forgiving facts =
      { crawl with report := { crawl.report with failed := 0 } } := by
  intro crawl
  have hrun : crawl = _ := run_eq policy dereference facts
  have hrequests : crawl.requests = allRequests policy dereference facts := by rw [hrun]
  refine ⟨?_, ?_, ?_, ⟨_, _, requestLevels policy dereference facts, hrequests, ?_⟩,
    run_levels_eq_zero_iff policy dereference facts, run_forgiving policy dereference facts⟩
  · obtain ⟨added, hfacts, hadded⟩ := run_facts policy dereference facts
    refine ⟨added, hfacts, hrequests ▸ hadded, ?_⟩
    have hsize : crawl.facts.toList.length = facts.toList.length + crawl.report.factsAdded :=
      run_factsAdded policy dereference facts
    rw [hfacts, List.length_append] at hsize
    omega
  · rw [hrun]
  · rw [hrun]
  · rw [hrun]

end Crawl

end PublicationAudit
