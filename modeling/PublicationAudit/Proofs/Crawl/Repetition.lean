import Mathlib.Data.List.Infix
import PublicationAudit.Proofs.Crawl.Requests

/-!
# Repeated crawls

A crawl can start from the facts that another one left, and so on, round by round. One step is that
a crawl keeps the facts in front (`run_facts_extends`), and that growing facts keep the requests of
the first level in front (`firstLevel_extends`) and bring those of the second level into the first
(`secondLevel_subset`). The main statement, `rounds_extend`, is what follows for any two rounds, and
when the rounds have come to an end.
-/

namespace PublicationAudit

namespace Crawl

/-- The facts from which a round of crawls starts: those that the round before left. -/
def factsBefore (policy : CrawlPolicy) (dereference : Dereferencer) (facts : FactSet) :
    Nat → FactSet
  | 0 => facts
  | number + 1 => (run policy dereference (factsBefore policy dereference facts number)).facts

/-- One round of crawls. -/
def round (policy : CrawlPolicy) (dereference : Dereferencer) (facts : FactSet) (number : Nat) :
    Crawl :=
  run policy dereference (factsBefore policy dereference facts number)

variable {policy : CrawlPolicy} {dereference : Dereferencer} {facts grown : FactSet}
  {number : Nat}

/-! ## One crawl after another -/

/-- A crawl keeps the facts, in front of those that it adds. -/
theorem run_facts_extends (policy : CrawlPolicy) (dereference : Dereferencer) (facts : FactSet) :
    facts.toList <+: (run policy dereference facts).facts.toList := by
  rw [run_eq, FactSet.toList_extend_eq]
  exact List.prefix_append _ _

/-- A crawl that adds no fact leaves the facts as they were. -/
theorem run_facts_eq_self (h : (run policy dereference facts).report.factsAdded = 0) :
    (run policy dereference facts).facts = facts := by
  rw [run_eq] at h ⊢
  exact FactSet.extend_eq_self h

/-- Facts that are added at the end lead to requests at the end of the first level. -/
theorem firstLevel_extends (h : facts.toList <+: grown.toList) :
    firstLevel facts <+: firstLevel grown :=
  (eraseDups_extends ((h.flatMap Fact.iris).filter _)).filter _

/-- What a document mentions that was fetched for a crawl is mentioned by the facts that the crawl
leaves. -/
theorem mem_iris_of_document {iri mentioned : String}
    (hrequest : iri ∈ allRequests policy dereference facts)
    (h : mentioned ∈ (dereference.document iri).flatMap Fact.iris) :
    mentioned ∈ (run policy dereference facts).facts.iris := by
  obtain ⟨fact, hfact, hmentioned⟩ := List.mem_flatMap.1 h
  refine List.mem_flatMap.2 ⟨fact, ?_, hmentioned⟩
  rw [run_eq, FactSet.toList_extend, List.mem_eraseDups, List.mem_append]
  exact .inr (List.mem_flatMap.2 ⟨iri, hrequest, hfact⟩)

/-- The requests of the second level are in the first level of a crawl from the facts that are
left. -/
theorem secondLevel_subset (policy : CrawlPolicy) (dereference : Dereferencer) (facts : FactSet) :
    secondLevel policy dereference facts ⊆
      firstLevel (run policy dereference facts).facts := by
  intro iri hiri
  have hlevels := requestLevels policy dereference facts
  have hgoes : ¬ policy.StopsAt (facts.toList ++ dereference.documents (firstLevel facts)) :=
    fun hstops => by simp [hlevels.stopped hstops] at hiri
  obtain ⟨hmention, hentity, -⟩ := ((hlevels.expanded hgoes).mem_iff iri).1 hiri
  -- The mention is in the document of a governing body, which the crawl has taken in.
  have hmentioned : iri ∈ (run policy dereference facts).facts.iris := by
    obtain ⟨fact, hfact, hinFact⟩ := List.mem_flatMap.1 hmention
    obtain ⟨body, hbody, hdocument⟩ := List.mem_flatMap.1 hfact
    have hrequest := List.mem_append_left (secondLevel policy dereference facts)
      (List.mem_filter.1 hbody).1
    exact mem_iris_of_document hrequest (List.mem_flatMap.2 ⟨fact, hdocument, hinFact⟩)
  exact ((requestLevels policy dereference _).mentioned.mem_iff iri).2 ⟨hmentioned, hentity⟩

/-! ## Rounds -/

/-- The facts before a round are in front of those before any later one. -/
theorem factsBefore_extends (policy : CrawlPolicy) (dereference : Dereferencer) (facts : FactSet)
    (number more : Nat) :
    (factsBefore policy dereference facts number).toList <+:
      (factsBefore policy dereference facts (number + more)).toList := by
  induction more with
  | zero => exact List.prefix_rfl
  | succ more ih => exact ih.trans (run_facts_extends policy dereference _)

/-- After a round that adds no fact, all rounds start from the facts from which it started. -/
theorem factsBefore_eq_of_no_new (h : (round policy dereference facts number).report.factsAdded = 0)
    (more : Nat) :
    factsBefore policy dereference facts (number + more) =
      factsBefore policy dereference facts number := by
  induction more with
  | zero => rfl
  | succ more ih =>
      show (run policy dereference (factsBefore policy dereference facts (number + more))).facts = _
      rw [ih]
      exact run_facts_eq_self h

/-- A round adds no fact exactly when every later round is the same. -/
theorem factsAdded_eq_zero_iff (policy : CrawlPolicy) (dereference : Dereferencer)
    (facts : FactSet) (number : Nat) :
    (round policy dereference facts number).report.factsAdded = 0 ↔
      ∀ more, round policy dereference facts (number + more) =
        round policy dereference facts number := by
  constructor
  · intro h more
    rw [round, factsBefore_eq_of_no_new h, round]
  · intro h
    -- The next round starts from the facts that this one leaves, and adds as many to them.
    have hnext : (round policy dereference facts (number + 1)).facts.size =
        (round policy dereference facts number).facts.size +
          (round policy dereference facts (number + 1)).report.factsAdded := by
      rw [round, run_eq]
      exact FactSet.size_extend _ _
    rw [h 1] at hnext
    omega

/-- Of repeated crawls, each from the facts that the one before left: the facts before a round stay
in front, and so do the requests of its first level; the requests of its second level are in the
first level of all later rounds. Once a round adds no fact, and only then, all later rounds come to
the same: they make the same requests and add no fact. -/
theorem rounds_extend (policy : CrawlPolicy) (dereference : Dereferencer) (facts : FactSet) :
    ∃ first second : Nat → List String,
      (∀ number, RequestLevels policy dereference (factsBefore policy dereference facts number)
          (first number) (second number) ∧
        (round policy dereference facts number).requests = first number ++ second number) ∧
      (∀ number more,
        (factsBefore policy dereference facts number).toList <+:
          (factsBefore policy dereference facts (number + more)).toList ∧
        first number <+: first (number + more) ∧
        second number ⊆ first (number + 1 + more)) ∧
      ∀ number, (round policy dereference facts number).report.factsAdded = 0 ↔
        ∀ more, round policy dereference facts (number + more) =
          round policy dereference facts number := by
  let before := factsBefore policy dereference facts
  refine ⟨fun number => firstLevel (before number),
    fun number => secondLevel policy dereference (before number),
    fun number => ⟨requestLevels policy dereference _, ?_⟩, fun number more => ?_,
    factsAdded_eq_zero_iff policy dereference facts⟩
  · rw [round, run_eq]
    rfl
  · have hgrown := factsBefore_extends policy dereference facts number more
    have hlater := factsBefore_extends policy dereference facts (number + 1) more
    exact ⟨hgrown, firstLevel_extends hgrown, fun iri hiri =>
      (firstLevel_extends hlater).subset (secondLevel_subset policy dereference _ hiri)⟩

-- The mandate that only the document of the chair mentions is asked for in the second round, before
-- the town, which the council's document mentions. Its document is gone as well.
example : (round {} councilDocuments meeting 1).requests =
    ["/personen/chair", "/bestuursorganen/council", "/mandatarissen/chair",
      "/bestuurseenheden/town"] := by
  decide

end Crawl

end PublicationAudit
