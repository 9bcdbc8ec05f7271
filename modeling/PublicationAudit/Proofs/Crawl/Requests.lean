import PublicationAudit.Proofs.Crawl.Merging
import PublicationAudit.Proofs.TypedSubjects

/-!
# What a crawl requests

The requests of a crawl, read off the facts and the documents alone. `RequestLevels` says which IRIs
the two levels hold and in which order; the main statement is `run_requests`: a crawl asks for the
IRIs of the first level and then for those of the second, for none twice and for no other.
`run_eq` gives the whole outcome of a crawl in terms of its levels.
-/

namespace PublicationAudit

/-- An IRI that stands for an entity. -/
def IsEntity (iri : String) : Prop := (EntityKind.ofIri? iri).isSome = true

/-- What the documents of the governing bodies among IRIs mention, in order. -/
def Dereferencer.bodyMentions (dereference : Dereferencer) (iris : List String) : List String :=
  (dereference.documents (iris.filter fun iri =>
    EntityKind.ofIri? iri = some .bestuursorgaan)).flatMap Fact.iris

/-- Whether a crawl ends with its first level: it does not expand governing bodies, or known facts
declare an administrative unit and that is a reason to stop. -/
def CrawlPolicy.StopsAt (policy : CrawlPolicy) (known : List Fact) : Prop :=
  policy.expandGoverningBodies = false ∨ policy.skipWhenAdministrativeUnitKnown = true ∧
    ∃ subject, ⟨subject, Vocabulary.rdfType, .iri Vocabulary.bestuurseenheid⟩ ∈ known

/-- The requests of the two levels of a crawl. The first holds the entities that the facts mention,
the second those that the documents of governing bodies mention and that were not requested. -/
structure RequestLevels (policy : CrawlPolicy) (dereference : Dereferencer) (facts : FactSet)
    (first second : List String) : Prop where
  mentioned : FirstMentions IsEntity facts.iris first
  stopped : policy.StopsAt (facts.toList ++ dereference.documents first) → second = []
  expanded : ¬ policy.StopsAt (facts.toList ++ dereference.documents first) →
    FirstMentions (fun iri => IsEntity iri ∧ iri ∉ first) (dereference.bodyMentions first) second

/-- No request is in both levels, and none is made twice in one. -/
theorem RequestLevels.nodup {policy : CrawlPolicy} {dereference : Dereferencer} {facts : FactSet}
    {first second : List String} (h : RequestLevels policy dereference facts first second) :
    (first ++ second).Nodup := by
  by_cases hstops : policy.StopsAt (facts.toList ++ dereference.documents first)
  · rw [h.stopped hstops, List.append_nil]
    exact h.mentioned.nodup
  · have hsecond := h.expanded hstops
    rw [List.nodup_append]
    refine ⟨h.mentioned.nodup, hsecond.nodup, ?_⟩
    rintro iri hfirst _ hmem rfl
    exact ((hsecond.mem_iff iri).1 hmem).2.2 hfirst

/-- There are no other two such levels. -/
theorem RequestLevels.unique {policy : CrawlPolicy} {dereference : Dereferencer} {facts : FactSet}
    {first second other more : List String}
    (h : RequestLevels policy dereference facts first second)
    (hother : RequestLevels policy dereference facts other more) :
    other = first ∧ more = second := by
  obtain rfl := hother.mentioned.unique h.mentioned
  refine ⟨rfl, ?_⟩
  by_cases hstops : policy.StopsAt (facts.toList ++ dereference.documents other)
  · rw [h.stopped hstops, hother.stopped hstops]
  · exact (hother.expanded hstops).unique (h.expanded hstops)

namespace Crawl

/-- The entities among IRIs are taken when they are first mentioned, unless they were requested. -/
theorem entityReferences_firstMentions (seen iris : List String) :
    FirstMentions (fun iri => IsEntity iri ∧ iri ∉ seen) iris (entityReferences seen iris) := by
  rw [entityReferences, filter_eraseDups, List.filter_filter]
  refine (firstMentions_eraseDups _ iris).congr fun iri _ => ?_
  simp [IsEntity, and_comm]

/-- The IRIs that are looked through for the second level are those in the documents of governing
bodies. -/
theorem governingBodyIris_documentsOf (dereference : Dereferencer) (iris : List String) :
    governingBodyIris (documentsOf (answersTo dereference iris)) =
      dereference.bodyMentions iris := by
  induction iris with
  | nil => rfl
  | cons iri iris ih =>
      have hcons : dereference.bodyMentions (iri :: iris) =
          (if EntityKind.ofIri? iri = some .bestuursorgaan then
            (dereference.document iri).flatMap Fact.iris else []) ++
            dereference.bodyMentions iris := by
        unfold Dereferencer.bodyMentions
        by_cases hbody : EntityKind.ofIri? iri = some .bestuursorgaan <;>
          simp [hbody, Dereferencer.documents]
      rw [hcons, ← ih]
      cases hanswer : dereference iri with
      | error failure =>
          rw [(Dereferencer.document_of_error hanswer).1]
          simp [answersTo, documentsOf, hanswer, Except.toOption]
      | ok document =>
          rw [(Dereferencer.document_of_ok hanswer).1]
          by_cases hbody : EntityKind.ofIri? iri = some .bestuursorgaan <;>
            simp [answersTo, documentsOf, governingBodyIris, hanswer, hbody, Except.toOption]

/-! ## Levels -/

/-- The requests of the first level. -/
def firstLevel (facts : FactSet) : List String := entityReferences [] facts.iris

/-- The requests of the second level. -/
def secondLevel (policy : CrawlPolicy) (dereference : Dereferencer) (facts : FactSet) :
    List String :=
  if stopsAfterFirstLevel policy (facts.extend (dereference.documents (firstLevel facts))).2 then []
  else entityReferences (firstLevel facts) (dereference.bodyMentions (firstLevel facts))

/-- All requests of a crawl. -/
def allRequests (policy : CrawlPolicy) (dereference : Dereferencer) (facts : FactSet) :
    List String :=
  firstLevel facts ++ secondLevel policy dereference facts

variable (policy : CrawlPolicy) (dereference : Dereferencer) (facts : FactSet)

/-- A crawl after its first level. -/
def afterFirstLevel : Crawl := (start facts).takeLevel (answersTo dereference (firstLevel facts))

@[simp] theorem afterFirstLevel_facts :
    (afterFirstLevel dereference facts).facts =
      (facts.extend (dereference.documents (firstLevel facts))).2 := by
  rw [afterFirstLevel, takeLevel_answersTo]
  rfl

@[simp] theorem afterFirstLevel_requests :
    (afterFirstLevel dereference facts).requests = firstLevel facts := by
  rw [afterFirstLevel, takeLevel_answersTo]
  rfl

/-- A crawl takes in the answers to its two levels one after the other. -/
theorem run_eq_takeLevel :
    run policy dereference facts =
      (afterFirstLevel dereference facts).takeLevel
        (answersTo dereference (secondLevel policy dereference facts)) := by
  have hrun : run policy dereference facts =
      if stopsAfterFirstLevel policy (afterFirstLevel dereference facts).facts then
        afterFirstLevel dereference facts
      else (afterFirstLevel dereference facts).takeLevel
        (answersTo dereference (entityReferences (firstLevel facts)
          (governingBodyIris (documentsOf (answersTo dereference (firstLevel facts)))))) := rfl
  rw [hrun, afterFirstLevel_facts, governingBodyIris_documentsOf, secondLevel]
  split
  · rfl
  · rfl

/-- The outcome of a crawl: the facts of the documents are added in the order of the requests, and
the report counts the requests, the failures, the new facts and the levels. -/
theorem run_eq :
    run policy dereference facts =
      { facts := (facts.extend
          (dereference.documents (allRequests policy dereference facts))).2
        report :=
          { requested := (allRequests policy dereference facts).length
            failed := (allRequests policy dereference facts).countP dereference.fails
            factsAdded := (facts.extend
              (dereference.documents (allRequests policy dereference facts))).1
            levels := [firstLevel facts, secondLevel policy dereference facts].countP (· ≠ []) }
        requests := allRequests policy dereference facts } := by
  have hdocuments : dereference.documents (allRequests policy dereference facts) =
      dereference.documents (firstLevel facts) ++
        dereference.documents (secondLevel policy dereference facts) := List.flatMap_append
  rw [run_eq_takeLevel, afterFirstLevel, takeLevel_answersTo, takeLevel_answersTo, hdocuments,
    FactSet.extend_append]
  simp [start, allRequests, List.countP_cons, Nat.add_comm, ite_not]

/-- The requests of a crawl are those of its two levels. -/
theorem requestLevels :
    RequestLevels policy dereference facts (firstLevel facts)
      (secondLevel policy dereference facts) := by
  have hstops : stopsAfterFirstLevel policy
        (facts.extend (dereference.documents (firstLevel facts))).2 = true ↔
      policy.StopsAt (facts.toList ++ dereference.documents (firstLevel facts)) := by
    simp only [stopsAfterFirstLevel, Bool.or_eq_true, Bool.not_eq_true', Bool.and_eq_true,
      FactSet.hasInstance_iff, FactSet.toList_extend, List.mem_eraseDups, CrawlPolicy.StopsAt]
  refine ⟨(entityReferences_firstMentions [] facts.iris).congr fun iri _ => by simp,
    fun hstop => ?_, fun hgoes => ?_⟩
  · rw [secondLevel, if_pos (hstops.2 hstop)]
  · rw [secondLevel, if_neg (fun hstop => hgoes (hstops.1 hstop))]
    exact entityReferences_firstMentions _ _

/-! ## Requests -/

variable {policy dereference facts} {other : Dereferencer}

/-- The second level depends on the documents of the first alone. -/
theorem secondLevel_congr
    (h : ∀ iri ∈ firstLevel facts, other.document iri = dereference.document iri) :
    secondLevel policy other facts = secondLevel policy dereference facts := by
  have hmentions :
      other.bodyMentions (firstLevel facts) = dereference.bodyMentions (firstLevel facts) := by
    unfold Dereferencer.bodyMentions
    rw [Dereferencer.documents_congr fun iri hiri => h iri (List.mem_filter.1 hiri).1]
  unfold secondLevel
  rw [Dereferencer.documents_congr h, hmentions]

/-- Dereferencers that serve the same documents for the requests of a crawl lead it to the same
outcome but for the number of failures. -/
theorem run_of_documents
    (h : ∀ iri ∈ allRequests policy dereference facts,
      other.document iri = dereference.document iri) :
    run policy other facts =
      { run policy dereference facts with
        report := { (run policy dereference facts).report with
          failed := (allRequests policy dereference facts).countP other.fails } } := by
  have hsecond : secondLevel policy other facts = secondLevel policy dereference facts :=
    secondLevel_congr fun iri hiri => h iri (List.mem_append_left _ hiri)
  have hrequests : allRequests policy other facts = allRequests policy dereference facts := by
    rw [allRequests, allRequests, hsecond]
  rw [run_eq, run_eq, hrequests, hsecond, Dereferencer.documents_congr h]

/-- A crawl depends on the answers to its requests alone. -/
theorem run_congr
    (h : ∀ iri ∈ allRequests policy dereference facts, other iri = dereference iri) :
    run policy other facts = run policy dereference facts := by
  have hdocument : ∀ iri ∈ allRequests policy dereference facts,
      other.document iri = dereference.document iri := fun iri hiri => by
    rw [Dereferencer.document, Dereferencer.document, h iri hiri]
  have hfails : (allRequests policy dereference facts).countP other.fails =
      (allRequests policy dereference facts).countP dereference.fails :=
    List.countP_congr fun iri hiri => by
      rw [Dereferencer.fails, Dereferencer.fails, h iri hiri]
  rw [run_of_documents hdocument, hfails, run_eq policy dereference]

/-- A crawl requests the IRIs of its first level and then those of its second, at most two levels in
all, and which these are is determined. It requests no IRI twice, and it asks for no other: whatever
is answered elsewhere makes no difference. -/
theorem run_requests (policy : CrawlPolicy) (dereference : Dereferencer) (facts : FactSet) :
    ∃ first second, RequestLevels policy dereference facts first second ∧
      (∀ other more, RequestLevels policy dereference facts other more →
        other = first ∧ more = second) ∧
      (run policy dereference facts).requests = first ++ second ∧
      (run policy dereference facts).requests.Nodup ∧
      (run policy dereference facts).report.levels = [first, second].countP (· ≠ []) ∧
      (run policy dereference facts).report.levels ≤ 2 ∧
      ∀ other : Dereferencer, (∀ iri ∈ first ++ second, other iri = dereference iri) →
        run policy other facts = run policy dereference facts := by
  have hlevels := requestLevels policy dereference facts
  have hrun := run_eq policy dereference facts
  refine ⟨firstLevel facts, secondLevel policy dereference facts, hlevels,
    fun _ _ hother => hlevels.unique hother, ?_, ?_, ?_, ?_, fun other h => run_congr h⟩
  · rw [hrun]
    rfl
  · rw [hrun]
    exact hlevels.nodup
  · rw [hrun]
  · rw [hrun]
    exact List.countP_le_length

/-- The council of a town and its chair: the council's document mentions the town and the chair, the
chair's document a mandate and the chair again. The document of the town is gone. -/
def councilDocuments : Dereferencer
  | "/bestuursorganen/council" => .ok
      [⟨.iri "/bestuursorganen/council", "urn:town", .iri "/bestuurseenheden/town"⟩,
        ⟨.iri "/bestuursorganen/council", "urn:chair", .iri "/personen/chair"⟩]
  | "/personen/chair" => .ok
      [⟨.iri "/mandatarissen/chair", "urn:of", .iri "/personen/chair"⟩]
  | iri => .error (.fetch iri "gone")

/-- A meeting of the council. -/
def meeting : FactSet := .ofList
  [⟨.iri "urn:m", "urn:chair", .iri "/personen/chair"⟩,
    ⟨.iri "urn:m", "urn:held", .iri "/bestuursorganen/council"⟩]

-- The chair is mentioned again by the council and not asked for again, and what the chair's
-- document mentions is not asked for at all.
example : (run {} councilDocuments meeting).requests =
    ["/personen/chair", "/bestuursorganen/council", "/bestuurseenheden/town"] := by
  decide

end Crawl

end PublicationAudit
