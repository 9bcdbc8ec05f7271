import PublicationAudit.Crawl.Basic
import PublicationAudit.Proofs.FactHistory

/-!
# Merging the answers of a level

What a crawl does with the answers to a level of requests. `takeLevel_answersTo` says it all: the
facts of the documents are added in the order of the requests, a request whose document could not be
fetched is counted and adds nothing, and a level without requests leaves no trace.
-/

namespace PublicationAudit

namespace Dereferencer

/-- The facts of the document behind an IRI; there are none when it cannot be fetched. -/
def document (dereference : Dereferencer) (iri : String) : List Fact :=
  (dereference iri).toOption.getD []

/-- The facts of the documents behind IRIs, document by document. -/
def documents (dereference : Dereferencer) (iris : List String) : List Fact :=
  iris.flatMap dereference.document

/-- Whether the document behind an IRI cannot be fetched. -/
def fails (dereference : Dereferencer) (iri : String) : Bool :=
  (dereference iri).toOption.isNone

variable {dereference : Dereferencer} {iri : String}

/-- The facts of documents depend on the documents alone. -/
theorem documents_congr {other : Dereferencer} {iris : List String}
    (h : ∀ iri ∈ iris, other.document iri = dereference.document iri) :
    other.documents iris = dereference.documents iris := List.flatMap_congr h

/-- What was fetched is the document. -/
theorem document_of_ok {facts : List Fact} (h : dereference iri = .ok facts) :
    dereference.document iri = facts ∧ dereference.fails iri = false := by
  simp [document, fails, h, Except.toOption]

/-- A failed fetch leaves no document. -/
theorem document_of_error {failure : Failure} (h : dereference iri = .error failure) :
    dereference.document iri = [] ∧ dereference.fails iri = true := by
  simp [document, fails, h, Except.toOption]

end Dereferencer

namespace Crawl

variable (dereference : Dereferencer)

/-- Merging answers adds the facts of the documents and counts the failures. -/
theorem mergeAnswers_answersTo (crawl : Crawl) (iris : List String) :
    mergeAnswers crawl (answersTo dereference iris) =
      { facts := (crawl.facts.extend (dereference.documents iris)).2
        report := { crawl.report with
          failed := crawl.report.failed + iris.countP dereference.fails
          factsAdded :=
            crawl.report.factsAdded + (crawl.facts.extend (dereference.documents iris)).1 }
        requests := crawl.requests } := by
  induction iris generalizing crawl with
  | nil => rfl
  | cons iri iris ih =>
      have hdocuments : dereference.documents (iri :: iris) =
          dereference.document iri ++ dereference.documents iris := List.flatMap_cons
      show mergeAnswers crawl ((iri, dereference iri) :: answersTo dereference iris) = _
      rw [hdocuments, FactSet.extend_append, List.countP_cons]
      cases hanswer : dereference iri with
      | error failure =>
          obtain ⟨hdocument, hfails⟩ := Dereferencer.document_of_error hanswer
          rw [mergeAnswers, ih, hdocument, hfails]
          simp [FactSet.extend, Nat.add_assoc, Nat.add_comm 1]
      | ok document =>
          obtain ⟨hdocument, hfails⟩ := Dereferencer.document_of_ok hanswer
          rw [mergeAnswers, ih, hdocument, hfails]
          simp [Nat.add_assoc]

/-- Taking in the answers to a level adds the facts of its documents, and counts the level if it has
requests. -/
theorem takeLevel_answersTo (crawl : Crawl) (iris : List String) :
    crawl.takeLevel (answersTo dereference iris) =
      { facts := (crawl.facts.extend (dereference.documents iris)).2
        report :=
          { requested := crawl.report.requested + iris.length
            failed := crawl.report.failed + iris.countP dereference.fails
            factsAdded :=
              crawl.report.factsAdded + (crawl.facts.extend (dereference.documents iris)).1
            levels := crawl.report.levels + if iris = [] then 0 else 1 }
        requests := crawl.requests ++ iris } := by
  have hiris : (answersTo dereference iris).map Prod.fst = iris := by
    rw [answersTo, List.map_map]
    exact List.map_id iris
  cases iris with
  | nil => simp [takeLevel, answersTo, Dereferencer.documents, FactSet.extend]
  | cons iri iris =>
      rw [takeLevel, if_neg (by simp [answersTo]), hiris, mergeAnswers_answersTo]
      simp [answersTo]

end Crawl

end PublicationAudit
