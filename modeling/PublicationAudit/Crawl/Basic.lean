import PublicationAudit.Crawl.Entity
import PublicationAudit.Failure
import PublicationAudit.FactSet

/-!
# Crawling references

A publication points to mandate holders, persons, governing bodies and the like by IRI. The crawl
fetches their documents and merges the facts in, so that the entities themselves can be validated.

It has two levels. The first fetches every entity that the publication mentions. The second fetches
the entities that the documents of governing bodies mention, unless an administrative unit is known
by then. The fact set only grows, no IRI is requested twice, and a failed fetch is counted and
passed over.
-/

namespace PublicationAudit

/-- Answers an IRI with the facts of its document, or says why it cannot. -/
abbrev Dereferencer := String → Except Failure (List Fact)

/-- How far a crawl goes. -/
structure CrawlPolicy where
  expandGoverningBodies : Bool := true
  skipWhenAdministrativeUnitKnown : Bool := true
  /-- How many fetches may be in flight at once. Answers are taken in the order of the requests, so
  the number never shows in a result. -/
  maxConcurrentFetches : Nat := 8
  deriving DecidableEq, Repr, Inhabited

/-- What a crawl did. -/
structure CrawlReport where
  requested : Nat := 0
  failed : Nat := 0
  factsAdded : Nat := 0
  levels : Nat := 0
  deriving DecidableEq, Repr, Inhabited

/-- A fetched document: its IRI and its facts. -/
abbrev FetchedDocument := String × List Fact

/-- A crawl under way: the facts so far, the counts, and every IRI requested, in order. -/
structure Crawl where
  facts : FactSet
  report : CrawlReport
  requests : List String

namespace Crawl

/-- A crawl that has requested nothing. -/
def start (facts : FactSet) : Crawl := ⟨facts, {}, []⟩

/-- The distinct entities among IRIs, in the order of their first mention, without those that were
requested before. -/
def entityReferences (seen iris : List String) : List String :=
  (iris.filter fun iri => (EntityKind.ofIri? iri).isSome).eraseDups.filter fun iri =>
    !seen.contains iri

/-- Merges the answers of a level in the order of the requests; a failure is counted. -/
def mergeAnswers (crawl : Crawl) : List (String × Except Failure (List Fact)) → Crawl
  | [] => crawl
  | (_, .ok document) :: rest =>
    let grown := crawl.facts.extend document
    mergeAnswers { crawl with
      facts := grown.2
      report := { crawl.report with factsAdded := crawl.report.factsAdded + grown.1 } } rest
  | (_, .error _) :: rest =>
    mergeAnswers { crawl with
      report := { crawl.report with failed := crawl.report.failed + 1 } } rest

/-- The documents among answers. -/
def documentsOf (answers : List (String × Except Failure (List Fact))) : List FetchedDocument :=
  answers.filterMap fun (iri, answer) => answer.toOption.map fun document => (iri, document)

/-- The answers to a list of IRIs, in order. -/
def answersTo (dereference : Dereferencer) (iris : List String) :
    List (String × Except Failure (List Fact)) :=
  iris.map fun iri => (iri, dereference iri)

/-- Takes the answers of one level in. A level without requests does not count as one. -/
def takeLevel (crawl : Crawl) (answers : List (String × Except Failure (List Fact))) : Crawl :=
  if answers.isEmpty then crawl
  else
    mergeAnswers
      { facts := crawl.facts
        report := { crawl.report with
          levels := crawl.report.levels + 1
          requested := crawl.report.requested + answers.length }
        requests := crawl.requests ++ answers.map Prod.fst }
      answers

/-- The IRIs that the documents of governing bodies mention, in order. -/
def governingBodyIris (documents : List FetchedDocument) : List String :=
  (documents.filter fun document =>
    EntityKind.ofIri? document.1 = some .bestuursorgaan).flatMap fun document =>
      document.2.flatMap Fact.iris

/-- Whether the second level is left out, given the facts after the first. -/
def stopsAfterFirstLevel (policy : CrawlPolicy) (facts : FactSet) : Bool :=
  !policy.expandGoverningBodies ||
    (policy.skipWhenAdministrativeUnitKnown && facts.hasInstance Vocabulary.bestuurseenheid)

/-- Crawls from a set of facts. -/
def run (policy : CrawlPolicy) (dereference : Dereferencer) (facts : FactSet) : Crawl :=
  let firstLevel := entityReferences [] facts.iris
  let answers := answersTo dereference firstLevel
  let first := (start facts).takeLevel answers
  if stopsAfterFirstLevel policy first.facts then first
  else
    let secondLevel := entityReferences firstLevel (governingBodyIris (documentsOf answers))
    first.takeLevel (answersTo dereference secondLevel)

end Crawl

end PublicationAudit
