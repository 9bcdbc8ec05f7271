import PublicationAudit.Collection
import PublicationAudit.Crawl.Basic
import PublicationAudit.DocumentType
import PublicationAudit.Shape.Compile
import PublicationAudit.Validation.Walk

/-!
# Auditing a publication

From the facts of a document and of a shape file to the report: the shapes are compiled, references
are crawled, the forest is validated, the maturity scored and the entries grouped by class. The
shapes come first, so that a set that cannot be used stops the run before anything is requested.
-/

namespace PublicationAudit

/-- The verdict on a publication. -/
structure Publication where
  classes : List Collection
  maturity : Tier
  report : MaturityReport

/-- The verdict on a publication together with what is known about the run. -/
structure AuditReport where
  documentType : DocumentType
  crawl : CrawlReport
  publication : Publication

/-- Validates complete facts: reads the forest, validates it, scores and groups. -/
def validatePublication (engine : QueryEngine) (shapes : ShapeSet) (sparse : List String)
    (observer : Observer) (facts : FactSet) (state : RunState) :
    Except Failure Publication × RunState :=
  let validator : Validator := ⟨shapes, engine⟩
  match validator.validateAll observer facts.readForest state with
  | (.error failure, state) => (.error failure, state)
  | (.ok entries, state) =>
    let report := MaturityReport.score shapes facts sparse state.tally
    (.ok ⟨Collection.ofEntries shapes report entries, report.achieved, report⟩, state)

/-- The same with an engine that is made from the facts. Nothing is validated when it cannot be
made. -/
def validateThrough (engineFor : FactSet → Except Failure QueryEngine) (shapes : ShapeSet)
    (sparse : List String) (observer : Observer) (facts : FactSet) (state : RunState) :
    Except Failure Publication × RunState :=
  match engineFor facts with
  | .error failure => (.error failure, state)
  | .ok engine => validatePublication engine shapes sparse observer facts state

/-- What an audit may do. -/
structure AuditPolicy where
  crawls : Bool
  crawl : CrawlPolicy
  sparse : List String

/-- The crawl of a document, which requests nothing unless crawling is allowed. -/
def AuditPolicy.follow (policy : AuditPolicy) (dereference : Dereferencer)
    (document : List Fact) : Crawl :=
  let facts := FactSet.ofList document
  if policy.crawls then Crawl.run policy.crawl dereference facts else .start facts

/-- An audit: its outcome, the IRIs that it requested and the state in which it ended. -/
structure Audit where
  outcome : Except Failure AuditReport
  requests : List String
  state : RunState

/-- Audits a document against shapes. The engine for the constraint queries is made from the facts
that are there after the crawl. -/
def auditThrough (engineFor : FactSet → Except Failure QueryEngine) (dereference : Dereferencer)
    (policy : AuditPolicy) (observer : Observer) (document shapeFacts : List Fact) : Audit :=
  match ShapeSet.ofFacts (.ofList shapeFacts) with
  | .error failure => ⟨.error failure, [], .fresh⟩
  | .ok shapes =>
    let crawl := policy.follow dereference document
    let validated := validateThrough engineFor shapes policy.sparse observer crawl.facts .fresh
    { outcome := validated.1.map fun publication =>
        ⟨.ofFacts crawl.facts, crawl.report, publication⟩
      requests := crawl.requests
      state := validated.2 }

/-- An audit with an engine that never fails to be made. -/
def audit (engineFor : FactSet → QueryEngine) (dereference : Dereferencer) (policy : AuditPolicy)
    (observer : Observer) (document shapeFacts : List Fact) : Audit :=
  auditThrough (fun facts => .ok (engineFor facts)) dereference policy observer document shapeFacts

end PublicationAudit
