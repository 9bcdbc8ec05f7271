import PublicationAudit.Crawl.Entity
import PublicationAudit.FactSet
import PublicationAudit.Maturity.Tally

/-!
# Scoring maturity

Tiers are cumulative: a publication holds a tier only when every tier up to it is clean. A tier is
clean when every class that it requires has an instance, every optional property that it expects is
used somewhere, and nothing was found at it.
-/

namespace PublicationAudit

/-- An optional property that no instance of its class uses. -/
structure MissingProperty where
  targetClass : String
  path : String
  deriving DecidableEq, Repr, Inhabited

/-- The findings of one tier. -/
structure TierReport where
  tier : Tier
  missingClasses : List String
  missingOptional : List MissingProperty
  invalid : List PropertyVerdict
  failed : List Violation

/-- Whether the tier is clean. -/
def TierReport.isAchieved (report : TierReport) : Bool :=
  report.missingClasses.isEmpty && report.missingOptional.isEmpty && report.invalid.isEmpty &&
    report.failed.isEmpty

/-- The maturity of a publication. -/
structure MaturityReport where
  achieved : Tier
  tiers : List TierReport
  /-- Mandate holders that the publication points to and says nothing about. -/
  undereferenced : List String

/-- The report of one tier. -/
def MaturityReport.tier? (report : MaturityReport) (tier : Tier) : Option TierReport :=
  report.tiers.find? fun r => r.tier = tier

/-- Optional properties that are never reported missing unless told otherwise: vote counts that
may be absent. -/
def defaultSparsePaths : List String :=
  [Vocabulary.aantalTegenstanders, Vocabulary.aantalOnthouders]

namespace MaturityReport

/-- The classes that a tier requires and no subject declares. -/
def missingClasses (shapes : ShapeSet) (facts : FactSet) (tier : Tier) : List String :=
  ((shapes.shapes.filter fun shape =>
    shape.tier = some tier && !facts.hasInstance shape.targetClass).map (·.targetClass)).eraseDups

/-- Whether some subject that declares the class has a fact for the path. -/
def isUsed (facts : FactSet) (cls path : String) : Bool :=
  (facts.instancesOf cls).any fun subject => !(facts.objects subject path).isEmpty

/-- The optional properties that a tier expects and nobody uses; sparse ones are not expected. -/
def missingOptional (shapes : ShapeSet) (facts : FactSet) (sparse : List String) (tier : Tier) :
    List MissingProperty :=
  (shapes.shapes.flatMap fun shape =>
    (shape.properties.filter fun property =>
      property.tier = some tier && property.isOptional && !sparse.contains property.path &&
        !isUsed facts shape.targetClass property.path).map fun property =>
      ⟨shape.targetClass, property.path⟩).eraseDups

/-- The findings of a tier. -/
def tierReport (shapes : ShapeSet) (facts : FactSet) (sparse : List String) (tally : Tally)
    (tier : Tier) : TierReport where
  tier := tier
  missingClasses := missingClasses shapes facts tier
  missingOptional := missingOptional shapes facts sparse tier
  invalid := tally.invalidAt tier
  failed := tally.failedAt tier

/-- The last tier before the first that is not clean. -/
def achievedTier (tiers : List TierReport) : Tier :=
  ((tiers.takeWhile TierReport.isAchieved).getLast?.map (·.tier)).getD .niveau0

/-- The mandate holders mentioned as objects that declare no class. -/
def undereferencedIn (facts : FactSet) : List String :=
  ((facts.toList.filterMap fun f => f.object.iri?).filter fun iri =>
    EntityKind.ofIri? iri = some .mandataris && (facts.typesOf (.iri iri)).isEmpty).eraseDups

/-- The maturity that shapes, facts and a tally give. -/
def score (shapes : ShapeSet) (facts : FactSet) (sparse : List String) (tally : Tally) :
    MaturityReport :=
  let tiers := Tier.scored.map (tierReport shapes facts sparse tally)
  { achieved := achievedTier tiers
    tiers := tiers
    undereferenced := undereferencedIn facts }

end MaturityReport

end PublicationAudit
