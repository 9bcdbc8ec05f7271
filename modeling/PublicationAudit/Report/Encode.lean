import PublicationAudit.Datum.Basic
import PublicationAudit.Publication

/-!
# The form of a report

How each part of a report is laid out as a record: the names of the fields, their order, and which
of them are left out when there is nothing to say.
-/

namespace PublicationAudit

/-- The form of a tier. -/
def Tier.encode (tier : Tier) : Datum := .text tier.name

/-- The form of a violation. -/
def Violation.encode (violation : Violation) : Datum :=
  .record <|
    [("focusNode", .text violation.focusNode)] ++
    Datum.optional "resultPath" .text violation.resultPath ++
    Datum.optional "value" .text violation.value ++
    [("message", .text violation.message)]

mutual

/-- The form of a reported value. -/
def ReportedValue.encode : ReportedValue → Datum
  | .text text => .text text
  | .entry entry => Entry.encode entry

/-- The form of a list of reported values. -/
def ReportedValue.encodeList : List ReportedValue → List Datum
  | [] => []
  | value :: values => ReportedValue.encode value :: ReportedValue.encodeList values

/-- The form of a verdict on a property. -/
def PropertyVerdict.encode : PropertyVerdict → Datum
  | ⟨name, description, path, requiredClass, minCount, maxCount, actualCount, values, valid, tier,
      violations⟩ =>
    .record <|
      [("name", .text name)] ++
      Datum.optional "description" .text description ++
      [("path", .text path)] ++
      Datum.optional "targetClass" .text requiredClass ++
      [("minCount", .count minCount)] ++
      Datum.optional "maxCount" .count maxCount ++
      [("actualCount", .count actualCount),
       ("value", .list (ReportedValue.encodeList values)),
       ("valid", .boolean valid)] ++
      Datum.optional "maturityTier" Tier.encode tier ++
      Datum.unlessEmpty "constraintResults" Violation.encode violations

/-- The form of a list of verdicts. -/
def PropertyVerdict.encodeList : List PropertyVerdict → List Datum
  | [] => []
  | verdict :: verdicts => PropertyVerdict.encode verdict :: PropertyVerdict.encodeList verdicts

/-- The form of a property that is not judged. -/
def PropertyReading.encode : PropertyReading → Datum
  | ⟨name, path, values, actualCount⟩ =>
    .record
      [("name", .text name), ("path", .text path),
       ("value", .list (ReportedValue.encodeList values)), ("actualCount", .count actualCount)]

/-- The form of a list of properties that are not judged. -/
def PropertyReading.encodeList : List PropertyReading → List Datum
  | [] => []
  | reading :: readings => PropertyReading.encode reading :: PropertyReading.encodeList readings

/-- The form of the properties of an entry. -/
def EntryProperties.encode : EntryProperties → Datum
  | .judged verdicts => .list (PropertyVerdict.encodeList verdicts)
  | .plain readings => .list (PropertyReading.encodeList readings)

/-- The form of an entry. -/
def Entry.encode : Entry → Datum
  | ⟨uri, cls, className, shapeId, shapeName, totalCount, validCount, properties, violations⟩ =>
    .record <|
      [("uri", .text uri), ("class", .text cls), ("className", .text className)] ++
      Datum.optional "usedShape" .text shapeId ++
      Datum.optional "shapeName" .text shapeName ++
      [("totalCount", .count totalCount)] ++
      Datum.optional "validCount" .count validCount ++
      [("properties", EntryProperties.encode properties)] ++
      Datum.unlessEmpty "constraintResults" Violation.encode violations

end

/-- The form of a missing optional property. -/
def MissingProperty.encode (missing : MissingProperty) : Datum :=
  .record [("targetClass", .text missing.targetClass), ("path", .text missing.path)]

/-- The fields of a tier's findings. -/
def TierReport.fields (report : TierReport) : List (String × Datum) :=
  [("tier", report.tier.encode),
   ("missingClasses", .texts report.missingClasses),
   ("missingOptionalProperties", .list (report.missingOptional.map MissingProperty.encode)),
   ("invalidProperties", .list (report.invalid.map PropertyVerdict.encode))] ++
  Datum.unlessEmpty "failedConstraints" Violation.encode report.failed

/-- The form of a maturity report. -/
def MaturityReport.encode (report : MaturityReport) : Datum :=
  .record <|
    [("achievedTier", report.achieved.encode),
     ("perTier", .list (report.tiers.map fun tier => .record tier.fields))] ++
    Datum.unlessEmpty "undereferencedMandataries" .text report.undereferenced

/-- The form of the findings that concern a class. -/
def Compliance.encode (compliance : Compliance) : Datum :=
  .record <|
    Datum.optional "missingAtTier" Tier.encode compliance.missingAtTier ++
    [("missingOptionalProperties", .texts compliance.missingOptional)]

/-- The form of a collection. -/
def Collection.encode (collection : Collection) : Datum :=
  .record <|
    [("classURI", .text collection.classUri),
     ("className", .text collection.className),
     ("count", .count collection.count),
     ("objects", .list (collection.objects.map Entry.encode))] ++
    Datum.optional "compliance" Compliance.encode collection.compliance

/-- The form of what a crawl did. -/
def CrawlReport.encode (report : CrawlReport) : Datum :=
  .record
    [("requested", .count report.requested), ("failed", .count report.failed),
     ("factsAdded", .count report.factsAdded), ("levels", .count report.levels)]

/-- The fields of the verdict on a publication. -/
def Publication.fields (publication : Publication) : List (String × Datum) :=
  [("classes", .list (publication.classes.map Collection.encode)),
   ("maturity", publication.maturity.encode),
   ("maturityReport", publication.report.encode)]

/-- The fields of an audit report. -/
def AuditReport.fields (report : AuditReport) : List (String × Datum) :=
  [("documentType", .text report.documentType.name), ("crawl", report.crawl.encode)] ++
  report.publication.fields

/-- The form of an audit report, which starts with the identifier of its run. -/
def AuditReport.encode (report : AuditReport) (runId : String) : Datum :=
  .record (("runId", .text runId) :: report.fields)

end PublicationAudit
