import PublicationAudit.Constraint

/-!
# What a validated subject looks like

A subject is reported once for each shape that targets its class, with a verdict on each property of
the shape, or once without a verdict when no shape does. A value of a property is a text or an entry
of a nested subject.
-/

namespace PublicationAudit

mutual

/-- A reported value. -/
inductive ReportedValue where
  | text (text : String)
  | entry (entry : Entry)

/-- The verdict on one property of a shape. -/
structure PropertyVerdict where
  name : String
  description : Option String
  path : String
  requiredClass : Option String
  minCount : Nat
  maxCount : Option Nat
  actualCount : Nat
  values : List ReportedValue
  valid : Bool
  tier : Option Tier
  violations : List Violation

/-- A property of a subject that no shape targets: reported, never judged. -/
structure PropertyReading where
  name : String
  path : String
  values : List ReportedValue
  actualCount : Nat

/-- The properties of an entry. -/
inductive EntryProperties where
  | judged (verdicts : List PropertyVerdict)
  | plain (readings : List PropertyReading)

/-- One report of a subject. -/
structure Entry where
  uri : String
  cls : String
  className : String
  shapeId : Option String
  shapeName : Option String
  totalCount : Nat
  validCount : Option Nat
  properties : EntryProperties
  violations : List Violation

end

/-- Whether the entry was made for a shape. -/
def Entry.isShaped (entry : Entry) : Bool := entry.shapeId.isSome

/-- The verdicts of an entry; an entry without a shape has none. -/
def Entry.verdicts (entry : Entry) : List PropertyVerdict :=
  match entry.properties with
  | .judged verdicts => verdicts
  | .plain _ => []

/-- What validating one subject gave. -/
inductive Verdict where
  /-- No shape targets the subject's class. -/
  | unshaped (entry : Entry)
  /-- One entry for each shape. -/
  | shaped (entries : List Entry)

/-- The entries of a verdict. -/
def Verdict.entries : Verdict → List Entry
  | unshaped entry => [entry]
  | shaped entries => entries

end PublicationAudit
