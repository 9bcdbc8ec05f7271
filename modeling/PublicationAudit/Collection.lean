import PublicationAudit.Maturity.Score

/-!
# Collections by class

The entries of a publication grouped by class: the target classes of the shapes in the order of
their declaration, also those without an entry, then the other classes in the order in which entries
first show them.
-/

namespace PublicationAudit

/-- Maturity findings that concern one class. -/
structure Compliance where
  /-- The lowest tier that requires the class while nothing declares it. -/
  missingAtTier : Option Tier
  missingOptional : List String
  deriving DecidableEq, Repr, Inhabited

/-- The entries of one class. -/
structure Collection where
  classUri : String
  className : String
  count : Nat
  objects : List Entry
  compliance : Option Compliance

/-- The findings that concern a class; none when there are none. -/
def Compliance.ofReport? (report : MaturityReport) (cls : String) : Option Compliance :=
  let tier := (report.tiers.find? fun r => r.missingClasses.contains cls).map (·.tier)
  let paths := (((report.tiers.flatMap (·.missingOptional)).filter fun missing =>
    missing.targetClass = cls).map (·.path)).eraseDups
  if tier.isNone && paths.isEmpty then none else some ⟨tier, paths⟩

namespace Collection

/-- Entries by class, started with the target classes of the shapes. -/
def group (shapes : ShapeSet) (entries : List Entry) : OrderedMap String (List Entry) :=
  let declared : OrderedMap String (List Entry) :=
    shapes.targetClasses.foldl (fun groups cls => groups.upsert cls fun old => old.getD []) .empty
  entries.foldl (fun groups entry => groups.push entry.cls entry) declared

/-- The collection of one class. -/
def ofGroup (report : MaturityReport) (group : String × List Entry) : Collection where
  classUri := group.1
  className := shortName group.1
  count := group.2.length
  objects := group.2
  compliance := Compliance.ofReport? report group.1

/-- The collections of a publication. -/
def ofEntries (shapes : ShapeSet) (report : MaturityReport) (entries : List Entry) :
    List Collection :=
  (group shapes entries).entries.map (ofGroup report)

end Collection

end PublicationAudit
