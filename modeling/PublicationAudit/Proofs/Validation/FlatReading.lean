import Mathlib.Data.Finset.Card
import PublicationAudit.Proofs.Validation.Runs

/-!
# The flat reading of facts

What a report says of a subject, read off the facts one by one: no forest, no copies, no order of
visits. `FactSet.Conforms` says when a property is valid and `FactSet.Reports` what an entry of a
report shows; `FactSet.slots` lists the entries that a report has. The main statement is
`validateAll_reports`: a run reports exactly this, on cyclic and shared facts too.
-/

namespace PublicationAudit

/-- One entry of a report: a subject, and the shape for which it is reported if there is one. -/
structure Slot where
  subject : Node
  shape : Option NodeShape
  deriving DecidableEq

namespace FactSet

/-- The facts that are the values of a property of a subject. Classes are values only of a
document. -/
def valueFacts (facts : FactSet) (subject : Node) (path : String) : List Fact :=
  facts.toList.filter fun f => f.subject = subject ∧ f.predicate = path ∧
    (f.predicate = Vocabulary.rdfType → Vocabulary.document ∈ facts.typesOf subject)

/-- The number of values of a property, or of their distinct identifiers for a relation that
restates the same body. -/
def valueCount (facts : FactSet) (subject : Node) (path : String) : Nat :=
  if isDistinctTargetRelation path then
    ((facts.valueFacts subject path).map (·.object.key)).toFinset.card
  else (facts.valueFacts subject path).length

/-- A fact that leads outside the publication: its object is not nested here, and its identifier has
a scheme. -/
def LeadsOutside (facts : FactSet) (fact : Fact) : Prop :=
  ¬ facts.nests fact ∧ isBareIdentifier fact.object.key

/-- A fact that nests a subject of the required class, where a mandate holder will do for an office
holder. -/
def NestsClass (facts : FactSet) (required : String) (fact : Fact) : Prop :=
  facts.nests fact ∧ ∃ cls ∈ facts.classOf? fact.object, cls = required ∨
    (required = Vocabulary.functionaris ∧ cls = Vocabulary.mandataris)

/-- The values of a property have the required class. -/
def MeetsClass (facts : FactSet) (subject : Node) (path required : String) : Prop :=
  required = Vocabulary.location ∨
    (facts.valueFacts subject path ≠ [] ∧
      ∀ fact ∈ facts.valueFacts subject path, facts.LeadsOutside fact) ∨
    ∀ fact ∈ facts.valueFacts subject path, facts.NestsClass required fact

/-- A literal value that holds blank characters only. -/
def HoldsBlank (fact : Fact) : Prop :=
  fact.predicate ≠ Vocabulary.rdfType ∧ fact.object.isLiteral ∧ Text.allBlank fact.object.lexical

/-- When a property of a subject is valid. -/
structure Conforms (facts : FactSet) (engine : QueryEngine) (subject : Node)
    (shape : PropertyShape) : Prop where
  min : shape.minCount ≤ facts.valueCount subject shape.path
  max : ∀ bound ∈ shape.maxCount, facts.valueCount subject shape.path ≤ bound
  cls : ∀ required ∈ shape.requiredClass, facts.MeetsClass subject shape.path required
  written : ∀ fact ∈ facts.valueFacts subject shape.path, ¬ HoldsBlank fact
  unviolated : ∀ constraint ∈ shape.constraints,
    constraint.violations engine subject (some shape.path) = []

section Decidability

variable (facts : FactSet) (fact : Fact)

/-- Whether a fact leads outside is decided by its object. -/
instance : Decidable (facts.LeadsOutside fact) := inferInstanceAs (Decidable (¬ _ ∧ _))

/-- So is whether it nests a subject of a class. -/
instance (required : String) : Decidable (facts.NestsClass required fact) :=
  inferInstanceAs (Decidable (_ ∧ ∃ cls ∈ facts.classOf? fact.object, _))

/-- Whether a property meets its class is decided value by value. -/
instance (subject : Node) (path required : String) :
    Decidable (facts.MeetsClass subject path required) := inferInstanceAs (Decidable (_ ∨ _ ∨ _))

/-- A blank text is recognised by its characters. -/
instance : Decidable (HoldsBlank fact) := inferInstanceAs (Decidable (_ ∧ _ ∧ _))

/-- Whether a property is valid is decided part by part. -/
instance (engine : QueryEngine) (subject : Node) (shape : PropertyShape) :
    Decidable (facts.Conforms engine subject shape) :=
  decidable_of_iff (shape.minCount ≤ facts.valueCount subject shape.path ∧
      (∀ bound ∈ shape.maxCount, facts.valueCount subject shape.path ≤ bound) ∧
      (∀ required ∈ shape.requiredClass, facts.MeetsClass subject shape.path required) ∧
      (∀ fact ∈ facts.valueFacts subject shape.path, ¬ HoldsBlank fact) ∧
      ∀ constraint ∈ shape.constraints,
        constraint.violations engine subject (some shape.path) = [])
    ⟨fun ⟨hmin, hmax, hcls, hwritten, hunviolated⟩ =>
        ⟨hmin, hmax, hcls, hwritten, hunviolated⟩,
      fun h => ⟨h.min, h.max, h.cls, h.written, h.unviolated⟩⟩

end Decidability

/-- The distinct properties that a subject shows, in the order of its facts. -/
def shownPaths (facts : FactSet) (subject : Node) : List String :=
  ((facts.reportedFacts subject).map (·.predicate)).eraseDups

/-- The entries that a report has for a subject: one for each shape for its class, in the order of
their declaration, or one without a shape. -/
def slotsOf (facts : FactSet) (shapes : ShapeSet) (subject : Node) : List Slot :=
  match (facts.classOf? subject).elim [] shapes.shapesFor with
  | [] => [⟨subject, none⟩]
  | shapes => shapes.map fun shape => ⟨subject, some shape⟩

/-- The entries of a report: those of all typed subjects in the order of their first fact. -/
def slots (facts : FactSet) (shapes : ShapeSet) : List Slot :=
  facts.typedSubjects.flatMap (facts.slotsOf shapes)

/-- The verdict on a property of a subject is the flat reading of the facts. -/
structure JudgedFlat (facts : FactSet) (engine : QueryEngine) (subject : Node)
    (shape : PropertyShape) (verdict : PropertyVerdict) : Prop where
  name : verdict.name = shape.name
  description : verdict.description = shape.description
  path : verdict.path = shape.path
  requiredClass : verdict.requiredClass = shape.requiredClass
  minCount : verdict.minCount = shape.minCount
  maxCount : verdict.maxCount = shape.maxCount
  tier : verdict.tier = shape.tier
  actualCount : verdict.actualCount = facts.valueCount subject shape.path
  valid : verdict.valid = true ↔ facts.Conforms engine subject shape
  violations : verdict.violations =
    shape.constraints.flatMap fun c => c.violations engine subject (some shape.path)

/-- An entry for a shape: the properties of the shape are judged in their order. -/
structure ReportsShaped (facts : FactSet) (engine : QueryEngine) (subject : Node)
    (shape : NodeShape) (entry : Entry) : Prop where
  shapeId : entry.shapeId = some shape.id
  shapeName : entry.shapeName = some shape.name
  judged : ∃ verdicts, entry.properties = .judged verdicts ∧
    List.Forall₂ (facts.JudgedFlat engine subject) shape.properties verdicts
  totalCount : entry.totalCount = shape.properties.length
  validCount : entry.validCount = some (entry.verdicts.filter (·.valid)).length
  violations : entry.violations =
    shape.constraints.flatMap fun c => c.violations engine subject none

/-- An entry without a shape: the properties that the subject shows are counted and not judged. -/
structure ReportsPlain (facts : FactSet) (subject : Node) (entry : Entry) : Prop where
  shapeId : entry.shapeId = none
  shapeName : entry.shapeName = none
  plain : ∃ readings, entry.properties = .plain readings ∧
    List.Forall₂ (fun path reading => reading.path = path ∧ reading.name = shortName path ∧
      reading.actualCount = (facts.valueFacts subject path).length)
      (facts.shownPaths subject) readings
  totalCount : entry.totalCount = (facts.shownPaths subject).length
  validCount : entry.validCount = none
  violations : entry.violations = []

/-- An entry of a report shows its subject under its class, and the rest as the facts have it. -/
structure Reports (facts : FactSet) (engine : QueryEngine) (slot : Slot) (entry : Entry) :
    Prop where
  uri : entry.uri = slot.subject.key
  cls : facts.classOf? slot.subject = some entry.cls
  className : entry.className = shortName entry.cls
  shaped : ∀ shape, slot.shape = some shape →
    facts.ReportsShaped engine slot.subject shape entry
  plain : slot.shape = none → facts.ReportsPlain slot.subject entry

end FactSet

/-! ## Copies show the flat reading -/

variable {facts : FactSet} {subject : Node} {fact : Fact} {target : EdgeTarget}

/-- The values of a property are those reported facts of the subject that have its path. -/
theorem FactSet.valueFacts_eq (facts : FactSet) (subject : Node) (path : String) :
    facts.valueFacts subject path =
      (facts.reportedFacts subject).filter fun f => f.predicate = path := by
  rw [valueFacts, reportedFacts, factsFor_eq_filter, List.filter_filter, List.filter_filter]
  refine List.filter_congr fun f _ => ?_
  by_cases htype : f.predicate = Vocabulary.rdfType <;>
    by_cases hsubject : f.subject = subject <;> by_cases hpath : f.predicate = path <;>
      simp [htype, hsubject, hpath, isDocument]

namespace EdgeTarget.Shows

/-- A target is told apart by the identifier of its object. -/
theorem identity {isFirst : Bool} (h : target.Shows facts isFirst fact) :
    target.identity = fact.object.key := by
  cases target with
  | literal text => exact h.2.2
  | reference key => exact h.1
  | nested tree => exact congrArg Node.key h.2.2.1

/-- A first copy nests at a target exactly when the fact nests. -/
theorem isSome_nested? (h : target.Shows facts true fact) :
    target.nested?.isSome = facts.nests fact := by
  rw [h.isSome_nested?_eq, Bool.true_and]

/-- A target is external exactly when the fact leads outside. -/
theorem isExternal_iff (h : target.Shows facts true fact) :
    target.isExternal = true ↔ facts.LeadsOutside fact := by
  have hnested := h.isSome_nested?
  have hidentity := h.identity
  rw [FactSet.LeadsOutside, ← hnested, ← hidentity]
  cases target <;>
    simp [EdgeTarget.isExternal, EdgeTarget.text?, EdgeTarget.nested?, EdgeTarget.identity]

/-- A target nests a subject of a class exactly when the fact does. -/
theorem nestsClass_iff (required : String) (h : target.Shows facts true fact) :
    (target.nested?.any fun subject => classMeets required subject.cls) = true ↔
      facts.NestsClass required fact := by
  have hnested := h.isSome_nested?
  rw [FactSet.NestsClass, ← hnested]
  cases target with
  | literal text => simp [EdgeTarget.nested?]
  | reference key => simp [EdgeTarget.nested?]
  | nested tree => simp [EdgeTarget.nested?, classMeets, h.2.2.2]

/-- A target is blank exactly when the fact holds a blank text. -/
theorem isBlankText_iff {isFirst : Bool} (h : target.Shows facts isFirst fact) :
    target.isBlankText = true ↔ FactSet.HoldsBlank fact := by
  obtain ⟨subject, predicate, object⟩ := fact
  cases target with
  | literal text =>
      obtain ⟨htype, hliteral, rfl⟩ := h
      cases object with
      | iri text => simp [Node.isLiteral] at hliteral
      | blank label => simp [Node.isLiteral] at hliteral
      | literal text datatype language =>
          simp [EdgeTarget.isBlankText, FactSet.HoldsBlank, htype, Node.isLiteral, Node.key,
            Node.lexical]
  | reference key =>
      simp only [EdgeTarget.isBlankText, FactSet.HoldsBlank, Bool.false_eq_true, false_iff]
      exact fun hblank => hblank.1 (h.2.1 hblank.2.1)
  | nested tree =>
      simp only [EdgeTarget.isBlankText, FactSet.HoldsBlank, Bool.false_eq_true, false_iff]
      exact fun hblank => by simp [(FactSet.nests_iff.1 h.2.1).2.1] at hblank

end EdgeTarget.Shows

namespace SubjectTree.IsCopy

variable {copy : SubjectTree} {isFirst : Bool}

/-- The values of a property on a copy show the facts of the property. -/
theorem valuesFor (h : copy.IsCopy facts isFirst) (path : String) :
    List.Forall₂ (fun fact target => target.Shows facts isFirst fact)
      (facts.valueFacts copy.node path) (copy.valuesFor path) := by
  rw [FactSet.valueFacts_eq, SubjectTree.valuesFor, List.forall₂_map_right_iff]
  have hedges := h.edges
  generalize facts.reportedFacts copy.node = reported at hedges ⊢
  generalize copy.edges = edges at hedges ⊢
  induction hedges with
  | nil => exact .nil
  | @cons fact edge _ _ hedge _ ih =>
      obtain ⟨hpath, hshows⟩ := hedge
      by_cases hwanted : fact.predicate = path
      · rw [List.filter_cons_of_pos (by simpa using hwanted),
          List.filter_cons_of_pos (by simpa [hpath] using hwanted)]
        exact .cons hshows ih
      · rw [List.filter_cons_of_neg (by simpa using hwanted),
          List.filter_cons_of_neg (by simpa [hpath] using hwanted)]
        exact ih

/-- The values of a property are as many as the facts say. -/
theorem countValues_eq (h : copy.IsCopy facts isFirst) (path : String) :
    countValues path (copy.valuesFor path) = facts.valueCount copy.node path := by
  have hvalues := h.valuesFor path
  have hidentities : (copy.valuesFor path).map EdgeTarget.identity =
      (facts.valueFacts copy.node path).map (·.object.key) :=
    map_eq_of_forall₂ hvalues fun _ _ hshows => hshows.identity
  rw [countValues, FactSet.valueCount, hidentities, hvalues.length_eq]
  split
  · rw [← List.toFinset_card_of_nodup (nodup_eraseDups _)]
    congr 1
    ext key
    rw [List.mem_toFinset, List.mem_toFinset, List.mem_eraseDups]
  · rfl

/-- On a first copy the values of a property have a class exactly when the facts do. -/
theorem valuesMeetClass_iff (h : copy.IsCopy facts true) (path required : String) :
    valuesMeetClass required (copy.valuesFor path) = true ↔
      facts.MeetsClass copy.node path required := by
  have hvalues := h.valuesFor path
  have hempty : copy.valuesFor path ≠ [] ↔ facts.valueFacts copy.node path ≠ [] := by
    rw [← List.length_pos_iff, ← List.length_pos_iff, hvalues.length_eq]
  have houtside := forall_iff_of_forall₂ hvalues fun _ _ hshows => hshows.isExternal_iff
  have hnests := forall_iff_of_forall₂ hvalues fun _ _ hshows => hshows.nestsClass_iff required
  rw [FactSet.MeetsClass, ← hempty, ← houtside, ← hnests]
  simp only [valuesMeetClass, Bool.or_eq_true, Bool.and_eq_true, beq_iff_eq, List.all_eq_true,
    Bool.not_eq_true', List.isEmpty_eq_false_iff, or_assoc]

/-- When the verdict on a property is valid, whatever is answered for nested subjects: the facts
decide but for the class of the values, which the copy shows. -/
theorem valid_iff (h : copy.IsCopy facts isFirst) (validator : Validator) (answers : Answers)
    (shape : PropertyShape) :
    (validator.verdictOnProperty copy answers shape).valid = true ↔
      facts.Conforms validator.engine copy.node { shape with requiredClass := none } ∧
        ∀ required ∈ shape.requiredClass,
          valuesMeetClass required (copy.valuesFor shape.path) = true := by
  have hblank := forall_iff_of_forall₂ (h.valuesFor shape.path) fun _ _ hshows =>
    not_congr hshows.isBlankText_iff
  show (shape.admitsCount (countValues shape.path (copy.valuesFor shape.path)) &&
    shape.requiredClass.all (fun required =>
      valuesMeetClass required (copy.valuesFor shape.path)) &&
    !(copy.valuesFor shape.path).any EdgeTarget.isBlankText &&
    (shape.constraints.flatMap fun c =>
      c.violations validator.engine copy.node (some shape.path)).isEmpty) = true ↔ _
  rw [h.countValues_eq]
  -- The test is a conjunction, and each part of it but the class is one field of `Conforms`.
  simp only [Bool.and_eq_true, Option.all_eq_true, Bool.not_eq_true', List.any_eq_false, hblank,
    List.isEmpty_iff, List.flatMap_eq_nil_iff, PropertyShape.admitsCount, decide_eq_true_eq]
  constructor
  · rintro ⟨⟨⟨⟨hmin, hmax⟩, hcls⟩, hwritten⟩, hunviolated⟩
    exact ⟨⟨hmin, hmax, fun _ hnone => (Option.not_mem_none _ hnone).elim, hwritten, hunviolated⟩,
      hcls⟩
  · rintro ⟨hconforms, hcls⟩
    exact ⟨⟨⟨⟨hconforms.min, hconforms.max⟩, hcls⟩, hconforms.written⟩, hconforms.unviolated⟩

/-- The verdict on a property is the flat reading, whatever is answered for nested subjects. -/
theorem judgedFlat (h : copy.IsCopy facts true) (validator : Validator) (answers : Answers)
    (shape : PropertyShape) :
    facts.JudgedFlat validator.engine copy.node shape
      (validator.verdictOnProperty copy answers shape) where
  name := rfl
  description := rfl
  path := rfl
  requiredClass := rfl
  minCount := rfl
  maxCount := rfl
  tier := rfl
  actualCount := h.countValues_eq shape.path
  violations := rfl
  valid := by
    rw [h.valid_iff]
    simp only [h.valuesMeetClass_iff]
    exact ⟨fun ⟨hrest, hcls⟩ => { hrest with cls := hcls },
      fun hconforms => ⟨{ hconforms with cls := fun _ hnone =>
        (Option.not_mem_none _ hnone).elim }, hconforms.cls⟩⟩

/-- An entry for a shape is the flat reading. -/
theorem reportsShaped (h : copy.IsCopy facts true) (validator : Validator) (answers : Answers)
    (shape : NodeShape) :
    facts.ReportsShaped validator.engine copy.node shape
      (validator.shapedEntry copy answers shape) where
  shapeId := rfl
  shapeName := rfl
  judged := ⟨shape.properties.map (validator.verdictOnProperty copy answers), rfl,
    List.forall₂_map_right_iff.2
      (List.forall₂_same.2 fun property _ => h.judgedFlat validator answers property)⟩
  totalCount := List.length_map _
  validCount := rfl
  violations := rfl

/-- The groups of a copy are the properties that its subject shows. -/
theorem groupEdges_entries (h : copy.IsCopy facts isFirst) :
    (Validator.groupEdges copy.edges).entries =
      (facts.shownPaths copy.node).map fun path => (path, copy.valuesFor path) := by
  have hpaths : copy.edges.map (·.path) = (facts.reportedFacts copy.node).map (·.predicate) :=
    map_eq_of_forall₂ h.edges fun _ _ hshows => hshows.1
  rw [PublicationAudit.groupEdges_entries, hpaths, FactSet.shownPaths]

/-- An entry without a shape is the flat reading. -/
theorem reportsPlain (h : copy.IsCopy facts true) (answers : Answers) :
    facts.ReportsPlain copy.node (Validator.plainEntry copy answers) where
  shapeId := rfl
  shapeName := rfl
  plain := by
    refine ⟨_, rfl, ?_⟩
    rw [h.groupEdges_entries, List.map_map, List.forall₂_map_right_iff, List.forall₂_same]
    exact fun path _ => ⟨rfl, rfl, (h.valuesFor path).length_eq.symm⟩
  totalCount := by
    show ((Validator.groupEdges copy.edges).entries.map _).length = _
    rw [List.length_map, h.groupEdges_entries, List.length_map]
  validCount := rfl
  violations := rfl

/-- The entries of a copy stand one by one for the slots of its subject. -/
theorem forall₂_entries (h : copy.IsCopy facts isFirst) (validator : Validator) (answers : Answers)
    {R : Slot → Entry → Prop} (hplain : R ⟨copy.node, none⟩ (Validator.plainEntry copy answers))
    (hshaped : ∀ shape, R ⟨copy.node, some shape⟩ (validator.shapedEntry copy answers shape)) :
    List.Forall₂ R (facts.slotsOf validator.shapes copy.node)
      (validator.verdictFrom answers copy).entries := by
  unfold FactSet.slotsOf Validator.verdictFrom
  rw [h.cls, Option.elim_some]
  cases validator.shapes.shapesFor copy.cls with
  | nil => exact .cons hplain .nil
  | cons shape shapes =>
      show List.Forall₂ R ((shape :: shapes).map _) ((shape :: shapes).map _)
      rw [List.forall₂_map_left_iff, List.forall₂_map_right_iff, List.forall₂_same]
      exact fun shape _ => hshaped shape

/-- The entries of a subject are the flat reading, whatever is answered for nested subjects. -/
theorem reports (h : copy.IsCopy facts true) (validator : Validator) (answers : Answers) :
    List.Forall₂ (facts.Reports validator.engine) (facts.slotsOf validator.shapes copy.node)
      (validator.verdictFrom answers copy).entries := by
  refine h.forall₂_entries validator answers
    ⟨rfl, h.cls, rfl, fun _ hshape => ?_, fun _ => h.reportsPlain answers⟩
    fun shape => ⟨rfl, h.cls, rfl, fun other hother => ?_, fun hnone => ?_⟩
  · cases hshape
  · cases hother
    exact h.reportsShaped validator answers shape
  · cases hnone

end SubjectTree.IsCopy

namespace Validator

variable {validator : Validator} {observer : Observer} {entries : List Entry}

/-- What a run returns, if it is not stopped, is the flat reading of the facts. -/
theorem reports_of_validateAll (hkeys : facts.KeysDistinct)
    (h : (validator.validateAll observer facts.readForest .fresh).1 = .ok entries) :
    List.Forall₂ (facts.Reports validator.engine) (facts.slots validator.shapes) entries := by
  obtain ⟨-, -, verdicts, rfl, hverdicts⟩ := validateAll_explained hkeys h
  refine List.rel_flatMap hverdicts fun subject verdict hverdict => ?_
  obtain ⟨-, copy, stack, rfl, hcopy, hexplains⟩ := hverdict
  -- Which answers explain the verdict does not matter: the flat reading asks for none.
  rw [hexplains.given _ (RunState.allows_answersUnder _ stack)]
  exact hcopy.reports validator _

/-- A run over facts with distinct identifiers, which its observer does not stop, returns one entry
for each slot of the report, and every entry is the flat reading of the facts. -/
theorem validateAll_reports (facts : FactSet) (hkeys : facts.KeysDistinct) (validator : Validator)
    (observer : Observer) (haccepts : ∀ progress, observer progress = .ok ()) :
    ∃ entries, (validator.validateAll observer facts.readForest .fresh).1 = .ok entries ∧
      List.Forall₂ (facts.Reports validator.engine) (facts.slots validator.shapes) entries := by
  obtain ⟨entries, hentries⟩ := validateAll_accepted haccepts facts.readForest .fresh
  exact ⟨entries, hentries, reports_of_validateAll hkeys hentries⟩

/-- Two persons who know each other. -/
def acquaintances : FactSet := .ofList
  [⟨.iri "urn:a", Vocabulary.rdfType, .iri "urn:Person"⟩,
    ⟨.iri "urn:a", "urn:knows", .iri "urn:b"⟩,
    ⟨.iri "urn:b", Vocabulary.rdfType, .iri "urn:Person"⟩,
    ⟨.iri "urn:b", "urn:knows", .iri "urn:a"⟩]

/-- A person has to know one person. -/
def personShape : NodeShape where
  id := "urn:PersonShape"
  targetClass := "urn:Person"
  name := "Person"
  tier := some .niveau1
  properties := [⟨"knows", none, "urn:knows", some "urn:Person", 1, some 1, some .niveau1, []⟩]
  constraints := []

/-- On the cycle both persons are reported as the facts have them. -/
theorem validateAll_reports_acquaintances :
    acquaintances.KeysDistinct ∧ (∀ progress, Observer.silent progress = .ok ()) ∧
      acquaintances.slots ⟨[personShape]⟩ =
        [⟨.iri "urn:a", some personShape⟩, ⟨.iri "urn:b", some personShape⟩] ∧
      ∃ entries, ((⟨⟨[personShape]⟩, fun _ => .ok []⟩ : Validator).validateAll Observer.silent
          acquaintances.readForest .fresh).1 = .ok entries ∧
        List.Forall₂ (acquaintances.Reports fun _ => .ok []) (acquaintances.slots ⟨[personShape]⟩)
          entries :=
  ⟨by decide, fun _ => rfl, by decide, validateAll_reports acquaintances (by decide)
    ⟨⟨[personShape]⟩, fun _ => .ok []⟩ Observer.silent fun _ => rfl⟩

end Validator

end PublicationAudit
