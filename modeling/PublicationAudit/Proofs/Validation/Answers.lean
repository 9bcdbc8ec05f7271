import PublicationAudit.Proofs.Forest.Copies
import PublicationAudit.Proofs.Grouping
import PublicationAudit.Validation.Walk

/-!
# Verdicts from answers

A walk threads its state through every value, but the verdict on one copy depends on that state in a
single way: through what it answers for the subjects nested in the copy. `Validator.verdictFrom` is
the verdict as a function of such answers, with no state at all. `verdictFrom_congr` shows that only
the nested subjects count.
-/

namespace PublicationAudit

/-- What is answered for nested subjects: their entries, or none for one that is not to be
unfolded. -/
abbrev Answers := SubjectTree → Option (List Entry)

/-- A value as it is reported under answers. -/
def EdgeTarget.reported (answers : Answers) : EdgeTarget → List ReportedValue
  | .literal text => [.text text]
  | .reference key => [.text key]
  | .nested subject =>
    match answers subject with
    | some entries => entries.map .entry
    | none => [.text subject.uri]

namespace Validator

/-- The verdict on a property of a copy whose values are reported as listed. -/
def propertyVerdict (validator : Validator) (subject : SubjectTree) (shape : PropertyShape)
    (values : List ReportedValue) : PropertyVerdict :=
  let targets := subject.valuesFor shape.path
  let count := countValues shape.path targets
  let violations := validator.violations shape.constraints subject.node (some shape.path)
  { name := shape.name
    description := shape.description
    path := shape.path
    requiredClass := shape.requiredClass
    minCount := shape.minCount
    maxCount := shape.maxCount
    actualCount := count
    values := values
    valid := shape.admitsCount count &&
      shape.requiredClass.all (fun required => valuesMeetClass required targets) &&
      !targets.any EdgeTarget.isBlankText && violations.isEmpty
    tier := shape.tier
    violations := violations }

/-- The verdict on a property under answers. -/
def verdictOnProperty (validator : Validator) (subject : SubjectTree) (answers : Answers)
    (shape : PropertyShape) : PropertyVerdict :=
  validator.propertyVerdict subject shape
    ((subject.valuesFor shape.path).flatMap (EdgeTarget.reported answers))

/-- The entry of a copy for a shape under answers. -/
def shapedEntry (validator : Validator) (subject : SubjectTree) (answers : Answers)
    (shape : NodeShape) : Entry :=
  let verdicts := shape.properties.map (validator.verdictOnProperty subject answers)
  { uri := subject.uri
    cls := subject.cls
    className := shortName subject.cls
    shapeId := some shape.id
    shapeName := some shape.name
    totalCount := verdicts.length
    validCount := some (verdicts.filter (·.valid)).length
    properties := .judged verdicts
    violations := validator.violations shape.constraints subject.node none }

/-- A property of a copy without a shape under answers. -/
def propertyReading (answers : Answers) (group : String × List EdgeTarget) : PropertyReading :=
  ⟨shortName group.1, group.1, group.2.flatMap (EdgeTarget.reported answers), group.2.length⟩

/-- The entry of a copy that no shape targets under answers. -/
def plainEntry (subject : SubjectTree) (answers : Answers) : Entry :=
  let readings := (groupEdges subject.edges).entries.map (propertyReading answers)
  { uri := subject.uri
    cls := subject.cls
    className := shortName subject.cls
    shapeId := none
    shapeName := none
    totalCount := readings.length
    validCount := none
    properties := .plain readings
    violations := [] }

/-- The verdict on a copy under answers. -/
def verdictFrom (validator : Validator) (answers : Answers) (subject : SubjectTree) : Verdict :=
  match validator.shapes.shapesFor subject.cls with
  | [] => .unshaped (plainEntry subject answers)
  | shapes => .shaped (shapes.map (validator.shapedEntry subject answers))

end Validator

/-! ## Only nested subjects count -/

/-- The subjects nested at values. -/
def nestedIn (values : List EdgeTarget) : List SubjectTree := values.filterMap EdgeTarget.nested?

/-- The values of a property nest children of the copy. -/
theorem nestedIn_valuesFor_subset (subject : SubjectTree) (path : String) :
    nestedIn (subject.valuesFor path) ⊆ subject.children := by
  intro child hchild
  obtain ⟨target, htarget, hnested⟩ := List.mem_filterMap.1 hchild
  obtain ⟨edge, hedge, rfl⟩ := List.mem_map.1 htarget
  exact List.mem_filterMap.2 ⟨edge, (List.mem_filter.1 hedge).1, hnested⟩

/-- The groups of a copy are its distinct paths, each with its values. -/
theorem groupEdges_entries (subject : SubjectTree) :
    (Validator.groupEdges subject.edges).entries =
      (subject.edges.map (·.path)).eraseDups.map fun path => (path, subject.valuesFor path) := by
  have hgroups := OrderedMap.entries_pushAll Edge.path Edge.target .empty subject.edges
  rw [OrderedMap.keys_empty, List.nil_append] at hgroups
  exact hgroups

/-- The groups of a copy nest children of it. -/
theorem nestedIn_groups_subset {subject : SubjectTree} {group : String × List EdgeTarget}
    (h : group ∈ (Validator.groupEdges subject.edges).entries) :
    nestedIn group.2 ⊆ subject.children := by
  rw [groupEdges_entries] at h
  obtain ⟨path, -, rfl⟩ := List.mem_map.1 h
  exact nestedIn_valuesFor_subset subject path

section Congruence

variable {answers other : Answers} {subject : SubjectTree}

/-- Values are reported alike where the nested subjects are answered for alike. -/
theorem flatMap_reported_congr {values : List EdgeTarget}
    (h : ∀ child ∈ nestedIn values, answers child = other child) :
    values.flatMap (EdgeTarget.reported answers) = values.flatMap (EdgeTarget.reported other) := by
  rw [List.flatMap_def, List.flatMap_def]
  congr 1
  refine List.map_congr_left fun value hvalue => ?_
  cases value with
  | literal text => rfl
  | reference key => rfl
  | nested child =>
      have hchild : child ∈ nestedIn values := List.mem_filterMap.2 ⟨_, hvalue, rfl⟩
      rw [EdgeTarget.reported, EdgeTarget.reported, h child hchild]

/-- The verdict on a copy depends on the answers for its children alone. -/
theorem Validator.verdictFrom_congr (validator : Validator)
    (h : ∀ child ∈ subject.children, answers child = other child) :
    validator.verdictFrom answers subject = validator.verdictFrom other subject := by
  have hproperty : validator.verdictOnProperty subject answers =
      validator.verdictOnProperty subject other := by
    funext shape
    rw [verdictOnProperty, verdictOnProperty, flatMap_reported_congr fun child hchild =>
      h child (nestedIn_valuesFor_subset subject shape.path hchild)]
  have hentry : validator.shapedEntry subject answers = validator.shapedEntry subject other := by
    funext shape
    rw [shapedEntry, shapedEntry, hproperty]
  have hreadings : (groupEdges subject.edges).entries.map (propertyReading answers) =
      (groupEdges subject.edges).entries.map (propertyReading other) :=
    List.map_congr_left fun group hgroup => by
      rw [propertyReading, propertyReading, flatMap_reported_congr fun child hchild =>
        h child (nestedIn_groups_subset hgroup hchild)]
  have hplain : plainEntry subject answers = plainEntry subject other := by
    rw [plainEntry, plainEntry, hreadings]
  rw [verdictFrom, verdictFrom, hentry, hplain]

end Congruence

end PublicationAudit
