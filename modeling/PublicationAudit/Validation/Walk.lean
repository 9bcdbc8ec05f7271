import PublicationAudit.Shape.Basic
import PublicationAudit.Validation.Judgement
import PublicationAudit.Validation.RunState
import PublicationAudit.Failure

/-!
# Validating a forest

Every subject is checked against each shape for its class, at most once in a run and always from its
first copy, the one with expanded edges; so the verdict does not depend on which parent reaches the
subject first. A reference back into a subject whose validation has not ended is reported as its
plain identifier.

`resolve` is the walk below one subject, with a bound on the depth of nesting: the subjects in
progress are distinct, so a bound of one more than the number of first copies is never reached.
`validateAll` walks the roots in order and announces each of them first.
-/

namespace PublicationAudit

/-- Shapes together with the engine that answers their constraints. -/
structure Validator where
  shapes : ShapeSet
  engine : QueryEngine

/-- The first copy of every subject of a forest in pre-order, by identifier. -/
abbrev FirstCopies := OrderedMap String SubjectTree

namespace FirstCopies

mutual

/-- Adds the copies of a tree. The subtrees of a subject that is known already are skipped. -/
def addTree (copies : FirstCopies) : SubjectTree → FirstCopies
  | ⟨node, cls, edges⟩ =>
    if copies.contains node.key then copies
    else addEdges (copies.insert node.key ⟨node, cls, edges⟩) edges

/-- Adds the copies below edges, in order. -/
def addEdges (copies : FirstCopies) : List Edge → FirstCopies
  | [] => copies
  | ⟨_, target⟩ :: edges => addEdges (addTarget copies target) edges

/-- Adds the copies below a target. -/
def addTarget (copies : FirstCopies) : EdgeTarget → FirstCopies
  | .nested tree => addTree copies tree
  | .literal _ => copies
  | .reference _ => copies

end

/-- The first copies of a forest. -/
def ofForest (roots : List SubjectTree) : FirstCopies := roots.foldl addTree .empty

/-- The first copy of a subject; the subject itself where none is known. -/
def copyOf (copies : FirstCopies) (subject : SubjectTree) : SubjectTree :=
  (copies.find? subject.uri).getD subject

end FirstCopies

/-- How a walk treats a nested subject: its entries, or none while its validation has not ended. -/
abbrev SubjectWalk := RunState → SubjectTree → Option (List Entry) × RunState

/-- One value as it is reported. A nested subject becomes its entries. -/
def reportValue (nested : SubjectWalk) (state : RunState) (value : EdgeTarget) :
    List ReportedValue × RunState :=
  match value with
  | .literal text => ([.text text], state)
  | .reference key => ([.text key], state)
  | .nested subject =>
    let walked := nested state subject
    match walked.1 with
    | some entries => (entries.map .entry, walked.2)
    | none => ([.text subject.uri], walked.2)

/-- The values of a property as they are reported. -/
def reportValues (nested : SubjectWalk) (state : RunState) (values : List EdgeTarget) :
    List ReportedValue × RunState :=
  let reported := threadMap (reportValue nested) state values
  (reported.1.flatten, reported.2)

namespace Validator

/-- The violations of constraints at a focus. -/
def violations (validator : Validator) (constraints : List Constraint) (focus : Node)
    (path : Option String) : List Violation :=
  constraints.flatMap fun constraint => constraint.violations validator.engine focus path

/-- The queries that constraints ask about a focus, in order. -/
def queries (constraints : List Constraint) (focus : Node) (path : Option String) : List String :=
  constraints.filterMap fun constraint => constraint.query? focus path

/-- The verdict on one property of a shape. Its constraints are asked before its values are
walked. -/
def judgeProperty (validator : Validator) (nested : SubjectWalk) (subject : SubjectTree)
    (state : RunState) (shape : PropertyShape) : PropertyVerdict × RunState :=
  let values := subject.valuesFor shape.path
  let count := countValues shape.path values
  let violations := validator.violations shape.constraints subject.node (some shape.path)
  let asked := state.ask (queries shape.constraints subject.node (some shape.path))
  let reported := reportValues nested asked values
  let verdict : PropertyVerdict :=
    { name := shape.name
      description := shape.description
      path := shape.path
      requiredClass := shape.requiredClass
      minCount := shape.minCount
      maxCount := shape.maxCount
      actualCount := count
      values := reported.1
      valid := shape.admitsCount count &&
        shape.requiredClass.all (fun required => valuesMeetClass required values) &&
        !values.any EdgeTarget.isBlankText && violations.isEmpty
      tier := shape.tier
      violations := violations }
  (verdict, reported.2.recordVerdict verdict)

/-- The entry of a subject for one shape. The shape's own constraints are asked after its
properties are judged. -/
def judge (validator : Validator) (nested : SubjectWalk) (subject : SubjectTree)
    (state : RunState) (shape : NodeShape) : Entry × RunState :=
  let judged := threadMap (validator.judgeProperty nested subject) state shape.properties
  let violations := validator.violations shape.constraints subject.node none
  let asked := judged.2.ask (queries shape.constraints subject.node none)
  let entry : Entry :=
    { uri := subject.uri
      cls := subject.cls
      className := shortName subject.cls
      shapeId := some shape.id
      shapeName := some shape.name
      totalCount := judged.1.length
      validCount := some (judged.1.filter (·.valid)).length
      properties := .judged judged.1
      violations := violations }
  (entry, asked.recordViolations shape.tier violations)

/-- The distinct paths of edges with their targets, in the order of the first edge. -/
def groupEdges (edges : List Edge) : OrderedMap String (List EdgeTarget) :=
  edges.foldl (fun groups edge => groups.push edge.path edge.target) .empty

/-- One property of a subject that no shape targets. -/
def readProperty (nested : SubjectWalk) (state : RunState) (group : String × List EdgeTarget) :
    PropertyReading × RunState :=
  let reported := reportValues nested state group.2
  (⟨shortName group.1, group.1, reported.1, group.2.length⟩, reported.2)

/-- The entry of a subject that no shape targets. -/
def readPlain (nested : SubjectWalk) (subject : SubjectTree) (state : RunState) :
    Entry × RunState :=
  let read := threadMap (readProperty nested) state (groupEdges subject.edges).entries
  ({ uri := subject.uri
     cls := subject.cls
     className := shortName subject.cls
     shapeId := none
     shapeName := none
     totalCount := read.1.length
     validCount := none
     properties := .plain read.1
     violations := [] }, read.2)

/-- The verdict on a subject: one entry for each shape for its class, or one without a shape. -/
def verdictOn (validator : Validator) (nested : SubjectWalk) (subject : SubjectTree)
    (state : RunState) : Verdict × RunState :=
  match validator.shapes.shapesFor subject.cls with
  | [] =>
    let read := readPlain nested subject state
    (.unshaped read.1, read.2)
  | shapes =>
    let judged := threadMap (validator.judge nested subject) state shapes
    (.shaped judged.1, judged.2)

/-- The entries of a subject: those known already, none while its validation has not ended, and
otherwise those of its first copy. `depth` bounds how many subjects may be in progress at once. -/
def resolve (validator : Validator) (copies : FirstCopies) : Nat → SubjectWalk
  | 0, state, _ => (none, state)
  | depth + 1, state, subject =>
    match state.verdict? subject.uri with
    | some verdict => (some verdict.entries, state)
    | none =>
      if subject.uri ∈ state.inProgress then (none, state)
      else
        let walked := validator.verdictOn (validator.resolve copies depth)
          (copies.copyOf subject) (state.enter subject.uri)
        (some walked.1.entries, walked.2.leave subject.uri walked.1)

/-- The entries of a root of a forest. -/
def resolveRoot (validator : Validator) (copies : FirstCopies) : SubjectWalk :=
  validator.resolve copies (copies.size + 1)

/-- Validates the roots that are left, after `done` of `total`. -/
def validateFrom (validator : Validator) (copies : FirstCopies) (observer : Observer)
    (done total : Nat) : List SubjectTree → RunState → Except Failure (List Entry) × RunState
  | [], state => (.ok [], state)
  | root :: roots, state =>
    let progress : Progress := ⟨done, total, root.uri⟩
    let announced := state.announce progress
    match observer progress with
    | .error reason => (.error (.aborted reason), announced)
    | .ok () =>
      let walked := validator.resolveRoot copies announced root
      match validator.validateFrom copies observer (done + 1) total roots walked.2 with
      | (.error failure, state) => (.error failure, state)
      | (.ok entries, state) => (.ok (walked.1.getD [] ++ entries), state)

/-- Validates every root in order. The observer is asked before each and may stop the run. -/
def validateAll (validator : Validator) (observer : Observer) (roots : List SubjectTree)
    (state : RunState) : Except Failure (List Entry) × RunState :=
  validator.validateFrom (.ofForest roots) observer 0 roots.length roots state

/-- Validates one subject. -/
def validateOne (validator : Validator) (subject : SubjectTree) (state : RunState) :
    List Entry × RunState :=
  let walked := validator.resolveRoot (.ofForest [subject]) state subject
  (walked.1.getD [], walked.2)

end Validator

end PublicationAudit
