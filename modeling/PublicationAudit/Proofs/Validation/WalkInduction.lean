import PublicationAudit.Proofs.Validation.Runs

/-!
# What a walk keeps

A walk changes the state of its run in five ways only: it asks queries, begins and ends the
validation of a subject, and counts the findings of a property and of a shape. `WalkKeeps` says that
a property of states survives each of them. The main statement is `validateAll_keeps`: then it
survives every run, over any forest and however the observer ends it.
-/

namespace PublicationAudit

/-- A property of states that the steps of a walk keep. Findings are counted for properties and
shapes of the validator only. -/
structure WalkKeeps (validator : Validator) (P : RunState → Prop) : Prop where
  ask : ∀ state queries, P state → P (state.ask queries)
  enter : ∀ state uri, P state → P (state.enter uri)
  leave : ∀ state uri verdict, P state → P (state.leave uri verdict)
  recordVerdict : ∀ state, ∀ shape ∈ validator.shapes.shapes, ∀ property ∈ shape.properties,
    ∀ verdict : PropertyVerdict, verdict.tier = property.tier → P state →
      P (state.recordVerdict verdict)
  recordViolations : ∀ state, ∀ shape ∈ validator.shapes.shapes, ∀ violations, P state →
    P (state.recordViolations shape.tier violations)

/-- How nested subjects are treated keeps a property of states. -/
def SubjectWalk.Keeps (nested : SubjectWalk) (P : RunState → Prop) : Prop :=
  ∀ state subject, P state → P (nested state subject).2

variable {validator : Validator} {P : RunState → Prop} {nested : SubjectWalk}
  {subject : SubjectTree} {state : RunState}

/-- Reporting a value keeps what walks below it keep. -/
theorem reportValue_keeps (hnested : nested.Keeps P) (value : EdgeTarget) (hstate : P state) :
    P (reportValue nested state value).2 := by
  cases value with
  | literal text => exact hstate
  | reference key => exact hstate
  | nested child =>
      have hwalked := hnested state child hstate
      rw [reportValue]
      split <;> exact hwalked

/-- So does reporting the values of a property. -/
theorem reportValues_keeps (hnested : nested.Keeps P) (values : List EdgeTarget)
    (hstate : P state) : P (reportValues nested state values).2 :=
  threadMap_state_induction (fun _ value _ h => reportValue_keeps hnested value h) hstate

namespace WalkKeeps

variable (h : WalkKeeps validator P)

include h

/-- Judging a property of a shape. -/
theorem judgeProperty (hnested : nested.Keeps P) {shape : NodeShape}
    (hshape : shape ∈ validator.shapes.shapes) {property : PropertyShape}
    (hproperty : property ∈ shape.properties) (hstate : P state) :
    P (validator.judgeProperty nested subject state property).2 := by
  have hreported := reportValues_keeps hnested (subject.valuesFor property.path)
    (h.ask state (Validator.queries property.constraints subject.node (some property.path)) hstate)
  exact h.recordVerdict _ shape hshape property hproperty
    (validator.judgeProperty nested subject state property).1 rfl hreported

/-- Judging a subject for a shape. -/
theorem judge (hnested : nested.Keeps P) {shape : NodeShape}
    (hshape : shape ∈ validator.shapes.shapes) (hstate : P state) :
    P (validator.judge nested subject state shape).2 := by
  have hjudged : P (threadMap (validator.judgeProperty nested subject) state shape.properties).2 :=
    threadMap_state_induction
      (fun _ _ hproperty hbefore => h.judgeProperty hnested hshape hproperty hbefore) hstate
  exact h.recordViolations _ shape hshape _ (h.ask _ _ hjudged)

/-- The verdict on a subject. -/
theorem verdictOn (hnested : nested.Keeps P) (hstate : P state) :
    P (validator.verdictOn nested subject state).2 := by
  have hshapes : ∀ shape ∈ validator.shapes.shapesFor subject.cls,
      shape ∈ validator.shapes.shapes := fun shape hshape => (List.mem_filter.1 hshape).1
  unfold Validator.verdictOn
  split
  · exact threadMap_state_induction (f := Validator.readProperty nested)
      (fun _ group _ hbefore => reportValues_keeps hnested group.2 hbefore) hstate
  · exact threadMap_state_induction
      (fun _ shape hshape hbefore => h.judge hnested (hshapes shape hshape) hbefore) hstate

/-- A walk below a subject, of any depth. -/
theorem resolve (copies : FirstCopies) (depth : Nat) :
    SubjectWalk.Keeps (validator.resolve copies depth) P := by
  induction depth with
  | zero => exact fun _ _ hstate => hstate
  | succ depth ih =>
      intro state subject hstate
      rw [Validator.resolve]
      split
      · exact hstate
      · split
        · exact hstate
        · exact h.leave _ _ _ (h.verdictOn ih (h.enter state subject.uri hstate))

/-- A run over a forest, also one that its observer stops. -/
theorem validateAll (hannounce : ∀ state progress, P state → P (state.announce progress))
    (observer : Observer) (roots : List SubjectTree) (hstate : P state) :
    P (validator.validateAll observer roots state).2 :=
  Validator.validateFrom_induction 0 hannounce
    (fun before root _ hbefore => h.resolve _ _ before root hbefore) hstate

end WalkKeeps

end PublicationAudit
