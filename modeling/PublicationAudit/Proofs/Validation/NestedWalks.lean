import PublicationAudit.Proofs.Validation.Answers
import PublicationAudit.Proofs.Validation.Knowledge

/-!
# The walks below a copy

The verdict on a copy is reached by walks below the subjects that are nested in its values.
`verdictWalks` lists them, each with the state in which it begins. Two statements say that the list
is complete: the verdict depends on nothing else of how nested subjects are treated
(`verdictOn_congr`), and between the walks no subject is begun and no verdict reached
(`verdictOn_walks`).
-/

namespace PublicationAudit

namespace Validator

/-- The walks below the values of a property. -/
def valueWalks (nested : SubjectWalk) (state : RunState) (values : List EdgeTarget) :
    List (RunState × SubjectTree) :=
  threadCollect (reportValue nested) (fun state value => value.nested?.toList.map (state, ·)) state
    values

/-- The walks below a property of a shape. -/
def propertyWalks (nested : SubjectWalk) (copy : SubjectTree) (state : RunState)
    (property : PropertyShape) : List (RunState × SubjectTree) :=
  valueWalks nested (state.ask (queries property.constraints copy.node (some property.path)))
    (copy.valuesFor property.path)

/-- The walks below a copy for one of the shapes for its class. -/
def shapeWalks (validator : Validator) (nested : SubjectWalk) (copy : SubjectTree)
    (state : RunState) (shape : NodeShape) : List (RunState × SubjectTree) :=
  threadCollect (validator.judgeProperty nested copy) (propertyWalks nested copy) state
    shape.properties

/-- The walks below a copy that no shape targets. -/
def plainWalks (nested : SubjectWalk) (copy : SubjectTree) (state : RunState) :
    List (RunState × SubjectTree) :=
  threadCollect (readProperty nested) (fun state group => valueWalks nested state group.2) state
    (groupEdges copy.edges).entries

/-- The walks below a copy, in order, each with the state in which it begins. -/
def verdictWalks (validator : Validator) (nested : SubjectWalk) (copy : SubjectTree)
    (state : RunState) : List (RunState × SubjectTree) :=
  match validator.shapes.shapesFor copy.cls with
  | [] => plainWalks nested copy state
  | shapes =>
    threadCollect (validator.judge nested copy) (validator.shapeWalks nested copy) state shapes

variable {validator : Validator} {nested other : SubjectWalk} {copy : SubjectTree}
  {state : RunState}

/-! ## The verdict depends on these walks -/

/-- Two ways of treating nested subjects agree on the walks that are in both lists. -/
def AgreeOn (nested other : SubjectWalk) (walks others : List (RunState × SubjectTree)) : Prop :=
  ∀ walk ∈ walks, walk ∈ others → nested walk.1 walk.2 = other walk.1 walk.2

/-- Values are reported alike where the walks below them agree. -/
theorem reportValues_congr {values : List EdgeTarget}
    (h : AgreeOn nested other (valueWalks nested state values) (valueWalks other state values)) :
    reportValues nested state values = reportValues other state values ∧
      valueWalks nested state values = valueWalks other state values := by
  have hsteps : threadMap (reportValue nested) state values =
        threadMap (reportValue other) state values ∧
      valueWalks nested state values = valueWalks other state values := by
    refine threadCollect_congr fun t value hcomes hcomes' => ⟨?_, rfl⟩
    cases value with
    | literal text => rfl
    | reference key => rfl
    | nested child =>
        have hsame : nested t child = other t child := h (t, child)
          (mem_threadCollect.2 ⟨t, _, hcomes, List.mem_singleton_self _⟩)
          (mem_threadCollect.2 ⟨t, _, hcomes', List.mem_singleton_self _⟩)
        rw [reportValue, reportValue, hsame]
  exact ⟨by rw [reportValues, reportValues, hsteps.1], hsteps.2⟩

/-- A property is judged alike. -/
theorem judgeProperty_congr (validator : Validator) {property : PropertyShape}
    (h : AgreeOn nested other (propertyWalks nested copy state property)
      (propertyWalks other copy state property)) :
    validator.judgeProperty nested copy state property =
        validator.judgeProperty other copy state property ∧
      propertyWalks nested copy state property = propertyWalks other copy state property := by
  obtain ⟨hvalues, hwalks⟩ := reportValues_congr h
  exact ⟨by rw [judgeProperty, judgeProperty, hvalues], hwalks⟩

/-- A copy is judged alike for a shape. -/
theorem judge_congr {shape : NodeShape}
    (h : AgreeOn nested other (validator.shapeWalks nested copy state shape)
      (validator.shapeWalks other copy state shape)) :
    validator.judge nested copy state shape = validator.judge other copy state shape ∧
      validator.shapeWalks nested copy state shape =
        validator.shapeWalks other copy state shape := by
  have hsteps : threadMap (validator.judgeProperty nested copy) state shape.properties =
        threadMap (validator.judgeProperty other copy) state shape.properties ∧
      validator.shapeWalks nested copy state shape =
        validator.shapeWalks other copy state shape :=
    threadCollect_congr fun t property hcomes hcomes' =>
      judgeProperty_congr validator fun walk hwalk hwalk' => h walk
        (mem_threadCollect.2 ⟨t, property, hcomes, hwalk⟩)
        (mem_threadCollect.2 ⟨t, property, hcomes', hwalk'⟩)
  exact ⟨by rw [judge, judge, hsteps.1], hsteps.2⟩

/-- A copy that no shape targets is read alike. -/
theorem readPlain_congr
    (h : AgreeOn nested other (plainWalks nested copy state) (plainWalks other copy state)) :
    readPlain nested copy state = readPlain other copy state ∧
      plainWalks nested copy state = plainWalks other copy state := by
  have hsteps : threadMap (readProperty nested) state (groupEdges copy.edges).entries =
        threadMap (readProperty other) state (groupEdges copy.edges).entries ∧
      plainWalks nested copy state = plainWalks other copy state := by
    refine threadCollect_congr fun t group hcomes hcomes' => ?_
    have hagree : AgreeOn nested other (valueWalks nested t group.2)
        (valueWalks other t group.2) := fun walk hwalk hwalk' => h walk
      (mem_threadCollect.2 ⟨t, group, hcomes, hwalk⟩)
      (mem_threadCollect.2 ⟨t, group, hcomes', hwalk'⟩)
    obtain ⟨hvalues, hwalks⟩ := reportValues_congr hagree
    exact ⟨by rw [readProperty, readProperty, hvalues], hwalks⟩
  exact ⟨by rw [readPlain, readPlain, hsteps.1], hsteps.2⟩

/-- The verdict on a copy depends only on how the subjects are treated that it walks to. -/
theorem verdictOn_congr
    (h : AgreeOn nested other (validator.verdictWalks nested copy state)
      (validator.verdictWalks other copy state)) :
    validator.verdictOn nested copy state = validator.verdictOn other copy state ∧
      validator.verdictWalks nested copy state = validator.verdictWalks other copy state := by
  unfold verdictOn verdictWalks at *
  cases hshapes : validator.shapes.shapesFor copy.cls with
  | nil =>
      simp only [hshapes] at h ⊢
      obtain ⟨hread, hwalks⟩ := readPlain_congr h
      exact ⟨by rw [hread], hwalks⟩
  | cons shape shapes =>
      simp only [hshapes] at h ⊢
      obtain ⟨hjudged, hwalks⟩ := threadCollect_congr (f := validator.judge nested copy)
        (g := validator.judge other copy) fun t shape hcomes hcomes' =>
        judge_congr fun walk hwalk hwalk' => h walk
          (mem_threadCollect.2 ⟨t, shape, hcomes, hwalk⟩)
          (mem_threadCollect.2 ⟨t, shape, hcomes', hwalk'⟩)
      exact ⟨by rw [hjudged], hwalks⟩

/-! ## They are walks below children -/

/-- The walks below values are walks below subjects that they nest. -/
theorem valueWalks_subset {values : List EdgeTarget} {walk : RunState × SubjectTree}
    (h : walk ∈ valueWalks nested state values) : walk.2 ∈ nestedIn values := by
  obtain ⟨t, value, hcomes, hwalk⟩ := mem_threadCollect.1 h
  obtain ⟨child, hchild, rfl⟩ := List.mem_map.1 hwalk
  exact List.mem_filterMap.2 ⟨value, hcomes.mem, by simpa using hchild⟩

/-- The walks below a copy are walks below children of it. -/
theorem verdictWalks_subset {walk : RunState × SubjectTree}
    (h : walk ∈ validator.verdictWalks nested copy state) : walk.2 ∈ copy.children := by
  unfold verdictWalks at h
  split at h
  · obtain ⟨t, group, hcomes, hwalk⟩ := mem_threadCollect.1 h
    exact nestedIn_groups_subset hcomes.mem (valueWalks_subset hwalk)
  · obtain ⟨t, shape, -, hshape⟩ := mem_threadCollect.1 h
    obtain ⟨t', property, -, hwalk⟩ := mem_threadCollect.1 hshape
    exact nestedIn_valuesFor_subset copy property.path (valueWalks_subset hwalk)

end Validator

/-! ## Between the walks nothing is begun or reached -/

/-- The listed walks are made one after the other on the way from one state to another, and between
them no subject is begun and no verdict reached. -/
inductive NestedWalks (nested : SubjectWalk) :
    RunState → List (RunState × SubjectTree) → RunState → Prop where
  | done {before after : RunState} (h : before.Alike after) : NestedWalks nested before [] after
  | walk {before state after : RunState} {subject : SubjectTree}
      {walks : List (RunState × SubjectTree)} (h : before.Alike state)
      (hrest : NestedWalks nested (nested state subject).2 walks after) :
      NestedWalks nested before ((state, subject) :: walks) after

namespace NestedWalks

variable {nested : SubjectWalk} {before mid after : RunState}
  {walks more : List (RunState × SubjectTree)}

/-- A change that begins and reaches nothing, before the walks. -/
theorem after_alike (halike : before.Alike mid) (h : NestedWalks nested mid walks after) :
    NestedWalks nested before walks after := by
  cases h with
  | done h => exact .done (halike.trans h)
  | walk h hrest => exact .walk (halike.trans h) hrest

/-- Some walks and then others. -/
theorem append (h : NestedWalks nested before walks mid)
    (hmore : NestedWalks nested mid more after) :
    NestedWalks nested before (walks ++ more) after := by
  induction h with
  | done halike => exact hmore.after_alike halike
  | walk halike _ ih => exact .walk halike (ih hmore)

/-- A change that begins and reaches nothing, after the walks. -/
theorem before_alike (h : NestedWalks nested before walks mid) (halike : mid.Alike after) :
    NestedWalks nested before walks after := by
  rw [← List.append_nil walks]
  exact h.append (.done halike)

/-- The walks that the steps of a walk over a list make, one step after the other. -/
theorem of_threadCollect {α β : Type} {f : RunState → α → β × RunState}
    {own : RunState → α → List (RunState × SubjectTree)}
    (h : ∀ state a, NestedWalks nested state (own state a) (f state a).2) (as : List α)
    (state : RunState) :
    NestedWalks nested state (threadCollect f own state as)
      (threadMap f state as).2 := by
  induction as generalizing state with
  | nil => exact .done (.refl state)
  | cons a as ih => exact (h state a).append (ih (f state a).2)

/-- Where no walk changes which subjects are in progress, these are the same at each of them and at
the end. -/
theorem inProgress_eq (h : NestedWalks nested before walks after)
    (hkeeps : ∀ walk ∈ walks, (nested walk.1 walk.2).2.inProgress = walk.1.inProgress) :
    (∀ walk ∈ walks, walk.1.inProgress = before.inProgress) ∧
      after.inProgress = before.inProgress := by
  induction h with
  | done halike => exact ⟨by simp, halike.inProgress⟩
  | walk halike _ ih =>
      obtain ⟨hhead, htail⟩ := List.forall_mem_cons.1 hkeeps
      obtain ⟨hwalks, hend⟩ := ih htail
      have hstate := hhead.trans halike.inProgress
      exact ⟨List.forall_mem_cons.2 ⟨halike.inProgress, fun walk hwalk =>
        (hwalks walk hwalk).trans hstate⟩, hend.trans hstate⟩

end NestedWalks

namespace Validator

/-- Reporting values makes the walks below them. -/
theorem reportValues_walks (nested : SubjectWalk) (state : RunState) (values : List EdgeTarget) :
    NestedWalks nested state (valueWalks nested state values)
      (reportValues nested state values).2 := by
  refine .of_threadCollect (f := reportValue nested) (fun state value => ?_) values state
  cases value with
  | literal text => exact .done (.refl state)
  | reference key => exact .done (.refl state)
  | nested child =>
      have hafter : (reportValue nested state (.nested child)).2 = (nested state child).2 := by
        rw [reportValue]
        split <;> rfl
      rw [hafter]
      exact .walk (.refl state) (.done (.refl _))

/-- Judging a property makes the walks below its values. -/
theorem judgeProperty_walks (validator : Validator) (nested : SubjectWalk) (copy : SubjectTree)
    (state : RunState) (property : PropertyShape) :
    NestedWalks nested state (propertyWalks nested copy state property)
      (validator.judgeProperty nested copy state property).2 := by
  have hasked := RunState.Alike.ask state
    (queries property.constraints copy.node (some property.path))
  have hvalues := reportValues_walks nested
    (state.ask (queries property.constraints copy.node (some property.path)))
    (copy.valuesFor property.path)
  exact (hvalues.after_alike hasked).before_alike
    (.recordVerdict _ (validator.judgeProperty nested copy state property).1)

/-- Judging a copy for a shape makes the walks below its properties. -/
theorem judge_walks (validator : Validator) (nested : SubjectWalk) (copy : SubjectTree)
    (state : RunState) (shape : NodeShape) :
    NestedWalks nested state (validator.shapeWalks nested copy state shape)
      (validator.judge nested copy state shape).2 := by
  have hproperties := NestedWalks.of_threadCollect (f := validator.judgeProperty nested copy)
    (fun state property => validator.judgeProperty_walks nested copy state property)
    shape.properties state
  exact (hproperties.before_alike (.ask _ (queries shape.constraints copy.node none))).before_alike
    (.recordViolations _ shape.tier (validator.violations shape.constraints copy.node none))

/-- The verdict on a copy is reached by the walks below it. -/
theorem verdictOn_walks (validator : Validator) (nested : SubjectWalk) (copy : SubjectTree)
    (state : RunState) :
    NestedWalks nested state (validator.verdictWalks nested copy state)
      (validator.verdictOn nested copy state).2 := by
  unfold verdictOn verdictWalks
  cases validator.shapes.shapesFor copy.cls with
  | nil =>
      exact .of_threadCollect (f := readProperty nested)
        (fun state group => reportValues_walks nested state group.2) _ state
  | cons shape shapes =>
      exact .of_threadCollect (f := validator.judge nested copy)
        (fun state shape => validator.judge_walks nested copy state shape) (shape :: shapes) state

end Validator

end PublicationAudit
