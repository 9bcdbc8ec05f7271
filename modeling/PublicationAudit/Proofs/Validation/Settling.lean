import PublicationAudit.Proofs.Forest.FirstCopies
import PublicationAudit.Proofs.Validation.Knowledge

/-!
# A walk settles what it answers

Read `resolve_settles` first: below a subject of a closed map of first copies, a walk whose depth
exceeds the number of subjects not in progress ends with the same subjects in progress, forgets no
verdict, and answers as any later state would. It is built from one lemma for each part of the walk
over a copy, up to `verdictOn_settles`. `resolve_cases` says what a walk can do.
-/

namespace PublicationAudit

open RunState (Grows)

/-- A step of a run goes on as far as a sound run may, and answers as any later state would. -/
abbrev StepSettles (validator : Validator) (copies : FirstCopies) {α β : Type}
    (f : RunState → α → β × RunState) (g : Answers → α → β) (state : RunState) (a : α) : Prop :=
  Settles (Grows validator copies) RunState.Agrees f g state a

/-- Whenever a run comes to one of the subjects, it is answered for as any later state would. -/
def SubjectsSettle (validator : Validator) (copies : FirstCopies) (nested : SubjectWalk)
    (state : RunState) (subjects : List SubjectTree) : Prop :=
  ∀ later, Grows validator copies state later → ∀ subject ∈ subjects,
    StepSettles validator copies nested id later subject

variable {validator : Validator} {copies : FirstCopies} {nested : SubjectWalk}
  {state later : RunState} {subjects : List SubjectTree}

namespace SubjectsSettle

/-- What settles from a state on settles from a later one on. -/
theorem of_grows (h : SubjectsSettle validator copies nested state subjects)
    (hgrows : Grows validator copies state later) :
    SubjectsSettle validator copies nested later subjects :=
  fun latest hlatest => h latest (hgrows.trans hlatest)

/-- Some of the subjects. -/
theorem of_subset (h : SubjectsSettle validator copies nested state subjects)
    {fewer : List SubjectTree} (hsubset : fewer ⊆ subjects) :
    SubjectsSettle validator copies nested state fewer :=
  fun later hlater subject hsubject => h later hlater subject (hsubset hsubject)

end SubjectsSettle

/-- A walk over a list settles when its steps do. -/
theorem walk_settles {α β : Type} {f : RunState → α → β × RunState} {g : Answers → α → β}
    (as : List α)
    (h : ∀ later, Grows validator copies state later → ∀ a ∈ as,
      StepSettles validator copies f g later a) :
    Grows validator copies state (threadMap f state as).2 ∧ ∀ answers : Answers,
      (threadMap f state as).2.Agrees answers → (threadMap f state as).1 = as.map (g answers) :=
  threadMap_settles RunState.Agrees Grows.refl (fun hfirst hsecond => hfirst.trans hsecond)
    (fun hgrows hagrees => hgrows.agrees hagrees) h

/-- A value is reported as any later state would. -/
theorem reportValue_settles {value : EdgeTarget}
    (h : SubjectsSettle validator copies nested state value.nested?.toList) :
    StepSettles validator copies (reportValue nested) EdgeTarget.reported state value := by
  cases value with
  | literal text => exact ⟨Grows.refl state, fun _ _ => rfl⟩
  | reference key => exact ⟨Grows.refl state, fun _ _ => rfl⟩
  | nested child =>
      obtain ⟨hgrows, hanswer⟩ := h state (Grows.refl state) child (by simp [EdgeTarget.nested?])
      have hstate : (reportValue nested state (.nested child)).2 = (nested state child).2 := by
        rw [reportValue]
        split <;> rfl
      refine ⟨hstate ▸ hgrows, fun answers hagrees => ?_⟩
      have hsame : (nested state child).1 = answers child := hanswer answers (hstate ▸ hagrees)
      rw [EdgeTarget.reported, ← hsame, reportValue]
      cases (nested state child).1 <;> rfl

/-- So are the values of a property. -/
theorem reportValues_settles (values : List EdgeTarget)
    (h : SubjectsSettle validator copies nested state (nestedIn values)) :
    Grows validator copies state (reportValues nested state values).2 ∧ ∀ answers : Answers,
      (reportValues nested state values).2.Agrees answers →
        (reportValues nested state values).1 = values.flatMap (EdgeTarget.reported answers) := by
  obtain ⟨hgrows, hanswers⟩ := walk_settles (f := reportValue nested) values
    (fun later hlater value hvalue => reportValue_settles
      ((h.of_grows hlater).of_subset fun child hchild =>
        List.mem_filterMap.2 ⟨value, hvalue, by simpa using hchild⟩))
  refine ⟨hgrows, fun answers hagrees => ?_⟩
  show (threadMap (reportValue nested) state values).1.flatten = _
  rw [List.flatMap_def, hanswers answers hagrees]

namespace Validator

variable {subject : SubjectTree}

/-- The verdict on a property is the one that any later state gives. -/
theorem judgeProperty_settles (shape : PropertyShape)
    (h : SubjectsSettle validator copies nested state subject.children) :
    StepSettles validator copies (validator.judgeProperty nested subject)
      (validator.verdictOnProperty subject) state shape := by
  have hask : Grows validator copies state
      (state.ask (queries shape.constraints subject.node (some shape.path))) := Grows.ask state _
  obtain ⟨hgrows, hanswers⟩ := reportValues_settles (subject.valuesFor shape.path)
    ((h.of_grows hask).of_subset (nestedIn_valuesFor_subset subject shape.path))
  have hrecord : Grows validator copies _ (validator.judgeProperty nested subject state shape).2 :=
    Grows.recordVerdict
      (reportValues nested (state.ask (queries shape.constraints subject.node (some shape.path)))
        (subject.valuesFor shape.path)).2
      (validator.judgeProperty nested subject state shape).1
  refine ⟨hask.trans (hgrows.trans hrecord), fun answers hagrees => ?_⟩
  rw [verdictOnProperty, ← hanswers answers (hrecord.agrees hagrees)]
  rfl

/-- The entry for a shape is the one that any later state gives. -/
theorem judge_settles (shape : NodeShape)
    (h : SubjectsSettle validator copies nested state subject.children) :
    StepSettles validator copies (validator.judge nested subject) (validator.shapedEntry subject)
      state shape := by
  obtain ⟨hgrows, hverdicts⟩ := walk_settles (f := validator.judgeProperty nested subject)
    shape.properties (fun later hlater property _ => judgeProperty_settles property
      (h.of_grows hlater))
  have hask : Grows validator copies _ _ :=
    Grows.ask (threadMap (validator.judgeProperty nested subject) state shape.properties).2
      (queries shape.constraints subject.node none)
  have hrecord : Grows validator copies _ (validator.judge nested subject state shape).2 :=
    Grows.recordViolations
      ((threadMap (validator.judgeProperty nested subject) state shape.properties).2.ask
        (queries shape.constraints subject.node none)) shape.tier
      (validator.violations shape.constraints subject.node none)
  refine ⟨hgrows.trans (hask.trans hrecord), fun answers hagrees => ?_⟩
  rw [shapedEntry, ← hverdicts answers (hask.agrees (hrecord.agrees hagrees))]
  rfl

/-- A property without a shape is reported as any later state would. -/
theorem readProperty_settles {group : String × List EdgeTarget}
    (h : SubjectsSettle validator copies nested state (nestedIn group.2)) :
    StepSettles validator copies (readProperty nested) propertyReading state group := by
  obtain ⟨hgrows, hanswers⟩ := reportValues_settles group.2 h
  refine ⟨hgrows, fun answers hagrees => ?_⟩
  rw [propertyReading, ← hanswers answers hagrees]
  rfl

/-- The entry without a shape is the one that any later state gives. -/
theorem readPlain_settles (h : SubjectsSettle validator copies nested state subject.children) :
    Grows validator copies state (readPlain nested subject state).2 ∧ ∀ answers : Answers,
      (readPlain nested subject state).2.Agrees answers →
        (readPlain nested subject state).1 = plainEntry subject answers := by
  obtain ⟨hgrows, hreadings⟩ := walk_settles (f := readProperty nested)
    (groupEdges subject.edges).entries (fun later hlater group hgroup => readProperty_settles
      ((h.of_grows hlater).of_subset (nestedIn_groups_subset hgroup)))
  refine ⟨hgrows, fun answers hagrees => ?_⟩
  rw [plainEntry, ← hreadings answers hagrees]
  rfl

/-- The verdict on a copy is the one that any later state gives. -/
theorem verdictOn_settles (h : SubjectsSettle validator copies nested state subject.children) :
    Grows validator copies state (validator.verdictOn nested subject state).2 ∧
      ∀ answers : Answers, (validator.verdictOn nested subject state).2.Agrees answers →
        (validator.verdictOn nested subject state).1 = validator.verdictFrom answers subject := by
  unfold verdictOn verdictFrom
  cases hshapes : validator.shapes.shapesFor subject.cls with
  | nil =>
      obtain ⟨hgrows, hentry⟩ := readPlain_settles h
      exact ⟨hgrows, fun answers hagrees => congrArg Verdict.unshaped (hentry answers hagrees)⟩
  | cons shape shapes =>
      obtain ⟨hgrows, hentries⟩ := walk_settles (f := validator.judge nested subject)
        (shape :: shapes) (fun later hlater shape _ => judge_settles shape (h.of_grows hlater))
      exact ⟨hgrows, fun answers hagrees => congrArg Verdict.shaped (hentries answers hagrees)⟩

/-! ## A walk below a subject -/

/-- What a walk does at a subject: it answers from what it knows, does not unfold a subject in
progress, and validates the first copy of any other. -/
theorem resolve_cases (validator : Validator) (copies : FirstCopies) (depth : Nat)
    (state : RunState) (subject : SubjectTree) :
    (∃ verdict, state.verdict? subject.uri = some verdict ∧
      validator.resolve copies (depth + 1) state subject = (some verdict.entries, state)) ∨
    (subject.uri ∈ state.inProgress ∧
      validator.resolve copies (depth + 1) state subject = (none, state)) ∨
    (state.verdict? subject.uri = none ∧ subject.uri ∉ state.inProgress ∧
      ∃ verdict after, validator.verdictOn (validator.resolve copies depth)
          (copies.copyOf subject) (state.enter subject.uri) = (verdict, after) ∧
        validator.resolve copies (depth + 1) state subject =
          (some verdict.entries, after.leave subject.uri verdict)) := by
  cases hverdict : state.verdict? subject.uri with
  | some verdict => exact .inl ⟨verdict, rfl, by simp [resolve, hverdict]⟩
  | none =>
      by_cases hin : subject.uri ∈ state.inProgress
      · exact .inr (.inl ⟨hin, by simp [resolve, hverdict, hin]⟩)
      · let walked := validator.verdictOn (validator.resolve copies depth)
          (copies.copyOf subject) (state.enter subject.uri)
        exact .inr (.inr ⟨rfl, hin, walked.1, walked.2, rfl, by
          simp [resolve, hverdict, hin, walked]⟩)

/-- Below a subject of a closed map, whose subjects in progress all lead to it, a walk of sufficient
depth settles. -/
theorem resolve_settles (hcopies : copies.Complete) {depth : Nat}
    (hknown : copies.contains subject.uri = true) (hsound : state.Sound validator copies)
    (hdepth : unmet copies.keys state.inProgress < depth)
    (hleads : ∀ above ∈ state.inProgress,
      Relation.ReflTransGen copies.Nests above subject.uri) :
    StepSettles validator copies (validator.resolve copies depth) id state subject := by
  induction depth generalizing state subject with
  | zero => omega
  | succ depth ih =>
      rcases resolve_cases validator copies depth state subject with
        ⟨verdict, hverdict, hresolve⟩ | ⟨hin, hresolve⟩ |
        ⟨hnew, hout, verdict, after, hwalk, hresolve⟩
      · -- A subject with a verdict is not in progress, so answers have to be that verdict.
        have hout : subject.uri ∉ state.inProgress := fun hin => by
          rw [hsound.separate _ hin] at hverdict
          cases hverdict
        simp only [StepSettles, Settles, hresolve]
        exact ⟨.refl state, fun answers hagrees =>
          ((hagrees subject).2 hout verdict hverdict).symm⟩
      · simp only [StepSettles, Settles, hresolve]
        exact ⟨.refl state, fun answers hagrees => ((hagrees subject).1 hin).symm⟩
      · -- The subject joins those in progress: fewer are left for the walks below it, and all of
        -- those in progress lead to whatever its first copy nests.
        obtain ⟨copy, hcopy, -, hchildren⟩ := hcopies.exists_copy hknown
        have hfewer : unmet copies.keys (subject.uri :: state.inProgress) < depth := by
          have hlt := FirstCopies.unmet_enter_lt hknown hout
          omega
        have hbelow : SubjectsSettle validator copies (validator.resolve copies depth)
            (state.enter subject.uri) copy.children := fun later hlater child hchild => by
          have hinProgress : later.inProgress = subject.uri :: state.inProgress :=
            hlater.inProgress
          have hstep : copies.Nests subject.uri child.uri := ⟨copy, hcopy, child, hchild, rfl⟩
          refine ih (hchildren child hchild) (hlater.sound (hsound.enter hnew))
            (by rwa [hinProgress]) (fun above habove => ?_)
          rw [hinProgress] at habove
          rcases List.mem_cons.1 habove with rfl | hold
          · exact .single hstep
          · exact (hleads above hold).tail hstep
        obtain ⟨hgrows, hgiven⟩ := verdictOn_settles hbelow
        rw [copies.copyOf_eq hcopy] at hwalk
        simp only [hwalk] at hgrows hgiven
        have hleave : Grows validator copies state (after.leave subject.uri verdict) :=
          .leave hsound hnew hout hgrows hcopy hleads hgiven
        simp only [StepSettles, Settles, hresolve]
        refine ⟨hleave, fun answers hagrees => ?_⟩
        have hanswer := (hagrees subject).2 (by rwa [hleave.inProgress]) verdict
          (by rw [RunState.verdict?_leave, if_pos rfl])
        exact hanswer.symm

end Validator

end PublicationAudit
