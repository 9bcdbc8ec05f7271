import PublicationAudit.Validation.Walk

/-!
# What a walk does not read

Of the state of a run a walk reads the verdicts and what is in progress, nothing else. `Unread` is a
change of the rest that each step of a walk leaves standing, such as the announcements that were
made. The main statement is `resolve_unread`: a walk below a subject answers alike before and after
such a change, and ends in states that differ by it.
-/

namespace PublicationAudit

namespace RunState

/-- A change of states that keeps what a walk reads, and that could as well be made after each step
of a walk. -/
structure Unread (change : RunState → RunState) : Prop where
  verdicts : ∀ state, (change state).verdicts = state.verdicts
  inProgress : ∀ state, (change state).inProgress = state.inProgress
  ask : ∀ state queries, (change state).ask queries = change (state.ask queries)
  enter : ∀ state uri, (change state).enter uri = change (state.enter uri)
  leave : ∀ state uri verdict, (change state).leave uri verdict = change (state.leave uri verdict)
  recordVerdict : ∀ state verdict,
    (change state).recordVerdict verdict = change (state.recordVerdict verdict)
  recordViolations : ∀ state tier violations,
    (change state).recordViolations tier violations = change (state.recordViolations tier violations)

/-- The state with other announcements. -/
def withAnnounced (state : RunState) (announced : List Progress) : RunState :=
  { state with announced := announced }

@[simp] theorem announced_withAnnounced (state : RunState) (announced : List Progress) :
    (state.withAnnounced announced).announced = announced := rfl

@[simp] theorem withAnnounced_withAnnounced (state : RunState) (announced other : List Progress) :
    (state.withAnnounced announced).withAnnounced other = state.withAnnounced other := rfl

/-- Announcements are not read. -/
theorem unread_withAnnounced (announced : List Progress) :
    Unread fun state => state.withAnnounced announced where
  verdicts _ := rfl
  inProgress _ := rfl
  ask _ _ := rfl
  enter _ _ := rfl
  leave _ _ _ := rfl
  recordVerdict _ _ := by
    unfold RunState.recordVerdict
    split <;> rfl
  recordViolations _ _ _ := by
    unfold RunState.recordViolations
    split <;> rfl

end RunState

/-- Whether a change is made before or after a step makes no difference to the step. -/
def Commutes {α β : Type} (change : RunState → RunState) (f : RunState → α → β × RunState) : Prop :=
  ∀ state a, f (change state) a = ((f state a).1, change (f state a).2)

variable {change : RunState → RunState} {validator : Validator} {nested : SubjectWalk}

/-- Nor does it to a walk over a list. -/
theorem Commutes.threadMap {α β : Type} {f : RunState → α → β × RunState} (h : Commutes change f) :
    Commutes change (threadMap f) := fun state as => by
  induction as generalizing state with
  | nil => rfl
  | cons a as ih => rw [threadMap_cons, h state a, ih, threadMap_cons]

/-- Values are reported alike. -/
theorem reportValues_commutes (hnested : Commutes change nested) :
    Commutes change (reportValues nested) := fun state values => by
  have hvalue : Commutes change (reportValue nested) := fun state value => by
    cases value with
    | literal text => rfl
    | reference key => rfl
    | nested child =>
        rw [reportValue, reportValue, hnested]
        cases (nested state child).1 <;> rfl
  rw [reportValues, reportValues, hvalue.threadMap]

namespace Validator

variable {subject : SubjectTree} (hchange : RunState.Unread change)

include hchange

/-- Properties are judged alike. -/
theorem judgeProperty_commutes (hnested : Commutes change nested) (subject : SubjectTree) :
    Commutes change (validator.judgeProperty nested subject) := fun state property => by
  simp only [judgeProperty, hchange.ask, reportValues_commutes hnested _ _, hchange.recordVerdict]

/-- So is a copy for a shape. -/
theorem judge_commutes (hnested : Commutes change nested) (subject : SubjectTree) :
    Commutes change (validator.judge nested subject) := fun state shape => by
  simp only [judge, (judgeProperty_commutes hchange hnested subject).threadMap _ _, hchange.ask,
    hchange.recordViolations]

omit hchange in
/-- A copy that no shape targets is read alike. -/
theorem readPlain_change (hnested : Commutes change nested) (subject : SubjectTree)
    (state : RunState) : readPlain nested subject (change state) =
      ((readPlain nested subject state).1, change (readPlain nested subject state).2) := by
  have hproperty : Commutes change (readProperty nested) := fun state group => by
    rw [readProperty, reportValues_commutes hnested]
    rfl
  simp only [readPlain, hproperty.threadMap _ _]

/-- The verdict on a copy is the same. -/
theorem verdictOn_change (hnested : Commutes change nested) (subject : SubjectTree)
    (state : RunState) : validator.verdictOn nested subject (change state) =
      ((validator.verdictOn nested subject state).1,
        change (validator.verdictOn nested subject state).2) := by
  simp only [verdictOn]
  cases validator.shapes.shapesFor subject.cls with
  | nil => simp only [readPlain_change hnested]
  | cons shape shapes => simp only [(judge_commutes hchange hnested subject).threadMap _ _]

/-- A walk below a subject answers alike, and ends in states that differ by the change. -/
theorem resolve_unread (validator : Validator) (copies : FirstCopies) (depth : Nat) :
    Commutes change (validator.resolve copies depth) := by
  induction depth with
  | zero => exact fun _ _ => rfl
  | succ depth ih =>
      intro state subject
      have hverdict : (change state).verdict? subject.uri = state.verdict? subject.uri := by
        rw [RunState.verdict?, hchange.verdicts, RunState.verdict?]
      rw [resolve, resolve, hverdict, hchange.inProgress, hchange.enter]
      cases state.verdict? subject.uri with
      | some verdict => rfl
      | none =>
          simp only [verdictOn_change hchange ih, hchange.leave]
          split <;> rfl

end Validator

end PublicationAudit
