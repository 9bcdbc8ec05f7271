import PublicationAudit.Proofs.Validation.Questions

/-!
# Sequences of validations

One state can serve several calls, for single subjects and for whole forests, in any order; what one
call has validated the next ones find. `runAll_idle` and `runAll_known` say what holds between calls:
nothing is in progress, and a verdict that is known stays.
-/

namespace PublicationAudit

/-- What a validator is asked for. An observer that remembers what it was told is covered as well: a
run announces every root once, so its answers are a function of the announcements. -/
inductive ValidationCall where
  /-- One subject on its own. -/
  | one (subject : SubjectTree)
  /-- Every root of a forest, as long as the observer lets the run go on. -/
  | all (observer : Observer) (roots : List SubjectTree)

namespace ValidationCall

/-- The forest from whose first copies a call validates. -/
def roots : ValidationCall → List SubjectTree
  | one subject => [subject]
  | all _ roots => roots

/-- What a call answers, and the state that it leaves. -/
def run (validator : Validator) (state : RunState) :
    ValidationCall → Except Failure (List Entry) × RunState
  | one subject =>
    let validated := validator.validateOne subject state
    (.ok validated.1, validated.2)
  | all observer roots => validator.validateAll observer roots state

/-- What a sequence of calls answers, and the state that it leaves. -/
def runAll (validator : Validator) (state : RunState) (calls : List ValidationCall) :
    List (Except Failure (List Entry)) × RunState :=
  threadMap (run validator) state calls

variable {validator : Validator} {state : RunState} {uri : String} {verdict : Verdict}

/-- A sequence of calls is answered by answering its two parts one after the other. -/
theorem runAll_append (validator : Validator) (state : RunState)
    (calls more : List ValidationCall) :
    runAll validator state (calls ++ more) =
      ((runAll validator state calls).1 ++
          (runAll validator (runAll validator state calls).2 more).1,
        (runAll validator (runAll validator state calls).2 more).2) :=
  threadMap_append ..

/-- A call validates first copies of its forest and asks their questions, nothing else. -/
theorem run_asks (validator : Validator) (state : RunState) (call : ValidationCall) :
    RunState.Asks validator (.ofForest call.roots) state (call.run validator state).2 [] := by
  cases call with
  | one subject => exact Validator.resolveRoot_asks validator List.mem_cons_self state
  | all observer roots => exact Validator.validateAll_asks validator observer roots state

/-- Calls end with the subjects in progress with which they began, and add verdicts to those that
were known. -/
theorem runAll_advances (validator : Validator) (state : RunState) (calls : List ValidationCall) :
    state.Advances (runAll validator state calls).2 :=
  threadMap_state_induction (P := state.Advances)
    (fun before call _ h => h.trans (run_asks validator before call).advances) (.refl state)

/-- Between calls nothing is in progress. -/
theorem runAll_idle (validator : Validator) (calls : List ValidationCall) :
    (runAll validator .fresh calls).2.inProgress = [] :=
  (runAll_advances validator .fresh calls).inProgress

/-- A verdict that is known between calls stays. -/
theorem runAll_known {calls : List ValidationCall} (more : List ValidationCall)
    (h : (runAll validator state calls).2.verdict? uri = some verdict) :
    (runAll validator state (calls ++ more)).2.verdict? uri = some verdict := by
  rw [runAll_append]
  exact (runAll_advances validator _ more).verdict?_eq h

end ValidationCall

end PublicationAudit
