import PublicationAudit.Maturity.Tally

/-!
# The state of a validation run

What a run has found so far: the verdict of every subject validated, the subjects whose validation
has begun but not ended, the tally, and what was asked of the query engine and announced to the
observer, in order.
-/

namespace PublicationAudit

/-- What is announced before a root is validated. -/
structure Progress where
  validated : Nat
  total : Nat
  uri : String
  deriving DecidableEq, Repr, Inhabited

/-- The observer of a run; a refusal, with its reason, stops the run. -/
abbrev Observer := Progress → Except String Unit

/-- The observer that never stops a run. -/
def Observer.silent : Observer := fun _ => .ok ()

/-- The state of a validation run. -/
structure RunState where
  verdicts : OrderedMap String Verdict
  inProgress : List String
  tally : Tally
  validations : Nat
  queries : List String
  announced : List Progress

namespace RunState

/-- The state before a run. -/
def fresh : RunState := ⟨.empty, [], .empty, 0, [], []⟩

instance : Inhabited RunState := ⟨fresh⟩

/-- The verdict of a subject that was validated. -/
def verdict? (state : RunState) (uri : String) : Option Verdict := state.verdicts.find? uri

/-- Notes the queries that were asked. -/
def ask (state : RunState) (queries : List String) : RunState :=
  { state with queries := state.queries ++ queries }

/-- Begins the validation of a subject. -/
def enter (state : RunState) (uri : String) : RunState :=
  { state with inProgress := uri :: state.inProgress, validations := state.validations + 1 }

/-- Ends the validation of a subject with its verdict. -/
def leave (state : RunState) (uri : String) (verdict : Verdict) : RunState :=
  { state with
    inProgress := state.inProgress.erase uri
    verdicts := state.verdicts.insert uri verdict }

/-- Counts a property when it is invalid and belongs to a tier. -/
def recordVerdict (state : RunState) (verdict : PropertyVerdict) : RunState :=
  match verdict.valid, verdict.tier with
  | false, some tier => { state with tally := state.tally.recordInvalid tier verdict }
  | _, _ => state

/-- Counts the violations of a shape's constraints when the shape belongs to a tier. -/
def recordViolations (state : RunState) (tier : Option Tier) (violations : List Violation) :
    RunState :=
  match tier with
  | some tier => { state with tally := state.tally.recordFailed tier violations }
  | none => state

/-- Counting a property changes the tally alone. -/
theorem recordVerdict_eq (state : RunState) (verdict : PropertyVerdict) :
    ∃ tally, state.recordVerdict verdict = { state with tally := tally } := by
  unfold recordVerdict
  split <;> exact ⟨_, rfl⟩

/-- So does counting violations. -/
theorem recordViolations_eq (state : RunState) (tier : Option Tier) (violations : List Violation) :
    ∃ tally, state.recordViolations tier violations = { state with tally := tally } := by
  unfold recordViolations
  split <;> exact ⟨_, rfl⟩

/-- Announces that a root comes next. -/
def announce (state : RunState) (progress : Progress) : RunState :=
  { state with announced := state.announced ++ [progress] }

end RunState

end PublicationAudit
