import Mathlib.Logic.Relation
import PublicationAudit.Proofs.Validation.Answers

/-!
# What a state of a run knows

Read `RunState.Sound` first. A state is sound when no subject in progress has a verdict and every
verdict is explained: it is the one on the first copy of its subject, from the verdicts of the
subjects nested there. Only a subject on the stack on which that verdict was reached stays folded,
and everything on the stack leads to the subject. `RunState.Grows` relates the states at the two
ends of a walk: a sound state stays sound, and what is known stays known.
-/

namespace PublicationAudit

/-- A subject nests another when its first copy does. -/
def FirstCopies.Nests (copies : FirstCopies) (uri nested : String) : Prop :=
  ∃ copy, copies.find? uri = some copy ∧ ∃ child ∈ copy.children, child.uri = nested

namespace RunState

/-- Answers that a state leaves open: a subject on the stack is not unfolded, any other that has a
verdict is answered for by it. -/
def Allows (state : RunState) (stack : List String) (answers : Answers) : Prop :=
  ∀ subject : SubjectTree, (subject.uri ∈ stack → answers subject = none) ∧
    (subject.uri ∉ stack → ∀ verdict, state.verdict? subject.uri = some verdict →
      answers subject = some verdict.entries)

/-- Answers that agree with a state whose subjects in progress are the stack. -/
def Agrees (state : RunState) (answers : Answers) : Prop := state.Allows state.inProgress answers

/-- A verdict is the one on the first copy of its subject, from what the state answers for all but
the subjects of a stack, each of which leads to the subject. -/
structure Explains (validator : Validator) (copies : FirstCopies) (state : RunState) (uri : String)
    (verdict : Verdict) (copy : SubjectTree) (stack : List String) : Prop where
  found : copies.find? uri = some copy
  leads : ∀ above ∈ stack, Relation.ReflTransGen copies.Nests above uri
  given : ∀ answers, state.Allows stack answers → verdict = validator.verdictFrom answers copy

/-- No subject in progress has a verdict, and every verdict is explained. -/
structure Sound (validator : Validator) (copies : FirstCopies) (state : RunState) : Prop where
  separate : ∀ uri ∈ state.inProgress, state.verdict? uri = none
  explained : ∀ uri verdict, state.verdict? uri = some verdict →
    ∃ copy stack, state.Explains validator copies uri verdict copy stack

/-- A walk that begins and ends with the same subjects in progress, forgets no verdict, and reaches
only verdicts that are explained. -/
structure Grows (validator : Validator) (copies : FirstCopies) (before after : RunState) :
    Prop where
  inProgress : after.inProgress = before.inProgress
  verdicts : ∀ uri verdict, before.verdict? uri = some verdict → after.verdict? uri = some verdict
  sound : before.Sound validator copies → after.Sound validator copies

variable {validator : Validator} {copies : FirstCopies} {before mid after : RunState}
  {stack : List String} {answers : Answers}

/-- Two states that differ at most in findings, queries and announcements. -/
structure Alike (before after : RunState) : Prop where
  inProgress : after.inProgress = before.inProgress
  verdicts : after.verdicts = before.verdicts
  validations : after.validations = before.validations

namespace Alike

/-- A state is like itself. -/
theorem refl (state : RunState) : state.Alike state := ⟨rfl, rfl, rfl⟩

/-- What is alike in two steps is alike. -/
theorem trans (h : before.Alike mid) (hmore : mid.Alike after) : before.Alike after :=
  ⟨hmore.inProgress.trans h.inProgress, hmore.verdicts.trans h.verdicts,
    hmore.validations.trans h.validations⟩

/-- Asking queries. -/
theorem ask (state : RunState) (queries : List String) : state.Alike (state.ask queries) :=
  ⟨rfl, rfl, rfl⟩

/-- Announcing a root. -/
theorem announce (state : RunState) (progress : Progress) :
    state.Alike (state.announce progress) := ⟨rfl, rfl, rfl⟩

/-- Counting a property. -/
theorem recordVerdict (state : RunState) (verdict : PropertyVerdict) :
    state.Alike (state.recordVerdict verdict) := by
  obtain ⟨tally, htally⟩ := state.recordVerdict_eq verdict
  rw [htally]
  exact ⟨rfl, rfl, rfl⟩

/-- Counting the violations of a shape. -/
theorem recordViolations (state : RunState) (tier : Option Tier) (violations : List Violation) :
    state.Alike (state.recordViolations tier violations) := by
  obtain ⟨tally, htally⟩ := state.recordViolations_eq tier violations
  rw [htally]
  exact ⟨rfl, rfl, rfl⟩

end Alike

/-- A state that knows more leaves fewer answers open. -/
theorem Allows.of_verdicts (h : after.Allows stack answers)
    (hverdicts : ∀ uri verdict, before.verdict? uri = some verdict →
      after.verdict? uri = some verdict) : before.Allows stack answers := fun subject =>
  ⟨(h subject).1, fun hout verdict hv => (h subject).2 hout verdict (hverdicts _ verdict hv)⟩

/-- The answers that a state gives itself. -/
def answersUnder (state : RunState) (stack : List String) : Answers := fun subject =>
  if subject.uri ∈ stack then none else (state.verdict? subject.uri).map Verdict.entries

/-- A state leaves its own answers open. -/
theorem allows_answersUnder (state : RunState) (stack : List String) :
    state.Allows stack (state.answersUnder stack) := fun subject =>
  ⟨fun hin => by simp [answersUnder, hin], fun hout verdict hv => by
    simp [answersUnder, hout, hv]⟩

/-- An explanation holds as long as its verdicts are known. -/
theorem Explains.of_verdicts {uri : String} {verdict : Verdict} {copy : SubjectTree}
    (h : before.Explains validator copies uri verdict copy stack)
    (hverdicts : ∀ uri verdict, before.verdict? uri = some verdict →
      after.verdict? uri = some verdict) :
    after.Explains validator copies uri verdict copy stack :=
  ⟨h.found, h.leads, fun answers hallows => h.given answers (hallows.of_verdicts hverdicts)⟩

/-- Nothing is known before a run. -/
theorem sound_fresh (validator : Validator) (copies : FirstCopies) :
    fresh.Sound validator copies :=
  ⟨fun _ h => by simp [fresh] at h, fun _ _ h => by simp [fresh, verdict?] at h⟩

namespace Grows

/-- A walk that neither begins nor ends a validation. -/
theorem of_alike (h : before.Alike after) : Grows validator copies before after where
  inProgress := h.inProgress
  verdicts uri verdict hv := by
    rw [verdict?, h.verdicts]
    exact hv
  sound hsound := by
    have hsame : ∀ uri, after.verdict? uri = before.verdict? uri := fun uri => by
      rw [verdict?, verdict?, h.verdicts]
    refine ⟨fun uri huri => ?_, fun uri verdict hv => ?_⟩
    · rw [hsame]
      exact hsound.separate uri (h.inProgress ▸ huri)
    · rw [hsame] at hv
      obtain ⟨copy, stack, hexplains⟩ := hsound.explained uri verdict hv
      exact ⟨copy, stack, hexplains.of_verdicts fun other _ hother => (hsame other).trans hother⟩

/-- A walk that changes nothing. -/
theorem refl (state : RunState) : Grows validator copies state state :=
  .of_alike (.refl state)

/-- One walk after another. -/
theorem trans (h : Grows validator copies before mid) (hmore : Grows validator copies mid after) :
    Grows validator copies before after :=
  ⟨hmore.inProgress.trans h.inProgress, fun uri verdict hv =>
    hmore.verdicts uri verdict (h.verdicts uri verdict hv), fun hs => hmore.sound (h.sound hs)⟩

/-- What agrees with a later state agrees with an earlier one. -/
theorem agrees (h : Grows validator copies before after) (hagrees : after.Agrees answers) :
    before.Agrees answers := by
  have hallows : after.Allows before.inProgress answers := h.inProgress ▸ hagrees
  exact hallows.of_verdicts h.verdicts

/-- Asking queries changes neither verdicts nor what is in progress. -/
theorem ask (state : RunState) (queries : List String) :
    Grows validator copies state (state.ask queries) := .of_alike (.ask state queries)

/-- Nor does counting an invalid property. -/
theorem recordVerdict (state : RunState) (verdict : PropertyVerdict) :
    Grows validator copies state (state.recordVerdict verdict) :=
  .of_alike (.recordVerdict state verdict)

/-- Nor does counting the violations of a shape. -/
theorem recordViolations (state : RunState) (tier : Option Tier) (violations : List Violation) :
    Grows validator copies state (state.recordViolations tier violations) :=
  .of_alike (.recordViolations state tier violations)

/-- Nor does announcing a root. -/
theorem announce (state : RunState) (progress : Progress) :
    Grows validator copies state (state.announce progress) := .of_alike (.announce state progress)

end Grows

/-! ## Beginning and ending a validation -/

section Ending

variable {uri : String} {verdict : Verdict}

/-- A lookup after a validation ended. -/
theorem verdict?_leave (state : RunState) (uri other : String) (verdict : Verdict) :
    (state.leave uri verdict).verdict? other =
      if other = uri then some verdict else state.verdict? other :=
  OrderedMap.find?_upsert state.verdicts uri other _

/-- Beginning the validation of a subject without a verdict keeps a state sound. -/
theorem Sound.enter (h : before.Sound validator copies) (hnew : before.verdict? uri = none) :
    (before.enter uri).Sound validator copies := by
  refine ⟨fun other hother => ?_, fun other known hknown => ?_⟩
  · rcases List.mem_cons.1 hother with rfl | hold
    · exact hnew
    · exact h.separate other hold
  · obtain ⟨copy, stack, hexplains⟩ := h.explained other known hknown
    exact ⟨copy, stack, hexplains.of_verdicts fun _ _ hsame => hsame⟩

/-- Ending a validation forgets no verdict when the subject had none. -/
theorem verdict?_leave_of_known {state : RunState} (hnone : state.verdict? uri = none)
    (other : String) (known : Verdict) (h : state.verdict? other = some known) :
    (state.leave uri verdict).verdict? other = some known := by
  have hne : other ≠ uri := fun he => by simp [he, hnone] at h
  rw [verdict?_leave, if_neg hne, h]

/-- A validation that ends with the verdict on the first copy of its subject: the walk from before
its beginning to after its end. -/
theorem Grows.leave {copy : SubjectTree} (hsound : before.Sound validator copies)
    (hnew : before.verdict? uri = none) (hout : uri ∉ before.inProgress)
    (hgrows : Grows validator copies (before.enter uri) after)
    (hcopy : copies.find? uri = some copy)
    (hleads : ∀ above ∈ before.inProgress, Relation.ReflTransGen copies.Nests above uri)
    (hgiven : ∀ answers, after.Agrees answers → verdict = validator.verdictFrom answers copy) :
    Grows validator copies before (after.leave uri verdict) := by
  have hafter := hgrows.sound (hsound.enter hnew)
  have hinProgress : after.inProgress = uri :: before.inProgress := hgrows.inProgress
  -- The subject was in progress all along, so the new verdict replaces none.
  have hnone : after.verdict? uri = none := hafter.separate uri (by simp [hinProgress])
  have hkeeps : ∀ other known, after.verdict? other = some known →
      (after.leave uri verdict).verdict? other = some known := verdict?_leave_of_known hnone
  have hexplains : (after.leave uri verdict).Explains validator copies uri verdict copy
      (uri :: before.inProgress) := by
    refine ⟨hcopy, fun above habove => ?_, fun answers hallows => hgiven answers ?_⟩
    · rcases List.mem_cons.1 habove with rfl | hold
      · exact .refl
      · exact hleads above hold
    · rw [Agrees, hinProgress]
      exact hallows.of_verdicts hkeeps
  have hleft : (after.leave uri verdict).inProgress = before.inProgress := by
    show after.inProgress.erase uri = before.inProgress
    rw [hinProgress, List.erase_cons_head]
  refine ⟨hleft, fun other known hknown => hkeeps other known (hgrows.verdicts other known hknown),
    fun _ => ⟨fun other hother => ?_, fun other known hknown => ?_⟩⟩
  · rw [hleft] at hother
    have hne : other ≠ uri := fun he => hout (he ▸ hother)
    rw [verdict?_leave, if_neg hne]
    exact hafter.separate other (by simp [hinProgress, hother])
  · rw [verdict?_leave] at hknown
    split at hknown
    · rename_i he
      subst he
      cases hknown
      exact ⟨copy, _, hexplains⟩
    · obtain ⟨otherCopy, stack, hother⟩ := hafter.explained other known hknown
      exact ⟨otherCopy, stack, hother.of_verdicts hkeeps⟩

end Ending

end RunState

end PublicationAudit
