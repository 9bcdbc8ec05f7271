import Mathlib.Tactic.Choose
import PublicationAudit.Proofs.Validation.NestedWalks
import PublicationAudit.Proofs.Validation.Questions

/-!
# Validating a forest ends

`resolve` walks under a bound on the depth of nesting. `WalkEnds` says without any bound what the
walk below a subject ends in, and which validations it begins on the way: it is derived from the
ends of the walks that the verdict on a copy makes, so a walk that makes one more without end has no
derivation. `RunEnds` says the same of a run over roots. A walk has at most one end
(`WalkEnds.unique`), and over a closed map of first copies every walk has one, although it leads
from a nested copy to another tree: each step down enters an identifier that was not in progress
(`resolve_ends`).
-/

namespace PublicationAudit

/-- One validation of a subject. -/
structure Validation where
  /-- The identifier that is entered. -/
  uri : String
  /-- What the map of first copies holds under the identifier. -/
  found : Option SubjectTree
  /-- The copy that the verdict is on. -/
  copy : SubjectTree
  /-- The subjects in progress once it has begun, the subject itself first. -/
  inProgress : List String
  verdict : Verdict

/-- What the walk below a subject ends in, with the validations that it begins, in order. -/
inductive Validator.WalkEnds (validator : Validator) (copies : FirstCopies) :
    RunState → SubjectTree → List Validation → Option (List Entry) × RunState → Prop where
  | known (state : RunState) (subject : SubjectTree) (verdict : Verdict)
      (hverdict : state.verdict? subject.uri = some verdict) :
      WalkEnds validator copies state subject [] (some verdict.entries, state)
  | cyclic (state : RunState) (subject : SubjectTree) (hnew : state.verdict? subject.uri = none)
      (hin : subject.uri ∈ state.inProgress) :
      WalkEnds validator copies state subject [] (none, state)
  | validated (state after : RunState) (subject : SubjectTree) (verdict : Verdict)
      (nested : SubjectWalk) (logs : RunState → SubjectTree → List Validation)
      (hnew : state.verdict? subject.uri = none) (hout : subject.uri ∉ state.inProgress)
      (hverdict : validator.verdictOn nested (copies.copyOf subject) (state.enter subject.uri) =
        (verdict, after))
      (hnested : ∀ walk ∈ validator.verdictWalks nested (copies.copyOf subject)
          (state.enter subject.uri),
        WalkEnds validator copies walk.1 walk.2 (logs walk.1 walk.2) (nested walk.1 walk.2)) :
      WalkEnds validator copies state subject
        (⟨subject.uri, copies.find? subject.uri, copies.copyOf subject,
            subject.uri :: state.inProgress, verdict⟩ ::
          (validator.verdictWalks nested (copies.copyOf subject)
            (state.enter subject.uri)).flatMap fun walk => logs walk.1 walk.2)
        (some verdict.entries, after.leave subject.uri verdict)

/-- What a run over the roots that are left ends in, after `done` of `total`, when its observer does
not stop it. -/
inductive Validator.RunEnds (validator : Validator) (copies : FirstCopies) (total : Nat) :
    Nat → List SubjectTree → RunState → List Validation → List Entry × RunState → Prop where
  | finished (done : Nat) (state : RunState) :
      RunEnds validator copies total done [] state [] ([], state)
  | root (done : Nat) (root : SubjectTree) (roots : List SubjectTree) (state mid after : RunState)
      (log later : List Validation) (answer : Option (List Entry)) (entries : List Entry)
      (hroot : validator.WalkEnds copies (state.announce ⟨done, total, root.uri⟩) root log
        (answer, mid))
      (hrest : RunEnds validator copies total (done + 1) roots mid later (entries, after)) :
      RunEnds validator copies total done (root :: roots) state (log ++ later)
        (answer.getD [] ++ entries, after)

namespace Validator

variable {validator : Validator} {copies : FirstCopies} {state : RunState} {subject : SubjectTree}
  {log other : List Validation} {total done : Nat} {roots : List SubjectTree}

/-- A walk has at most one end. -/
theorem WalkEnds.unique {outcome another : Option (List Entry) × RunState}
    (h : validator.WalkEnds copies state subject log outcome)
    (h' : validator.WalkEnds copies state subject other another) :
    log = other ∧ outcome = another := by
  induction h generalizing other another with
  | known state subject verdict hverdict =>
      cases h' with
      | known _ _ _ hverdict' =>
          rw [hverdict] at hverdict'
          exact ⟨rfl, by rw [Option.some.inj hverdict']⟩
      | cyclic _ _ hnew' => simp [hverdict] at hnew'
      | validated _ _ _ _ _ _ hnew' => simp [hverdict] at hnew'
  | cyclic state subject hnew hin =>
      cases h' with
      | known _ _ _ hverdict' => simp [hnew] at hverdict'
      | cyclic => exact ⟨rfl, rfl⟩
      | validated _ _ _ _ _ _ _ hout' => exact absurd hin hout'
  | validated state after subject verdict nested logs hnew hout hverdict hnested ih =>
      cases h' with
      | known _ _ _ hverdict' => simp [hnew] at hverdict'
      | cyclic _ _ _ hin' => exact absurd hin' hout
      | validated _ after' _ verdict' nested' logs' _ _ hverdict' hnested' =>
          -- The walks that both verdicts make end alike, by induction on the first.
          obtain ⟨hsame, hwalks⟩ := verdictOn_congr fun walk hwalk hwalk' =>
            (ih walk hwalk (hnested' walk hwalk')).2
          rw [hverdict, hverdict'] at hsame
          obtain ⟨rfl, rfl⟩ := Prod.mk.inj hsame
          have hlogs : (validator.verdictWalks nested (copies.copyOf subject)
                (state.enter subject.uri)).flatMap (fun walk => logs walk.1 walk.2) =
              (validator.verdictWalks nested' (copies.copyOf subject)
                (state.enter subject.uri)).flatMap fun walk => logs' walk.1 walk.2 := by
            rw [← hwalks]
            exact List.flatMap_congr fun walk hwalk =>
              (ih walk hwalk (hnested' walk (hwalks ▸ hwalk))).1
          exact ⟨by rw [hlogs], rfl⟩

/-- A run has at most one end. -/
theorem RunEnds.unique {outcome another : List Entry × RunState}
    (h : validator.RunEnds copies total done roots state log outcome)
    (h' : validator.RunEnds copies total done roots state other another) :
    log = other ∧ outcome = another := by
  induction h generalizing other another with
  | finished done state =>
      cases h'
      exact ⟨rfl, rfl⟩
  | root done root roots state mid after log later answer entries hroot hrest ih =>
      cases h' with
      | root _ _ _ _ mid' after' log' later' answer' entries' hroot' hrest' =>
          obtain ⟨rfl, hwalked⟩ := hroot.unique hroot'
          obtain ⟨rfl, rfl⟩ := Prod.mk.inj hwalked
          obtain ⟨rfl, hran⟩ := ih hrest'
          obtain ⟨rfl, rfl⟩ := Prod.mk.inj hran
          exact ⟨rfl, rfl⟩

/-- A walk ends with the subjects in progress with which it began. -/
theorem WalkEnds.inProgress_eq {outcome : Option (List Entry) × RunState}
    (h : validator.WalkEnds copies state subject log outcome) :
    outcome.2.inProgress = state.inProgress := by
  induction h with
  | known => rfl
  | cyclic => rfl
  | validated state after subject verdict nested logs hnew hout hverdict hnested ih =>
      have hwalks := validator.verdictOn_walks nested (copies.copyOf subject)
        (state.enter subject.uri)
      rw [hverdict] at hwalks
      show after.inProgress.erase subject.uri = state.inProgress
      rw [(hwalks.inProgress_eq ih).2]
      exact List.erase_cons_head ..

/-- A depth above the number of first copies that are not in progress finds the end of a walk. -/
theorem resolve_ends (hcopies : copies.Complete) {depth : Nat}
    (hknown : copies.contains subject.uri = true)
    (hdepth : unmet copies.keys state.inProgress < depth) :
    ∃ log, validator.WalkEnds copies state subject log
      (validator.resolve copies depth state subject) := by
  induction depth generalizing state subject with
  | zero => omega
  | succ depth ih =>
      rw [resolve]
      cases hverdict : state.verdict? subject.uri with
      | some verdict => exact ⟨[], .known state subject verdict hverdict⟩
      | none =>
          by_cases hin : subject.uri ∈ state.inProgress
          · simp only [if_pos hin]
            exact ⟨[], .cyclic state subject hverdict hin⟩
          · simp only [if_neg hin]
            obtain ⟨copy, hcopy, -, hchildren⟩ := hcopies.exists_copy hknown
            -- Every walk that the verdict makes finds the subject in progress, which pays for the
            -- step in depth.
            have hkeeps : ∀ walk ∈ validator.verdictWalks (validator.resolve copies depth) copy
                  (state.enter subject.uri),
                (validator.resolve copies depth walk.1 walk.2).2.inProgress =
                  walk.1.inProgress := fun walk hwalk =>
              ((WalkAccount.asked_closes validator copies).movesBelow hcopies depth hchildren walk.1
                walk.2 (verdictWalks_subset hwalk)).advances.inProgress
            have hstates := ((validator.verdictOn_walks (validator.resolve copies depth) copy
              (state.enter subject.uri)).inProgress_eq hkeeps).1
            have hfewer : unmet copies.keys (subject.uri :: state.inProgress) < depth := by
              have hlt := FirstCopies.unmet_enter_lt hknown hin
              omega
            have hends : ∀ before child, ∃ log,
                (before, child) ∈ validator.verdictWalks (validator.resolve copies depth) copy
                  (state.enter subject.uri) →
                validator.WalkEnds copies before child log
                  (validator.resolve copies depth before child) := by
              intro before child
              by_cases hwalk : (before, child) ∈ validator.verdictWalks
                  (validator.resolve copies depth) copy (state.enter subject.uri)
              · have hbefore : before.inProgress = subject.uri :: state.inProgress :=
                  hstates _ hwalk
                obtain ⟨log, hlog⟩ := ih (hchildren child (verdictWalks_subset hwalk))
                  (hbefore ▸ hfewer)
                exact ⟨log, fun _ => hlog⟩
              · exact ⟨[], fun hin => absurd hin hwalk⟩
            choose logs hlogs using hends
            refine ⟨_, .validated state _ subject _ (validator.resolve copies depth) logs hverdict
              hin rfl fun walk hwalk => hlogs walk.1 walk.2 ?_⟩
            rwa [copies.copyOf_eq hcopy] at hwalk

/-- The bound of the map suffices in every state. -/
theorem resolveRoot_ends (validator : Validator) (hcopies : copies.Complete)
    (hknown : copies.contains subject.uri = true) (state : RunState) :
    ∃ log, validator.WalkEnds copies state subject log
      (validator.resolveRoot copies state subject) := by
  have hbound : unmet copies.keys state.inProgress ≤ copies.size :=
    Nat.le_trans (unmet_le_length copies.keys _) (Nat.le_of_eq (List.length_map _))
  exact resolve_ends hcopies hknown (Nat.lt_succ_of_le hbound)

/-- A run over roots of a closed map ends, when its observer does not stop it. -/
theorem validateFrom_ends (validator : Validator) {observer : Observer}
    (haccepts : ∀ progress, observer progress = .ok ()) (hcopies : copies.Complete)
    (hroots : ∀ root ∈ roots, copies.contains root.uri = true) (done total : Nat)
    (state : RunState) :
    ∃ log entries after, validator.RunEnds copies total done roots state log (entries, after) ∧
      validator.validateFrom copies observer done total roots state = (.ok entries, after) := by
  induction roots generalizing done state with
  | nil => exact ⟨[], [], state, .finished done state, rfl⟩
  | cons root roots ih =>
      obtain ⟨hroot, hothers⟩ := List.forall_mem_cons.1 hroots
      obtain ⟨log, hlog⟩ := validator.resolveRoot_ends hcopies hroot
        (state.announce ⟨done, total, root.uri⟩)
      obtain ⟨later, entries, after, hlater, hrest⟩ := ih hothers (done + 1)
        (validator.resolveRoot copies (state.announce ⟨done, total, root.uri⟩) root).2
      refine ⟨log ++ later, _, after, .root done root roots state _ after log later _ entries hlog
        hlater, ?_⟩
      rw [validateFrom_cons_accepted (haccepts _), hrest]
      rfl

end Validator

end PublicationAudit
