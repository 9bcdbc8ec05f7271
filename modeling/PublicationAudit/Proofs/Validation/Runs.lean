import PublicationAudit.Proofs.Validation.Settling

/-!
# Whole runs

A run validates the roots of a forest in order. Read `validateAll_explained` first: when no observer
stops it, every root of a forest read from facts has an explained verdict, and the entries of the
run are those of the verdicts in the order of the roots. `validateFrom_induction` carries an
invariant of single walks to a run, whether it is stopped or not.
-/

namespace PublicationAudit

open RunState (Grows)

namespace Validator

variable {validator : Validator} {copies : FirstCopies} {observer : Observer}
  {roots : List SubjectTree} {root : SubjectTree} {state : RunState} {entries : List Entry}
  {done total : Nat}

/-- A run past a root that the observer accepts. -/
theorem validateFrom_cons_accepted (haccepts : observer ⟨done, total, root.uri⟩ = .ok ())
    (roots : List SubjectTree) (state : RunState) :
    let walked := validator.resolveRoot copies (state.announce ⟨done, total, root.uri⟩) root
    let rest := validator.validateFrom copies observer (done + 1) total roots walked.2
    validator.validateFrom copies observer done total (root :: roots) state =
      (rest.1.map (walked.1.getD [] ++ ·), rest.2) := by
  intro walked rest
  rw [validateFrom]
  simp only [haccepts]
  split <;> rename_i hrest <;> simp only [rest, walked, hrest] <;> rfl

/-- A run past its first root: the observer let it go on, and the entries of the root come first. -/
theorem validateFrom_cons_ok
    (h : (validator.validateFrom copies observer done total (root :: roots) state).1 =
      .ok entries) :
    observer ⟨done, total, root.uri⟩ = .ok () ∧ ∃ rest,
      let walked := validator.resolveRoot copies (state.announce ⟨done, total, root.uri⟩) root
      validator.validateFrom copies observer (done + 1) total roots walked.2 =
        (.ok rest,
          (validator.validateFrom copies observer done total (root :: roots) state).2) ∧
      entries = walked.1.getD [] ++ rest := by
  cases hobserver : observer ⟨done, total, root.uri⟩ with
  | error reason => simp [validateFrom, hobserver] at h
  | ok accepted =>
      rw [validateFrom_cons_accepted hobserver] at h ⊢
      cases hrest : validator.validateFrom copies observer (done + 1) total roots
          (validator.resolveRoot copies (state.announce ⟨done, total, root.uri⟩) root).2 with
      | mk answer after =>
          rw [hrest] at h
          cases answer with
          | error failure => cases h
          | ok rest =>
              cases h
              exact ⟨rfl, rest, hrest, rfl⟩

/-- A run goes on where a run over its first roots ended. -/
theorem validateFrom_append {earlier : List SubjectTree} {mid : RunState}
    (h : validator.validateFrom copies observer done total earlier state = (.ok entries, mid))
    (later : List SubjectTree) :
    let rest := validator.validateFrom copies observer (done + earlier.length) total later mid
    validator.validateFrom copies observer done total (earlier ++ later) state =
      (rest.1.map (entries ++ ·), rest.2) := by
  induction earlier generalizing done state entries with
  | nil =>
      obtain ⟨rfl, rfl⟩ : [] = entries ∧ state = mid := by simpa [validateFrom] using h
      simp only [List.nil_append, List.length_nil, Nat.add_zero]
      cases validator.validateFrom copies observer done total later state with
      | mk answer after => cases answer <;> rfl
  | cons root earlier ih =>
      obtain ⟨haccepts, rest, hrest, rfl⟩ := validateFrom_cons_ok (congrArg Prod.fst h)
      rw [h] at hrest
      simp only [List.cons_append, validateFrom_cons_accepted haccepts, ih hrest, List.length_cons,
        Nat.add_assoc, Nat.add_comm 1]
      generalize validator.validateFrom copies observer _ total later mid = last
      obtain ⟨failure | entries, final⟩ := last
      · rfl
      · simp only [Except.map, List.append_assoc]

/-- An observer that always lets a run go on does not stop it. -/
theorem validateFrom_accepted (haccepts : ∀ progress, observer progress = .ok ()) (done : Nat)
    (roots : List SubjectTree) (state : RunState) :
    ∃ entries, (validator.validateFrom copies observer done total roots state).1 = .ok entries := by
  induction roots generalizing done state with
  | nil => exact ⟨[], rfl⟩
  | cons root roots ih =>
      obtain ⟨rest, hrest⟩ := ih (done + 1)
        (validator.resolveRoot copies (state.announce ⟨done, total, root.uri⟩) root).2
      rw [validateFrom, haccepts]
      refine ⟨(validator.resolveRoot copies
        (state.announce ⟨done, total, root.uri⟩) root).1.getD [] ++ rest, ?_⟩
      simp only
      split
      · rename_i hfailed
        rw [hfailed] at hrest
        cases hrest
      · rename_i hfinished
        rw [hfinished] at hrest
        cases hrest
        rfl

/-- So a run over a forest returns entries. -/
theorem validateAll_accepted (haccepts : ∀ progress, observer progress = .ok ())
    (roots : List SubjectTree) (state : RunState) :
    ∃ entries, (validator.validateAll observer roots state).1 = .ok entries :=
  validateFrom_accepted haccepts 0 roots state

/-- What announcements and the walks below the roots keep, a run keeps, also one that is stopped. -/
theorem validateFrom_induction {P : RunState → Prop} (done : Nat)
    (hannounce : ∀ state progress, P state → P (state.announce progress))
    (hroot : ∀ state, ∀ root ∈ roots, P state → P (validator.resolveRoot copies state root).2)
    (hstate : P state) : P (validator.validateFrom copies observer done total roots state).2 := by
  induction roots generalizing done state with
  | nil => exact hstate
  | cons root roots ih =>
      have hannounced := hannounce state ⟨done, total, root.uri⟩ hstate
      have hwalked := hroot _ root List.mem_cons_self hannounced
      have hrest := ih (done + 1)
        (fun state other hother => hroot state other (List.mem_cons_of_mem root hother)) hwalked
      rw [validateFrom]
      cases observer ⟨done, total, root.uri⟩ with
      | error reason => exact hannounced
      | ok accepted =>
          simp only
          split <;> rename_i hwhole <;> rw [hwhole] at hrest <;> exact hrest

/-- While nothing is in progress, a root has a verdict after the walk below it, which is its
answer. -/
theorem resolveRoot_known (validator : Validator) (copies : FirstCopies) (root : SubjectTree)
    (hidle : state.inProgress = []) :
    ∃ verdict, (validator.resolveRoot copies state root).2.verdict? root.uri = some verdict ∧
      (validator.resolveRoot copies state root).1 = some verdict.entries := by
  rcases resolve_cases validator copies copies.size state root with
    ⟨verdict, hverdict, hresolve⟩ | ⟨hin, -⟩ | ⟨-, -, verdict, after, -, hresolve⟩
  · exact ⟨verdict, by rw [resolveRoot, hresolve, hverdict], by rw [resolveRoot, hresolve]⟩
  · simp [hidle] at hin
  · exact ⟨verdict, by rw [resolveRoot, hresolve, RunState.verdict?_leave, if_pos rfl],
      by rw [resolveRoot, hresolve]⟩

/-- At a root a walk settles, and the root has a verdict after it, which is its answer. -/
theorem resolveRoot_settles (hcopies : copies.Complete) (hknown : copies.contains root.uri = true)
    (hsound : state.Sound validator copies) (hidle : state.inProgress = []) :
    Grows validator copies state (validator.resolveRoot copies state root).2 ∧
      ∃ verdict, (validator.resolveRoot copies state root).2.verdict? root.uri = some verdict ∧
        (validator.resolveRoot copies state root).1 = some verdict.entries := by
  have hdepth : unmet copies.keys state.inProgress < copies.size + 1 := by
    have hle := unmet_le_length copies.keys state.inProgress
    have hsize : copies.keys.length = copies.size := List.length_map _
    omega
  obtain ⟨hgrows, -⟩ := resolve_settles hcopies hknown hsound hdepth (by simp [hidle])
  exact ⟨hgrows, resolveRoot_known validator copies root hidle⟩

/-- After a run that was not stopped every root has a verdict, and the entries are those of these
verdicts. -/
theorem validateFrom_verdicts (hcopies : copies.Complete)
    (hknown : ∀ root ∈ roots, copies.contains root.uri = true)
    (hsound : state.Sound validator copies) (hidle : state.inProgress = [])
    (h : (validator.validateFrom copies observer done total roots state).1 = .ok entries) :
    Grows validator copies state
        (validator.validateFrom copies observer done total roots state).2 ∧
      ∃ verdicts, List.Forall₂ (fun root verdict =>
          (validator.validateFrom copies observer done total roots state).2.verdict? root.uri =
            some verdict) roots verdicts ∧
        entries = verdicts.flatMap Verdict.entries := by
  induction roots generalizing done state entries with
  | nil =>
      cases h
      exact ⟨.refl state, [], .nil, rfl⟩
  | cons root roots ih =>
      obtain ⟨-, rest, hrest, rfl⟩ := validateFrom_cons_ok h
      have hannounce : Grows validator copies state (state.announce ⟨done, total, root.uri⟩) :=
        .announce state _
      obtain ⟨hwalk, verdict, hverdict, hanswer⟩ := resolveRoot_settles hcopies
        (hknown root List.mem_cons_self) (hannounce.sound hsound) hidle
      have hgrows := hannounce.trans hwalk
      obtain ⟨hmore, verdicts, hverdicts, rfl⟩ := ih
        (fun other hother => hknown other (List.mem_cons_of_mem root hother))
        (hgrows.sound hsound) (hgrows.inProgress.trans hidle) (congrArg Prod.fst hrest)
      rw [hrest] at hmore hverdicts
      refine ⟨hgrows.trans hmore, verdict :: verdicts,
        .cons (hmore.verdicts _ _ hverdict) hverdicts, ?_⟩
      rw [hanswer, Option.getD_some, List.flatMap_cons]

/-- In a run over the forest of facts with distinct identifiers, the verdict of every typed subject
is explained on its first copy. -/
theorem validateAll_explained {facts : FactSet} (hkeys : facts.KeysDistinct)
    (h : (validator.validateAll observer facts.readForest .fresh).1 = .ok entries) :
    let copies := FirstCopies.ofForest facts.readForest
    let final := (validator.validateAll observer facts.readForest .fresh).2
    final.Sound validator copies ∧ final.inProgress = [] ∧
      ∃ verdicts, entries = verdicts.flatMap Verdict.entries ∧
        List.Forall₂ (fun subject verdict => final.verdict? subject.key = some verdict ∧
          ∃ copy stack, copy.node = subject ∧ copy.IsCopy facts true ∧
            final.Explains validator copies subject.key verdict copy stack)
          facts.typedSubjects verdicts := by
  intro copies final
  have hsound := RunState.sound_fresh validator copies
  obtain ⟨hgrows, verdicts, hverdicts, hentries⟩ := validateFrom_verdicts
    (FirstCopies.ofForest_complete facts.readForest) (fun _ => FirstCopies.contains_root) hsound
    rfl h
  refine ⟨hgrows.sound hsound, hgrows.inProgress, verdicts, hentries, ?_⟩
  have htyped : ∀ root ∈ facts.readForest, facts.isTyped root.node = true := fun root hroot =>
    FactSet.mem_typedSubjects.1 (readForest_roots facts ▸ List.mem_map_of_mem hroot)
  rw [← readForest_roots, List.forall₂_map_left_iff]
  refine ((List.forall₂_and_left _ _).2 ⟨htyped, hverdicts⟩).imp fun root verdict hroot => ?_
  -- The copy that explains a verdict has the identifier of the root, hence its subject.
  obtain ⟨copy, stack, hexplains⟩ := (hgrows.sound hsound).explained _ _ hroot.2
  obtain ⟨huri, hcopy⟩ := FirstCopies.isCopy_of_firstCopy hkeys hexplains.found
  have hnode := hkeys.eq_of_key_eq (FactSet.isTyped_of_class hcopy.cls) hroot.1 huri
  exact ⟨hroot.2, copy, stack, hnode, hcopy, hexplains⟩

end Validator

end PublicationAudit
