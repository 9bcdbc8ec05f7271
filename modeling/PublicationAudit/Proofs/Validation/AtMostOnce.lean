import PublicationAudit.Proofs.Maturity.Findings
import PublicationAudit.Proofs.Validation.Calls

/-!
# At most once

However often the calls on one state meet a subject, it is validated once, from the first copy in the
forest of the call that validated it, and the queries of its shapes are asked once.
`calls_validate_once` is the main statement.
-/

namespace PublicationAudit

namespace ValidationCall

/-- A call on a state validates a copy: it is the first copy of its subject in the forest of the
call, and the subject had no verdict before the call and has one that covers the copy after it. -/
structure Validates (validator : Validator) (state : RunState) (call : ValidationCall)
    (copy : SubjectTree) : Prop where
  found : (FirstCopies.ofForest call.roots).find? copy.uri = some copy
  unknown : state.verdict? copy.uri = none
  covered : ∃ verdict, (call.run validator state).2.verdict? copy.uri = some verdict ∧
    validator.Covers copy verdict

variable {validator : Validator}

/-- The copies that one call validates are those of the verdicts that it adds, and their questions
are all that it asks. -/
theorem exists_validated (validator : Validator) (state : RunState) (call : ValidationCall) :
    ∃ validated : List SubjectTree,
      (call.run validator state).2.verdicts.keys =
        state.verdicts.keys ++ validated.map (·.uri) ∧
      (call.run validator state).2.validations = state.validations + validated.length ∧
      (call.run validator state).2.queries.Perm
        (state.queries ++ validated.flatMap validator.questions) ∧
      ∀ copy ∈ validated, call.Validates validator state copy := by
  obtain ⟨reached, hreached, hcount, hqueries, hcopies⟩ := (run_asks validator state call).gained
  have hkeys : (call.run validator state).2.verdicts.keys =
      state.verdicts.keys ++ (reached.map Prod.fst).map (·.uri) := by
    rw [OrderedMap.keys, hreached, List.map_append, List.map_map, List.map_map]
    rfl
  refine ⟨reached.map Prod.fst, hkeys, by rw [hcount, List.length_map], ?_, fun copy hcopy => ?_⟩
  · rw [Multiset.coe_nil, add_zero, Multiset.coe_add] at hqueries
    rw [List.flatMap_map]
    exact Multiset.coe_eq_coe.1 hqueries
  · have hfresh : copy.uri ∉ state.verdicts.keys := fun hknown =>
      (List.nodup_append.1 (hkeys ▸ OrderedMap.nodup_keys_list _)).2.2 _ hknown _
        (List.mem_map_of_mem hcopy) rfl
    obtain ⟨⟨copy, verdict⟩, hgain, rfl⟩ := List.mem_map.1 hcopy
    obtain ⟨hfound, hcovers⟩ := hcopies _ hgain
    refine ⟨hfound, ?_, verdict, OrderedMap.find?_eq_some_of_mem ?_, hcovers⟩
    · rw [OrderedMap.mem_keys_iff, Option.not_isSome_iff_eq_none] at hfresh
      exact hfresh
    · rw [hreached]
      exact List.mem_append_right _ (List.mem_map.2 ⟨_, hgain, rfl⟩)

/-- The copies that a sequence of calls validates, each with the call that did. -/
theorem exists_validated_runAll (validator : Validator) (calls : List ValidationCall) :
    ∃ validated : List SubjectTree,
      validated.map (·.uri) = (runAll validator .fresh calls).2.verdicts.keys ∧
      (runAll validator .fresh calls).2.validations = validated.length ∧
      (runAll validator .fresh calls).2.queries.Perm (validated.flatMap validator.questions) ∧
      ∀ copy ∈ validated, ∃ before call after, calls = before ++ call :: after ∧
        call.Validates validator (runAll validator .fresh before).2 copy := by
  induction calls using List.reverseRecOn with
  | nil => exact ⟨[], rfl, rfl, .nil, fun _ h => by simp at h⟩
  | append_singleton calls call ih =>
      obtain ⟨validated, hkeys, hcount, hqueries, hcopies⟩ := ih
      obtain ⟨newest, hkeysMore, hcountMore, hqueriesMore, hnewest⟩ :=
        exists_validated validator (runAll validator .fresh calls).2 call
      have hlast : (runAll validator .fresh (calls ++ [call])).2 =
          (call.run validator (runAll validator .fresh calls).2).2 := by
        rw [runAll_append]
        rfl
      rw [hlast]
      refine ⟨validated ++ newest, by rw [hkeysMore, List.map_append, hkeys], by
        rw [hcountMore, hcount, List.length_append], ?_, fun copy hcopy => ?_⟩
      · rw [List.flatMap_append]
        exact hqueriesMore.trans (hqueries.append_right _)
      · rcases List.mem_append.1 hcopy with hold | hnew
        · obtain ⟨before, earlier, after, rfl, hvalidates⟩ := hcopies copy hold
          exact ⟨before, earlier, after ++ [call], by simp, hvalidates⟩
        · exact ⟨calls, call, [], rfl, hnewest copy hnew⟩

/-- After any calls on one state nothing is in progress, as many subjects were validated as have a
verdict, and no later call changes a verdict. Each of these subjects was validated by one of the
calls on its first copy there, and the queries that were asked are the questions of these copies,
once each. A run over the forest of facts validates every typed subject. -/
theorem calls_validate_once (validator : Validator) (calls : List ValidationCall) :
    let final := (runAll validator .fresh calls).2
    final.inProgress = [] ∧ final.validations = final.verdicts.size ∧
    (∀ more uri verdict, final.verdict? uri = some verdict →
      (runAll validator .fresh (calls ++ more)).2.verdict? uri = some verdict) ∧
    (∃ validated : List SubjectTree, validated.map (·.uri) = final.verdicts.keys ∧
      (∀ copy ∈ validated, ∃ before call after, calls = before ++ call :: after ∧
        call.Validates validator (runAll validator .fresh before).2 copy) ∧
      final.queries.Perm (validated.flatMap validator.questions)) ∧
    ∀ (facts : FactSet) (observer : Observer), facts.KeysDistinct →
      (∀ progress, observer progress = .ok ()) →
      ∃ entries, (validator.validateAll observer facts.readForest .fresh).1 = .ok entries ∧
        (validator.validateAll observer facts.readForest .fresh).2.validations =
          facts.typedSubjects.length := by
  intro final
  have hsize : ∀ calls, (runAll validator .fresh calls).2.validations =
      (runAll validator .fresh calls).2.verdicts.keys.length := fun calls => by
    obtain ⟨validated, hkeys, hcount, -⟩ := exists_validated_runAll validator calls
    rw [hcount, ← hkeys, List.length_map]
  obtain ⟨validated, hkeys, -, hqueries, hcopies⟩ := exists_validated_runAll validator calls
  refine ⟨runAll_idle validator calls, (hsize calls).trans (List.length_map _),
    fun more uri verdict => runAll_known more, ⟨validated, hkeys, hcopies, hqueries⟩,
    fun facts observer hdistinct haccepts => ?_⟩
  obtain ⟨entries, hentries⟩ : ∃ entries,
      (validator.validateAll observer facts.readForest .fresh).1 = .ok entries :=
    Validator.validateAll_accepted haccepts facts.readForest .fresh
  refine ⟨entries, hentries, ?_⟩
  have hreached := (Validator.verdicts_keys_perm hdistinct hentries).length_eq
  rw [List.length_map] at hreached
  exact (hsize [.all observer facts.readForest]).trans hreached

/-- Two persons who know each other are validated once each, and a run that is stopped at the first
of them validates none. -/
theorem calls_validate_once_acquaintances :
    let validator : Validator := ⟨⟨[Validator.personShape]⟩, fun _ => .ok []⟩
    let people := Validator.acquaintances.readForest
    let stopped := (runAll validator .fresh [.all (fun _ => .error "enough") people]).2
    stopped.inProgress = [] ∧ stopped.validations = stopped.verdicts.size ∧
      Validator.acquaintances.KeysDistinct ∧ (∀ progress, Observer.silent progress = .ok ()) ∧
      (validator.validateAll .silent people .fresh).2.validations = 2 := by
  intro validator people stopped
  have hkeys : Validator.acquaintances.KeysDistinct := by decide
  obtain ⟨hidle, hcount, -, -, hfacts⟩ :=
    calls_validate_once validator [.all (fun _ => .error "enough") people]
  obtain ⟨entries, -, hwhole⟩ := hfacts Validator.acquaintances .silent hkeys fun _ => rfl
  exact ⟨hidle, hcount, hkeys, fun _ => rfl, hwhole.trans (by decide)⟩

end ValidationCall

end PublicationAudit
