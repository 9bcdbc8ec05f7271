import Mathlib.Algebra.Order.Group.Multiset
import Mathlib.Tactic.Abel
import PublicationAudit.Proofs.Validation.Advances
import PublicationAudit.Proofs.Validation.Runs
import PublicationAudit.Proofs.Validation.WalkAccounts

/-!
# What a walk validates and asks

However often a subject is met, a walk validates it once and asks the queries of its shapes once.
`RunState.Asks` adds to `RunState.Advances` what a walk gains: one verdict on the first copy of each
subject that it validates, and the queries of these copies. The main statements are
`resolveRoot_asks`, for the walk below a root, and `validateAll_asks` for a run over a forest,
stopped or not.
-/

namespace PublicationAudit

/-! ## The queries of a copy -/

/-- What a constraint asks about an IRI, unless it is inert. -/
def Constraint.question? (constraint : Constraint) (iri : String) (path : Option String) :
    Option String :=
  constraint.parts?.map fun parts => instantiateQuery parts.1 iri path

namespace Validator

/-- The queries about an IRI of a class: one for each shape for the class and each constraint of the
shape or of one of its properties that is not inert. -/
def questionsAbout (validator : Validator) (iri cls : String) : List String :=
  (validator.shapes.shapesFor cls).flatMap fun shape =>
    (shape.properties.flatMap fun property =>
        property.constraints.filterMap (·.question? iri (some property.path))) ++
      shape.constraints.filterMap (·.question? iri none)

/-- The queries about the subject of a copy; there are none unless it is an IRI. -/
def questions (validator : Validator) (copy : SubjectTree) : List String :=
  copy.node.iri?.elim [] fun iri => validator.questionsAbout iri copy.cls

/-- Constraints ask their questions about an IRI, and nothing about any other node. -/
theorem queries_eq (constraints : List Constraint) (focus : Node) (path : Option String) :
    queries constraints focus path =
      focus.iri?.elim [] fun iri => constraints.filterMap (·.question? iri path) := by
  unfold queries Constraint.query? Constraint.question?
  cases focus.iri? with
  | none => simp
  | some iri =>
      refine List.filterMap_congr fun constraint _ => ?_
      cases constraint.parts? <;> rfl

/-- The questions of a copy are the queries of the shapes for its class. -/
theorem questions_eq (validator : Validator) (copy : SubjectTree) :
    validator.questions copy = (validator.shapes.shapesFor copy.cls).flatMap fun shape =>
      (shape.properties.flatMap fun property =>
          queries property.constraints copy.node (some property.path)) ++
        queries shape.constraints copy.node none := by
  simp only [queries_eq, questions, questionsAbout]
  cases copy.node.iri? with
  | none => simp
  | some iri => rfl

end Validator

/-! ## What a walk gains -/

/-- A walk that validates the first copies of some subjects, once each, and asks their questions and
some of its own. -/
structure RunState.Asks (validator : Validator) (copies : FirstCopies) (before after : RunState)
    (own : List String) : Prop where
  advances : before.Advances after
  gained : ∃ reached : List (SubjectTree × Verdict),
    after.verdicts.entries =
      before.verdicts.entries ++ reached.map (fun gain => (gain.1.uri, gain.2)) ∧
    after.validations = before.validations + reached.length ∧
    (after.queries : Multiset String) = before.queries +
      (reached.flatMap fun gain => validator.questions gain.1 : List String) + own ∧
    ∀ gain ∈ reached, copies.find? gain.1.uri = some gain.1 ∧ validator.Covers gain.1 gain.2

namespace RunState.Asks

variable {validator : Validator} {copies : FirstCopies} {before mid after : RunState}
  {own more : List String}

/-- A walk that validates nothing. -/
theorem of_alike (h : before.Alike after) (hqueries : after.queries = before.queries ++ own) :
    Asks validator copies before after own where
  advances := .of_alike h
  gained := ⟨[], by rw [h.verdicts, List.map_nil, List.append_nil], h.validations, by
    rw [hqueries, ← Multiset.coe_add, List.flatMap_nil, Multiset.coe_nil, add_zero],
    fun _ h => by simp at h⟩

/-- A walk that changes nothing. -/
theorem refl (state : RunState) : Asks validator copies state state [] :=
  .of_alike (.refl state) (List.append_nil _).symm

/-- One walk after another. -/
theorem trans (h : Asks validator copies before mid own)
    (hmore : Asks validator copies mid after more) :
    Asks validator copies before after (own ++ more) where
  advances := h.advances.trans hmore.advances
  gained := by
    obtain ⟨first, hfirst, hcount, hqueries, hcopies⟩ := h.gained
    obtain ⟨second, hsecond, hcountMore, hqueriesMore, hcopiesMore⟩ := hmore.gained
    refine ⟨first ++ second, by rw [hsecond, hfirst, List.append_assoc, List.map_append], by
      rw [hcountMore, hcount, List.length_append, Nat.add_assoc], ?_, fun gain hgain => ?_⟩
    · rw [hqueriesMore, hqueries, List.flatMap_append, ← Multiset.coe_add, ← Multiset.coe_add]
      abel
    · exact (List.mem_append.1 hgain).elim (hcopies gain) (hcopiesMore gain)

/-- Announcing a root asks nothing. -/
theorem announce (state : RunState) (progress : Progress) :
    Asks validator copies state (state.announce progress) [] :=
  .of_alike (.announce state progress) (List.append_nil _).symm

/-- A whole validation: what it asked of its own are the questions of its copy. -/
theorem leave {uri : String} {verdict : Verdict} {copy : SubjectTree}
    (h : Asks validator copies (before.enter uri) after (validator.questions copy))
    (hcopy : copies.find? uri = some copy) (huri : copy.uri = uri)
    (hnew : before.verdict? uri = none) (hout : uri ∉ before.inProgress)
    (hcovers : validator.Covers copy verdict) :
    Asks validator copies before (after.leave uri verdict) [] where
  advances := h.advances.leave hnew hout
  gained := by
    obtain ⟨reached, hreached, hcount, hqueries, hcopies⟩ := h.gained
    refine ⟨reached ++ [(copy, verdict)], ?_, ?_, ?_, fun gain hgain => ?_⟩
    · rw [h.advances.entries_leave hnew, hreached, List.map_append, List.append_assoc, ← huri]
      rfl
    · show after.validations = before.validations + _
      rw [hcount, List.length_append, List.length_singleton]
      show before.validations + 1 + reached.length = _
      omega
    · show (after.queries : Multiset String) = before.queries + _ + _
      rw [hqueries, List.flatMap_append, List.flatMap_singleton, ← Multiset.coe_add,
        Multiset.coe_nil, add_zero, add_assoc]
      rfl
    · rcases List.mem_append.1 hgain with hold | hnewest
      · exact hcopies gain hold
      · rw [List.mem_singleton.1 hnewest, huri]
        exact ⟨hcopy, hcovers⟩

end RunState.Asks

namespace WalkAccount

variable (validator : Validator) (copies : FirstCopies)

/-- The account of the queries that a walk asks. -/
def asked : WalkAccount String where
  Moves := RunState.Asks validator copies
  ofQueries queries := queries
  ofNested _ := []
  ofProperty _ := []
  ofViolations _ _ := []
  refl := .refl
  trans := .trans
  ask state queries := .of_alike (.ask state queries) rfl
  recordVerdict state verdict := by
    obtain ⟨tally, htally⟩ := state.recordVerdict_eq verdict
    exact .of_alike (.recordVerdict state verdict) (htally ▸ (List.append_nil _).symm)
  recordViolations state tier violations := by
    obtain ⟨tally, htally⟩ := state.recordViolations_eq tier violations
    exact .of_alike (.recordViolations state tier violations) (htally ▸ (List.append_nil _).symm)

variable {validator copies}

/-- An entry for a shape gave rise to the queries of the shape. -/
theorem asked_ofShaped {copy : SubjectTree} {shape : NodeShape} {entry : Entry}
    (h : shape.IsFor copy entry) :
    (asked validator copies).ofShaped copy shape entry =
      (shape.properties.flatMap fun property =>
          Validator.queries property.constraints copy.node (some property.path)) ++
        Validator.queries shape.constraints copy.node none := by
  have hjudged : ∀ property verdict, (asked validator copies).ofJudged copy property verdict =
      Validator.queries property.constraints copy.node (some property.path) :=
    fun property verdict => by
      rw [ofJudged, ofValues_eq_nil _ (fun _ => rfl), List.nil_append]
      exact List.append_nil _
  have hproperties := flatMap_zip_fst (fun property : PropertyShape =>
    Validator.queries property.constraints copy.node (some property.path)) h.verdicts.length_eq.le
  simp only [ofShaped, hjudged, hproperties]
  exact congrArg _ (List.append_nil _)

/-- A verdict that covers a copy gave rise to the questions of the copy. -/
theorem asked_ofVerdict {copy : SubjectTree} {verdict : Verdict}
    (h : validator.Covers copy verdict) :
    (asked validator copies).ofVerdict validator copy verdict = validator.questions copy := by
  rw [Validator.questions_eq]
  cases h with
  | unshaped entry hnone huri hcls hshape hplain =>
      rw [hnone]
      exact List.flatMap_eq_nil_iff.2 fun reading _ =>
        ofValues_eq_nil _ (fun _ => rfl) reading.values
  | shaped entries hsome hentries =>
      exact (ofVerdict_shaped (fun _ _ hentry => asked_ofShaped hentry) hentries).trans
        (flatMap_zip_fst (fun shape : NodeShape => (shape.properties.flatMap fun property =>
            Validator.queries property.constraints copy.node (some property.path)) ++
          Validator.queries shape.constraints copy.node none) hentries.length_eq.le)

/-- The end of a validation closes the questions of its copy. -/
theorem asked_closes (validator : Validator) (copies : FirstCopies) :
    (asked validator copies).Closes validator copies where
  known state uri verdict _ := by
    rw [ofAnswer_eq_nil _ fun _ => rfl]
    exact .refl state
  leave before after uri copy verdict hcopy huri hnew hout hcovers h := by
    rw [ofAnswer_eq_nil _ fun _ => rfl]
    rw [asked_ofVerdict hcovers] at h
    exact h.leave hcopy huri hnew hout hcovers

end WalkAccount

namespace Validator

variable {validator : Validator} {roots : List SubjectTree}

/-- A walk below a root validates first copies and asks their questions, nothing else. -/
theorem resolveRoot_asks (validator : Validator) {root : SubjectTree} (hroot : root ∈ roots)
    (state : RunState) :
    RunState.Asks validator (.ofForest roots) state
      (validator.resolveRoot (.ofForest roots) state root).2 [] := by
  have hmoves := WalkAccount.resolveRoot_moves (WalkAccount.asked_closes validator _) hroot state
  rwa [WalkAccount.ofAnswer_eq_nil _ fun _ => rfl] at hmoves

/-- So does a run over a forest, also one that its observer stops. -/
theorem validateAll_asks (validator : Validator) (observer : Observer) (roots : List SubjectTree)
    (state : RunState) :
    RunState.Asks validator (.ofForest roots) state
      (validator.validateAll observer roots state).2 [] :=
  validateFrom_induction (P := fun later =>
      RunState.Asks validator (.ofForest roots) state later []) 0
    (fun later progress h => h.trans (.announce later progress))
    (fun later _ hroot h => h.trans (resolveRoot_asks validator hroot later)) (.refl state)

end Validator

end PublicationAudit
