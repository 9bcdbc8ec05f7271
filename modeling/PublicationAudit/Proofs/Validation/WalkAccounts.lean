import PublicationAudit.Proofs.Validation.Settling

/-!
# Accounts of a walk

A walk asks queries, reports entries of nested subjects, and counts findings. A `WalkAccount` is a
relation between the states at the two ends of a walk that lists what the walk gave rise to on the
way; it is closed under one walk after another and knows what the single steps give rise to. The
main statement is `verdictOn_moves`, which lists what the verdict on a copy gives rise to, and
`resolve_moves` carries it to the walk below a subject, whose own share is closed with its verdict.
-/

namespace PublicationAudit

/-- The readings of an entry; an entry that was made for a shape has none. -/
def Entry.readings (entry : Entry) : List PropertyReading :=
  match entry.properties with
  | .judged _ => []
  | .plain readings => readings

/-- A relation between the states at the two ends of a walk and what the walk gave rise to: for
queries, for an entry of a nested subject among the values, for a property that is counted, and for
the violations of a shape. -/
structure WalkAccount (γ : Type) where
  Moves : RunState → RunState → List γ → Prop
  ofQueries : List String → List γ
  ofNested : Entry → List γ
  ofProperty : PropertyVerdict → List γ
  ofViolations : Option Tier → List Violation → List γ
  refl : ∀ state, Moves state state []
  trans : ∀ {before mid after own more}, Moves before mid own → Moves mid after more →
    Moves before after (own ++ more)
  ask : ∀ state queries, Moves state (state.ask queries) (ofQueries queries)
  recordVerdict : ∀ state verdict, Moves state (state.recordVerdict verdict) (ofProperty verdict)
  recordViolations : ∀ state tier violations,
    Moves state (state.recordViolations tier violations) (ofViolations tier violations)

namespace WalkAccount

variable {γ : Type} (account : WalkAccount γ)

/-- What reported values give rise to: the texts among them to nothing. -/
def ofValues (values : List ReportedValue) : List γ :=
  values.flatMap fun
    | .text _ => []
    | .entry entry => account.ofNested entry

/-- Values in several parts. -/
theorem ofValues_flatten (parts : List (List ReportedValue)) :
    account.ofValues parts.flatten = parts.flatMap account.ofValues := by
  rw [ofValues, ← List.flatMap_id, List.flatMap_assoc]
  rfl

/-- What the answer for a nested subject gives rise to. -/
def ofAnswer (answer : Option (List Entry)) : List γ :=
  (answer.getD []).flatMap account.ofNested

/-- Reported values give rise to nothing where entries of nested subjects do not. -/
theorem ofValues_eq_nil (h : ∀ entry, account.ofNested entry = []) (values : List ReportedValue) :
    account.ofValues values = [] :=
  List.flatMap_eq_nil_iff.2 fun value _ => by
    cases value with
    | text text => rfl
    | entry entry => exact h entry

/-- Nor do answers. -/
theorem ofAnswer_eq_nil (h : ∀ entry, account.ofNested entry = [])
    (answer : Option (List Entry)) : account.ofAnswer answer = [] :=
  List.flatMap_eq_nil_iff.2 fun entry _ => h entry

/-- What the judgement of a property gives rise to. -/
def ofJudged (subject : SubjectTree) (property : PropertyShape) (verdict : PropertyVerdict) :
    List γ :=
  account.ofQueries (Validator.queries property.constraints subject.node (some property.path)) ++
    (account.ofValues verdict.values ++ account.ofProperty verdict)

/-- What an entry for a shape gives rise to. -/
def ofShaped (subject : SubjectTree) (shape : NodeShape) (entry : Entry) : List γ :=
  ((shape.properties.zip entry.verdicts).flatMap fun pair =>
      account.ofJudged subject pair.1 pair.2) ++
    (account.ofQueries (Validator.queries shape.constraints subject.node none) ++
      account.ofViolations shape.tier entry.violations)

/-- What an entry without a shape gives rise to. -/
def ofPlain (entry : Entry) : List γ :=
  entry.readings.flatMap fun reading => account.ofValues reading.values

/-- What a verdict on a copy gives rise to. -/
def ofVerdict (validator : Validator) (subject : SubjectTree) : Verdict → List γ
  | .unshaped entry => account.ofPlain entry
  | .shaped entries => ((validator.shapes.shapesFor subject.cls).zip entries).flatMap fun pair =>
      account.ofShaped subject pair.1 pair.2

/-- Walks below the listed subjects give rise to what they answer. -/
def MovesBelow (nested : SubjectWalk) (subjects : List SubjectTree) : Prop :=
  ∀ state, ∀ subject ∈ subjects,
    account.Moves state (nested state subject).2 (account.ofAnswer (nested state subject).1)

variable {account} {validator : Validator} {nested : SubjectWalk} {subject : SubjectTree}

/-- Fewer subjects. -/
theorem MovesBelow.of_subset {subjects fewer : List SubjectTree}
    (h : account.MovesBelow nested subjects) (hsubset : fewer ⊆ subjects) :
    account.MovesBelow nested fewer :=
  fun state subject hsubject => h state subject (hsubset hsubject)

/-- A walk over a list gives rise to what its steps give rise to. -/
theorem walk_moves {α β : Type} {f : RunState → α → β × RunState} (own : α → β → List γ)
    (as : List α) (h : ∀ state, ∀ a ∈ as, account.Moves state (f state a).2 (own a (f state a).1))
    (state : RunState) :
    account.Moves state (threadMap f state as).2
      ((as.zip (threadMap f state as).1).flatMap fun pair => own pair.1 pair.2) := by
  induction as generalizing state with
  | nil => exact account.refl state
  | cons a as ih =>
      have hhead := h state a List.mem_cons_self
      have htail := ih (fun state b hb => h state b (List.mem_cons_of_mem a hb)) (f state a).2
      exact account.trans hhead htail

/-- A walk over a list whose steps give rise to something by their answers alone. -/
theorem walk_moves_snd {α β : Type} {f : RunState → α → β × RunState} (own : β → List γ)
    (as : List α) (h : ∀ state, ∀ a ∈ as, account.Moves state (f state a).2 (own (f state a).1))
    (state : RunState) :
    account.Moves state (threadMap f state as).2 ((threadMap f state as).1.flatMap own) := by
  have hwalk := walk_moves (fun _ => own) as h state
  rwa [flatMap_zip_snd own (Nat.le_of_eq (length_threadMap f state as))] at hwalk

/-- Reporting a value. -/
theorem reportValue_moves {value : EdgeTarget}
    (h : account.MovesBelow nested value.nested?.toList) (state : RunState) :
    account.Moves state (reportValue nested state value).2
      (account.ofValues (reportValue nested state value).1) := by
  cases value with
  | literal text => exact account.refl state
  | reference key => exact account.refl state
  | nested child =>
      have hwalk := h state child (by simp [EdgeTarget.nested?])
      rw [reportValue]
      cases hanswer : (nested state child).1 with
      | none =>
          rw [hanswer] at hwalk
          exact hwalk
      | some entries =>
          rw [hanswer] at hwalk
          simp only [ofValues, List.flatMap_map]
          exact hwalk

/-- Reporting the values of a property. -/
theorem reportValues_moves (values : List EdgeTarget)
    (h : account.MovesBelow nested (nestedIn values)) (state : RunState) :
    account.Moves state (reportValues nested state values).2
      (account.ofValues (reportValues nested state values).1) := by
  have hwalk := walk_moves_snd (f := reportValue nested) account.ofValues values
    (fun state value hvalue => reportValue_moves (h.of_subset fun child hchild =>
      List.mem_filterMap.2 ⟨value, hvalue, by simpa using hchild⟩) state) state
  rw [← account.ofValues_flatten] at hwalk
  exact hwalk

/-- Judging a property. -/
theorem judgeProperty_moves (validator : Validator) (property : PropertyShape)
    (h : account.MovesBelow nested subject.children) (state : RunState) :
    account.Moves state (validator.judgeProperty nested subject state property).2
      (account.ofJudged subject property
        (validator.judgeProperty nested subject state property).1) := by
  have hask := account.ask state
    (Validator.queries property.constraints subject.node (some property.path))
  have hvalues := reportValues_moves (subject.valuesFor property.path)
    (h.of_subset (nestedIn_valuesFor_subset subject property.path)) (state.ask
      (Validator.queries property.constraints subject.node (some property.path)))
  exact account.trans hask (account.trans hvalues (account.recordVerdict _ _))

/-- Judging a copy for a shape. -/
theorem judge_moves (validator : Validator) (shape : NodeShape)
    (h : account.MovesBelow nested subject.children) (state : RunState) :
    account.Moves state (validator.judge nested subject state shape).2
      (account.ofShaped subject shape (validator.judge nested subject state shape).1) := by
  have hproperties := walk_moves (f := validator.judgeProperty nested subject)
    (account.ofJudged subject) shape.properties
    (fun state property _ => judgeProperty_moves validator property h state) state
  exact account.trans hproperties
    (account.trans (account.ask _ _) (account.recordViolations _ _ _))

/-- Reading a copy that no shape targets. -/
theorem readPlain_moves (h : account.MovesBelow nested subject.children) (state : RunState) :
    account.Moves state (Validator.readPlain nested subject state).2
      (account.ofPlain (Validator.readPlain nested subject state).1) :=
  walk_moves_snd (f := Validator.readProperty nested)
    (fun reading => account.ofValues reading.values) (Validator.groupEdges subject.edges).entries
    (fun state _ hgroup => reportValues_moves _ (h.of_subset (nestedIn_groups_subset hgroup)) state)
    state

/-- The verdict on a copy gives rise to what it shows. -/
theorem verdictOn_moves (validator : Validator)
    (h : account.MovesBelow nested subject.children) (state : RunState) :
    account.Moves state (validator.verdictOn nested subject state).2
      (account.ofVerdict validator subject (validator.verdictOn nested subject state).1) := by
  unfold Validator.verdictOn ofVerdict
  cases hshapes : validator.shapes.shapesFor subject.cls with
  | nil => exact readPlain_moves h state
  | cons shape shapes =>
      exact walk_moves (f := validator.judge nested subject) (account.ofShaped subject)
        (shape :: shapes) (fun state shape _ => judge_moves validator shape h state) state

end WalkAccount

/-! ## The verdict on a subject covers its shapes -/

/-- An entry that was made for a shape: it has a verdict on each property of the shape. -/
structure NodeShape.IsFor (shape : NodeShape) (copy : SubjectTree) (entry : Entry) : Prop where
  uri : entry.uri = copy.uri
  cls : entry.cls = copy.cls
  shapeId : entry.shapeId = some shape.id
  judged : entry.properties = .judged entry.verdicts
  verdicts : List.Forall₂ (fun property verdict => verdict.path = property.path)
    shape.properties entry.verdicts

/-- A verdict covers a copy: it has one entry of the subject for each shape for its class, in the
order of their declaration, or one without a shape where there is none. -/
inductive Validator.Covers (validator : Validator) (copy : SubjectTree) : Verdict → Prop where
  | unshaped (entry : Entry) (hnone : validator.shapes.shapesFor copy.cls = [])
      (huri : entry.uri = copy.uri) (hcls : entry.cls = copy.cls) (hshape : entry.shapeId = none)
      (hplain : entry.properties = .plain entry.readings) :
      Covers validator copy (.unshaped entry)
  | shaped (entries : List Entry) (hsome : validator.shapes.shapesFor copy.cls ≠ [])
      (hentries : List.Forall₂ (fun shape entry => shape.IsFor copy entry)
        (validator.shapes.shapesFor copy.cls) entries) :
      Covers validator copy (.shaped entries)

namespace Validator

variable {validator : Validator} {copies : FirstCopies} {copy : SubjectTree} {verdict : Verdict}

/-- The entries of a verdict that covers a copy have its identifier. -/
theorem Covers.uri (h : validator.Covers copy verdict) : ∀ entry ∈ verdict.entries,
    entry.uri = copy.uri := by
  cases h with
  | unshaped entry hnone huri hcls hshape hplain =>
      intro other hother
      rw [List.mem_singleton.1 hother, huri]
  | shaped entries hsome hentries =>
      exact (forall_iff_of_forall₂ (p := fun _ => True) hentries fun _ _ hentry =>
        iff_of_true hentry.uri trivial).2 fun _ _ => trivial

/-- The verdict on a copy covers it. -/
theorem verdictOn_covers (validator : Validator) (nested : SubjectWalk) (copy : SubjectTree)
    (state : RunState) :
    validator.Covers copy (validator.verdictOn nested copy state).1 := by
  unfold verdictOn
  cases hshapes : validator.shapes.shapesFor copy.cls with
  | nil => exact .unshaped _ hshapes rfl rfl rfl rfl
  | cons shape shapes =>
      refine .shaped _ (by simp [hshapes]) ?_
      rw [hshapes]
      exact forall₂_threadMap (f := validator.judge nested copy)
        (fun state shape => ⟨rfl, rfl, rfl, rfl, forall₂_threadMap
          (f := validator.judgeProperty nested copy) (fun _ _ => rfl) shape.properties state⟩)
        _ state

end Validator

namespace WalkAccount

variable {γ : Type} {account : WalkAccount γ} {validator : Validator} {copies : FirstCopies}

/-- What a verdict with an entry for each shape gives rise to, from what such entries do. -/
theorem ofVerdict_shaped {copy : SubjectTree} {entries : List Entry}
    {own : NodeShape → Entry → List γ}
    (hown : ∀ shape entry, shape.IsFor copy entry →
      account.ofShaped copy shape entry = own shape entry)
    (hentries : List.Forall₂ (fun shape entry => shape.IsFor copy entry)
      (validator.shapes.shapesFor copy.cls) entries) :
    account.ofVerdict validator copy (.shaped entries) =
      ((validator.shapes.shapesFor copy.cls).zip entries).flatMap fun pair =>
        own pair.1 pair.2 :=
  List.flatMap_congr fun pair hpair =>
    hown pair.1 pair.2 ((List.forall₂_iff_zip.1 hentries).2 hpair)

/-! ## A walk below a subject -/

/-- A known verdict can be reported again, and the end of a validation closes what the verdict on
the first copy gave rise to. -/
structure Closes (account : WalkAccount γ) (validator : Validator) (copies : FirstCopies) :
    Prop where
  known : ∀ state uri verdict, state.verdict? uri = some verdict →
    account.Moves state state (account.ofAnswer (some verdict.entries))
  leave : ∀ before after uri copy verdict, copies.find? uri = some copy → copy.uri = uri →
    before.verdict? uri = none → uri ∉ before.inProgress → validator.Covers copy verdict →
    account.Moves (before.enter uri) after (account.ofVerdict validator copy verdict) →
    account.Moves before (after.leave uri verdict) (account.ofAnswer (some verdict.entries))

/-- A walk below a subject of a closed map gives rise to what it answers. -/
theorem resolve_moves (hcloses : account.Closes validator copies) (hcopies : copies.Complete)
    (depth : Nat) {subject : SubjectTree} (hknown : copies.contains subject.uri = true)
    (state : RunState) :
    account.Moves state (validator.resolve copies depth state subject).2
      (account.ofAnswer (validator.resolve copies depth state subject).1) := by
  induction depth generalizing state subject with
  | zero => exact account.refl state
  | succ depth ih =>
      rcases Validator.resolve_cases validator copies depth state subject with
        ⟨verdict, hverdict, hresolve⟩ | ⟨-, hresolve⟩ | ⟨hnew, hout, verdict, after, hwalk, hresolve⟩
      · rw [hresolve]
        exact hcloses.known state subject.uri verdict hverdict
      · rw [hresolve]
        exact account.refl state
      · obtain ⟨copy, hcopy, huri, hchildren⟩ := hcopies.exists_copy hknown
        have hnested : account.MovesBelow (validator.resolve copies depth) copy.children :=
          fun state child hchild => ih (hchildren child hchild) state
        have hbelow := verdictOn_moves validator hnested (state.enter subject.uri)
        have hcovers := validator.verdictOn_covers (validator.resolve copies depth) copy
          (state.enter subject.uri)
        rw [copies.copyOf_eq hcopy] at hwalk
        rw [hwalk] at hbelow hcovers
        rw [hresolve]
        exact hcloses.leave state after subject.uri copy verdict hcopy huri hnew hout hcovers hbelow

/-- So do the walks below several subjects. -/
theorem Closes.movesBelow (hcloses : account.Closes validator copies) (hcopies : copies.Complete)
    (depth : Nat) {subjects : List SubjectTree}
    (hknown : ∀ subject ∈ subjects, copies.contains subject.uri = true) :
    account.MovesBelow (validator.resolve copies depth) subjects :=
  fun state subject hsubject => resolve_moves hcloses hcopies depth (hknown subject hsubject) state

/-- So does the walk below a root of a forest. -/
theorem resolveRoot_moves {roots : List SubjectTree}
    (hcloses : account.Closes validator (.ofForest roots)) {root : SubjectTree}
    (hroot : root ∈ roots) (state : RunState) :
    account.Moves state (validator.resolveRoot (.ofForest roots) state root).2
      (account.ofAnswer (validator.resolveRoot (.ofForest roots) state root).1) :=
  resolve_moves hcloses (FirstCopies.ofForest_complete roots) _
    (FirstCopies.contains_root hroot) state

end WalkAccount

end PublicationAudit
