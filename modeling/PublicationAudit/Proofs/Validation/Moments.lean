import Mathlib.Logic.Relation
import PublicationAudit.Proofs.Validation.Calls

/-!
# The moments of a walk

Value lists are built in the midst of a walk, while some subjects are in progress. A `Visit` is a
moment at which a walk comes to a subject, together with the subjects whose validations enclose it;
`Visit.LeadsTo` goes from a visit to those below it, and `ValidationCall.Begins` starts with the
roots of a call. The main statements are `Visit.Builds.reported` and `ValidationCall.exists_visit`: at
every visit that is reached, the subjects in progress are the enclosing ones, and a list that is
built shows a nested subject by all entries of its verdict, or by its identifier exactly when it is
in progress; and every verdict that a run keeps was given at such a visit.
-/

namespace PublicationAudit

/-- The value lists of an entry. -/
def Entry.valueLists (entry : Entry) : List (List ReportedValue) :=
  entry.verdicts.map (·.values) ++ entry.readings.map (·.values)

/-- The verdict on a copy builds a value list, from the state `start` on: for a property of one of
the shapes for its class, or for one of its own properties where there is no shape. -/
inductive Validator.Builds (validator : Validator) (nested : SubjectWalk) (copy : SubjectTree)
    (state : RunState) : RunState → List EdgeTarget → List ReportedValue → Prop where
  | judged {shape : NodeShape} {property : PropertyShape} {before start : RunState}
      (hshape : ComesTo (validator.judge nested copy) state
        (validator.shapes.shapesFor copy.cls) before shape)
      (hproperty : ComesTo (validator.judgeProperty nested copy) before shape.properties start
        property) :
      validator.Builds nested copy state
        (start.ask (queries property.constraints copy.node (some property.path)))
        (copy.valuesFor property.path)
        (validator.judgeProperty nested copy start property).1.values
  | plain {group : String × List EdgeTarget} {start : RunState}
      (hnone : validator.shapes.shapesFor copy.cls = [])
      (hgroup : ComesTo (readProperty nested) state (groupEdges copy.edges).entries start group) :
      validator.Builds nested copy state start group.2 (readProperty nested start group).1.values

/-- A walk that comes to a subject: the state then, how deep subjects may be nested below, and the
subjects whose validations enclose it, the innermost first. -/
structure Visit where
  depth : Nat
  stack : List String
  state : RunState
  subject : SubjectTree

/-- A visit validates its subject, which is neither known nor in progress, and answers with the
verdict. -/
structure Visit.Validates (validator : Validator) (copies : FirstCopies) (visit : Visit)
    (verdict : Verdict) : Prop where
  unknown : visit.state.verdict? visit.subject.uri = none
  idle : visit.subject.uri ∉ visit.state.inProgress
  answer : (validator.resolve copies visit.depth visit.state visit.subject).1 =
    some verdict.entries

/-- A visit validates its subject and builds a value list in doing so. -/
structure Visit.Builds (validator : Validator) (copies : FirstCopies) (visit : Visit) (depth : Nat)
    (start : RunState) (values : List EdgeTarget) (built : List ReportedValue) : Prop where
  depth_eq : visit.depth = depth + 1
  unknown : visit.state.verdict? visit.subject.uri = none
  idle : visit.subject.uri ∉ visit.state.inProgress
  builds : validator.Builds (validator.resolve copies depth) (copies.copyOf visit.subject)
    (visit.state.enter visit.subject.uri) start values built

/-- A visit leads to the visits of the subjects that are nested in the values of a list that it
builds. -/
def Visit.LeadsTo (validator : Validator) (copies : FirstCopies) (visit next : Visit) : Prop :=
  ∃ start values built, visit.Builds validator copies next.depth start values built ∧
    ComesTo (reportValue (validator.resolve copies next.depth)) start values next.state
      (.nested next.subject) ∧
    next.stack = visit.subject.uri :: visit.stack

/-- A call begins with visits of its roots, those before which its observer did not stop it. -/
inductive ValidationCall.Begins (validator : Validator) (state : RunState) :
    ValidationCall → Visit → Prop where
  | one (subject : SubjectTree) : Begins validator state (.one subject)
      ⟨(FirstCopies.ofForest [subject]).size + 1, [], state, subject⟩
  | all {observer : Observer} {roots earlier later : List SubjectTree} {root : SubjectTree}
      {entries : List Entry} {before : RunState} (hroots : roots = earlier ++ root :: later)
      (hearlier : validator.validateFrom (.ofForest roots) observer 0 roots.length earlier state =
        (.ok entries, before))
      (haccepts : observer ⟨earlier.length, roots.length, root.uri⟩ = .ok ()) :
      Begins validator state (.all observer roots)
        ⟨(FirstCopies.ofForest roots).size + 1, [],
          before.announce ⟨earlier.length, roots.length, root.uri⟩, root⟩

/-- A call reaches a visit from one that it begins with. -/
def ValidationCall.Reaches (validator : Validator) (state : RunState) (call : ValidationCall)
    (visit : Visit) : Prop :=
  ∃ root, call.Begins validator state root ∧
    Relation.ReflTransGen (Visit.LeadsTo validator (.ofForest call.roots)) root visit

/-- How a value is reported while some subjects are in progress, in a list after which a state is
left: a nested subject by its identifier when it is in progress, and by all entries of its verdict
otherwise. -/
inductive EdgeTarget.IsReported (inProgress : List String) (after : RunState) :
    EdgeTarget → List ReportedValue → Prop where
  | literal (text : String) : IsReported inProgress after (.literal text) [.text text]
  | reference (key : String) : IsReported inProgress after (.reference key) [.text key]
  | folded (subject : SubjectTree) (hin : subject.uri ∈ inProgress) :
      IsReported inProgress after (.nested subject) [.text subject.uri]
  | unfolded (subject : SubjectTree) (verdict : Verdict) (hout : subject.uri ∉ inProgress)
      (hknown : after.verdict? subject.uri = some verdict) :
      IsReported inProgress after (.nested subject) (verdict.entries.map .entry)

variable {validator : Validator} {copies : FirstCopies} {depth : Nat} {stack : List String}
  {state later start : RunState} {values : List EdgeTarget} {built : List ReportedValue}

/-- What is reported of a value holds still when more verdicts are known. -/
theorem EdgeTarget.IsReported.advances {value : EdgeTarget} {piece : List ReportedValue}
    (h : value.IsReported stack state piece) (hmore : state.Advances later) :
    value.IsReported stack later piece := by
  cases h with
  | literal text => exact .literal text
  | reference key => exact .reference key
  | folded subject hin => exact .folded subject hin
  | unfolded subject verdict hout hknown =>
      exact .unfolded subject verdict hout (hmore.verdict?_eq hknown)

/-- A walk whose steps add verdicts has added verdicts when it comes to an element. -/
theorem ComesTo.advances {α β : Type} {f : RunState → α → β × RunState} {as : List α} {a : α}
    (h : ComesTo f start as state a)
    (hstep : ∀ state : RunState, ∀ a ∈ as, state.Advances (f state a).2) :
    start.Advances state :=
  h.state_induction (fun mid b hcomes hmid => hmid.trans (hstep mid b hcomes.mem)) (.refl start)

/-! ## States in which subjects can be visited -/

/-- A state with just the listed subjects in progress, none of which has a verdict, when walks of the
given depth are deep enough for the first copies that are left. -/
structure RunState.Poised (state : RunState) (copies : FirstCopies) (depth : Nat)
    (stack : List String) : Prop where
  inProgress : state.inProgress = stack
  separate : ∀ uri ∈ stack, state.verdict? uri = none
  deep : unmet copies.keys stack < depth

namespace RunState.Poised

/-- A walk leaves such a state. -/
theorem advances (h : state.Poised copies depth stack) (hmore : state.Advances later) :
    later.Poised copies depth stack where
  inProgress := hmore.inProgress.trans h.inProgress
  separate uri huri := hmore.separate uri (h.inProgress.symm ▸ huri) (h.separate uri huri)
  deep := h.deep

/-- So does the beginning of a validation, for walks that are less deep. -/
theorem enter {uri : String} (h : state.Poised copies (depth + 1) stack)
    (hknown : copies.contains uri = true) (hnew : state.verdict? uri = none)
    (hout : uri ∉ state.inProgress) : (state.enter uri).Poised copies depth (uri :: stack) where
  inProgress := congrArg (uri :: ·) h.inProgress
  separate other hother := by
    rcases List.mem_cons.1 hother with rfl | hold
    · exact hnew
    · exact h.separate other hold
  deep := by
    have hfewer := FirstCopies.unmet_enter_lt hknown (h.inProgress ▸ hout)
    have hdeep := h.deep
    omega

/-- While nothing is in progress, a root can be visited. -/
theorem root (copies : FirstCopies) (hidle : state.inProgress = []) :
    state.Poised copies (copies.size + 1) [] where
  inProgress := hidle
  separate _ h := by simp at h
  deep := by
    have hle := unmet_le_length copies.keys []
    have hsize : copies.keys.length = copies.size := List.length_map _
    omega

/-- A subject that is visited is folded when it is in progress, and otherwise answered for by its
verdict. -/
theorem answer (h : state.Poised copies depth stack) (validator : Validator)
    (subject : SubjectTree) :
    (subject.uri ∈ stack ∧ (validator.resolve copies depth state subject).1 = none) ∨
    (subject.uri ∉ stack ∧ ∃ verdict,
      (validator.resolve copies depth state subject).2.verdict? subject.uri = some verdict ∧
      (validator.resolve copies depth state subject).1 = some verdict.entries) := by
  obtain ⟨depth, rfl⟩ := Nat.exists_eq_succ_of_ne_zero (Nat.ne_zero_of_lt h.deep)
  rcases Validator.resolve_cases validator copies depth state subject with
    ⟨verdict, hverdict, hresolve⟩ | ⟨hin, hresolve⟩ | ⟨-, hout, verdict, after, -, hresolve⟩
  · refine .inr ⟨fun hin => ?_, verdict, by rw [hresolve, hverdict], by rw [hresolve]⟩
    rw [h.separate _ hin] at hverdict
    cases hverdict
  · exact .inl ⟨h.inProgress ▸ hin, by rw [hresolve]⟩
  · exact .inr ⟨h.inProgress ▸ hout, verdict, by
      rw [hresolve, RunState.verdict?_leave, if_pos rfl], by rw [hresolve]⟩

end RunState.Poised

/-! ## What is built at a visit -/

section Below

variable {nested : SubjectWalk} {copy : SubjectTree}

/-- The values of a list that is built are values of the copy. -/
theorem Validator.Builds.nestedIn_subset
    (h : validator.Builds nested copy state start values built) :
    nestedIn values ⊆ copy.children := by
  cases h with
  | judged => exact nestedIn_valuesFor_subset copy _
  | plain _ hgroup => exact nestedIn_groups_subset hgroup.mem

/-- The list is what reporting the values gives. -/
theorem Validator.Builds.built_eq (h : validator.Builds nested copy state start values built) :
    built = (reportValues nested start values).1 := by
  cases h <;> rfl

/-- Up to the building of a list a walk adds verdicts to those that were known. -/
theorem Validator.Builds.advances {copies : FirstCopies}
    (h : validator.Builds nested copy state start values built)
    (hbelow : (WalkAccount.asked validator copies).MovesBelow nested copy.children) :
    state.Advances start := by
  cases h with
  | judged hshape hproperty =>
      have hbefore := hshape.advances fun state shape _ =>
        (WalkAccount.judge_moves validator shape hbelow state).advances
      have hproperties := hproperty.advances fun state property _ =>
        (WalkAccount.judgeProperty_moves validator property hbelow state).advances
      exact hbefore.trans (hproperties.trans (.ask _ _))
  | plain hnone hgroup =>
      exact hgroup.advances fun state group hmem => (WalkAccount.reportValues_moves group.2
        (hbelow.of_subset (nestedIn_groups_subset hmem)) state).advances

/-- Every value list of a verdict was built. -/
theorem Validator.exists_builds {entry : Entry}
    (hentry : entry ∈ (validator.verdictOn nested copy state).1.entries)
    (hbuilt : built ∈ entry.valueLists) :
    ∃ start values, validator.Builds nested copy state start values built := by
  unfold verdictOn at hentry
  cases hshapes : validator.shapes.shapesFor copy.cls with
  | nil =>
      simp only [hshapes, Verdict.entries, List.mem_singleton] at hentry
      subst hentry
      obtain ⟨reading, hreading, rfl⟩ := List.mem_map.1 hbuilt
      obtain ⟨start, group, hgroup, rfl⟩ := exists_comesTo hreading
      exact ⟨start, group.2, .plain hshapes hgroup⟩
  | cons shape shapes =>
      simp only [hshapes, Verdict.entries] at hentry
      obtain ⟨before, shape, hshape, rfl⟩ := exists_comesTo hentry
      have hverdicts := (List.mem_append.1 hbuilt).resolve_right fun h => by
        simp [judge, Entry.readings] at h
      obtain ⟨verdict, hverdict, rfl⟩ := List.mem_map.1 hverdicts
      obtain ⟨start, property, hproperty, rfl⟩ := exists_comesTo hverdict
      exact ⟨_, _, .judged (hshapes ▸ hshape) hproperty⟩

end Below

/-- A value is reported by what is known of it and what is in progress. -/
theorem reportValue_reported (h : state.Poised copies depth stack) (validator : Validator)
    (value : EdgeTarget) :
    value.IsReported stack (reportValue (validator.resolve copies depth) state value).2
      (reportValue (validator.resolve copies depth) state value).1 := by
  cases value with
  | literal text => exact .literal text
  | reference key => exact .reference key
  | nested child =>
      rw [reportValue]
      rcases h.answer validator child with ⟨hin, hnone⟩ | ⟨hout, verdict, hverdict, hsome⟩
      · simp only [hnone]
        exact .folded child hin
      · simp only [hsome]
        exact .unfolded child verdict hout hverdict

/-- Values are reported in order, piece by piece. -/
theorem reportValues_reported
    (hbelow : (WalkAccount.asked validator copies).MovesBelow (validator.resolve copies depth)
      (nestedIn values)) (hstart : start.Poised copies depth stack) :
    ∃ pieces, (reportValues (validator.resolve copies depth) start values).1 = pieces.flatten ∧
      List.Forall₂ (EdgeTarget.IsReported stack
        (reportValues (validator.resolve copies depth) start values).2) values pieces := by
  refine ⟨_, rfl, ?_⟩
  show List.Forall₂ (EdgeTarget.IsReported stack
    (threadMap (reportValue (validator.resolve copies depth)) start values).2) values _
  induction values generalizing start with
  | nil => exact .nil
  | cons value values ih =>
      have hvalue : nestedIn [value] ⊆ nestedIn (value :: values) :=
        (List.sublist_append_left [value] values).filterMap _ |>.subset
      have hvalues : nestedIn values ⊆ nestedIn (value :: values) :=
        (List.sublist_cons_self value values).filterMap _ |>.subset
      have hfirst := (WalkAccount.reportValues_moves [value] (hbelow.of_subset hvalue) start).advances
      have hrest := (WalkAccount.reportValues_moves values (hbelow.of_subset hvalues)
        (reportValue (validator.resolve copies depth) start value).2).advances
      -- What was reported of the first value is so still after the others.
      exact .cons ((reportValue_reported hstart validator value).advances hrest)
        (ih (hbelow.of_subset hvalues) (hstart.advances hfirst))

/-- At a visit that validates its subject, every value list of the verdict is built. -/
theorem Visit.Validates.exists_builds {visit : Visit} {verdict : Verdict} {entry : Entry}
    (h : visit.Validates validator copies verdict) (hentry : entry ∈ verdict.entries)
    (hbuilt : built ∈ entry.valueLists) :
    ∃ depth start values, visit.Builds validator copies depth start values built := by
  have hanswer := h.answer
  cases hdepth : visit.depth with
  | zero => simp [hdepth, Validator.resolve] at hanswer
  | succ depth =>
      simp only [hdepth, Validator.resolve, h.unknown, h.idle, if_false, Option.some.injEq]
        at hanswer
      rw [← hanswer] at hentry
      obtain ⟨start, values, hbuilds⟩ := Validator.exists_builds hentry hbuilt
      exact ⟨depth, start, values, hdepth, h.unknown, h.idle, hbuilds⟩

/-! ## Visits that are reached -/

/-- A visit of a subject that has a first copy, in a state in which it can be visited. -/
structure Visit.Fits (copies : FirstCopies) (visit : Visit) : Prop where
  poised : visit.state.Poised copies visit.depth visit.stack
  known : copies.contains visit.subject.uri = true

variable {visit next : Visit}

/-- A list is begun with just the subject and those that enclose it in progress, and its values nest
subjects that have first copies. -/
theorem Visit.Builds.begun (h : visit.Builds validator copies depth start values built)
    (hfits : visit.Fits copies) (hcopies : copies.Complete) :
    start.Poised copies depth (visit.subject.uri :: visit.stack) ∧
      (WalkAccount.asked validator copies).MovesBelow (validator.resolve copies depth)
        (nestedIn values) ∧
      ∀ child ∈ nestedIn values, copies.contains child.uri = true := by
  obtain ⟨copy, hcopy⟩ := Option.isSome_iff_exists.1 hfits.known
  have hchildren := (hcopies visit.subject.uri copy hcopy).2
  have hbuilds := h.builds
  rw [copies.copyOf_eq hcopy] at hbuilds
  have hbelow := (WalkAccount.asked_closes validator copies).movesBelow hcopies depth hchildren
  have hpoised := hfits.poised
  rw [h.depth_eq] at hpoised
  exact ⟨(hpoised.enter hfits.known h.unknown h.idle).advances (hbuilds.advances hbelow),
    hbelow.of_subset hbuilds.nestedIn_subset,
    fun child hchild => hchildren child (hbuilds.nestedIn_subset hchild)⟩

/-- Visits lead to visits that fit. -/
theorem Visit.LeadsTo.fits (h : visit.LeadsTo validator copies next) (hcopies : copies.Complete)
    (hfits : visit.Fits copies) : next.Fits copies := by
  obtain ⟨start, values, built, hbuilds, hcomes, hstack⟩ := h
  obtain ⟨hpoised, hbelow, hchildren⟩ := hbuilds.begun hfits hcopies
  have hadvances := hcomes.advances fun state value hvalue =>
    (WalkAccount.reportValue_moves (hbelow.of_subset fun child hchild =>
      List.mem_filterMap.2 ⟨value, hvalue, by simpa using hchild⟩) state).advances
  refine ⟨?_, hchildren _ (List.mem_filterMap.2 ⟨_, hcomes.mem, rfl⟩)⟩
  rw [hstack]
  exact hpoised.advances hadvances

/-- So do visits that are reached in several steps. -/
theorem Visit.Fits.of_reached (hfits : visit.Fits copies) (hcopies : copies.Complete)
    (h : Relation.ReflTransGen (Visit.LeadsTo validator copies) visit next) : next.Fits copies := by
  induction h with
  | refl => exact hfits
  | tail _ hleads ih => exact hleads.fits hcopies ih

/-- A call on a state with nothing in progress begins with visits that fit. -/
theorem ValidationCall.Begins.fits {call : ValidationCall} (h : call.Begins validator state visit)
    (hidle : state.inProgress = []) : visit.Fits (.ofForest call.roots) := by
  cases h with
  | one subject =>
      exact ⟨.root _ hidle, FirstCopies.contains_root List.mem_cons_self⟩
  | @all observer roots earlier later root entries before hroots hearlier haccepts =>
      have hadvances : state.Advances before := by
        have hrun : state.Advances (validator.validateFrom (.ofForest roots) observer 0
            roots.length earlier state).2 :=
          Validator.validateFrom_induction 0
            (fun mid progress hmid => hmid.trans (.announce mid progress))
            (fun mid root hroot hmid => hmid.trans (validator.resolveRoot_asks
              (hroots ▸ List.mem_append_left _ hroot) mid).advances) (.refl state)
        rwa [hearlier] at hrun
      exact ⟨.root _ (hadvances.inProgress.trans hidle), FirstCopies.contains_root
        (hroots ▸ List.mem_append_right _ List.mem_cons_self)⟩

/-- At every visit that a call reaches, the subjects in progress are those whose validations enclose
it, and a list that is built reports its values accordingly. -/
theorem Visit.Builds.reported {call : ValidationCall} (hidle : state.inProgress = [])
    (hreaches : call.Reaches validator state visit)
    (h : visit.Builds validator (.ofForest call.roots) depth start values built) :
    start.inProgress = visit.subject.uri :: visit.stack ∧
      ∃ pieces, built = pieces.flatten ∧
        List.Forall₂ (EdgeTarget.IsReported start.inProgress
          (reportValues (validator.resolve (.ofForest call.roots) depth) start values).2)
          values pieces := by
  have hcopies := FirstCopies.ofForest_complete call.roots
  obtain ⟨root, hbegins, hreached⟩ := hreaches
  obtain ⟨hpoised, hbelow, -⟩ :=
    h.begun ((hbegins.fits hidle).of_reached hcopies hreached) hcopies
  obtain ⟨pieces, hpieces, hreported⟩ := reportValues_reported hbelow hpoised
  rw [h.builds.built_eq, hpoised.inProgress]
  exact ⟨rfl, pieces, hpieces, hreported⟩

/-! ## Every verdict is given at a visit -/

/-- A walk reaches a verdict on a subject. -/
def RunState.Gains (before after : RunState) (uri : String) (verdict : Verdict) : Prop :=
  ¬ before.verdict? uri = some verdict ∧ after.verdict? uri = some verdict

section Gains

variable {nested : SubjectWalk} {copy : SubjectTree} {uri : String} {verdict : Verdict}

/-- A verdict that is reached in a walk over a list is reached in one of its steps. -/
theorem exists_gains {α β : Type} {f : RunState → α → β × RunState} {as : List α}
    (h : start.Gains (threadMap f start as).2 uri verdict) :
    ∃ state a, ComesTo f start as state a ∧ state.Gains (f state a).2 uri verdict :=
  exists_comesTo_of_change (P := fun state : RunState => state.verdict? uri = some verdict) h.1 h.2

/-- A verdict that is reached in reporting values is reached below one of them. -/
theorem reportValues_gains (h : start.Gains (reportValues nested start values).2 uri verdict) :
    ∃ state child, ComesTo (reportValue nested) start values state (.nested child) ∧
      state.Gains (nested state child).2 uri verdict := by
  obtain ⟨state, value, hcomes, hbefore, hafter⟩ := exists_gains (f := reportValue nested) h
  cases value with
  | literal text => exact absurd hafter hbefore
  | reference key => exact absurd hafter hbefore
  | nested child =>
      have hstate : (reportValue nested state (.nested child)).2 = (nested state child).2 := by
        rw [reportValue]
        split <;> rfl
      exact ⟨state, child, hcomes, hbefore, hstate ▸ hafter⟩

/-- A verdict that is reached in judging a copy is reached in building one of the value lists. -/
theorem Validator.verdictOn_gains
    (h : state.Gains (validator.verdictOn nested copy state).2 uri verdict) :
    ∃ start values built, validator.Builds nested copy state start values built ∧
      start.Gains (reportValues nested start values).2 uri verdict := by
  unfold verdictOn at h
  cases hshapes : validator.shapes.shapesFor copy.cls with
  | nil =>
      rw [hshapes] at h
      obtain ⟨start, group, hgroup, hgains⟩ := exists_gains (f := readProperty nested) h
      exact ⟨start, group.2, _, .plain hshapes hgroup, hgains⟩
  | cons shape shapes =>
      rw [hshapes] at h
      obtain ⟨before, shape, hshape, hbefore, hjudged⟩ :=
        exists_gains (f := validator.judge nested copy) h
      -- Counting findings, of the shape or of a property, reaches no verdict.
      obtain ⟨_, hviolations⟩ := RunState.recordViolations_eq
        ((threadMap (validator.judgeProperty nested copy) before shape.properties).2.ask
          (queries shape.constraints copy.node none)) shape.tier
        (validator.violations shape.constraints copy.node none)
      rw [show (validator.judge nested copy before shape).2 = _ from hviolations] at hjudged
      obtain ⟨start, property, hproperty, hstart, hverdict⟩ :=
        exists_gains (f := validator.judgeProperty nested copy) ⟨hbefore, hjudged⟩
      obtain ⟨_, hrecorded⟩ := RunState.recordVerdict_eq
        (reportValues nested (start.ask (queries property.constraints copy.node
          (some property.path))) (copy.valuesFor property.path)).2
        (validator.judgeProperty nested copy start property).1
      rw [show (validator.judgeProperty nested copy start property).2 = _ from hrecorded]
        at hverdict
      exact ⟨_, _, _, .judged (hshapes ▸ hshape) hproperty, hstart, hverdict⟩

end Gains

/-- A verdict that is reached in the walk of a visit is the one on the subject of a visit that it
reaches and that validates its subject. -/
theorem Visit.exists_validates (visit : Visit) {uri : String} {verdict : Verdict}
    (h : visit.state.Gains (validator.resolve copies visit.depth visit.state visit.subject).2 uri
      verdict) :
    ∃ below, Relation.ReflTransGen (Visit.LeadsTo validator copies) visit below ∧
      below.subject.uri = uri ∧ below.Validates validator copies verdict := by
  obtain ⟨depth, stack, state, subject⟩ := visit
  induction depth generalizing stack state subject with
  | zero => exact absurd h.2 h.1
  | succ depth ih =>
      obtain ⟨hbefore, hafter⟩ := h
      simp only at hbefore hafter
      rcases Validator.resolve_cases validator copies depth state subject with
        ⟨known, -, hresolve⟩ | ⟨-, hresolve⟩ | ⟨hnew, hout, given, after, hwalk, hresolve⟩
      · rw [hresolve] at hafter
        exact absurd hafter hbefore
      · rw [hresolve] at hafter
        exact absurd hafter hbefore
      · rw [hresolve, RunState.verdict?_leave] at hafter
        split at hafter
        · rename_i hsame
          cases hafter
          exact ⟨_, .refl, hsame.symm, hnew, hout, by rw [hresolve]⟩
        · have hgains : (state.enter subject.uri).Gains (validator.verdictOn
              (validator.resolve copies depth) (copies.copyOf subject)
              (state.enter subject.uri)).2 uri verdict := ⟨hbefore, by rwa [hwalk]⟩
          obtain ⟨start, values, built, hbuilds, hlist⟩ := Validator.verdictOn_gains hgains
          obtain ⟨mid, child, hcomes, hchild⟩ := reportValues_gains hlist
          obtain ⟨below, hreached, hbelow⟩ := ih (subject.uri :: stack) mid child hchild
          exact ⟨below, .head ⟨start, values, built, ⟨rfl, hnew, hout, hbuilds⟩, hcomes, rfl⟩
            hreached, hbelow⟩

/-! ## The visits of a call -/

/-- A run over the roots that are left reaches a verdict below one of them. -/
theorem ValidationCall.exists_begins_of_validateFrom {observer : Observer}
    {roots : List SubjectTree} (earlier part : List SubjectTree) {entries : List Entry}
    {mid : RunState} {uri : String} {verdict : Verdict} (hroots : roots = earlier ++ part)
    (hearlier : validator.validateFrom (.ofForest roots) observer 0 roots.length earlier state =
      (.ok entries, mid))
    (h : mid.Gains (validator.validateFrom (.ofForest roots) observer earlier.length roots.length
      part mid).2 uri verdict) :
    ∃ root, Begins validator state (.all observer roots) root ∧ root.state.Gains
      (validator.resolve (.ofForest roots) root.depth root.state root.subject).2 uri verdict := by
  induction part generalizing earlier entries mid with
  | nil => exact absurd h.2 h.1
  | cons root part ih =>
      obtain ⟨hbefore, hafter⟩ := h
      cases hobserver : observer ⟨earlier.length, roots.length, root.uri⟩ with
      | error reason =>
          rw [Validator.validateFrom] at hafter
          simp only [hobserver] at hafter
          exact absurd hafter hbefore
      | ok accepted =>
          let visit : Visit := ⟨(FirstCopies.ofForest roots).size + 1, [],
            mid.announce ⟨earlier.length, roots.length, root.uri⟩, root⟩
          let walked := validator.resolveRoot (.ofForest roots) visit.state root
          by_cases hwalked : walked.2.verdict? uri = some verdict
          · exact ⟨visit, .all hroots hearlier hobserver, hbefore, hwalked⟩
          · -- The root joins those before, and the run goes on.
            have hpast := Validator.validateFrom_append hearlier [root]
            rw [Nat.zero_add, Validator.validateFrom_cons_accepted hobserver] at hpast
            rw [Validator.validateFrom_cons_accepted hobserver] at hafter
            refine ih (earlier ++ [root]) (by rw [hroots, List.append_assoc]; rfl) hpast
              ⟨hwalked, ?_⟩
            rw [List.length_append]
            exact hafter

/-- A verdict that a call adds is given at a visit that the call reaches. -/
theorem ValidationCall.exists_reaches (call : ValidationCall) {uri : String} {verdict : Verdict}
    (h : state.Gains (call.run validator state).2 uri verdict) :
    ∃ visit, call.Reaches validator state visit ∧ visit.subject.uri = uri ∧
      visit.Validates validator (.ofForest call.roots) verdict := by
  obtain ⟨root, hbegins, hgains⟩ : ∃ root, call.Begins validator state root ∧ root.state.Gains
      (validator.resolve (.ofForest call.roots) root.depth root.state root.subject).2 uri
        verdict := by
    cases call with
    | one subject => exact ⟨_, .one subject, h⟩
    | all observer roots => exact exists_begins_of_validateFrom [] roots rfl rfl h
  obtain ⟨visit, hreached, hvisit⟩ := root.exists_validates hgains
  exact ⟨visit, ⟨root, hbegins, hreached⟩, hvisit⟩

/-- A verdict that is known after several calls was given at a visit that one of them reached. -/
theorem ValidationCall.exists_visit (calls : List ValidationCall) {uri : String} {verdict : Verdict}
    (h : (runAll validator .fresh calls).2.verdict? uri = some verdict) :
    ∃ before call after visit, calls = before ++ call :: after ∧
      call.Reaches validator (runAll validator .fresh before).2 visit ∧ visit.subject.uri = uri ∧
      visit.Validates validator (.ofForest call.roots) verdict := by
  induction calls using List.reverseRecOn with
  | nil => simp [runAll, RunState.fresh, RunState.verdict?] at h
  | append_singleton calls call ih =>
      by_cases hknown : (runAll validator .fresh calls).2.verdict? uri = some verdict
      · obtain ⟨before, earlier, after, visit, rfl, hvisit⟩ := ih hknown
        exact ⟨before, earlier, after ++ [call], visit, by simp, hvisit⟩
      · rw [runAll_append] at h
        obtain ⟨visit, hvisit⟩ := exists_reaches call ⟨hknown, h⟩
        exact ⟨calls, call, [], visit, rfl, hvisit⟩

end PublicationAudit
