import PublicationAudit.Proofs.Validation.FlatReading
import PublicationAudit.Proofs.Validation.Moments

/-!
# Nested entries agree with the verdicts

The entries of a nested subject are copied into the value lists of other subjects while the run is
still going on. The main statement is `nested_entries_coherent`: whatever is shown at any depth is an
entry of the one verdict that the run keeps on its subject. `RunState.Coherent` is the invariant, and
the account `WalkAccount.shown` carries it through a walk.
-/

namespace PublicationAudit

/-! ## What an entry shows -/

/-- An entry shows another among its values. -/
def Entry.Shows (entry nested : Entry) : Prop := ∃ values ∈ entry.valueLists, .entry nested ∈ values

namespace RunState

/-- The run keeps a verdict on the subject of the entry, and the entry is one of that verdict. -/
def Holds (state : RunState) (entry : Entry) : Prop :=
  ∃ verdict, state.verdict? entry.uri = some verdict ∧ entry ∈ verdict.entries

/-- The entries of a verdict are about its subject, and what they show belongs to verdicts. -/
structure Coherent (state : RunState) : Prop where
  own : ∀ uri verdict, state.verdict? uri = some verdict → ∀ entry ∈ verdict.entries,
    entry.uri = uri
  shown : ∀ uri verdict, state.verdict? uri = some verdict → ∀ entry ∈ verdict.entries,
    ∀ nested, entry.Shows nested → state.Holds nested

variable {before mid after state : RunState} {entry nested : Entry} {uri : String}
  {verdict : Verdict}

/-- Before a run there is nothing to show. -/
theorem coherent_fresh : fresh.Coherent :=
  ⟨fun _ _ h => by simp [fresh, verdict?] at h, fun _ _ h => by simp [fresh, verdict?] at h⟩

/-- States with the same verdicts are coherent together. -/
theorem Coherent.of_verdicts (h : before.Coherent) (hverdicts : after.verdicts = before.verdicts) :
    after.Coherent := by
  have hsame : after.verdict? = before.verdict? := by
    funext uri
    rw [verdict?, verdict?, hverdicts]
  have hholds : ∀ entry, before.Holds entry → after.Holds entry := fun entry hentry => by
    rw [Holds, hsame]
    exact hentry
  exact ⟨hsame ▸ h.own, fun uri verdict hverdict entry hentry nested hnested =>
    hholds nested (h.shown uri verdict (hsame ▸ hverdict) entry hentry nested hnested)⟩

/-- An entry of a verdict is held. -/
theorem Coherent.holds (h : state.Coherent) (hverdict : state.verdict? uri = some verdict)
    (hentry : entry ∈ verdict.entries) : state.Holds entry :=
  ⟨verdict, by rwa [h.own uri verdict hverdict entry hentry], hentry⟩

/-- Whatever an entry that is held shows at any depth is held. -/
theorem Coherent.holds_below (h : state.Coherent) (hentry : state.Holds entry)
    (hbelow : Relation.ReflTransGen Entry.Shows entry nested) : state.Holds nested := by
  induction hbelow with
  | refl => exact hentry
  | tail _ hshows ih =>
      obtain ⟨verdict, hverdict, hmem⟩ := ih
      exact h.shown _ verdict hverdict _ hmem _ hshows

/-- What is held stays held. -/
theorem Holds.advances (h : before.Holds entry) (hmore : before.Advances after) :
    after.Holds entry := by
  obtain ⟨verdict, hverdict, hentry⟩ := h
  exact ⟨verdict, hmore.verdict?_eq hverdict, hentry⟩

/-- A verdict that shows what is held already keeps a state coherent. -/
theorem Coherent.leave (h : after.Coherent) (hnew : after.verdict? uri = none)
    (hown : ∀ entry ∈ verdict.entries, entry.uri = uri)
    (hshown : ∀ entry ∈ verdict.entries, ∀ nested, entry.Shows nested → after.Holds nested) :
    (after.leave uri verdict).Coherent := by
  have hholds : ∀ entry, after.Holds entry → (after.leave uri verdict).Holds entry :=
    fun entry ⟨known, hknown, hentry⟩ =>
      ⟨known, verdict?_leave_of_known hnew _ known hknown, hentry⟩
  constructor <;> intro other known hknown entry hentry <;> rw [verdict?_leave] at hknown <;>
    split at hknown
  · cases hknown
    rename_i hsame
    rw [hown entry hentry, hsame]
  · exact h.own other known hknown entry hentry
  · cases hknown
    exact fun nested hnested => hholds nested (hshown entry hentry nested hnested)
  · exact fun nested hnested =>
      hholds nested (h.shown other known hknown entry hentry nested hnested)

end RunState

/-! ## The account of what is shown -/

namespace WalkAccount

/-- The account of the entries of nested subjects that are shown: a walk keeps coherent states
coherent, and holds what it has shown. -/
def shown : WalkAccount Entry where
  Moves before after own := before.Advances after ∧
    (before.Coherent → after.Coherent ∧ ∀ entry ∈ own, after.Holds entry)
  ofQueries _ := []
  ofNested entry := [entry]
  ofProperty _ := []
  ofViolations _ _ := []
  refl state := ⟨.refl state, fun h => ⟨h, fun _ hentry => by simp at hentry⟩⟩
  trans h hmore := ⟨h.1.trans hmore.1, fun hbefore => by
    obtain ⟨hmid, hown⟩ := h.2 hbefore
    obtain ⟨hafter, hownMore⟩ := hmore.2 hmid
    exact ⟨hafter, fun entry hentry => (List.mem_append.1 hentry).elim
      (fun hold => (hown entry hold).advances hmore.1) (hownMore entry)⟩⟩
  ask state queries := ⟨.ask state queries, fun h =>
    ⟨h.of_verdicts rfl, fun _ hentry => by simp at hentry⟩⟩
  recordVerdict state verdict := ⟨.recordVerdict state verdict, fun h => by
    obtain ⟨tally, htally⟩ := state.recordVerdict_eq verdict
    exact ⟨h.of_verdicts (by rw [htally]), fun _ hentry => by simp at hentry⟩⟩
  recordViolations state tier violations := ⟨.recordViolations state tier violations, fun h => by
    obtain ⟨tally, htally⟩ := state.recordViolations_eq tier violations
    exact ⟨h.of_verdicts (by rw [htally]), fun _ hentry => by simp at hentry⟩⟩

variable {validator : Validator} {copies : FirstCopies} {copy : SubjectTree} {verdict : Verdict}
  {entry nested : Entry}

/-- An entry among reported values is shown by them. -/
theorem mem_shown_ofValues {values : List ReportedValue} (h : .entry nested ∈ values) :
    nested ∈ shown.ofValues values :=
  List.mem_flatMap.2 ⟨_, h, List.mem_singleton_self nested⟩

/-- What an entry for a shape shows. -/
theorem mem_shown_ofShaped {shape : NodeShape} (hentry : shape.IsFor copy entry)
    (h : entry.Shows nested) : nested ∈ shown.ofShaped copy shape entry := by
  obtain ⟨values, hvalues, hnested⟩ := h
  have hreadings : entry.readings = [] := by rw [Entry.readings, hentry.judged]
  rw [Entry.valueLists, hreadings, List.map_nil, List.append_nil] at hvalues
  obtain ⟨verdict, hverdict, rfl⟩ := List.mem_map.1 hvalues
  obtain ⟨property, hpair⟩ := mem_zip_of_mem_right hentry.verdicts.length_eq hverdict
  refine List.mem_append_left _ (List.mem_flatMap.2 ⟨_, hpair, ?_⟩)
  exact List.mem_append_right _ (List.mem_append_left _ (mem_shown_ofValues hnested))

/-- What an entry without a shape shows. -/
theorem mem_shown_ofPlain (hplain : entry.properties = .plain entry.readings)
    (h : entry.Shows nested) : nested ∈ shown.ofPlain entry := by
  obtain ⟨values, hvalues, hnested⟩ := h
  have hverdicts : entry.verdicts = [] := by rw [Entry.verdicts, hplain]
  rw [Entry.valueLists, hverdicts, List.map_nil, List.nil_append] at hvalues
  obtain ⟨reading, hreading, rfl⟩ := List.mem_map.1 hvalues
  exact List.mem_flatMap.2 ⟨reading, hreading, mem_shown_ofValues hnested⟩

/-- What the entries of a verdict show. -/
theorem mem_shown_ofVerdict (hcovers : validator.Covers copy verdict)
    (hentry : entry ∈ verdict.entries) (h : entry.Shows nested) :
    nested ∈ shown.ofVerdict validator copy verdict := by
  cases hcovers with
  | unshaped only hnone huri hcls hshape hplain =>
      obtain rfl := List.mem_singleton.1 hentry
      exact mem_shown_ofPlain hplain h
  | shaped entries hsome hentries =>
      obtain ⟨shape, hpair⟩ := mem_zip_of_mem_right hentries.length_eq hentry
      exact List.mem_flatMap.2 ⟨_, hpair,
        mem_shown_ofShaped ((List.forall₂_iff_zip.1 hentries).2 hpair) h⟩

/-- The answer for a nested subject shows its entries. -/
theorem shown_ofAnswer (answer : Option (List Entry)) :
    shown.ofAnswer answer = answer.getD [] :=
  List.flatMap_singleton' _

/-- The end of a validation closes what its entries show. -/
theorem shown_closes (validator : Validator) (copies : FirstCopies) :
    shown.Closes validator copies where
  known state uri verdict hknown := ⟨.refl state, fun h => ⟨h, fun entry hentry => by
    rw [shown_ofAnswer] at hentry
    exact h.holds hknown hentry⟩⟩
  leave before after uri copy verdict hcopy huri hnew hout hcovers h := by
    obtain ⟨hadvances, hcoherent⟩ := h
    refine ⟨hadvances.leave hnew hout, fun hbefore => ?_⟩
    obtain ⟨hafter, hown⟩ := hcoherent (hbefore.of_verdicts rfl)
    have hnone : after.verdict? uri = none := hadvances.separate uri List.mem_cons_self hnew
    have hleft : (after.leave uri verdict).Coherent := hafter.leave hnone
      (fun entry hentry => (hcovers.uri entry hentry).trans huri)
      fun entry hentry nested hnested => hown nested (mem_shown_ofVerdict hcovers hentry hnested)
    refine ⟨hleft, fun entry hentry => ?_⟩
    rw [shown_ofAnswer] at hentry
    exact hleft.holds (by rw [RunState.verdict?_leave, if_pos rfl]) hentry

end WalkAccount

/-! ## Runs and sequences of calls -/

namespace Validator

variable {validator : Validator} {observer : Observer} {roots part : List SubjectTree}
  {total : Nat}

/-- A walk below a root shows what it answers. -/
theorem resolveRoot_shown (validator : Validator) {root : SubjectTree} (hroot : root ∈ roots)
    (state : RunState) :
    let walked := validator.resolveRoot (.ofForest roots) state root
    state.Advances walked.2 ∧ (state.Coherent →
      walked.2.Coherent ∧ ∀ entry ∈ walked.1.getD [], walked.2.Holds entry) := by
  have hmoves := WalkAccount.resolveRoot_moves (WalkAccount.shown_closes validator _) hroot state
  rwa [WalkAccount.shown_ofAnswer] at hmoves

/-- A run keeps coherent states coherent, also when it is stopped, and holds what it returns. -/
theorem validateFrom_shown (hpart : part ⊆ roots) (done : Nat) (state : RunState) :
    let run := validator.validateFrom (.ofForest roots) observer done total part state
    state.Advances run.2 ∧ (state.Coherent →
      run.2.Coherent ∧ ∀ entries, run.1 = .ok entries → ∀ entry ∈ entries, run.2.Holds entry) := by
  induction part generalizing done state with
  | nil =>
      refine ⟨.refl state, fun h => ⟨h, fun entries hentries entry hentry => ?_⟩⟩
      cases hentries
      simp at hentry
  | cons root part ih =>
      obtain ⟨hroot, hothers⟩ := List.cons_subset.1 hpart
      obtain ⟨hwalk, hshown⟩ := resolveRoot_shown validator hroot
        (state.announce ⟨done, total, root.uri⟩)
      have hannounce := RunState.Advances.announce state ⟨done, total, root.uri⟩
      cases hobserver : observer ⟨done, total, root.uri⟩ with
      | error reason =>
          simp only [validateFrom, hobserver]
          exact ⟨hannounce, fun h => ⟨h.of_verdicts rfl, fun _ hentries => by cases hentries⟩⟩
      | ok accepted =>
          obtain ⟨hrest, hshownRest⟩ := ih hothers (done + 1)
            (validator.resolveRoot (.ofForest roots)
              (state.announce ⟨done, total, root.uri⟩) root).2
          simp only [validateFrom_cons_accepted hobserver]
          generalize validator.validateFrom (.ofForest roots) observer (done + 1) total part _ =
            run at hrest hshownRest ⊢
          refine ⟨hannounce.trans (hwalk.trans hrest), fun h => ?_⟩
          obtain ⟨hcoherent, hheld⟩ := hshown (h.of_verdicts rfl)
          obtain ⟨hfinal, hheldRest⟩ := hshownRest hcoherent
          refine ⟨hfinal, fun entries hentries entry hentry => ?_⟩
          obtain ⟨failure | rest, final⟩ := run
          · cases hentries
          · cases hentries
            exact (List.mem_append.1 hentry).elim
              (fun hfirst => (hheld entry hfirst).advances hrest) (hheldRest rest rfl entry)

end Validator

namespace ValidationCall

variable {validator : Validator} {state : RunState}

/-- A call keeps coherent states coherent, and holds what it returns. -/
theorem run_shown (validator : Validator) (call : ValidationCall) (h : state.Coherent) :
    let answered := call.run validator state
    answered.2.Coherent ∧ ∀ entries, answered.1 = .ok entries → ∀ entry ∈ entries,
      answered.2.Holds entry := by
  cases call with
  | one subject =>
      have hroot : subject ∈ [subject] := List.mem_cons_self
      obtain ⟨hcoherent, hheld⟩ := (validator.resolveRoot_shown hroot state).2 h
      refine ⟨hcoherent, fun entries hentries => ?_⟩
      cases hentries
      exact hheld
  | all observer roots => exact (Validator.validateFrom_shown (List.Subset.refl roots) 0 state).2 h

/-- So does a sequence of calls. -/
theorem runAll_shown (validator : Validator) (calls : List ValidationCall) (h : state.Coherent) :
    let answered := runAll validator state calls
    answered.2.Coherent ∧ ∀ entries, .ok entries ∈ answered.1 → ∀ entry ∈ entries,
      answered.2.Holds entry := by
  induction calls generalizing state with
  | nil => exact ⟨h, fun _ hentries => by simp [runAll] at hentries⟩
  | cons call calls ih =>
      obtain ⟨hcoherent, hheld⟩ := run_shown validator call h
      obtain ⟨hfinal, hheldRest⟩ := ih hcoherent
      refine ⟨hfinal, fun entries hentries entry hentry => ?_⟩
      rcases List.mem_cons.1 hentries with hfirst | hrest
      · exact (hheld entries hfirst.symm entry hentry).advances (runAll_advances validator _ calls)
      · exact hheldRest entries hrest entry hentry

/-- After any calls on one state, whatever a verdict or an answer shows at any depth is an entry of
the verdict on its own subject. A verdict was given at a visit that one of the calls reached, and its
value lists were built there. At every visit that a further call reaches, the subjects in progress
are those whose validations enclose it, and a list that is built reports its values in order: a text
by itself, and a nested subject by its identifier exactly when it is in progress then, by all entries
of its verdict otherwise. -/
theorem nested_entries_coherent (validator : Validator) (calls : List ValidationCall) :
    let answered := runAll validator .fresh calls
    (∀ uri verdict, answered.2.verdict? uri = some verdict → ∀ entry ∈ verdict.entries, ∀ nested,
      Relation.ReflTransGen Entry.Shows entry nested → answered.2.Holds nested) ∧
    (∀ entries, .ok entries ∈ answered.1 → ∀ entry ∈ entries, ∀ nested,
      Relation.ReflTransGen Entry.Shows entry nested → answered.2.Holds nested) ∧
    (∀ uri verdict, answered.2.verdict? uri = some verdict →
      ∃ before call after visit, calls = before ++ call :: after ∧
        call.Reaches validator (runAll validator .fresh before).2 visit ∧
        visit.subject.uri = uri ∧ visit.Validates validator (.ofForest call.roots) verdict ∧
        ∀ entry ∈ verdict.entries, ∀ built ∈ entry.valueLists, ∃ depth start values,
          visit.Builds validator (.ofForest call.roots) depth start values built) ∧
    ∀ (call : ValidationCall) (visit : Visit), call.Reaches validator answered.2 visit →
      ∀ depth start values built,
        visit.Builds validator (.ofForest call.roots) depth start values built →
        start.inProgress = visit.subject.uri :: visit.stack ∧
          ∃ pieces, built = pieces.flatten ∧ List.Forall₂ (EdgeTarget.IsReported start.inProgress
            (reportValues (validator.resolve (.ofForest call.roots) depth) start values).2)
            values pieces := by
  intro answered
  obtain ⟨hcoherent, hheld⟩ := runAll_shown validator calls RunState.coherent_fresh
  refine ⟨fun uri verdict hverdict entry hentry nested hnested =>
      hcoherent.holds_below (hcoherent.holds hverdict hentry) hnested,
    fun entries hentries entry hentry nested hnested =>
      hcoherent.holds_below (hheld entries hentries entry hentry) hnested,
    fun uri verdict hverdict => ?_, fun call visit hreaches depth start values built hbuilds =>
      hbuilds.reported (runAll_idle validator calls) hreaches⟩
  obtain ⟨before, call, after, visit, hcalls, hreaches, huri, hvalidates⟩ :=
    exists_visit calls hverdict
  exact ⟨before, call, after, visit, hcalls, hreaches, huri, hvalidates,
    fun entry hentry built hbuilt => hvalidates.exists_builds hentry hbuilt⟩

/-- Of two persons who know each other the second is visited while the first is in progress, and
reports it accordingly. -/
theorem nested_entries_coherent_acquaintances :
    let validator : Validator := ⟨⟨[Validator.personShape]⟩, fun _ => .ok []⟩
    let person := Validator.acquaintances.readForest.head (by decide)
    ∃ visit depth start values built, (one person).Reaches validator .fresh visit ∧
      visit.Builds validator (.ofForest [person]) depth start values built ∧
      visit.subject.uri = "urn:b" ∧ start.inProgress = ["urn:b", "urn:a"] ∧
      ∃ pieces, built = pieces.flatten ∧ List.Forall₂ (EdgeTarget.IsReported start.inProgress
        (reportValues (validator.resolve (.ofForest [person]) depth) start values).2)
        values pieces := by
  intro validator person
  let root : Visit := ⟨(FirstCopies.ofForest [person]).size + 1, [], .fresh, person⟩
  let visit : Visit := ⟨2, ["urn:a"], (RunState.fresh.enter "urn:a").ask [],
    person.children.head (by decide)⟩
  have hroot : root.Builds validator (.ofForest [person]) 2 _ _ _ :=
    ⟨rfl, rfl, by decide, .judged ⟨[], [], rfl, rfl⟩ ⟨[], [], rfl, rfl⟩⟩
  have hleads : root.LeadsTo validator (.ofForest [person]) visit :=
    ⟨_, _, _, hroot, ⟨[], [], rfl, rfl⟩, rfl⟩
  have hvisit : visit.Builds validator (.ofForest [person]) 1 _ _ _ :=
    ⟨rfl, rfl, by decide, .judged ⟨[], [], rfl, rfl⟩ ⟨[], [], rfl, rfl⟩⟩
  have hreaches : (one person).Reaches validator .fresh visit :=
    ⟨root, .one person, .single hleads⟩
  obtain ⟨-, -, -, hbuilds⟩ := nested_entries_coherent validator []
  obtain ⟨hstack, hreported⟩ := hbuilds _ visit hreaches _ _ _ _ hvisit
  exact ⟨visit, 1, _, _, _, hreaches, hvisit, rfl, hstack, hreported⟩

end ValidationCall

end PublicationAudit
