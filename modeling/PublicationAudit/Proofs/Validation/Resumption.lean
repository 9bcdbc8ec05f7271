import PublicationAudit.Proofs.Validation.FlatReading
import PublicationAudit.Proofs.Validation.Questions
import PublicationAudit.Proofs.Validation.UnreadChanges

/-!
# Resuming a run

An observer can stop a run before any of its roots. What was validated by then stays, and nothing is
in progress, so that a second run over the forest goes on where the first one was stopped. Read
`validateAll_resumed` first. It rests on two facts: an announcement is not read by a walk, so that a
run is the walk below its roots as far as the observer lets it go (`validateFrom_finished`), and roots
that were walked once answer again as they did, without any effect (`walk_again`).
-/

namespace PublicationAudit

namespace Validator

variable {validator : Validator} {copies : FirstCopies} {observer : Observer}
  {roots earlier later : List SubjectTree} {root : SubjectTree} {state : RunState}
  {entries : List Entry} {done total : Nat}

/-- What a run announces before its roots, after `done` of `total`: each time how many roots came
before, how many there are, and which one is next. -/
def announcementsFrom (done total : Nat) (roots : List SubjectTree) : List Progress :=
  (roots.zipIdx done).map fun numbered => ⟨numbered.2, total, numbered.1.uri⟩

/-- Announcements are made root by root. -/
theorem announcementsFrom_cons (done total : Nat) (root : SubjectTree) (roots : List SubjectTree) :
    announcementsFrom done total (root :: roots) =
      ⟨done, total, root.uri⟩ :: announcementsFrom (done + 1) total roots := rfl

/-- The same in two parts. -/
theorem announcementsFrom_append (done total : Nat) (earlier later : List SubjectTree) :
    announcementsFrom done total (earlier ++ later) =
      announcementsFrom done total earlier ++
        announcementsFrom (done + earlier.length) total later := by
  rw [announcementsFrom, List.zipIdx_append, List.map_append]
  rfl

/-! ## A run is the walk below its roots -/

/-- The walks below some roots, one after the other. -/
def walkRoots (validator : Validator) (copies : FirstCopies) (state : RunState)
    (roots : List SubjectTree) : List Entry × RunState :=
  let walked := threadMap (validator.resolveRoot copies) state roots
  (walked.1.flatMap (·.getD []), walked.2)

/-- Roots are walked one after the other. -/
theorem walkRoots_cons (validator : Validator) (copies : FirstCopies) (state : RunState)
    (root : SubjectTree) (roots : List SubjectTree) :
    let walked := validator.resolveRoot copies state root
    validator.walkRoots copies state (root :: roots) =
      (walked.1.getD [] ++ (validator.walkRoots copies walked.2 roots).1,
        (validator.walkRoots copies walked.2 roots).2) := rfl

/-- Roots are walked in two parts, one after the other. -/
theorem walkRoots_append (validator : Validator) (copies : FirstCopies) (state : RunState)
    (earlier later : List SubjectTree) :
    validator.walkRoots copies state (earlier ++ later) =
      ((validator.walkRoots copies state earlier).1 ++
          (validator.walkRoots copies (validator.walkRoots copies state earlier).2 later).1,
        (validator.walkRoots copies (validator.walkRoots copies state earlier).2 later).2) := by
  simp only [walkRoots, threadMap_append, List.flatMap_append]

/-- The walks below roots do not read the announcements. -/
theorem walkRoots_withAnnounced (validator : Validator) (copies : FirstCopies) (state : RunState)
    (announced : List Progress) (roots : List SubjectTree) :
    validator.walkRoots copies (state.withAnnounced announced) roots =
      ((validator.walkRoots copies state roots).1,
        (validator.walkRoots copies state roots).2.withAnnounced announced) := by
  have hroots := (resolve_unread (RunState.unread_withAnnounced announced) validator copies
    (copies.size + 1)).threadMap state roots
  simp only [walkRoots, resolveRoot, hroots]

/-- A run whose observer accepts all of its roots walks and announces them. -/
theorem validateFrom_finished (validator : Validator) (copies : FirstCopies)
    (haccepts : ∀ progress ∈ announcementsFrom done total roots, observer progress = .ok ())
    (state : RunState) :
    let walked := validator.walkRoots copies state roots
    validator.validateFrom copies observer done total roots state =
      (.ok walked.1,
        walked.2.withAnnounced (state.announced ++ announcementsFrom done total roots)) := by
  induction roots generalizing done state with
  | nil =>
      have hsame : state.withAnnounced (state.announced ++ announcementsFrom done total []) =
          state := by
        rw [announcementsFrom, List.zipIdx_nil, List.map_nil, List.append_nil]
        rfl
      simp only [walkRoots, threadMap_nil, List.flatMap_nil, validateFrom, hsame]
  | cons root roots ih =>
      have hroot := haccepts ⟨done, total, root.uri⟩ List.mem_cons_self
      have hrest := ih fun other hother => haccepts other (List.mem_cons_of_mem _ hother)
      -- The walk below the root is the one before the announcement was made.
      have hwalk : validator.resolveRoot copies (state.announce ⟨done, total, root.uri⟩) root =
          ((validator.resolveRoot copies state root).1,
            (validator.resolveRoot copies state root).2.withAnnounced
              (state.announced ++ [⟨done, total, root.uri⟩])) :=
        resolve_unread (RunState.unread_withAnnounced _) validator copies (copies.size + 1) state root
      simp only [validateFrom_cons_accepted hroot, hwalk, hrest, walkRoots_withAnnounced,
        RunState.withAnnounced_withAnnounced, RunState.announced_withAnnounced, List.append_assoc,
        List.singleton_append, ← announcementsFrom_cons, walkRoots_cons, Except.map]

/-- A run that is stopped has walked the roots before and has announced one root more. -/
theorem validateFrom_stopped (validator : Validator) (copies : FirstCopies) {reason : String}
    (haccepts : ∀ progress ∈ announcementsFrom done total earlier, observer progress = .ok ())
    (hrefuses : observer ⟨done + earlier.length, total, root.uri⟩ = .error reason)
    (later : List SubjectTree) (state : RunState) :
    validator.validateFrom copies observer done total (earlier ++ root :: later) state =
      (.error (.aborted reason), (validator.walkRoots copies state earlier).2.withAnnounced
        (state.announced ++ announcementsFrom done total (earlier ++ [root]))) := by
  rw [validateFrom_append (validateFrom_finished validator copies haccepts state), validateFrom,
    announcementsFrom_append, ← List.append_assoc]
  simp only [hrefuses]
  rfl

/-- A run that was not stopped had all of its roots accepted. -/
theorem accepts_of_finished
    (h : (validator.validateFrom copies observer done total roots state).1 = .ok entries) :
    ∀ progress ∈ announcementsFrom done total roots, observer progress = .ok () := by
  induction roots generalizing done state entries with
  | nil => exact fun progress hprogress => by simp [announcementsFrom] at hprogress
  | cons root roots ih =>
      obtain ⟨hroot, rest, hrest, -⟩ := validateFrom_cons_ok h
      rw [announcementsFrom_cons]
      exact List.forall_mem_cons.2 ⟨hroot, ih (congrArg Prod.fst hrest)⟩

/-! ## Walking roots again -/

/-- Roots that were walked while nothing was in progress are answered again as they were, and in any
later state, without any effect. -/
theorem walk_again (validator : Validator) {part : List SubjectTree} (hpart : part ⊆ roots)
    (hidle : state.inProgress = []) :
    let walked := validator.walkRoots (.ofForest roots) state part
    state.Advances walked.2 ∧ ∀ later, walked.2.Advances later →
      validator.walkRoots (.ofForest roots) later part = (walked.1, later) := by
  induction part generalizing state with
  | nil => exact ⟨.refl state, fun _ _ => rfl⟩
  | cons root part ih =>
      obtain ⟨hroot, hothers⟩ := List.cons_subset.1 hpart
      have hwalk := (validator.resolveRoot_asks hroot state).advances
      obtain ⟨verdict, hverdict, hanswer⟩ :=
        resolveRoot_known validator (.ofForest roots) root hidle
      obtain ⟨hrest, hagain⟩ := ih hothers (hwalk.inProgress.trans hidle)
      refine ⟨hwalk.trans hrest, fun later hlater => ?_⟩
      -- The root has its verdict still, so its walk answers from that.
      have hknown : later.verdict? root.uri = some verdict :=
        (hrest.trans hlater).verdict?_eq hverdict
      have hsame : validator.resolveRoot (.ofForest roots) later root =
          (some verdict.entries, later) := by
        rw [resolveRoot, resolve, hknown]
      rw [walkRoots_cons, hsame, hagain later hlater, walkRoots_cons, hanswer]

/-- Where the first roots of a forest were walked, walking the forest comes to the same as without
that. -/
theorem walk_resumed (later : List SubjectTree) (hroots : roots = earlier ++ later)
    (hidle : state.inProgress = []) :
    validator.walkRoots (.ofForest roots) (validator.walkRoots (.ofForest roots) state earlier).2
      roots = validator.walkRoots (.ofForest roots) state roots := by
  have hearlier : earlier ⊆ roots := hroots ▸ List.subset_append_left earlier later
  obtain ⟨-, hagain⟩ := walk_again validator hearlier hidle
  generalize FirstCopies.ofForest roots = copies at hagain ⊢
  rw [hroots, walkRoots_append, hagain _ (.refl _), walkRoots_append validator copies state]

/-- A run over a forest that was validated already, while nothing is in progress, returns the same
and changes nothing but the announcements. -/
theorem validateAll_repeated {again : Observer} (hidle : state.inProgress = [])
    (h : (validator.validateAll observer roots state).1 = .ok entries)
    (hagain : ∀ progress ∈ announcementsFrom 0 roots.length roots, again progress = .ok ()) :
    let finished := (validator.validateAll observer roots state).2
    validator.validateAll again roots finished = (.ok entries, finished.withAnnounced
      (finished.announced ++ announcementsFrom 0 roots.length roots)) := by
  intro finished
  have hfirst := validateFrom_finished validator (.ofForest roots)
    (accepts_of_finished h) state
  have hsecond := validateFrom_finished validator (.ofForest roots)
    hagain finished
  have hfinished : finished = _ := congrArg Prod.snd hfirst
  have hentries : Except.ok entries = _ := h.symm.trans (congrArg Prod.fst hfirst)
  rw [hfinished, walkRoots_withAnnounced,
    walk_resumed [] (List.append_nil roots).symm hidle] at hsecond
  rw [hentries, hfinished]
  exact hsecond

/-- A run that its observer stops before one of the roots has announced the roots up to that one and
leaves nothing in progress. A second run over the forest that is not stopped returns what one run
without an interruption returns, and leaves the state that this one leaves, but for what was
announced. A run over a forest that was validated already returns the same again and changes nothing
but that. -/
theorem validateAll_resumed (validator : Validator) (roots earlier later : List SubjectTree)
    (root : SubjectTree) (refusing resumed uninterrupted : Observer) (reason : String)
    (hroots : roots = earlier ++ root :: later)
    (haccepts : ∀ progress ∈ announcementsFrom 0 roots.length earlier, refusing progress = .ok ())
    (hrefuses : refusing ⟨earlier.length, roots.length, root.uri⟩ = .error reason)
    (hresumed : ∀ progress ∈ announcementsFrom 0 roots.length roots, resumed progress = .ok ())
    (huninterrupted : ∀ progress ∈ announcementsFrom 0 roots.length roots,
      uninterrupted progress = .ok ()) :
    let stopped := validator.validateAll refusing roots .fresh
    let second := validator.validateAll resumed roots stopped.2
    let whole := validator.validateAll uninterrupted roots .fresh
    (stopped.1 = .error (.aborted reason) ∧ stopped.2.inProgress = [] ∧
      stopped.2.announced = announcementsFrom 0 roots.length (earlier ++ [root])) ∧
    (∃ entries, whole.1 = .ok entries ∧ second.1 = .ok entries) ∧
    second.2 = whole.2.withAnnounced
      (stopped.2.announced ++ announcementsFrom 0 roots.length roots) ∧
    ∀ (state : RunState) (observer : Observer) entries, state.inProgress = [] →
      (validator.validateAll observer roots state).1 = .ok entries →
      let finished := (validator.validateAll observer roots state).2
      validator.validateAll resumed roots finished = (.ok entries, finished.withAnnounced
        (finished.announced ++ announcementsFrom 0 roots.length roots)) := by
  intro stopped second whole
  let walked := validator.walkRoots (.ofForest roots) .fresh earlier
  have hstopped : stopped = (.error (.aborted reason), walked.2.withAnnounced
      (announcementsFrom 0 roots.length (earlier ++ [root]))) := by
    have hrun := validateFrom_stopped validator (.ofForest roots) haccepts
      (by rwa [Nat.zero_add]) later .fresh
    rw [← hroots] at hrun
    exact hrun
  have hwhole := validateFrom_finished validator (.ofForest roots)
    huninterrupted .fresh
  have hsecond := validateFrom_finished validator (.ofForest roots)
    hresumed stopped.2
  -- The second run walks the roots from where the first one was stopped.
  rw [hstopped, walkRoots_withAnnounced, walk_resumed _ hroots rfl] at hsecond
  have hidle : walked.2.inProgress = [] :=
    (walk_again validator (hroots ▸ List.subset_append_left earlier _) rfl).1.inProgress
  refine ⟨?_, ⟨_, congrArg Prod.fst hwhole, ?_⟩, ?_, fun state observer entries hstate hfinished =>
    validateAll_repeated hstate hfinished hresumed⟩
  · rw [hstopped]
    exact ⟨rfl, hidle, rfl⟩
  · show (validator.validateAll resumed roots stopped.2).1 = _
    rw [hstopped]
    exact congrArg Prod.fst hsecond
  · show (validator.validateAll resumed roots stopped.2).2 = _
    rw [show whole = _ from hwhole, hstopped]
    exact congrArg Prod.snd hsecond

/-- A run over two persons who know each other can be stopped before the second one and gone on
with. -/
theorem validateAll_resumed_acquaintances :
    let validator : Validator := ⟨⟨[personShape]⟩, fun _ => .ok []⟩
    let people := acquaintances.readForest
    let refusing : Observer := fun progress =>
      if progress.validated = 1 then .error "enough" else .ok ()
    ∃ first second, people = [first] ++ second :: [] ∧
      (∀ progress ∈ announcementsFrom 0 people.length [first], refusing progress = .ok ()) ∧
      refusing ⟨1, people.length, second.uri⟩ = .error "enough" ∧
      (validator.validateAll refusing people .fresh).1 = .error (.aborted "enough") ∧
      ∃ entries, (validator.validateAll .silent people .fresh).1 = .ok entries ∧
        (validator.validateAll .silent people
          (validator.validateAll refusing people .fresh).2).1 = .ok entries := by
  intro validator people refusing
  have hpeople : people = [people.head (by decide)] ++ people.getLast (by decide) :: [] := rfl
  have haccepts : ∀ progress ∈ announcementsFrom 0 people.length [people.head (by decide)],
      refusing progress = .ok () := by
    rw [announcementsFrom_cons]
    exact List.forall_mem_singleton.2 rfl
  obtain ⟨⟨hstopped, -⟩, hentries, -⟩ := validateAll_resumed validator people _ _ _ refusing .silent
    .silent "enough" hpeople haccepts rfl (fun _ _ => rfl) fun _ _ => rfl
  exact ⟨_, _, hpeople, haccepts, rfl, hstopped, hentries⟩

end Validator

end PublicationAudit
