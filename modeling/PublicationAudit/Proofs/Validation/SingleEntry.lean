import PublicationAudit.Proofs.Forest.SkippingWalk
import PublicationAudit.Proofs.Validation.FlatReading
import PublicationAudit.Proofs.Validation.Termination

/-!
# Every subject is entered once

The log of a walk has one validation for each verdict that the walk adds. `RunState.Logs` is the
relation between the state before, the log and the state after, closed under one walk after another;
`Logs.leave` is the step that ends a validation. Verdicts stand under distinct identifiers, so a log
does not enter an identifier twice. The main statement is `validateAll_enters_once`, for any roots:
hand-made forests, whose copies of one subject may differ, are not excepted.
-/

namespace PublicationAudit

/-- A validation that did not leave the map of first copies: the lookup found the copy that the
verdict is on and covers, and the subjects in progress are distinct and known to the map. -/
structure Validation.StaysIn (validator : Validator) (copies : FirstCopies)
    (validation : Validation) : Prop where
  lookup : copies.find? validation.uri = validation.found
  found : validation.found = some validation.copy
  covers : validator.Covers validation.copy validation.verdict
  nodup : validation.inProgress.Nodup
  known : validation.inProgress ⊆ copies.keys

namespace RunState

/-- A walk from one state to another begins the logged validations: each adds its verdict and is
counted once, and none leaves the map. -/
structure Logs (validator : Validator) (copies : FirstCopies) (before : RunState)
    (log : List Validation) (after : RunState) : Prop where
  advances : before.Advances after
  keys : after.verdicts.keys.Perm (before.verdicts.keys ++ log.map (·.uri))
  counted : after.validations = before.validations + log.length
  stays : ∀ validation ∈ log, validation.StaysIn validator copies
  kept : ∀ validation ∈ log, after.verdict? validation.uri = some validation.verdict

namespace Logs

variable {validator : Validator} {copies : FirstCopies} {before mid after : RunState}
  {log more : List Validation} {uri : String} {validation : Validation}

/-- A change that begins and reaches nothing. -/
theorem of_alike (h : before.Alike after) : Logs validator copies before [] after where
  advances := .of_alike h
  keys := by
    rw [h.verdicts]
    simp
  counted := h.validations
  stays := by simp
  kept := by simp

/-- One walk after another. -/
theorem trans (h : Logs validator copies before log mid)
    (hmore : Logs validator copies mid more after) :
    Logs validator copies before (log ++ more) after where
  advances := h.advances.trans hmore.advances
  keys := by
    rw [List.map_append, ← List.append_assoc]
    exact hmore.keys.trans (h.keys.append_right _)
  counted := by
    rw [hmore.counted, h.counted, List.length_append, Nat.add_assoc]
  stays := List.forall_mem_append.2 ⟨h.stays, hmore.stays⟩
  kept := List.forall_mem_append.2 ⟨fun validation hmem =>
    hmore.advances.verdict?_eq (h.kept validation hmem), hmore.kept⟩

/-- A whole validation: its verdict is added after those that were reached on the way. -/
theorem leave (hnew : before.verdict? validation.uri = none)
    (hout : validation.uri ∉ before.inProgress) (hstays : validation.StaysIn validator copies)
    (h : Logs validator copies (before.enter validation.uri) log after) :
    Logs validator copies before (validation :: log)
      (after.leave validation.uri validation.verdict) where
  advances := h.advances.leave hnew hout
  keys := by
    rw [OrderedMap.keys, h.advances.entries_leave hnew, List.map_append, List.map_cons]
    exact (h.keys.append_right _).trans (by
      rw [List.append_assoc]
      exact List.perm_append_comm.append_left _)
  counted := by
    show after.validations = before.validations + (log.length + 1)
    rw [h.counted]
    show before.validations + 1 + log.length = _
    omega
  stays := List.forall_mem_cons.2 ⟨hstays, h.stays⟩
  kept := by
    have hnone := h.advances.separate validation.uri List.mem_cons_self hnew
    refine List.forall_mem_cons.2 ⟨by rw [verdict?_leave, if_pos rfl], fun other hother => ?_⟩
    have hkept := h.kept other hother
    have hne : other.uri ≠ validation.uri := fun he => by
      rw [he, hnone] at hkept
      cases hkept
    rw [verdict?_leave, if_neg hne, hkept]

/-- An identifier is not entered twice, nor after its verdict is known. -/
theorem nodup (h : Logs validator copies before log after) :
    (before.verdicts.keys ++ log.map (·.uri)).Nodup :=
  h.keys.nodup_iff.1 (OrderedMap.nodup_keys_list after.verdicts)

end Logs

end RunState

section Walks

variable {validator : Validator} {copies : FirstCopies} {state before after : RunState}
  {nested : SubjectWalk} {walks : List (RunState × SubjectTree)}

/-- Walks one after the other begin what they begin each. -/
theorem NestedWalks.logs (h : NestedWalks nested before walks after)
    {logs : RunState → SubjectTree → List Validation}
    (hlogs : ∀ walk ∈ walks, RunState.Logs validator copies walk.1 (logs walk.1 walk.2)
      (nested walk.1 walk.2).2) :
    RunState.Logs validator copies before (walks.flatMap fun walk => logs walk.1 walk.2) after := by
  induction h with
  | done halike => exact .of_alike halike
  | walk halike _ ih =>
      obtain ⟨hhead, htail⟩ := List.forall_mem_cons.1 hlogs
      exact ((RunState.Logs.of_alike halike).trans hhead).trans (ih htail)

namespace Validator

variable {subject : SubjectTree} {log : List Validation}

/-- A walk in a closed map begins the validations of its log and does not leave the map. -/
theorem WalkEnds.logs {outcome : Option (List Entry) × RunState}
    (h : validator.WalkEnds copies state subject log outcome) (hcopies : copies.Complete)
    (hsubject : copies.contains subject.uri = true) (hnodup : state.inProgress.Nodup)
    (hknown : state.inProgress ⊆ copies.keys) :
    RunState.Logs validator copies state log outcome.2 := by
  induction h with
  | known => exact .of_alike (.refl _)
  | cyclic => exact .of_alike (.refl _)
  | validated state after subject verdict nested logs hnew hout hverdict hnested ih =>
      obtain ⟨copy, hcopy⟩ := Option.isSome_iff_exists.1 hsubject
      obtain ⟨-, hchildren⟩ := hcopies subject.uri copy hcopy
      have hcopyOf := copies.copyOf_eq hcopy
      have hwalks := validator.verdictOn_walks nested (copies.copyOf subject)
        (state.enter subject.uri)
      have hcovers := validator.verdictOn_covers nested (copies.copyOf subject)
        (state.enter subject.uri)
      rw [hverdict] at hwalks hcovers
      have hentered : (subject.uri :: state.inProgress).Nodup := List.nodup_cons.2 ⟨hout, hnodup⟩
      have hheld : subject.uri :: state.inProgress ⊆ copies.keys :=
        List.cons_subset.2 ⟨(OrderedMap.mem_keys_iff copies subject.uri).2 hsubject, hknown⟩
      -- Every walk below begins with just the subject added to those in progress.
      have hstates := (hwalks.inProgress_eq fun walk hwalk =>
        (hnested walk hwalk).inProgress_eq).1
      have hbelow := hwalks.logs fun walk hwalk => by
        have hstate : walk.1.inProgress = subject.uri :: state.inProgress := hstates walk hwalk
        have hchild := verdictWalks_subset hwalk
        rw [hcopyOf] at hchild
        exact ih walk hwalk (hchildren walk.2 hchild) (hstate ▸ hentered) (hstate ▸ hheld)
      exact .leave hnew hout ⟨rfl, by rw [hcopy, hcopyOf], hcovers, hentered, hheld⟩ hbelow

/-- So does a run over roots that the map knows, while nothing is in progress. -/
theorem RunEnds.logs {total done : Nat} {roots : List SubjectTree}
    {outcome : List Entry × RunState}
    (h : validator.RunEnds copies total done roots state log outcome) (hcopies : copies.Complete)
    (hroots : ∀ root ∈ roots, copies.contains root.uri = true) (hidle : state.inProgress = []) :
    RunState.Logs validator copies state log outcome.2 := by
  induction h with
  | finished => exact .of_alike (.refl _)
  | root done root roots state mid after log later answer entries hroot hrest ih =>
      obtain ⟨hknown, hothers⟩ := List.forall_mem_cons.1 hroots
      have hannounced : (state.announce ⟨done, total, root.uri⟩).inProgress = [] := hidle
      have hwalked := hroot.logs hcopies hknown (by simp [hannounced]) (by simp [hannounced])
      have hmid : mid.inProgress = [] := hroot.inProgress_eq.trans hannounced
      exact (RunState.Logs.of_alike (.announce state _)).trans (hwalked.trans (ih hothers hmid))

/-- A run over any roots whose observer does not stop it, from a state with nothing in progress, has
exactly one end, and the validator finds it. On the way no identifier is entered twice, and each
that is entered had no verdict before and has one at the end. No more subjects are in progress at
once than the forest has identifiers. Every lookup of a first copy succeeds, with the copy that a
walk in pre-order notes when it skips the subtrees of repeated identifiers, and that copy is the one
that the verdict is on. -/
theorem validateAll_enters_once (validator : Validator) (observer : Observer)
    (roots : List SubjectTree) (state : RunState) (hidle : state.inProgress = [])
    (haccepts : ∀ progress, observer progress = .ok ()) :
    ∃ (log : List Validation) (entries : List Entry) (after : RunState),
      (∀ other outcome,
        validator.RunEnds (.ofForest roots) roots.length 0 roots state other outcome ↔
          other = log ∧ outcome = (entries, after)) ∧
      validator.validateAll observer roots state = (.ok entries, after) ∧
      after.inProgress = [] ∧
      (log.map (·.uri)).Nodup ∧
      after.verdicts.keys.Perm (state.verdicts.keys ++ log.map (·.uri)) ∧
      after.validations = state.validations + log.length ∧
      ∀ validation ∈ log,
        validation.inProgress.length ≤
            ((roots.flatMap SubjectTree.copies).map (·.uri)).eraseDups.length ∧
          validation.found = some validation.copy ∧
          (FirstCopies.skippingWalk [] roots).find? (·.uri = validation.uri) =
            some validation.copy ∧
          after.verdict? validation.uri = some validation.verdict ∧
          validator.Covers validation.copy validation.verdict := by
  have hcopies := FirstCopies.ofForest_complete roots
  have hroots : ∀ root ∈ roots, (FirstCopies.ofForest roots).contains root.uri = true :=
    fun root => FirstCopies.contains_root
  obtain ⟨log, entries, after, hends, hrun⟩ :=
    validator.validateFrom_ends haccepts hcopies hroots 0 roots.length state
  have hlogs := hends.logs hcopies hroots hidle
  refine ⟨log, entries, after, fun other outcome => ⟨fun hother => ?_, ?_⟩, hrun,
    hlogs.advances.inProgress.trans hidle, (List.nodup_append.1 hlogs.nodup).2.1, hlogs.keys,
    hlogs.counted, fun validation hvalidation => ?_⟩
  · exact hother.unique hends
  · rintro ⟨rfl, rfl⟩
    exact hends
  · have hstays := hlogs.stays validation hvalidation
    refine ⟨?_, hstays.found, ?_, hlogs.kept validation hvalidation, hstays.covers⟩
    · have hsubset : validation.inProgress ⊆
          ((roots.flatMap SubjectTree.copies).map (·.uri)).eraseDups := fun uri huri => by
        obtain ⟨copy, hcopy⟩ := Option.isSome_iff_exists.1
          ((OrderedMap.mem_keys_iff _ uri).1 (hstays.known huri))
        rw [List.mem_eraseDups]
        exact List.mem_map.2
          ⟨copy, FirstCopies.mem_copies_of_find? hcopy, (hcopies uri copy hcopy).1⟩
      exact (List.subperm_of_subset hstays.nodup hsubset).length_le
    · rw [← FirstCopies.find?_ofForest, hstays.lookup, hstays.found]

/-- Trees that no reading of facts gives: below Bob stands a copy of Ada that knows Carl, where Ada
herself knows Bob alone, and a second tree of Bob is empty. -/
def strays : List SubjectTree :=
  [⟨.iri "urn:ada", "urn:Person", [⟨"urn:knows", .nested
      ⟨.iri "urn:bob", "urn:Person", [⟨"urn:knows", .nested
        ⟨.iri "urn:ada", "urn:Person", [⟨"urn:knows", .nested
          ⟨.iri "urn:carl", "urn:Person", []⟩⟩]⟩⟩]⟩⟩]⟩,
    ⟨.iri "urn:bob", "urn:Ghost", []⟩]

/-- Ada and Bob are entered once each and Carl, who stands in a skipped subtree, never. -/
theorem validateAll_enters_once_strays :
    RunState.fresh.inProgress = [] ∧ (∀ progress, Observer.silent progress = .ok ()) ∧
      ∃ (log : List Validation) (entries : List Entry) (after : RunState),
        validateAll ⟨⟨[personShape]⟩, fun _ => .ok []⟩ .silent strays .fresh =
            (.ok entries, after) ∧
          (log.map (·.uri)).Perm ["urn:bob", "urn:ada"] ∧
          ∀ validation ∈ log, validation.inProgress.length ≤ 3 ∧
            validation.found = some validation.copy := by
  refine ⟨rfl, fun _ => rfl, ?_⟩
  obtain ⟨log, entries, after, -, hrun, -, -, hkeys, -, hall⟩ := validateAll_enters_once
    ⟨⟨[personShape]⟩, fun _ => .ok []⟩ .silent strays .fresh rfl fun _ => rfl
  have hafter : (validateAll ⟨⟨[personShape]⟩, fun _ => .ok []⟩ .silent strays
      .fresh).2.verdicts.keys = ["urn:bob", "urn:ada"] := by decide
  have hidentifiers :
      ((strays.flatMap SubjectTree.copies).map (·.uri)).eraseDups.length = 3 := by decide
  rw [hrun] at hafter
  rw [show after.verdicts.keys = ["urn:bob", "urn:ada"] from hafter] at hkeys
  exact ⟨log, entries, after, hrun, hkeys.symm, fun validation hvalidation =>
    ⟨hidentifiers ▸ (hall validation hvalidation).1, (hall validation hvalidation).2.1⟩⟩

end Validator

end Walks

end PublicationAudit
