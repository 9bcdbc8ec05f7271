import Mathlib.Algebra.Order.Group.Multiset
import Mathlib.Tactic.Abel
import PublicationAudit.Proofs.Maturity.Recordings
import PublicationAudit.Proofs.Validation.Advances
import PublicationAudit.Proofs.Validation.Runs
import PublicationAudit.Proofs.Validation.WalkAccounts

/-!
# Keeping account of findings

A run records findings while it walks, and it keeps the verdicts that it reaches. A `Ledger` is one
kind of finding at one tier, and `Ledger.Records` says that a walk records just the findings of the
verdicts that it reaches and those of its own. A walk below a subject has none of its own, however
often the subject is referenced: this is `resolveRoot_records`, and `held_perm_found` is what follows
for a whole run.
-/

namespace PublicationAudit

/-- Whether a property is a finding at a tier. -/
def PropertyVerdict.isInvalidAt (verdict : PropertyVerdict) (tier : Tier) : Bool :=
  !verdict.valid && verdict.tier = some tier

/-- One kind of finding: the findings that a tally holds, and those that it is given at once for a
property and for the constraints of a shape. -/
structure Ledger (γ : Type) where
  held : Tally → List γ
  ofProperty : PropertyVerdict → List γ
  ofViolations : Option Tier → List Violation → List γ
  held_empty : held .empty = []
  held_recordVerdict : ∀ (state : RunState) verdict,
    held (state.recordVerdict verdict).tally = held state.tally ++ ofProperty verdict
  held_recordViolations : ∀ (state : RunState) tier violations,
    held (state.recordViolations tier violations).tally =
      held state.tally ++ ofViolations tier violations
  ofViolations_none : ∀ violations, ofViolations none violations = []

namespace Ledger

/-- The invalid properties of a tier. -/
def invalid (tier : Tier) : Ledger PropertyVerdict where
  held tally := tally.invalidAt tier
  ofProperty verdict := if verdict.isInvalidAt tier then [verdict] else []
  ofViolations _ _ := []
  held_empty := rfl
  held_recordVerdict state verdict := by
    unfold RunState.recordVerdict PropertyVerdict.isInvalidAt
    cases verdict.valid with
    | true => simp
    | false =>
        cases htier : verdict.tier with
        | none => simp
        | some other =>
            show (state.tally.record (.property other verdict)).invalidAt tier = _
            rw [Tally.invalidAt_record]
            simp [Recording.invalidAt]
  held_recordViolations state other violations := by
    unfold RunState.recordViolations
    cases other with
    | none => simp
    | some other => exact state.tally.invalidAt_record (.violations other violations) tier
  ofViolations_none _ := rfl

/-- The violations of a tier. -/
def failed (tier : Tier) : Ledger Violation where
  held tally := tally.failedAt tier
  ofProperty _ := []
  ofViolations other violations := if other = some tier then violations else []
  held_empty := rfl
  held_recordVerdict state verdict := by
    unfold RunState.recordVerdict
    split
    · rename_i other _ _
      exact state.tally.failedAt_record (.property other verdict) tier
    · exact (List.append_nil _).symm
  held_recordViolations state other violations := by
    unfold RunState.recordViolations
    cases other with
    | none => simp
    | some other =>
        show (state.tally.record (.violations other violations)).failedAt tier = _
        rw [Tally.failedAt_record]
        simp [Recording.failedAt]
  ofViolations_none _ := by simp

variable {γ : Type} (ledger : Ledger γ)

/-- The findings of an entry that was made for a shape of a tier, nested entries left out. -/
def ofEntry (tier : Option Tier) (entry : Entry) : List γ :=
  entry.verdicts.flatMap ledger.ofProperty ++ ledger.ofViolations tier entry.violations

/-- The findings of entries made for shapes of the listed tiers. -/
def ofEntries (tiers : List (Option Tier)) (entries : List Entry) : List γ :=
  (tiers.zip entries).flatMap fun pair => ledger.ofEntry pair.1 pair.2

end Ledger

/-- The tiers of the shapes for a class, or no tier for the one entry without a shape. -/
def Validator.tiersOf (validator : Validator) (cls : String) : List (Option Tier) :=
  match validator.shapes.shapesFor cls with
  | [] => [none]
  | shapes => shapes.map (·.tier)

/-- The findings of a verdict that a run has reached. -/
def Ledger.found {γ : Type} (ledger : Ledger γ) (validator : Validator) (copies : FirstCopies)
    (known : String × Verdict) : List γ :=
  match copies.find? known.1 with
  | some copy => ledger.ofEntries (validator.tiersOf copy.cls) known.2.entries
  | none => []

/-- A walk records the findings of the verdicts that it reaches and those of its own, and it reaches
no verdict for a subject in progress. -/
structure Ledger.Records {γ : Type} (ledger : Ledger γ) (validator : Validator)
    (copies : FirstCopies) (before after : RunState) (own : List γ) : Prop where
  inProgress : after.inProgress = before.inProgress
  separate : ∀ uri ∈ before.inProgress, before.verdict? uri = none → after.verdict? uri = none
  recorded : ∃ reached, after.verdicts.entries = before.verdicts.entries ++ reached ∧
    (ledger.held after.tally : Multiset γ) = ledger.held before.tally +
      (reached.flatMap (ledger.found validator copies) : List γ) + own

namespace Ledger.Records

variable {γ : Type} {ledger : Ledger γ} {validator : Validator} {copies : FirstCopies}
  {before mid after : RunState} {own more : List γ}

/-- A walk that records findings adds verdicts. -/
theorem advances (h : ledger.Records validator copies before after own) : before.Advances after where
  inProgress := h.inProgress
  separate := h.separate
  grown := h.recorded.imp fun _ hreached => hreached.1

/-- A walk that reaches no verdict. -/
theorem of_alike (h : before.Alike after)
    (hheld : ledger.held after.tally = ledger.held before.tally ++ own) :
    ledger.Records validator copies before after own where
  inProgress := h.inProgress
  separate := (RunState.Advances.of_alike h).separate
  recorded := ⟨[], by rw [h.verdicts, List.append_nil], by
    rw [hheld, ← Multiset.coe_add, List.flatMap_nil, Multiset.coe_nil, add_zero]⟩

/-- A walk that changes nothing. -/
theorem refl (state : RunState) : ledger.Records validator copies state state [] :=
  .of_alike (.refl state) (List.append_nil _).symm

/-- One walk after another. -/
theorem trans (h : ledger.Records validator copies before mid own)
    (hmore : ledger.Records validator copies mid after more) :
    ledger.Records validator copies before after (own ++ more) where
  inProgress := hmore.inProgress.trans h.inProgress
  separate := (h.advances.trans hmore.advances).separate
  recorded := by
    obtain ⟨first, hfirst, hheld⟩ := h.recorded
    obtain ⟨second, hsecond, hheldMore⟩ := hmore.recorded
    refine ⟨first ++ second, by rw [hsecond, hfirst, List.append_assoc], ?_⟩
    rw [hheldMore, hheld, List.flatMap_append, ← Multiset.coe_add, ← Multiset.coe_add]
    abel

/-- Asking queries records nothing. -/
theorem ask (state : RunState) (queries : List String) :
    ledger.Records validator copies state (state.ask queries) [] :=
  .of_alike (.ask state queries) (List.append_nil _).symm

/-- Announcing a root records nothing. -/
theorem announce (state : RunState) (progress : Progress) :
    ledger.Records validator copies state (state.announce progress) [] :=
  .of_alike (.announce state progress) (List.append_nil _).symm

/-- A property is recorded at once. -/
theorem recordVerdict (state : RunState) (verdict : PropertyVerdict) :
    ledger.Records validator copies state (state.recordVerdict verdict)
      (ledger.ofProperty verdict) :=
  .of_alike (.recordVerdict state verdict) (ledger.held_recordVerdict state verdict)

/-- So are the violations of a shape. -/
theorem recordViolations (state : RunState) (tier : Option Tier) (violations : List Violation) :
    ledger.Records validator copies state (state.recordViolations tier violations)
      (ledger.ofViolations tier violations) :=
  .of_alike (.recordViolations state tier violations)
    (ledger.held_recordViolations state tier violations)

/-- A validation that ends: what it recorded of its own belongs to its verdict. -/
theorem leave {uri : String} {verdict : Verdict} {copy : SubjectTree}
    (h : ledger.Records validator copies (before.enter uri) after
      (ledger.ofEntries (validator.tiersOf copy.cls) verdict.entries))
    (hcopy : copies.find? uri = some copy) (hnew : before.verdict? uri = none)
    (hout : uri ∉ before.inProgress) :
    ledger.Records validator copies before (after.leave uri verdict) [] where
  inProgress := (h.advances.leave hnew hout).inProgress
  separate := (h.advances.leave hnew hout).separate
  recorded := by
    have hfound : ledger.found validator copies (uri, verdict) =
        ledger.ofEntries (validator.tiersOf copy.cls) verdict.entries := by
      simp only [found, hcopy]
    obtain ⟨reached, hreached, hheld⟩ := h.recorded
    refine ⟨reached ++ [(uri, verdict)], by
      rw [h.advances.entries_leave hnew, hreached, List.append_assoc]
      rfl, ?_⟩
    show (ledger.held after.tally : Multiset γ) = ledger.held before.tally + _ + _
    rw [hheld, List.flatMap_append, List.flatMap_singleton, hfound, ← Multiset.coe_add,
      Multiset.coe_nil, add_zero, add_assoc]
    rfl

end Ledger.Records

/-! ## The account of findings -/

section Walk

variable {γ : Type} {ledger : Ledger γ} {validator : Validator} {copies : FirstCopies}

/-- The account of the findings of a ledger. Entries of nested subjects have findings of their own,
which belong to the verdicts on these subjects. -/
def Ledger.account (ledger : Ledger γ) (validator : Validator) (copies : FirstCopies) :
    WalkAccount γ where
  Moves := ledger.Records validator copies
  ofQueries _ := []
  ofNested _ := []
  ofProperty := ledger.ofProperty
  ofViolations := ledger.ofViolations
  refl := .refl
  trans := .trans
  ask := .ask
  recordVerdict := .recordVerdict
  recordViolations := .recordViolations

namespace Ledger

/-- An entry for a shape gives rise to its findings. -/
theorem account_ofShaped {copy : SubjectTree} {shape : NodeShape} {entry : Entry}
    (h : shape.IsFor copy entry) :
    (ledger.account validator copies).ofShaped copy shape entry =
      ledger.ofEntry shape.tier entry := by
  have hjudged : ∀ property verdict,
      (ledger.account validator copies).ofJudged copy property verdict =
        ledger.ofProperty verdict := fun property verdict => by
    rw [WalkAccount.ofJudged, WalkAccount.ofValues_eq_nil _ fun _ => rfl]
    rfl
  simp only [WalkAccount.ofShaped, hjudged]
  rw [flatMap_zip_snd ledger.ofProperty h.verdicts.length_eq.ge]
  rfl

/-- A verdict that covers a copy gives rise to the findings of its entries. -/
theorem account_ofVerdict {copy : SubjectTree} {verdict : Verdict}
    (h : validator.Covers copy verdict) :
    (ledger.account validator copies).ofVerdict validator copy verdict =
      ledger.ofEntries (validator.tiersOf copy.cls) verdict.entries := by
  cases h with
  | unshaped entry hnone huri hcls hshape hplain =>
      -- An entry without a shape has neither verdicts nor violations of a tier.
      have hverdicts : entry.verdicts = [] := by rw [Entry.verdicts, hplain]
      have hreadings : (ledger.account validator copies).ofPlain entry = [] :=
        List.flatMap_eq_nil_iff.2 fun reading _ =>
          WalkAccount.ofValues_eq_nil _ (fun _ => rfl) reading.values
      simp [WalkAccount.ofVerdict, hreadings, Validator.tiersOf, hnone, Verdict.entries, ofEntries,
        ofEntry, hverdicts, ledger.ofViolations_none]
  | shaped entries hsome hentries =>
      have htiers : validator.tiersOf copy.cls =
          (validator.shapes.shapesFor copy.cls).map (·.tier) := by
        unfold Validator.tiersOf
        split
        · rename_i hnone
          exact absurd hnone hsome
        · rfl
      rw [WalkAccount.ofVerdict_shaped (fun _ _ hentry => account_ofShaped hentry) hentries, htiers,
        ofEntries, List.zip_map_left, List.flatMap_map]
      rfl

/-- The end of a validation closes the findings of its verdict. -/
theorem account_closes (ledger : Ledger γ) (validator : Validator) (copies : FirstCopies) :
    (ledger.account validator copies).Closes validator copies where
  known state uri verdict _ := by
    rw [WalkAccount.ofAnswer_eq_nil _ fun _ => rfl]
    exact .refl state
  leave before after uri copy verdict hcopy huri hnew hout hcovers h := by
    rw [WalkAccount.ofAnswer_eq_nil _ fun _ => rfl]
    rw [account_ofVerdict hcovers] at h
    exact h.leave hcopy hnew hout

end Ledger

namespace Validator

/-- A walk below a root records nothing of its own: what it finds belongs to the verdicts that it
reaches. -/
theorem resolveRoot_records {roots : List SubjectTree} {root : SubjectTree} (hroot : root ∈ roots)
    (state : RunState) :
    ledger.Records validator (.ofForest roots) state
      (validator.resolveRoot (.ofForest roots) state root).2 [] := by
  have hmoves := WalkAccount.resolveRoot_moves (ledger.account_closes validator _) hroot state
  rwa [WalkAccount.ofAnswer_eq_nil _ fun _ => rfl] at hmoves

/-- A run over a forest, stopped or not, records nothing of its own. -/
theorem validateAll_records (ledger : Ledger γ) (validator : Validator) (observer : Observer)
    (roots : List SubjectTree) (state : RunState) :
    ledger.Records validator (.ofForest roots) state
      (validator.validateAll observer roots state).2 [] :=
  validateFrom_induction (P := fun later =>
      ledger.Records validator (.ofForest roots) state later []) 0
    (fun _ progress h => h.trans (.announce _ progress))
    (fun later _ hroot h => h.trans (resolveRoot_records hroot later)) (.refl state)

/-- After any run over a forest, a ledger holds the findings of the verdicts that the run reached,
once each. -/
theorem held_perm_found (ledger : Ledger γ) (validator : Validator) (observer : Observer)
    (roots : List SubjectTree) :
    (ledger.held (validator.validateAll observer roots .fresh).2.tally).Perm
      ((validator.validateAll observer roots .fresh).2.verdicts.entries.flatMap
        (ledger.found validator (.ofForest roots))) := by
  obtain ⟨reached, hreached, hheld⟩ :=
    (validateAll_records ledger validator observer roots .fresh).recorded
  -- A fresh tally holds nothing, and a fresh state has no verdicts.
  have hstart : ledger.held RunState.fresh.tally = [] := ledger.held_empty
  rw [hstart, Multiset.coe_nil, zero_add, add_zero] at hheld
  rw [show (validator.validateAll observer roots .fresh).2.verdicts.entries = reached from hreached]
  exact Multiset.coe_eq_coe.1 hheld

end Validator

end Walk

end PublicationAudit
