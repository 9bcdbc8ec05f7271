import PublicationAudit.Proofs.Forest.EdgeClaims
import PublicationAudit.Proofs.Forest.Faithfulness

/-!
# Reading a subject ends

`claimSubject` reads under a bound on the depth of nesting. `ReadingEnds` says without any bound
what a reading ends in: it is derived from the ends of the readings that this one asks for, so a
reading that asks for one more without end has no derivation. The two are tied by
`claimSubject_ends` and `ReadingEnds.unique`: from any claims whatever, those of no reader included,
a reading has one end, and every depth above the number of subjects with an unclaimed edge finds it.
-/

namespace PublicationAudit

/-- A fact whose object is read as a subject, when the listed edges are newly claimed. -/
structure Fact.Follows (claimed : List String) (fact : Fact) : Prop where
  property : fact.predicate ≠ Vocabulary.rdfType
  object : fact.object.isLiteral = false
  isNew : fact.predicate ∈ claimed

/-- What the reading of a subject ends in, from given claims. A subject without a class is left out.
Any other claims its edges and reads the objects that they lead to, one after the other. -/
inductive FactSet.ReadingEnds (facts : FactSet) :
    EdgeClaims → Node → Option SubjectTree × EdgeClaims → Prop where
  | untyped (claims : EdgeClaims) (subject : Node) (hcls : facts.classOf? subject = none) :
      ReadingEnds facts claims subject (none, claims)
  | typed (claims : EdgeClaims) (subject : Node) (cls : String)
      (hcls : facts.classOf? subject = some cls)
      (nested : EdgeClaims → Node → Option SubjectTree × EdgeClaims)
      (hnested : ∀ later fact,
        ComesTo (claimEdge nested (claims.unclaimed facts subject)) (claims.claim facts subject)
          (facts.reportedFacts subject) later fact →
        fact.Follows (claims.unclaimed facts subject) →
        ReadingEnds facts later fact.object (nested later fact.object)) :
      ReadingEnds facts claims subject
        (some ⟨subject, cls, (threadMap (claimEdge nested (claims.unclaimed facts subject))
            (claims.claim facts subject) (facts.reportedFacts subject)).1⟩,
          (threadMap (claimEdge nested (claims.unclaimed facts subject))
            (claims.claim facts subject) (facts.reportedFacts subject)).2)

variable {facts : FactSet} {claims later : EdgeClaims} {subject : Node} {fact : Fact}
  {claimed : List String} {nested other : EdgeClaims → Node → Option SubjectTree × EdgeClaims}

/-- A target that is not followed is shown in the folded form and claims nothing. -/
theorem claimEdge_of_not_follows (h : ¬fact.Follows claimed) :
    claimEdge nested claimed claims fact = (fact.foldedEdge, claims) := by
  unfold claimEdge claimTarget Fact.foldedEdge
  by_cases htype : fact.predicate = Vocabulary.rdfType
  · rw [if_pos htype, if_neg (fun hproperty => hproperty.1 htype)]
  · rw [if_neg htype]
    cases hliteral : fact.object.isLiteral with
    | true => rw [if_pos rfl, if_pos ⟨htype, rfl⟩]
    | false =>
        have hclaimed : fact.predicate ∉ claimed := fun hnew => h ⟨htype, hliteral, hnew⟩
        simp [hclaimed]

/-- A target that is followed leaves the claims that the reading of its object leaves. -/
theorem claimEdge_of_follows (h : fact.Follows claimed) :
    claimEdge nested claimed claims fact =
      (⟨fact.predicate, match (nested claims fact.object).1 with
          | some tree => .nested tree
          | none => .reference fact.object.key⟩,
        (nested claims fact.object).2) := by
  unfold claimEdge claimTarget
  rw [if_neg h.property, if_neg (by simp [h.object]), if_pos h.isNew]
  cases (nested claims fact.object).1 <;> rfl

/-- An edge depends on how its object is read only where it is followed. -/
theorem claimEdge_congr
    (h : fact.Follows claimed → nested claims fact.object = other claims fact.object) :
    claimEdge nested claimed claims fact = claimEdge other claimed claims fact := by
  by_cases hfollows : fact.Follows claimed
  · rw [claimEdge_of_follows hfollows, claimEdge_of_follows hfollows, h hfollows]
  · rw [claimEdge_of_not_follows hfollows, claimEdge_of_not_follows hfollows]

/-- A reading has at most one end. -/
theorem FactSet.ReadingEnds.unique {answer another : Option SubjectTree × EdgeClaims}
    (h : facts.ReadingEnds claims subject answer) (h' : facts.ReadingEnds claims subject another) :
    answer = another := by
  induction h generalizing another with
  | untyped claims subject hcls =>
      cases h' with
      | untyped => rfl
      | typed _ _ cls hcls' => simp [hcls] at hcls'
  | typed claims subject cls hcls nested hnested ih =>
      cases h' with
      | untyped _ _ hcls' => simp [hcls] at hcls'
      | typed _ _ cls' hcls' other hother =>
          obtain rfl : cls = cls' := Option.some.inj (hcls.symm.trans hcls')
          -- Both readings come to the same facts in the same states, by induction on the first.
          have hsame := threadMap_congr fun later fact hcomes hcomes' =>
            claimEdge_congr fun hfollows =>
              ih later fact hcomes hfollows (hother later fact hcomes' hfollows)
          rw [hsame]

/-! ## Claims that are left -/

namespace EdgeClaims

/-- Every claim is kept. -/
def KeptIn (claims later : EdgeClaims) : Prop :=
  ∀ subject path, path ∈ claims.of subject → path ∈ later.of subject

/-- Claims are kept where nothing happens. -/
theorem KeptIn.refl (claims : EdgeClaims) : claims.KeptIn claims := fun _ _ => id

/-- Claims that are kept twice are kept. -/
theorem KeptIn.trans {mid : EdgeClaims} (h : claims.KeptIn mid) (hlater : mid.KeptIn later) :
    claims.KeptIn later := fun subject path hpath => hlater subject path (h subject path hpath)

/-- Claiming the edges of a subject adds just these. -/
theorem mem_of_claim (facts : FactSet) (claims : EdgeClaims) (subject other : Node)
    (path : String) : path ∈ (claims.claim facts subject).of other ↔
      path ∈ claims.of other ∨ other = subject ∧ path ∈ facts.edgePaths subject := by
  rw [of, claim, OrderedMap.find?_upsert]
  by_cases hother : other = subject
  · subst hother
    rw [if_pos rfl, Option.getD_some, List.mem_append, unclaimed, List.mem_filter,
      List.mem_eraseDups, decide_eq_true_eq, of]
    tauto
  · rw [if_neg hother, of]
    simp [hother]

/-- Claiming keeps what was claimed. -/
theorem kept_claim (facts : FactSet) (claims : EdgeClaims) (subject : Node) :
    claims.KeptIn (claims.claim facts subject) :=
  fun other path hpath => (mem_of_claim facts claims subject other path).2 (.inl hpath)

/-- The typed subjects whose edges are all claimed. -/
def exhausted (facts : FactSet) (claims : EdgeClaims) : List Node :=
  facts.typedSubjects.filter fun subject => claims.unclaimed facts subject = []

/-- The number of typed subjects that have an unclaimed edge. -/
def pending (facts : FactSet) (claims : EdgeClaims) : Nat :=
  unmet facts.typedSubjects (claims.exhausted facts)

/-- All edges of a subject are claimed when each is. -/
theorem mem_exhausted : subject ∈ claims.exhausted facts ↔ facts.isTyped subject = true ∧
    ∀ path ∈ facts.edgePaths subject, path ∈ claims.of subject := by
  rw [exhausted, List.mem_filter, FactSet.mem_typedSubjects, decide_eq_true_eq, unclaimed,
    List.filter_eq_nil_iff]
  simp only [List.mem_eraseDups, decide_eq_true_eq, not_not]

/-- What was exhausted stays so while claims are kept. -/
theorem KeptIn.exhausted_subset (h : claims.KeptIn later) :
    claims.exhausted facts ⊆ later.exhausted facts := fun subject hsubject => by
  obtain ⟨htyped, hclaimed⟩ := mem_exhausted.1 hsubject
  exact mem_exhausted.2 ⟨htyped, fun path hpath => h subject path (hclaimed path hpath)⟩

/-- Once a subject has claimed an edge fewer subjects have one to claim. -/
theorem pending_lt_of_claimed {path : String} (htyped : facts.isTyped subject = true)
    (hpath : path ∈ claims.unclaimed facts subject)
    (h : (claims.claim facts subject).KeptIn later) :
    later.pending facts < claims.pending facts := by
  have hout : subject ∉ claims.exhausted facts := fun hmem => by
    rw [exhausted, List.mem_filter, decide_eq_true_eq] at hmem
    simp [hmem.2] at hpath
  have hin : subject ∈ later.exhausted facts := h.exhausted_subset
    (mem_exhausted.2 ⟨htyped, fun path hedge =>
      (mem_of_claim facts claims subject subject path).2 (.inr ⟨rfl, hedge⟩)⟩)
  have hkept : claims.exhausted facts ⊆ later.exhausted facts :=
    ((kept_claim facts claims subject).trans h).exhausted_subset
  calc later.pending facts
      ≤ unmet facts.typedSubjects (subject :: claims.exhausted facts) :=
        unmet_le_of_subset facts.typedSubjects (List.cons_subset.2 ⟨hin, hkept⟩)
    _ < claims.pending facts := unmet_cons_lt (FactSet.mem_typedSubjects.2 htyped) hout

end EdgeClaims

/-! ## Readings end -/

/-- An edge keeps all claims when the reading of its object does. -/
theorem claimEdge_keeps
    (hnested : fact.Follows claimed → claims.KeptIn (nested claims fact.object).2) :
    claims.KeptIn (claimEdge nested claimed claims fact).2 := by
  by_cases hfollows : fact.Follows claimed
  · rw [claimEdge_of_follows hfollows]
    exact hnested hfollows
  · rw [claimEdge_of_not_follows hfollows]
    exact .refl claims

/-- Reading a subject keeps all claims. -/
theorem claimSubject_keeps (facts : FactSet) (depth : Nat) (claims : EdgeClaims) (subject : Node) :
    claims.KeptIn (claimSubject facts depth claims subject).2 := by
  induction depth generalizing claims subject with
  | zero => exact .refl claims
  | succ depth ih =>
      rw [claimSubject]
      cases facts.classOf? subject with
      | none => exact .refl claims
      | some cls =>
          exact threadMap_state_induction (P := claims.KeptIn)
            (fun later fact _ hlater =>
              hlater.trans (claimEdge_keeps fun _ => ih later fact.object))
            (claims.kept_claim facts subject)

/-- A depth above the number of subjects that have an edge to claim finds the end of a reading. -/
theorem claimSubject_ends {depth : Nat} (hdepth : claims.pending facts < depth) :
    facts.ReadingEnds claims subject (claimSubject facts depth claims subject) := by
  induction depth generalizing claims subject with
  | zero => omega
  | succ depth ih =>
      rw [claimSubject]
      cases hcls : facts.classOf? subject with
      | none => exact .untyped claims subject hcls
      | some cls =>
          refine .typed claims subject cls hcls (claimSubject facts depth) ?_
          intro later fact hcomes hfollows
          -- The subject has claimed the edge followed, which pays for the step in depth.
          have hkept : (claims.claim facts subject).KeptIn later :=
            hcomes.state_induction
              (fun mid other _ hmid => hmid.trans
                (claimEdge_keeps fun _ => claimSubject_keeps facts depth mid other.object))
              (.refl _)
          have hfewer := EdgeClaims.pending_lt_of_claimed (FactSet.isTyped_of_class hcls)
            hfollows.isNew hkept
          exact ih (by omega)

/-- The bound of the facts suffices from any claims. -/
theorem claimSubject_depthBound_ends (facts : FactSet) (claims : EdgeClaims) (subject : Node) :
    facts.ReadingEnds claims subject (claimSubject facts facts.depthBound claims subject) := by
  have hpending : claims.pending facts ≤ facts.typedSubjects.length :=
    unmet_le_length facts.typedSubjects _
  have htyped : facts.typedSubjects.length ≤ facts.subjects.length := List.length_filter_le _ _
  exact claimSubject_ends (Nat.lt_succ_of_le (Nat.le_trans hpending htyped))

/-- Whatever a reading ends in, it has kept all claims. -/
theorem FactSet.ReadingEnds.keeps {answer : Option SubjectTree × EdgeClaims}
    (h : facts.ReadingEnds claims subject answer) : claims.KeptIn answer.2 := by
  rw [h.unique (claimSubject_depthBound_ends facts claims subject)]
  exact claimSubject_keeps facts facts.depthBound claims subject

end PublicationAudit
