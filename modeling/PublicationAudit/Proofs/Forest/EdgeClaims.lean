import PublicationAudit.Proofs.Forest.Calls

/-!
# Claims on edges

A reader keeps a list of the subjects whose edges it has expanded. The finer account is a claim for
each edge: a copy expands just those edges of its subject that no copy claimed before, and it claims
them before it follows any. The main statement is `answers_claimSubject`: both accounts lead to the
same trees, because a subject's edges are always claimed together.
-/

namespace PublicationAudit

/-- The predicates of a subject's edges. A declaration of a class is no edge. -/
def FactSet.edgePaths (facts : FactSet) (subject : Node) : List String :=
  ((facts.factsFor subject).map (·.predicate)).filter (· ≠ Vocabulary.rdfType)

/-- The predicates claimed of each subject. -/
abbrev EdgeClaims := OrderedMap Node (List String)

namespace EdgeClaims

/-- The predicates claimed of a subject. -/
def of (claims : EdgeClaims) (subject : Node) : List String := (claims.find? subject).getD []

/-- The edges of a subject that nobody has claimed. -/
def unclaimed (facts : FactSet) (claims : EdgeClaims) (subject : Node) : List String :=
  (facts.edgePaths subject).eraseDups.filter (· ∉ claims.of subject)

/-- Claims all edges of a subject that nobody has claimed. -/
def claim (facts : FactSet) (claims : EdgeClaims) (subject : Node) : EdgeClaims :=
  claims.upsert subject fun old => old.getD [] ++ unclaimed facts claims subject

end EdgeClaims

/-- The target of one fact: the object is read as a subject along a newly claimed edge only. -/
def claimTarget (nested : EdgeClaims → Node → Option SubjectTree × EdgeClaims)
    (claimed : List String) (claims : EdgeClaims) (fact : Fact) : EdgeTarget × EdgeClaims :=
  if fact.predicate = Vocabulary.rdfType then (.reference fact.object.key, claims)
  else if fact.object.isLiteral then (.literal fact.object.lexical, claims)
  else if fact.predicate ∈ claimed then
    match (nested claims fact.object).1 with
    | some tree => (.nested tree, (nested claims fact.object).2)
    | none => (.reference fact.object.key, (nested claims fact.object).2)
  else (.reference fact.object.key, claims)

/-- One property. -/
def claimEdge (nested : EdgeClaims → Node → Option SubjectTree × EdgeClaims)
    (claimed : List String) (claims : EdgeClaims) (fact : Fact) : Edge × EdgeClaims :=
  (⟨fact.predicate, (claimTarget nested claimed claims fact).1⟩,
    (claimTarget nested claimed claims fact).2)

/-- Reads a subject with claims on edges; `depth` bounds the nesting as in `readSubject`. -/
def claimSubject (facts : FactSet) :
    Nat → EdgeClaims → Node → Option SubjectTree × EdgeClaims
  | 0, claims, _ => (none, claims)
  | depth + 1, claims, subject =>
    match facts.classOf? subject with
    | none => (none, claims)
    | some cls =>
      let claimed := claims.unclaimed facts subject
      let edges := threadMap (claimEdge (claimSubject facts depth) claimed)
        (claims.claim facts subject) (facts.reportedFacts subject)
      (some ⟨subject, cls, edges.1⟩, edges.2)

/-- Claims keep track of the subjects expanded: an edge is claimed when its subject is. -/
def EdgeClaims.Tracks (facts : FactSet) (claims : EdgeClaims) (expanded : Expanded) : Prop :=
  ∀ subject path, path ∈ claims.of subject ↔
    subject ∈ expanded ∧ path ∈ facts.edgePaths subject

variable {facts : FactSet} {claims : EdgeClaims} {expanded : Expanded} {subject : Node}

namespace EdgeClaims

/-- Nothing is claimed at first. -/
theorem tracks_empty (facts : FactSet) : Tracks facts .empty [] := fun subject path => by
  simp [of]

/-- Of a subject that was expanded every edge is claimed, of another none. -/
theorem Tracks.mem_unclaimed (h : claims.Tracks facts expanded) {path : String} :
    path ∈ claims.unclaimed facts subject ↔
      subject ∉ expanded ∧ path ∈ facts.edgePaths subject := by
  rw [unclaimed, List.mem_filter, List.mem_eraseDups, decide_eq_true_eq, h subject path]
  tauto

/-- Claiming the edges of a subject goes with expanding it. -/
theorem Tracks.claim (h : claims.Tracks facts expanded) (subject : Node) :
    (claims.claim facts subject).Tracks facts
      (if !expanded.contains subject then subject :: expanded else expanded) := by
  intro other path
  have hmem : other ∈ (if !expanded.contains subject then subject :: expanded else expanded) ↔
      other = subject ∨ other ∈ expanded := by
    cases hknown : expanded.contains subject with
    | false => exact List.mem_cons
    | true =>
        have hsubject : subject ∈ expanded := List.contains_iff_mem.1 hknown
        exact ⟨.inr, fun hother => hother.elim (fun he => he ▸ hsubject) id⟩
  rw [hmem, of, EdgeClaims.claim, OrderedMap.find?_upsert]
  by_cases hother : other = subject
  · subst hother
    rw [if_pos rfl, Option.getD_some, List.mem_append, h.mem_unclaimed,
      show path ∈ (claims.find? other).getD [] ↔ _ from h other path]
    tauto
  · rw [if_neg hother, show path ∈ (claims.find? other).getD [] ↔ _ from h other path]
    simp [hother]

end EdgeClaims

/-- The two ways of reading a subject answer alike and leave accounts that agree. -/
def ReadAlike (facts : FactSet) (byClaims : EdgeClaims → Node → Option SubjectTree × EdgeClaims)
    (bySubjects : SubjectReader) : Prop :=
  ∀ claims expanded, claims.Tracks facts expanded → ∀ subject,
    (byClaims claims subject).1 = (bySubjects expanded subject).1 ∧
      (byClaims claims subject).2.Tracks facts (bySubjects expanded subject).2

/-- Targets are read alike when the edge is newly claimed just on a first copy. -/
theorem claimTarget_alike {byClaims : EdgeClaims → Node → Option SubjectTree × EdgeClaims}
    {bySubjects : SubjectReader} (hnested : ReadAlike facts byClaims bySubjects)
    {claimed : List String} {isFirst : Bool} {fact : Fact}
    (hclaimed : fact.predicate ≠ Vocabulary.rdfType →
      (fact.predicate ∈ claimed ↔ isFirst = true))
    (h : claims.Tracks facts expanded) :
    (claimTarget byClaims claimed claims fact).1 =
        (readTarget bySubjects isFirst expanded fact).1 ∧
      (claimTarget byClaims claimed claims fact).2.Tracks facts
        (readTarget bySubjects isFirst expanded fact).2 := by
  by_cases htype : fact.predicate = Vocabulary.rdfType
  · -- A declaration is shown by its identifier in either account.
    rw [claimTarget, if_pos htype]
    cases hliteral : fact.object.isLiteral with
    | true =>
        rw [readTarget_of_literal hliteral, if_pos htype]
        exact ⟨rfl, h⟩
    | false =>
        rw [readTarget_of_not_literal hliteral, if_neg (by simp [htype])]
        exact ⟨rfl, h⟩
  · rw [claimTarget, if_neg htype]
    cases hliteral : fact.object.isLiteral with
    | true =>
        rw [readTarget_of_literal hliteral, if_neg htype, if_pos rfl]
        refine ⟨?_, h⟩
        cases hobject : fact.object with
        | iri text | blank label => simp [hobject, Node.isLiteral] at hliteral
        | literal text datatype language => rfl
    | false =>
        rw [readTarget_of_not_literal hliteral, if_neg Bool.false_ne_true]
        by_cases hfirst : isFirst = true
        · obtain ⟨hanswer, htracks⟩ := hnested claims expanded h fact.object
          rw [if_pos ((hclaimed htype).2 hfirst), if_pos (by simp [hfirst, htype]), hanswer]
          cases (bySubjects expanded fact.object).1 <;> exact ⟨rfl, htracks⟩
        · rw [if_neg (fun hmem => hfirst ((hclaimed htype).1 hmem)), if_neg (by simp [hfirst])]
          exact ⟨rfl, h⟩

/-- Claims on edges and a list of expanded subjects read a subject alike. -/
theorem claimSubject_alike (facts : FactSet) (depth : Nat) :
    ReadAlike facts (claimSubject facts depth) (readSubject facts depth) := by
  induction depth with
  | zero => exact fun _ _ h _ => ⟨rfl, h⟩
  | succ depth ih =>
      intro claims expanded h subject
      rw [claimSubject, readSubject]
      cases facts.classOf? subject with
      | none => exact ⟨rfl, h⟩
      | some cls =>
          have hstart := h.claim subject
          have hedge : ∀ later met, EdgeClaims.Tracks facts later met →
              ∀ fact ∈ facts.reportedFacts subject,
                (claimEdge (claimSubject facts depth) (claims.unclaimed facts subject) later
                  fact).1 =
                  (readEdge (readSubject facts depth) (!expanded.contains subject) met fact).1 ∧
                EdgeClaims.Tracks facts
                  (claimEdge (claimSubject facts depth) (claims.unclaimed facts subject) later
                    fact).2
                  (readEdge (readSubject facts depth) (!expanded.contains subject) met fact).2 := by
            intro later met hlater fact hfact
            have hpath : fact.predicate ≠ Vocabulary.rdfType →
                (fact.predicate ∈ claims.unclaimed facts subject ↔
                  (!expanded.contains subject) = true) := fun htype => by
              have hedgePath : fact.predicate ∈ facts.edgePaths subject :=
                List.mem_filter.2 ⟨List.mem_map_of_mem (List.mem_filter.1 hfact).1, by
                  simpa using htype⟩
              rw [h.mem_unclaimed]
              simp [hedgePath]
            obtain ⟨htarget, htracks⟩ := claimTarget_alike ih hpath hlater
            exact ⟨by rw [claimEdge, readEdge, htarget], htracks⟩
          obtain ⟨hedges, hend⟩ := threadMap_inStep hstart hedge
          exact ⟨congrArg (fun edges => some (SubjectTree.mk subject cls edges)) hedges, hend⟩

/-- So a sequence of calls is answered with the same trees. -/
theorem answers_claimSubject (facts : FactSet) (calls : List ReadCall) :
    ReadCall.answers facts (claimSubject facts facts.depthBound) .empty calls =
      facts.readCalls calls := by
  rw [FactSet.readCalls, ReadCall.answers_eq, ReadCall.answers_eq]
  obtain ⟨hanswers, -⟩ := threadMap_inStep (EdgeClaims.tracks_empty facts)
    fun claims expanded h subject _ => claimSubject_alike facts facts.depthBound claims expanded h
      subject
  exact congrArg (List.filterMap id) hanswers

end PublicationAudit
