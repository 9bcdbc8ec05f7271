import PublicationAudit.Proofs.QueryStores
import PublicationAudit.Proofs.Shape.Reading
import PublicationAudit.Proofs.Validation.Resumption

/-!
# When an audit fails

Every stage of an audit is lenient but two: shapes have to compile, and the observer may stop the
validation before one of its roots. Read `auditThrough_failures` first: as long as the query store
refuses nothing, an audit fails for these two reasons and for no other, and the shapes come first.
Which facts are loaded into the store makes no difference; a store that refuses comes between the
two (`auditThrough_of_no_engine`). Whether and where an observer stops a run is settled before the
run begins (`Observer.accepts_or_refuses`), because it is asked about the roots and nothing else.
-/

namespace PublicationAudit

open Validator (announcementsFrom announcementsFrom_cons announcementsFrom_append)

/-! ## Where an observer stops a run -/

namespace Observer

variable {observer : Observer} {roots earlier : List SubjectTree} {root : SubjectTree}
  {reason : String}

/-- An observer that accepts the first roots of a run and refuses the next one. One that remembers
what it was told is covered as well: a run announces every root once, so its answers are a function
of the announcements. -/
structure StopsAt (observer : Observer) (roots earlier : List SubjectTree) (root : SubjectTree)
    (reason : String) : Prop where
  next : ∃ later, roots = earlier ++ root :: later
  accepts : ∀ progress ∈ announcementsFrom 0 roots.length earlier, observer progress = .ok ()
  refuses : observer ⟨earlier.length, roots.length, root.uri⟩ = .error reason

/-- An observer accepts all roots, or there is a first one that it refuses. -/
theorem accepts_or_refuses (observer : Observer) (done total : Nat) (roots : List SubjectTree) :
    (∀ progress ∈ announcementsFrom done total roots, observer progress = .ok ()) ∨
      ∃ earlier root later reason, roots = earlier ++ root :: later ∧
        (∀ progress ∈ announcementsFrom done total earlier, observer progress = .ok ()) ∧
        observer ⟨done + earlier.length, total, root.uri⟩ = .error reason := by
  induction roots generalizing done with
  | nil => exact .inl fun progress hprogress => by simp [announcementsFrom] at hprogress
  | cons root roots ih =>
      cases hroot : observer ⟨done, total, root.uri⟩ with
      | error reason =>
          exact .inr ⟨[], root, roots, reason, rfl,
            fun progress hprogress => by simp [announcementsFrom] at hprogress, hroot⟩
      | ok _ =>
          rcases ih (done + 1) with
            haccepts | ⟨earlier, next, later, reason, rfl, haccepts, hrefuses⟩
          · rw [announcementsFrom_cons]
            exact .inl (List.forall_mem_cons.2 ⟨hroot, haccepts⟩)
          · refine .inr ⟨root :: earlier, next, later, reason, rfl, ?_, ?_⟩
            · rw [announcementsFrom_cons]
              exact List.forall_mem_cons.2 ⟨hroot, haccepts⟩
            · rw [List.length_cons, Nat.add_comm earlier.length, ← Nat.add_assoc]
              exact hrefuses

/-- The same for a run over a forest. -/
theorem accepts_or_stopsAt (observer : Observer) (roots : List SubjectTree) :
    (∀ progress ∈ announcementsFrom 0 roots.length roots, observer progress = .ok ()) ∨
      ∃ earlier root reason, observer.StopsAt roots earlier root reason := by
  rcases accepts_or_refuses observer 0 roots.length roots with
    haccepts | ⟨earlier, root, later, reason, hroots, haccepts, hrefuses⟩
  · exact .inl haccepts
  · rw [Nat.zero_add] at hrefuses
    exact .inr ⟨earlier, root, reason, ⟨later, hroots⟩, haccepts, hrefuses⟩

/-- The root before which a run is stopped is announced. -/
theorem StopsAt.mem (h : observer.StopsAt roots earlier root reason) :
    ⟨earlier.length, roots.length, root.uri⟩ ∈ announcementsFrom 0 roots.length roots := by
  obtain ⟨later, hroots⟩ := h.next
  generalize roots.length = total
  rw [hroots, announcementsFrom_append, announcementsFrom_cons, Nat.zero_add]
  exact List.mem_append_right _ List.mem_cons_self

/-- An observer stops a run exactly when it refuses some root. -/
theorem exists_stopsAt_iff : (∃ earlier root reason, observer.StopsAt roots earlier root reason) ↔
    ∃ progress ∈ announcementsFrom 0 roots.length roots, observer progress ≠ .ok () := by
  constructor
  · rintro ⟨earlier, root, reason, hstops⟩
    refine ⟨_, hstops.mem, ?_⟩
    rw [hstops.refuses]
    exact nofun
  · rintro ⟨progress, hmem, hrefuses⟩
    exact (accepts_or_stopsAt observer roots).resolve_left fun haccepts =>
      hrefuses (haccepts progress hmem)

end Observer

/-! ## The validation of a publication -/

section Validation

variable {observer : Observer} {facts : FactSet} {earlier : List SubjectTree} {root : SubjectTree}
  {reason : String}

/-- A validation that is stopped fails with the reason of the observer. -/
theorem validatePublication_stopped (engine : QueryEngine) (shapes : ShapeSet)
    (sparse : List String) (h : observer.StopsAt facts.readForest earlier root reason) :
    let validated := validatePublication engine shapes sparse observer facts .fresh
    validated.1 = .error (.aborted reason) ∧ validated.2.announced =
      announcementsFrom 0 facts.readForest.length (earlier ++ [root]) := by
  intro validated
  obtain ⟨later, hroots⟩ := h.next
  have hrun := Validator.validateFrom_stopped ⟨shapes, engine⟩ (.ofForest facts.readForest)
    h.accepts (by rw [Nat.zero_add]; exact h.refuses) later .fresh
  rw [← hroots] at hrun
  have hall : (⟨shapes, engine⟩ : Validator).validateAll observer facts.readForest .fresh = _ :=
    hrun
  simp only [validated, validatePublication, hall]
  exact ⟨trivial, rfl⟩

/-- A validation that is not stopped does not fail. -/
theorem validatePublication_finished (engine : QueryEngine) (shapes : ShapeSet)
    (sparse : List String)
    (h : ∀ progress ∈ announcementsFrom 0 facts.readForest.length facts.readForest,
      observer progress = .ok ()) :
    ∃ publication,
      (validatePublication engine shapes sparse observer facts .fresh).1 = .ok publication := by
  have hall : (⟨shapes, engine⟩ : Validator).validateAll observer facts.readForest .fresh = _ :=
    Validator.validateFrom_finished ⟨shapes, engine⟩ (.ofForest facts.readForest) h .fresh
  simp only [validatePublication, hall]
  exact ⟨_, rfl⟩

end Validation

/-! ## Audits -/

section Audits

variable {σ : Type} {store : QueryStore σ} (rules : Rdf.TermRules) {dereference : Dereferencer}
  {policy : AuditPolicy} {observer : Observer} {document shapeFacts : List Fact} {failure : Failure}
  {earlier : List SubjectTree} {root : SubjectTree} {reason : String} {shapes : ShapeSet}

/-- An audit whose shapes do not compile does nothing else. -/
theorem auditThrough_of_uncompiled {engineFor : FactSet → Except Failure QueryEngine}
    (h : ShapeSet.ofFacts (.ofList shapeFacts) = .error failure) :
    auditThrough engineFor dereference policy observer document shapeFacts =
      ⟨.error failure, [], .fresh⟩ := by
  rw [auditThrough, h]

/-- An audit for whose facts no engine can be made has crawled and does nothing else. -/
theorem auditThrough_of_no_engine {engineFor : FactSet → Except Failure QueryEngine}
    (hshapes : ShapeSet.ofFacts (.ofList shapeFacts) = .ok shapes)
    (h : engineFor (policy.follow dereference document).facts = .error failure) :
    auditThrough engineFor dereference policy observer document shapeFacts =
      ⟨.error failure, (policy.follow dereference document).requests, .fresh⟩ := by
  simp only [auditThrough, hshapes, validateThrough, h]
  rfl

/-- An audit whose observer stops it fails with the reason of the observer. -/
theorem auditThrough_of_stopsAt (haccepts : store.Accepts)
    (hshapes : ShapeSet.ofFacts (.ofList shapeFacts) = .ok shapes)
    (h : observer.StopsAt (policy.follow dereference document).facts.readForest earlier root
      reason) :
    let run := auditThrough (store.engineFor rules) dereference policy observer document shapeFacts
    run.outcome = .error (.aborted reason) ∧ run.state.announced = announcementsFrom 0
      (policy.follow dereference document).facts.readForest.length (earlier ++ [root]) := by
  intro run
  obtain ⟨engine, hengine⟩ := haccepts.engineFor rules (policy.follow dereference document).facts
  obtain ⟨hfailed, hannounced⟩ := validatePublication_stopped engine shapes policy.sparse h
  simp only [run, auditThrough, hshapes, validateThrough, hengine, hfailed]
  exact ⟨rfl, hannounced⟩

/-- An audit that nothing stops has a report. -/
theorem auditThrough_of_accepted (haccepts : store.Accepts)
    (hshapes : ShapeSet.ofFacts (.ofList shapeFacts) = .ok shapes)
    (h : ∀ progress ∈ announcementsFrom 0
        (policy.follow dereference document).facts.readForest.length
        (policy.follow dereference document).facts.readForest, observer progress = .ok ()) :
    ∃ report, (auditThrough (store.engineFor rules) dereference policy observer document
      shapeFacts).outcome = .ok report := by
  obtain ⟨engine, hengine⟩ := haccepts.engineFor rules (policy.follow dereference document).facts
  obtain ⟨publication, hfinished⟩ := validatePublication_finished engine shapes policy.sparse h
  simp only [auditThrough, hshapes, validateThrough, hengine, hfinished]
  exact ⟨_, rfl⟩

/-- An audit fails as the compilation of its shapes does, or as its observer wants. -/
theorem auditThrough_error_iff (haccepts : store.Accepts) :
    (auditThrough (store.engineFor rules) dereference policy observer document
        shapeFacts).outcome = .error failure ↔
      ShapeSet.ofFacts (.ofList shapeFacts) = .error failure ∨
      (∃ shapes, ShapeSet.ofFacts (.ofList shapeFacts) = .ok shapes) ∧ ∃ earlier root reason,
        observer.StopsAt (policy.follow dereference document).facts.readForest earlier root reason ∧
          failure = .aborted reason := by
  constructor
  · intro hfailed
    cases hshapes : ShapeSet.ofFacts (.ofList shapeFacts) with
    | error uncompiled =>
        rw [auditThrough_of_uncompiled hshapes] at hfailed
        cases hfailed
        exact .inl rfl
    | ok shapes =>
        rcases observer.accepts_or_stopsAt (policy.follow dereference document).facts.readForest
          with hpasses | ⟨earlier, root, reason, hstops⟩
        · obtain ⟨report, hreport⟩ := auditThrough_of_accepted rules haccepts hshapes hpasses
          rw [hreport] at hfailed
          cases hfailed
        · rw [(auditThrough_of_stopsAt rules haccepts hshapes hstops).1] at hfailed
          cases hfailed
          exact .inr ⟨⟨shapes, rfl⟩, earlier, root, reason, hstops, rfl⟩
  · rintro (hshapes | ⟨⟨shapes, hshapes⟩, earlier, root, reason, hstops, rfl⟩)
    · rw [auditThrough_of_uncompiled hshapes]
    · exact (auditThrough_of_stopsAt rules haccepts hshapes hstops).1

/-- As long as the query store refuses nothing, and whatever the rules are by which facts are left
out of it, an audit fails exactly when its shapes do not compile or its observer refuses one of the
roots of the crawled facts. In the first case it fails as the compilation does, which is for a shape
without a target class, and has neither requested anything nor asked the observer; in the second
case it fails for the first root that is refused, and has announced the roots up to that one. -/
theorem auditThrough_failures (store : QueryStore σ) (haccepts : store.Accepts)
    (rules : Rdf.TermRules) (dereference : Dereferencer) (policy : AuditPolicy)
    (observer : Observer) (document shapeFacts : List Fact) :
    let run := auditThrough (store.engineFor rules) dereference policy observer document shapeFacts
    let compiled := ShapeSet.ofFacts (.ofList shapeFacts)
    let roots := (policy.follow dereference document).facts.readForest
    ((∃ failure, run.outcome = .error failure) ↔ (∃ failure, compiled = .error failure) ∨
      ∃ progress ∈ announcementsFrom 0 roots.length roots, observer progress ≠ .ok ()) ∧
    (∀ failure, run.outcome = .error failure ↔ compiled = .error failure ∨
      (∃ shapes, compiled = .ok shapes) ∧ ∃ earlier root reason,
        observer.StopsAt roots earlier root reason ∧ failure = .aborted reason) ∧
    (∀ failure, compiled = .error failure →
      (∃ shape, failure = .missingTargetClass shape) ∧ run.requests = [] ∧
        run.state.announced = []) ∧
    ∀ earlier root reason, (∃ shapes, compiled = .ok shapes) →
      observer.StopsAt roots earlier root reason →
      run.state.announced = announcementsFrom 0 roots.length (earlier ++ [root]) := by
  intro run compiled roots
  refine ⟨?_, fun failure => auditThrough_error_iff rules haccepts, fun failure hshapes => ?_,
    fun earlier root reason ⟨shapes, hshapes⟩ hstops =>
      (auditThrough_of_stopsAt rules haccepts hshapes hstops).2⟩
  · rw [← Observer.exists_stopsAt_iff]
    constructor
    · rintro ⟨failure, hfailed⟩
      rcases (auditThrough_error_iff rules haccepts).1 hfailed with
        hshapes | ⟨-, earlier, root, reason, hstops, -⟩
      · exact .inl ⟨failure, hshapes⟩
      · exact .inr ⟨earlier, root, reason, hstops⟩
    · intro h
      -- Where the shapes do not compile, it makes no difference what the observer would do.
      cases hshapes : compiled with
      | error failure => exact ⟨failure, (auditThrough_error_iff rules haccepts).2 (.inl hshapes)⟩
      | ok shapes =>
          rcases h with ⟨failure, huncompiled⟩ | ⟨earlier, root, reason, hstops⟩
          · rw [hshapes] at huncompiled
            cases huncompiled
          · exact ⟨_, (auditThrough_of_stopsAt rules haccepts hshapes hstops).1⟩
  · obtain ⟨node, -, -, hmissing⟩ := ShapeSet.missingTargetClass_of_error hshapes
    have hrun : run = ⟨.error failure, [], .fresh⟩ := auditThrough_of_uncompiled hshapes
    exact ⟨⟨_, hmissing⟩, by rw [hrun], by rw [hrun]; rfl⟩

/-- Two persons who know each other and whose documents can be asked for. -/
def describedAcquaintances : List Fact :=
  [⟨.iri "http://e/personen/a", Vocabulary.rdfType, .iri "urn:Person"⟩,
    ⟨.iri "http://e/personen/a", "urn:knows", .iri "http://e/personen/b"⟩,
    ⟨.iri "http://e/personen/b", Vocabulary.rdfType, .iri "urn:Person"⟩,
    ⟨.iri "http://e/personen/b", "urn:knows", .iri "http://e/personen/a"⟩]

/-- An audit of two persons whose documents are asked for and cannot be fetched, stopped before the
second person. -/
theorem auditThrough_failures_acquaintances :
    let policy : AuditPolicy := ⟨true, {}, []⟩
    let unreachable : Dereferencer := fun uri => .error (.fetch uri "unreachable")
    let refusing : Observer := fun progress =>
      if progress.validated = 1 then .error "enough" else .ok ()
    let run := auditThrough (Sparql.memoryStore.engineFor .rdf) unreachable policy refusing
      describedAcquaintances []
    Sparql.memoryStore.Accepts ∧ run.requests = ["http://e/personen/a", "http://e/personen/b"] ∧
      run.outcome = .error (.aborted "enough") := by
  intro policy unreachable refusing run
  obtain ⟨-, houtcome, -⟩ := auditThrough_failures Sparql.memoryStore Sparql.memoryStore_accepts
    .rdf unreachable policy refusing describedAcquaintances []
  have huris : (policy.follow unreachable describedAcquaintances).facts.readForest.map (·.uri) =
      ["http://e/personen/a", "http://e/personen/b"] := by decide
  obtain ⟨first, rest, hpeople, -, hrest⟩ := List.map_eq_cons_iff.1 huris
  obtain ⟨second, later, rfl, -, -⟩ := List.map_eq_cons_iff.1 hrest
  have hstops : refusing.StopsAt _ [first] second "enough" :=
    ⟨⟨later, hpeople⟩, List.forall_mem_singleton.2 rfl, rfl⟩
  have hrequests : (policy.follow unreachable describedAcquaintances).requests =
      ["http://e/personen/a", "http://e/personen/b"] := by decide
  exact ⟨Sparql.memoryStore_accepts, hrequests,
    (houtcome _).2 (.inr ⟨⟨_, rfl⟩, _, _, _, hstops, rfl⟩)⟩

end Audits

end PublicationAudit
