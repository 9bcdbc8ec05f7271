import PublicationAudit.FactSet
import PublicationAudit.Proofs.FirstMentions
import PublicationAudit.Threaded

/-!
# The history of a set of facts

A fact set is filled by calls that offer one fact or many. Whatever the calls, it is the history of
what was offered without the repetitions: `FactCall.runAll_history` says so of the list of facts, of
every query that the index answers (`FactSet.Scans`) and of the answers to the calls. One step is
`FactCall.run_spec`: a call keeps the list of facts equal to the distinct facts offered so far.
-/

namespace PublicationAudit

/-! ## Adding facts -/

namespace FactSet

/-- Facts that are added follow the known ones, each where it first comes. -/
theorem toList_extend (set : FactSet) (facts : List Fact) :
    (set.extend facts).2.toList = (set.toList ++ facts).eraseDups := by
  induction facts generalizing set with
  | nil =>
      rw [List.append_nil]
      exact (eraseDups_of_nodup set.nodup).symm
  | cons fact facts ih =>
      show ((set.insert fact).2.extend facts).2.toList = _
      rw [ih, toList_insert]
      split
      · rename_i hknown
        exact (eraseDups_append_cons hknown facts).symm
      · rw [List.append_assoc, List.singleton_append]

/-- The set of a list holds its distinct facts. -/
theorem toList_ofList (facts : List Fact) : (ofList facts).toList = facts.eraseDups := by
  rw [ofList, toList_extend, toList_empty, List.nil_append]

/-- Adding facts in two batches is adding them in one, and the numbers of new ones add up. -/
theorem extend_append (set : FactSet) (facts more : List Fact) :
    set.extend (facts ++ more) =
      ((set.extend facts).1 + ((set.extend facts).2.extend more).1,
        ((set.extend facts).2.extend more).2) := by
  induction facts generalizing set with
  | nil => simp [extend]
  | cons fact facts ih => simp [extend, ih, Nat.add_assoc]

/-- A fact that is added makes the set larger exactly when it is new. -/
theorem size_insert (set : FactSet) (fact : Fact) :
    (set.insert fact).2.size = set.size + if (set.insert fact).1 then 1 else 0 := by
  unfold insert
  split
  · rfl
  · exact Array.size_push _

/-- The number that is returned when facts are added is that by which the set grows. -/
theorem size_extend (set : FactSet) (facts : List Fact) :
    (set.extend facts).2.size = set.size + (set.extend facts).1 := by
  induction facts generalizing set with
  | nil => rfl
  | cons fact facts ih =>
      show ((set.insert fact).2.extend facts).2.size = _
      rw [ih, size_insert, Nat.add_assoc]
      rfl

/-- Where no fact is new, the set stays as it is. -/
theorem extend_eq_self {set : FactSet} {facts : List Fact} (h : (set.extend facts).1 = 0) :
    (set.extend facts).2 = set := by
  induction facts with
  | nil => rfl
  | cons fact facts ih =>
      have hcount : (if (set.insert fact).1 then 1 else 0) +
          ((set.insert fact).2.extend facts).1 = 0 := h
      have hinsert : set.insert fact = (false, set) := by
        unfold insert at hcount ⊢
        split
        · rfl
        · rename_i hnew
          simp [hnew] at hcount
      simp only [hinsert, Bool.false_eq_true, if_false, Nat.zero_add] at hcount
      show ((set.insert fact).2.extend facts).2 = set
      rw [hinsert]
      exact ih hcount

/-- The new facts follow the known ones, which stay as they are. -/
theorem toList_extend_eq (set : FactSet) (facts : List Fact) :
    (set.extend facts).2.toList =
      set.toList ++ (facts.filter fun fact => fact ∉ set.toList).eraseDups := by
  rw [toList_extend, List.eraseDups_append, eraseDups_of_nodup (l := set.toList) set.nodup]
  congr 2
  exact List.filter_congr fun fact _ => by simp

/-- Added facts show in those of a subject when they are new and about it. -/
theorem factsFor_extend (set : FactSet) (facts : List Fact) (subject : Node) :
    (set.extend facts).2.factsFor subject = set.factsFor subject ++
      ((facts.filter (·.subject = subject)).filter fun fact => fact ∉ set.toList).eraseDups := by
  rw [factsFor_eq_filter, toList_extend_eq, List.filter_append, ← factsFor_eq_filter,
    filter_eraseDups, List.filter_comm]

/-! ## Queries -/

/-- A set answers every query by a scan of a list of facts. Subjects are listed when they are first
mentioned, everything else in the order of the facts; and no place of the index lies outside of the
facts. -/
structure Scans (set : FactSet) (facts : List Fact) : Prop where
  toList : set.toList = facts
  size : set.size = facts.length
  contains : ∀ fact, set.contains fact = true ↔ fact ∈ facts
  places : ∀ subject, ∀ place ∈ set.placesOf subject, place < facts.length
  factsFor : ∀ subject, set.factsFor subject = facts.filter (·.subject = subject)
  subjects : FirstMentions (fun _ => True) (facts.map (·.subject)) set.subjects
  hasSubject : ∀ subject, set.hasSubject subject = true ↔ ∃ fact ∈ facts, fact.subject = subject
  objects : ∀ subject predicate, set.objects subject predicate =
    (facts.filter fun fact => fact.subject = subject ∧ fact.predicate = predicate).map (·.object)
  typesOf : ∀ subject, set.typesOf subject =
    (facts.filter fun fact => fact.subject = subject ∧
      fact.predicate = Vocabulary.rdfType).filterMap (·.object.iri?)
  instancesOf : ∀ cls, set.instancesOf cls =
    (facts.filter fun fact => fact.predicate = Vocabulary.rdfType ∧
      fact.object = .iri cls).map (·.subject)
  hasInstance : ∀ cls, set.hasInstance cls = true ↔
    ∃ fact ∈ facts, fact.predicate = Vocabulary.rdfType ∧ fact.object = .iri cls
  iris : set.iris = facts.flatMap fun fact => fact.subject.iri?.toList ++ fact.object.iri?.toList

variable {set : FactSet}

/-- The objects of a subject for a predicate are a scan of all facts. -/
theorem objects_eq_scan (set : FactSet) (subject : Node) (predicate : String) :
    set.objects subject predicate = (set.toList.filter fun fact =>
      fact.subject = subject ∧ fact.predicate = predicate).map (·.object) := by
  rw [objects, factsFor_eq_filter, List.filter_filter]
  congr 1
  exact List.filter_congr fun fact _ => by simp [and_comm]

/-- A subject is known when a fact has it. -/
theorem hasSubject_iff {subject : Node} :
    set.hasSubject subject = true ↔ ∃ fact ∈ set.toList, fact.subject = subject := by
  rw [hasSubject, OrderedMap.contains, ← OrderedMap.mem_keys_iff, set.subjects_eq,
    List.mem_eraseDups, List.mem_map]
  rfl

/-- No subject is an instance of a class twice. -/
theorem nodup_instancesOf (set : FactSet) (cls : String) : (set.instancesOf cls).Nodup := by
  refine List.Nodup.map_on ?_ (set.nodup.filter _)
  rintro ⟨subject, _, _⟩ hfact ⟨_, _, _⟩ hother rfl
  -- Both facts declare the class of the same subject, so they are one fact.
  obtain ⟨-, rfl, rfl⟩ := by simpa using hfact
  obtain ⟨-, rfl, rfl⟩ := by simpa using hother
  rfl

/-- Every set answers its queries by scans of its facts. -/
theorem scans (set : FactSet) : set.Scans set.toList where
  toList := rfl
  size := rfl
  contains _ := contains_iff
  places _ _ h := lt_size_of_mem_placesOf h
  factsFor := set.factsFor_eq_filter
  subjects := by
    rw [subjects_eq_eraseDups]
    exact firstMentions_all _
  hasSubject _ := hasSubject_iff
  objects := set.objects_eq_scan
  typesOf subject := by
    rw [typesOf, objects_eq_scan, List.filterMap_map]
    rfl
  instancesOf _ := rfl
  hasInstance cls := by simp [hasInstance, instancesOf]
  iris := rfl

end FactSet

/-! ## Calls -/

/-- A call that offers facts to a set. -/
inductive FactCall where
  /-- One fact. -/
  | insert (fact : Fact)
  /-- Facts in order. -/
  | extend (facts : List Fact)

/-- What such a call answers. -/
inductive FactAnswer where
  /-- Whether the fact was new. -/
  | isNew (flag : Bool)
  /-- How many of the facts were new. -/
  | added (count : Nat)
  deriving DecidableEq, Repr

/-- By how much the set has grown, as far as an answer tells. -/
def FactAnswer.growth : FactAnswer → Nat
  | isNew flag => flag.toNat
  | added count => count

namespace FactCall

/-- The facts that a call offers. -/
def offered : FactCall → List Fact
  | insert fact => [fact]
  | extend facts => facts

/-- What a call answers, and the set that it leaves. -/
def run (set : FactSet) : FactCall → FactAnswer × FactSet
  | insert fact => (.isNew (set.insert fact).1, (set.insert fact).2)
  | extend facts => (.added (set.extend facts).1, (set.extend facts).2)

/-- What a sequence of calls answers, and the set that it leaves. -/
def runAll (set : FactSet) (calls : List FactCall) : List FactAnswer × FactSet :=
  threadMap run set calls

/-- All facts that a sequence of calls offers, in order and with repetitions. -/
def history (calls : List FactCall) : List Fact := calls.flatMap offered

/-- What a call has to answer after some facts were offered: whether the fact is none of them, and
how many distinct facts are none of them. -/
def answerAfter (known : List Fact) : FactCall → FactAnswer
  | insert fact => .isNew (fact ∉ known)
  | extend facts => .added (facts.filter (· ∉ known)).eraseDups.length

variable {set : FactSet} {known : List Fact}

/-- A call that meets a set of the distinct facts offered before answers what it has to, and leaves
the set of the distinct facts offered by then. -/
theorem run_spec (h : set.toList = known.eraseDups) (call : FactCall) :
    (call.run set).1 = call.answerAfter known ∧
      (call.run set).2.toList = (known ++ call.offered).eraseDups := by
  have hknown : ∀ fact, fact ∈ set.toList ↔ fact ∈ known := fun fact => by
    rw [h, List.mem_eraseDups]
  have hfacts : ∀ facts, (set.extend facts).2.toList = (known ++ facts).eraseDups := fun facts => by
    rw [FactSet.toList_extend_eq, h, List.eraseDups_append]
    congr 2
    exact List.filter_congr fun fact _ => by simp
  cases call with
  | insert fact =>
      refine ⟨?_, hfacts [fact]⟩
      show FactAnswer.isNew (set.insert fact).1 = .isNew (fact ∉ known)
      congr 1
      unfold FactSet.insert
      split
      · rename_i hcontains
        simpa [hknown] using FactSet.contains_iff.1 hcontains
      · rename_i hcontains
        simpa [FactSet.contains_iff, hknown] using hcontains
  | extend facts =>
      refine ⟨?_, hfacts facts⟩
      -- The set grows by the distinct facts that were not offered before.
      have hsize : (set.extend facts).2.toList.length = set.toList.length + (set.extend facts).1 :=
        FactSet.size_extend set facts
      rw [FactSet.toList_extend_eq, List.length_append] at hsize
      have hnew : (facts.filter fun fact => fact ∉ set.toList) = facts.filter (· ∉ known) :=
        List.filter_congr fun fact _ => by simp only [hknown]
      rw [hnew] at hsize
      show FactAnswer.added (set.extend facts).1 = .added _
      congr 1
      omega

/-- The same for a sequence of calls: each answers what it has to after those before it. -/
theorem runAll_spec (h : set.toList = known.eraseDups) (calls : List FactCall) :
    (runAll set calls).1 =
        calls.mapIdx (fun place call => call.answerAfter (known ++ history (calls.take place))) ∧
      (runAll set calls).2.toList = (known ++ history calls).eraseDups := by
  induction calls generalizing set known with
  | nil => exact ⟨rfl, by rw [history, List.flatMap_nil, List.append_nil]; exact h⟩
  | cons call calls ih =>
      obtain ⟨hanswer, hset⟩ := run_spec h call
      obtain ⟨hanswers, hfinal⟩ := ih hset
      have hhistory : ∀ later, known ++ history (call :: later) =
          known ++ call.offered ++ history later := fun later => by
        rw [history, List.flatMap_cons, ← List.append_assoc]
        rfl
      refine ⟨?_, by rw [hhistory]; exact hfinal⟩
      show (call.run set).1 :: (runAll (call.run set).2 calls).1 = _
      rw [List.mapIdx_cons, hanswer, hanswers, List.take_zero, history, List.flatMap_nil,
        List.append_nil]
      simp only [List.take_succ_cons, hhistory]

/-- Calls leave the set that one batch of all the facts leaves. -/
theorem runAll_eq_extend (set : FactSet) (calls : List FactCall) :
    (runAll set calls).2 = (set.extend (history calls)).2 := by
  induction calls generalizing set with
  | nil => rfl
  | cons call calls ih =>
      have hcall : (call.run set).2 = (set.extend call.offered).2 := by cases call <;> rfl
      rw [history, List.flatMap_cons, FactSet.extend_append, ← hcall]
      exact ih (call.run set).2

/-- After any calls on an empty set, the set is the history of the facts that they offered, in which
each fact stands where it was first offered: the facts are listed so, and every query is a scan of
them. The answer to a call is whether its fact was new or how many of its facts were, and the set
grows by as much. Further calls leave the facts where they are, no class has an instance twice, and
it makes no difference in how many calls the facts were offered. -/
theorem runAll_history (calls : List FactCall) :
    let set := (runAll .empty calls).2
    (∃ facts, FirstMentions (fun _ => True) (history calls) facts ∧ set.Scans facts) ∧
    (runAll .empty calls).1 =
      calls.mapIdx (fun place call => call.answerAfter (history (calls.take place))) ∧
    (∀ call : FactCall, (call.run set).2.size = set.size + (call.run set).1.growth) ∧
    (∀ cls, (set.instancesOf cls).Nodup) ∧
    (∀ more, set.toList <+: (runAll .empty (calls ++ more)).2.toList) ∧
    set = .ofList (history calls) := by
  intro set
  have hempty : FactSet.empty.toList = ([] : List Fact).eraseDups := rfl
  obtain ⟨hanswers, hset⟩ := runAll_spec hempty calls
  simp only [List.nil_append] at hanswers hset
  refine ⟨⟨set.toList, hset ▸ firstMentions_all _, set.scans⟩, hanswers, fun call => ?_,
    set.nodup_instancesOf, fun more => ?_, runAll_eq_extend .empty calls⟩
  · cases call with
    | insert fact =>
        refine (FactSet.size_insert set fact).trans ?_
        show _ = set.size + (set.insert fact).1.toNat
        cases (set.insert fact).1 <;> rfl
    | extend facts => exact FactSet.size_extend set facts
  · have hmore : (runAll .empty (calls ++ more)).2 = (runAll set more).2 := by
      rw [runAll, threadMap_append]
      rfl
    rw [hmore, runAll_eq_extend, FactSet.toList_extend_eq]
    exact List.prefix_append _ _

end FactCall

end PublicationAudit
