import PublicationAudit.Proofs.Forest.Copies

/-!
# Sequences of readings

One reader can be asked for several subjects, and for all of them, in any order; what it has
expanded stays expanded. `readCalls_spec` says which trees it answers with and how the copies in
them follow one another.
-/

namespace PublicationAudit

/-- What a reader is asked for. -/
inductive ReadCall where
  /-- One subject, which need not have a class. -/
  | one (subject : Node)
  /-- Every subject of the facts. -/
  | all

namespace ReadCall

/-- The subjects to be read, in order. -/
def subjects (facts : FactSet) : ReadCall → List Node
  | one subject => [subject]
  | all => facts.subjects

variable {σ : Type}

/-- The trees that answer a call, when it is given how one subject is read. -/
def answer (facts : FactSet) (readOne : σ → Node → Option SubjectTree × σ) (state : σ) :
    ReadCall → List SubjectTree × σ
  | one subject => ((readOne state subject).1.toList, (readOne state subject).2)
  | all =>
    ((threadMap readOne state facts.subjects).1.filterMap id,
      (threadMap readOne state facts.subjects).2)

/-- A call is answered by reading its subjects in order. -/
theorem answer_eq (facts : FactSet) (readOne : σ → Node → Option SubjectTree × σ) (state : σ)
    (call : ReadCall) : call.answer facts readOne state =
      ((threadMap readOne state (call.subjects facts)).1.filterMap id,
        (threadMap readOne state (call.subjects facts)).2) := by
  cases call with
  | one subject =>
      simp only [answer, subjects, threadMap_cons, threadMap_nil]
      cases (readOne state subject).1 <;> rfl
  | all => rfl

/-- The trees that answer a sequence of calls, call after call. -/
def answers (facts : FactSet) (readOne : σ → Node → Option SubjectTree × σ) (state : σ)
    (calls : List ReadCall) : List SubjectTree :=
  (threadMap (answer facts readOne) state calls).1.flatten

/-- A sequence of calls is answered by reading all of its subjects in order. -/
theorem answers_eq (facts : FactSet) (readOne : σ → Node → Option SubjectTree × σ) (state : σ)
    (calls : List ReadCall) : answers facts readOne state calls =
      (threadMap readOne state (calls.flatMap (subjects facts))).1.filterMap id := by
  unfold answers
  induction calls generalizing state with
  | nil => rfl
  | cons call calls ih =>
      rw [threadMap_cons, List.flatten_cons, ih, List.flatMap_cons, threadMap_append,
        List.filterMap_append, answer_eq]

end ReadCall

namespace FactSet

/-- The trees that a new reader answers a sequence of calls with. -/
def readCalls (facts : FactSet) (calls : List ReadCall) : List SubjectTree :=
  ReadCall.answers facts facts.readOne [] calls

/-- A call for all subjects of a new reader gives the forest of the facts. -/
theorem readCalls_all (facts : FactSet) : facts.readCalls [.all] = facts.readForest := by
  rw [readCalls, ReadCall.answers_eq, List.flatMap_singleton]
  rfl

/-- A reader answers with one tree for each subject asked for that has a class, and the copies in
the trees follow one another as in a single reading. -/
theorem readCalls_spec (facts : FactSet) (calls : List ReadCall) :
    (facts.readCalls calls).map (·.node) =
        (calls.flatMap (ReadCall.subjects facts)).filter facts.isTyped ∧
      CopiesAfter facts [] ((facts.readCalls calls).flatMap SubjectTree.copies) := by
  rw [readCalls, ReadCall.answers_eq]
  obtain ⟨hroots, hread⟩ := threadMap_readOne (calls.flatMap (ReadCall.subjects facts)) []
  exact ⟨hroots, hread.shown⟩

end FactSet

end PublicationAudit
