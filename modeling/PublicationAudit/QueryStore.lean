import PublicationAudit.FactSet
import PublicationAudit.Failure
import PublicationAudit.Query
import PublicationAudit.Rdf.Term

/-!
# Query stores

Queries are answered by a store into which the facts are loaded first, one after the other. A fact
that stands for no statement, under the rules about which text is valid, is left out and stops
nothing; a store that cannot be created or refuses a statement stops the run.
-/

namespace PublicationAudit

/-- A store of statements that answers queries over them. What it keeps is its own affair. -/
structure QueryStore (σ : Type) where
  create : Except String σ
  insert : σ → Rdf.Statement → Except String σ
  engine : σ → QueryEngine

namespace QueryStore

variable {σ : Type}

/-- Loads the facts that are valid under rules into a store, in order. -/
def load (store : QueryStore σ) (rules : Rdf.TermRules) (contents : σ) :
    List Fact → Except Failure σ
  | [] => .ok contents
  | fact :: facts =>
    match Rdf.Statement.ofFactUnder? rules fact with
    | none => store.load rules contents facts
    | some statement =>
      match store.insert contents statement with
      | .error reason => .error (.store reason)
      | .ok contents => store.load rules contents facts

/-- The query engine over a set of facts. -/
def engineFor (store : QueryStore σ) (rules : Rdf.TermRules) (facts : FactSet) :
    Except Failure QueryEngine :=
  match store.create with
  | .error reason => .error (.store reason)
  | .ok contents => (store.load rules contents facts.toList).map store.engine

end QueryStore

end PublicationAudit
