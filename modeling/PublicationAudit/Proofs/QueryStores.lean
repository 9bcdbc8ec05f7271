import PublicationAudit.Proofs.Lists
import PublicationAudit.Publication
import PublicationAudit.Sparql.Evaluate

/-!
# Loading query stores

A store that refuses no statement is loaded with any facts under any rules, also with facts that
stand for no statement under them (`QueryStore.Accepts.engineFor`). The store in memory is such a
store, and under the rules of RDF it answers from the distinct valid statements of the facts
(`Sparql.memoryStore_engineFor`).
-/

namespace PublicationAudit

namespace QueryStore

variable {σ : Type} {store : QueryStore σ}

/-- A store that can be created and refuses no statement. -/
structure Accepts (store : QueryStore σ) : Prop where
  creates : ∃ contents, store.create = .ok contents
  inserts : ∀ contents statement, ∃ next, store.insert contents statement = .ok next

/-- Whatever such a store holds, any facts can be loaded into it under any rules. -/
theorem Accepts.load (h : store.Accepts) (rules : Rdf.TermRules) (facts : List Fact)
    (contents : σ) : ∃ final, store.load rules contents facts = .ok final := by
  induction facts generalizing contents with
  | nil => exact ⟨contents, rfl⟩
  | cons fact facts ih =>
      rw [QueryStore.load]
      cases Rdf.Statement.ofFactUnder? rules fact with
      | none => exact ih contents
      | some statement =>
          obtain ⟨next, hnext⟩ := h.inserts contents statement
          simp only [hnext]
          exact ih next

/-- Such a store gives an engine over any set of facts. -/
theorem Accepts.engineFor (h : store.Accepts) (rules : Rdf.TermRules) (facts : FactSet) :
    ∃ engine, store.engineFor rules facts = .ok engine := by
  obtain ⟨contents, hcontents⟩ := h.creates
  obtain ⟨final, hfinal⟩ := h.load rules facts.toList contents
  refine ⟨store.engine final, ?_⟩
  rw [QueryStore.engineFor, hcontents]
  simp only [hfinal]
  rfl

end QueryStore

/-! ## The store in memory -/

namespace Sparql

open Rdf (Statement)

/-- The store in memory refuses nothing. -/
theorem memoryStore_accepts : memoryStore.Accepts where
  creates := ⟨[], rfl⟩
  inserts _ _ := ⟨_, rfl⟩

/-- Loading adds the statements that are not there yet, each once. -/
theorem memoryStore_load {contents : List Statement} (h : contents.Nodup) (facts : List Fact) :
    memoryStore.load .rdf contents facts = .ok (contents ++ storeOf facts).eraseDups := by
  induction facts generalizing contents with
  | nil =>
      rw [storeOf, List.filterMap_nil, List.map_nil, List.append_nil, eraseDups_of_nodup h]
      rfl
  | cons fact facts ih =>
      rw [QueryStore.load, storeOf]
      rw [← Statement.ofFact?]
      cases hstatement : Statement.ofFact? fact with
      | none =>
          rw [List.filterMap_cons_none hstatement]
          exact ih h
      | some statement =>
          rw [List.filterMap_cons_some hstatement, List.map_cons]
          show memoryStore.load .rdf (if canonicalStatement statement ∈ contents then contents
            else contents ++ [canonicalStatement statement]) facts = _
          split
          · rename_i hknown
            rw [ih h, eraseDups_append_cons hknown]
            rfl
          · rename_i hnew
            have hnodup : (contents ++ [canonicalStatement statement]).Nodup :=
              List.nodup_append.2 ⟨h, List.nodup_singleton _, fun a ha b hb hab =>
                hnew (List.mem_singleton.1 hb ▸ hab ▸ ha)⟩
            rw [ih hnodup, List.append_assoc, List.singleton_append]
            rfl

/-- The engine of the store in memory answers from the distinct valid statements of the facts. -/
theorem memoryStore_engineFor (facts : FactSet) :
    memoryStore.engineFor .rdf facts = .ok (engineOf facts) := by
  show (memoryStore.load .rdf [] facts.toList).map engineOver = _
  rw [memoryStore_load List.nodup_nil, List.nil_append]
  rfl

/-- An audit through the store in memory. -/
theorem auditThrough_memoryStore : auditThrough (memoryStore.engineFor .rdf) = audit engineOf := by
  rw [funext memoryStore_engineFor]
  rfl

end Sparql

end PublicationAudit
