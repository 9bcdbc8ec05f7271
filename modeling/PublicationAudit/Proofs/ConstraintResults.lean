import Mathlib.Data.List.Forall2
import PublicationAudit.Proofs.MessageTemplates
import PublicationAudit.Proofs.QueryTemplates

/-!
# Results of constraints

What a constraint finds at a focus follows from the rows that its query is answered with.
`Constraint.Evaluates` says so exit by exit, with the queries that are asked on the way: most exits
ask nothing, and none asks twice. The main statement is `evaluates_iff`.
-/

namespace PublicationAudit

/-! ## Rows -/

/-- What a row says under a name: the key of the value that is bound to it, or something else where
there is none. -/
structure Row.Says (row : Row) (name : String) (fallback said : Option String) : Prop where
  bound : ∀ node, row.value? name = some node → said = some node.key
  unbound : row.value? name = none → said = fallback

/-- The violation that a row shows. Where the row does not name the focus or the path, they are
those of the query. -/
structure ShowsRow (template focus : String) (path : Option String) (row : Row)
    (violation : Violation) : Prop where
  focus : row.Says "this" (some focus) (some violation.focusNode)
  path : row.Says "path" path violation.resultPath
  value : row.Says "value" none violation.value
  message : FillsMessage row template.toList violation.message.toList

/-- A row says one thing under a name. -/
theorem Row.says_iff {row : Row} {name : String} {fallback said : Option String} :
    row.Says name fallback said ↔ said = ((row.value? name).map Node.key).or fallback := by
  cases hvalue : row.value? name with
  | none =>
      constructor
      · intro h
        exact h.unbound hvalue
      · rintro rfl
        exact ⟨fun node hnode => by simp [hvalue] at hnode, fun _ => rfl⟩
  | some node =>
      constructor
      · intro h
        exact h.bound node hvalue
      · rintro rfl
        refine ⟨fun other hother => ?_, fun hnone => by simp [hvalue] at hnone⟩
        rw [Option.some.inj (hvalue.symm.trans hother)]
        rfl

variable {template focus : String} {path : Option String}

/-- Each row shows one violation. -/
theorem showsRow_iff {row : Row} {violation : Violation} :
    ShowsRow template focus path row violation ↔
      violationOfRow template focus path row = violation := by
  have hfocus : row.Says "this" (some focus) (some violation.focusNode) ↔
      violation.focusNode = ((row.value? "this").map Node.key).getD focus := by
    rw [Row.says_iff, Option.or_some, Option.some.injEq]
  constructor
  · intro h
    obtain ⟨focusNode, resultPath, value, message⟩ := violation
    rw [violationOfRow, Violation.mk.injEq]
    refine ⟨(hfocus.1 h.focus).symm, (Row.says_iff.1 h.path).symm, ?_, ?_⟩
    · simpa using (Row.says_iff.1 h.value).symm
    · exact String.toList_inj.1 (fillsMessage_iff.1 h.message).symm
  · rintro rfl
    refine ⟨hfocus.2 rfl, Row.says_iff.2 rfl, Row.says_iff.2 ?_, fillsMessage_iff.2 rfl⟩
    rw [Option.or_none]
    rfl

/-- The violations of an answer are those of its rows, in their order. -/
theorem forall₂_showsRow_iff {rows : List Row} {found : List Violation} :
    List.Forall₂ (ShowsRow template focus path) rows found ↔
      found = rows.map (violationOfRow template focus path) := by
  rw [eq_comm, ← List.forall₂_eq_eq_eq, List.forall₂_map_left_iff]
  constructor
  · exact List.Forall₂.imp fun _ _ => showsRow_iff.1
  · exact List.Forall₂.imp fun _ _ => showsRow_iff.2

/-! ## Constraints -/

namespace Constraint

/-- The ways in which a constraint comes to its violations, with the queries that it asks. -/
inductive Evaluates (constraint : Constraint) (engine : QueryEngine) (focus : Node)
    (path : Option String) : List String → List Violation → Prop where
  | inert (hparts : constraint.select = none ∨ constraint.message = none) :
      Evaluates constraint engine focus path [] []
  | noIri (select template : String) (hselect : constraint.select = some select)
      (hmessage : constraint.message = some template) (hfocus : ∀ iri, focus ≠ .iri iri) :
      Evaluates constraint engine focus path []
        [⟨focus.key, path, none, "blank nodes are not supported here"⟩]
  | refused (select template iri reason : String) (hselect : constraint.select = some select)
      (hmessage : constraint.message = some template) (hfocus : focus = .iri iri)
      (hanswer : engine (instantiateQuery select iri path) = .error reason) :
      Evaluates constraint engine focus path [instantiateQuery select iri path] []
  | answered (select template iri : String) (rows : List Row) (found : List Violation)
      (hselect : constraint.select = some select) (hmessage : constraint.message = some template)
      (hfocus : focus = .iri iri) (hanswer : engine (instantiateQuery select iri path) = .ok rows)
      (hrows : List.Forall₂ (ShowsRow template iri path) rows found) :
      Evaluates constraint engine focus path [instantiateQuery select iri path] found

variable {constraint : Constraint} {engine : QueryEngine} {focus : Node} {path : Option String}

/-- A constraint is inert without a query or without a template. -/
theorem parts?_eq_none_iff :
    constraint.parts? = none ↔ constraint.select = none ∨ constraint.message = none := by
  obtain ⟨select, message⟩ := constraint
  cases select <;> cases message <;> simp [parts?]

/-- A constraint that is not inert has both. -/
theorem parts?_eq_some_iff {select template : String} :
    constraint.parts? = some (select, template) ↔
      constraint.select = some select ∧ constraint.message = some template := by
  obtain ⟨query, message⟩ := constraint
  cases query <;> cases message <;> simp [parts?]

/-- A constraint comes to its violations in one way, and asks its query on the way. -/
theorem Evaluates.unique {asked : List String} {found : List Violation}
    (h : constraint.Evaluates engine focus path asked found) :
    asked = (constraint.query? focus path).toList ∧
      found = constraint.violations engine focus path := by
  cases h with
  | inert hparts =>
      have hnone := parts?_eq_none_iff.2 hparts
      simp [query?, violations, hnone]
  | noIri select template hselect hmessage hfocus =>
      have hparts := parts?_eq_some_iff.2 ⟨hselect, hmessage⟩
      have hiri : focus.iri? = none := by
        cases focus with
        | iri iri => exact absurd rfl (hfocus iri)
        | blank => rfl
        | literal => rfl
      simp [query?, violations, hparts, hiri, blankFocusMessage]
  | refused select template iri reason hselect hmessage hfocus hanswer =>
      obtain rfl := hfocus
      have hparts := parts?_eq_some_iff.2 ⟨hselect, hmessage⟩
      simp [query?, violations, hparts, Node.iri?, hanswer]
  | answered select template iri rows found hselect hmessage hfocus hanswer hrows =>
      obtain rfl := hfocus
      have hparts := parts?_eq_some_iff.2 ⟨hselect, hmessage⟩
      simp [query?, violations, hparts, Node.iri?, hanswer, forall₂_showsRow_iff.1 hrows]

/-- It always comes to them. -/
theorem evaluates_violations (constraint : Constraint) (engine : QueryEngine) (focus : Node)
    (path : Option String) :
    constraint.Evaluates engine focus path (constraint.query? focus path).toList
      (constraint.violations engine focus path) := by
  have hend : ∃ asked found, constraint.Evaluates engine focus path asked found := by
    cases hparts : constraint.parts? with
    | none => exact ⟨_, _, .inert (parts?_eq_none_iff.1 hparts)⟩
    | some parts =>
        obtain ⟨hselect, hmessage⟩ := parts?_eq_some_iff.1 hparts
        by_cases hfocus : ∃ iri, focus = .iri iri
        · obtain ⟨iri, hiri⟩ := hfocus
          cases hanswer : engine (instantiateQuery parts.1 iri path) with
          | error reason => exact ⟨_, _, .refused _ _ iri reason hselect hmessage hiri hanswer⟩
          | ok rows =>
              exact ⟨_, _, .answered _ _ iri rows _ hselect hmessage hiri hanswer
                (forall₂_showsRow_iff.2 rfl)⟩
        · exact ⟨_, _, .noIri _ _ hselect hmessage (not_exists.1 hfocus)⟩
  obtain ⟨asked, found, h⟩ := hend
  obtain ⟨rfl, rfl⟩ := h.unique
  exact h

/-- The engine's answer to the query is all that a constraint takes from it. -/
theorem exists_violations_eq (constraint : Constraint) (focus : Node) (path : Option String) :
    ∃ conclude : Option (Except String (List Row)) → List Violation, ∀ engine,
      constraint.violations engine focus path =
        conclude ((constraint.query? focus path).map engine) := by
  -- The conclusion is what the constraint finds when every query has the given answer.
  refine ⟨fun answer => constraint.violations (fun _ => answer.getD (.ok [])) focus path,
    fun engine => violations_congr fun query hquery => ?_⟩
  rw [hquery]
  rfl

/-- A constraint that is inert, or whose focus is no IRI, asks nothing; every other asks one query,
and each row of the answer shows one violation. A refused query shows none. The engine tells the
constraint nothing else. The messages are the templates filled from left to right in one pass. -/
theorem evaluates_iff (constraint : Constraint) (focus : Node) (path : Option String) :
    (∀ engine asked found, constraint.Evaluates engine focus path asked found ↔
      asked = (constraint.query? focus path).toList ∧
        found = constraint.violations engine focus path) ∧
    (∃ conclude : Option (Except String (List Row)) → List Violation, ∀ engine,
      constraint.violations engine focus path =
        conclude ((constraint.query? focus path).map engine)) ∧
    ∀ template (row : Row) filled, FillsMessage row template.toList filled ↔
      filled = (renderMessage template row).toList := by
  refine ⟨fun engine asked found => ⟨Evaluates.unique, ?_⟩,
    exists_violations_eq constraint focus path, fun _ _ _ => fillsMessage_iff⟩
  rintro ⟨rfl, rfl⟩
  exact evaluates_violations constraint engine focus path

end Constraint

end PublicationAudit
