import Mathlib.Data.Set.Function
import PublicationAudit.Rdf.Term

/-!
# From nodes to terms and back

Facts become statements when a query store is loaded, and what a query finds comes back as nodes.
Under any rules about which text is valid, a node that goes there and back comes back in normal form
(`roundTrip?_eq`). Nothing else is lost, so facts in normal form keep apart in the store. The main
statement is `conversion_normalises`; under the rules of RDF it is about `Term.ofNode?` and
`Statement.ofFact?`.
-/

namespace PublicationAudit

/-- Lower case stays as it is. -/
theorem Text.lowerAscii_lowerAscii (s : String) :
    Text.lowerAscii (Text.lowerAscii s) = Text.lowerAscii s := by
  simp only [Text.lowerAscii, String.toList_ofList, List.map_map]
  congr 2
  funext c
  -- No capital is left to be changed.
  have hcapital : ¬ (c.toLower.val ≥ 'A'.val ∧ c.toLower.val ≤ 'Z'.val) := by
    unfold Char.toLower
    split <;> grind
  exact dif_neg hcapital

/-! ## Normal form -/

/-- A datatype that is not written: text without a language has the one, text with a language the
other. -/
def IsImpliedDatatype (datatype : String) : Prop :=
  datatype = Vocabulary.xsd "string" ∨ datatype = Vocabulary.rdfLangString

instance (datatype : String) : Decidable (IsImpliedDatatype datatype) :=
  inferInstanceAs (Decidable (_ ∨ _))

namespace Node

/-- The normal form of a node. A literal with a language has it in lower case and has no datatype; a
literal without one has no implied datatype. -/
def normalForm : Node → Node
  | iri text => iri text
  | blank label => blank label
  | literal text _ (some language) => literal text none (some (Text.lowerAscii language))
  | literal text (some datatype) none =>
    if IsImpliedDatatype datatype then plain text else literal text (some datatype) none
  | literal text none none => plain text

/-- Normal forms are in normal form. -/
theorem normalForm_normalForm (node : Node) : node.normalForm.normalForm = node.normalForm := by
  fun_cases normalForm node with
  | case1 text => rfl
  | case2 label => rfl
  | case3 text datatype language => rw [normalForm, Text.lowerAscii_lowerAscii]
  | case4 text datatype himplied => rfl
  | case5 text datatype hwritten => rw [normalForm, if_neg hwritten]
  | case6 text => rfl

/-- A literal stays one, and no other node becomes one. -/
theorem isLiteral_normalForm (node : Node) : node.normalForm.isLiteral = node.isLiteral := by
  fun_cases normalForm node <;> rfl

end Node

/-- The normal form of a fact. -/
def Fact.normalForm (fact : Fact) : Fact :=
  ⟨fact.subject.normalForm, fact.predicate, fact.object.normalForm⟩

namespace Rdf

namespace TermRules

/-- Whether rules take the IRIs, the label and the language tag of a node. The datatype of a literal
with a language is not looked at. -/
def takes (rules : TermRules) : Node → Bool
  | .iri text => rules.takesIri text
  | .blank label => rules.takesLabel label
  | .literal _ _ (some language) => rules.takesTag (Text.lowerAscii language)
  | .literal _ (some datatype) none => rules.takesIri datatype
  | .literal _ none none => true

/-- Whether rules take a fact. Its subject is no literal. -/
def takesFact (rules : TermRules) (fact : Fact) : Bool :=
  rules.takes fact.subject && rules.takes fact.object && !fact.subject.isLiteral &&
    rules.takesIri fact.predicate

/-- Rules that take a node take its normal form. -/
theorem takes_normalForm {rules : TermRules} {node : Node} (h : rules.takes node = true) :
    rules.takes node.normalForm = true := by
  fun_cases Node.normalForm node with
  | case1 text => exact h
  | case2 label => exact h
  | case3 text datatype language => rwa [takes, Text.lowerAscii_lowerAscii]
  | case4 text datatype himplied => rfl
  | case5 text datatype hwritten => exact h
  | case6 text => rfl

end TermRules

/-! ## Terms -/

namespace Term

variable {rules : TermRules} {node : Node} {term : Term}

/-- The node that is read from the term of a node. -/
def roundTrip? (rules : TermRules) (node : Node) : Option Node :=
  (ofNodeUnder? rules node).map toNode

/-- The language of a term. -/
def language? : Term → Option String
  | tagged _ language => some language
  | _ => none

/-- A typed literal is read in normal form. -/
theorem toNode_ofTyped (text datatype : String) :
    (ofTyped text datatype).toNode = (Node.literal text (some datatype) none).normalForm := by
  rw [ofTyped]
  split
  case isTrue hstring => rw [Node.normalForm, if_pos (.inl hstring)]; rfl
  case isFalse => rfl

/-- A node has a term where the rules take it, and comes back in normal form. -/
theorem roundTrip?_eq (rules : TermRules) (node : Node) :
    roundTrip? rules node = if rules.takes node then some node.normalForm else none := by
  fun_cases TermRules.takes rules node with
  | case1 text =>
      rw [roundTrip?, ofNodeUnder?, apply_ite (Option.map toNode)]
      rfl
  | case2 label =>
      rw [roundTrip?, ofNodeUnder?, apply_ite (Option.map toNode)]
      rfl
  | case3 text datatype language =>
      rw [roundTrip?, ofNodeUnder?, ofTaggedUnder?, apply_ite (Option.map toNode)]
      rfl
  | case4 text datatype =>
      rw [roundTrip?, ofNodeUnder?, apply_ite (Option.map toNode), Option.map_some,
        toNode_ofTyped]
      rfl
  | case5 text => rfl

/-- A node has no term where the rules do not take it. -/
theorem ofNodeUnder?_eq_none_iff :
    ofNodeUnder? rules node = none ↔ rules.takes node = false := by
  rw [← Option.map_eq_none_iff (f := toNode), ← roundTrip?, roundTrip?_eq]
  cases rules.takes node <;> simp

/-- A second round trip changes nothing. -/
theorem roundTrip?_bind (rules : TermRules) (node : Node) :
    (roundTrip? rules node).bind (roundTrip? rules) = roundTrip? rules node := by
  rw [roundTrip?_eq]
  split
  case isFalse => rfl
  case isTrue htakes =>
    rw [Option.bind_some, roundTrip?_eq, if_pos (TermRules.takes_normalForm htakes),
      node.normalForm_normalForm]

/-- What is read from a term is in normal form where its language is in lower case. -/
theorem normalForm_toNode_iff :
    term.toNode.normalForm = term.toNode ↔
      ∀ language ∈ term.language?, Text.lowerAscii language = language := by
  cases term with
  | iri text => simp [toNode, language?, Node.normalForm]
  | blank label => simp [toNode, language?, Node.normalForm]
  | simple text => simp [toNode, language?, Node.normalForm, Node.plain]
  | tagged text language => simp [toNode, language?, Node.normalForm]
  | typed text datatype =>
      have hread : (typed text datatype).toNode =
          (Node.literal text (some datatype) none).normalForm := rfl
      simp [hread, Node.normalForm_normalForm, language?]

/-- Such a node comes back as it is, and no other that is read from a term does. -/
theorem roundTrip?_toNode_iff :
    roundTrip? rules term.toNode = some term.toNode ↔
      rules.takes term.toNode = true ∧
        ∀ language ∈ term.language?, Text.lowerAscii language = language := by
  rw [← normalForm_toNode_iff, roundTrip?_eq]
  cases rules.takes term.toNode <;> simp

/-- What is read from a term is a literal where the term is one. -/
theorem isLiteral_toNode (term : Term) : term.toNode.isLiteral = term.isLiteral := by
  fun_cases toNode term <;> rfl

/-- The term of a node is read in normal form, and is a literal where the node is one. -/
theorem of_ofNodeUnder? (h : ofNodeUnder? rules node = some term) :
    rules.takes node = true ∧ term.toNode = node.normalForm ∧
      term.isLiteral = node.isLiteral := by
  have hround := roundTrip?_eq rules node
  rw [roundTrip?, h, Option.map_some] at hround
  split at hround
  case isFalse => cases hround
  case isTrue htakes =>
    have hnode := Option.some.inj hround
    exact ⟨htakes, hnode, by rw [← isLiteral_toNode, hnode, Node.isLiteral_normalForm]⟩

end Term

/-! ## Statements -/

namespace Statement

/-- A fact has a statement where the rules take it, and is read from it in normal form. -/
theorem map_toFact_ofFactUnder? (rules : TermRules) (fact : Fact) :
    (ofFactUnder? rules fact).map toFact =
      if rules.takesFact fact then some fact.normalForm else none := by
  rw [ofFactUnder?, TermRules.takesFact]
  cases hsubject : Term.ofNodeUnder? rules fact.subject with
  | none => simp [Term.ofNodeUnder?_eq_none_iff.1 hsubject]
  | some subject =>
      cases hobject : Term.ofNodeUnder? rules fact.object with
      | none => simp [Term.ofNodeUnder?_eq_none_iff.1 hobject]
      | some object =>
          obtain ⟨hsubjectTakes, hsubjectBack, hliteral⟩ := Term.of_ofNodeUnder? hsubject
          obtain ⟨hobjectTakes, hobjectBack, -⟩ := Term.of_ofNodeUnder? hobject
          simp only [Option.bind_eq_bind, Option.bind_some, hsubjectTakes, hobjectTakes, hliteral,
            Bool.true_and]
          cases fact.subject.isLiteral <;> cases rules.takesIri fact.predicate <;>
            simp [toFact, Fact.normalForm, hsubjectBack, hobjectBack]

/-- Facts in normal form keep apart. -/
theorem ofFactUnder?_injOn (rules : TermRules) :
    Set.InjOn (ofFactUnder? rules) {fact | fact.normalForm = fact ∧ rules.takesFact fact} := by
  rintro fact ⟨hnormal, htakes⟩ other ⟨hotherNormal, hotherTakes⟩ heq
  have hback := map_toFact_ofFactUnder? rules fact
  have hotherBack := map_toFact_ofFactUnder? rules other
  rw [if_pos htakes, heq] at hback
  rw [if_pos hotherTakes, hback] at hotherBack
  rw [← hnormal, ← hotherNormal, Option.some.inj hotherBack]

end Statement

/-- Under any rules, a node that they take is read from its term in normal form, and every other
node has no term. So a second round trip changes nothing, a node that was read from a term is read
from its own term unchanged exactly when the rules take it and its language is in lower case, and
facts are read from their statements in normal form, so that no two of them that are in normal form
have the same statement. -/
theorem conversion_normalises (rules : TermRules) :
    (∀ node, Term.roundTrip? rules node =
      if rules.takes node then some node.normalForm else none) ∧
    (∀ node, (Term.roundTrip? rules node).bind (Term.roundTrip? rules) =
      Term.roundTrip? rules node) ∧
    (∀ term : Term, Term.roundTrip? rules term.toNode = some term.toNode ↔
      rules.takes term.toNode = true ∧
        ∀ language ∈ term.language?, Text.lowerAscii language = language) ∧
    (∀ fact, (Statement.ofFactUnder? rules fact).map Statement.toFact =
      if rules.takesFact fact then some fact.normalForm else none) ∧
    Set.InjOn (Statement.ofFactUnder? rules)
      {fact | fact.normalForm = fact ∧ rules.takesFact fact} :=
  ⟨Term.roundTrip?_eq rules, Term.roundTrip?_bind rules, fun _ => Term.roundTrip?_toNode_iff,
    Statement.map_toFact_ofFactUnder? rules, Statement.ofFactUnder?_injOn rules⟩

example : (Term.ofNode? (.literal "raad" (some "urn:t") (some "NL-be"))).map Term.toNode =
    some (.literal "raad" none (some "nl-be")) := by decide

end Rdf

end PublicationAudit
