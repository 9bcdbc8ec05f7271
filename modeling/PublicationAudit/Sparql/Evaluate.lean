import PublicationAudit.QueryStore
import PublicationAudit.Sparql.Parser
import PublicationAudit.Sparql.Value

/-!
# Answering queries

A binding gives terms to variables. A group is evaluated element by element over the statements of a
store, from a list of bindings to a list of bindings; its conditions are tested at the end. Groups
inside a group are evaluated on their own and joined.
-/

namespace PublicationAudit.Sparql

open Rdf (Term Statement)

/-- Terms of variables. -/
abbrev Binding := List (String × Term)

/-- Gives a slot its term, where that agrees with the binding. -/
def Slot.assign (slot : Slot) (term : Term) (binding : Binding) : Option Binding :=
  match slot with
  | .term expected => if canonical expected = term then some binding else none
  | .var name =>
    match binding.lookup name with
    | some known => if known = term then some binding else none
    | none => some (binding ++ [(name, term)])

/-- The binding under which a pattern matches a statement. -/
def StatementPattern.matchWith (pattern : StatementPattern) (binding : Binding)
    (statement : Statement) : Option Binding :=
  (pattern.subject.assign statement.subject binding).bind fun binding =>
    (pattern.predicate.assign (.iri statement.predicate) binding).bind fun binding =>
      pattern.object.assign statement.object binding

/-- All bindings under which a pattern matches a statement of the store. -/
def StatementPattern.matchAll (pattern : StatementPattern) (store : List Statement)
    (binding : Binding) : List Binding :=
  store.filterMap (pattern.matchWith binding)

/-- Two bindings taken together, where they agree on the variables of both. -/
def Binding.join (left right : Binding) : Option Binding :=
  right.foldlM (fun binding pair => (Slot.var pair.1).assign pair.2 binding) left

/-! ## Values of expressions -/

/-- The truth of a value; none where it has none. -/
def truth? (term : Term) : Option Bool :=
  match Value.ofTerm term with
  | .truth b => some b
  | .text text => some (text != "")
  | .number d => some (!d.isZero)
  | _ => none

/-- Whether one of two conditions holds: one that does decides, whatever the other. -/
def orElse? : Option Bool → Option Bool → Option Bool
  | some true, _ => some true
  | _, some true => some true
  | some false, some false => some false
  | _, _ => none

/-- Whether both conditions hold: one that does not decides, whatever the other. -/
def andAlso? : Option Bool → Option Bool → Option Bool
  | some false, _ => some false
  | _, some false => some false
  | some true, some true => some true
  | _, _ => none

/-- The outcome of a comparison. -/
def Comparison.test? (comparison : Comparison) (a b : Term) : Option Bool :=
  match comparison with
  | .equal => equal? a b
  | .unequal => (equal? a b).map not
  | .less => (compare? a b).map (· == .lt)
  | .lessOrEqual => (compare? a b).map (· != .gt)
  | .greater => (compare? a b).map (· == .gt)
  | .greaterOrEqual => (compare? a b).map (· != .lt)

/-- The text of a literal without a datatype, and its language. -/
def plainText? : Term → Option (String × Option String)
  | .simple text => some (text, none)
  | .tagged text language => some (text, some language)
  | _ => none

/-- Whether a text contains another, which has no language or the same. -/
def contains? (text part : Term) : Option Bool :=
  match plainText? text, plainText? part with
  | some (text, language), some (part, partLanguage) =>
    if partLanguage = none ∨ partLanguage = language then
      some (Text.occursIn part.toList text.toList)
    else none
  | _, _ => none

/-- The text of a term; blank nodes have none. -/
def textOf? : Term → Option Term
  | .iri text => some (.simple text)
  | .blank _ => none
  | .simple text => some (.simple text)
  | .tagged text _ => some (.simple text)
  | .typed text _ => some (.simple text)

/-- The language of a literal, which is empty where it has none. -/
def languageOf? : Term → Option Term
  | .tagged _ language => some (.simple language)
  | .simple _ => some (.simple "")
  | .typed _ _ => some (.simple "")
  | _ => none

/-- Whether a term is of a kind. -/
def TermKind.test (kind : TermKind) (term : Term) : Bool :=
  match kind, term with
  | .iri, .iri _ => true
  | .blank, .blank _ => true
  | .literal, term => term.isLiteral
  | _, _ => false

mutual

/-- The value of an expression; none where it has none. -/
def evaluate (store : List Statement) (binding : Binding) : Expression → Option Term
  | .var name => binding.lookup name
  | .term term => some (canonical term)
  | .not condition => ((evaluate store binding condition).bind truth?).map (Term.ofBool !·)
  | .and left right =>
    (andAlso? ((evaluate store binding left).bind truth?)
      ((evaluate store binding right).bind truth?)).map Term.ofBool
  | .or left right =>
    (orElse? ((evaluate store binding left).bind truth?)
      ((evaluate store binding right).bind truth?)).map Term.ofBool
  | .compare comparison left right =>
    match evaluate store binding left, evaluate store binding right with
    | some a, some b => (comparison.test? a b).map Term.ofBool
    | _, _ => none
  | .isBound name => some (Term.ofBool (binding.lookup name).isSome)
  | .length text =>
    ((evaluate store binding text).bind plainText?).map fun text => Term.ofInt text.1.length
  | .textOf value => (evaluate store binding value).bind textOf?
  | .languageOf literal => (evaluate store binding literal).bind languageOf?
  | .contains text part =>
    match evaluate store binding text, evaluate store binding part with
    | some text, some part => (contains? text part).map Term.ofBool
    | _, _ => none
  | .isKind kind value =>
    (evaluate store binding value).map fun term => Term.ofBool (kind.test term)
  | .hasMatch group =>
    some (Term.ofBool ((extendAll store binding group [binding]).any (satisfies store group)))

/-- Whether a binding satisfies the conditions among the elements of a group. -/
def satisfies (store : List Statement) : List Element → Binding → Bool
  | [], _ => true
  | .filter condition :: rest, binding =>
    ((evaluate store binding condition).bind truth?) == some true && satisfies store rest binding
  | _ :: rest, binding => satisfies store rest binding

/-- Extends bindings by the elements of a group, conditions apart. Groups inside start from the
binding `start`. -/
def extendAll (store : List Statement) (start : Binding) :
    List Element → List Binding → List Binding
  | [], bindings => bindings
  | element :: rest, bindings =>
    extendAll store start rest (extend store start element bindings)

/-- Extends bindings by one element. -/
def extend (store : List Statement) (start : Binding) : Element → List Binding → List Binding
  | .statement pattern, bindings => bindings.flatMap (pattern.matchAll store)
  | .filter _, bindings => bindings
  | .union alternatives, bindings =>
    let found := alternativeMatches store start alternatives
    bindings.flatMap fun binding => found.filterMap (Binding.join binding)
  | .optional group, bindings =>
    let found := extendAll store start group [start]
    bindings.flatMap fun binding =>
      let joined := (found.filterMap (Binding.join binding)).filter (satisfies store group)
      if joined.isEmpty then [binding] else joined

/-- The bindings of all alternatives, one after the other. -/
def alternativeMatches (store : List Statement) (start : Binding) :
    List (List Element) → List Binding
  | [] => []
  | group :: rest =>
    (extendAll store start group [start]).filter (satisfies store group) ++
      alternativeMatches store start rest

end

/-- The bindings of a whole pattern. -/
def solutions (store : List Statement) (pattern : Group) : List Binding :=
  (extendAll store [] pattern [[]]).filter (satisfies store pattern)

/-! ## From bindings to rows -/

/-- The order of two bindings by the values to order by, the first of which counts most. -/
def compareBindings (store : List Statement) (keys : List OrderKey) (a b : Binding) : Ordering :=
  keys.foldr
    (fun key rest =>
      let order := orderTerms (evaluate store a key.value) (evaluate store b key.value)
      (if key.descends then order.swap else order).then rest)
    .eq

/-- A binding of the selected variables only. -/
def project (names : List String) (binding : Binding) : Binding :=
  names.filterMap fun name => (binding.lookup name).map fun term => (name, term)

/-- How many bindings there are, or in how many the variable is bound. -/
def countBindings (distinct : Bool) (counted : Option String) (bindings : List Binding) : Nat :=
  let values := bindings.filterMap fun binding =>
    match counted with
    | none => some binding
    | some name => (binding.lookup name).map fun term => [(name, term)]
  (if distinct then values.eraseDups else values).length

/-- The selected part of bindings in order. -/
def Selection.apply (selection : Selection) (pattern : Group) (bindings : List Binding) :
    List Binding :=
  match selection with
  | .everything => bindings.map (project (Parse.visibleNames pattern).eraseDups)
  | .named names => bindings.map (project names.eraseDups)
  | .count distinct counted name =>
    [[(name, Term.ofInt (countBindings distinct counted bindings))]]

/-- The rows of a selection. -/
def SelectQuery.rows (store : List Statement) (query : SelectQuery) : List Binding :=
  let ordered := (solutions store query.pattern).mergeSort fun a b =>
    compareBindings store query.order a b != .gt
  let selected := query.selection.apply query.pattern ordered
  let distinct := if query.distinct then selected.eraseDups else selected
  let remaining := distinct.drop query.offset
  match query.limit with
  | some limit => remaining.take limit
  | none => remaining

/-- The rows of a query. Queries that select nothing have none. -/
def Query.rows (store : List Statement) : Query → List Binding
  | .select query => query.rows store
  | .other _ => []

/-- The query engine over the statements of a store. -/
def engineOver (store : List Statement) : QueryEngine := fun text =>
  (Query.read text).map fun query =>
    (query.rows store).map fun binding => binding.map fun pair => (pair.1, pair.2.toNode)

/-- A statement in the form in which it is stored. -/
def canonicalStatement (statement : Statement) : Statement :=
  { statement with object := canonical statement.object }

/-- The store in memory. It keeps each statement once and refuses none. -/
def memoryStore : QueryStore (List Statement) where
  create := .ok []
  insert contents statement :=
    .ok (if canonicalStatement statement ∈ contents then contents
      else contents ++ [canonicalStatement statement])
  engine := engineOver

/-- The statements that facts put into a store, in their canonical form. Facts that are not valid
are left out. -/
def storeOf (facts : List Fact) : List Statement :=
  (facts.filterMap Statement.ofFact?).map canonicalStatement

/-- The query engine over a set of facts. -/
def engineOf (facts : FactSet) : QueryEngine := engineOver (storeOf facts.toList).eraseDups

end PublicationAudit.Sparql
