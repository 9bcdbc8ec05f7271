import PublicationAudit.Rdf.Namespaces

/-!
# Reading Turtle and TriG

The reader takes one token after another. Between tokens it keeps a stack of goals, each of which
says what may come next at one level of nesting; a goal either takes the token, and other goals
replace it, or it ends and hands the token down the stack. Without goals a statement may start.

Facts are delivered token by token. Those that one token completes come newest first, so that the
contents of a bracket stand behind the fact that the bracket itself completes.
-/

namespace PublicationAudit.Rdf.Turtle

/-- What directives have set so far, and how anonymous nodes are labelled. -/
structure Context where
  names : Namespaces := {}
  /-- Whether facts may stand in graphs. -/
  hasGraphs : Bool
  /-- What the label of every anonymous node starts with. -/
  stem : String
  anonymousCount : Nat := 0

/-- Where an object goes: it completes the fact with this subject and predicate. -/
structure Slot where
  subject : Term
  predicate : String
  deriving DecidableEq, Repr

/-- The fact that an object completes. -/
def Slot.fill (slot : Slot) (object : Term) : Statement := ⟨slot.subject, slot.predicate, object⟩

/-- What may come next at one level of nesting. -/
inductive Goal where
  /-- A period. -/
  | period
  | prefixName
  | prefixIri (pre : String)
  | baseIri
  /-- The name of a graph, after its keyword. -/
  | graphName
  | graphNameBracket
  | openGraph
  /-- A statement in a graph, or the end of the graph. -/
  | graphItem
  /-- After a statement in a graph. -/
  | graphEnd
  /-- A predicate, or the graph that the term names. -/
  | graphOrPredicate (subject : Term)
  /-- After the bracket that starts a statement; outside of graphs it may be a graph's name. -/
  | subjectBracket (namesGraph : Bool)
  | subjectBracketEnd (subject : Term)
  /-- After a subject with contents of its own. -/
  | optionalPredicate (subject : Term)
  | subjectListStart
  | subjectListNext (root cell : Term)
  | predicate (subject : Term)
  /-- After a list of objects. -/
  | predicateEnd (subject : Term)
  /-- After a semicolon. -/
  | predicateOrEnd (subject : Term)
  | object (slot : Slot)
  /-- After an object. -/
  | objectEnd (slot : Slot)
  /-- After the quoted text of a literal. -/
  | literalEnd (slot : Slot) (text : String)
  | datatype (slot : Slot) (text : String)
  | bracket (slot : Slot)
  | bracketEnd (slot : Slot) (node : Term)
  | listStart (slot : Slot)
  | listNext (cell : Term)
  deriving DecidableEq, Repr

/-- What a token brings about: the goals in place of the one that took it, and the facts that it
completes, oldest first. -/
structure Outcome where
  goals : List Goal
  facts : List Statement := []
  context : Context

/-- A goal's answer to a token. -/
inductive Answer where
  | takes (outcome : Outcome)
  /-- The goal is reached without the token. -/
  | ends (facts : List Statement)

/-- The label of an anonymous node. -/
def Context.anonymousLabel (ctx : Context) : String := ctx.stem ++ toString ctx.anonymousCount

/-- A new anonymous node. -/
def Context.anonymous (ctx : Context) : Term × Context :=
  (.blank ctx.anonymousLabel, { ctx with anonymousCount := ctx.anonymousCount + 1 })

/-- Takes a token as an object. -/
def takeObject (token : Token) (ctx : Context) (slot : Slot) : Except String Outcome := do
  match token with
  | .text _ value => return { goals := [.literalEnd slot value], context := ctx }
  | .mark '[' => return { goals := [.bracket slot], context := ctx }
  | .mark '(' => return { goals := [.listStart slot], context := ctx }
  | token =>
    match token.literal?, ← ctx.names.resource? token with
    | some literal, _ => return { goals := [], facts := [slot.fill literal], context := ctx }
    | none, some term => return { goals := [], facts := [slot.fill term], context := ctx }
    | none, none => throw "an object is expected"

/-- Takes a token as a predicate. -/
def takePredicate (token : Token) (ctx : Context) (subject : Term) : Except String Outcome := do
  let predicate ←
    if token = .word "a" then pure Vocabulary.rdfType else ctx.names.iri token "a predicate"
  let slot : Slot := ⟨subject, predicate⟩
  return { goals := [.object slot, .objectEnd slot, .predicateEnd subject], context := ctx }

/-- Takes the first token of a list whose cells start at a new node; the goal that follows is made
from the first cell. -/
def takeFirstItem (token : Token) (ctx : Context) (next : Term → Goal) :
    Except String (Term × Outcome) := do
  let (root, ctx) := ctx.anonymous
  let item ← takeObject token ctx ⟨root, Vocabulary.rdfFirst⟩
  return (root, { item with goals := item.goals ++ [next root] })

/-- Takes the first token of a further item of a list. -/
def takeNextItem (token : Token) (ctx : Context) (cell : Term) (next : Term → Goal) :
    Except String Outcome := do
  let (root, item) ← takeFirstItem token ctx next
  return { item with facts := ⟨cell, Vocabulary.rdfRest, root⟩ :: item.facts }

/-- The fact that closes a list. -/
def listClose (cell : Term) : Statement := ⟨cell, Vocabulary.rdfRest, .iri Vocabulary.rdfNil⟩

/-- Takes a token as the start of a statement outside of directives and graphs. -/
def takeSubject (token : Token) (ctx : Context) (inGraph : Bool) : Except String (List Goal) := do
  match token with
  | .mark '[' => return [.subjectBracket (!inGraph)]
  | .mark '(' => return .subjectListStart :: (if inGraph then [] else [.period])
  | token =>
    match ← ctx.names.resource? token with
    | some subject => return [if inGraph then .predicate subject else .graphOrPredicate subject]
    | none => throw "a subject is expected"

/-- Takes the first token of a statement. -/
def takeStatement (token : Token) (ctx : Context) : Except String Outcome := do
  let goals ← match token with
    | .tag "prefix" => pure [.prefixName, .period]
    | .tag "base" => pure [.baseIri, .period]
    | .word w =>
      match Text.lowerAscii w, ctx.hasGraphs with
      | "prefix", _ => pure [Goal.prefixName]
      | "base", _ => pure [Goal.baseIri]
      | "graph", true => pure [Goal.graphName]
      | _, _ => throw "a statement is expected"
    | .mark '\x7b' => if ctx.hasGraphs then pure [.graphItem] else throw "a graph is not allowed"
    | token => takeSubject token ctx false
  return { goals := goals, context := ctx }

/-- A statement whose subject is there: what comes next is a predicate, and a period in the end. -/
def statementOf (token : Token) (ctx : Context) (subject : Term) : Except String Outcome := do
  let outcome ← takePredicate token ctx subject
  return { outcome with goals := outcome.goals ++ [.period] }

/-- What a goal answers to a token. -/
def Goal.answer (token : Token) (ctx : Context) : Goal → Except String Answer
  | .period =>
    if token = .mark '.' then takes []
    else throw "a period is expected"
  | .prefixName =>
    match token with
    | .name pre "" => takes [.prefixIri pre]
    | _ => throw "a prefix is expected"
  | .prefixIri pre => do
    let iri ← ctx.names.declaredIri token
    return .takes { goals := [], context := { ctx with names := ctx.names.declare pre iri } }
  | .baseIri => do
    let iri ← ctx.names.declaredIri token
    return .takes { goals := [], context := { ctx with names := ctx.names.rebase iri } }
  | .graphName => do
    match token with
    | .mark '[' => takes [.graphNameBracket]
    | token =>
      match ← ctx.names.resource? token with
      | some _ => takes [.openGraph]
      | none => throw "the name of a graph is expected"
  | .graphNameBracket =>
    if token = .mark ']' then takes [.openGraph] else throw "a closing bracket is expected"
  | .openGraph =>
    if token = .mark '\x7b' then takes [.graphItem] else throw "an opening brace is expected"
  | .graphItem => do
    if token = .mark '\x7d' then takes []
    else return .takes { goals := (← takeSubject token ctx true) ++ [.graphEnd], context := ctx }
  | .graphEnd =>
    match token with
    | .mark '.' => takes [.graphItem]
    | .mark '\x7d' => takes []
    | _ => throw "a period or a closing brace is expected"
  | .graphOrPredicate subject =>
    if token = .mark '\x7b' ∧ ctx.hasGraphs = true then takes [.graphItem]
    else .takes <$> statementOf token ctx subject
  | .subjectBracket namesGraph => do
    let (node, ctx) := ctx.anonymous
    if token = .mark ']' then
      return .takes
        { goals := [if namesGraph then .graphOrPredicate node else .predicate node]
          context := ctx }
    else
      let contents ← takePredicate token ctx node
      return .takes { contents with
        goals :=
          contents.goals ++ .subjectBracketEnd node :: (if namesGraph then [.period] else []) }
  | .subjectBracketEnd subject =>
    if token = .mark ']' then takes [.optionalPredicate subject]
    else throw "a closing bracket is expected"
  | .optionalPredicate subject =>
    match token with
    | .mark '.' => return .ends []
    | .mark '\x7d' => return .ends []
    | token => .takes <$> takePredicate token ctx subject
  | .subjectListStart => do
    if token = .mark ')' then takes [.predicate (.iri Vocabulary.rdfNil)]
    else return .takes (← takeFirstItem token ctx fun root => .subjectListNext root root).2
  | .subjectListNext root cell =>
    if token = .mark ')' then
      return .takes { goals := [.predicate root], facts := [listClose cell], context := ctx }
    else .takes <$> takeNextItem token ctx cell (.subjectListNext root)
  | .predicate subject => .takes <$> takePredicate token ctx subject
  | .predicateEnd subject =>
    if token = .mark ';' then takes [.predicateOrEnd subject] else return .ends []
  | .predicateOrEnd subject =>
    match token with
    | .mark ';' => takes [.predicateOrEnd subject]
    | .mark '.' => return .ends []
    | .mark ']' => return .ends []
    | .mark '\x7d' => return .ends []
    | token => .takes <$> takePredicate token ctx subject
  | .object slot => .takes <$> takeObject token ctx slot
  | .objectEnd slot =>
    if token = .mark ',' then takes [.object slot, .objectEnd slot] else return .ends []
  | .literalEnd slot text =>
    match token with
    | .tag language =>
      match Term.ofTagged? text language with
      | some literal => completes [slot.fill literal]
      | none => throw "a language tag is expected"
    | .typeMark => takes [.datatype slot text]
    | _ => return .ends [slot.fill (.simple text)]
  | .datatype slot text => do
    completes [slot.fill (.ofTyped text (← ctx.names.iri token "a datatype"))]
  | .bracket slot => do
    let (node, ctx) := ctx.anonymous
    if token = .mark ']' then
      return .takes { goals := [], facts := [slot.fill node], context := ctx }
    else
      let contents ← takePredicate token ctx node
      return .takes { contents with goals := contents.goals ++ [.bracketEnd slot node] }
  | .bracketEnd slot node =>
    if token = .mark ']' then completes [slot.fill node]
    else throw "a closing bracket is expected"
  | .listStart slot => do
    if token = .mark ')' then completes [slot.fill (.iri Vocabulary.rdfNil)]
    else
      let (root, item) ← takeFirstItem token ctx .listNext
      return .takes { item with facts := slot.fill root :: item.facts }
  | .listNext cell =>
    if token = .mark ')' then completes [listClose cell]
    else .takes <$> takeNextItem token ctx cell .listNext
where
  takes (goals : List Goal) : Except String Answer := return .takes { goals, context := ctx }
  completes (facts : List Statement) : Except String Answer :=
    return .takes { goals := [], facts, context := ctx }

/-- Feeds a token to a stack of goals: it goes down the stack until a goal takes it. -/
def feed (token : Token) (ctx : Context) : List Goal → Except String Outcome
  | [] => takeStatement token ctx
  | goal :: rest => do
    match ← goal.answer token ctx with
    | .takes outcome => return { outcome with goals := outcome.goals ++ rest }
    | .ends facts =>
      let outcome ← feed token ctx rest
      return { outcome with facts := facts ++ outcome.facts }

/-- Reads tokens from a state in between. The text ends where a statement may start. -/
def readFrom (ctx : Context) (goals : List Goal) : List Token → Except String (List Statement)
  | [] => if goals.isEmpty then .ok [] else .error "the text ends too early"
  | token :: tokens => do
    let outcome ← feed token ctx goals
    let rest ← readFrom outcome.context outcome.goals tokens
    return outcome.facts.reverse ++ rest

/-- The length of the longest label among tokens. -/
def longestLabel (tokens : List Token) : Nat :=
  tokens.foldl (fun n token => match token with | .label text => max n text.length | _ => n) 0

/-- A start for the labels of anonymous nodes that makes them longer than every label in the
text, and so different from it. -/
def anonymousStem (scope : String) (tokens : List Token) : String :=
  scope ++ String.ofList (List.replicate (longestLabel tokens) '-')

/-- Reads a text. The labels of anonymous nodes start with the scope. -/
def read (hasGraphs : Bool) (base : Option Reference) (scope : String) (text : String) :
    Except String (List Statement) :=
  match tokens? text.toList with
  | none => .error "a token is malformed"
  | some tokens =>
    readFrom
      { names := { base }, hasGraphs := hasGraphs, stem := anonymousStem scope tokens } [] tokens

end PublicationAudit.Rdf.Turtle
