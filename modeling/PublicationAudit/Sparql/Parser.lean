import PublicationAudit.Rdf.Namespaces
import PublicationAudit.Sparql.Query
import PublicationAudit.Sparql.Token

/-!
# Reading queries

A query is read token by token, each construct by the function that bears its name. Constructs nest,
so the functions take a bound on how deep they may go; a bound of eight for each token is never
reached, since every construct between two tokens takes fewer steps.
-/

namespace PublicationAudit.Sparql

open Rdf (Namespaces)

/-- Reads a part of a query from the tokens left. -/
abbrev Parse := StateT (List Token) (Except String)

namespace Parse

/-- The next token, which stays. -/
def peek : Parse (Option Token) := do return (← get).head?

/-- Takes the next token. -/
def next : Parse Token := do
  match ← get with
  | [] => throw "the query ends too early"
  | token :: rest => set rest; return token

/-- Takes the next token if it is the given one. -/
def accept (token : Token) : Parse Bool := do
  if (← peek) = some token then
    let _ ← next
    return true
  else return false

/-- A mark of punctuation. -/
def mark (c : Char) : Token := .shared (.mark c)

/-- Takes the next token, which has to be the given one. -/
def expect (token : Token) : Parse Unit := do
  unless ← accept token do throw "another token is expected"

/-- The next token as a keyword in lower case. -/
def peekWord : Parse (Option String) := do
  match ← peek with
  | some (.shared (.word text)) => return some (Text.lowerAscii text)
  | _ => return none

/-- Takes the next token if it is the keyword, in either case. -/
def acceptWord (word : String) : Parse Bool := do
  if (← peekWord) = some word then
    let _ ← next
    return true
  else return false

/-- Takes the keyword that has to come. -/
def expectWord (word : String) : Parse Unit := do
  unless ← acceptWord word do throw (word ++ " is expected")

/-- The IRI that a token stands for. -/
def iri? (names : Namespaces) : Token → Parse (Option String)
  | .shared token => names.iri? token
  | _ => return none

/-! ## Terms -/

/-- What follows the text of a literal: a language, a datatype or nothing. -/
def literalEnd (names : Namespaces) (text : String) : Parse Rdf.Term := do
  match ← peek with
  | some (.shared (.tag language)) =>
    let _ ← next
    match Rdf.Term.ofTagged? text language with
    | some term => return term
    | none => throw "a language tag is expected"
  | some (.shared .typeMark) =>
    let _ ← next
    match ← iri? names (← next) with
    | some datatype => return .ofTyped text datatype
    | none => throw "a datatype is expected"
  | _ => return .simple text

/-- A literal or an IRI that starts with the token; none where no term does. -/
def term? (names : Namespaces) (token : Token) : Parse (Option Rdf.Term) := do
  match token with
  | .shared (.text _ text) => some <$> literalEnd names text
  | .shared shared =>
    match shared.literal? with
    | some literal => return some literal
    | none => return (← names.iri? shared).map .iri
  | _ => return none

/-- Whether a token starts a literal or an IRI. -/
def startsTerm : Token → Bool
  | .shared (.text _ _) => true
  | .shared (.reference _) => true
  | .shared (.name _ _) => true
  | .shared token => token.literal?.isSome
  | _ => false

/-- A position of a statement pattern. -/
def slot (names : Namespaces) : Parse Slot := do
  match ← next with
  | .var name => return .var name
  | .shared (.label text) => return .var ("_:" ++ text)
  | .shared (.mark '[') =>
    expect (mark ']')
    return .var ("_:[" ++ toString (← get).length)
  | token =>
    match ← term? names token with
    | some term => return .term term
    | none => throw "a term is expected"

/-- The predicate of a statement pattern. -/
def predicate (names : Namespaces) : Parse Slot := do
  match ← next with
  | .var name => return .var name
  | .shared (.word "a") => return .term (.iri Vocabulary.rdfType)
  | token =>
    match ← iri? names token with
    | some iri => return .term (.iri iri)
    | none => throw "a predicate is expected"

/-! ## Statement patterns -/

/-- Objects between commas. -/
def objects (names : Namespaces) (subject predicate : Slot) : Nat → Parse (List StatementPattern)
  | 0 => throw "nested too deep"
  | bound + 1 => do
    let object ← slot names
    let pattern : StatementPattern := ⟨subject, predicate, object⟩
    if ← accept (mark ',') then return pattern :: (← objects names subject predicate bound)
    else return [pattern]

/-- Whether the next token can start a predicate. -/
def startsPredicate : Parse Bool := do
  match ← peek with
  | some (.var _) => return true
  | some (.shared (.reference _)) => return true
  | some (.shared (.name _ _)) => return true
  | some (.shared (.word "a")) => return true
  | _ => return false

/-- Predicates with their objects between semicolons. -/
def predicates (names : Namespaces) (subject : Slot) : Nat → Parse (List StatementPattern)
  | 0 => throw "nested too deep"
  | bound + 1 => do
    let first ← objects names subject (← predicate names) bound
    return first ++ (← more bound)
where
  more : Nat → Parse (List StatementPattern)
    | 0 => throw "nested too deep"
    | bound + 1 => do
      if ← accept (mark ';') then
        if ← startsPredicate then
          let patterns ← objects names subject (← predicate names) bound
          return patterns ++ (← more bound)
        else more bound
      else return []

/-! ## Conditions and groups -/

/-- The comparison that a token stands for. -/
def comparison? : Token → Option Comparison
  | .operator "=" => some .equal
  | .operator "!=" => some .unequal
  | .operator "<" => some .less
  | .operator "<=" => some .lessOrEqual
  | .operator ">" => some .greater
  | .operator ">=" => some .greaterOrEqual
  | _ => none

/-- The functions of one value, by their names in lower case. -/
def unaryFunction? : String → Option (Expression → Expression)
  | "strlen" => some .length
  | "str" => some .textOf
  | "lang" => some .languageOf
  | "isiri" => some (.isKind .iri)
  | "isuri" => some (.isKind .iri)
  | "isblank" => some (.isKind .blank)
  | "isliteral" => some (.isKind .literal)
  | _ => none

mutual

/-- Conditions of which one has to hold. -/
def disjunction (names : Namespaces) : Nat → Parse Expression
  | 0 => throw "nested too deep"
  | bound + 1 => do
    let left ← conjunction names bound
    if ← accept (.operator "||") then return .or left (← disjunction names bound) else return left

/-- Conditions that have to hold together. -/
def conjunction (names : Namespaces) : Nat → Parse Expression
  | 0 => throw "nested too deep"
  | bound + 1 => do
    let left ← relation names bound
    if ← accept (.operator "&&") then return .and left (← conjunction names bound) else return left

/-- A value, or two values compared. -/
def relation (names : Namespaces) : Nat → Parse Expression
  | 0 => throw "nested too deep"
  | bound + 1 => do
    let left ← unary names bound
    match (← peek).bind comparison? with
    | some comparison =>
      let _ ← next
      return .compare comparison left (← unary names bound)
    | none => return left

/-- A value or a denied condition. -/
def unary (names : Namespaces) : Nat → Parse Expression
  | 0 => throw "nested too deep"
  | bound + 1 => do
    if ← accept (.operator "!") then return .not (← unary names bound)
    match ← peek with
    | some (.var name) =>
      let _ ← next
      return .var name
    | some (.shared (.mark '(')) => bracketed names bound
    | some token =>
      if startsTerm token then
        match ← term? names (← next) with
        | some term => return .term term
        | none => throw "a value is expected"
      else call names bound
    | none => throw "a value is expected"

/-- A condition in brackets. -/
def bracketed (names : Namespaces) : Nat → Parse Expression
  | 0 => throw "nested too deep"
  | bound + 1 => do
    expect (mark '(')
    let inner ← disjunction names bound
    expect (mark ')')
    return inner

/-- The call of a function, or a test for matches of a group. -/
def call (names : Namespaces) : Nat → Parse Expression
  | 0 => throw "nested too deep"
  | bound + 1 => do
    if ← acceptWord "not" then
      expectWord "exists"
      return .not (.hasMatch (← group names bound))
    else if ← acceptWord "exists" then
      return .hasMatch (← group names bound)
    else if ← acceptWord "bound" then
      expect (mark '(')
      match ← next with
      | .var name =>
        expect (mark ')')
        return .isBound name
      | _ => throw "a variable is expected"
    else if ← acceptWord "contains" then
      expect (mark '(')
      let text ← disjunction names bound
      expect (mark ',')
      let part ← disjunction names bound
      expect (mark ')')
      return .contains text part
    else
      match (← peekWord).bind unaryFunction? with
      | some function =>
        let _ ← next
        return function (← bracketed names bound)
      | none => throw "a function is expected"

/-- A group between braces. -/
def group (names : Namespaces) : Nat → Parse (List Element)
  | 0 => throw "nested too deep"
  | bound + 1 => do
    expect (mark '\x7b')
    let inner ← elements names bound
    expect (mark '\x7d')
    return inner

/-- The elements of a group. -/
def elements (names : Namespaces) : Nat → Parse (List Element)
  | 0 => throw "nested too deep"
  | bound + 1 => do
    match ← peek with
    | some (.shared (.mark '\x7d')) => return []
    | some (.shared (.mark '\x7b')) =>
      let alternatives ← union names bound
      separated names bound (.union alternatives)
    | _ =>
      if ← acceptWord "filter" then
        let condition ←
          if (← peek) = some (mark '(') then bracketed names bound else call names bound
        separated names bound (.filter condition)
      else if ← acceptWord "optional" then
        let inner ← group names bound
        separated names bound (.optional inner)
      else
        let subject ← slot names
        let patterns ← predicates names subject bound
        let rest ← if ← accept (mark '.') then elements names bound else nonStatements names bound
        return patterns.map .statement ++ rest

/-- What follows an element that is no statement: a period may stand between. -/
def separated (names : Namespaces) : Nat → Element → Parse (List Element)
  | 0, _ => throw "nested too deep"
  | bound + 1, element => do
    let _ ← accept (mark '.')
    return element :: (← elements names bound)

/-- What follows a statement without a period: anything but another statement. -/
def nonStatements (names : Namespaces) : Nat → Parse (List Element)
  | 0 => throw "nested too deep"
  | bound + 1 => do
    let word ← peekWord
    let token ← peek
    if word = some "filter" ∨ word = some "optional" ∨ token = some (mark '\x7b') ∨
        token = some (mark '\x7d') then
      elements names bound
    else throw "a period is expected"

/-- Groups between keywords of union. -/
def union (names : Namespaces) : Nat → Parse (List (List Element))
  | 0 => throw "nested too deep"
  | bound + 1 => do
    let first ← group names bound
    if ← acceptWord "union" then return first :: (← union names bound) else return [first]

end

/-! ## Queries -/

/-- Declarations of prefixes and of the base. -/
def prologue (names : Namespaces) : Nat → Parse Namespaces
  | 0 => return names
  | bound + 1 => do
    if ← acceptWord "prefix" then
      match ← next with
      | .shared (.name pre "") => prologue (names.declare pre (← declared)) bound
      | _ => throw "a prefix is expected"
    else if ← acceptWord "base" then prologue (names.rebase (← declared)) bound
    else return names
where
  declared : Parse String := do
    match ← next with
    | .shared token => names.declaredIri token
    | _ => throw "an IRI is expected"

/-- As many variables as follow. -/
def variableList : Nat → Parse (List String)
  | 0 => return []
  | bound + 1 => do
    match ← peek with
    | some (.var name) =>
      let _ ← next
      return name :: (← variableList bound)
    | _ => return []

/-- What a query selects. -/
def selection (bound : Nat) : Parse Selection := do
  if ← accept (.operator "*") then return .everything
  else if ← accept (mark '(') then
    expectWord "count"
    expect (mark '(')
    let distinct ← acceptWord "distinct"
    let counted ← match ← next with
      | .operator "*" => pure none
      | .var name => pure (some name)
      | _ => throw "a variable is expected"
    expect (mark ')')
    expectWord "as"
    match ← next with
    | .var name =>
      expect (mark ')')
      return .count distinct counted name
    | _ => throw "a variable is expected"
  else
    match ← variableList bound with
    | [] => throw "a variable is expected"
    | names => return .named names

/-- A value to order by. -/
def orderKey (names : Namespaces) (bound : Nat) : Parse (Option OrderKey) := do
  if ← acceptWord "asc" then return some ⟨false, ← bracketed names bound⟩
  else if ← acceptWord "desc" then return some ⟨true, ← bracketed names bound⟩
  else
    match ← peek with
    | some (.var name) =>
      let _ ← next
      return some ⟨false, .var name⟩
    | some (.shared (.mark '(')) => return some ⟨false, ← bracketed names bound⟩
    | some (.shared (.word word)) =>
      if ["limit", "offset"].contains (Text.lowerAscii word) then return none
      else return some ⟨false, ← call names bound⟩
    | _ => return none

/-- The values to order by. -/
def orderKeys (names : Namespaces) : Nat → Parse (List OrderKey)
  | 0 => throw "nested too deep"
  | bound + 1 => do
    match ← orderKey names bound with
    | some key => return key :: (← orderKeys names bound)
    | none => return []

/-- A number of rows. -/
def count : Parse Nat := do
  match ← next with
  | .shared (.integer written) =>
    match written.toNat? with
    | some n => return n
    | none => throw "a number is expected"
  | _ => throw "a number is expected"

/-- How rows are ordered, skipped and limited. -/
def modifiers (names : Namespaces) (bound : Nat) : Parse (List OrderKey × Nat × Option Nat) := do
  let order ←
    if ← acceptWord "order" then
      expectWord "by"
      match ← orderKeys names bound with
      | [] => throw "a value to order by is expected"
      | keys => pure keys
    else pure []
  if ← acceptWord "limit" then
    let limit ← count
    let offset ← if ← acceptWord "offset" then count else pure 0
    return (order, offset, some limit)
  else if ← acceptWord "offset" then
    let offset ← count
    let limit ← if ← acceptWord "limit" then some <$> count else pure none
    return (order, offset, limit)
  else return (order, 0, none)

/-- The pattern of a query, before which a keyword may stand. -/
def wherePattern (names : Namespaces) (bound : Nat) : Parse Group := do
  let _ ← acceptWord "where"
  group names bound

/-- The statements of a template. -/
def template (names : Namespaces) (bound : Nat) : Parse Group := do
  let elements ← group names bound
  if elements.all (fun e => match e with | .statement _ => true | _ => false) then return elements
  else throw "a template holds statements only"

/-- The terms that are described: everything, or variables and IRIs. -/
def described (names : Namespaces) : Nat → Parse Nat
  | 0 => return 0
  | bound + 1 => do
    match ← peek with
    | some (.var _) =>
      let _ ← next
      return (← described names bound) + 1
    | some (.shared token) =>
      match ← names.iri? token with
      | some _ =>
        let _ ← next
        return (← described names bound) + 1
      | none => return 0
    | _ => return 0

mutual

/-- The names of the variables of a group that can be selected, with repetitions. -/
def visibleNames : List Element → List String
  | [] => []
  | element :: rest => visibleOf element ++ visibleNames rest

/-- The variables of an element. Those of a condition do not count. -/
def visibleOf : Element → List String
  | .statement pattern =>
    [pattern.subject, pattern.predicate, pattern.object].filterMap fun slot =>
      match slot with
      | .var name => if "_:".isPrefixOf name then none else some name
      | .term _ => none
  | .optional group => visibleNames group
  | .union alternatives => visibleInAll alternatives
  | .filter _ => []

/-- The variables of several groups. -/
def visibleInAll : List (List Element) → List String
  | [] => []
  | group :: rest => visibleNames group ++ visibleInAll rest

end

/-- A query after its declarations. -/
def form (names : Namespaces) (bound : Nat) : Parse Query := do
  if ← acceptWord "select" then
    let distinct ← acceptWord "distinct"
    let _ ← if distinct then pure false else acceptWord "reduced"
    let selection ← selection bound
    let pattern ← wherePattern names bound
    let (order, offset, limit) ← modifiers names bound
    match selection with
    | .count _ _ name =>
      if (visibleNames pattern).contains name then throw "the name of the count is in use"
    | _ => pure ()
    return .select ⟨selection, distinct, pattern, order, offset, limit⟩
  else if ← acceptWord "ask" then
    let pattern ← wherePattern names bound
    let _ ← modifiers names bound
    return .other pattern
  else if ← acceptWord "construct" then
    if ← acceptWord "where" then
      let pattern ← template names bound
      let _ ← modifiers names bound
      return .other pattern
    else
      let _ ← template names bound
      let pattern ← wherePattern names bound
      let _ ← modifiers names bound
      return .other pattern
  else if ← acceptWord "describe" then
    unless ← accept (.operator "*") do
      if (← described names bound) = 0 then throw "a term to describe is expected"
    let hasPattern := (← peekWord) = some "where" || (← peek) = some (mark '\x7b')
    let pattern ← if hasPattern then wherePattern names bound else pure []
    let _ ← modifiers names bound
    return .other pattern
  else throw "a query is expected"

end Parse

/-- Reads a query. -/
def Query.read (text : String) : Except String Query :=
  match tokens? text.toList with
  | none => .error "a token is malformed"
  | some tokens =>
    let bound := 8 * (tokens.length + 1)
    let parse : Parse Query := do
      let names ← Parse.prologue {} bound
      Parse.form names bound
    match parse.run tokens with
    | .ok (query, []) => .ok query
    | .ok (_, _ :: _) => .error "the query does not end here"
    | .error reason => .error reason

end PublicationAudit.Sparql
