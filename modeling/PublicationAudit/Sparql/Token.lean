import PublicationAudit.Rdf.Token

/-!
# Tokens of queries

Queries share names, quoted text and numbers with RDF text. They add variables and operators; an
opening angle bracket starts an IRI only if the IRI is closed before any character that none holds.
-/

namespace PublicationAudit.Sparql

/-- A token of a query. -/
inductive Token where
  | var (name : String)
  /-- A token that RDF text has too. -/
  | shared (token : Rdf.Token)
  /-- A comparison or another operator. -/
  | operator (text : String)
  deriving DecidableEq, Repr

/-- Characters that an IRI between angle brackets cannot hold. -/
def endsReference (c : Char) : Bool :=
  c.toNat ≤ 0x20 || "<>\"\x7b\x7d|^\x60\\".toList.contains c

/-- An IRI after its opening bracket. -/
def scanReference? (s : List Char) : Option (String × List Char) :=
  match s.dropWhile fun c => !endsReference c with
  | '>' :: rest => some (String.ofList (s.takeWhile fun c => !endsReference c), rest)
  | _ => none

/-- A variable after its sign. -/
def scanVariable? (s : List Char) : Option (String × List Char) :=
  match s with
  | [] => none
  | first :: rest =>
    if Rdf.isLabelStart first then
      some (String.ofList (first :: rest.takeWhile Rdf.isVariableRest),
        rest.dropWhile Rdf.isVariableRest)
    else none

/-- The operators of two characters, then those of one. -/
def operators : List String := ["<=", ">=", "!=", "&&", "||", "<", ">", "=", "!", "*"]

/-- The operator that a text starts with. -/
def scanOperator? (s : List Char) : Option (Token × List Char) :=
  (operators.find? fun op => op.toList.isPrefixOf s).map fun op =>
    (.operator op, s.drop op.length)

/-- One token, given its first character. -/
def scanToken? (c : Char) (rest : List Char) : Option (Token × List Char) :=
  if c = '?' ∨ c = '$' then (scanVariable? rest).map fun r => (.var r.1, r.2)
  else if c = '<' then
    match scanReference? rest with
    | some (text, rest) => some (.shared (.reference text), rest)
    | none => scanOperator? (c :: rest)
  else
    match Rdf.scanToken c rest with
    | some (token, rest) => some (.shared token, rest)
    | none => scanOperator? (c :: rest)

/-- The tokens of a query whose length is at most the bound; none where a token is malformed. -/
def tokensWithin : Nat → List Char → Option (List Token)
  | _, [] => some []
  | 0, _ :: _ => none
  | bound + 1, c :: rest =>
    if Rdf.isSeparator c then tokensWithin bound rest
    else if c = '#' then tokensWithin bound (rest.dropWhile fun c => !Text.isLineEnd c)
    else
      match scanToken? c rest with
      | none => none
      | some (token, rest) => (tokensWithin bound rest).map (token :: ·)

/-- The tokens of a query. -/
def tokens? (s : List Char) : Option (List Token) := tokensWithin s.length s

end PublicationAudit.Sparql
