import PublicationAudit.Rdf.Iri
import PublicationAudit.Rdf.LanguageTag
import PublicationAudit.Rdf.Name
import PublicationAudit.Text.Escape

/-!
# Tokens of RDF text

RDF text is read as a list of tokens; blanks and comments separate them. The scanners of the single
kinds of token take the characters after the token's first mark and return the token with the
characters left.
-/

namespace PublicationAudit.Rdf

/-- How a quoted text was quoted. -/
inductive Quotation where
  /-- Between double quotes, on one line. -/
  | double
  /-- Between apostrophes or three quotes of either kind. -/
  | extended
  deriving DecidableEq, Repr

/-- A token of RDF text. -/
inductive Token where
  /-- An IRI reference between angle brackets. -/
  | reference (text : String)
  /-- A name with a prefix. -/
  | name (pre tail : String)
  | label (text : String)
  | text (quotation : Quotation) (value : String)
  | integer (written : String)
  | decimal (written : String)
  | double (written : String)
  /-- A language tag, or a directive that is written like one. -/
  | tag (text : String)
  | word (text : String)
  | mark (c : Char)
  /-- Two circumflex accents, before a datatype. -/
  | typeMark
  deriving DecidableEq, Repr

/-- The short escapes of quoted text. -/
def shortEscape : Char → Option Char
  | 't' => some '\t'
  | 'b' => some '\x08'
  | 'n' => some '\n'
  | 'r' => some '\r'
  | 'f' => some '\x0c'
  | '"' => some '"'
  | '\'' => some '\''
  | '\\' => some '\\'
  | _ => none

/-! ## Scanners -/

/-- A quoted text, after its first quote. -/
def scanText (quote : Char) (s : List Char) : Option (Quotation × String × List Char) := do
  let isLong := s.take 2 == [quote, quote]
  let (raw, rest) ← if isLong then Text.takeLongQuoted quote (s.drop 2) else Text.takeQuoted quote s
  let value ← Text.unescape shortEscape raw
  some (if isLong || quote != '"' then .extended else .double, String.ofList value, rest)

/-- An IRI reference, after its opening bracket. Only characters by number are escaped. -/
def scanReference (s : List Char) : Option (String × List Char) := do
  let raw := s.takeWhile (· != '>')
  match s.dropWhile (· != '>') with
  | [] => none
  | _ :: rest =>
    if raw.any Text.isLineEnd then none
    else some (String.ofList (← Text.unescape (fun _ => none) raw), rest)

/-- Gives the periods at the end of what was taken back to what is left. -/
def returnPeriods (taken rest : List Char) : List Char × List Char :=
  let kept := (taken.reverse.dropWhile (· == '.')).reverse
  (kept, taken.drop kept.length ++ rest)

/-- The label of a blank node, after the underscore and the colon. -/
def scanLabel (s : List Char) : Option (String × List Char) :=
  match s with
  | [] => none
  | first :: _ =>
    if isLabelStart first then
      let inside := fun c => isNamePart c || c == '.'
      let (label, rest) := returnPeriods (s.takeWhile inside) (s.dropWhile inside)
      some (String.ofList label, rest)
    else none

/-- The characters that a backslash lets stand in a local name. -/
def localEscapes : List Char := "_~.-!$&'()*+,;=/?#@%".toList

/-- The pieces of a local name: characters, characters after a backslash, which are kept from being
taken for periods, and percent signs with their digits. -/
def scanLocalPieces : List Char → Option (List (Char × Bool) × List Char)
  | [] => some ([], [])
  | '%' :: a :: b :: rest =>
    if Text.isHexDigit a && Text.isHexDigit b then
      (scanLocalPieces rest).map fun r =>
        (('%', true) :: (a, true) :: (b, true) :: r.1, r.2)
    else none
  | '\\' :: c :: rest =>
    if localEscapes.contains c then
      (scanLocalPieces rest).map fun r => ((c, true) :: r.1, r.2)
    else none
  | c :: rest =>
    if c == '%' || c == '\\' then none
    else if isNamePart c || c == ':' || c == '.' then
      (scanLocalPieces rest).map fun r => ((c, false) :: r.1, r.2)
    else some ([], c :: rest)

/-- Whether a character can start a local name. -/
def startsLocal (c : Char) : Bool := isLabelStart c || c == ':' || c == '%' || c == '\\'

/-- A local name, after the colon. -/
def scanLocal (s : List Char) : Option (String × List Char) :=
  match s with
  | [] => some ("", [])
  | first :: _ =>
    if startsLocal first then
      (scanLocalPieces s).map fun r =>
        let kept := (r.1.reverse.dropWhile (· == ('.', false))).reverse
        (String.ofList (kept.map Prod.fst),
          (r.1.drop kept.length).map Prod.fst ++ r.2)
    else some ("", s)

/-- A name with a prefix, or a word, from its first character on. -/
def scanName (s : List Char) : Option (Token × List Char) :=
  let inside := fun c => isNamePart c || c == '.'
  let taken := s.takeWhile inside
  match s.dropWhile inside with
  | ':' :: rest =>
    if taken.getLast? == some '.' then none
    else (scanLocal rest).map fun r => (.name (String.ofList taken) r.1, r.2)
  | rest =>
    let (word, rest) := returnPeriods taken rest
    some (.word (String.ofList word), rest)

/-- A language tag, after the at sign: parts between hyphens, the first of letters alone. -/
def scanTag (s : List Char) : Option (String × List Char) :=
  let first := s.takeWhile Char.isAlpha
  let inside := fun c => c.isAlphanum || c == '-'
  let rest := s.drop first.length
  let more := if rest.head? == some '-' then rest.takeWhile inside else []
  let tag := first ++ more
  if !first.isEmpty && LanguageTag.isWellFormed (String.ofList tag) then
    some (String.ofList tag, rest.drop more.length)
  else none

/-- A sign at the start of a number. -/
def cutSign : List Char → List Char × List Char
  | '+' :: rest => (['+'], rest)
  | '-' :: rest => (['-'], rest)
  | s => ([], s)

/-- The exponent of a number: its mark, a sign and digits. -/
def cutExponent? : List Char → Option (List Char × List Char)
  | [] => none
  | e :: rest =>
    if e == 'e' || e == 'E' then
      let (sign, digits) := cutSign rest
      some (e :: sign ++ digits.takeWhile Char.isDigit, digits.dropWhile Char.isDigit)
    else none

/-- A number from its sign on. A period belongs to it only if a digit or an exponent follows. -/
def scanNumber (s : List Char) : Option (Token × List Char) :=
  let (sign, afterSign) := cutSign s
  let whole := afterSign.takeWhile Char.isDigit
  let afterWhole := afterSign.dropWhile Char.isDigit
  let (fraction, afterFraction) := match afterWhole with
    | '.' :: rest => ('.' :: rest.takeWhile Char.isDigit, rest.dropWhile Char.isDigit)
    | rest => ([], rest)
  match cutExponent? afterFraction with
  | some (exponent, rest) =>
    if (exponent.getLast?.any Char.isDigit) && !(whole.isEmpty && fraction.length ≤ 1) then
      some (.double (String.ofList (sign ++ whole ++ fraction ++ exponent)), rest)
    else none
  | none =>
    if 2 ≤ fraction.length then
      some (.decimal (String.ofList (sign ++ whole ++ fraction)), afterFraction)
    else if whole.isEmpty then none
    else some (.integer (String.ofList (sign ++ whole)), afterWhole)

/-! ## All tokens -/

/-- Whether a character only separates tokens. -/
def isSeparator (c : Char) : Bool := c == ' ' || c == '\t' || Text.isLineEnd c

/-- One token, given its first character. -/
def scanToken (c : Char) (rest : List Char) : Option (Token × List Char) :=
  if c = '<' then (scanReference rest).map fun r => (.reference r.1, r.2)
  else if c = '"' ∨ c = '\'' then (scanText c rest).map fun r => (.text r.1 r.2.1, r.2.2)
  else if c = '@' then (scanTag rest).map fun r => (.tag r.1, r.2)
  else if c = '^' then
    match rest with
    | '^' :: rest => some (.typeMark, rest)
    | _ => none
  else if c = '_' then
    match rest with
    | ':' :: rest => (scanLabel rest).map fun r => (.label r.1, r.2)
    | _ => none
  else if c = '.' then
    if rest.head?.any Char.isDigit then scanNumber (c :: rest) else some (.mark c, rest)
  else if c.isDigit ∨ c = '+' ∨ c = '-' then scanNumber (c :: rest)
  else if ",;()[]\x7b\x7d".toList.contains c then some (.mark c, rest)
  else if isNameStart c ∨ c = ':' then scanName (c :: rest)
  else none

/-- The tokens of a text whose length is at most the bound; none where a token is malformed. -/
def tokensWithin : Nat → List Char → Option (List Token)
  | _, [] => some []
  | 0, _ :: _ => none
  | bound + 1, c :: rest =>
    if isSeparator c then tokensWithin bound rest
    else if c = '#' then tokensWithin bound (rest.dropWhile fun c => !Text.isLineEnd c)
    else
      match scanToken c rest with
      | none => none
      | some (token, rest) => (tokensWithin bound rest).map (token :: ·)

/-- The tokens of a text. -/
def tokens? (s : List Char) : Option (List Token) := tokensWithin s.length s

end PublicationAudit.Rdf
