import PublicationAudit.Datum.Basic
import PublicationAudit.Text.Escape
import PublicationAudit.Text.Numeral

/-!
# Reading JSON

Text is cut into tokens first; values are then read from the tokens. Integers that fit into 64 bits
are integers, all other numbers are kept as written.
-/

namespace PublicationAudit.Json

/-- A token of JSON text. -/
inductive Token where
  /-- A value without parts: null, a truth value, a number or a text. -/
  | scalar (value : Datum)
  /-- A bracket, a brace, a comma or a colon. -/
  | mark (c : Char)

/-! ## Tokens -/

/-- The character that a short escape stands for. -/
def shortEscape? : Char → Option Char
  | '"' => some '"'
  | '\\' => some '\\'
  | '/' => some '/'
  | 'b' => some '\x08'
  | 'f' => some '\x0c'
  | 'n' => some '\n'
  | 'r' => some '\r'
  | 't' => some '\t'
  | _ => none

/-- The character that two units of 16 bits write together. -/
def joinSurrogates? (high low : Nat) : Option Char :=
  if 0xD800 ≤ high ∧ high < 0xDC00 ∧ 0xDC00 ≤ low ∧ low < 0xE000 then
    some (Char.ofNat (0x10000 + (high - 0xD800) * 0x400 + (low - 0xDC00)))
  else none

/-- A piece of a string: a character, or a unit of 16 bits by its number. -/
inductive Piece where
  | char (c : Char)
  | unit (n : Nat)

/-- The pieces of a string after its opening quote, with the text after the closing one. -/
def scanPieces : List Char → Option (List Piece × List Char)
  | [] => none
  | '\\' :: 'u' :: a :: b :: c :: d :: rest =>
    match Text.readHex? [a, b, c, d], scanPieces rest with
    | some n, some (pieces, rest) => some (.unit n :: pieces, rest)
    | _, _ => none
  | '\\' :: c :: rest =>
    match shortEscape? c, scanPieces rest with
    | some x, some (pieces, rest) => some (.char x :: pieces, rest)
    | _, _ => none
  | c :: rest =>
    if c = '"' then some ([], rest)
    else if c = '\\' ∨ c.toNat < 0x20 then none
    else (scanPieces rest).map fun r => (.char c :: r.1, r.2)

/-- The characters that pieces write; `high` is a unit that needs another after it. -/
def joinPieces : Option Nat → List Piece → Option (List Char)
  | none, [] => some []
  | some _, [] => none
  | none, .char c :: rest => (joinPieces none rest).map (c :: ·)
  | some _, .char _ :: _ => none
  | none, .unit n :: rest =>
    if 0xD800 ≤ n ∧ n < 0xDC00 then joinPieces (some n) rest
    else if n.isValidChar then (joinPieces none rest).map (Char.ofNat n :: ·)
    else none
  | some high, .unit low :: rest =>
    (joinSurrogates? high low).bind fun c => (joinPieces none rest).map (c :: ·)

/-- The characters of a string after its opening quote, with the text after the closing one. -/
def scanString (s : List Char) : Option (List Char × List Char) := do
  let (pieces, rest) ← scanPieces s
  some (← joinPieces none pieces, rest)

/-- The fraction of a number, which is empty or a period and digits. -/
def cutFraction? : List Char → Option (List Char × List Char)
  | '.' :: rest =>
    let digits := rest.takeWhile Char.isDigit
    if digits.isEmpty then none else some ('.' :: digits, rest.dropWhile Char.isDigit)
  | rest => some ([], rest)

/-- The exponent of a number, which is empty or a mark, perhaps a sign, and digits. -/
def cutExponent? : List Char → Option (List Char × List Char)
  | [] => some ([], [])
  | e :: rest =>
    if e = 'e' ∨ e = 'E' then
      let (sign, rest) := match rest with
        | '+' :: rest => (['+'], rest)
        | '-' :: rest => (['-'], rest)
        | rest => ([], rest)
      let digits := rest.takeWhile Char.isDigit
      if digits.isEmpty then none
      else some (e :: sign ++ digits, rest.dropWhile Char.isDigit)
    else some ([], e :: rest)

/-- A number without fraction and exponent: an integer if it fits into 64 bits. Minus zero is
none. -/
def integerDatum (isNegative : Bool) (digits : List Char) : Datum :=
  let n := Text.digitsValue digits
  let written := String.ofList ((if isNegative then ['-'] else []) ++ digits)
  if isNegative then
    if n ≠ 0 ∧ Text.fitsSigned64 (-n) then .integer (-n) else .other written
  else if n ≤ Text.maxCount64 then .integer n
  else .other written

/-- A number, with the text after it. -/
def scanNumber (s : List Char) : Option (Datum × List Char) := do
  let (isNegative, unsigned) := match s with
    | '-' :: rest => (true, rest)
    | rest => (false, rest)
  let digits := unsigned.takeWhile Char.isDigit
  if digits.isEmpty || (1 < digits.length && digits.head? = some '0') then none
  else
    let (fraction, rest) ← cutFraction? (unsigned.dropWhile Char.isDigit)
    let (exponent, rest) ← cutExponent? rest
    if fraction.isEmpty && exponent.isEmpty then some (integerDatum isNegative digits, rest)
    else
      let sign := if isNegative then ['-'] else []
      some (.other (String.ofList (sign ++ digits ++ fraction ++ exponent)), rest)

/-- One token, given its first character. -/
def scanToken (c : Char) (rest : List Char) : Option (Token × List Char) :=
  if "[]\x7b\x7d,:".toList.contains c then some (.mark c, rest)
  else if c = '"' then
    (scanString rest).map fun r => (.scalar (.text (String.ofList r.1)), r.2)
  else if c.isDigit ∨ c = '-' then (scanNumber (c :: rest)).map fun r => (.scalar r.1, r.2)
  else
    match (c :: rest).takeWhile Char.isAlpha with
    | word =>
      let rest := (c :: rest).drop word.length
      if word = "null".toList then some (.scalar .null, rest)
      else if word = "true".toList then some (.scalar (.boolean true), rest)
      else if word = "false".toList then some (.scalar (.boolean false), rest)
      else none

/-- The tokens of a text whose length is at most the bound. -/
def tokensWithin : Nat → List Char → Option (List Token)
  | _, [] => some []
  | 0, _ :: _ => none
  | bound + 1, c :: rest =>
    if c = ' ' ∨ c = '\t' ∨ c = '\n' ∨ c = '\r' then tokensWithin bound rest
    else
      match scanToken c rest with
      | none => none
      | some (token, rest) => (tokensWithin bound rest).map (token :: ·)

/-! ## Values -/

mutual

/-- A value, with the tokens after it; the bound is the depth of nesting and length that it may
have. -/
def value : Nat → List Token → Option (Datum × List Token)
  | _ + 1, .scalar datum :: rest => some (datum, rest)
  | _ + 1, .mark '[' :: .mark ']' :: rest => some (.list [], rest)
  | bound + 1, .mark '[' :: rest => (items bound rest).map fun r => (.list r.1, r.2)
  | _ + 1, .mark '\x7b' :: .mark '\x7d' :: rest => some (.record [], rest)
  | bound + 1, .mark '\x7b' :: rest => (fields bound rest).map fun r => (.record r.1, r.2)
  | _, _ => none

/-- The items of a list up to its closing bracket. -/
def items : Nat → List Token → Option (List Datum × List Token)
  | 0, _ => none
  | bound + 1, tokens =>
    match value bound tokens with
    | some (item, .mark ']' :: rest) => some ([item], rest)
    | some (item, .mark ',' :: rest) => (items bound rest).map fun r => (item :: r.1, r.2)
    | _ => none

/-- The fields of a record up to its closing brace. -/
def fields : Nat → List Token → Option (List (String × Datum) × List Token)
  | bound + 1, .scalar (.text name) :: .mark ':' :: tokens =>
    match value bound tokens with
    | some (field, .mark '\x7d' :: rest) => some ([(name, field)], rest)
    | some (field, .mark ',' :: rest) =>
      (fields bound rest).map fun r => ((name, field) :: r.1, r.2)
    | _ => none
  | _, _ => none

end

/-- Reads a JSON text. -/
def read (text : String) : Option Datum := do
  let tokens ← tokensWithin text.length text.toList
  match value (2 * tokens.length + 1) tokens with
  | some (datum, []) => some datum
  | _ => none

end PublicationAudit.Json
