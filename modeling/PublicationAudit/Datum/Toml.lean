import PublicationAudit.Datum.Basic
import PublicationAudit.Text.Escape
import PublicationAudit.Text.Numeral

/-!
# Reading TOML

A text is a sequence of lines: headers, which open tables, and keys with their values. The tables
are built while the lines are read, since what a line may add depends on how a table came to be.
Dates and numbers with a fraction are kept as written.
-/

namespace PublicationAudit.Toml

/-! ## Tables -/

/-- How a table came to be, which says what may be added to it. -/
inductive Origin where
  /-- By the header of a table inside it. -/
  | implied
  | header
  /-- By a key with periods. -/
  | key
  deriving DecidableEq, Repr

/-- What stands under a name: a complete value, or a table that may grow. -/
inductive Entry where
  | value (datum : Datum)
  | table (origin : Origin) (entries : List (String × Entry))

/-- Entries by name, in order. -/
abbrev Table := List (String × Entry)

/-- Puts an entry in the place of the one of its name, or at the end. -/
def putEntry (name : String) (entry : Entry) : Table → Table
  | [] => [(name, entry)]
  | other :: rest =>
    if other.1 = name then (name, entry) :: rest else other :: putEntry name entry rest

/-- Opens the table of a header. A table is opened once, but one that was only implied may still be
opened. -/
def openTable : List String → Table → Option Table
  | [], _ => none
  | [name], table =>
    match table.lookup name with
    | none => some (putEntry name (.table .header []) table)
    | some (.table .implied entries) => some (putEntry name (.table .header entries) table)
    | some _ => none
  | name :: path, table =>
    match table.lookup name with
    | none => (openTable path []).map fun inner => putEntry name (.table .implied inner) table
    | some (.table origin entries) =>
      (openTable path entries).map fun inner => putEntry name (.table origin inner) table
    | some (.value _) => none

/-- Stores a value under a key. Names before the last one lead to tables that such keys made. -/
def store (datum : Datum) : List String → Table → Option Table
  | [], _ => none
  | [name], table =>
    match table.lookup name with
    | none => some (putEntry name (.value datum) table)
    | some _ => none
  | name :: path, table =>
    match table.lookup name with
    | none => (store datum path []).map fun inner => putEntry name (.table .key inner) table
    | some (.table .key entries) =>
      (store datum path entries).map fun inner => putEntry name (.table .key inner) table
    | some _ => none

/-- Changes the table that a header's names lead to. -/
def changeAt (change : Table → Option Table) : List String → Table → Option Table
  | [], table => change table
  | name :: path, table =>
    match table.lookup name with
    | some (.table origin entries) =>
      (changeAt change path entries).map fun inner => putEntry name (.table origin inner) table
    | _ => none

mutual

/-- A table as a record. -/
def Entry.toDatum : Entry → Datum
  | .value datum => datum
  | .table _ entries => .record (toFields entries)

/-- Entries as fields. -/
def toFields : List (String × Entry) → List (String × Datum)
  | [] => []
  | (name, entry) :: rest => (name, entry.toDatum) :: toFields rest

end

/-! ## Characters -/

/-- Whether a character only separates the parts of a line. -/
def isGap (c : Char) : Bool := c == ' ' || c == '\t'

/-- Text without the gap at its start. -/
def dropGap (s : List Char) : List Char := s.dropWhile isGap

/-- Text from the first character that is neither gap, line end nor comment. -/
def dropLines : Bool → List Char → List Char
  | _, [] => []
  | true, c :: rest => dropLines (!Text.isLineEnd c) rest
  | false, c :: rest =>
    if isGap c || Text.isLineEnd c then dropLines false rest
    else if c == '#' then dropLines true rest
    else c :: rest

/-- What follows the end of a line, before which a comment may stand. -/
def endLine? (s : List Char) : Option (List Char) :=
  match dropGap s with
  | [] => some []
  | c :: rest =>
    if Text.isLineEnd c then some rest
    else if c = '#' then some (rest.dropWhile fun c => !Text.isLineEnd c)
    else none

/-! ## Keys and texts -/

/-- The short escapes of quoted text. -/
def shortEscape : Char → Option Char
  | 'b' => some '\x08'
  | 't' => some '\t'
  | 'n' => some '\n'
  | 'f' => some '\x0c'
  | 'r' => some '\r'
  | '"' => some '"'
  | '\\' => some '\\'
  | _ => none

/-- Text without a line end at its start. -/
def dropLineEnd : List Char → List Char
  | '\n' :: rest => rest
  | s => s

/-- The end of a long text in quotes, of which up to two may stand right before the closing
three. -/
def moveQuotes (quote : Char) (text rest : List Char) : List Char × List Char :=
  let extra := (rest.take 2).takeWhile (· == quote)
  (text ++ extra, rest.drop extra.length)

/-- Long text with the lines joined that a backslash ends: it goes with all gaps and line ends up to
the next character. -/
def joinLines : Nat → List Char → List Char
  | 0, s => s
  | _, [] => []
  | bound + 1, '\\' :: rest =>
    if (dropGap rest).head? = some '\n' then
      joinLines bound (rest.dropWhile fun c => isGap c || c == '\n')
    else '\\' :: rest.take 1 ++ joinLines bound (rest.drop 1)
  | bound + 1, c :: rest => c :: joinLines bound rest

/-- A text between double quotes, after the first of them. -/
def scanQuoted (s : List Char) : Option (String × List Char) := do
  if s.take 2 == ['"', '"'] then
    let (raw, rest) ← Text.takeLongQuoted '"' (dropLineEnd (s.drop 2))
    let (raw, rest) := moveQuotes '"' (joinLines raw.length raw) rest
    some (String.ofList (← Text.unescape shortEscape raw), rest)
  else
    let (raw, rest) ← Text.takeQuoted '"' s
    some (String.ofList (← Text.unescape shortEscape raw), rest)

/-- The characters up to three apostrophes, and the text after them. -/
def takeLongLiteral : List Char → Option (List Char × List Char)
  | [] => none
  | '\'' :: '\'' :: '\'' :: rest => some ([], rest)
  | c :: rest => (takeLongLiteral rest).map fun r => (c :: r.1, r.2)

/-- A text between apostrophes, after the first of them. Nothing in it is escaped. -/
def scanLiteral (s : List Char) : Option (String × List Char) :=
  if s.take 2 == ['\'', '\''] then
    (takeLongLiteral (dropLineEnd (s.drop 2))).map fun r =>
      let (text, rest) := moveQuotes '\'' r.1 r.2
      (String.ofList text, rest)
  else
    let text := s.takeWhile (· != '\'')
    match s.dropWhile (· != '\'') with
    | [] => none
    | _ :: rest => if text.any Text.isLineEnd then none else some (String.ofList text, rest)

/-- Characters of a name without quotes. -/
def isBare (c : Char) : Bool := c.isAlphanum || c == '-' || c == '_'

/-- One name of a key. -/
def scanName (s : List Char) : Option (String × List Char) :=
  match s with
  | '"' :: rest => if rest.take 2 = ['"', '"'] then none else scanQuoted rest
  | '\'' :: rest => if rest.take 2 = ['\'', '\''] then none else scanLiteral rest
  | s =>
    let name := s.takeWhile isBare
    if name.isEmpty then none else some (String.ofList name, s.dropWhile isBare)

/-- The names of a key, between periods. -/
def scanKey : Nat → List Char → Option (List String × List Char)
  | 0, _ => none
  | bound + 1, s => do
    let (name, rest) ← scanName (dropGap s)
    match dropGap rest with
    | '.' :: rest => (scanKey bound rest).map fun r => (name :: r.1, r.2)
    | rest => some ([name], rest)

/-! ## Numbers and dates -/

/-- The digits of a numeral without the underscores between them; none where an underscore stands
elsewhere. -/
def dropUnderscores? (isDigit : Char → Bool) : List Char → Option (List Char)
  | [] => none
  | [d] => if isDigit d then some [d] else none
  | d :: '_' :: rest => if isDigit d then (dropUnderscores? isDigit rest).map (d :: ·) else none
  | d :: rest => if isDigit d then (dropUnderscores? isDigit rest).map (d :: ·) else none

/-- The value of digits in a base of at most sixteen. -/
def valueInBase (base : Nat) (digits : List Char) : Nat :=
  digits.foldl (fun n d => base * n + Text.hexDigitValue d) 0

/-- Reads digits in a base. -/
def readInBase? (base : Nat) (s : List Char) : Option Nat :=
  (dropUnderscores? (fun c => Text.isHexDigit c && Text.hexDigitValue c < base) s).map
    (valueInBase base)

/-- An integer, if it fits into 64 bits. -/
def readInteger? (s : List Char) : Option Int :=
  let unsigned : Option Int := match s with
    | '0' :: 'x' :: digits => (readInBase? 16 digits).map Int.ofNat
    | '0' :: 'o' :: digits => (readInBase? 8 digits).map Int.ofNat
    | '0' :: 'b' :: digits => (readInBase? 2 digits).map Int.ofNat
    | '+' :: digits => (readDecimal? digits).map Int.ofNat
    | '-' :: digits => (readDecimal? digits).map fun n => -Int.ofNat n
    | digits => (readDecimal? digits).map Int.ofNat
  unsigned.filter Text.fitsSigned64
where
  readDecimal? (digits : List Char) : Option Nat :=
    if 1 < digits.length && digits.head? == some '0' then none else readInBase? 10 digits

/-- Whether text is a number with a fraction or an exponent, or one of the words for infinity and
for no number. -/
def isFloat (s : List Char) : Bool :=
  let unsigned := match s with
    | '+' :: rest => rest
    | '-' :: rest => rest
    | rest => rest
  let isMark := fun c => c == 'e' || c == 'E'
  let mantissa := unsigned.takeWhile fun c => !isMark c
  let whole := mantissa.takeWhile (· != '.')
  let fraction := (mantissa.dropWhile (· != '.')).drop 1
  let exponent := (unsigned.dropWhile fun c => !isMark c).drop 1
  let exponentDigits := match exponent with
    | '+' :: rest => rest
    | '-' :: rest => rest
    | rest => rest
  unsigned == "inf".toList || unsigned == "nan".toList ||
    ((readInteger? whole).isSome && whole.all (fun c => c.isDigit || c == '_') &&
      (mantissa.contains '.' || unsigned.any isMark) &&
      (!mantissa.contains '.' || (dropUnderscores? Char.isDigit fraction).isSome) &&
      (!unsigned.any isMark || (dropUnderscores? Char.isDigit exponentDigits).isSome))

/-- Whether text starts like a date or a time. -/
def isDate (s : List Char) : Bool :=
  let digits := fun (part : List Char) (count : Nat) =>
    part.length == count && part.all Char.isDigit
  (digits (s.take 4) 4 && s[4]? == some '-' && digits ((s.drop 5).take 2) 2 && s[7]? == some '-' &&
    digits ((s.drop 8).take 2) 2) ||
  (digits (s.take 2) 2 && s[2]? == some ':' && digits ((s.drop 3).take 2) 2 && s[5]? == some ':' &&
    digits ((s.drop 6).take 2) 2)

/-- Characters of a number, a date or a word. -/
def isWordCharacter (c : Char) : Bool := isBare c || c == '+' || c == '.' || c == ':'

/-- A value that is a single word. -/
def readWord? (word : List Char) : Option Datum :=
  if word = "true".toList then some (.boolean true)
  else if word = "false".toList then some (.boolean false)
  else
    match readInteger? word with
    | some n => some (.integer n)
    | none => if isFloat word || isDate word then some (.other (String.ofList word)) else none

/-! ## Values -/

mutual

/-- A value, with the text after it. -/
def value : Nat → List Char → Option (Datum × List Char)
  | 0, _ => none
  | bound + 1, s =>
    match s with
    | '"' :: rest => (scanQuoted rest).map fun r => (.text r.1, r.2)
    | '\'' :: rest => (scanLiteral rest).map fun r => (.text r.1, r.2)
    | '[' :: rest => (items bound (dropLines false rest)).map fun r => (.list r.1, r.2)
    | '\x7b' :: rest =>
      match dropGap rest with
      | '\x7d' :: rest => some (.record [], rest)
      | rest => (pairs bound [] rest).map fun r => (.record (toFields r.1), r.2)
    | s => (readWord? (s.takeWhile isWordCharacter)).map fun d => (d, s.dropWhile isWordCharacter)

/-- The items of a list up to its closing bracket; a comma may stand before it. -/
def items : Nat → List Char → Option (List Datum × List Char)
  | 0, _ => none
  | bound + 1, s =>
    match s with
    | ']' :: rest => some ([], rest)
    | s =>
      match value bound s with
      | none => none
      | some (item, rest) =>
        match dropLines false rest with
        | ',' :: rest => (items bound (dropLines false rest)).map fun r => (item :: r.1, r.2)
        | ']' :: rest => some ([item], rest)
        | _ => none

/-- The pairs of a table on one line up to its closing brace. -/
def pairs : Nat → Table → List Char → Option (Table × List Char)
  | 0, _, _ => none
  | bound + 1, table, s =>
    match scanKey s.length s with
    | some (key, '=' :: rest) =>
      match value bound (dropGap rest) with
      | none => none
      | some (datum, rest) =>
        match store datum key table, dropGap rest with
        | some table, ',' :: rest => pairs bound table rest
        | some table, '\x7d' :: rest => some (table, rest)
        | _, _ => none
    | _ => none

end

/-! ## Lines -/

/-- One line, added to the tables: `path` names the table opened last. The text after the line is
returned with the path. -/
def readLine? (path : List String) (table : Table) (s : List Char) :
    Option (List String × Table × List Char) :=
  match s with
  | '[' :: rest =>
    match scanKey rest.length rest with
    | some (names, ']' :: rest) => do
      some (names, ← openTable names table, ← endLine? rest)
    | _ => none
  | s =>
    match scanKey s.length s with
    | some (key, '=' :: rest) => do
      let (datum, rest) ← value (s.length + 1) (dropGap rest)
      some (path, ← changeAt (store datum key) path table, ← endLine? rest)
    | _ => none

/-- All lines of a text whose length is below the bound. -/
def readLines? : Nat → List String → Table → List Char → Option Table
  | 0, _, _, _ => none
  | bound + 1, path, table, s =>
    match dropLines false s with
    | [] => some table
    | s => do
      let (path, table, rest) ← readLine? path table s
      readLines? bound path table rest

/-- The characters of a text with its line ends as single characters; none where a character may not
stand in a text at all. A mark of the byte order may come first. -/
def readCharacters? (text : String) : Option (List Char) :=
  match text.toList with
  | '\ufeff' :: rest => joinLineEnds? rest
  | s => joinLineEnds? s
where
  joinLineEnds? : List Char → Option (List Char)
    | [] => some []
    | '\r' :: '\n' :: rest => (joinLineEnds? rest).map ('\n' :: ·)
    | c :: rest =>
      if c = '\t' ∨ c = '\n' ∨ (0x20 ≤ c.toNat ∧ c.toNat ≠ 0x7F) then
        (joinLineEnds? rest).map (c :: ·)
      else none

/-- Reads a TOML text. -/
def read (text : String) : Option Datum := do
  let s ← readCharacters? text
  return .record (toFields (← readLines? (s.length + 1) [] [] s))

end PublicationAudit.Toml
