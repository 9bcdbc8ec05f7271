import PublicationAudit.Datum.Basic

/-!
# Writing JSON

Two layouts of a value: on one line without spaces, and indented by two spaces with one item a line.
Quotes, backslashes and control characters are escaped, everything else is written as it is.
-/

namespace PublicationAudit.Json

/-- A character as it stands in a JSON string. -/
def escapeChar (c : Char) : List Char :=
  if c = '"' then ['\\', '"']
  else if c = '\\' then ['\\', '\\']
  else if c = '\n' then ['\\', 'n']
  else if c = '\r' then ['\\', 'r']
  else if c = '\t' then ['\\', 't']
  else if c = '\x08' then ['\\', 'b']
  else if c = '\x0c' then ['\\', 'f']
  else if c.toNat < 0x20 then
    ['\\', 'u', '0', '0'] ++ (if c.toNat < 0x10 then ['0'] else []) ++ Nat.toDigits 16 c.toNat
  else [c]

/-- A JSON string. -/
def quote (s : String) : String :=
  String.ofList ('"' :: s.toList.flatMap escapeChar ++ ['"'])

/-- The opening brace of a record. -/
def openRecord : String := "\x7b"

/-- The closing brace of a record. -/
def closeRecord : String := "\x7d"

mutual

/-- A value on one line. -/
def compact : Datum → String
  | .null => "null"
  | .boolean true => "true"
  | .boolean false => "false"
  | .integer n => toString n
  | .other written => written
  | .text s => quote s
  | .plain s => quote s
  | .list items => "[" ++ ",".intercalate (compactItems items) ++ "]"
  | .record fields => openRecord ++ ",".intercalate (compactFields fields) ++ closeRecord

/-- The items of a list, each on one line. -/
def compactItems : List Datum → List String
  | [] => []
  | item :: items => compact item :: compactItems items

/-- The fields of a record, each on one line. -/
def compactFields : List (String × Datum) → List String
  | [] => []
  | (name, value) :: fields => (quote name ++ ":" ++ compact value) :: compactFields fields

end

/-- A line break followed by the indentation of a level. -/
def lineBreak (level : Nat) : String := "\n" ++ String.ofList (List.replicate (2 * level) ' ')

/-- Items one a line between brackets; without items the brackets touch. -/
def block (level : Nat) (opening closing : String) (items : List String) : String :=
  if items.isEmpty then opening ++ closing
  else
    opening ++ lineBreak (level + 1) ++ ("," ++ lineBreak (level + 1)).intercalate items ++
      lineBreak level ++ closing

mutual

/-- A value over several lines, at a level of indentation. -/
def indented (level : Nat) : Datum → String
  | .null => "null"
  | .boolean true => "true"
  | .boolean false => "false"
  | .integer n => toString n
  | .other written => written
  | .text s => quote s
  | .plain s => quote s
  | .list items => block level "[" "]" (indentedItems (level + 1) items)
  | .record fields => block level openRecord closeRecord (indentedFields (level + 1) fields)

/-- The items of a list. -/
def indentedItems (level : Nat) : List Datum → List String
  | [] => []
  | item :: items => indented level item :: indentedItems level items

/-- The fields of a record. -/
def indentedFields (level : Nat) : List (String × Datum) → List String
  | [] => []
  | (name, value) :: fields =>
    (quote name ++ ": " ++ indented level value) :: indentedFields level fields

end

end PublicationAudit.Json
