import PublicationAudit.Datum.Basic
import PublicationAudit.Text.Blank
import PublicationAudit.Text.Escape
import PublicationAudit.Text.Search

/-!
# Reading YAML

The part of YAML that settings are written in: one document of block mappings and sequences, of
collections between brackets and braces, and of scalars that are plain or quoted on one line. Block
structure is read from lines and their indentation. The type of a plain scalar is left open. Text
outside of this part is refused.
-/

namespace PublicationAudit.Yaml

/-- A line with something on it: its indentation and the rest. -/
structure Line where
  indent : Nat
  content : List Char
  deriving Repr

/-- A node without content. -/
def emptyNode : Datum := .plain ""

/-! ## Scalars -/

/-- Whether a character is a space or a tabulator. -/
def isGap (c : Char) : Bool := c == ' ' || c == '\t'

/-- Text without the gap at its start. -/
def dropGap (s : List Char) : List Char := s.dropWhile isGap

/-- Text without the gap at its end. -/
def dropGapAtEnd (s : List Char) : List Char := (s.reverse.dropWhile isGap).reverse

/-- Whether text is nothing or a comment. -/
def isNothing (s : List Char) : Bool := (dropGap s).head?.all (· == '#')

/-- The short escapes between double quotes. -/
def shortEscape : Char → Option Char
  | '0' => some '\x00'
  | 'a' => some '\x07'
  | 'b' => some '\x08'
  | 't' => some '\t'
  | 'n' => some '\n'
  | 'v' => some '\x0b'
  | 'f' => some '\x0c'
  | 'r' => some '\r'
  | 'e' => some '\x1b'
  | 'N' => some '\u0085'
  | '_' => some '\u00a0'
  | 'L' => some '\u2028'
  | 'P' => some '\u2029'
  | ' ' => some ' '
  | '\t' => some '\t'
  | '"' => some '"'
  | '/' => some '/'
  | '\\' => some '\\'
  | _ => none

/-- A text between apostrophes, after the first of them; two stand for one. -/
def scanSingle : List Char → Option (List Char × List Char)
  | [] => none
  | '\'' :: '\'' :: rest => (scanSingle rest).map fun r => ('\'' :: r.1, r.2)
  | c :: rest =>
    if c = '\'' then some ([], rest) else (scanSingle rest).map fun r => (c :: r.1, r.2)

/-- Text with its escapes of two hexadecimal digits written with four. -/
def widenEscapes : List Char → List Char
  | '\\' :: 'x' :: rest => '\\' :: 'u' :: '0' :: '0' :: widenEscapes rest
  | '\\' :: c :: rest => '\\' :: c :: widenEscapes rest
  | c :: rest => c :: widenEscapes rest
  | [] => []

/-- A quoted text, with what follows it. -/
def scanQuoted : List Char → Option (String × List Char)
  | '"' :: rest => do
    let (raw, rest) ← Text.takeQuoted '"' rest
    some (String.ofList (← Text.unescape shortEscape (widenEscapes raw)), rest)
  | '\'' :: rest => (scanSingle rest).map fun r => (String.ofList r.1, r.2)
  | _ => none

/-- Whether text starts with a quote. -/
def startsQuoted (s : List Char) : Bool := s.head? == some '"' || s.head? == some '\''

/-- Whether text starts with a bracket or a brace. -/
def startsFlow (s : List Char) : Bool := s.head? == some '[' || s.head? == some '\x7b'

/-- Whether a plain scalar can start as the text does. -/
def startsPlain : List Char → Bool
  | [] => false
  | c :: rest =>
    if "-?:".toList.contains c then
      match rest with
      | [] => false
      | next :: _ => !isGap next
    else !",[]\x7b\x7d#&*!|>'\"%@\x60".toList.contains c

/-- The characters of a plain scalar, with what follows them. It ends before a colon or a comment
that gaps set off, and between brackets or braces at a mark of theirs too. -/
def takePlain (inFlow : Bool) : List Char → List Char × List Char
  | [] => ([], [])
  | c :: rest =>
    let next := rest.head?
    let isMark := fun c : Char => ",[]\x7b\x7d".toList.contains c
    if c == ':' && (next.all isGap || (inFlow && next.any isMark)) then ([], c :: rest)
    else if inFlow && isMark c then ([], c :: rest)
    else if isGap c && next == some '#' then ([], c :: rest)
    else
      let taken := takePlain inFlow rest
      (c :: taken.1, taken.2)

/-! ## Collections between brackets -/

mutual

/-- A value inside a collection, with the text after it. -/
def flowValue : Nat → List Char → Option (Datum × List Char)
  | 0, _ => none
  | bound + 1, s =>
    match dropGap s with
    | '[' :: rest => (flowItems bound rest).map fun r => (.list r.1, r.2)
    | '\x7b' :: rest => (flowPairs bound rest).map fun r => (.record r.1, r.2)
    | s =>
      if startsQuoted s then (scanQuoted s).map fun r => (.text r.1, r.2)
      else if startsPlain s then
        let taken := takePlain true s
        some (.plain (String.ofList (dropGapAtEnd taken.1)), taken.2)
      else none

/-- The items of a sequence up to its closing bracket. -/
def flowItems : Nat → List Char → Option (List Datum × List Char)
  | 0, _ => none
  | bound + 1, s =>
    match dropGap s with
    | ']' :: rest => some ([], rest)
    | s =>
      match flowValue bound s with
      | none => none
      | some (item, rest) =>
        match dropGap rest with
        | ',' :: rest => (flowItems bound rest).map fun r => (item :: r.1, r.2)
        | ']' :: rest => some ([item], rest)
        | _ => none

/-- The pairs of a mapping up to its closing brace. -/
def flowPairs : Nat → List Char → Option (List (String × Datum) × List Char)
  | 0, _ => none
  | bound + 1, s =>
    match dropGap s with
    | '\x7d' :: rest => some ([], rest)
    | s =>
      match flowValue bound s with
      | some (.text name, rest) => flowPair bound name (dropGap rest)
      | some (.plain name, rest) => flowPair bound name (dropGap rest)
      | _ => none

/-- The value of a pair, if there is one, and the pairs after it. -/
def flowPair : Nat → String → List Char → Option (List (String × Datum) × List Char)
  | 0, _, _ => none
  | bound + 1, name, s =>
    let found : Option (Datum × List Char) := match s with
      | ':' :: rest =>
        match dropGap rest with
        | ',' :: rest => some (emptyNode, ',' :: rest)
        | '\x7d' :: rest => some (emptyNode, '\x7d' :: rest)
        | rest => flowValue bound rest
      | s => some (emptyNode, s)
    match found with
    | none => none
    | some (datum, rest) =>
      match dropGap rest with
      | ',' :: rest => (flowPairs bound rest).map fun r => ((name, datum) :: r.1, r.2)
      | '\x7d' :: rest => some ([(name, datum)], rest)
      | _ => none

end

/-- A collection that starts with the text and may go on over further lines. -/
def flowOver (text : List Char) : List Line → Option (Datum × List Line)
  | [] => (complete? text).map fun d => (d, [])
  | line :: lines =>
    match complete? text with
    | some d => some (d, line :: lines)
    | none => flowOver (text ++ ' ' :: line.content) lines
where
  complete? (text : List Char) : Option Datum :=
    match flowValue (2 * text.length + 2) text with
    | some (d, rest) => if isNothing rest then some d else none
    | none => none

/-! ## Blocks -/

/-- The key that a line starts with, and the text after its colon. -/
def cutKey? (s : List Char) : Option (String × List Char) :=
  if startsQuoted s then
    match scanQuoted s with
    | some (name, rest) => afterColon name (dropGap rest)
    | none => none
  else if startsPlain s then
    let taken := takePlain false s
    afterColon (String.ofList (dropGapAtEnd taken.1)) taken.2
  else none
where
  afterColon (name : String) (rest : List Char) : Option (String × List Char) :=
    match rest with
    | ':' :: rest => if rest.head?.all isGap then some (name, rest) else none
    | _ => none

/-- Whether a line starts an item of a sequence. -/
def isItem (content : List Char) : Bool :=
  match content with
  | '-' :: rest => rest.head?.all isGap
  | _ => false

/-- A scalar on the rest of a line, or a collection that starts there. -/
def inlineValue (s : List Char) (lines : List Line) : Option (Datum × List Line) :=
  if startsFlow s then flowOver s lines
  else if startsQuoted s then
    match scanQuoted s with
    | some (text, rest) => if isNothing rest then some (.text text, lines) else none
    | none => none
  else if startsPlain s then
    let taken := takePlain false s
    if isNothing taken.2 then some (.plain (String.ofList (dropGapAtEnd taken.1)), lines) else none
  else none

mutual

/-- The node that the next lines hold, if they are indented by at least `least`. -/
def node : Nat → Nat → List Line → Option (Datum × List Line)
  | 0, _, _ => none
  | _ + 1, _, [] => some (emptyNode, [])
  | bound + 1, least, line :: lines =>
    if line.indent < least then some (emptyNode, line :: lines)
    else if isItem line.content then
      (sequence bound line.indent (line :: lines)).map fun r => (.list r.1, r.2)
    else if !startsFlow line.content && (cutKey? line.content).isSome then
      (mapping bound line.indent (line :: lines)).map fun r => (.record r.1, r.2)
    else inlineValue line.content lines

/-- The items of a sequence at an indentation. -/
def sequence : Nat → Nat → List Line → Option (List Datum × List Line)
  | 0, _, _ => none
  | _ + 1, _, [] => some ([], [])
  | bound + 1, indent, line :: lines =>
    if line.indent < indent then some ([], line :: lines)
    else if line.indent > indent then none
    else if !isItem line.content then some ([], line :: lines)
    else
      let rest := line.content.drop 1
      let inner := dropGap rest
      let item :=
        if isNothing rest then node bound (indent + 1) lines
        else
          node bound (indent + 1) (⟨indent + 1 + (rest.length - inner.length), inner⟩ :: lines)
      match item with
      | none => none
      | some (datum, lines) => (sequence bound indent lines).map fun r => (datum :: r.1, r.2)

/-- The pairs of a mapping at an indentation. -/
def mapping : Nat → Nat → List Line → Option (List (String × Datum) × List Line)
  | 0, _, _ => none
  | _ + 1, _, [] => some ([], [])
  | bound + 1, indent, line :: lines =>
    if line.indent < indent then some ([], line :: lines)
    else if line.indent > indent then none
    else
      match cutKey? line.content with
      | none => none
      | some (name, rest) =>
        let value :=
          if isNothing rest then
            match lines with
            | next :: _ =>
              if next.indent = indent && isItem next.content then
                (sequence bound indent lines).map fun r => (.list r.1, r.2)
              else node bound (indent + 1) lines
            | [] => some (emptyNode, [])
          else inlineValue (dropGap rest) lines
        match value with
        | none => none
        | some (datum, lines) =>
          (mapping bound indent lines).map fun r => ((name, datum) :: r.1, r.2)

end

/-! ## Documents -/

/-- The lines of a text that hold more than gaps and comments; none where a tabulator indents. -/
def linesOf? (text : List Char) : Option (List Line) :=
  ((Text.splitAt '\n' text).mapM fun line =>
    let line := line.filter (· != '\r')
    let indent := (line.takeWhile (· == ' ')).length
    let content := line.drop indent
    if isNothing content then some [] else
      if content.head? == some '\t' then none else some [(⟨indent, content⟩ : Line)]).map
    List.flatten

/-- Whether a line is the mark given. -/
def Line.isMark (line : Line) (mark : String) : Bool :=
  line.indent == 0 && mark.toList.isPrefixOf line.content &&
    isNothing (line.content.drop mark.length)

/-- The lines before the mark of the document's end, which may stand last. -/
def dropEnd (lines : List Line) : List Line :=
  match lines.reverse with
  | line :: rest => if line.isMark "..." then rest.reverse else lines
  | [] => []

/-- Whether a line starts a document and holds a value behind the mark. -/
def Line.startsValue (line : Line) : Bool :=
  line.indent == 0 && "---".toList.isPrefixOf line.content &&
    (line.content.drop 3).head?.any isGap && !isNothing (line.content.drop 3)

/-- The one document of a text with a value on the line of its start, or on the lines below. -/
def document (bound : Nat) (lines : List Line) : Option (Datum × List Line) :=
  match lines with
  | line :: rest =>
    if line.startsValue then inlineValue (dropGap (line.content.drop 3)) (dropEnd rest)
    else node bound 0 (dropEnd (if line.isMark "---" then rest else lines))
  | [] => node bound 0 []

/-- Reads a YAML text. A mark of the byte order may come first. -/
def read (text : String) : Option Datum := do
  let s := match text.toList with
    | '\ufeff' :: rest => rest
    | s => s
  let lines ← linesOf? s
  if (dropEnd (lines.drop 1)).any fun line =>
      line.isMark "---" || line.startsValue || line.isMark "..." then none
  else
    match document (4 * s.length + 4) lines with
    | some (datum, []) => some datum
    | _ => none

end PublicationAudit.Yaml
