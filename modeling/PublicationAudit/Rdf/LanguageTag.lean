import PublicationAudit.Text.Search

/-!
# Language tags

Whether text is a well-formed language tag: a language of letters, then script, region and variants
in this order, then extensions and a private part, each announced by a single character. A few old
tags are well-formed although they follow no rule.
-/

namespace PublicationAudit.Rdf.LanguageTag

/-- Tags registered before the rules were made, in lower case. -/
def registeredBefore : List String :=
  ["art-lojban", "cel-gaulish", "en-gb-oed", "i-ami", "i-bnn", "i-default", "i-enochian", "i-hak",
   "i-klingon", "i-lux", "i-mingo", "i-navajo", "i-pwn", "i-tao", "i-tay", "i-tsu", "no-bok",
   "no-nyn", "sgn-be-fr", "sgn-be-nl", "sgn-ch-de", "zh-guoyu", "zh-hakka", "zh-min", "zh-min-nan",
   "zh-xiang"]

/-- What the last part of a tag was, and so what may follow. -/
inductive Position where
  | start
  /-- After a language of two or three letters and so many extensions of it. -/
  | language (extensions : Nat)
  /-- After a language that takes no extension of its own. -/
  | longLanguage
  | script
  | regionOrVariant
  /-- In an extension; the flag says whether a part has to follow. -/
  | extension (isOpen : Bool)
  /-- In the private part; the flag says whether a part has to follow. -/
  | privatePart (isOpen : Bool)
  deriving DecidableEq, Repr

/-- Whether a script can follow. -/
def Position.beforeScript : Position → Bool
  | language _ => true
  | longLanguage => true
  | _ => false

/-- Whether a region can follow. -/
def Position.beforeRegion (p : Position) : Bool := p.beforeScript || p == .script

/-- Whether a variant can follow. -/
def Position.beforeVariant (p : Position) : Bool := p.beforeRegion || p == .regionOrVariant

/-- Whether nothing has to follow. -/
def Position.isFinal : Position → Bool
  | extension isOpen => !isOpen
  | privatePart isOpen => !isOpen
  | start => false
  | _ => true

/-- Whether a part has the form of a variant: five characters or more, or four after a digit. -/
def isVariant (part : List Char) : Bool :=
  match part with
  | [] => false
  | first :: _ => (first.isAlpha && 5 ≤ part.length) || (first.isDigit && 4 ≤ part.length)

/-- The position after one more part of letters and digits. -/
def advance (position : Position) (part : List Char) : Option Position :=
  let letters := part.all Char.isAlpha
  match position with
  | .start =>
    if letters && 2 ≤ part.length then
      some (if part.length < 4 then .language 0 else .longLanguage)
    else none
  | .privatePart _ => some (.privatePart false)
  | position =>
    if part.length == 1 then
      if position == .extension true then none
      else if part == ['x'] then some (.privatePart true)
      else some (.extension true)
    else
      match position with
      | .extension _ => some (.extension false)
      | position =>
        match position, letters && part.length == 3 with
        | .language n, true => if n < 3 then some (.language (n + 1)) else none
        | _, _ =>
          if position.beforeScript && letters && part.length == 4 then some .script
          else if position.beforeRegion && (letters && part.length == 2 ||
              part.all Char.isDigit && part.length == 3) then some .regionOrVariant
          else if position.beforeVariant && isVariant part then some .regionOrVariant
          else none

/-- The position after all parts; a part has one to eight letters and digits. -/
def advanceAll : Position → List (List Char) → Option Position
  | position, [] => some position
  | position, part :: parts =>
    if part.isEmpty || 8 < part.length || !part.all Char.isAlphanum then none
    else (advance position part).bind fun next => advanceAll next parts

/-- Whether text is a well-formed language tag. -/
def isWellFormed (tag : String) : Bool :=
  let lower := Text.lowerAscii tag
  registeredBefore.contains lower ||
    match lower.toList with
    | 'x' :: '-' :: rest => !rest.isEmpty && rest.all fun c => c.isAlphanum || c == '-'
    | chars => (advanceAll .start (Text.splitAt '-' chars)).any Position.isFinal

end PublicationAudit.Rdf.LanguageTag
