/-!
# Searching text

Replacing a fixed pattern, and cutting text at the last occurrence of a character. All functions
work on lists of characters, from left to right, and a replaced piece is never searched again.
-/

namespace PublicationAudit.Text

/-- Replaces the pattern from left to right; `skip` characters still belong to the occurrence
replaced last. -/
def replaceFrom (pattern replacement : List Char) : Nat → List Char → List Char
  | _, [] => []
  | skip + 1, _ :: cs => replaceFrom pattern replacement skip cs
  | 0, c :: cs =>
    if pattern.isPrefixOf (c :: cs) then
      replacement ++ replaceFrom pattern replacement (pattern.length - 1) cs
    else
      c :: replaceFrom pattern replacement 0 cs

/-- Every occurrence of a nonempty pattern, found from left to right without overlap, gives way to
the replacement. -/
def replaceAll (pattern replacement text : String) : String :=
  String.ofList (replaceFrom pattern.toList replacement.toList 0 text.toList)

/-- The characters after the last occurrence of `sep`, or all of them when there is none. -/
def afterLast (sep : Char) (s : List Char) : List Char :=
  (s.reverse.takeWhile (· != sep)).reverse

/-- Whether the pattern occurs somewhere in the text. -/
def occursIn (pattern : List Char) : List Char → Bool
  | [] => pattern.isEmpty
  | c :: cs => pattern.isPrefixOf (c :: cs) || occursIn pattern cs

/-- The pieces between the occurrences of `sep`, in order; there is always at least one. -/
def splitAt (sep : Char) : List Char → List (List Char)
  | [] => [[]]
  | c :: cs =>
    if c = sep then
      [] :: splitAt sep cs
    else
      match splitAt sep cs with
      | [] => [[c]]
      | piece :: pieces => (c :: piece) :: pieces

/-- Lower case for the letters of ASCII; every other character stays. -/
def lowerAscii (s : String) : String :=
  String.ofList (s.toList.map Char.toLower)

/-- What follows the last occurrence ends the text. -/
theorem afterLast_suffix (sep : Char) (s : List Char) : afterLast sep s <:+ s := by
  have h := List.takeWhile_prefix (p := (· != sep)) (l := s.reverse)
  simpa [afterLast] using List.reverse_suffix.2 h

end PublicationAudit.Text
