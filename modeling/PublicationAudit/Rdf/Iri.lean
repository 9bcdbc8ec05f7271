import PublicationAudit.Text.Escape
import PublicationAudit.Text.Search

/-!
# IRI references

A reference is cut into its five components, checked component by component, and resolved against a
base. What is cut is put together again unchanged: see `Reference.write_cut`.
-/

namespace PublicationAudit.Rdf

/-- The components of an IRI reference. -/
structure Reference where
  scheme : Option (List Char)
  authority : Option (List Char)
  path : List Char
  query : Option (List Char)
  fragment : Option (List Char)
  deriving DecidableEq, Repr

/-- Cuts text at the first occurrence of a separator, which belongs to neither part. -/
def cutFirst (sep : Char) (s : List Char) : List Char × Option (List Char) :=
  (s.takeWhile (· != sep), (s.dropWhile (· != sep)).tail?)

/-- Whether text can be a scheme: a letter, then letters, digits, plus, minus and period. -/
def isScheme : List Char → Bool
  | [] => false
  | first :: rest =>
    first.isAlpha && rest.all fun c => c.isAlphanum || c == '+' || c == '-' || c == '.'

namespace Reference

/-- The text of a reference. -/
def write (r : Reference) : List Char :=
  (match r.scheme with | some s => s ++ [':'] | none => []) ++
  (match r.authority with | some a => '/' :: '/' :: a | none => []) ++ r.path ++
  (match r.query with | some q => '?' :: q | none => []) ++
  (match r.fragment with | some f => '#' :: f | none => [])

/-- Cuts off the authority, which two slashes announce and the next slash ends. -/
def cutAuthority : List Char → Option (List Char) × List Char
  | '/' :: '/' :: rest => (some (rest.takeWhile (· != '/')), rest.dropWhile (· != '/'))
  | path => (none, path)

/-- Cuts off the scheme where the text before the first colon is one. -/
def cutScheme (s : List Char) : Option (List Char) × List Char :=
  match cutFirst ':' s with
  | (scheme, some rest) => if isScheme scheme then (some scheme, rest) else (none, s)
  | (_, none) => (none, s)

/-- Cuts a reference into its components. -/
def cut (s : List Char) : Reference :=
  let (beforeFragment, fragment) := cutFirst '#' s
  let (beforeQuery, query) := cutFirst '?' beforeFragment
  let (scheme, hierarchy) := cutScheme beforeQuery
  let (authority, path) := cutAuthority hierarchy
  ⟨scheme, authority, path, query, fragment⟩

end Reference

/-! ## Characters -/

/-- Characters outside ASCII that every component takes. -/
def isInternational (c : Char) : Bool :=
  let n := c.toNat
  (0xA0 ≤ n && n ≤ 0xD7FF) || (0xF900 ≤ n && n ≤ 0xFDCF) || (0xFDF0 ≤ n && n ≤ 0xFFEF) ||
    (0x10000 ≤ n && n ≤ 0xDFFFD && n % 0x10000 ≤ 0xFFFD) || (0xE1000 ≤ n && n ≤ 0xEFFFD)

/-- Characters of private use, which only a query takes. -/
def isPrivateUse (c : Char) : Bool :=
  let n := c.toNat
  (0xE000 ≤ n && n ≤ 0xF8FF) || (0xF0000 ≤ n && n ≤ 0xFFFFD) || (0x100000 ≤ n && n ≤ 0x10FFFD)

/-- Characters that stand for themselves in every component. -/
def isIriCharacter (c : Char) : Bool :=
  c.isAlphanum || "-._~!$&'()*+,;=".toList.contains c || isInternational c

/-- Whether text holds only the given characters and percent signs with two hexadecimal digits. -/
def allEncoded (isPlain : Char → Bool) : List Char → Bool
  | [] => true
  | '%' :: a :: b :: rest => Text.isHexDigit a && Text.isHexDigit b && allEncoded isPlain rest
  | c :: rest => c != '%' && isPlain c && allEncoded isPlain rest

/-! ## Hosts -/

/-- Whether text is a number from 0 to 255 without leading zeros. -/
def isOctet (s : List Char) : Bool :=
  !s.isEmpty && s.length ≤ 3 && s.all Char.isDigit && (s.length == 1 || s.head? != some '0') &&
    s.foldl (fun n d => 10 * n + (d.toNat - '0'.toNat)) 0 ≤ 255

/-- Whether text is four octets between periods. -/
def isIpv4 (s : List Char) : Bool :=
  let octets := Text.splitAt '.' s
  octets.length == 4 && octets.all isOctet

/-- How many groups of 16 bits the pieces between colons stand for: an address of version 4 in last
place stands for two. -/
def groupCount? : List (List Char) → Option Nat
  | [] => some 0
  | [last] =>
    if isIpv4 last then some 2
    else if !last.isEmpty && last.length ≤ 4 && last.all Text.isHexDigit then some 1
    else none
  | piece :: rest =>
    if !piece.isEmpty && piece.length ≤ 4 && piece.all Text.isHexDigit then
      (groupCount? rest).map (· + 1)
    else none

/-- The text before and after the first double colon. -/
def cutDoubleColon : List Char → Option (List Char × List Char)
  | ':' :: ':' :: rest => some ([], rest)
  | c :: rest => (cutDoubleColon rest).map fun parts => (c :: parts.1, parts.2)
  | [] => none

/-- The number of groups in text without double colon; empty text has none. -/
def groupsIn? (s : List Char) : Option Nat :=
  if s.isEmpty then some 0 else groupCount? (Text.splitAt ':' s)

/-- Whether text is an address of version 6: eight groups, or fewer around one double colon. -/
def isIpv6 (s : List Char) : Bool :=
  match cutDoubleColon s with
  | none => groupsIn? s == some 8
  | some (before, after) =>
    match groupsIn? before, groupsIn? after with
    | some m, some n => m + n ≤ 7 && !before.contains '.'
    | _, _ => false

/-- Whether text is an address of a version to come. -/
def isFutureAddress : List Char → Bool
  | v :: rest =>
    match cutFirst '.' rest with
    | (version, some address) =>
      (v == 'v' || v == 'V') && !version.isEmpty && version.all Text.isHexDigit &&
        !address.isEmpty && address.all (fun c => isIriCharacter c || c == ':')
    | (_, none) => false
  | [] => false

/-- Whether text is nothing, or a colon and digits. -/
def isPort : List Char → Bool
  | [] => true
  | c :: digits => c == ':' && digits.all Char.isDigit

/-- Whether text is a host with an optional port. -/
def isHost : List Char → Bool
  | '[' :: rest =>
    match cutFirst ']' rest with
    | (address, some port) => (isIpv6 address || isFutureAddress address) && isPort port
    | (_, none) => false
  | host =>
    allEncoded isIriCharacter (host.takeWhile (· != ':')) && isPort (host.dropWhile (· != ':'))

/-- Whether text is an authority: a host, before which a user may stand. -/
def isAuthority (s : List Char) : Bool :=
  match cutFirst '@' s with
  | (user, some host) => allEncoded (fun c => isIriCharacter c || c == ':') user && isHost host
  | (host, none) => isHost host

/-! ## Validity and resolution -/

namespace Reference

/-- Whether every component holds only what it may hold. -/
def isValid (r : Reference) : Bool :=
  let inPath := fun c => isIriCharacter c || c == ':' || c == '@' || c == '/'
  r.authority.all isAuthority && allEncoded inPath r.path &&
    r.query.all (allEncoded fun c => inPath c || c == '?' || isPrivateUse c) &&
    r.fragment.all (allEncoded fun c => inPath c || c == '?')

/-- One segment after another is added to a path, given with its last segment first: a single period
adds nothing and two periods take the last segment back. -/
def addSegment (reversed : List (List Char)) (segment : List Char) : List (List Char) :=
  if segment = ['.'] then reversed
  else if segment = ['.', '.'] then reversed.tail
  else segment :: reversed

/-- The segments of an absolute path without dot segments. A dot segment in last place leaves an
empty segment behind. -/
def cleanSegments (segments : List (List Char)) : List (List Char) :=
  let kept := (segments.foldl addSegment []).reverse
  match segments.getLast? with
  | some last => if last = ['.'] ∨ last = ['.', '.'] then kept ++ [[]] else kept
  | none => kept

/-- An absolute path without dot segments; other paths stay. -/
def cleanPath : List Char → List Char
  | '/' :: rest => (cleanSegments (Text.splitAt '/' rest)).flatMap ('/' :: ·)
  | path => path

/-- The path of a relative reference placed beside the last segment of the base. -/
def mergePaths (base : Reference) (path : List Char) : List Char :=
  if base.authority.isSome && base.path.isEmpty then '/' :: path
  else (base.path.reverse.dropWhile (· != '/')).reverse ++ path

/-- The reference that `r` stands for where `base` is the base. -/
def resolve (base r : Reference) : Reference :=
  if r.scheme.isSome then r
  else if r.authority.isSome then
    { r with scheme := base.scheme, path := cleanPath r.path }
  else
    match r.path with
    | [] => { base with query := r.query <|> base.query, fragment := r.fragment }
    | '/' :: _ =>
      { base with path := cleanPath r.path, query := r.query, fragment := r.fragment }
    | path =>
      { base with
        path := cleanPath (mergePaths base path), query := r.query, fragment := r.fragment }

end Reference

/-- Reads an absolute IRI. -/
def absoluteIri? (text : String) : Option Reference :=
  let r := Reference.cut text.toList
  if r.scheme.isSome && r.isValid then some r else none

/-- Whether text is an absolute IRI. -/
def isAbsoluteIri (text : String) : Bool := (absoluteIri? text).isSome

/-- The absolute IRI that a reference stands for. Without a base it has to be absolute itself. -/
def resolveIri? (base : Option Reference) (text : String) : Option String :=
  match base with
  | none => if isAbsoluteIri text then some text else none
  | some base =>
    let r := Reference.cut text.toList
    if r.isValid then some (String.ofList (base.resolve r).write) else none

/-- What was cut at a separator joins again with the separator between. -/
theorem join_cutFirst (sep : Char) (s : List Char) :
    (cutFirst sep s).1 ++
      (match (cutFirst sep s).2 with | some r => sep :: r | none => []) = s := by
  induction s with
  | nil => rfl
  | cons c rest ih =>
    by_cases h : c = sep
    · simp [cutFirst, h]
    · simpa [cutFirst, h] using ih

namespace Reference

/-- The scheme and what follows it join again. -/
theorem join_cutScheme (s : List Char) :
    (match (cutScheme s).1 with | some scheme => scheme ++ [':'] | none => []) ++ (cutScheme s).2 =
      s := by
  have h := join_cutFirst ':' s
  unfold cutScheme
  rcases hc : cutFirst ':' s with ⟨scheme, _ | rest⟩
  · rfl
  · rw [hc] at h
    by_cases hs : isScheme scheme = true
    · simpa [hs] using h
    · simp [hs]

/-- The authority and the path join again. -/
theorem join_cutAuthority (s : List Char) :
    (match (cutAuthority s).1 with | some a => '/' :: '/' :: a | none => []) ++ (cutAuthority s).2 =
      s := by
  fun_cases cutAuthority s <;> simp

/-- Cutting loses nothing. -/
theorem write_cut (s : List Char) : (cut s).write = s := by
  have hf := join_cutFirst '#' s
  have hq := join_cutFirst '?' (cutFirst '#' s).1
  have hs := join_cutScheme (cutFirst '?' (cutFirst '#' s).1).1
  have ha := join_cutAuthority (cutScheme (cutFirst '?' (cutFirst '#' s).1).1).2
  simp only [write, cut]
  rw [← ha] at hs
  rw [← hs] at hq
  rw [← hq] at hf
  simpa [List.append_assoc] using hf

end Reference

end PublicationAudit.Rdf
