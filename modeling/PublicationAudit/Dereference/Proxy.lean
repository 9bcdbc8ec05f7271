import PublicationAudit.Failure
import PublicationAudit.Rdf.Iri
import PublicationAudit.Text.Numeral

/-!
# Proxies

A proxy is an address of the web: `http` or `https`, a host and perhaps a port. The scheme may be
left out.
-/

namespace PublicationAudit.Proxy

/-- Whether a character may stand in a host name. -/
def isHostCharacter (c : Char) : Bool :=
  0x20 < c.toNat && c.toNat != 0x7F && !"#/:<>?@[\\]^|%".toList.contains c

/-- Whether text is a host: an address of version 6 in brackets, or a name. A name whose last part
is a number is an address of version 4. -/
def isHost (s : List Char) : Bool :=
  match s with
  | '[' :: rest => rest.getLast? == some ']' && Rdf.isIpv6 rest.dropLast
  | _ =>
    let parts := Text.splitAt '.' s
    let isNumber := fun part : List Char => !part.isEmpty && part.all Char.isDigit
    !s.isEmpty && s.all isHostCharacter &&
      (!(parts.getLast?.any isNumber) ||
        (parts.length ≤ 4 && parts.all isNumber &&
          parts.dropLast.all (fun part => Text.digitsValue part ≤ 255)))

/-- Whether text is nothing or a port. -/
def isPort (s : List Char) : Bool :=
  match s with
  | [] => true
  | c :: digits => c == ':' && digits.all Char.isDigit && Text.digitsValue digits ≤ 65535

/-- Cuts an address into its host and its port. -/
def cutPort (s : List Char) : List Char × List Char :=
  match s with
  | '[' :: _ => (s.takeWhile (· != ']') ++ [']'], (s.dropWhile (· != ']')).drop 1)
  | _ => (s.takeWhile (· != ':'), s.dropWhile (· != ':'))

/-- Whether what follows a scheme and its colon names a host. -/
def hasHost (s : List Char) : Bool :=
  let authority := (s.dropWhile fun c => c == '/' || c == '\\').takeWhile fun c =>
    !"/\\?#".toList.contains c
  let address := (authority.reverse.takeWhile (· != '@')).reverse
  let (host, port) := cutPort address
  isHost host && isPort port

/-- The scheme of an address in lower case, with what follows its colon. -/
def cutScheme? (s : List Char) : Option (String × List Char) :=
  match Rdf.cutFirst ':' s with
  | (scheme, some rest) =>
    if Rdf.isScheme scheme then some (Text.lowerAscii (String.ofList scheme), rest) else none
  | (_, none) => none

/-- The characters of an address without spaces and control characters at its end. -/
def trimControlsAtEnd (s : List Char) : List Char :=
  (s.reverse.dropWhile (·.toNat ≤ 0x20)).reverse

/-- The characters of an address without spaces and control characters at both ends. -/
def trimControls (s : List Char) : List Char := trimControlsAtEnd (s.dropWhile (·.toNat ≤ 0x20))

/-- Whether text is the address of a proxy. Text with another scheme and no slashes after it is
taken for a host and a port. -/
def isUsable (proxy : String) : Bool :=
  let s := trimControls proxy.toList
  match cutScheme? s with
  | none => hasHost (trimControlsAtEnd proxy.toList)
  | some (scheme, rest) =>
    if scheme == "http" || scheme == "https" then hasHost rest
    else !"//".toList.isPrefixOf rest && hasHost (trimControlsAtEnd proxy.toList)

/-- Refuses a proxy that cannot be used. -/
def check : Option String → Except Failure Unit
  | none => .ok ()
  | some proxy =>
    if isUsable proxy then .ok ()
    else .error (.configuration ("invalid proxy '" ++ proxy ++ "'"))

end PublicationAudit.Proxy
