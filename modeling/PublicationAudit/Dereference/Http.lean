import PublicationAudit.Crawl.Basic
import PublicationAudit.Rdf.Reader

/-!
# Fetching documents

A document is fetched by one exchange, and fetched again while attempts are left. What an exchange
is worth is a function of the exchange alone; the retry loop, `retry`, is a function of what the
attempts are worth. It returns the steps that were taken together with the outcome.
-/

namespace PublicationAudit.Http

/-- The media types asked for, in the order of preference. -/
def acceptedTypes : String :=
  "text/turtle, application/n-triples;q=0.9, application/ld+json;q=0.8, application/rdf+xml;q=0.7"

/-- The name under which documents are asked for. -/
def userAgent : String := "publication-validator/0.3.0"

/-- What one attempt at a document came to. -/
inductive Exchange where
  /-- No connection was made, so that nothing was asked for. -/
  | unreachable
  /-- The connection was closed without an answer. -/
  | closed
  | answered (status : Nat) (mediaType : Option String) (body : ByteArray)

/-- Whether the other side saw a request. -/
def Exchange.wasRequested : Exchange → Bool
  | unreachable => false
  | _ => true

/-- The format of a body: by its media type, or Turtle where none is given. -/
def formatOf : Option String → Except Failure Rdf.Format
  | none => .ok .turtle
  | some mediaType =>
    match Rdf.Format.ofMediaType? mediaType with
    | some format => .ok format
    | none => .error (.unsupportedFormat mediaType)

/-- The facts that an exchange yields. References in the body are relative to the document's own
IRI, and its anonymous nodes are kept apart from those of other documents. -/
def Exchange.facts (iri scope : String) : Exchange → Except Failure (List Fact)
  | unreachable => .error (.fetch iri "no connection")
  | closed => .error (.fetch iri "the connection was closed")
  | answered status mediaType body =>
    if 400 ≤ status && status < 600 then .error (.fetch iri ("status " ++ toString status))
    else do Rdf.readBytes (← formatOf mediaType) (some iri) scope body

/-- How often and after what time a failed fetch is tried again, and whether a document that cannot
be fetched counts as one without facts. -/
structure Policy where
  /-- Attempts after the first one. -/
  retryCount : UInt32
  retryDelayMs : Nat
  isLenient : Bool
  deriving DecidableEq, Repr

/-- The number of attempts that a policy counts to. It is a number of 32 bits like the count of
retries, so it is zero for the largest count. -/
def Policy.attempts (policy : Policy) : UInt32 := policy.retryCount + 1

/-- What is returned when no attempt is left. -/
def Policy.giveUp (policy : Policy) (failure : Failure) : Except Failure (List Fact) :=
  if policy.isLenient then .ok [] else .error failure

/-- A step on the way to a document. -/
inductive Step where
  | attempt (number : Nat)
  | wait (ms : Nat)
  deriving DecidableEq, Repr

/-- The attempt that a step is. -/
def Step.attempt? : Step → Option Nat
  | attempt number => some number
  | wait _ => none

/-- What fetching a document came to, and the steps taken for it. -/
structure Fetched where
  outcome : Except Failure (List Fact)
  steps : List Step

/-- The attempts made, by number. -/
def Fetched.attempts (fetched : Fetched) : List Nat := fetched.steps.filterMap Step.attempt?

/-- Tries until an attempt succeeds or none is left. `left` attempts may follow attempt `number`. -/
def retry (policy : Policy) (outcome : Nat → Except Failure (List Fact)) : Nat → Nat → Fetched
  | left, number =>
    match outcome number, left with
    | .ok facts, _ => ⟨.ok facts, [.attempt number]⟩
    | .error failure, 0 => ⟨policy.giveUp failure, [.attempt number]⟩
    | .error _, left + 1 =>
      let rest := retry policy outcome left (number + 1)
      ⟨rest.outcome, .attempt number :: .wait policy.retryDelayMs :: rest.steps⟩

/-- An attempt that succeeds is the last one. -/
theorem retry_of_ok {policy : Policy} {outcome : Nat → Except Failure (List Fact)}
    {left number : Nat} {facts : List Fact} (h : outcome number = .ok facts) :
    retry policy outcome left number = ⟨.ok facts, [.attempt number]⟩ := by
  unfold retry
  rw [h]

/-- A failed attempt is the last one when none is left. -/
theorem retry_zero_of_error {policy : Policy} {outcome : Nat → Except Failure (List Fact)}
    {number : Nat} {failure : Failure} (h : outcome number = .error failure) :
    retry policy outcome 0 number = ⟨policy.giveUp failure, [.attempt number]⟩ := by
  unfold retry
  rw [h]

/-- A failed attempt is followed by a wait and the next attempt while one is left. -/
theorem retry_succ_of_error {policy : Policy} {outcome : Nat → Except Failure (List Fact)}
    {left number : Nat} {failure : Failure} (h : outcome number = .error failure) :
    retry policy outcome (left + 1) number =
      ⟨(retry policy outcome left (number + 1)).outcome,
        .attempt number :: .wait policy.retryDelayMs ::
          (retry policy outcome left (number + 1)).steps⟩ := by
  conv => lhs; unfold retry
  rw [h]

/-- Fetches a document: at least one attempt is made. -/
def fetch (policy : Policy) (outcome : Nat → Except Failure (List Fact)) : Fetched :=
  retry policy outcome (policy.attempts.toNat - 1) 0

/-- What attempts at the document of an IRI come to, by their number. -/
abbrev Transport := String → Nat → Exchange

/-- A transport without a network. -/
def Transport.isolated : Transport := fun _ _ => .unreachable

/-- Keeps the anonymous nodes of the document of an IRI apart from those of other documents. -/
def scopeOf (iri : String) : String := Rdf.scopeOf "fetched" iri

/-- Fetches documents over a transport. -/
def dereference (policy : Policy) (transport : Transport) : Dereferencer := fun iri =>
  (fetch policy fun number => (transport iri number).facts iri (scopeOf iri)).outcome

end PublicationAudit.Http
