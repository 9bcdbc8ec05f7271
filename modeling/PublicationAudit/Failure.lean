/-!
# Failures

Most defects of a publication are findings and end up in the report. The conditions here stop a
run. A failure is a cause; `Failure.message` is the one place that words it.
-/

namespace PublicationAudit

/-- Why a file or directory could not be read. -/
inductive FileFailure where
  | notFound
  | isADirectory
  | notADirectory
  | other (reason : String)
  deriving DecidableEq, Repr, Inhabited

/-- The wording of a file failure. -/
def FileFailure.message : FileFailure → String
  | notFound => "No such file or directory (os error 2)"
  | isADirectory => "Is a directory (os error 21)"
  | notADirectory => "Not a directory (os error 20)"
  | other reason => reason

/-- What stops a run. -/
inductive Failure where
  /-- A shape declares no target class. -/
  | missingTargetClass (shape : String)
  /-- Text is not in the named format. -/
  | unreadable (format reason : String)
  /-- A media type or file extension names no known format. -/
  | unsupportedFormat (name : String)
  /-- Text that has to be an IRI is none. -/
  | invalidIri (iri reason : String)
  /-- The query store refuses. -/
  | store (reason : String)
  /-- A document could not be fetched. -/
  | fetch (uri reason : String)
  /-- A setting cannot be used. -/
  | configuration (reason : String)
  /-- The observer of the run stopped it. -/
  | aborted (reason : String)
  /-- A file could not be read. -/
  | file (cause : FileFailure)
  deriving DecidableEq, Repr, Inhabited

namespace Failure

/-- The wording of a failure without the reason that a reader or a connection gave for it. -/
def summary : Failure → String
  | missingTargetClass shape => "shape '" ++ shape ++ "' declares no sh:targetClass"
  | unreadable format _ => "failed to parse " ++ format ++ " input"
  | unsupportedFormat name => "unsupported RDF format '" ++ name ++ "'"
  | invalidIri iri _ => "invalid IRI '" ++ iri ++ "'"
  | store _ => "fact store failure"
  | fetch uri _ => "failed to fetch '" ++ uri ++ "'"
  | configuration reason => "invalid configuration: " ++ reason
  | aborted reason => "validation run aborted: " ++ reason
  | file cause => cause.message

/-- The reason that completes the summary, where there is one. -/
def reason? : Failure → Option String
  | unreadable _ reason => some reason
  | invalidIri _ reason => some reason
  | store reason => some reason
  | fetch _ reason => some reason
  | _ => none

/-- The wording of a failure. -/
def message (failure : Failure) : String :=
  match failure.reason? with
  | none => failure.summary
  | some reason => failure.summary ++ ": " ++ reason

end Failure

end PublicationAudit
