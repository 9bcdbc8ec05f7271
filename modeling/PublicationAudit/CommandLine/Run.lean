import PublicationAudit.CommandLine.Arguments
import PublicationAudit.Datum.JsonWriter
import PublicationAudit.Dereference.Directory
import PublicationAudit.Dereference.Proxy
import PublicationAudit.Report.Encode
import PublicationAudit.Settings.Layers
import PublicationAudit.Sparql.Evaluate

/-!
# A run from the command line

From arguments and files to the text of the report. The settings come first, then the document and
the shapes, then the offline copies; the first that fails is what is reported.
-/

namespace PublicationAudit.CommandLine

/-- What was being read when a run failed. -/
inductive Stage where
  | document (path : String)
  | shapes (path : String)
  deriving DecidableEq, Repr

/-- What a stage is called in a message. -/
def Stage.message : Stage → String
  | document path => "failed to read document " ++ SettingsError.showPath path
  | shapes path => "failed to read shapes " ++ SettingsError.showPath path

/-- Why a run has no report. -/
inductive RunError where
  | settings (error : SettingsError)
  | failed (stage : Option Stage) (failure : Failure)

/-- Reads one of the two inputs. -/
def readInput (files : Files) (scope : String) (stage : Stage) (path : String) :
    Except RunError (List Fact) :=
  match readFacts files scope path with
  | .ok facts => .ok facts
  | .error failure => .error (.failed (some stage) failure)

/-- Where documents come from: offline copies if they are set, and the transport otherwise. -/
def dereferencer (files : Files) (transport : Http.Transport) (settings : Settings) :
    Except Failure Dereferencer := do
  match settings.crawl.offlineDirectory with
  | some path => return (← OfflineLibrary.ofDirectory files path).dereference
  | none =>
    Proxy.check settings.fetch.proxy
    return Http.dereference settings.fetchPolicy transport

/-- The text of a report. -/
def writeReport (isPretty : Bool) (runId : String) (report : AuditReport) : String :=
  let datum := report.encode runId
  (if isPretty then Json.indented 0 datum else Json.compact datum) ++ "\n"

/-- Runs an audit and returns the text of its report. -/
def run (files : Files) (transport : Http.Transport) (runId : String) (arguments : Arguments) :
    Except RunError String := do
  let settings ← (Settings.load files (.ofArguments arguments) arguments.config).mapError .settings
  let document ← readInput files "document-" (.document arguments.document) arguments.document
  let shapes ← readInput files "shapes-" (.shapes arguments.shapes) arguments.shapes
  let failing := RunError.failed none
  let dereference ← (dereferencer files transport settings).mapError failing
  let engineFor := Sparql.memoryStore.engineFor .rdf
  let outcome := (auditThrough engineFor dereference settings.auditPolicy .silent document
    shapes).outcome
  return writeReport arguments.isPretty runId (← outcome.mapError failing)

end PublicationAudit.CommandLine
