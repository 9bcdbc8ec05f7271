import PublicationAudit.CommandLine.Run

/-!
# What the command line says

The texts that are shown instead of a report: help, version, and the wording of errors.
-/

namespace PublicationAudit.CommandLine

/-- The name of the program. -/
def programName : String := "publication-validator"

/-- What is shown for a request of the version. -/
def versionText : String := programName ++ " 0.3.0\n"

/-- What the names of environment variables start with. -/
def variableStart : String := "PUBLICATION_VALIDATOR_"

namespace Parameter

/-- A parameter as it is written, with what its value is called. -/
def usage (parameter : Parameter) : String :=
  let name := "--" ++ parameter.name
  match parameter.valueName? with
  | some value => name ++ " <" ++ value ++ ">"
  | none => name

/-- The line about a parameter in the help text. -/
def helpLine (parameter : Parameter) : String :=
  let letter := match parameter with
    | help => "-h, "
    | version => "-V, "
    | _ => "    "
  let environment := match parameter.variableName? with
    | some ending => " [env: " ++ variableStart ++ ending ++ "]"
    | none => ""
  let written := "  " ++ letter ++ parameter.usage
  written ++ String.ofList (List.replicate (43 - written.length) ' ') ++ parameter.description ++
    environment ++ "\n"

end Parameter

/-- How the program is called. -/
def usageText : String :=
  "Usage: " ++ programName ++ " [OPTIONS] " ++ Parameter.usage .document ++ " " ++
    Parameter.usage .shapes ++ "\n"

/-- What is shown for a request of help. -/
def helpText : String :=
  "Validate a local-government publication against its application profile\n\n" ++ usageText ++
    "\nOptions:\n" ++ String.join (Parameter.all.map Parameter.helpLine)

/-- The wording of an error in the arguments. -/
def ArgumentError.message : ArgumentError → String
  | unknownArgument argument => "unexpected argument '" ++ argument ++ "' found"
  | missingValue parameter =>
    "a value is required for '" ++ parameter.usage ++ "' but none was supplied"
  | invalidNumber parameter value =>
    "invalid value '" ++ value ++ "' for '" ++ parameter.usage ++ "'"
  | repeated parameter => "the argument '" ++ parameter.usage ++ "' cannot be used multiple times"
  | unexpectedValue parameter =>
    "unexpected value for '" ++ parameter.usage ++ "' found; no more were expected"
  | missingParameters parameters =>
    "the following required arguments were not provided:" ++
      String.join (parameters.map fun parameter => "\n  " ++ parameter.usage)
  | helpRequested => helpText
  | versionRequested => versionText

/-- The wording of a failed run. -/
def RunError.message : RunError → String
  | settings error => error.message
  | failed none failure => failure.message
  | failed (some stage) failure => stage.message ++ "\n\nCaused by:\n    " ++ failure.message

/-- What a call ends with: a text for one of the two outputs, and a status. -/
structure Ending where
  toErrors : Bool
  text : String
  status : UInt32
  deriving DecidableEq, Repr

/-- How a call ends whose arguments give no run. -/
def ArgumentError.ending : ArgumentError → Ending
  | helpRequested => ⟨false, helpText, 0⟩
  | versionRequested => ⟨false, versionText, 0⟩
  | error =>
    ⟨true, "error: " ++ error.message ++ "\n\n" ++ usageText ++
      "\nFor more information, try '--help'.\n", 2⟩

/-- How a run ends. -/
def endingOfRun : Except RunError String → Ending
  | .ok report => ⟨false, report, 0⟩
  | .error error => ⟨true, "Error: " ++ error.message ++ "\n", 1⟩

end PublicationAudit.CommandLine
