import PublicationAudit.Text.Search

/-!
# Log settings

Where log lines go and how they are written, read from named variables. A value that is not
recognised keeps the default.
-/

namespace PublicationAudit

/-- How log lines are written. -/
inductive LogFormat where
  | json
  | pretty
  deriving DecidableEq, Repr, Inhabited

/-- Where log lines go. -/
inductive LogOutput where
  | stdout
  | stderr
  | file
  deriving DecidableEq, Repr, Inhabited

/-- The format with the given name; letters of ASCII match in either case. -/
def LogFormat.ofName? (text : String) : Option LogFormat :=
  match Text.lowerAscii text with
  | "json" => some json
  | "pretty" => some pretty
  | _ => none

/-- The output with the given name; letters of ASCII match in either case. -/
def LogOutput.ofName? (text : String) : Option LogOutput :=
  match Text.lowerAscii text with
  | "stdout" => some stdout
  | "stderr" => some stderr
  | "file" => some file
  | _ => none

/-- All settings of the log. -/
structure LogSettings where
  format : LogFormat
  output : LogOutput
  directory : String
  fileStem : String
  rotatesDaily : Bool
  environment : String
  deriving DecidableEq, Repr

/-- Production environments log one object a line. -/
def isProduction (environment : String) : Bool :=
  environment == "production" || environment == "prod"

/-- The settings that the variables give. -/
def LogSettings.ofVariables (lookup : String → Option String) : LogSettings :=
  let environment := (lookup "ENVIRONMENT" <|> lookup "ENV").getD "development"
  { format := ((lookup "LOG_FORMAT").bind LogFormat.ofName?).getD
      (if isProduction environment then .json else .pretty)
    output := ((lookup "LOG_OUTPUT").bind LogOutput.ofName?).getD .stderr
    directory := (lookup "LOG_DIR").getD "logs"
    fileStem := "publication-validator"
    rotatesDaily := true
    environment := environment }

end PublicationAudit
