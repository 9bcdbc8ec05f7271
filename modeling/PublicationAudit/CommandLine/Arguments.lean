import PublicationAudit.Text.Numeral

/-!
# Arguments of the command line

Arguments are read from left to right. An option waits for its value until the next option or the
end; some options may be given by the environment instead. Errors come in the order in which the
arguments are completed.
-/

namespace PublicationAudit.CommandLine

/-- What can be given on the command line. -/
inductive Parameter where
  | document
  | shapes
  | config
  | noCrawl
  | offlineDir
  | maxConcurrentFetches
  | retryCount
  | timeoutSecs
  | proxy
  | pretty
  | help
  | version
  deriving DecidableEq, Repr

namespace Parameter

/-- All parameters in the order of the help text. -/
def all : List Parameter :=
  [document, shapes, config, noCrawl, offlineDir, maxConcurrentFetches, retryCount, timeoutSecs,
   proxy, pretty, help, version]

/-- The name after two hyphens. -/
def name : Parameter → String
  | document => "document"
  | shapes => "shapes"
  | config => "config"
  | noCrawl => "no-crawl"
  | offlineDir => "offline-dir"
  | maxConcurrentFetches => "max-concurrent-fetches"
  | retryCount => "retry-count"
  | timeoutSecs => "timeout-secs"
  | proxy => "proxy"
  | pretty => "pretty"
  | help => "help"
  | version => "version"

/-- What a value is called in the help text; none for a parameter without a value. -/
def valueName? : Parameter → Option String
  | document => some "FILE"
  | shapes => some "FILE"
  | config => some "FILE"
  | offlineDir => some "DIR"
  | maxConcurrentFetches => some "N"
  | retryCount => some "N"
  | timeoutSecs => some "SECS"
  | proxy => some "URL"
  | noCrawl => none
  | pretty => none
  | help => none
  | version => none

/-- What the help text says about a parameter. -/
def description : Parameter → String
  | document => "Publication to validate (format from extension)"
  | shapes => "Shape definitions (format from extension)"
  | config => "Path to a configuration file (TOML, YAML or JSON)"
  | noCrawl => "Validate the document as is, without dereferencing entities"
  | offlineDir => "Resolve entity references from RDF files in this directory"
  | maxConcurrentFetches => "Maximum number of dereferences in flight"
  | retryCount => "Retries per failed dereference"
  | timeoutSecs => "Timeout per dereference request"
  | proxy => "Proxy for dereference requests"
  | pretty => "Pretty-print the JSON report"
  | help => "Print help"
  | version => "Print version"

/-- What the name of an environment variable ends in, for parameters that it can give. -/
def variableName? : Parameter → Option String
  | offlineDir => some "OFFLINE_DIR"
  | maxConcurrentFetches => some "MAX_CONCURRENT_FETCHES"
  | retryCount => some "RETRY_COUNT"
  | timeoutSecs => some "TIMEOUT_SECS"
  | proxy => some "PROXY"
  | _ => none

/-- The parameter with a name. -/
def ofName? (name : String) : Option Parameter := all.find? (·.name = name)

/-- The parameter with a single letter. -/
def ofLetter? : Char → Option Parameter
  | 'h' => some help
  | 'V' => some version
  | _ => none

end Parameter

/-- Why arguments cannot be used, or what is shown instead of a run. -/
inductive ArgumentError where
  | unknownArgument (argument : String)
  /-- The value of an option is missing, or empty where a path has to be. -/
  | missingValue (parameter : Parameter)
  /-- The value of an option is no number in its range. -/
  | invalidNumber (parameter : Parameter) (value : String)
  | repeated (parameter : Parameter)
  /-- A parameter without a value was given one. -/
  | unexpectedValue (parameter : Parameter)
  | missingParameters (parameters : List Parameter)
  | helpRequested
  | versionRequested
  deriving DecidableEq, Repr

/-- Values by parameter; a parameter without a value has the empty one. -/
abbrev Given := List (Parameter × String)

/-- The arguments of a run. -/
structure Arguments where
  document : String
  shapes : String
  config : Option String := none
  noCrawl : Bool := false
  offlineDir : Option String := none
  maxConcurrentFetches : Option Nat := none
  retryCount : Option Nat := none
  timeoutSecs : Option Nat := none
  proxy : Option String := none
  isPretty : Bool := false
  deriving DecidableEq, Repr

/-! ## Values -/

/-- A count of retries. Zero may have a minus sign. -/
def readRetryCount? (value : String) : Option Nat :=
  match value.toList with
  | '-' :: digits => (Text.readDigits? digits).filter (· = 0)
  | _ => Text.readUnsigned? Text.maxCount32 value

/-- Checks the value of a parameter. -/
def checkValue (parameter : Parameter) (value : String) : Except ArgumentError Unit :=
  let path := if value = "" then Except.error (ArgumentError.missingValue parameter) else .ok ()
  let number (n : Option Nat) : Except ArgumentError Unit :=
    if n.isSome then .ok () else .error (.invalidNumber parameter value)
  match parameter with
  | .document => path
  | .shapes => path
  | .config => path
  | .offlineDir => path
  | .maxConcurrentFetches => number (Text.readUnsigned? Text.maxCount64 value)
  | .retryCount => number (readRetryCount? value)
  | .timeoutSecs => number (Text.readUnsigned? Text.maxCount64 value)
  | _ => .ok ()

/-- Adds a parameter with its value. -/
def give (given : Given) (parameter : Parameter) (value : String) : Except ArgumentError Given := do
  if (given.lookup parameter).isSome then throw (.repeated parameter)
  checkValue parameter value
  return given ++ [(parameter, value)]

/-! ## Reading -/

/-- Arguments read so far: what is complete, and the option that may still take a value. -/
structure Reading where
  given : Given := []
  pending : Option (Parameter × Option String) := none

/-- Completes the option that is pending. -/
def Reading.settle (reading : Reading) : Except ArgumentError Given :=
  match reading.pending with
  | none => .ok reading.given
  | some (parameter, none) => .error (.missingValue parameter)
  | some (parameter, some value) => give reading.given parameter value

/-- Takes a parameter without a value. -/
def Reading.takeFlag (reading : Reading) (parameter : Parameter) :
    Except ArgumentError Reading := do
  let given ← reading.settle
  match parameter with
  | .help => throw .helpRequested
  | .version => throw .versionRequested
  | parameter => return { given := ← give given parameter "" }

/-- Takes an argument that starts with two hyphens: a name, and perhaps a value after an equals
sign. -/
def Reading.takeNamed (reading : Reading) (argument : String) (name : List Char) :
    Except ArgumentError Reading := do
  let value? := match name.dropWhile (· != '=') with
    | _ :: rest => some (String.ofList rest)
    | [] => none
  match Parameter.ofName? (String.ofList (name.takeWhile (· != '='))) with
  | none => throw (.unknownArgument argument)
  | some parameter =>
    match parameter.valueName?, value? with
    | some _, none => return { given := ← reading.settle, pending := some (parameter, none) }
    | some _, some value =>
      return { given := ← give (← reading.settle) parameter value }
    | none, none => reading.takeFlag parameter
    | none, some _ => throw (.unexpectedValue parameter)

/-- Takes an argument. -/
def Reading.take (reading : Reading) (argument : String) : Except ArgumentError Reading :=
  match argument.toList with
  | '-' :: '-' :: name => reading.takeNamed argument name
  | ['-', letter] =>
    match Parameter.ofLetter? letter with
    | some parameter => reading.takeFlag parameter
    | none => .error (.unknownArgument argument)
  | '-' :: letter :: _ =>
    match Parameter.ofLetter? letter with
    | some parameter => reading.takeFlag parameter
    | none => .error (.unknownArgument argument)
  | _ =>
    match reading.pending with
    | some (parameter, none) => .ok { reading with pending := some (parameter, some argument) }
    | _ => .error (.unknownArgument argument)

/-- Reads all arguments. After two hyphens alone nothing may follow. -/
def readAll (reading : Reading) : List String → Except ArgumentError Given
  | [] => reading.settle
  | "--" :: rest =>
    match rest with
    | [] => reading.settle
    | argument :: _ => .error (.unknownArgument argument)
  | argument :: rest => do readAll (← reading.take argument) rest

/-- Adds what the environment gives for parameters that the arguments leave out. -/
def addEnvironment (environment : String → Option String) (given : Given) :
    Except ArgumentError Given :=
  Parameter.all.foldlM (fun given parameter => do
    match given.lookup parameter, parameter.variableName?.bind environment with
    | none, some value => give given parameter value
    | _, _ => return given) given

/-- The arguments of a run from what is given. -/
def ofGiven (given : Given) : Except ArgumentError Arguments :=
  match given.lookup .document, given.lookup .shapes with
  | some document, some shapes =>
    .ok
      { document, shapes
        config := given.lookup .config
        noCrawl := (given.lookup .noCrawl).isSome
        offlineDir := given.lookup .offlineDir
        maxConcurrentFetches :=
          (given.lookup .maxConcurrentFetches).bind (Text.readUnsigned? Text.maxCount64)
        retryCount := (given.lookup .retryCount).bind readRetryCount?
        timeoutSecs := (given.lookup .timeoutSecs).bind (Text.readUnsigned? Text.maxCount64)
        proxy := given.lookup .proxy
        isPretty := (given.lookup .pretty).isSome }
  | document, shapes =>
    .error (.missingParameters
      ((if document.isNone then [.document] else []) ++ (if shapes.isNone then [.shapes] else [])))

/-- Reads the arguments of a run. Environment variables are named by the part after the common
start of their names. -/
def Arguments.read (environment : String → Option String) (arguments : List String) :
    Except ArgumentError Arguments := do
  ofGiven (← addEnvironment environment (← readAll {} arguments))

end PublicationAudit.CommandLine
