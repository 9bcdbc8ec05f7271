import PublicationAudit.CommandLine.Messages

/-!
# The program

Reads the files that the arguments name, runs the audit and prints what comes of it. This build
fetches nothing from the network, so a crawl finds documents only in an offline directory.
-/

namespace PublicationAudit.Program

open CommandLine

/-- What an error of the system means for a run. -/
def fileFailure : IO.Error → FileFailure
  | .noFileOrDirectory .. => .notFound
  | .inappropriateType _ 20 _ => .notADirectory
  | .inappropriateType _ 21 _ => .isADirectory
  | error => .other (toString error)

/-- Reads an entry of a directory if it is an offline copy. -/
def readCopy? (entry : IO.FS.DirEntry) : IO (Option (String × FileTree)) := do
  match ← entry.path.metadata.toBaseIO with
  | .ok data =>
    if data.type == .file && OfflineLibrary.isCopy entry.fileName then
      return some (entry.fileName, .file (← IO.FS.readBinFile entry.path))
    else return none
  | .error _ => return none

/-- Reads what a path leads to. Of a directory, only the offline copies are read. -/
def readPath (path : String) : IO (Except FileFailure FileTree) := do
  try
    let place ← IO.FS.realPath path
    if ← place.isDir then
      return .ok (.directory (← (← place.readDir).toList.filterMapM readCopy?))
    return .ok (.file (← IO.FS.readBinFile place))
  catch error => return .error (fileFailure error)

/-- Reads what each of some paths leads to. Other paths lead nowhere. -/
def readPaths (paths : List String) : IO Files := do
  let read ← paths.mapM fun path => return (path, ← readPath path)
  return fun path => (read.lookup path).getD (.error .notFound)

/-- The offline directory of a run, if it has one. -/
def offlineDirectory? (files : Files) (arguments : Arguments) : Option String :=
  let file := arguments.config.bind fun path => (FileSettings.load files path).toOption
  (Settings.layer (.ofArguments arguments) (file.getD {}) {}).crawl.offlineDirectory

/-- Two hexadecimal digits. -/
def hexByte (byte : UInt8) : String :=
  String.ofList [Nat.digitChar (byte.toNat / 16), Nat.digitChar (byte.toNat % 16)]

/-- A new random identifier of a run. -/
def newRunId : IO String := do
  let bytes := (← IO.getRandomBytes 16).toList
  let marked := bytes.mapIdx fun place byte =>
    if place = 6 then byte % 16 + 0x40 else if place = 8 then byte % 64 + 0x80 else byte
  let digits := marked.map hexByte
  let groups := [(0, 4), (4, 2), (6, 2), (8, 2), (10, 6)]
  return String.intercalate "-" (groups.map fun (start, size) =>
    String.join ((digits.drop start).take size))

/-- The environment variables that stand for parameters, by the ends of their names. -/
def readEnvironment : IO (String → Option String) := do
  let given ← (Parameter.all.filterMap Parameter.variableName?).mapM fun ending =>
    return (ending, ← IO.getEnv (variableStart ++ ending))
  return fun ending => (given.lookup ending).join

/-- Runs the audit that the arguments describe. -/
def runAudit (arguments : Arguments) : IO Ending := do
  let inputs := arguments.config.toList ++ [arguments.document, arguments.shapes]
  let files ← readPaths inputs
  let files ← readPaths (inputs ++ (offlineDirectory? files arguments).toList)
  let runId ← newRunId
  return endingOfRun (run files Http.Transport.isolated runId arguments)

/-- Answers a call. -/
def answer (arguments : List String) : IO UInt32 := do
  let ending ← match Arguments.read (← readEnvironment) arguments with
    | .ok arguments => runAudit arguments
    | .error error => pure error.ending
  if ending.toErrors then IO.eprint ending.text else IO.print ending.text
  return ending.status

end PublicationAudit.Program

/-- The entry point. -/
def main (arguments : List String) : IO UInt32 := PublicationAudit.Program.answer arguments
