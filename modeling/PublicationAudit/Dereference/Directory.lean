import PublicationAudit.Dereference.Offline
import PublicationAudit.Files
import PublicationAudit.Rdf.Reader

/-!
# Offline copies in a directory

The files of a directory whose extension names a format of offline copies make up a library. One
file that cannot be read fails the whole.
-/

namespace PublicationAudit

/-- Reads the facts of the file at a path in the format that its extension says. -/
def readFacts (files : Files) (scope path : String) : Except Failure (List Fact) := do
  let format ← Rdf.Format.ofPath path
  let bytes ← (files.read path).mapError .file
  Rdf.readBytes format none scope bytes

namespace OfflineLibrary

/-- The extensions of offline copies. Anything else in the directory is left alone. -/
def extensions : List String := ["ttl", "nt", "nq", "trig", "n3", "rdf", "jsonld"]

/-- Whether a file name has the extension of an offline copy, in either case. -/
def isCopy (name : String) : Bool :=
  match Rdf.pathExtension? name with
  | some extension => extensions.contains (Text.lowerAscii extension)
  | none => false

/-- The copies among the entries of a directory, by name. -/
def copies (entries : List (String × FileTree)) : List (String × ByteArray) :=
  entries.filterMap fun entry =>
    match entry.2 with
    | .file bytes => if isCopy entry.1 then some (entry.1, bytes) else none
    | .directory _ => none

/-- Reads a copy. Its name keeps its anonymous nodes apart from those of the others. -/
def readCopy (name : String) (bytes : ByteArray) : Except Failure (List Fact) := do
  Rdf.readBytes (← Rdf.Format.ofPath name) none (Rdf.scopeOf "copy" name) bytes

/-- The library of the entries of a directory, given how a copy is read. -/
def ofEntries (read : String → ByteArray → Except Failure (List Fact))
    (entries : List (String × FileTree)) : Except Failure OfflineLibrary := do
  return ofFiles (← (copies entries).mapM fun copy => read copy.1 copy.2)

/-- The library of the directory at a path. -/
def ofDirectory (files : Files) (path : String) : Except Failure OfflineLibrary := do
  ofEntries readCopy (← (files.list path).mapError .file)

end OfflineLibrary

end PublicationAudit
