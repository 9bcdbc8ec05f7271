import PublicationAudit.Failure
import PublicationAudit.Text.Search

/-!
# Files

Files and directories, as far as a run looks at them. `Files` says what each path leads to, and is
all that a run sees of a file system. A `FileTree` is a file system of its own: a path is followed
name by name from the root, and what cannot be followed says why.
-/

namespace PublicationAudit

/-- A file with its bytes, or a directory with its entries. -/
inductive FileTree where
  | file (bytes : ByteArray)
  | directory (entries : List (String × FileTree))

namespace FileTree

/-- A directory without entries. -/
def empty : FileTree := directory []

instance : Inhabited FileTree := ⟨empty⟩

/-- The names that a path follows. An absolute path starts with the name `/`, and a path that ends
in a slash ends in the name `.`, which only a directory has. -/
def names (path : String) : List String :=
  let pieces := Text.splitAt '/' path.toList
  let inner := (pieces.filter (!·.isEmpty)).map String.ofList
  (if path.toList.head? = some '/' then ["/"] else []) ++ inner ++
    (if pieces.getLast? = some [] && !inner.isEmpty then ["."] else [])

/-- Follows names from a node; `above` holds the directories that lead to it, the nearest first. -/
def follow : List FileTree → FileTree → List String → Except FileFailure FileTree
  | _, node, [] => .ok node
  | _, file _, _ :: _ => .error .notADirectory
  | above, directory entries, name :: rest =>
    if name = "." then follow above (directory entries) rest
    else if name = ".." then
      match above with
      | parent :: above => follow above parent rest
      | [] => follow [] (directory entries) rest
    else
      match entries.lookup name with
      | some child => follow (directory entries :: above) child rest
      | none => .error .notFound

/-- What a path leads to from the root. -/
def find (tree : FileTree) (path : String) : Except FileFailure FileTree :=
  if path = "" then .error .notFound else follow [] tree (names path)

/-- Puts an entry in the place of an earlier one of its name, or at the end. -/
def putEntry (name : String) (node : FileTree) :
    List (String × FileTree) → List (String × FileTree)
  | [] => [(name, node)]
  | entry :: rest =>
    if entry.1 = name then (name, node) :: rest else entry :: putEntry name node rest

/-- Adds a node where the names lead; directories on the way are made where they are missing. -/
def addAt (node : FileTree) : List String → FileTree → FileTree
  | [], directory entries =>
    match node with
    | directory [] => directory entries
    | node => node
  | [], file _ => node
  | name :: rest, file _ => directory [(name, addAt node rest empty)]
  | name :: rest, directory entries =>
    directory (putEntry name (addAt node rest ((entries.lookup name).getD empty)) entries)

/-- Adds a node at a path. -/
def add (tree : FileTree) (path : String) (node : FileTree) : FileTree :=
  addAt node ((names path).filter (· ≠ ".")) tree

end FileTree

/-! ## Files by path -/

/-- What paths lead to. -/
abbrev Files := String → Except FileFailure FileTree

namespace Files

/-- Whether a path leads somewhere. -/
def contains (files : Files) (path : String) : Bool := (files path).toOption.isSome

/-- Whether a path leads to a directory. -/
def hasDirectory (files : Files) (path : String) : Bool :=
  match files path with
  | .ok (.directory _) => true
  | _ => false

/-- The bytes of the file that a path leads to. -/
def read (files : Files) (path : String) : Except FileFailure ByteArray :=
  match files path with
  | .ok (.file bytes) => .ok bytes
  | .ok (.directory _) => .error .isADirectory
  | .error failure => .error failure

/-- The entries of the directory that a path leads to. -/
def list (files : Files) (path : String) : Except FileFailure (List (String × FileTree)) :=
  match files path with
  | .ok (.directory entries) => .ok entries
  | .ok (.file _) => .error .notADirectory
  | .error failure => .error failure

end Files

end PublicationAudit
