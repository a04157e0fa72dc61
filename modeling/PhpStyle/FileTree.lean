import PhpStyle.Text.Blank

/-!
# File trees

The tree of files and directories that paths lead through.

* `FileTree.walk` — follows the steps of a path. A step to the directory above stays at the root,
  and every directory on the way has to be there, also one that a later step leaves again.
* `FileTree.read` — the text of the file at the end of a path, or the `ReadFailure` that says why
  there is none.
* `FileTree.standard`, `FileTree.workSteps` — the tree and the place in it where a program is
  started, unless its caller knows better: the usual directories of a system.
-/

namespace PhpStyle

/-- Why a file cannot be read. -/
inductive ReadFailure where
  /-- There is no such file. -/
  | notFound
  /-- The path leads through a file. -/
  | notDirectory
  /-- The path leads to a directory. -/
  | isDirectory
  /-- The path or a component of it is too long. -/
  | nameTooLong
  /-- The path has a null character. -/
  | nullCharacter
  deriving DecidableEq, Repr

/-- The wording of the failure. -/
def ReadFailure.message : ReadFailure → String
  | notFound => "No such file or directory (os error 2)"
  | notDirectory => "Not a directory (os error 20)"
  | isDirectory => "Is a directory (os error 21)"
  | nameTooLong => "File name too long (os error 36)"
  | nullCharacter => "file name contained an unexpected NUL byte"

/-- A file or a directory. -/
inductive FileTree where
  /-- A file with its text. -/
  | file (text : String)
  /-- A directory with its entries. -/
  | directory (entries : List (String × FileTree))

namespace FileTree

/-- The length in bytes that a component of a path may have. -/
def maxComponent : Nat := 255

/-- The length in bytes that a path may have. -/
def maxLength : Nat := 4095

/-- Follows the steps of a path from a node, where `above` holds the directories that lead to the
node, the nearest one first. -/
def walk (above : List FileTree) : FileTree → List String → Except ReadFailure FileTree
  | node, [] => .ok node
  | file _, _ :: _ => .error .notDirectory
  | directory entries, step :: steps =>
    if step = "" ∨ step = "." then walk above (directory entries) steps
    else if step = ".." then
      match above with
      | [] => walk [] (directory entries) steps
      | parent :: others => walk others parent steps
    else if maxComponent < step.utf8ByteSize then .error .nameTooLong
    else
      match entries.lookup step with
      | none => .error .notFound
      | some node => walk (directory entries :: above) node steps

/-- The components of a path. -/
def steps (path : String) : List String :=
  (Text.pieces '/' path.toList).map String.ofList

/-- Reads the file at the end of a path. A path that does not begin at the root begins at the
directory to which the steps `start` lead. -/
def read (root : FileTree) (start : List String) (path : String) : Except ReadFailure String :=
  if path.toList.contains '\x00' then .error .nullCharacter
  else if path.isEmpty then .error .notFound
  else if maxLength < path.utf8ByteSize then .error .nameTooLong
  else
    match root.walk [] (if path.startsWith "/" then steps path else start ++ steps path) with
    | .ok (file text) => .ok text
    | .ok (directory _) => .error .isDirectory
    | .error cause => .error cause

/-! ## The usual directories -/

/-- A directory with directories that have no entries. -/
def shelf (names : List String) : FileTree := directory (names.map (·, directory []))

/-- The directories of programs and their data. -/
def programs : FileTree := directory [
  ("bin", shelf []), ("games", shelf []), ("include", shelf []), ("lib", shelf []),
  ("local", shelf ["bin", "etc", "games", "include", "lib", "sbin", "share", "src"]),
  ("sbin", shelf []), ("share", shelf []), ("src", shelf [])]

/-- The usual directories of a system, with an empty one in which programs are started. -/
def standard : FileTree := directory [
  ("bin", shelf []), ("boot", shelf []),
  ("dev", directory [("fd", shelf []), ("null", file ""), ("pts", shelf []), ("shm", shelf [])]),
  ("etc", directory [("hosts", file "127.0.0.1 localhost\n"),
    ("passwd", file "root:x:0:0:root:/root:/bin/sh\n")]),
  ("home", shelf []), ("lib", shelf []), ("media", shelf []),
  ("mnt", shelf []), ("opt", shelf []), ("proc", shelf ["self", "sys"]), ("root", shelf []),
  ("run", shelf ["lock"]), ("sbin", shelf []), ("srv", shelf []), ("sys", shelf []),
  ("tmp", shelf []), ("usr", programs),
  ("var", shelf ["backups", "cache", "lib", "local", "lock", "log", "mail", "opt", "run", "spool",
    "tmp"]),
  ("work", shelf [])]

/-- The steps from the root to the directory in which programs are started. -/
def workSteps : List String := ["work"]

end FileTree

end PhpStyle
