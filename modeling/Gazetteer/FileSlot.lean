/-!
# A place for one file

Programs that keep their data in one file see of the file system what is at the file's path and
whether the directory around it exists.  A `FileSlot` is that much of it, with the operations that
such a program needs.  Each either succeeds or names its problem.  An operation that fails changes
nothing, except for a write that ends early: it has emptied the file before it puts the text there,
and `spoiled` is what it leaves.
-/

namespace Gazetteer

/-- What the program may do with a file besides reading it. -/
structure FileAccess where
  writable : Bool
  removable : Bool
deriving DecidableEq, Repr

/-- What stands in a file. -/
inductive FileContents where
  | text (text : String)
  /-- Bytes that are no text. -/
  | bytes
deriving DecidableEq, Repr

/-- How a write ends on a disk that may have no room. -/
inductive WriteEnd where
  | whole
  /-- After so many characters of the text. -/
  | cut (n : Nat)
  /-- Inside a character. -/
  | torn
deriving DecidableEq, Repr

/-- What is at a path. -/
inductive FileState where
  /-- Not even the directory around it. -/
  | noDirectory
  /-- Nothing, and the directory around it cannot be made, as a file is in its place. -/
  | blocked
  /-- Nothing, in a directory that takes no file. -/
  | closed
  | absent
  | file (text : String)
  /-- A file that may be closed to writing, or to removal. -/
  | restricted (text : String) (access : FileAccess)
  /-- A file, or none yet, on a disk that has no room at times, and how the next writes end; those
  after them end well. -/
  | unsteady (file : Option FileContents) (writes : List WriteEnd)
  | directory
deriving DecidableEq, Repr

/-- What could not be done. -/
inductive FileProblem where
  | unreadable
  | unparsable
  | noDirectory
  | unwritable
  | unremovable
deriving DecidableEq, Repr

structure FileSlot where
  path : String
  /-- The path of the directory around the file. -/
  parent : String
  state : FileState
deriving DecidableEq, Repr

namespace FileSlot

/-- Whether anything is at the path. -/
def occupied (s : FileSlot) : Bool :=
  match s.state with
  | .file _ | .restricted .. | .unsteady (some _) _ | .directory => true
  | _ => false

def read (s : FileSlot) : Except FileProblem String :=
  match s.state with
  | .file text | .restricted text _ | .unsteady (some (.text text)) _ => .ok text
  | _ => .error .unreadable

/-- Makes the directory around the file. -/
def makeParent (s : FileSlot) : Except FileProblem FileSlot :=
  match s.state with
  | .noDirectory => .ok { s with state := .absent }
  | .blocked => .error .noDirectory
  | _ => .ok s

/-- Writes a text over whatever the file holds. -/
def write (s : FileSlot) (text : String) : Except FileProblem FileSlot :=
  match s.state with
  | .absent | .file _ => .ok { s with state := .file text }
  | .restricted _ access =>
    if access.writable then .ok { s with state := .restricted text access } else .error .unwritable
  | .unsteady _ [] => .ok { s with state := .unsteady (some (.text text)) [] }
  | .unsteady _ (.whole :: writes) => .ok { s with state := .unsteady (some (.text text)) writes }
  | _ => .error .unwritable

/-- What a write of a text leaves that fails.  If it ended early, at least the last character is
missing. -/
def spoiled (s : FileSlot) (text : String) : FileSlot :=
  match s.state with
  | .unsteady _ (.cut n :: writes) =>
    let beginning := String.ofList (text.toList.dropLast.take n)
    { s with state := .unsteady (some (.text beginning)) writes }
  | .unsteady _ (.torn :: writes) => { s with state := .unsteady (some .bytes) writes }
  | _ => s

def remove (s : FileSlot) : Except FileProblem FileSlot :=
  match s.state with
  | .file _ => .ok { s with state := .absent }
  | .restricted _ access =>
    if access.removable then .ok { s with state := .absent } else .error .unremovable
  | .unsteady (some _) writes => .ok { s with state := .unsteady none writes }
  | _ => .error .unremovable

end FileSlot

/-- The files that the program keeps. -/
inductive FileRole where
  | cache
  | config
deriving DecidableEq, Repr

/-- A problem with one of the program's files. -/
structure FileFault where
  role : FileRole
  problem : FileProblem
  path : String
deriving DecidableEq, Repr

namespace FileFault

/-- The fault that a problem with a file is. -/
def of (role : FileRole) (s : FileSlot) (problem : FileProblem) : FileFault :=
  ⟨role, problem, if problem = .noDirectory then s.parent else s.path⟩

def message (f : FileFault) : String :=
  let role := match f.role with
    | .cache => "cache"
    | .config => "config"
  let task := match f.problem with
    | .unreadable => "read " ++ role ++ " file"
    | .unparsable => "parse " ++ role ++ " file"
    | .noDirectory => "create " ++ role ++ " directory"
    | .unwritable => "write " ++ role ++ " file"
    | .unremovable => "remove " ++ role ++ " file"
  "Failed to " ++ task ++ ": " ++ f.path

end FileFault

end Gazetteer
