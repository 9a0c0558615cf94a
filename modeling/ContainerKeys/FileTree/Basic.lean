import ContainerKeys.Path
import ContainerKeys.Text.ByteMark
import ContainerKeys.Text.Quoted

/-!
# File trees

A file tree is a directory with files, links and directories below it. Paths are followed from the
root part by part; links are followed on the way, up to a fixed number of them.

* `FileTree.follow` — where a path leads.
* `FileTree.absolute` — the normal form of a path, read from the current directory.
* `PathFault.checkNull` — whether a path can be handed to the file system at all.
* `FileTree.isFile`, `FileTree.isFolder`, `FileTree.read`, `FileTree.size` — tests and reads.
-/

namespace ContainerKeys

/-- What stands under a name in a directory. -/
inductive Entry where
  | file (bytes : Bytes)
  | link (target : Path)
  /-- A directory. One that may not be listed can be entered all the same. -/
  | folder (entries : List (String × Entry)) (listable : Bool := true)

/-- The entries of a directory. -/
def Entry.entries : Entry → List (String × Entry)
  | .folder entries _ => entries
  | _ => []

/-- May the entry be listed, if it is a directory? -/
def Entry.listable : Entry → Bool
  | .folder _ listable => listable
  | _ => true

/-- The entry under a name in a directory. -/
def Entry.child? (e : Entry) (name : String) : Option Entry :=
  (e.entries.find? fun c => c.1 = name).map Prod.snd

/-- Why a path leads nowhere, or not to what was asked for. -/
inductive FileError where
  | notFound
  | denied
  | exists
  | notFolder
  | isFolder
  | invalid
  | nameTooLong
  | notEmpty
  | tooManyLinks
deriving DecidableEq, Repr

/-- The number of an error. -/
def FileError.number : FileError → Nat
  | .notFound => 2
  | .denied => 13
  | .exists => 17
  | .notFolder => 20
  | .isFolder => 21
  | .invalid => 22
  | .nameTooLong => 36
  | .notEmpty => 39
  | .tooManyLinks => 40

/-- The wording of an error. -/
def FileError.message : FileError → String
  | .notFound => "No such file or directory"
  | .denied => "Permission denied"
  | .exists => "File exists"
  | .notFolder => "Not a directory"
  | .isFolder => "Is a directory"
  | .invalid => "Invalid argument"
  | .nameTooLong => "File name too long"
  | .notEmpty => "Directory not empty"
  | .tooManyLinks => "Too many levels of symbolic links"

/-- An error with the path that was asked for. -/
structure FileFault where
  error : FileError
  path : Path
deriving DecidableEq, Repr

/-- An error with its number. -/
def FileError.numbered (e : FileError) : String :=
  "[Errno " ++ toString e.number ++ "] " ++ e.message

/-- The wording of a fault. -/
def FileFault.message (f : FileFault) : String :=
  f.error.numbered ++ ": " ++ Text.quoted f.path

/-- Why a path cannot be handed to the file system. -/
inductive PathFault where
  /-- It holds a null character. -/
  | nullChar (path : Path)
  /-- It is read from the current directory, which is gone. -/
  | noCwd
deriving DecidableEq, Repr

/-- The wording of a fault. -/
def PathFault.message : PathFault → String
  | .nullChar _ => "embedded null byte"
  | .noCwd => FileError.numbered .notFound

/-- Refuses a path with a null character. -/
def PathFault.checkNull (p : Path) : Except PathFault Unit :=
  if p.toList.contains '\x00' then .error (.nullChar p) else .ok ()

/-- A directory tree from the root. -/
structure FileTree where
  root : Entry
  /-- The directory that relative paths are read from; none once it has been removed. -/
  cwd : Option Path
  /-- How many arrays and objects may be open at once in a manifest that is read. -/
  nestingLimit : Nat := 980

namespace FileTree

/-- The longest name in bytes. -/
def nameLimit : Nat := 255

/-- The longest path in bytes. -/
def pathLimit : Nat := 4095

/-- The most links followed on the way along one path. -/
def linkLimit : Nat := 40

/-- The names of a path from the root to a place, in order. -/
abbrev Route := List String

/-- The entry at a place, no links followed. -/
def entryAt (root : Entry) : Route → Option Entry
  | [] => some root
  | name :: rest =>
    match root.child? name with
    | some e => entryAt e rest
    | none => none

/-- What a path is followed for. -/
inductive Purpose where
  /-- For the entry itself: a link at the end is followed only if a slash stands after it. -/
  | entry
  /-- For what it leads to in the end. -/
  | target
  /-- For a file to write there. A slash at the end, also at the end of a link, rules that out. -/
  | writing
deriving DecidableEq, Repr

/-- Where a path leads. -/
inductive Goal where
  /-- To an entry that exists. -/
  | found (route : Route) (entry : Entry)
  /-- To a name that is free in a directory. -/
  | free (folder : Route) (name : String)

/-- The parts of a path between its slashes, as names. -/
def namesOf (p : Path) : List String :=
  (Path.parts p.toList).map Text.nameOf

/-- Is a name with these names after it the last one, with a slash at the end? -/
def endsInSlash (rest : List String) : Bool :=
  rest ≠ [] && rest.all (· = "")

/-- Walks along names from the directory at `here`. A link that has to be followed is left to `onLink`, which
is told where the names behind it start. -/
def walkNames (root : Entry) (purpose : Purpose) (onLink : Route → List String → Except FileError Goal)
    (here : Route) : List String → Except FileError Goal
  | [] =>
    match entryAt root here with
    | some entry => .ok (.found here entry)
    | none => .error .notFound
  | name :: rest =>
    if name = "" ∨ name = "." then walkNames root purpose onLink here rest
    else if name = ".." then walkNames root purpose onLink here.dropLast rest
    else if purpose = .writing ∧ endsInSlash rest then .error .isFolder
    else if nameLimit < name.utf8ByteSize then .error .nameTooLong
    else
      match entryAt root (here ++ [name]) with
      | none =>
        if rest = [] ∨ endsInSlash rest then .ok (.free here name) else .error .notFound
      | some (.folder ..) => walkNames root purpose onLink (here ++ [name]) rest
      | some (.file bytes) =>
        if rest = [] then .ok (.found (here ++ [name]) (.file bytes)) else .error .notFolder
      | some (.link target) =>
        if rest = [] ∧ purpose = .entry then .ok (.found (here ++ [name]) (.link target))
        else onLink (if Path.isAbsolute target then [] else here) (namesOf target ++ rest)

/-- Follows names from a directory; so many links may be followed. -/
def followNames (root : Entry) (purpose : Purpose) : Nat → Route → List String → Except FileError Goal
  | 0 => walkNames root purpose fun _ _ => .error .tooManyLinks
  | links + 1 => walkNames root purpose (followNames root purpose links)

/-- The names from the root along a path. -/
def namesAlong (t : FileTree) (p : Path) : Except FileError (List String) :=
  if p = "" then .error .notFound
  else if pathLimit < p.utf8ByteSize then .error .nameTooLong
  else if Path.isAbsolute p then .ok (namesOf p)
  else
    match t.cwd with
    | some cwd => .ok (namesOf (Path.join cwd p))
    | none => .error .notFound

/-- Follows a path. -/
def follow (t : FileTree) (purpose : Purpose) (p : Path) : Except FileError Goal := do
  followNames t.root purpose linkLimit [] (← t.namesAlong p)

/-- The entry that a path leads to, links followed. -/
def entry (t : FileTree) (p : Path) : Except FileError Entry :=
  match t.follow .target p with
  | .ok (.found _ e) => .ok e
  | .ok (.free ..) => .error .notFound
  | .error e => .error e

/-- Does the path lead to a file? -/
def isFile (t : FileTree) (p : Path) : Bool :=
  match t.entry p with
  | .ok (.file _) => true
  | _ => false

/-- Does the path lead to a directory? -/
def isFolder (t : FileTree) (p : Path) : Bool :=
  match t.entry p with
  | .ok (.folder ..) => true
  | _ => false

/-- The contents of the file that a path leads to. -/
def read (t : FileTree) (p : Path) : Except FileFault Bytes :=
  match t.entry p with
  | .ok (.file bytes) => .ok bytes
  | .ok _ => .error ⟨.isFolder, p⟩
  | .error e => .error ⟨e, p⟩

/-- The size that a path leads to; a directory counts as empty. -/
def size (t : FileTree) (p : Path) : Except FileFault Nat :=
  match t.entry p with
  | .ok (.file bytes) => .ok bytes.length
  | .ok _ => .ok 0
  | .error e => .error ⟨e, p⟩

/-- The normal form of a path, read from the current directory. -/
def absolute (t : FileTree) (p : Path) : Except PathFault Path :=
  match t.cwd with
  | some cwd => .ok (Path.absolute cwd p)
  | none => if Path.isAbsolute p then .ok (Path.normalize p) else .error .noCwd

end FileTree

end ContainerKeys
