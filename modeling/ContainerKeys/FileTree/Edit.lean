import ContainerKeys.FileTree.Basic
import ContainerKeys.Text.Blank

/-!
# Changing a file tree

Files are written through links, directories are made with the directories above them, and entries
are removed with all that is below them.

* `FileTree.write`, `FileTree.ensurePath` — files and directories put in.
* `FileTree.remove` — an entry taken out; a directory may lose what is below it and stay itself.
-/

namespace ContainerKeys

/-- The entries with one put under a name: in the place of the old one, or at the end. -/
def Entry.setChild (name : String) (new : Entry) : List (String × Entry) → List (String × Entry)
  | [] => [(name, new)]
  | (n, e) :: rest => if n = name then (n, new) :: rest else (n, e) :: setChild name new rest

/-- Changes the entry at a place: `change` is given the old entry, if there is one, and says what
stands there instead, if anything does. -/
def Entry.alter (change : Option Entry → Option Entry) : FileTree.Route → Option Entry → Option Entry
  | [], old => change old
  | _ :: _, none => none
  | name :: rest, some old =>
    match alter change rest (old.child? name) with
    | some new => some (.folder (setChild name new old.entries) old.listable)
    | none => some (.folder (old.entries.filter fun c => c.1 ≠ name) old.listable)

namespace FileTree

/-- The tree with another entry at a place. -/
def setAt (t : FileTree) (route : Route) (new : Entry) : FileTree :=
  match Entry.alter (fun _ => some new) route (some t.root) with
  | some root => { t with root }
  | none => t

/-- The tree without the entry at a place. -/
def removeAt (t : FileTree) (route : Route) : FileTree :=
  match Entry.alter (fun _ => none) route (some t.root) with
  | some root => { t with root }
  | none => t

/-- Writes a file: in the place of the old one, or under a free name. -/
def write (t : FileTree) (p : Path) (bytes : Bytes) : Except FileFault FileTree :=
  match t.follow .writing p with
  | .ok (.found route (.file _)) => .ok (t.setAt route (.file bytes))
  | .ok (.found ..) => .error ⟨.isFolder, p⟩
  | .ok (.free folder name) => .ok (t.setAt (folder ++ [name]) (.file bytes))
  | .error e => .error ⟨e, p⟩

/-- Puts a link under a free name. -/
def writeLink (t : FileTree) (p target : Path) : Except FileFault FileTree :=
  match t.follow .entry p with
  | .ok (.found ..) => .error ⟨.exists, p⟩
  | .ok (.free folder name) => .ok (t.setAt (folder ++ [name]) (.link target))
  | .error e => .error ⟨e, p⟩

/-- Makes one directory under a free name. -/
def makeFolder (t : FileTree) (p : Path) : Except FileFault FileTree :=
  match t.follow .entry p with
  | .ok (.found ..) => .error ⟨.exists, p⟩
  | .ok (.free folder name) => .ok (t.setAt (folder ++ [name]) (.folder []))
  | .error e => .error ⟨e, p⟩

/-- A directory path taken apart: its leading slashes and its names. -/
structure FolderPath where
  mark : List Char
  names : List (List Char)

/-- Takes a path apart; empty parts and single dots are dropped. -/
def FolderPath.ofPath (p : Path) : FolderPath :=
  ⟨Path.rootMark p.toList, (Path.parts p.toList).filter fun part => part ≠ [] ∧ part ≠ ['.']⟩

/-- The path of leading slashes and names. -/
def FolderPath.render (mark : List Char) (names : List (List Char)) : Path :=
  match mark ++ Text.joinWith '/' names with
  | [] => "."
  | p => String.ofList p

/-- Makes a directory, unless it is there. -/
def ensureFolder (t : FileTree) (p : Path) : Except FileFault FileTree :=
  match t.makeFolder p with
  | .ok t => .ok t
  | .error e =>
    if e.error ≠ .notFound ∧ t.isFolder p then .ok t else .error e

/-- Makes a directory and those above it, unless they are there. The names come in reverse. -/
def ensureFolders (t : FileTree) (mark : List Char) :
    (reversed : List (List Char)) → Except FileFault FileTree
  | [] => t.ensureFolder (FolderPath.render mark [])
  | name :: above =>
    let p := FolderPath.render mark (name :: above).reverse
    match t.ensureFolder p with
    | .error ⟨.notFound, _⟩ =>
      match ensureFolders t mark above with
      | .ok t => t.ensureFolder p
      | .error e => .error e
    | result => result

/-- The directory that a path stands in. -/
def FolderPath.parentOf (p : Path) : Path :=
  let whole := FolderPath.ofPath p
  FolderPath.render whole.mark whole.names.dropLast

/-- Makes the directory that a path stands in, with those above it, unless they are there. -/
def ensureParent (t : FileTree) (p : Path) : Except FileFault FileTree :=
  let whole := FolderPath.ofPath p
  t.ensureFolders whole.mark whole.names.dropLast.reverse

/-- Makes the directory at a path, with those above it, unless they are there. -/
def ensurePath (t : FileTree) (p : Path) : Except FileFault FileTree :=
  let whole := FolderPath.ofPath p
  t.ensureFolders whole.mark whole.names.reverse

/-! ## Removing -/

/-- The last step of a path: the directory it is taken in, the name, and whether a slash follows it. -/
structure LastStep where
  folder : Route
  name : String
  slash : Bool

/-- Follows a path up to its last step. -/
def lastStep (t : FileTree) (p : Path) : Except FileError LastStep := do
  let names ← t.namesAlong p
  let bare := Text.dropEndWhile (· = "") names
  match ← followNames t.root .target linkLimit [] bare.dropLast with
  | .found folder (.folder ..) => return ⟨folder, bare.getLast?.getD ".", bare.length < names.length⟩
  | .found .. => throw .notFolder
  | .free .. => throw .notFound

/-- The entry that a last step leads to, no link followed. -/
def LastStep.entry (t : FileTree) (s : LastStep) : Except FileError Entry :=
  if nameLimit < s.name.utf8ByteSize then .error .nameTooLong
  else
    match entryAt t.root (s.folder ++ [s.name]) with
    | some e => .ok e
    | none => .error .notFound

/-- Takes a file or a link out. A slash after its name asks for a directory. -/
def unlink (t : FileTree) (p : Path) : Except FileError FileTree := do
  let step ← t.lastStep p
  match ← step.entry t with
  | .folder .. => throw .isFolder
  | _ => if step.slash then throw .notFolder else return t.removeAt (step.folder ++ [step.name])

/-- Takes an empty directory out. It has to be called by its name: neither by dots nor through a link. -/
def removeFolder (t : FileTree) (p : Path) : Except FileError FileTree := do
  let step ← t.lastStep p
  if step.name = "." then throw .invalid
  else if step.name = ".." then throw .notEmpty
  else
    match ← step.entry t with
    | .folder [] _ => return t.removeAt (step.folder ++ [step.name])
    | .folder .. => throw .notEmpty
    | _ => throw .notFolder

/-- What is left after a removal, and what went wrong with it. -/
structure Removal where
  files : FileTree
  fault : Option FileFault := none

/-- The tree as a removal leaves it: a current directory that is no more is forgotten. -/
def settle (t : FileTree) : FileTree :=
  { t with cwd := t.cwd.filter t.isFolder }

/-- The removal that an attempt amounts to; if it fails, the tree is `t`. -/
def Removal.ofAttempt (t : FileTree) (p : Path) : Except FileError FileTree → Removal
  | .ok after => ⟨after.settle, none⟩
  | .error e => ⟨t.settle, some ⟨e, p⟩⟩

/-- Removes the entry at a path. A directory is first rid of all that is below it, so that much is done
even if the directory itself cannot be removed. -/
def remove (t : FileTree) (p : Path) : Removal :=
  match t.follow .entry p with
  | .ok (.found route (.folder _ listable)) =>
    let cleared := t.setAt route (.folder [] listable)
    .ofAttempt cleared p (cleared.removeFolder p)
  | _ => .ofAttempt t p (t.unlink p)

end FileTree

end ContainerKeys
