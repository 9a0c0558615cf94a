import ContainerKeys.Code.Outline
import ContainerKeys.FileTree.Edit
import ContainerKeys.Json.Basic
import ContainerKeys.Workspace

/-!
# Snapshots

A workspace written as JSON: a list of entries, each with its path. A source file comes with its syntax
tree as an outline, so that a snapshot holds all that an index is built from.
-/

namespace ContainerKeys.Snapshot

open Code

/-- What an entry puts at its path. -/
inductive Content where
  | file (bytes : Bytes)
  | folder
  | link (target : Path)

/-- An entry of a snapshot. -/
structure Item where
  path : Path
  content : Content
  /-- The syntax tree, if the file has a grammar. -/
  tree : Option Node

/-- A number that is not negative. -/
def natOf? (j : Json) : Option Nat :=
  match j with
  | .int (.ofNat n) => some n
  | _ => none

/-- A row of an outline: depth, kind, start, end, and possibly field and flags. -/
def rowOf? (j : Json) : Option Row := do
  match ← j.arr? with
  | depth :: kind :: start :: stop :: more =>
    let field := ((more.head?.bind Json.str?).filter (· ≠ "")).map Field.ofName
    let flags := (((more.drop 1).head?.bind Json.str?).getD "").toList
    return {
      depth := ← natOf? depth
      label := {
        kind := Kind.ofName (← kind.str?)
        start := ← natOf? start
        stop := ← natOf? stop
        field
        named := !flags.contains 'A'
        missing := flags.contains 'M' } }
  | _ => none

/-- The value of a byte given by two hexadecimal digits, for all bytes in a row. -/
def bytesOfHex? : List Char → Option Bytes
  | [] => some []
  | [_] => none
  | a :: b :: rest => do
    let digit (c : Char) : Option Nat :=
      if c.isDigit then some (c.toNat - '0'.toNat)
      else if 'a' ≤ c ∧ c ≤ 'f' then some (c.toNat - 'a'.toNat + 10)
      else if 'A' ≤ c ∧ c ≤ 'F' then some (c.toNat - 'A'.toNat + 10)
      else none
    let high ← digit a
    let low ← digit b
    return UInt8.ofNat (16 * high + low) :: (← bytesOfHex? rest)

/-- What an entry puts at its path. -/
def contentOf? (j : Json) : Option Content :=
  match j.field? "text", j.field? "hex", j.field? "link", j.field? "dir" with
  | some (.str text), _, _, _ => some (.file (Utf8.encode text))
  | _, some (.str hex), _, _ => (bytesOfHex? hex.toList).map .file
  | _, _, some (.str target), _ => some (.link target)
  | _, _, _, some (.bool true) => some .folder
  | _, _, _, _ => none

/-- Reads an entry. -/
def itemOf? (j : Json) : Option Item := do
  let path ← (← j.field? "path").str?
  let content ← contentOf? j
  match j.field? "tree" with
  | some (.arr rows) => return ⟨path, content, Outline.toNode? (← rows.mapM rowOf?)⟩
  | _ => return ⟨path, content, none⟩

/-- Puts an entry into a file tree, with the directories above it. -/
def place (files : FileTree) (item : Item) : Except FileFault FileTree := do
  match item.content with
  | .folder => files.ensurePath item.path
  | .file bytes => (← files.ensureParent item.path).write item.path bytes
  | .link target => (← files.ensureParent item.path).writeLink item.path target

/-- A file tree with nothing but the current directory. -/
def bare (cwd : Path) : FileTree :=
  let files : FileTree := { root := .folder [], cwd := some cwd }
  (files.ensurePath cwd).toOption.getD files

/-- Puts entries into a file tree; those that do not fit are left out. -/
def placeAll (files : FileTree) (items : List Item) : FileTree :=
  items.foldl (fun files item => (place files item).toOption.getD files) files

/-- A text with its grammar and its tree. -/
structure Sample where
  grammar : Grammar
  bytes : Bytes
  tree : Node

/-- The sample of an entry. -/
def sampleOf? (item : Item) : Option Sample := do
  let grammar ← Grammar.ofExtension? (Path.extension item.path)
  let tree ← item.tree
  match item.content with
  | .file bytes => some ⟨grammar, bytes, tree⟩
  | _ => none

/-- The parser that knows the texts of a list of entries. A text that is known under another grammar
only has the tree of that one; an unknown text has an empty tree. -/
def parserOf (items : List Item) : Parser :=
  let samples := items.filterMap sampleOf?
  fun grammar bytes =>
    let known := samples.filter (·.bytes = bytes)
    match (known.find? (·.grammar = grammar)).or known.head? with
    | some sample => sample.tree
    | none => .mk { kind := .other "program", start := 0, stop := bytes.length } []

/-- The workspace of a snapshot. -/
def workspaceOf? (j : Json) : Option Workspace := do
  let cwd := ((j.field? "cwd").bind Json.str?).getD "/"
  let items ← (← (← j.field? "files").arr?).mapM itemOf?
  return ⟨placeAll (bare cwd) items, parserOf items⟩

end ContainerKeys.Snapshot
