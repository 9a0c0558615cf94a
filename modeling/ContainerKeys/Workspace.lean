import ContainerKeys.Code.Grammar
import ContainerKeys.FileTree.Basic
import ContainerKeys.Json.Reader

/-!
# Workspaces

What the index is built from: a file tree and a parser.
-/

namespace ContainerKeys

/-- A file tree and the parser for its sources. -/
structure Workspace where
  files : FileTree
  parser : Code.Parser

/-- Why a source file gives nothing. -/
inductive SourceFault where
  | unreadable (fault : FileFault)
  | unparsed (fault : Code.ParseFault)
  | undecodable (fault : Utf8.Fault)
  /-- A manifest that the file leads to is nested too deep. -/
  | tooDeep (fault : Json.TooDeep)
deriving DecidableEq, Repr

/-- The wording of a fault. -/
def SourceFault.message : SourceFault → String
  | .unreadable fault => fault.message
  | .unparsed fault => fault.message
  | .undecodable fault => fault.message
  | .tooDeep fault => fault.message

/-- Reads and parses a file. -/
def Workspace.load (w : Workspace) (file : Path) : Except SourceFault (Bytes × Code.Node) :=
  match w.files.read file with
  | .error fault => .error (.unreadable fault)
  | .ok bytes =>
    match Code.parse w.parser file bytes with
    | .error fault => .error (.unparsed fault)
    | .ok root => .ok (bytes, root)

end ContainerKeys
