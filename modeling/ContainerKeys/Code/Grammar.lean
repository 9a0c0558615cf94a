import ContainerKeys.Code.Source
import ContainerKeys.Path

/-!
# Grammars

The extension of a path picks the grammar that its text is parsed with. The parser itself is a
collaborator: any function from grammars and bytes to trees. A tree with an error in it is refused.
-/

namespace ContainerKeys.Code

/-- A grammar. -/
inductive Grammar where
  | javaScript
  | typeScript
  | tsx
deriving DecidableEq, Repr

/-- The short name of a grammar. -/
def Grammar.name : Grammar → String
  | .javaScript => "js"
  | .typeScript => "ts"
  | .tsx => "tsx"

/-- The extensions of source files, in the order in which they are tried. -/
def sourceExtensions : List String :=
  [".js", ".jsx", ".mjs", ".cjs", ".ts", ".tsx"]

/-- The grammar for an extension. -/
def Grammar.ofExtension? (extension : String) : Option Grammar :=
  if extension = ".ts" then some .typeScript
  else if extension = ".tsx" then some .tsx
  else if extension ∈ sourceExtensions then some .javaScript
  else none

/-- A parser: the tree of a text under a grammar. -/
abbrev Parser := Grammar → Bytes → Node

/-- Why a source is not parsed. -/
inductive ParseFault where
  /-- There is no grammar for the extension. -/
  | noGrammar (extension : String)
  /-- There is an error near the line, counted from one. -/
  | flaw (line : Nat)
deriving DecidableEq, Repr

/-- The wording of a fault. -/
def ParseFault.message : ParseFault → String
  | .noGrammar extension => "no parser available for '" ++ extension ++ "' files"
  | .flaw line => "syntax error near line " ++ toString line

/-- The line of the first error of a tree, counted from one; the line of the root if there is no
error. -/
def flawLine (source : Bytes) (root : Node) : Nat :=
  rowOf source (root.firstFlaw?.getD root).start + 1

/-- Parses the bytes of the file at a path. -/
def parse (parser : Parser) (path : Path) (source : Bytes) : Except ParseFault Node :=
  match Grammar.ofExtension? (Path.extension path) with
  | none => .error (.noGrammar (Path.extension path))
  | some grammar =>
    let root := parser grammar source
    if root.hasFlaw then .error (.flaw (flawLine source root)) else .ok root

end ContainerKeys.Code
