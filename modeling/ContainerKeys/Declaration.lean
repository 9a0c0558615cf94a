import ContainerKeys.Code.Shape
import ContainerKeys.Gather
import ContainerKeys.Log
import ContainerKeys.Workspace

/-!
# Declarations

Where a file declares what it exports under a name. The top-level statements are read in order; each
contributes the names that it declares and the names that it exports. The last entry of a name
counts, and an exported name that the file declares leads on to the declaration.
-/

namespace ContainerKeys.Declaration

open Code

/-- What a top-level statement contributes. -/
inductive Item where
  /-- A name that is declared, with its node. -/
  | declared (name : String) (node : Node)
  /-- A name that is exported, with the node that it stands for. -/
  | exported (name : String) (node : Option Node)

/-- The name of the default export. -/
def defaultName : String := "default"

variable (source : Bytes)

/-- The names that a declaration introduces, with their nodes. -/
def declaredNames (n : Node) : Except Utf8.Fault (List (String × Node)) :=
  match n.kind with
  | .classDeclaration | .functionDeclaration | .generatorDeclaration =>
    match n.child? .name with
    | some name => return [(← name.name source, name)]
    | none => return []
  | .lexicalDeclaration | .variableDeclaration =>
    gather
      (fun d =>
        match d.child? .name with
        | some name =>
          if d.kind = .declarator ∧ name.kind = .identifier then
            return [(← name.name source, name)]
          else return []
        | none => return [])
      n.namedChildren
  | _ => return []

/-- The text of a node without its spaces. -/
def denseText (n : Node) : Except Utf8.Fault String :=
  return String.ofList ((← n.text source).filter (· ≠ ' '))

/-- The name that an assignment to `left` exports: the default for `module.exports`, the property for
`exports.X` and `module.exports.X`. -/
def exportTarget (left : Node) : NameResult := do
  if (← denseText source left) = "module.exports" then return some defaultName
  else
    match left.child? .object with
    | some object =>
      let text ← denseText source object
      if text = "module.exports" ∨ text = "exports" then left.memberName source else return none
    | none => return none

/-- The exports of a clause such as `export { a, b as c }`. -/
def ofClause (clause : Node) : Except Utf8.Fault (List Item) :=
  gather
    (fun s => do
      if s.kind = .exportSpecifier then
        let name := s.child? .name
        let exported ← Node.readName (·.keyName source) ((s.child? .alias).or name)
        return [.exported (exported.getD "") name]
      else return [])
    clause.namedChildren

/-- What the declaration of an export statement contributes. -/
def ofExportedDeclaration (isDefault : Bool) (declaration : Node) :
    Except Utf8.Fault (List Item) := do
  let names ← declaredNames source declaration
  let items := names.flatMap fun (name, node) => [.declared name node, .exported name (some node)]
  if isDefault then
    return items ++ [.exported defaultName ((declaration.child? .name).or (some declaration))]
  else return items

/-- What an export statement contributes. -/
def ofExport (n : Node) : Except Utf8.Fault (List Item) := do
  let isDefault := n.children.any (·.kind = .defaultKeyword)
  let items ←
    match n.child? .declaration, n.child? .value with
    | some declaration, _ => ofExportedDeclaration source isDefault declaration
    | none, some value =>
      if isDefault then
        pure [.exported defaultName ((value.child? .name).or (some value))]
      else pure []
    | none, none => pure []
  let more ← gather (ofClause source) (n.namedChildren.filter (·.kind = .exportClause))
  return items ++ more

/-- The exports of one property of an object that is the default export. -/
def ofProperty (n : Node) : Except Utf8.Fault (List Item) := do
  match n.kind with
  | .shorthandProperty => return [.exported (← n.name source) (some n)]
  | .pair =>
    match ← Node.readName (·.keyName source) (n.child? .key) with
    | some key => if key = "" then return [] else return [.exported key (n.child? .value)]
    | none => return []
  | _ => return []

/-- What an assignment contributes. -/
def ofAssignment (left : Node) (right : Option Node) : Except Utf8.Fault (List Item) := do
  match ← exportTarget source left, right.bind (·.unwrap) with
  | some target, some right =>
    let properties ←
      if target = defaultName ∧ right.kind = .object then
        gather (ofProperty source) right.namedChildren
      else pure []
    return properties ++ [.exported target (some right)]
  | _, _ => return []

/-- What an expression statement contributes. -/
def ofExpression (n : Node) : Except Utf8.Fault (List Item) :=
  match n.parts.head? with
  | some expression =>
    match expression.child? .left with
    | some left =>
      if expression.kind = .assignment then ofAssignment source left (expression.child? .right)
      else return []
    | none => return []
  | none => return []

/-- What a top-level statement contributes. -/
def ofStatement (n : Node) : Except Utf8.Fault (List Item) := do
  match n.kind with
  | .exportStatement => ofExport source n
  | .expressionStatement => ofExpression source n
  | _ => return (← declaredNames source n).map fun (name, node) => .declared name node

/-- The node last declared under a name. -/
def lastDeclared? (items : List Item) (name : String) : Option Node :=
  items.reverse.findSome? fun
    | .declared n node => if n = name then some node else none
    | .exported .. => none

/-- The node last exported under a name. -/
def lastExported? (items : List Item) (name : String) : Option Node :=
  (items.reverse.findSome? fun
    | .exported n node => if n = name then some node else none
    | .declared .. => none).join

/-- The node that an export leads to: the declaration of a plain name that the file declares, or else
the node itself. -/
def leadOn (items : List Item) (n : Node) : Except Utf8.Fault Node := do
  if n.isIdentifier then return (lastDeclared? items (← n.name source)).getD n
  else return n

/-- The node that a tree declares for an export; the default export if no name is given. -/
def find (root : Node) (exportName : Option String) : Except Utf8.Fault (Option Node) := do
  let items ← gather (ofStatement source) root.namedChildren
  let given := exportName.filter (· ≠ "")
  match lastExported? items (given.getD defaultName) with
  | some n => return some (← leadOn source items n)
  | none => return given.bind (lastDeclared? items)

/-- Why the search for a declaration breaks off. -/
inductive Fault where
  | path (fault : PathFault)
  /-- A name in the source is no text. -/
  | undecodable (fault : Utf8.Fault)
deriving DecidableEq, Repr

/-- The wording of a fault. -/
def Fault.message : Fault → String
  | .path fault => fault.message
  | .undecodable fault => fault.message

/-- The range in which a file declares an export. -/
def locate (w : Workspace) (file : Path) (exportName : Option String) :
    Attempt Fault (Option Range) := do
  Attempt.ofExcept ((PathFault.checkNull file).mapError .path)
  match w.load file with
  | .error fault =>
    Logged.note .warning .origins
      ("Failed to locate declarations in " ++ file ++ ": " ++ fault.message)
    return none
  | .ok (bytes, root) =>
    let node ← Attempt.ofExcept ((find bytes root exportName).mapError .undecodable)
    return node.map (·.range bytes)

end ContainerKeys.Declaration
