import ContainerKeys.Code.Shape
import ContainerKeys.Code.Visitor
import ContainerKeys.Log
import ContainerKeys.Path
import ContainerKeys.Table

/-!
# Import bindings

The local names that a file binds to other modules, by import statements and by `require` calls of
all forms. Each node contributes its bindings on its own; the import table takes them in the order
of a walk, so that the last binding of a name counts.
-/

namespace ContainerKeys

open Code

/-- Where a local name comes from. -/
structure Binding where
  /-- The module as it is written. -/
  specifier : String
  /-- The name in the module; none for the default export or the whole module. -/
  exported : Option String := none
  /-- Does the name stand for all exports of the module? -/
  isNamespace : Bool := false
  /-- Where the name is bound. -/
  range : Range
deriving DecidableEq, Repr

/-- Local names with their bindings, in order. -/
abbrev BindingList := List (String × Binding)

/-- The import table of a file. -/
abbrev ImportTable := Table String Binding

namespace Binding

variable (source : Bytes) (rangeOf : Node → Range)

/-- Binds the name that a node spells. -/
def bind (ident : Node) (specifier : String) (exported : Option String) (isNamespace : Bool) :
    Except Utf8.Fault BindingList := do
  let name ← ident.name source
  return [(name, ⟨specifier, exported, isNamespace, rangeOf ident⟩)]

/-- Binds a name to an export, if the name is a plain one and the export has a name. -/
def bindExport (local? : Option Node) (specifier : String) (exported : Option String) :
    Except Utf8.Fault BindingList :=
  match local?, exported with
  | some ident, some name =>
    if ident.kind = .identifier ∧ name ≠ "" then
      bind source rangeOf ident specifier (some name) false
    else return []
  | _, _ => return []

/-- One of the names between the braces of an import statement. -/
def ofSpecifier (specifier : String) (n : Node) : Except Utf8.Fault BindingList := do
  if n.kind = .importSpecifier then
    let exported ← Node.readName (·.keyName source) (n.child? .name)
    bindExport source rangeOf ((n.child? .alias).or (n.child? .name)) specifier exported
  else return []

/-- One part of the clause of an import statement. -/
def ofClausePart (specifier : String) (n : Node) : Except Utf8.Fault BindingList :=
  match n.kind with
  | .identifier => bind source rangeOf n specifier none false
  | .importNamespace =>
    gather (fun ident => bind source rangeOf ident specifier none true)
      (n.namedChildren.filter (·.kind = .identifier))
  | .importNames => gather (ofSpecifier source rangeOf specifier) n.namedChildren
  | _ => return []

/-- The last of the string literals among some nodes, or what was known before. -/
def lastString (known : Option String) : List Node → NameResult
  | [] => return known
  | n :: rest => do
    if n.kind = .string then lastString (← n.stringValue source) rest else lastString known rest

/-- The clause `name = require('...')` of an import statement. -/
def ofRequireClause (n : Node) : Except Utf8.Fault BindingList := do
  let specifier ←
    match ← Node.readName (·.stringValue source) (n.child? .source) with
    | some s => pure (some s)
    | none => lastString source none n.namedChildren
  match specifier, n.namedChildren.find? (·.kind = .identifier) with
  | some specifier, some ident => bind source rangeOf ident specifier none false
  | _, _ => return []

/-- The bindings of an import statement. -/
def ofImport (n : Node) : Except Utf8.Fault BindingList := do
  let specifier ← Node.readName (·.stringValue source) (n.child? .source)
  gather
    (fun child =>
      match child.kind, specifier with
      | .importClause, some specifier =>
        gather (ofClausePart source rangeOf specifier) child.namedChildren
      | .importRequire, _ => ofRequireClause source rangeOf child
      | _, _ => return [])
    n.namedChildren

/-- The module of a call `require('...')`. -/
def requireSpecifier (n : Node) : NameResult :=
  if n.kind = .call then
    match n.child? .function with
    | some callee => do
      if callee.kind = .identifier then
        if (← callee.name source) = "require" then
          Node.readName (·.stringValue source) n.arguments.head?
        else return none
      else return none
    | none => return none
  else return none

/-- One part of a destructured `require` call. -/
def ofPatternPart (specifier : String) (n : Node) : Except Utf8.Fault BindingList := do
  match n.kind with
  | .shorthandPattern =>
    bind source rangeOf n specifier (some (← n.name source)) false
  | .objectDefault =>
    match n.child? .left with
    | some left =>
      if left.kind = .shorthandPattern then
        bind source rangeOf left specifier (some (← left.name source)) false
      else return []
    | none => return []
  | .pairPattern =>
    let exported ← Node.readName (·.keyName source) (n.child? .key)
    let target :=
      match n.child? .value with
      | some value => if value.kind = .assignmentPattern then value.child? .left else some value
      | none => none
    bindExport source rangeOf target specifier exported
  | _ => return []

/-- The bindings of a variable declarator that is initialised by a `require` call or by a member
of one. -/
def ofDeclarator (n : Node) : Except Utf8.Fault BindingList :=
  match n.child? .name, n.child? .value with
  | some target, some value => do
    let isMember := value.kind = .memberAccess
    let member ← value.memberName source
    let called := if isMember then value.child? .object else some value
    match ← Node.readName (requireSpecifier source) called with
    | none => return []
    | some specifier =>
      if target.kind = .identifier then bind source rangeOf target specifier member false
      else if target.kind = .objectPattern ∧ member = none then
        gather (ofPatternPart source rangeOf specifier) target.namedChildren
      else return []
  | _, _ => return []

/-- The visitor that collects bindings. -/
def visitor : Visitor (Except Utf8.Fault) (String × Binding) := fun hook v =>
  match hook with
  | .importStatement => ofImport source rangeOf v.node
  | .declarator => ofDeclarator source rangeOf v.node
  | _ => return []

end Binding

/-- The table of bindings in order; the last binding of a name counts. -/
def ImportTable.ofBindings (bindings : BindingList) : ImportTable :=
  Table.empty.putAll bindings

/-- The import table of a tree. -/
def ImportTable.ofTree (source : Bytes) (rangeOf : Node → Range) (root : Node) :
    Except Utf8.Fault ImportTable := do
  let bindings ← root.accept [Binding.visitor source rangeOf]
  return .ofBindings bindings

/-- The import table of the tree of a file, with a note on its size. -/
def ImportTable.ofFile (file : Path) (source : Bytes) (rangeOf : Node → Range) (root : Node) :
    Attempt Utf8.Fault ImportTable := do
  let table ← Attempt.ofExcept (ofTree source rangeOf root)
  Logged.note .debug .imports (file ++ ": " ++ toString table.size ++ " imported names")
  return table

end ContainerKeys
