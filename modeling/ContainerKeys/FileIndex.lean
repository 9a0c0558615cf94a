import ContainerKeys.Origin
import ContainerKeys.Registration
import ContainerKeys.Workspace

/-!
# Indexing one file

One walk over the tree of a file finds its import bindings, drafts of its registrations and its
usages. The drafts become definitions after the walk, when all bindings of the file are known.

* `Indexer.findings` — what each node contributes, in the order of the walk.
* `FileIndex.ofTree`, `FileIndex.ofSource`, `FileIndex.ofFile` — the result for a tree, for the bytes
  of a file, for a file on disk.
-/

namespace ContainerKeys

open Code

/-- A registration before its origin is known: its key, the node that spells the key, and the node of
its value. -/
structure Draft where
  key : String
  keyNode : Node
  value : Node

/-- What a node contributes to the index of its file. -/
inductive Finding where
  | binding (name : String) (binding : Binding)
  | draft (draft : Draft)
  | usage (usage : Usage)

/-- What is known of the file while it is indexed. -/
structure Indexer where
  file : Path
  source : Bytes
  /-- The names that a container goes by; none at all stands for any. -/
  containers : List String

namespace Indexer

variable (x : Indexer)

/-- Is a call made on a container, by the name of its receiver? -/
def isContainer (receiver : Option Node) : Except Utf8.Fault Bool :=
  if x.containers = [] then return true
  else
    return match ← Node.readName (·.receiverName x.source) receiver with
      | some name => x.containers.contains name
      | none => false

/-- The usage of a key at a node. -/
def usageAt (n : Node) (key : String) (kind : UsageKind) : Finding :=
  .usage ⟨x.file, n.range x.source, key, kind⟩

/-! ## Registrations -/

/-- The key and value nodes of a property of a registration object. -/
def propertyNodes (n : Node) : Option (Option Node × Option Node) :=
  match n.kind with
  | .pair => some (n.child? .key, n.child? .value)
  | .shorthandProperty => some (some n, some n)
  | _ => none

/-- The draft of one property of a registration object. -/
def ofProperty (n : Node) : Attempt Utf8.Fault (List Finding) :=
  match propertyNodes n with
  | none => return []
  | some (keyNode, value) => do
    let key ← Attempt.ofExcept (Node.readName (·.keyName x.source) keyNode)
    match key.filter (· ≠ ""), keyNode, value with
    | some key, some keyNode, some value => return [.draft ⟨key, keyNode, value⟩]
    | _, _, _ =>
      Logged.note .debug .indexing
        (x.file ++ ":" ++ toString (rowOf x.source n.start + 1) ++
          ": skipping registration with non-literal key")
      return []

/-- The drafts of a `register` call with the given arguments. -/
def ofRegister (args : List Node) : Attempt Utf8.Fault (List Finding) :=
  match args with
  | [] => return []
  | first :: rest =>
    if first.kind = .object then gather x.ofProperty first.namedChildren
    else
      match rest with
      | [] => return []
      | value :: _ => do
        match (← Attempt.ofExcept (first.stringValue x.source)).filter (· ≠ "") with
        | some key => return [.draft ⟨key, first, value⟩]
        | none => return []

/-! ## Usages -/

/-- The usage of a `resolve` call with the given arguments. -/
def ofResolve (args : List Node) : Except Utf8.Fault (List Finding) := do
  match args with
  | [] => return []
  | first :: _ =>
    match ← first.stringValue x.source with
    | some key => return [x.usageAt first key .resolveCall]
    | none => return []

/-- The usage of an access to a property of the cradle. -/
def ofMember (n : Node) : Except Utf8.Fault (List Finding) := do
  if ← n.isCradleAccess x.source then
    match n.child? .object, n.child? .property with
    | some cradle, some property =>
      if ← x.isContainer (cradle.child? .object) then
        return [x.usageAt property (← property.name x.source) .cradleAccess]
      else return []
    | _, _ => return []
  else return []

/-- The pattern that a first parameter binds, without its wrapping and its default value. -/
def parameterPattern (first : Node) : Option Node :=
  let bare :=
    if first.kind = .requiredParameter ∨ first.kind = .optionalParameter then first.child? .pattern
    else some first
  match bare with
  | some n => if n.kind = .assignmentPattern then n.child? .left else some n
  | none => none

/-- The node that spells the key of one part of a destructured parameter. -/
def injectedKey (n : Node) : Option Node :=
  match n.kind with
  | .shorthandPattern => some n
  | .objectDefault => n.child? .left
  | .pairPattern => n.child? .key
  | _ => none

/-- The usage of one part of a destructured parameter. -/
def ofInjected (n : Node) : Except Utf8.Fault (List Finding) := do
  match injectedKey n with
  | none => return []
  | some keyNode =>
    match (← keyNode.keyName x.source).filter (· ≠ "") with
    | some key => return [x.usageAt keyNode key .injection]
    | none => return []

/-- The usages of a list of parameters: the parts of the first one, if it is destructured. -/
def ofParameters (parameters : Option Node) : Except Utf8.Fault (List Finding) :=
  match (parameters.bind (·.parts.head?)).bind parameterPattern with
  | some pattern =>
    if pattern.kind = .objectPattern then gather x.ofInjected pattern.namedChildren else return []
  | none => return []

/-- The usages of a method, if it is the constructor of a class. -/
def ofMethod (parent : Option Kind) (n : Node) : Except Utf8.Fault (List Finding) := do
  if parent = some .classBody then
    match n.child? .name with
    | some name =>
      if (← name.name x.source) = "constructor" then x.ofParameters (n.child? .parameters)
      else return []
    | none => return []
  else return []

/-! ## The walk -/

/-- The findings of a call. -/
def ofCall (n : Node) : Attempt Utf8.Fault (List Finding) := do
  match n.child? .function with
  | none => return []
  | some callee =>
    let method ← Attempt.ofExcept (callee.memberName x.source)
    if method = some "register" ∨ method = some "resolve" then
      if ← Attempt.ofExcept (x.isContainer (callee.child? .object)) then
        if method = some "register" then x.ofRegister n.arguments
        else Attempt.ofExcept (x.ofResolve n.arguments)
      else return []
    else return []

/-- The visitor that collects bindings. -/
def bindingVisitor : Visitor (Attempt Utf8.Fault) Finding := fun hook v => do
  let bindings ← Attempt.ofExcept (Binding.visitor x.source (·.range x.source) hook v)
  return bindings.map fun (name, binding) => .binding name binding

/-- The visitor that collects drafts and usages. -/
def keyVisitor : Visitor (Attempt Utf8.Fault) Finding := fun hook v =>
  match hook with
  | .call => x.ofCall v.node
  | .memberAccess => Attempt.ofExcept (x.ofMember v.node)
  | .method => Attempt.ofExcept (x.ofMethod v.parent v.node)
  | .function => Attempt.ofExcept (x.ofParameters (v.node.child? .parameters))
  | _ => return []

/-- The findings of a tree, in the order of the walk. -/
def findings (root : Node) : Attempt Utf8.Fault (List Finding) :=
  root.accept [x.bindingVisitor, x.keyVisitor]

/-! ## Definitions -/

/-- The definition of a draft. A definition whose origin is the file itself always has a range: that
of its key if there is no other. -/
def define (files : FileTree) (imports : ImportTable) (draft : Draft) :
    Attempt Origin.Fault Definition := do
  let registration ←
    Attempt.ofExcept ((Registration.ofValue x.source draft.value).mapError .undecodable)
  let origin ← Origin.ofBound files x.source imports x.file registration.bound
  let keyRange := draft.keyNode.range x.source
  let lifetime :=
    match registration.lifetime with
    | some l => ", " ++ l.name
    | none => ""
  Logged.note .debug .indexing
    ("  Registered key: \"" ++ draft.key ++ "\" (" ++ registration.kind.name ++ lifetime ++ ")")
  return {
    key := draft.key
    kind := registration.kind
    lifetime := registration.lifetime
    originFile := origin.file
    exportName := origin.exportName
    range := if origin.file = x.file then some (origin.range.getD keyRange) else origin.range
    registeredIn := x.file
    registrationRange := some keyRange }

end Indexer

/-! ## File indexes -/

/-- What one file contributes to the index. A file that cannot be read or parsed contributes nothing
but the fault. -/
structure FileIndex where
  file : Path
  registrations : List Definition := []
  usages : List Usage := []
  fault : Option SourceFault := none
deriving DecidableEq

namespace FileIndex

/-- The bindings among the findings. -/
def bindingsOf (findings : List Finding) : BindingList :=
  findings.filterMap fun
    | .binding name binding => some (name, binding)
    | _ => none

/-- The drafts among the findings. -/
def draftsOf (findings : List Finding) : List Draft :=
  findings.filterMap fun
    | .draft draft => some draft
    | _ => none

/-- The usages among the findings. -/
def usagesOf (findings : List Finding) : List Usage :=
  findings.filterMap fun
    | .usage usage => some usage
    | _ => none

/-- Indexes a tree. -/
def ofTree (files : FileTree) (x : Indexer) (root : Node) : Attempt Origin.Fault FileIndex := do
  let findings ← (x.findings root).adapt .undecodable
  let imports := ImportTable.ofBindings (bindingsOf findings)
  let registrations ← (draftsOf findings).mapM (x.define files imports)
  return { file := x.file, registrations, usages := usagesOf findings }

/-- The result for a file that cannot be indexed. -/
def failed (file : Path) (fault : SourceFault) : Logged FileIndex := do
  Logged.note .warning .indexing ("Failed to parse " ++ file ++ ": " ++ fault.message)
  return { file, fault := some fault }

/-- Indexes the bytes of a file. -/
def ofSource (w : Workspace) (containers : List String) (file : Path) (source : Bytes) :
    Attempt Json.TooDeep FileIndex := do
  Logged.note .debug .indexing ("  Parsing: " ++ file)
  match parse w.parser file source with
  | .error fault => failed file (.unparsed fault)
  | .ok root =>
    match ← (ofTree w.files ⟨file, source, containers⟩ root).run with
    | .ok index => return index
    | .error (.undecodable fault) => failed file (.undecodable fault)
    | .error (.tooDeep fault) => throw fault

/-- Reads and indexes a file, whatever becomes of it. -/
def ofFile (w : Workspace) (containers : List String) (file : Path) : Logged FileIndex := do
  match w.files.read file with
  | .error fault =>
    Logged.note .warning .building ("Failed to read " ++ file ++ ": " ++ fault.message)
    return { file, fault := some (.unreadable fault) }
  | .ok source =>
    match ← (ofSource w containers file source).run with
    | .ok index => return index
    | .error fault =>
      Logged.note .warning .building
        ("Failed to extract registrations from " ++ file ++ ": " ++ fault.message)
      return { file, fault := some (.tooDeep fault) }

/-- Reads and indexes the file at a path. -/
def ofPath (w : Workspace) (containers : List String) (file : Path) :
    Attempt PathFault FileIndex := do
  Attempt.ofExcept (PathFault.checkNull file)
  ofFile w containers file

end FileIndex

end ContainerKeys
