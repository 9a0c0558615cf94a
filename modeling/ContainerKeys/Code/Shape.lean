import ContainerKeys.Code.Source

/-!
# Shapes of nodes

Tests on single nodes and the names that can be read off them. Reading a name fails if the node's
text is not UTF-8.

* `Node.receiverName` — the name of the object that a call is made on; it looks through chained
  calls and parentheses.
-/

namespace ContainerKeys.Code

/-- A name read off a node, if it has one. -/
abbrev NameResult := Except Utf8.Fault (Option String)

namespace Node

/-- Is the node a plain name? -/
def isIdentifier (n : Node) : Bool :=
  n.kind = .identifier || n.kind = .shorthandProperty

/-- The text of a node as a name. -/
def name (source : Bytes) (n : Node) : Except Utf8.Fault String :=
  return String.ofList (← n.text source)

/-- The contents of a plain string literal, its quotes dropped. -/
def stringValue (source : Bytes) (n : Node) : NameResult :=
  if n.kind = .string then do
    let text ← n.text source
    return some (String.ofList (text.drop 1).dropLast)
  else return none

/-- The arguments of a call, comments left out. -/
def arguments (n : Node) : List Node :=
  match n.child? .arguments with
  | some args => args.parts
  | none => []

/-- The property that a member access names. -/
def memberName (source : Bytes) (n : Node) : NameResult :=
  if n.kind = .memberAccess then
    match n.child? .property with
    | some property =>
      if property.kind = .propertyIdentifier then return some (← property.name source)
      else return none
    | none => return none
  else return none

/-- The name that an object key spells out; none for a computed or numeric key. -/
def keyName (source : Bytes) (n : Node) : NameResult :=
  match n.kind with
  | .propertyIdentifier | .shorthandProperty | .shorthandPattern | .identifier =>
    return some (← n.name source)
  | _ => n.stringValue source

/-- Is this the access to a property of `<anything>.cradle`? -/
def isCradleAccess (source : Bytes) (n : Node) : Except Utf8.Fault Bool := do
  match ← n.memberName source with
  | none => return false
  | some _ =>
    match n.child? .object with
    | none => return false
    | some object => return (← object.memberName source) = some "cradle"

/-- The node inside any parentheses. -/
def unwrap (n : Node) : Option Node :=
  if n.kind = .parenthesized then
    match _h : n.parts.head? with
    | some inner => inner.unwrap
    | none => none
  else some n
termination_by n.size
decreasing_by exact size_head_parts_lt _h

/-- The name of the object that a call is made on. -/
def receiverName (source : Bytes) (n : Node) : NameResult :=
  match n.kind with
  | .identifier | .this => return some (← n.name source)
  | .memberAccess => n.memberName source
  | .call =>
    match _hc : n.child? .function with
    | none => return none
    | some callee =>
      if callee.kind = .memberAccess then
        match _ho : callee.child? .object with
        | some object => object.receiverName source
        | none => return none
      else return none
  | .parenthesized =>
    match _h : n.parts.head? with
    | some inner => inner.receiverName source
    | none => return none
  | _ => return none
termination_by n.size
decreasing_by
  · have := size_child_lt _hc; have := size_child_lt _ho; omega
  · exact size_head_parts_lt _h

/-- Applies a reading to a node that may be absent. -/
def readName (read : Node → NameResult) : Option Node → NameResult
  | some n => read n
  | none => return none

end Node

end ContainerKeys.Code
