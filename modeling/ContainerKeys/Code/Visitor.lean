import ContainerKeys.Code.Node
import ContainerKeys.Gather

/-!
# Visitors

A visitor is called on the nodes of some kinds and contributes results. One walk serves any number of
visitors: each visit is given to all of them in turn before the walk goes on.
-/

namespace ContainerKeys.Code

/-- The kinds of nodes that visitors are called on. -/
inductive Hook where
  | call
  | memberAccess
  | importStatement
  | declarator
  | function
  | method
deriving DecidableEq, Repr

/-- The hook for a kind of nodes. -/
def Hook.ofKind? : Kind → Option Hook
  | .call => some .call
  | .memberAccess => some .memberAccess
  | .importStatement => some .importStatement
  | .declarator => some .declarator
  | .method => some .method
  | kind => if kind.isFunction then some .function else none

/-- A visitor: what it contributes when one of its hooks is called. -/
abbrev Visitor (m : Type → Type) (α : Type) := Hook → Node.Visit → m (List α)

/-- What a visitor contributes on a visit. -/
def Visitor.visit [Monad m] (visitor : Visitor m α) (v : Node.Visit) : m (List α) :=
  match Hook.ofKind? v.node.kind with
  | some hook => visitor hook v
  | none => pure []

/-- What visitors contribute on a visit, one after another. -/
def Visitor.visitAll [Monad m] (visitors : List (Visitor m α)) (v : Node.Visit) : m (List α) :=
  gather (fun visitor => Visitor.visit visitor v) visitors

/-- What visitors contribute on a walk over a tree. -/
def Node.accept [Monad m] (visitors : List (Visitor m α)) (root : Node) : m (List α) :=
  gather (Visitor.visitAll visitors) root.walk

end ContainerKeys.Code
