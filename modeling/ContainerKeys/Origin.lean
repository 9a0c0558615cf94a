import ContainerKeys.Binding
import ContainerKeys.Resolution

/-!
# Origins

Where the expression that a registration binds is declared: an imported name in the file of its
module, any other expression in the file itself.
-/

namespace ContainerKeys

open Code

/-- Where an expression is declared. -/
structure Origin where
  file : Path
  exportName : Option String := none
  /-- The place in the file; none if only the file is known. -/
  range : Option Range := none
deriving DecidableEq, Repr

namespace Origin

/-- Why the search for an origin breaks off. -/
inductive Fault where
  /-- A name in the source is no text. -/
  | undecodable (fault : Utf8.Fault)
  /-- The manifest of an imported package is nested too deep. -/
  | tooDeep (fault : Json.TooDeep)
deriving DecidableEq, Repr

/-- The origin of an export of the module that a name is bound to. If the module resolves to no
file, the name stays with the file that binds it. -/
def ofBinding (files : FileTree) (file : Path) (binding : Binding) (exported : Option String)
    (localName : String) : Attempt Json.TooDeep Origin := do
  match ← Resolution.resolve files binding.specifier file with
  | some module => return ⟨module, exported, none⟩
  | none =>
    Logged.note .debug .origins
      (file ++ ": could not resolve module '" ++ binding.specifier ++ "'")
    return ⟨file, some localName, some binding.range⟩

/-- The binding that a member access such as `ns.Foo` goes through, with the name of the member. The
object has to be a whole module or its default export. -/
def memberBinding (source : Bytes) (imports : ImportTable) (bound : Node) :
    Except Utf8.Fault (Option (Binding × String)) := do
  match ← bound.memberName source, bound.child? .object with
  | some property, some object =>
    if property ≠ "" ∧ object.isIdentifier then
      match imports.get? (← object.name source) with
      | some binding =>
        if binding.isNamespace ∨ binding.exported = none then return some (binding, property)
        else return none
      | none => return none
    else return none
  | _, _ => return none

/-- The origin of the expression that a registration in `file` binds. -/
def ofBound (files : FileTree) (source : Bytes) (imports : ImportTable) (file : Path) :
    Option Node → Attempt Fault Origin
  | none => return ⟨file, none, none⟩
  | some bound => do
    if bound.isIdentifier then
      let name ← Attempt.ofExcept ((bound.name source).mapError .undecodable)
      match imports.get? name with
      | some binding =>
        (ofBinding files file binding binding.exported name).adapt .tooDeep
      | none => return ⟨file, some name, some (bound.range source)⟩
    else
      match ← Attempt.ofExcept ((memberBinding source imports bound).mapError .undecodable) with
      | some (binding, property) =>
        (ofBinding files file binding (some property) property).adapt .tooDeep
      | none => return ⟨file, none, some (bound.range source)⟩

end Origin

end ContainerKeys
