import ContainerKeys.Path
import ContainerKeys.Position

/-!
# Definitions and usages

A definition is one registration of a key in the container: what is bound, for how long, and where
it is declared. A usage is one place that asks for a key.
-/

namespace ContainerKeys

/-- What a key is bound to. -/
inductive BindingKind where
  | asClass
  | asFunction
  | asValue
deriving DecidableEq, Repr

/-- The name of a kind. -/
def BindingKind.name : BindingKind → String
  | .asClass => "class"
  | .asFunction => "function"
  | .asValue => "value"

/-- How long the container keeps what it makes for a key. -/
inductive Lifetime where
  | singleton
  | scoped
  | transient
deriving DecidableEq, Repr

/-- The name of a lifetime. -/
def Lifetime.name : Lifetime → String
  | .singleton => "singleton"
  | .scoped => "scoped"
  | .transient => "transient"

/-- How a usage asks for its key. -/
inductive UsageKind where
  /-- The call `container.resolve('key')`. -/
  | resolveCall
  /-- The access `container.cradle.key`. -/
  | cradleAccess
  /-- A destructured parameter of a constructor or function. -/
  | injection
deriving DecidableEq, Repr

/-- The name of a usage kind. -/
def UsageKind.name : UsageKind → String
  | .resolveCall => "resolveCall"
  | .cradleAccess => "cradleAccess"
  | .injection => "constructorInjection"

/-- One registration of a key. -/
structure Definition where
  key : String
  kind : BindingKind
  lifetime : Option Lifetime
  /-- The file that declares what is bound. -/
  originFile : Path
  /-- The name under which it is exported there. -/
  exportName : Option String
  /-- Where it is declared, if that is known. -/
  range : Option Range
  /-- The file that makes the registration. -/
  registeredIn : Path
  /-- Where the key stands in the registration. -/
  registrationRange : Option Range
deriving DecidableEq, Repr

/-- One place that asks for a key. -/
structure Usage where
  file : Path
  range : Range
  key : String
  kind : UsageKind
deriving DecidableEq, Repr

/-- Kind and lifetime as they are shown to a reader. -/
def describeKind (kind : BindingKind) (lifetime : Option Lifetime) : String :=
  match lifetime with
  | some l => kind.name ++ " • " ++ l.name
  | none => kind.name

end ContainerKeys
