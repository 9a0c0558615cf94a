import ContainerKeys.Code.Shape
import ContainerKeys.Definition
import ContainerKeys.Text.Lower

/-!
# Registration values

The value of a registration is a chain of calls such as `asClass(Foo).singleton()`. The chain is
followed from the outermost call inwards up to the call that selects the kind of binding; lifetime
modifiers met later, further inside, replace those met before.
-/

namespace ContainerKeys

open Code

/-- The kind that a selector stands for. -/
def BindingKind.ofSelector? : String → Option BindingKind
  | "asClass" => some .asClass
  | "asFunction" => some .asFunction
  | "asValue" => some .asValue
  | _ => none

/-- The lifetime that a modifier stands for. -/
def Lifetime.ofModifier? : String → Option Lifetime
  | "singleton" => some .singleton
  | "scoped" => some .scoped
  | "transient" => some .transient
  | _ => none

/-- What a registration binds. -/
structure Registration where
  kind : BindingKind
  lifetime : Option Lifetime
  /-- The expression that is bound; none if the selector has no argument. -/
  bound : Option Node
deriving DecidableEq

namespace Code.Node

/-- What lies inside parentheses is no larger than what is around them. -/
theorem size_unwrap_le (n : Node) {m : Node} (h : n.unwrap = some m) : m.size ≤ n.size := by
  fun_induction unwrap n with
  | case1 n hk inner hi ih =>
    have := size_head_parts_lt hi
    have := ih h
    omega
  | case2 => simp at h
  | case3 => simp at h; simp [h]

end Code.Node

namespace Registration

variable (source : Bytes)

/-- The name of the function that is called, by itself or as a member. -/
def selectorName (callee : Option Node) : NameResult :=
  match callee with
  | none => return none
  | some callee =>
    if callee.kind = .identifier then return some (← callee.name source)
    else callee.memberName source

/-- Reads `Lifetime.SCOPED` or `'SCOPED'` as a lifetime. -/
def lifetimeLiteral (n : Node) : Except Utf8.Fault (Option Lifetime) := do
  let name ←
    match ← n.memberName source with
    | some name => pure (some name)
    | none => n.stringValue source
  return name.bind fun name => Lifetime.ofModifier? (Text.lower name)

/-- The lifetime in the first `lifetime` entry among the parts of an options object. -/
def optionLifetime : List Node → Except Utf8.Fault (Option Lifetime)
  | [] => return none
  | part :: rest => do
    if part.kind = .pair then
      if (← Node.readName (·.keyName source) (part.child? .key)) = some "lifetime" then
        match part.child? .value with
        | some value => lifetimeLiteral source value
        | none => return none
      else optionLifetime rest
    else optionLifetime rest

/-- The lifetime that a second argument gives. -/
def optionsLifetime (options : Option Node) : Except Utf8.Fault (Option Lifetime) :=
  match options with
  | some options =>
    if options.kind = .object then optionLifetime source options.namedChildren else return none
  | none => return none

/-- The lifetime after a modifier with the given name. -/
def modify (lifetime : Option Lifetime) (name : Option String) (call : Node) :
    Except Utf8.Fault (Option Lifetime) :=
  match name with
  | none => return lifetime
  | some name =>
    match Lifetime.ofModifier? name with
    | some l => return some l
    | none =>
      if name = "setLifetime" then
        match call.arguments.head? with
        | some argument => return (← lifetimeLiteral source argument).or lifetime
        | none => return lifetime
      else return lifetime

/-- Follows a chain of calls inwards from `n`; the modifiers met so far give `lifetime`. A chain
without a selector binds `value` itself. -/
def follow (value : Node) (lifetime : Option Lifetime) (n : Node) :
    Except Utf8.Fault Registration := do
  if n.kind = .call then
    let callee := n.child? .function
    let name ← selectorName source callee
    match name.bind BindingKind.ofSelector? with
    | some kind =>
      let lifetime ←
        match lifetime with
        | some l => pure (some l)
        | none => optionsLifetime source (n.arguments.drop 1).head?
      return ⟨kind, lifetime, n.arguments.head?⟩
    | none =>
      let lifetime ← modify source lifetime name n
      match _hc : n.child? .function with
      | none => return ⟨.asValue, lifetime, some value⟩
      | some callee =>
        if callee.kind = .memberAccess then
          match _ho : callee.child? .object with
          | none => return ⟨.asValue, lifetime, some value⟩
          | some object =>
            match _hu : object.unwrap with
            | some next => follow value lifetime next
            | none => return ⟨.asValue, lifetime, some value⟩
        else return ⟨.asValue, lifetime, some value⟩
  else return ⟨.asValue, lifetime, some value⟩
termination_by n.size
decreasing_by
  have := Node.size_child_lt _hc
  have := Node.size_child_lt _ho
  have := Node.size_unwrap_le object _hu
  omega

/-- Reads the value of a registration. -/
def ofValue (value : Node) : Except Utf8.Fault Registration :=
  match value.unwrap with
  | some n => follow source value none n
  | none => return ⟨.asValue, none, some value⟩

end Registration

end ContainerKeys
