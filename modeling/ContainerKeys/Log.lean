/-!
# Log lines

What the program notes while it works. `Logged` is a value together with the lines noted on the
way to it; the value never depends on the lines.

* `Logged.value_bind`, `Logged.log_bind` — binding composes the values and appends the lines.
* `Attempt` — a computation that may fail and keeps its lines also when it fails.
-/

namespace ContainerKeys

/-- How much a line matters. -/
inductive Level where
  | debug
  | info
  | warning
  | error
deriving DecidableEq, Repr

/-- Levels in ascending order. -/
def Level.rank : Level → Nat
  | .debug => 0
  | .info => 1
  | .warning => 2
  | .error => 3

/-- The name of a level. -/
def Level.name : Level → String
  | .debug => "DEBUG"
  | .info => "INFO"
  | .warning => "WARNING"
  | .error => "ERROR"

/-- The part of the program that notes a line. -/
inductive Channel where
  | enumeration
  | imports
  | origins
  | indexing
  | merging
  | building
  | cursor
  | service
deriving DecidableEq, Repr

/-- The name of a channel in a line. -/
def Channel.name : Channel → String
  | .enumeration => "cradlemap.phases.structure"
  | .imports => "cradlemap.phases.imports"
  | .origins => "cradlemap.phases.origins"
  | .indexing => "cradlemap.phases.indexing"
  | .merging => "cradlemap.graph.index"
  | .building => "cradlemap.pipeline"
  | .cursor => "cradlemap.providers.context"
  | .service => "cradlemap.service"

/-- A line of the log. -/
structure LogLine where
  level : Level
  channel : Channel
  message : String
deriving DecidableEq, Repr

/-- The text of a line. -/
def LogLine.render (l : LogLine) : String :=
  l.level.name ++ " " ++ l.channel.name ++ ": " ++ l.message

/-- A value and the lines noted on the way to it. -/
structure Logged (α : Type) where
  value : α
  log : List LogLine := []

namespace Logged

instance : Monad Logged where
  pure a := ⟨a, []⟩
  bind x f := ⟨(f x.value).value, x.log ++ (f x.value).log⟩

@[simp] theorem value_pure (a : α) : (pure a : Logged α).value = a := rfl

@[simp] theorem log_pure (a : α) : (pure a : Logged α).log = [] := rfl

@[simp] theorem value_bind (x : Logged α) (f : α → Logged β) :
    (x >>= f).value = (f x.value).value := rfl

@[simp] theorem log_bind (x : Logged α) (f : α → Logged β) :
    (x >>= f).log = x.log ++ (f x.value).log := rfl

instance : LawfulMonad Logged :=
  LawfulMonad.mk' Logged
    (fun x => by cases x; simp [Functor.map])
    (fun _ _ => by simp [Bind.bind, Pure.pure])
    (fun _ _ _ => by simp [Bind.bind, List.append_assoc])

/-- Notes one line. -/
def note (level : Level) (channel : Channel) (message : String) : Logged Unit :=
  ⟨(), [⟨level, channel, message⟩]⟩

@[simp] theorem value_note (level : Level) (channel : Channel) (message : String) :
    (note level channel message).value = () := rfl

end Logged

/-- A computation that may fail with an `ε`; the lines noted before a failure are kept. -/
abbrev Attempt (ε α : Type) := ExceptT ε Logged α

/-- The result of an attempt, without its lines. -/
def Attempt.outcome (x : Attempt ε α) : Except ε α := x.run.value

@[simp] theorem Attempt.outcome_pure (a : α) : (pure a : Attempt ε α).outcome = .ok a := rfl

@[simp] theorem Attempt.outcome_bind (x : Attempt ε α) (f : α → Attempt ε β) :
    (x >>= f).outcome = x.outcome >>= fun a => (f a).outcome := by
  simp only [outcome, ExceptT.run_bind, Logged.value_bind]
  cases x.run.value <;> rfl

/-- An attempt that notes nothing. -/
def Attempt.ofExcept (x : Except ε α) : Attempt ε α := ExceptT.mk ⟨x, []⟩

@[simp] theorem Attempt.outcome_ofExcept (x : Except ε α) : (ofExcept x).outcome = x := rfl

end ContainerKeys
