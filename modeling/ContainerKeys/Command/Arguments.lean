import ContainerKeys.Table

/-!
# Command-line arguments

Options may stand anywhere among the other arguments up to `--`. A long option may have its value after an
equals sign, a short one right behind its letter; otherwise the next argument is the value, whatever
it is.
-/

namespace ContainerKeys.Command

/-- An option that a command knows. -/
structure OptionSpec where
  long : String
  short : Option Char := none
  takesValue : Bool := false

/-- Arguments taken apart: the options by their long names, with their values, and the others. -/
structure Arguments where
  options : List (String × String) := []
  others : List String := []

/-- Does the argument have the form of an option? -/
def isOption (argument : String) : Bool :=
  argument.toList.head? = some '-' && argument ≠ "-"

namespace Arguments

/-- The values of an option, in order. -/
def values (a : Arguments) (long : String) : List String :=
  (a.options.filter fun o => o.1 = long).map Prod.snd

/-- Is the option given? -/
def has (a : Arguments) (long : String) : Bool :=
  a.options.any fun o => o.1 = long

/-- An option with its value, and whether the value is the next argument. -/
inductive Reading where
  /-- Options that are complete in themselves. -/
  | complete (options : List (String × String))
  /-- Options the last of which takes the next argument as its value. -/
  | wantsValue (flags : List (String × String)) (long : String)

/-- Reads a long option: its name and the text after its equals sign, if any. -/
def readLong (specs : List OptionSpec) (name : String) (value : Option String) : Option Reading :=
  match specs.find? (·.long = name), value with
  | none, _ => none
  | some spec, some value => if spec.takesValue then some (.complete [(name, value)]) else none
  | some spec, none =>
    if spec.takesValue then some (.wantsValue [] name) else some (.complete [(name, "")])

/-- Reads the letters of short options. -/
def readShorts (specs : List OptionSpec) : List Char → Option Reading
  | [] => some (.complete [])
  | c :: rest =>
    match specs.find? (·.short = some c) with
    | none => none
    | some spec =>
      if spec.takesValue then
        if rest = [] then some (.wantsValue [] spec.long)
        else some (.complete [(spec.long, String.ofList rest)])
      else
        match readShorts specs rest with
        | some (.complete options) => some (.complete ((spec.long, "") :: options))
        | some (.wantsValue flags long) => some (.wantsValue ((spec.long, "") :: flags) long)
        | none => none

/-- Reads an argument that starts with a dash. -/
def readOption (specs : List OptionSpec) (argument : List Char) : Option Reading :=
  let name := argument.takeWhile (· ≠ '=')
  let value :=
    match argument.dropWhile (· ≠ '=') with
    | [] => none
    | _ :: value => some (String.ofList value)
  match argument with
  | '-' :: '-' :: _ => readLong specs (String.ofList name) value
  | _ => readShorts specs (argument.drop 1)

/-- Takes arguments apart; none if an option is unknown, lacks its value or has one too many. -/
def read (specs : List OptionSpec) (a : Arguments) : List String → Option Arguments
  | [] => some a
  | argument :: rest =>
    if argument = "--" then some { a with others := a.others ++ rest }
    else if isOption argument then
      match readOption specs argument.toList with
      | none => none
      | some (.complete options) => read specs { a with options := a.options ++ options } rest
      | some (.wantsValue flags long) =>
        match rest with
        | [] => none
        | value :: rest =>
          read specs { a with options := a.options ++ flags ++ [(long, value)] } rest
    else read specs { a with others := a.others ++ [argument] } rest

end Arguments

end ContainerKeys.Command
