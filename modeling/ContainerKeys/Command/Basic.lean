import ContainerKeys.Command.Arguments
import ContainerKeys.Query
import ContainerKeys.Text.Numeral

/-!
# Commands

What the program can be asked to do on the command line.
-/

namespace ContainerKeys.Command

/-- What every command is told. -/
structure Shared where
  roots : List Path
  ignore : List String
  containers : List String
  anyContainer : Bool
  verbose : Bool
  quiet : Bool

/-- A place in a file, line and character counted from one. -/
structure Spot where
  file : Path
  line : Int
  character : Int

/-- What is asked of the program. -/
inductive Action where
  /-- Show all registered keys, and write the report to a file if one is given. -/
  | status (output : Option Path)
  /-- Report usages of unregistered keys, and displaced registrations if asked to. -/
  | check (duplicates : Bool)
  /-- Where the key at a place is bound. -/
  | definition (spot : Spot)
  /-- What is known of the key at a place. -/
  | hover (spot : Spot)
  /-- What may be completed at a place. -/
  | complete (spot : Spot)

/-- A command with what it is told. -/
structure Request where
  action : Action
  shared : Shared

/-- What the arguments amount to. -/
inductive Call where
  | help
  | request (r : Request)

/-- The option that asks for help. -/
def helpOption : OptionSpec := { long := "--help" }

/-- The options that every command knows. -/
def sharedOptions : List OptionSpec :=
  [helpOption,
    { long := "--ignore", takesValue := true },
    { long := "--container", takesValue := true },
    { long := "--any-container" },
    { long := "--verbose" },
    { long := "--quiet" }]

/-- The names of the commands. -/
inductive Name where
  | status
  | check
  | definition
  | hover
  | complete
deriving DecidableEq, Repr

/-- The command with a name. -/
def Name.ofString? : String → Option Name
  | "status" => some .status
  | "check" => some .check
  | "definition" => some .definition
  | "hover" => some .hover
  | "complete" => some .complete
  | _ => none

/-- The options that a command knows. -/
def Name.options : Name → List OptionSpec
  | .status => { long := "--output", short := some 'o', takesValue := true } :: sharedOptions
  | .check => { long := "--duplicates" } :: sharedOptions
  | _ => { long := "--root", takesValue := true } :: sharedOptions

/-- The shared part of a request. The current directory is the root if none is given. -/
def sharedOf (a : Arguments) (roots : List Path) : Shared where
  roots := if roots = [] then ["."] else roots
  ignore := a.values "--ignore"
  containers := a.values "--container"
  anyContainer := a.has "--any-container"
  verbose := a.has "--verbose"
  quiet := a.has "--quiet"

/-- Why a command line makes no request. -/
inductive Misuse where
  /-- It is not one that a command takes. -/
  | usage
  /-- A path that has to exist cannot even be looked up. -/
  | path (fault : PathFault)
deriving DecidableEq, Repr

/-- What is there, or a misuse. -/
def orUsage : Option α → Except Misuse α
  | some a => .ok a
  | none => .error .usage

/-- A path has to lead to what a test asks for. -/
def checkPath (test : Path → Bool) (p : Path) : Except Misuse Path := do
  (PathFault.checkNull p).mapError .path
  if test p then return p else throw .usage

/-- Roots have to be directories. -/
def checkRoots (files : FileTree) (roots : List Path) : Except Misuse (List Path) :=
  roots.mapM (checkPath files.isFolder)

/-- A number that counts from one. -/
def readCount (s : String) : Except Misuse Int :=
  orUsage ((Text.readInt? s).filter (1 ≤ ·))

/-- A place given by three arguments; the file has to be a file. The arguments are looked at in order, so
the first that is wrong counts. -/
def readSpot (files : FileTree) (arguments : List String) : Except Misuse Spot := do
  let file ← orUsage arguments[0]? >>= checkPath files.isFile
  let line ← orUsage arguments[1]? >>= readCount
  let character ← orUsage arguments[2]? >>= readCount
  if arguments.length = 3 then return ⟨file, line, character⟩ else throw .usage

/-- The request that a command's arguments make. -/
def Name.request (files : FileTree) (name : Name) (a : Arguments) : Except Misuse Request := do
  match name with
  | .status =>
    let roots ← checkRoots files a.others
    let output := (a.values "--output").getLast?.filter (· ≠ "")
    return ⟨.status output, sharedOf a roots⟩
  | .check =>
    let roots ← checkRoots files a.others
    return ⟨.check (a.has "--duplicates"), sharedOf a roots⟩
  | _ =>
    let roots ← checkRoots files (a.values "--root")
    let spot ← readSpot files a.others
    let action :=
      match name with
      | .definition => .definition spot
      | .hover => .hover spot
      | _ => .complete spot
    return ⟨action, sharedOf a roots⟩

/-- Reads the name of a command and its arguments. -/
def readCommand (files : FileTree) : List String → Except Misuse Call
  | [] => throw .usage
  | name :: arguments => do
    let name ← orUsage (Name.ofString? name)
    let a ← orUsage (Arguments.read name.options {} arguments)
    if a.has "--help" then return .help
    else return .request (← name.request files a)

/-- Reads a command line of which `--help` may have been read already. Ahead of the command there is no
other option. -/
def readFrom (files : FileTree) (help : Bool) : List String → Except Misuse Call
  | "--help" :: rest => readFrom files true rest
  | "--" :: rest => if help then return .help else readCommand files rest
  | arguments =>
    if help ∧ arguments.head?.all (!isOption ·) then return .help else readCommand files arguments

/-- Reads a command line. -/
def read (files : FileTree) (arguments : List String) : Except Misuse Call :=
  readFrom files false arguments

end ContainerKeys.Command
