import ContainerKeys.Command.Run
import ContainerKeys.Snapshot

/-!
# The program

Runs a command on a workspace whose snapshot is read from standard input. Lines are printed to standard
output and log lines to standard error; a report that the command writes follows the printed lines.
-/

namespace ContainerKeys.Program

/-- How the program is called. -/
def usage : String :=
  "usage: (status | check) [ROOT]... | (definition | hover | complete) FILE LINE CHARACTER"

/-- A printed line; the cells of a row are divided by tabs. -/
def printed : Command.Line → String
  | .text s => s
  | .row cells => Text.joinStrings "\t" cells

/-- The text of the report that a request writes. -/
def reportText (r : Command.Request) (files : FileTree) : Option String :=
  match r.action with
  | .status (some path) =>
    (files.read path).toOption.map fun bytes => String.ofList (Utf8.decodeLossy bytes)
  | _ => none

/-- Runs a request and prints what it leaves behind. -/
def perform (w : Workspace) (r : Command.Request) : IO UInt32 := do
  let ran := Command.run w r
  match ran with
  | .error failure => IO.eprintln failure.message
  | .ok outcome =>
    for line in outcome.log do
      IO.eprintln line.render
    for line in outcome.output do
      IO.println (printed line)
    if let some report := reportText r outcome.files then
      IO.println report
  return UInt32.ofNat (Command.exitCode ran)

/-- Runs the command that the arguments ask for. -/
def runArguments (w : Workspace) (args : List String) : IO UInt32 := do
  match Command.read w.files args with
  | .error .usage =>
    IO.eprintln usage
    return 2
  | .error (.path fault) =>
    IO.eprintln fault.message
    return 1
  | .ok .help =>
    IO.println usage
    return 0
  | .ok (.request r) => perform w r

end ContainerKeys.Program

/-- Reads the snapshot and runs the command. -/
def main (args : List String) : IO UInt32 := do
  let text ← (← IO.getStdin).readToEnd
  match (ContainerKeys.Json.parse? text.toList).bind ContainerKeys.Snapshot.workspaceOf? with
  | none =>
    IO.eprintln "standard input is no snapshot"
    return 1
  | some w => ContainerKeys.Program.runArguments w args
