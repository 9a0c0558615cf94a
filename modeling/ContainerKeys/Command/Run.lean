import ContainerKeys.Command.Basic
import ContainerKeys.Command.Console
import ContainerKeys.Report
import ContainerKeys.Text.ControlSequence

/-!
# Running a command

A command builds the index of its roots, looks up what it is asked for and prints lines. The exit code is
zero, or one if something is wrong, nothing is found or the command breaks off. The current directory is
asked for only where a root is relative and where a path is shown.
-/

namespace ContainerKeys.Command

/-- What a command leaves behind. -/
structure Outcome where
  exitCode : Nat
  output : List Line
  log : List LogLine
  /-- The file tree afterwards. -/
  files : FileTree

/-- Why a command breaks off. -/
inductive Failure where
  /-- The report cannot be written. -/
  | report (fault : Report.Fault)
  /-- The answer cannot be looked up. -/
  | lookup (fault : Declaration.Fault)
  /-- The console does not show something. -/
  | layout (fault : Console.Fault)
  /-- A text cannot be printed. -/
  | printing (fault : Text.Unprintable)

/-- The wording of a failure. -/
def Failure.message : Failure → String
  | .report fault => fault.message
  | .lookup fault => fault.message
  | .layout fault => fault.message
  | .printing fault => fault.message

/-- The failure of a command that lacks a path. -/
def Failure.ofPath (fault : PathFault) : Failure :=
  .lookup (.path fault)

/-- The exit code of a command. -/
def exitCode : Except Failure Outcome → Nat
  | .ok outcome => outcome.exitCode
  | .error _ => 1

/-- The lines that are logged: all, errors only, or warnings and errors. -/
def Shared.logLevel (s : Shared) : Level :=
  if s.verbose then .debug else if s.quiet then .error else .warning

/-- The settings of the build that a command makes. -/
def Shared.settings (s : Shared) (files : FileTree) : Except PathFault Settings := do
  let base : Settings := {
    roots := ← s.roots.mapM files.absolute
    ignorePatterns := s.ignore }
  if s.anyContainer then return { base with containerNames := [] }
  else if s.containers = [] then return base
  else return { base with containerNames := s.containers }

/-- A path as it is shown: from the current directory. -/
def shownPath (files : FileTree) (p : Path) : Except PathFault String := do
  let cwd ← files.absolute "."
  return Path.relative cwd cwd p

/-- The place of a position, counted from one. -/
def shownPosition (p : Position) : String :=
  toString (p.line + 1) ++ ":" ++ toString (p.character + 1)

/-! ## What the commands print -/

/-- A text as lines without control sequences. -/
def plainLines (s : String) : Except Text.Unprintable (List Line) := do
  let cs := Text.dropSequences s.toList
  Text.checkPrintable cs
  return textLines cs

/-- The cells of a registered key. -/
def keyCells (files : FileTree) (d : Definition) : Except Failure (List String) := do
  let origin ← (shownPath files d.originFile).mapError .ofPath
  return [d.key, d.kind.name, (d.lifetime.map Lifetime.name).getD "", origin, d.exportName.getD ""]

/-- The lines of the status command. -/
def statusLines (console : Console) (files : FileTree) (index : Index) (stats : Stats)
    (output : Option Path) : Except Failure (List Line) := do
  let table title header rows := (console.table title header rows).mapError Failure.layout
  let figures ← table "cradlemap index" ["Metric", "Value"] [
    ["Files indexed", toString stats.filesIndexed],
    ["Files skipped", toString stats.filesFailed],
    ["Keys", toString index.keys.size],
    ["Usages", toString index.usages.length],
    ["Duplicate registrations", toString index.duplicates.length]]
  let cells ← gather (fun d => return [← keyCells files d]) index.sortedKeys
  let keys ← table "Registered keys" ["Key", "Kind", "Lifetime", "Origin", "Export"] cells
  let usages ← table "Usages by kind" ["Kind", "Count"]
    ((index.usageCounts.mergeSort fun a b => a.1.name ≤ b.1.name).map fun (kind, n) =>
      [kind.name, toString n])
  let written ←
    match output with
    | some path =>
      (console.text (styled "green" "Report written to:" ++ " " ++ path)).mapError .layout
    | none => pure []
  return figures ++ keys ++ usages ++ written

/-- The style of a severity. -/
def severityStyle : Severity → String
  | .error => "red"
  | .warning => "yellow"

/-- The text of a diagnostic whose file is shown as `path`. -/
def diagnosticText (path : String) (d : Diagnostic) : String :=
  path ++ ":" ++ shownPosition d.range.start ++ ": " ++
    styled (severityStyle d.complaint.severity) d.complaint.severity.name ++ " " ++
    d.complaint.message ++ " (" ++ d.complaint.code ++ ")"

/-- All diagnostics, by the order of their files. -/
def allDiagnostics (t : DiagnosticTable) : List Diagnostic :=
  (t.entries.mergeSort fun a b => a.1 ≤ b.1).flatMap Prod.snd

/-- The number of errors among diagnostics. -/
def errorCount (ds : List Diagnostic) : Nat :=
  ds.countP (·.complaint.severity = .error)

/-- The text that says how many errors there are. -/
def countText (errors : Nat) : String :=
  toString errors ++ " unregistered key usage(s)"

/-- The lines of a diagnostic. -/
def diagnosticLines (console : Console) (files : FileTree) (d : Diagnostic) :
    Except Failure (List Line) := do
  let path ← (shownPath files d.file).mapError .ofPath
  (console.text (diagnosticText path d)).mapError .layout

/-- The lines of the check command. -/
def checkLines (console : Console) (files : FileTree) (ds : List Diagnostic) :
    Except Failure (List Line) := do
  let lines ← gather (diagnosticLines console files) ds
  let count ← (console.text (countText (errorCount ds))).mapError .layout
  return lines ++ count

/-- The answer to the definition command. -/
def locationText (l : Location) : String :=
  match l.range with
  | some r => l.file ++ ":" ++ shownPosition r.start
  | none => l.file

/-- The text of a completion. -/
def completionText (d : Definition) : String :=
  d.key ++ "\t" ++ completionDetail d ++ "\t" ++ d.originFile

/-- The cursor at a place that is counted from one. -/
def Spot.cursor (s : Spot) : CursorAt :=
  ⟨s.file, ⟨s.line - 1, s.character - 1⟩, none⟩

/-- The texts that a question is answered with; none if there is no answer. -/
def answer (w : Workspace) (index : Index) : Action → Attempt Declaration.Fault (Option (List String))
  | .definition spot => do
    let found ← index.findDefinition w spot.cursor
    return found.map fun l => [locationText l]
  | .hover spot => do
    let found ← (index.hover w.files spot.cursor).adapt .path
    return found.map fun h => [h.markdown]
  | .complete spot => do
    let found ← (index.complete w.files spot.cursor).adapt .path
    return found.map fun c => c.items.map completionText
  | _ => return none

/-- What is said if there is no answer to a question. -/
def Action.noAnswer : Action → String
  | .definition _ => "No definition found"
  | .hover _ => "Nothing to show"
  | .complete _ => "No completion context"
  | _ => ""

/-- Runs a request. -/
def run (w : Workspace) (r : Request) (console : Console := .terminal) : Except Failure Outcome := do
  let settings ← (r.shared.settings w.files).mapError .ofPath
  let built := build w settings
  let (index, stats) := built.value
  let kept (log : List LogLine) := log.filter fun l => r.shared.logLevel.rank ≤ l.level.rank
  let printed (lines : Except Failure (List Line)) : Except Failure (List Line) :=
    if r.shared.quiet then return [] else lines
  match r.action with
  | .status output =>
    let files ←
      match output with
      | some path =>
        (Report.write w.files path (Report.status index (.ofStats stats))).mapError .report
      | none => pure w.files
    return ⟨0, ← printed (statusLines console w.files index stats output), kept built.log, files⟩
  | .check duplicates =>
    let ds := allDiagnostics (index.diagnostics duplicates)
    let exitCode := if errorCount ds = 0 then 0 else 1
    return ⟨exitCode, ← printed (checkLines console w.files ds), kept built.log, w.files⟩
  | action =>
    let answered := (answer w index action).run
    let log := kept (built.log ++ answered.log)
    match ← answered.value.mapError .lookup with
    | some texts => return ⟨0, ← (gather plainLines texts).mapError .printing, log, w.files⟩
    | none => return ⟨1, [.text action.noAnswer], log, w.files⟩

end ContainerKeys.Command
