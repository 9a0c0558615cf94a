import ContainerKeys.Index

/-!
# Diagnostics

A usage of a key that no file registers is an error; a registration that a later one displaces is a
warning, if such warnings are asked for. Diagnostics are grouped by file. Every file with a usage has
an entry, possibly an empty one.
-/

namespace ContainerKeys

/-- How bad a diagnostic is. -/
inductive Severity where
  | error
  | warning
deriving DecidableEq, Repr

/-- The name of a severity. -/
def Severity.name : Severity → String
  | .error => "error"
  | .warning => "warning"

/-- What a diagnostic says. -/
inductive Complaint where
  /-- A key that is used and not registered. -/
  | unregistered (key : String)
  /-- A key that the file `winner` registers later. -/
  | duplicate (key : String) (winner : Path)
deriving DecidableEq, Repr

namespace Complaint

/-- Only unregistered keys are errors. -/
def severity : Complaint → Severity
  | .unregistered _ => .error
  | .duplicate .. => .warning

/-- The code of a complaint. -/
def code : Complaint → String
  | .unregistered _ => "unregistered-key"
  | .duplicate .. => "duplicate-key"

/-- The wording of a complaint. -/
def message : Complaint → String
  | .unregistered key => "key \"" ++ key ++ "\" is not registered in the container"
  | .duplicate key winner =>
    "key \"" ++ key ++ "\" is registered again in " ++ winner ++ "; this registration is ignored"

end Complaint

/-- A complaint and its place. -/
structure Diagnostic where
  file : Path
  range : Range
  complaint : Complaint
deriving DecidableEq, Repr

/-- The name that diagnostics are published under. -/
def Diagnostic.source : String := "cradlemap"

/-- Diagnostics by file, in the order in which the files first occur. -/
abbrev DiagnosticTable := Table Path (List Diagnostic)

namespace DiagnosticTable

/-- Adds diagnostics to a file, which gets an entry in any case. -/
def add (t : DiagnosticTable) (file : Path) (ds : List Diagnostic) : DiagnosticTable :=
  t.update file [] (· ++ ds)

end DiagnosticTable

namespace Index

/-- The diagnostics of one usage. -/
def usageDiagnostics (index : Index) (u : Usage) : List Diagnostic :=
  if index.keys.has u.key then [] else [⟨u.file, u.range, .unregistered u.key⟩]

/-- The diagnostic of one displaced registration, unless its place is unknown. -/
def duplicateDiagnostic? (index : Index) (d : Definition) : Option Diagnostic :=
  match index.lookup d.key, d.registrationRange with
  | some winner, some range =>
    some ⟨d.registeredIn, range, .duplicate d.key winner.registeredIn⟩
  | _, _ => none

/-- The diagnostics of an index, with those of displaced registrations if `duplicates` says so. -/
def diagnostics (index : Index) (duplicates : Bool) : DiagnosticTable :=
  let ofUsages := index.usages.foldl
    (fun t u => DiagnosticTable.add t u.file (index.usageDiagnostics u)) .empty
  if duplicates then
    (index.duplicates.filterMap index.duplicateDiagnostic?).foldl
      (fun t d => DiagnosticTable.add t d.file [d]) ofUsages
  else ofUsages

end Index

end ContainerKeys
