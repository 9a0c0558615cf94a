import ContainerKeys.Build
import ContainerKeys.FileTree.Edit
import ContainerKeys.Json.Printer

/-!
# The status report

The registered keys, the number of usages of each kind and the figures of the build, as a JSON value
that can be written to a file.
-/

namespace ContainerKeys.Report

/-- The version of the program. -/
def version : String := "0.1.0"

/-- The figures of a build that a report shows. -/
structure Figures where
  roots : Int := 0
  filesFound : Int := 0
  filesIndexed : Int := 0
  filesFailed : Int := 0
deriving DecidableEq, Repr

/-- The figures of a build. -/
def Figures.ofStats (s : Stats) : Figures :=
  ⟨s.roots, s.filesFound, s.filesIndexed, s.filesFailed⟩

/-- Why a report cannot be written. -/
inductive Fault where
  | path (fault : PathFault)
  | file (fault : FileFault)
deriving DecidableEq, Repr

/-- The wording of a fault. -/
def Fault.message : Fault → String
  | .path fault => fault.message
  | .file fault => fault.message

/-- A whole number. -/
def number (n : Nat) : Json := .int n

/-- A position. -/
def position (p : Position) : Json :=
  .obj [("line", .int p.line), ("character", .int p.character)]

/-- A range, or null for none. -/
def range : Option Range → Json
  | some r => .obj [("start", position r.start), ("end", position r.stop)]
  | none => .null

/-- A definition. -/
def definition (d : Definition) : Json :=
  .obj [
    ("key", .str d.key),
    ("kind", .str d.kind.name),
    ("lifetime", .ofText? (d.lifetime.map Lifetime.name)),
    ("origin_file", .str d.originFile),
    ("export_name", .ofText? d.exportName),
    ("range", range d.range),
    ("registered_in", .str d.registeredIn)]

/-- The number of usages of each kind that occurs. -/
def usageCounts (index : Index) : Json :=
  .obj (index.usageCounts.map fun (kind, n) => (kind.name, number n))

/-- The report on an index and the build that it comes from. -/
def status (index : Index) (figures : Figures) : Json :=
  .obj [
    ("version", .str "1.0"),
    ("metadata", .obj [("cradlemap_version", .str version)]),
    ("stats", .obj [
      ("roots", .int figures.roots),
      ("files_found", .int figures.filesFound),
      ("files_indexed", .int figures.filesIndexed),
      ("files_failed", .int figures.filesFailed),
      ("keys", number index.keys.size),
      ("usages", number index.usages.length),
      ("duplicates", number index.duplicates.length)]),
    ("keys", .arr (index.sortedKeys.map definition)),
    ("usages_by_kind", usageCounts index),
    ("duplicates", .arr (index.duplicates.map definition))]

/-- Writes a JSON value to a file; the directory of the file is made if need be. -/
def write (files : FileTree) (path : Path) (report : Json) : Except Fault FileTree := do
  (PathFault.checkNull (FileTree.FolderPath.parentOf path)).mapError .path
  let files ← (files.ensureParent path).mapError .file
  (PathFault.checkNull path).mapError .path
  (files.write path (Utf8.encode report.pretty)).mapError .file

end ContainerKeys.Report
