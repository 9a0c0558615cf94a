import ContainerKeys.Code.Grammar
import ContainerKeys.FileTree.Basic
import ContainerKeys.Json.Reader
import ContainerKeys.Log

/-!
# Module resolution

A module specifier and the file that imports it lead to a file: a relative or absolute specifier by
probing, a package by a search through the directories above the importing file.

* `Resolution.probe` — the path itself, with each extension, then an index file below it.
* `Resolution.resolve` — the file that a specifier stands for.

A manifest that cannot be read counts as one that names nothing. Only a manifest that is nested too deep
breaks the search off.
-/

namespace ContainerKeys.Resolution

open Code (sourceExtensions)

/-- Modules that are part of the platform and stand for no file. -/
def builtinModules : List String :=
  ["assert", "async_hooks", "buffer", "child_process", "cluster", "console", "constants", "crypto",
    "dgram", "diagnostics_channel", "dns", "domain", "events", "fs", "http", "http2", "https",
    "inspector", "module", "net", "os", "path", "perf_hooks", "process", "punycode", "querystring",
    "readline", "repl", "stream", "string_decoder", "sys", "timers", "tls", "trace_events", "tty",
    "url", "util", "v8", "vm", "wasi", "worker_threads", "zlib"]

/-- Does the specifier name a path rather than a package? -/
def isPathSpecifier (specifier : String) : Bool :=
  specifier.toList.head? = some '.' || Path.isAbsolute specifier

/-- The package name of a specifier and the path inside the package. The name of a scoped package
has two parts. -/
def splitPackage (specifier : String) : String × String :=
  let parts := Path.parts specifier.toList
  let join (ps : List (List Char)) := String.ofList (Text.joinWith '/' ps)
  if specifier.toList.head? = some '@' ∧ 2 ≤ parts.length then
    (join (parts.take 2), join (parts.drop 2))
  else (join (parts.take 1), join (parts.drop 1))

/-- The paths that a module path may stand for besides itself: with each extension. -/
def withExtensions (p : Path) : List Path :=
  sourceExtensions.map (p ++ ·)

/-- The file that a module path stands for. -/
def probe (files : FileTree) (p : Path) : Option Path :=
  if files.isFile p then some p
  else
    match (withExtensions p).find? files.isFile with
    | some found => some found
    | none =>
      if files.isFolder p then (withExtensions (Path.join p "index")).find? files.isFile
      else none

/-- The manifest of a package. -/
def manifestPath (package : Path) : Path :=
  Path.join package "package.json"

/-- The main module that a manifest names. -/
def mainOf? (manifest : Json) : Option String :=
  match manifest.field? "main" with
  | some (.str main) => if main = "" then none else some main
  | _ => none

/-- Reads a manifest. -/
def readManifest (files : FileTree) (p : Path) : Except Json.Fault Json :=
  match files.read p with
  | .error _ => .error .malformed
  | .ok bytes =>
    match Utf8.decode bytes with
    | .error _ => .error .malformed
    | .ok text => Json.parse (some files.nestingLimit) text

/-- The main module of a package, from its manifest. -/
def packageMain (files : FileTree) (package : Path) : Attempt Json.TooDeep (Option String) := do
  let manifest := manifestPath package
  if files.isFile manifest then
    match readManifest files manifest with
    | .ok json => return mainOf? json
    | .error (.tooDeep fault) => throw fault
    | .error .malformed =>
      Logged.note .warning .imports ("Failed to read " ++ manifest ++ ": not a JSON text")
      return none
  else return none

/-- The file that a package by itself stands for: its main module, or else its index file. -/
def resolveMain (files : FileTree) (package : Path) : Attempt Json.TooDeep (Option Path) := do
  let main ← packageMain files package
  let found := main.bind fun main => probe files (Path.normalize (Path.join package main))
  return found.or (probe files (Path.join package "index"))

/-- The file that a package, or a path inside it, stands for. -/
def resolveInside (files : FileTree) (package : Path) (subpath : String) :
    Attempt Json.TooDeep (Option Path) :=
  if subpath = "" then resolveMain files package
  else return probe files (Path.join package subpath)

/-- The directory that holds a package for the files below `folder`; none if `folder` itself holds
packages. -/
def packageIn? (files : FileTree) (name : String) (folder : Path) : Option Path :=
  if Path.base folder = "node_modules" then none
  else
    let package := Path.join (Path.join folder "node_modules") name
    if files.isFolder package then some package else none

/-- Searches directories in order for a package that resolves. -/
def searchFolders (files : FileTree) (name subpath : String) :
    List Path → Attempt Json.TooDeep (Option Path)
  | [] => return none
  | folder :: rest => do
    let found ←
      match packageIn? files name folder with
      | some package => resolveInside files package subpath
      | none => pure none
    match found with
    | some p => return some p
    | none => searchFolders files name subpath rest

/-- The file that a package specifier stands for, seen from a directory. -/
def resolvePackage (files : FileTree) (specifier : String) (folder : Path) :
    Attempt Json.TooDeep (Option Path) :=
  let (name, subpath) := splitPackage specifier
  if "node:".toList.isPrefixOf specifier.toList ∨ name = "" ∨ name ∈ builtinModules then
    return none
  else searchFolders files name subpath (Path.ancestors folder)

/-- The file that a specifier stands for in the file at `importer`. Files of a build have absolute paths; a
relative one is taken as it stands where there is no current directory. -/
def resolve (files : FileTree) (specifier : String) (importer : Path) :
    Attempt Json.TooDeep (Option Path) :=
  let folder := Path.parent ((files.absolute importer).toOption.getD importer)
  if isPathSpecifier specifier then
    return probe files (Path.normalize (Path.join folder specifier))
  else resolvePackage files specifier folder

end ContainerKeys.Resolution
