import ContainerKeys.Code.Grammar

/-!
# Settings

What a build is asked to do.
-/

namespace ContainerKeys

/-- The settings of a build. -/
structure Settings where
  /-- The directories to search. -/
  roots : List Path := []
  /-- Globs of what to leave out, besides the baseline. -/
  ignorePatterns : List String := []
  /-- The names that a container goes by; none at all stands for any. -/
  containerNames : List String := ["container"]
  /-- The extensions of source files; all supported ones if none are given. -/
  extensions : Option (List String) := none
  /-- The number of files that may be read at the same time. -/
  maxWorkers : Int := 8
  /-- The size in bytes up to which a file is read. -/
  maxFileSize : Int := 1000000
  /-- Are displaced registrations reported? -/
  reportDuplicates : Bool := false
deriving DecidableEq, Repr

namespace Settings

/-- The extensions that count as source files. -/
def sourceExtensions (s : Settings) : List String :=
  match s.extensions with
  | some (e :: es) => e :: es
  | _ => Code.sourceExtensions

/-- Does the extension of a path make it a source file? -/
def isSource (s : Settings) (p : Path) : Bool :=
  s.sourceExtensions.contains (Path.extension p)

end Settings

end ContainerKeys
