import ContainerKeys.Table

/-!
# Globs

A glob is a list of tokens. A path matches if it can be cut into consecutive pieces, one for each
token: `**/` takes nothing or whole leading directories, a final `/**` takes nothing or a slash and
everything after it, `**` takes anything, `*` and `?` never take a slash. The tokens with two
asterisks never take a line feed.
-/

namespace ContainerKeys

/-- A token of a glob. -/
inductive GlobToken where
  /-- Written `**/`. -/
  | folders
  /-- Written `/**` at the end. -/
  | below
  /-- Written `**`. -/
  | anything
  /-- Written `*`. -/
  | part
  /-- Written `?`. -/
  | one
  /-- Any other character stands for itself. -/
  | char (c : Char)
deriving DecidableEq, Repr

/-- A glob: what each piece of a path has to be, in order. -/
structure Glob where
  tokens : List GlobToken
deriving DecidableEq, Repr

namespace Glob

/-- Backslashes become slashes. -/
def forwardSlashes (cs : List Char) : List Char :=
  cs.map fun c => if c = '\\' then '/' else c

/-- Reads tokens from left to right. -/
def readTokens : List Char → List GlobToken
  | [] => []
  | '*' :: '*' :: '/' :: rest => .folders :: readTokens rest
  | ['/', '*', '*'] => [.below]
  | '*' :: '*' :: rest => .anything :: readTokens rest
  | '*' :: rest => .part :: readTokens rest
  | '?' :: rest => .one :: readTokens rest
  | c :: rest => .char c :: readTokens rest

/-- Reads a glob; leading slashes are dropped. -/
def ofString (pattern : String) : Glob :=
  ⟨readTokens ((forwardSlashes pattern.toList).dropWhile (· = '/'))⟩

/-- Can `cs` be cut into a piece of characters of the class `p` and a rest that `next` takes? -/
def takesRun (p : Char → Bool) (next : List Char → Bool) : List Char → Bool
  | [] => next []
  | c :: rest => next (c :: rest) || (p c && takesRun p next rest)

/-- Can `cs` be cut into a piece that ends in a slash and has no line feed, and a rest that `next`
takes? -/
def takesFolders (next : List Char → Bool) : List Char → Bool
  | [] => false
  | c :: rest => (c = '/' && next rest) || (c ≠ '\n' && takesFolders next rest)

/-- Can `cs` be cut into a piece for the token and a rest that `next` takes? -/
def takes (next : List Char → Bool) (cs : List Char) : GlobToken → Bool
  | .folders => next cs || takesFolders next cs
  | .below =>
    next cs || match cs with
      | '/' :: rest => takesRun (· ≠ '\n') next rest
      | _ => false
  | .anything => takesRun (· ≠ '\n') next cs
  | .part => takesRun (· ≠ '/') next cs
  | .one =>
    match cs with
    | [] => false
    | c :: rest => c ≠ '/' && next rest
  | .char a =>
    match cs with
    | [] => false
    | c :: rest => c = a && next rest

/-- Can `cs` be cut into pieces for the tokens? -/
def matchTokens : List GlobToken → List Char → Bool
  | [], cs => cs.isEmpty
  | t :: rest, cs => takes (matchTokens rest) cs t

/-- Does the glob match the whole path? -/
def accepts (g : Glob) (path : String) : Bool :=
  matchTokens g.tokens path.toList

end Glob

/-! ## Ignore rules -/

/-- Globs over paths relative to a root; what one of them matches is left out. -/
structure IgnoreRules where
  patterns : List String

namespace IgnoreRules

/-- Directories that are always left out, with all that is below them. -/
def baseline : List String :=
  ["node_modules", "dist", "out", "build", ".git", ".vscode", ".idea"].map fun name =>
    "**/" ++ name ++ "/**"

/-- The baseline and the given globs, each once. -/
def ofPatterns (patterns : List String) : IgnoreRules :=
  ⟨distinct (baseline ++ patterns)⟩

/-- Does one of the globs match the path? Backslashes in the path count as slashes. -/
def ignores (rules : IgnoreRules) (path : String) : Bool :=
  let path := String.ofList (Glob.forwardSlashes path.toList)
  rules.patterns.any fun pattern => (Glob.ofString pattern).accepts path

end IgnoreRules

end ContainerKeys
