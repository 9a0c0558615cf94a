import ContainerKeys.Build
import ContainerKeys.Cursor.Context
import ContainerKeys.Declaration
import ContainerKeys.Text.Lines

/-!
# Questions at a cursor

Which key is under the cursor, where it is bound, what is known of it, and what may be completed.
Usages of the index come first; the text of the line helps out where the last build has not seen the
file as it is. The text is taken from disk unless it is given.
-/

namespace ContainerKeys

/-- A cursor in a file, with the text of its line if that differs from the one on disk. -/
structure CursorAt where
  file : Path
  position : Position
  lineText : Option String := none

/-- A key and its place in the text. -/
structure KeyAt where
  key : String
  range : Range
deriving DecidableEq, Repr

/-- A place in a file; none within the file if only the file is known. -/
structure Location where
  file : Path
  range : Option Range
deriving DecidableEq, Repr

/-- What is shown of a key. -/
structure Hover where
  key : String
  definition : Definition
  range : Range

/-- What may be completed at a cursor. -/
structure Completion where
  context : Cursor.Context
  /-- The text that a completion replaces, if it is part of a string. -/
  replaced : Option Range
  /-- The definitions of the keys that may be put in. -/
  items : List Definition

/-- One line of a file, counted from zero. -/
def readLine (files : FileTree) (file : Path) (line : Int) :
    Attempt PathFault (Option String) := do
  Attempt.ofExcept (PathFault.checkNull file)
  match files.read file with
  | .error fault =>
    Logged.note .warning .cursor ("Failed to read " ++ file ++ ": " ++ fault.message)
    return none
  | .ok bytes =>
    if line < 0 then return none
    else
      return ((Text.lines (Utf8.decodeLossy bytes)).drop line.toNat).head?.map String.ofList

namespace Index

/-- The text of the cursor's line. -/
def lineAt (files : FileTree) (c : CursorAt) : Attempt PathFault (Option String) :=
  match c.lineText with
  | some text => return some text
  | none => do readLine files (← Attempt.ofExcept (files.absolute c.file)) c.position.line

/-- The key under the cursor by the text of the line. -/
def keyInText (p : Position) (text : String) : Option KeyAt :=
  (Cursor.keyAt text.toList p.character).map fun found =>
    ⟨String.ofList found.text, ⟨p.line, found.start⟩, ⟨p.line, found.stop⟩⟩

/-- The key under the cursor. -/
def keyUnder (index : Index) (files : FileTree) (c : CursorAt) :
    Attempt PathFault (Option KeyAt) := do
  let file ← Attempt.ofExcept (files.absolute c.file)
  match index.usageAt? file c.position with
  | some usage => return some ⟨usage.key, usage.range⟩
  | none => return (← lineAt files c).bind (keyInText c.position)

/-- Where the key under the cursor is bound. A declaration in another file is looked up there; if it is
not found, the file alone is the answer. -/
def findDefinition (index : Index) (w : Workspace) (c : CursorAt) :
    Attempt Declaration.Fault (Option Location) := do
  match ← (index.keyUnder w.files c).adapt .path with
  | none => return none
  | some found =>
    match index.lookup found.key with
    | none => return none
    | some d =>
      match d.range with
      | some range => return some ⟨d.originFile, some range⟩
      | none => return some ⟨d.originFile, ← Declaration.locate w d.originFile d.exportName⟩

/-- What is known of the key under the cursor. -/
def hover (index : Index) (files : FileTree) (c : CursorAt) :
    Attempt PathFault (Option Hover) := do
  match ← index.keyUnder files c with
  | none => return none
  | some found => return (index.lookup found.key).map fun d => ⟨found.key, d, found.range⟩

/-- What may be completed at a cursor in a line. -/
def completeIn (index : Index) (p : Position) (text : String) : Option Completion :=
  let line := text.toList
  (Cursor.detect (Text.sliceTo line p.character) (Text.sliceFrom line p.character)).map
    fun context =>
      let replaced :=
        match context with
        | .resolveString start stop => some ⟨⟨p.line, start⟩, ⟨p.line, stop⟩⟩
        | _ => none
      ⟨context, replaced, index.sortedKeys⟩

/-- What may be completed at the cursor: every registered key, if the cursor is at a place for one. -/
def complete (index : Index) (files : FileTree) (c : CursorAt) :
    Attempt PathFault (Option Completion) := do
  return (← lineAt files c).bind (index.completeIn c.position)

end Index

/-- The text that is shown of a key. -/
def Hover.markdown (h : Hover) : String :=
  let parts := [
    "**" ++ h.key ++ "**",
    "_" ++ describeKind h.definition.kind h.definition.lifetime ++ "_",
    "```text\n" ++ h.definition.originFile ++ "\n```"]
  let more :=
    match h.definition.exportName with
    | some name => if name = "" then [] else ["**Export:** `" ++ name ++ "`"]
    | none => []
  Text.joinStrings "\n\n" (parts ++ more)

/-- What is shown beside a completion. -/
def completionDetail (d : Definition) : String :=
  describeKind d.kind d.lifetime

end ContainerKeys
