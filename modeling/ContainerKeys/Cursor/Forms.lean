import ContainerKeys.Text.Blank
import ContainerKeys.Text.Pattern
import ContainerKeys.Text.Word

/-!
# Forms of half-typed code

Patterns for the places where a container key is written: the string of a `resolve` call, the name
after `.cradle.`, and the destructured first parameter of a constructor or function. The forms that
end at the cursor serve completion; the closed forms serve navigation.
-/

namespace ContainerKeys.Cursor

open Text (Pattern isBlank isNameChar)

/-- A single or double quote. -/
def isQuote (c : Char) : Bool :=
  c == '\x27' || c == '\x22'

/-- Any character but the closing brace. -/
def isInsideBraces (c : Char) : Bool :=
  c != '\x7d'

/-- Blanks, possibly none. -/
def blanks : Pattern := .many isBlank

/-- The opening parenthesis and brace of a destructured parameter list. -/
def openList : Pattern :=
  .seq [blanks, .text "(", blanks, .text "\x7b"]

/-- The start of a statement that assigns to a name: `const name =`, `name =`. -/
def assignment : Pattern :=
  .seq [.atStart, blanks, .maybe (.orElse (.text "const") (.orElse (.text "let") (.text "var"))),
    blanks, .some isNameChar, blanks, .text "=", blanks]

/-- An unterminated `.resolve('...` up to the cursor; the groups are the quote and the key. -/
def openResolve : Pattern :=
  .seq [.text ".resolve", blanks, .text "(", blanks, .group (.char isQuote),
    .group (.few fun c => !isQuote c), .atEnd]

/-- A `.cradle.` right before the cursor. -/
def openCradle : Pattern :=
  .seq [.text ".cradle.", .atEnd]

/-- An unclosed `constructor(` list up to the cursor. -/
def openConstructor : Pattern :=
  .seq [.text "constructor", openList, .many isInsideBraces, .atEnd]

/-- The head of a function written with its keyword. -/
def functionHead : Pattern :=
  .seq [.text "function", blanks, .maybe (.text "*"), blanks, .many isNameChar]

/-- An unclosed parameter list of a function, or of a function assigned to a name, up to the
cursor. -/
def openFunction : Pattern :=
  .seq [
    .orElse
      (.seq [.maybe (.seq [.text "async", .some isBlank]), functionHead])
      (.seq [assignment, .maybe (.seq [.text "async", blanks]), .maybe functionHead]),
    openList, .many isInsideBraces, .atEnd]

/-- A name after `.cradle.`; the group is the name. -/
def cradleMember : Pattern :=
  .seq [.text ".cradle.", .group (.some isNameChar)]

/-- A closed list of a constructor; the group is the text between the braces. -/
def closedConstructor : Pattern :=
  .seq [.text "constructor", openList, .group (.some isInsideBraces), .text "\x7d"]

/-- A closed list of a function, or of a function assigned to a name; the group is the text between
the braces. -/
def closedFunction : Pattern :=
  .seq [
    .orElse
      (.seq [.text "function", blanks, .many isNameChar])
      (.seq [assignment, .maybe (.seq [.text "async", blanks])]),
    openList, .group (.some isInsideBraces), .text "\x7d"]

/-- A name. -/
def name : Pattern := .some isNameChar

end ContainerKeys.Cursor
