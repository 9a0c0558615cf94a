import ContainerKeys.Terminal

/-!
# Consoles

The commands print texts and tables to a console. What is shown of them is the console's own affair: it
reads the tags in square brackets that a text carries, breaks lines and lays out columns, and it may fail at
any of this. So a console is given by what it answers with, lines or a fault, and the commands take it as a
parameter.

* `Console` — what may be printed to.
* `Console.terminal` — the console that the program prints to: a terminal that shows no styles.
-/

namespace ContainerKeys.Command

/-- A printed line: a text, or a row of a table. -/
inductive Line where
  | text (s : String)
  | row (cells : List String)
deriving DecidableEq, Repr

/-- Why a console does not show something. -/
structure Console.Fault where
  message : String

/-- What may be printed to. -/
structure Console where
  /-- The lines of a text, tags and all. -/
  text : String → Except Console.Fault (List Line)
  /-- The lines of a table, by its title, its header and its rows. -/
  table : String → List String → List (List String) → Except Console.Fault (List Line)

/-! ## Lines -/

/-- A text as lines, all its characters kept. -/
def textLines (cs : List Char) : List Line :=
  (Text.printedLines (cs ++ ['\n'])).map fun line => .text (String.ofList line)

/-- A line of some cells. One cell alone is a text. -/
def lineOfCells : List String → Line
  | [cell] => .text cell
  | cells => .row cells

/-- The lines of a row: a line end in a cell ends the line there. The cells before are given as `begun`. -/
def rowLines (begun : List String) : List String → List Line
  | [] => [lineOfCells begun]
  | cell :: rest =>
    match (Text.printedLines (cell.toList ++ ['\n'])).map String.ofList with
    | [] => rowLines (begun ++ [cell]) rest
    | [whole] => rowLines (begun ++ [whole]) rest
    | first :: second :: more =>
      lineOfCells (begun ++ [first]) :: (second :: more).dropLast.map .text ++
        rowLines ((second :: more).getLast?.toList) rest

/-! ## Styles -/

/-- A text between the tags of a style. -/
def styled (style text : String) : String :=
  "[" ++ style ++ "]" ++ text ++ "[/" ++ style ++ "]"

namespace Console

/-- The tags of the styles that the commands use. -/
def tags : List (List Char) :=
  ["[red]", "[/red]", "[yellow]", "[/yellow]", "[green]", "[/green]"].map String.toList

/-- A text without these tags. Its first `skip` characters belong to a tag. -/
def dropTags (skip : Nat) : List Char → List Char
  | [] => []
  | c :: rest =>
    match skip, tags.find? (·.isPrefixOf (c :: rest)) with
    | skip + 1, _ => dropTags skip rest
    | 0, some tag => dropTags (tag.length - 1) rest
    | 0, none => c :: dropTags 0 rest

/-- The fault of a terminal on which a text has no room. -/
def Fault.ofShortfall (shortfall : Terminal.Shortfall) : Fault :=
  ⟨shortfall.message⟩

/-- A terminal that shows no styles. -/
def terminal : Console where
  text s := do
    let lines ← (Terminal.lines (String.ofList (dropTags 0 s.toList))).mapError .ofShortfall
    return lines.flatMap textLines
  table title header rows := do
    let rows ← (Terminal.tableRows (header :: rows)).mapError .ofShortfall
    return .text title :: rows.flatMap (rowLines [])

end Console

end ContainerKeys.Command
