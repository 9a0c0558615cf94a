import ContainerKeys.Gather
import ContainerKeys.Text.Blank
import ContainerKeys.Text.Cluster
import ContainerKeys.Text.Lines
import ContainerKeys.Text.Split

/-!
# Text on a terminal

A text loses the controls that would move the cursor, is cut at its line feeds, and its tabs become
spaces. A line wider than the screen is broken between words, and within a word that is too wide itself. A
column of a table is as wide as its widest text, tabs not counted, and the widest columns give way if the
screen is too narrow. A line wider than its column is broken between words only, and what still does not
fit ends in an ellipsis.

A text is measured by its characters and cut between its clusters. A joiner at the start hides the next
character from the measure, but joins nothing, so the two may differ; then a cut can fail.

* `Terminal.lines` — the lines of a text.
* `Terminal.tableRows` — the rows of a table, line by line.
* `Terminal.Shortfall` — a cut that failed.
-/

namespace ContainerKeys.Terminal

open Text (isBlank)

/-! ## Cutting -/

/-- A text that is too wide for a width by its measure, and whose clusters do not reach the width. -/
structure Shortfall where
  width : Nat
  text : List Char
deriving DecidableEq, Repr

/-- The wording of the fault. -/
def Shortfall.message (_ : Shortfall) : String :=
  "list index out of range"

/-- The start of a text that fills a width. -/
def cut (width : Nat) (text : List Char) : Except Shortfall (List Char) :=
  match Text.takeWidth? width (Text.clusters text) with
  | some start => .ok start
  | none => .error ⟨width, text⟩

/-- A text cut to a width, unless it is no wider. -/
def crop (width : Nat) (text : List Char) : Except Shortfall (List Char) :=
  if Text.width text ≤ width then .ok text else cut width text

/-! ## Tabs -/

/-- Controls that are not shown: bell, backspace, vertical tab, form feed and carriage return. -/
def isHidden (c : Char) : Bool :=
  c.toNat ∈ [0x7, 0x8, 0xB, 0xC, 0xD]

/-- The characters of a text that are shown. -/
def shown (s : String) : List Char :=
  s.toList.filter fun c => !isHidden c

/-- The distance between tab stops. -/
def tabStop : Nat := 8

/-- Joins the parts of a line between its tabs. A tab is a space and as many more as lead to the next tab
stop; the first part starts at `column`. -/
def joinTabs (column : Nat) : List (List Char) → List Char
  | [] => []
  | [last] => last
  | part :: rest =>
    let spaced := part ++ [' ']
    let reached := column + Text.width spaced
    let more := (tabStop - reached % tabStop) % tabStop
    spaced ++ List.replicate more ' ' ++ joinTabs (reached + more) rest

/-- The lines of a text between its line feeds, with spaces for tabs. -/
def rawLines (s : String) : List (List Char) :=
  (Text.splitOn '\n' (shown s)).map fun line => joinTabs 0 (Text.splitOn '\t' line)

/-! ## Line breaking -/

/-- The words of a line, each with the blanks after it; the first has the blanks before it as well. -/
def words (line : List Char) : List (List Char) :=
  match line.splitBy fun a b => !isBlank a || isBlank b with
  | first :: second :: rest =>
    if first.all isBlank then (first ++ second) :: rest else first :: second :: rest
  | ws => ws

/-- The width of a word without the blanks after it. -/
def wordWidth (word : List Char) : Nat :=
  Text.width (Text.dropEndWhile isBlank word)

/-- A word that starts a line, as one piece, or as several if it is too wide and `fold` says so. -/
def pieces (fold : Bool) (width : Nat) (word : List Char) : List (List Char) :=
  if fold && width < wordWidth word then Text.chop width (Text.clusters word) else [word]

/-- Fills lines of a width with words. The line begun so far takes `column` cells; a word that does not fit
starts a new line. -/
def fill (fold : Bool) (width column : Nat) (begun : List Char) :
    List (List Char) → List (List Char)
  | [] => [begun]
  | word :: rest =>
    if column + wordWidth word ≤ width then
      fill fold width (column + Text.width word) (begun ++ word) rest
    else
      let started := pieces fold width word
      let last := started.getLast?.getD []
      (if begun = [] then [] else [begun]) ++ started.dropLast ++
        fill fold width (Text.width last) last rest

/-- Drops blanks at the end of a line, but only as many as it has characters beyond a width. -/
def cropEnd (width : Nat) (line : List Char) : List Char :=
  let blanks := line.length - (Text.dropEndWhile isBlank line).length
  line.take (line.length - min blanks (line.length - width))

/-- Breaks a line into lines of a width. -/
def breakLine (fold : Bool) (width : Nat) (line : List Char) : List (List Char) :=
  (fill fold width 0 [] (words line)).map (cropEnd width)

/-- The width of the screen. -/
def screenWidth : Nat := 10000

/-- The lines of a text. -/
def lines (s : String) : Except Shortfall (List (List Char)) :=
  ((rawLines s).flatMap (breakLine true screenWidth)).mapM (crop screenWidth)

/-! ## Tables -/

/-- The width of the widest line of a text. -/
def widest (s : String) : Nat :=
  (Text.printedLines (shown s)).foldl (fun n line => max n (Text.width line)) 0

/-- A line no wider than a width: one that is too wide ends in an ellipsis. -/
def truncate (width : Nat) (line : List Char) : Except Shortfall (List Char) := do
  if Text.width line ≤ width then return line
  else return (← cut (width - 1) line) ++ ['…']

/-- A line in a cell of a width. It is truncated, cropped to the width, and with the blank before it once
more to a width that leaves no room for the blank after it. -/
def cellLine (width : Nat) (line : List Char) : Except Shortfall (List Char) := do
  let short ← truncate width (← truncate width line)
  let cropped ← crop width short
  if Text.width cropped ≤ width then return cropped else crop (width + 1) cropped

/-- The lines of a text in a cell of a width. -/
def cellLines (width : Nat) (s : String) : Except Shortfall (List (List Char)) :=
  ((rawLines s).flatMap (breakLine false width)).mapM (cellLine width)

/-- The widths that the columns of a table ask for. -/
def naturalWidths (rows : List (List String)) : List Nat :=
  rows.foldl
    (fun widths row =>
      (List.range (max widths.length row.length)).map fun i =>
        max (widths.getD i 0) ((row[i]?.map widest).getD 0))
    []

/-- The quotient rounded to the nearest whole number, a half to the even one. -/
def roundDiv (n k : Nat) : Nat :=
  let q := n / k
  let twice := 2 * (n % k)
  if twice < k ∨ (twice = k ∧ q % 2 = 0) then q else q + 1

/-- Takes `excess` from the columns of the width `widest`, in even shares of at most `most`; there are
`count` of them. -/
def shrinkWidest (widest most : Nat) (excess count : Nat) : List Nat → List Nat
  | [] => []
  | w :: rest =>
    if w = widest then
      let share := min most (roundDiv excess count)
      (w - share) :: shrinkWidest widest most (excess - share) (count - 1) rest
    else w :: shrinkWidest widest most excess count rest

/-- The width of all columns together. -/
def totalWidth (widths : List Nat) : Nat :=
  widths.foldl (· + ·) 0

/-- Narrows the widest columns down to the next ones, again and again, until all fit into `limit`. It takes
fewer than `steps` rounds. -/
def fitWidths (limit : Nat) (steps : Nat) (widths : List Nat) : List Nat :=
  match steps with
  | 0 => widths
  | steps + 1 =>
    let excess := totalWidth widths - limit
    if excess = 0 then widths
    else
      let widest := widths.foldl max 0
      let second := (widths.filter (· ≠ widest)).foldl max 0
      fitWidths limit steps
        (shrinkWidest widest (min excess (widest - second)) excess (widths.count widest) widths)

/-- The blanks on both sides of a cell. -/
def cellPadding : Nat := 2

/-- The widths of the columns of a table on a screen. A rule stands between two columns. -/
def columnWidths (screen : Nat) (rows : List (List String)) : List Nat :=
  let natural := naturalWidths rows
  let limit := screen - (natural.length - 1)
  let padded := natural.map fun w => min (w + cellPadding) limit
  (fitWidths limit (totalWidth padded) padded).map (· - cellPadding)

/-- A row of a table, line by line. A cell with fewer lines than others is blank below them. -/
def rowLines (widths : List Nat) (row : List String) : Except Shortfall (List (List String)) := do
  let cells ← (widths.zip row).mapM fun (width, text) => cellLines width text
  let height := cells.foldl (fun n cell => max n cell.length) 0
  return (List.range height).map fun i => cells.map fun cell => String.ofList (cell.getD i [])

/-- The rows of a table, line by line. -/
def tableRows (rows : List (List String)) : Except Shortfall (List (List String)) :=
  gather (rowLines (columnWidths screenWidth rows)) rows

end ContainerKeys.Terminal
