import ContainerKeys.Json.Basic
import ContainerKeys.Text.ByteMark
import ContainerKeys.Text.Quoted
import ContainerKeys.Text.Split

/-!
# Writing JSON

The text is pure ASCII: other characters are escaped, those beyond the basic plane as two surrogates, and
a marked byte as one that stands alone.
`compact` writes one line; `pretty` puts every item and field on a line of its own, two blanks
deeper than what holds it.
-/

namespace ContainerKeys.Json

/-- An escaped code point of four digits. -/
def escapeUnit (unit : Nat) : List Char :=
  '\\' :: 'u' :: Text.hexDigits 4 unit

/-- One character of a string. -/
def escapeChar (c : Char) : List Char :=
  if c == '\x22' then ['\\', '\x22']
  else if c == '\\' then ['\\', '\\']
  else if c == '\n' then ['\\', 'n']
  else if c == '\r' then ['\\', 'r']
  else if c == '\t' then ['\\', 't']
  else if c.toNat == 0x8 then ['\\', 'b']
  else if c.toNat == 0xC then ['\\', 'f']
  else if 0x20 ≤ c.toNat && c.toNat ≤ 0x7E then [c]
  else if c.toNat < 0x10000 then escapeUnit c.toNat
  else
    match Text.markedByte? c with
    | some b => escapeUnit (0xDC00 + b.toNat)
    | none =>
      let n := c.toNat - 0x10000
      escapeUnit (0xD800 + n / 0x400) ++ escapeUnit (0xDC00 + n % 0x400)

/-- A string in its quotes. -/
def quote (s : String) : String :=
  String.ofList ('\x22' :: s.toList.flatMap escapeChar ++ ['\x22'])

mutual

/-- The value on one line. -/
def compact : Json → String
  | .null => "null"
  | .bool true => "true"
  | .bool false => "false"
  | .int n => toString n
  | .real spelling => spelling
  | .str s => quote s
  | .arr items => "[" ++ Text.joinStrings "," (compactItems items) ++ "]"
  | .obj fields => "\x7b" ++ Text.joinStrings "," (compactFields fields) ++ "\x7d"

/-- The items of an array, each on one line. -/
def compactItems : List Json → List String
  | [] => []
  | item :: rest => compact item :: compactItems rest

/-- The fields of an object, each on one line. -/
def compactFields : List (String × Json) → List String
  | [] => []
  | (name, value) :: rest => (quote name ++ ":" ++ compact value) :: compactFields rest

end

/-- A line break and two blanks for each level. -/
def newLine (level : Nat) : String :=
  String.ofList ('\n' :: List.replicate (2 * level) ' ')

/-- Lines between brackets; nothing stands between the brackets if there are no lines. -/
def bracket (level : Nat) (opening closing : String) (lines : List String) : String :=
  if lines.isEmpty then opening ++ closing
  else
    opening ++ newLine (level + 1) ++ Text.joinStrings ("," ++ newLine (level + 1)) lines ++
      newLine level ++ closing

mutual

/-- The value on several lines; `level` counts what holds it. -/
def prettyAt (level : Nat) : Json → String
  | .null => "null"
  | .bool true => "true"
  | .bool false => "false"
  | .int n => toString n
  | .real spelling => spelling
  | .str s => quote s
  | .arr items => bracket level "[" "]" (prettyItems (level + 1) items)
  | .obj fields => bracket level "\x7b" "\x7d" (prettyFields (level + 1) fields)

/-- The items of an array, one by one. -/
def prettyItems (level : Nat) : List Json → List String
  | [] => []
  | item :: rest => prettyAt level item :: prettyItems level rest

/-- The fields of an object, one by one. -/
def prettyFields (level : Nat) : List (String × Json) → List String
  | [] => []
  | (name, value) :: rest =>
    (quote name ++ ": " ++ prettyAt level value) :: prettyFields level rest

end

/-- The value on several lines. -/
def pretty (j : Json) : String :=
  prettyAt 0 j

end ContainerKeys.Json
