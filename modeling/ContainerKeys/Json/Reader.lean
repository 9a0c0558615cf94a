import ContainerKeys.Json.Basic
import ContainerKeys.Table
import ContainerKeys.Text.ByteMark
import ContainerKeys.Text.Numeral
import ContainerKeys.Text.Split

/-!
# Reading JSON

One pass over the characters cuts them into tokens, and each token goes at once to a reader with a
stack of the arrays and objects that are still open, so the first thing that is wrong from the left is
the fault. Beyond the standard, `NaN`, `Infinity` and `-Infinity` are numbers. A field that occurs
twice keeps its first place and takes its last value.

* `Json.parse` — reads a text, in which only so many arrays and objects may be open at once.
* `Json.parse?` — reads a text nested as deep as it likes.
-/

namespace ContainerKeys.Json

/-! ## Faults -/

/-- What holds other values. -/
inductive Container where
  | array
  | object
deriving DecidableEq, Repr

/-- The name of a container. -/
def Container.name : Container → String
  | .array => "array"
  | .object => "object"

/-- A text is nested too deep: the container that is one too many. -/
structure TooDeep where
  container : Container
deriving DecidableEq, Repr

/-- The wording of a text that is nested too deep. -/
def TooDeep.message (f : TooDeep) : String :=
  "maximum recursion depth exceeded while decoding a JSON " ++ f.container.name ++
    " from a unicode string"

/-- Why a text cannot be read. -/
inductive Fault where
  | malformed
  | tooDeep (fault : TooDeep)
deriving DecidableEq, Repr

/-! ## Tokens -/

/-- A token of JSON text. -/
inductive Token where
  | openObject
  | closeObject
  | openArray
  | closeArray
  | colon
  | comma
  | scalar (value : Json)

/-- What the characters read so far belong to. -/
inductive Mode where
  /-- Between tokens. -/
  | idle
  /-- Inside a bare word or number, whose characters are held in reverse. -/
  | word (taken : List Char)
  /-- Inside a string, whose code points are held in reverse. -/
  | string (taken : List Nat)
  /-- After a backslash in a string. -/
  | escape (taken : List Nat)
  /-- Inside the four digits of an escaped code point: those still to come and the value so far. -/
  | code (taken : List Nat) (more value : Nat)

/-- Blanks between tokens. -/
def isSpace (c : Char) : Bool :=
  c == ' ' || c == '\t' || c == '\n' || c == '\r'

/-- Characters of bare words and numbers. -/
def isWordChar (c : Char) : Bool :=
  c.isAlphanum || c == '+' || c == '-' || c == '.'

/-- The value of a hexadecimal digit. -/
def hexValue? (c : Char) : Option Nat :=
  if c.isDigit then some (c.toNat - '0'.toNat)
  else if 'a' ≤ c ∧ c ≤ 'f' then some (c.toNat - 'a'.toNat + 10)
  else if 'A' ≤ c ∧ c ≤ 'F' then some (c.toNat - 'A'.toNat + 10)
  else none

/-- The code point that an escape of one letter stands for. -/
def escaped? (c : Char) : Option Nat :=
  match c with
  | '\x22' => some 0x22
  | '\\' => some 0x5C
  | '/' => some 0x2F
  | 'b' => some 0x8
  | 'f' => some 0xC
  | 'n' => some 0xA
  | 'r' => some 0xD
  | 't' => some 0x9
  | _ => none

/-- The character of a code point. A surrogate that stands alone is no character: if it spells out a byte,
it becomes the mark of the byte, and else the null character, which no file name holds. -/
def loneChar (code : Nat) : Char :=
  if 0xDC80 ≤ code ∧ code ≤ 0xDCFF then Text.byteMark (UInt8.ofNat (code - 0xDC00))
  else Char.ofNat code

/-- The characters of a list of code points. A high and a low surrogate in a row make one character. -/
def joinSurrogates : List Nat → List Char
  | [] => []
  | [a] => [loneChar a]
  | a :: b :: rest =>
    if 0xD800 ≤ a ∧ a < 0xDC00 ∧ 0xDC00 ≤ b ∧ b < 0xE000 then
      Char.ofNat (0x10000 + (a - 0xD800) * 0x400 + (b - 0xDC00)) :: joinSurrogates rest
    else loneChar a :: joinSurrogates (b :: rest)

/-- Drops a run of decimal digits; there has to be at least one. -/
def dropDigits? (cs : List Char) : Option (List Char) :=
  match cs with
  | c :: rest => if c.isDigit then some (rest.dropWhile Char.isDigit) else none
  | [] => none

/-- Is this the fraction and exponent of a number? -/
def isScale (cs : List Char) : Bool :=
  let afterFraction :=
    match cs with
    | '.' :: rest => dropDigits? rest
    | _ => some cs
  match afterFraction with
  | none => false
  | some [] => true
  | some (e :: rest) =>
    (e == 'e' || e == 'E') &&
      (match rest with
        | '+' :: digits => dropDigits? digits
        | '-' :: digits => dropDigits? digits
        | digits => dropDigits? digits) == some []

/-- The value of a run of decimal digits. -/
def digitsValue (cs : List Char) : Nat :=
  cs.foldl (fun n c => 10 * n + (c.toNat - '0'.toNat)) 0

/-- Reads a number: no leading zeros, and at most as many digits as a numeral may have. -/
def number? (spelling : List Char) : Option Json :=
  let negative := spelling.head? = some '-'
  let magnitude := if negative then spelling.drop 1 else spelling
  let whole := magnitude.takeWhile Char.isDigit
  let scale := magnitude.dropWhile Char.isDigit
  if whole = [] ∨ (whole.head? = some '0' ∧ whole ≠ ['0']) then none
  else if scale = [] then
    if whole.length ≤ Text.digitLimit then
      let n : Int := digitsValue whole
      some (.int (if negative then -n else n))
    else none
  else if isScale scale then some (.real (String.ofList spelling))
  else none

/-- Reads a bare word or number. -/
def word? (spelling : List Char) : Option Json :=
  match String.ofList spelling with
  | "null" => some .null
  | "true" => some (.bool true)
  | "false" => some (.bool false)
  | "NaN" => some (.real "NaN")
  | "Infinity" => some (.real "Infinity")
  | "-Infinity" => some (.real "-Infinity")
  | _ => number? spelling

/-- Starts a token between tokens, or skips a blank. -/
def start? (c : Char) : Option (List Token × Mode) :=
  match c with
  | '\x7b' => some ([.openObject], .idle)
  | '\x7d' => some ([.closeObject], .idle)
  | '[' => some ([.openArray], .idle)
  | ']' => some ([.closeArray], .idle)
  | ':' => some ([.colon], .idle)
  | ',' => some ([.comma], .idle)
  | '\x22' => some ([], .string [])
  | _ =>
    if isSpace c then some ([], .idle)
    else if isWordChar c then some ([], .word [c])
    else none

/-- One character: the tokens that it completes and the mode after it. -/
def feed (mode : Mode) (c : Char) : Option (List Token × Mode) :=
  match mode with
  | .idle => start? c
  | .word taken =>
    if isWordChar c then some ([], .word (c :: taken))
    else do
      let value ← word? taken.reverse
      let (tokens, mode) ← start? c
      return (.scalar value :: tokens, mode)
  | .string taken =>
    if c == '\x22' then
      some ([.scalar (.str (String.ofList (joinSurrogates taken.reverse)))], .idle)
    else if c == '\\' then some ([], .escape taken)
    else if c.toNat < 0x20 then none
    else some ([], .string (c.toNat :: taken))
  | .escape taken =>
    if c == 'u' then some ([], .code taken 4 0)
    else (escaped? c).map fun code => ([], .string (code :: taken))
  | .code taken more value =>
    (hexValue? c).map fun digit =>
      let value := 16 * value + digit
      if more ≤ 1 then ([], .string (value :: taken)) else ([], .code taken (more - 1) value)

/-! ## Values -/

/-- An array or object that is still open, with what it holds so far. -/
inductive Frame where
  /-- The items in reverse. -/
  | array (items : List Json)
  /-- The fields in order and the name whose value is read. -/
  | object (fields : List (String × Json)) (name : String)

/-- What may come next. -/
inductive Next where
  | value
  /-- A value, or the end of the array just opened. -/
  | valueOrClose
  | name
  /-- A name, or the end of the object just opened. -/
  | nameOrClose
  | colon
  | commaOrClose
  | nothing

/-- A reader between two tokens: the open arrays and objects from the inside out, what may come
next, and the value once it is complete. -/
structure Reading where
  frames : List Frame
  next : Next
  result : Json

/-- Puts a complete value into the innermost open array or object. -/
def Reading.complete (value : Json) : List Frame → Reading
  | [] => ⟨[], .nothing, value⟩
  | .array items :: outer => ⟨.array (value :: items) :: outer, .commaOrClose, .null⟩
  | .object fields name :: outer =>
    ⟨.object (putEntry name value fields) name :: outer, .commaOrClose, .null⟩

/-- Opens an array or object inside those that are open, unless there are as many as may be. -/
def Reading.openFrame (limit : Option Nat) (frames : List Frame) (container : Container) :
    Except Fault Reading :=
  if limit.any (· ≤ frames.length) then .error (.tooDeep ⟨container⟩)
  else
    match container with
    | .array => .ok ⟨.array [] :: frames, .valueOrClose, .null⟩
    | .object => .ok ⟨.object [] "" :: frames, .nameOrClose, .null⟩

/-- Starts a value. -/
def Reading.begin (limit : Option Nat) (frames : List Frame) : Token → Except Fault Reading
  | .scalar value => .ok (.complete value frames)
  | .openArray => openFrame limit frames .array
  | .openObject => openFrame limit frames .object
  | _ => .error .malformed

/-- Reads one token. -/
def Reading.read (limit : Option Nat) (r : Reading) (token : Token) : Except Fault Reading :=
  match r.next, token, r.frames with
  | .valueOrClose, .closeArray, .array items :: outer => .ok (.complete (.arr items.reverse) outer)
  | .value, _, frames => Reading.begin limit frames token
  | .valueOrClose, _, frames => Reading.begin limit frames token
  | .nameOrClose, .closeObject, .object fields _ :: outer => .ok (.complete (.obj fields) outer)
  | .nameOrClose, .scalar (.str name), .object fields _ :: outer =>
    .ok ⟨.object fields name :: outer, .colon, .null⟩
  | .name, .scalar (.str name), .object fields _ :: outer =>
    .ok ⟨.object fields name :: outer, .colon, .null⟩
  | .colon, .colon, frames => .ok ⟨frames, .value, .null⟩
  | .commaOrClose, .comma, .array items :: outer => .ok ⟨.array items :: outer, .value, .null⟩
  | .commaOrClose, .comma, .object fields name :: outer =>
    .ok ⟨.object fields name :: outer, .name, .null⟩
  | .commaOrClose, .closeArray, .array items :: outer => .ok (.complete (.arr items.reverse) outer)
  | .commaOrClose, .closeObject, .object fields _ :: outer => .ok (.complete (.obj fields) outer)
  | _, _, _ => .error .malformed

/-! ## Texts -/

/-- Where the pass over a text is: within a token, and between two values. -/
structure Scan where
  mode : Mode
  reading : Reading

/-- Before the first character. -/
def Scan.start : Scan := ⟨.idle, ⟨[], .value, .null⟩⟩

/-- Takes one character. -/
def Scan.feed (limit : Option Nat) (s : Scan) (c : Char) : Except Fault Scan :=
  match Json.feed s.mode c with
  | none => .error .malformed
  | some (tokens, mode) =>
    match tokens.foldlM (Reading.read limit) s.reading with
    | .ok reading => .ok ⟨mode, reading⟩
    | .error e => .error e

/-- The value, once all characters are taken. -/
def Scan.finish (limit : Option Nat) (s : Scan) : Except Fault Json :=
  let last : Except Fault Reading :=
    match s.mode with
    | .idle => .ok s.reading
    | .word taken =>
      match word? taken.reverse with
      | some value => s.reading.read limit (.scalar value)
      | none => .error .malformed
    | _ => .error .malformed
  match last with
  | .ok ⟨[], .nothing, value⟩ => .ok value
  | .ok _ => .error .malformed
  | .error e => .error e

/-- Reads the rest of a text. -/
def Scan.run (limit : Option Nat) (s : Scan) : List Char → Except Fault Json
  | [] => s.finish limit
  | c :: rest =>
    match s.feed limit c with
    | .ok s => s.run limit rest
    | .error e => .error e

/-- Reads a JSON text that holds one value. If there is a `limit`, at most so many arrays and objects
may be open at once. -/
def parse (limit : Option Nat) (text : List Char) : Except Fault Json :=
  Scan.start.run limit text

/-- Reads a JSON text that holds one value. -/
def parse? (text : List Char) : Option Json :=
  match parse none text with
  | .ok value => some value
  | .error _ => none

end ContainerKeys.Json
