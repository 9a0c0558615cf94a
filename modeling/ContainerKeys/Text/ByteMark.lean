import ContainerKeys.Text.Utf8

/-!
# Marked bytes

A file name is a row of bytes, and a text may spell out some of them one by one, as `\udcc3\udca9` in a
JSON string does. A byte spelled out is held as a character set aside for it, its mark. To a file system
a text with marks is the same as the text of its bytes, but the two are different texts.

* `Text.byteMark`, `Text.markedByte?` — the mark of a byte, and the byte of a mark.
* `Text.nameOf` — the file name that a text stands for.
-/

namespace ContainerKeys.Text

/-- The mark of a byte, a character for private use. Only bytes of `0x80` and above are marked. -/
def byteMark (b : UInt8) : Char :=
  Char.ofNat (0x10DC00 + b.toNat)

/-- The byte of a mark. -/
def markedByte? (c : Char) : Option UInt8 :=
  if 0x10DC80 ≤ c.toNat ∧ c.toNat ≤ 0x10DCFF then some (UInt8.ofNat (c.toNat - 0x10DC00)) else none

/-- Is the character the mark of a byte? -/
def isByteMark (c : Char) : Bool :=
  (markedByte? c).isSome

/-- The bytes of a character: one for a mark. -/
def bytesOf (c : Char) : Bytes :=
  match markedByte? c with
  | some b => [b]
  | none => Utf8.encode (String.singleton c)

/-- The file name that a text stands for. Marks that make no characters stay, and there is no file with
such a name. -/
def nameOf (cs : List Char) : String :=
  if cs.any isByteMark then
    match Utf8.decode (cs.flatMap bytesOf) with
    | .ok name => String.ofList name
    | .error _ => String.ofList cs
  else String.ofList cs

/-- A text that cannot be printed, since there are marks from `start` up to `stop`, the first of them for
`byte`. -/
structure Unprintable where
  byte : UInt8
  start : Nat
  stop : Nat
deriving DecidableEq, Repr

/-- The wording of the fault; a mark is shown as JSON spells it out. -/
def Unprintable.message (f : Unprintable) : String :=
  let place :=
    if f.stop - f.start = 1 then
      "character '\\udc" ++ Utf8.hexByte f.byte ++ "' in position " ++ toString f.start
    else
      "characters in position " ++ toString f.start ++ "-" ++ toString (f.stop - 1)
  "'utf-8' codec can't encode " ++ place ++ ": surrogates not allowed"

/-- Refuses a text with marks. -/
def checkPrintable (cs : List Char) : Except Unprintable Unit :=
  let start := (cs.takeWhile (!isByteMark ·)).length
  match (cs.drop start).takeWhile isByteMark with
  | [] => .ok ()
  | first :: more => .error ⟨(markedByte? first).getD 0, start, start + 1 + more.length⟩

end ContainerKeys.Text
