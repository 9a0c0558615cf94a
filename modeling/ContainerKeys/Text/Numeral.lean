import ContainerKeys.Text.Blank

/-!
# Whole numbers as text

A numeral is an optional sign and decimal digits of any script; single underscores may stand
between digits and blanks around the whole. The information separators do not count as blanks here.
-/

namespace ContainerKeys.Text

/-- The code points of the digit zero in each script; nine more digits follow each. -/
def zeroDigits : List Nat := [
  0x30, 0x660, 0x6f0, 0x7c0, 0x966, 0x9e6, 0xa66, 0xae6, 0xb66, 0xbe6, 0xc66, 0xce6, 0xd66, 0xde6,
  0xe50, 0xed0, 0xf20, 0x1040, 0x1090, 0x17e0, 0x1810, 0x1946, 0x19d0, 0x1a80, 0x1a90, 0x1b50,
  0x1bb0, 0x1c40, 0x1c50, 0xa620, 0xa8d0, 0xa900, 0xa9d0, 0xa9f0, 0xaa50, 0xabf0, 0xff10, 0x104a0,
  0x10d30, 0x11066, 0x110f0, 0x11136, 0x111d0, 0x112f0, 0x11450, 0x114d0, 0x11650, 0x116c0,
  0x11730, 0x118e0, 0x11950, 0x11c50, 0x11d50, 0x11da0, 0x16a60, 0x16ac0, 0x16b50, 0x1d7ce,
  0x1d7d8, 0x1d7e2, 0x1d7ec, 0x1d7f6, 0x1e140, 0x1e2f0, 0x1e950, 0x1fbf0]

/-- The value of a decimal digit of any script. -/
def digitValue? (c : Char) : Option Nat :=
  (zeroDigits.find? fun z => z ≤ c.toNat && c.toNat < z + 10).map (c.toNat - ·)

/-- A numeral has at most this many digits. -/
def digitLimit : Nat := 4300

/-- Reads digits with single underscores between them; `count` digits with the value `acc` stand
before, and `afterDigit` says whether the character just before is one of them. -/
def readDigits (count acc : Nat) (afterDigit : Bool) : List Char → Option Nat
  | [] => if afterDigit && count ≤ digitLimit then some acc else none
  | c :: rest =>
    match digitValue? c with
    | some d => readDigits (count + 1) (10 * acc + d) true rest
    | none => if c == '_' && afterDigit then readDigits count acc false rest else none

/-- May the character stand around a numeral? -/
def isPadding (c : Char) : Bool :=
  isBlank c && !(0x1C ≤ c.toNat && c.toNat ≤ 0x1F)

/-- Reads a whole number. -/
def readInt? (s : String) : Option Int :=
  match dropEndWhile isPadding (s.toList.dropWhile isPadding) with
  | '-' :: digits => (readDigits 0 0 false digits).map fun n => -(n : Int)
  | '+' :: digits => (readDigits 0 0 false digits).map fun n => (n : Int)
  | digits => (readDigits 0 0 false digits).map fun n => (n : Int)

end ContainerKeys.Text
