/-!
# UTF-8

Bytes are read as a list of pieces: a piece is one character, or the longest start of a character
that its next byte breaks off. Strict decoding stops at the first broken piece and says where and
why; lossy decoding puts the replacement character in its place. Both read the same pieces.
-/

namespace ContainerKeys

/-- The contents of a file. -/
abbrev Bytes := List UInt8

namespace Utf8

/-- Why a piece is no character. -/
inductive Flaw where
  /-- The byte starts no character. -/
  | start
  /-- The next byte does not go on with the character. -/
  | continuation
  /-- The bytes end inside the character. -/
  | ending
deriving DecidableEq, Repr

/-- A character, or the broken start of one, with the number of its bytes. -/
inductive Piece where
  | char (c : Char) (width : Nat)
  | broken (lead : UInt8) (width : Nat) (flaw : Flaw)
deriving DecidableEq, Repr

/-- The number of bytes of a piece. -/
def Piece.width : Piece → Nat
  | .char _ width => width
  | .broken _ width _ => width

/-- What a first byte calls for: how many bytes follow, the bounds of the first of them, and the
part of the code point that the first byte itself gives. -/
structure Lead where
  more : Nat
  low : Nat
  high : Nat
  bits : Nat

/-- Reads a first byte. The bounds leave out overlong forms, surrogates and code points that are
too large. -/
def lead? (b : Nat) : Option Lead :=
  if b < 0x80 then some ⟨0, 0, 0, b⟩
  else if b < 0xC2 then none
  else if b < 0xE0 then some ⟨1, 0x80, 0xBF, b - 0xC0⟩
  else if b == 0xE0 then some ⟨2, 0xA0, 0xBF, 0⟩
  else if b == 0xED then some ⟨2, 0x80, 0x9F, 0xD⟩
  else if b < 0xF0 then some ⟨2, 0x80, 0xBF, b - 0xE0⟩
  else if b == 0xF0 then some ⟨3, 0x90, 0xBF, 0⟩
  else if b < 0xF4 then some ⟨3, 0x80, 0xBF, b - 0xF0⟩
  else if b == 0xF4 then some ⟨3, 0x80, 0x8F, 4⟩
  else none

/-- Reads the `more` bytes that follow in a character; `width` bytes with the value `bits` stand
before, and the next byte is bounded by `low` and `high`. -/
def follow (first : UInt8) : (more low high bits width : Nat) → Bytes → Piece
  | 0, _, _, bits, width, _ => .char (Char.ofNat bits) width
  | _ + 1, _, _, _, width, [] => .broken first width .ending
  | more + 1, low, high, bits, width, b :: rest =>
    if low ≤ b.toNat && b.toNat ≤ high then
      follow first more 0x80 0xBF (bits * 64 + b.toNat % 64) (width + 1) rest
    else .broken first width .continuation

/-- The first piece of the bytes `b :: rest`. -/
def piece (b : UInt8) (rest : Bytes) : Piece :=
  match lead? b.toNat with
  | none => .broken b 1 .start
  | some l => follow b l.more l.low l.high l.bits 1 rest

/-- All pieces of the bytes, in order. -/
def pieces : Bytes → List Piece
  | [] => []
  | b :: rest =>
    let p := piece b rest
    p :: pieces (rest.drop (p.width - 1))
termination_by bytes => bytes.length
decreasing_by simp only [List.length_drop, List.length_cons]; omega

/-- Where and why bytes are not UTF-8: the broken piece from `start` up to `stop`. -/
structure Fault where
  lead : UInt8
  start : Nat
  stop : Nat
  flaw : Flaw
deriving DecidableEq, Repr

/-- The characters of the pieces, or the fault of the first broken one; `offset` bytes stand
before. -/
def charsFrom (offset : Nat) : List Piece → Except Fault (List Char)
  | [] => .ok []
  | .char c width :: rest => (charsFrom (offset + width) rest).map (c :: ·)
  | .broken lead width flaw :: _ => .error ⟨lead, offset, offset + width, flaw⟩

/-- Strict decoding. -/
def decode (bytes : Bytes) : Except Fault (List Char) :=
  charsFrom 0 (pieces bytes)

/-- The character that stands for a broken piece. -/
def replacement : Char := '�'

/-- The character of a piece, or the replacement character. -/
def Piece.shown : Piece → Char
  | .char c _ => c
  | .broken .. => replacement

/-- Lossy decoding: every broken piece becomes one replacement character. -/
def decodeLossy (bytes : Bytes) : List Char :=
  (pieces bytes).map Piece.shown

/-- The bytes of a text. -/
def encode (s : String) : Bytes :=
  s.toUTF8.toList

/-- The wording of a flaw. -/
def Flaw.message : Flaw → String
  | .start => "invalid start byte"
  | .continuation => "invalid continuation byte"
  | .ending => "unexpected end of data"

/-- The two hexadecimal digits of a byte. -/
def hexByte (b : UInt8) : String :=
  let digit (n : Nat) : Char := (Nat.digitChar n)
  String.ofList [digit (b.toNat / 16), digit (b.toNat % 16)]

/-- The wording of a fault. -/
def Fault.message (f : Fault) : String :=
  let place :=
    if f.stop - f.start == 1 then
      "byte 0x" ++ hexByte f.lead ++ " in position " ++ toString f.start
    else
      "bytes in position " ++ toString f.start ++ "-" ++ toString (f.stop - 1)
  "'utf-8' codec can't decode " ++ place ++ ": " ++ f.flaw.message

end Utf8

end ContainerKeys
