import SwapRelay.Text

/-!
# The encoding of JSON text

JSON text comes in one of the encoding forms of Unicode. Its first two characters are ASCII, so
which of the first four bytes are zero tells the form and the order of the bytes. A surrogate that
stands alone gives the replacement character; bytes that are left over, or a number that is no code
point, make the text unreadable.
-/

namespace SwapRelay.Json

/-- An encoding form; the wider ones may have the high byte first. -/
inductive Encoding where
  | utf8
  | utf16 (highFirst : Bool)
  | utf32 (highFirst : Bool)
  deriving DecidableEq, Repr

namespace Encoding

def detect : List UInt8 → Encoding
  | a :: b :: c :: d :: _ =>
    if a = 0 then if b = 0 then .utf32 true else .utf16 true
    else if b = 0 then if c = 0 ∧ d = 0 then .utf32 false else .utf16 false
    else .utf8
  | [a, b] =>
    if a = 0 then .utf16 true
    else if b = 0 then .utf16 false
    else .utf8
  | _ => .utf8

def pair (highFirst : Bool) (a b : UInt8) : Nat :=
  if highFirst then a.toNat * 256 + b.toNat else b.toNat * 256 + a.toNat

/-- The numbers of two bytes each, if none is left over. -/
def pairs (highFirst : Bool) : List UInt8 → Option (List Nat)
  | [] => some []
  | [_] => none
  | a :: b :: rest => (pairs highFirst rest).map (pair highFirst a b :: ·)

def isHighHalf (u : Nat) : Bool :=
  0xD800 ≤ u && u < 0xDC00

def isLowHalf (u : Nat) : Bool :=
  0xDC00 ≤ u && u < 0xE000

/-- The character of a unit that stands alone; half a pair gives the replacement character. -/
def ofUnit (u : Nat) : Char :=
  if isHighHalf u || isLowHalf u then '\ufffd' else Char.ofNat u

def ofHalves (high low : Nat) : Char :=
  Char.ofNat (0x10000 + (high - 0xD800) * 0x400 + (low - 0xDC00))

def ofUnits16 : List Nat → Text
  | u :: v :: rest =>
    if isHighHalf u && isLowHalf v then ofHalves u v :: ofUnits16 rest
    else ofUnit u :: ofUnits16 (v :: rest)
  | [u] => [ofUnit u]
  | [] => []

/-- The text of 32-bit units, which come as halves; `none` if one is no code point. -/
def ofUnits32 (highFirst : Bool) : List Nat → Option Text
  | a :: b :: rest =>
    let u := if highFirst then a * 65536 + b else b * 65536 + a
    if u < 0x110000 then (ofUnits32 highFirst rest).map (ofUnit u :: ·) else none
  | [_] => none
  | [] => some []

example : ofUnits16 [0xD83D, 0xDE00, 0xD83D, 0x41] = ['😀', '\ufffd', 'A'] := by decide

end Encoding

/-- The text without the byte order mark in front of it. -/
def dropMark : Text → Text
  | '\ufeff' :: rest => rest
  | cs => cs

/-- The text whose bytes a body holds; the body itself, unless its first bytes tell of another
encoding form. -/
def decodeBody (body : String) : Option Text :=
  if (body.toList.take 2).contains '\x00' then
    let bytes := body.toUTF8.toList
    match Encoding.detect bytes with
    | .utf8 => some (dropMark body.toList)
    | .utf16 highFirst => (Encoding.pairs highFirst bytes).map Encoding.ofUnits16
    | .utf32 highFirst => (Encoding.pairs highFirst bytes).bind (Encoding.ofUnits32 highFirst)
  else some (dropMark body.toList)

end SwapRelay.Json
