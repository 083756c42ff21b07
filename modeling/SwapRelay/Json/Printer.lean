import SwapRelay.Json.Basic

/-!
# Writing JSON

Values are written without gaps. A string keeps every character but the quote, the backslash and
the control characters of ASCII, which are escaped. A number that is no integer is written exactly,
as an integer and a power of ten.
-/

namespace SwapRelay.Json

/-- The digit of a value below sixteen, as a `\u` escape writes it. -/
def escapeDigit (n : Nat) : Char :=
  Nat.digitChar (n % 16)

def writeChar (c : Char) : List Char :=
  if c = '"' then ['\\', '"']
  else if c = '\\' then ['\\', '\\']
  else if c.toNat < 0x20 then ['\\', 'u', '0', '0', escapeDigit (c.toNat / 16), escapeDigit c.toNat]
  else [c]

def writeString (s : String) : List Char :=
  '"' :: s.toList.flatMap writeChar ++ ['"']

/-- A number of the 64-bit format: `m * 2 ^ (-k)` is `m * 5 ^ k` times `10 ^ (-k)`. -/
def writeReal : Binary64 → List Char
  | .finite m e =>
    if 0 ≤ e then (toString (m * Nat.pow 2 e.toNat) ++ "e0").toList
    else (toString (m * Nat.pow 5 (-e).toNat) ++ "e" ++ toString e).toList
  | .infinite negative => if negative then "-Infinity".toList else "Infinity".toList
  | .undefined => "NaN".toList

mutual

def write : Json → List Char
  | .null => "null".toList
  | .bool b => (toString b).toList
  | .int n => (toString n).toList
  | .real x => writeReal x
  | .str s => writeString s
  | .arr items => '[' :: writeItems items
  | .obj fields => '\x7b' :: writeFields fields

def writeItems : List Json → List Char
  | [] => [']']
  | [j] => write j ++ [']']
  | j :: rest => write j ++ ',' :: writeItems rest

def writeFields : List (String × Json) → List Char
  | [] => ['\x7d']
  | [(name, j)] => writeString name ++ ':' :: write j ++ ['\x7d']
  | (name, j) :: rest => writeString name ++ ':' :: write j ++ ',' :: writeFields rest

end

def render (j : Json) : String :=
  String.ofList j.write

end SwapRelay.Json
