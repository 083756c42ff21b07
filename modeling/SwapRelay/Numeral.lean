import SwapRelay.Text

/-!
# Written integers

How the compiler reads an integer from text. Blanks may surround the number and a sign may stand
before it. Digits are the decimal digits of any script, and single underscores may separate them.
A decimal number has at most 4300 digits. A hexadecimal number also takes the letters `a` to `f` of
either case, and may start with `0x`, after which an underscore may stand.
-/

namespace SwapRelay.Numeral

/-- The value of an ASCII letter taken as a digit above nine. -/
def letterValue? (c : Char) : Option Nat :=
  if 'a' ≤ c ∧ c ≤ 'z' then some (c.toNat - 'a'.toNat + 10)
  else if 'A' ≤ c ∧ c ≤ 'Z' then some (c.toNat - 'A'.toNat + 10)
  else none

def digit? (base : Nat) (c : Char) : Option Nat :=
  ((Text.digitValue? c).or (letterValue? c)).filter (· < base)

/-- The digits of a number, one or more, with single underscores between them at most. -/
def digits? (base : Nat) : List Char → Option (List Nat)
  | [] => none
  | [c] => (digit? base c).map ([·])
  | c :: '_' :: rest =>
    match digit? base c, digits? base rest with
    | some d, some ds => some (d :: ds)
    | _, _ => none
  | c :: rest =>
    match digit? base c, digits? base rest with
    | some d, some ds => some (d :: ds)
    | _, _ => none

theorem digits?_cons {base : Nat} {c d : Char} {n : Nat} {rest : List Char} {ns : List Nat}
    (hd : d ≠ '_') (hc : digit? base c = some n) (hrest : digits? base (d :: rest) = some ns) :
    digits? base (c :: d :: rest) = some (n :: ns) := by
  simp [digits?, hd, hc, hrest]

/-- The number that a list of digits writes, the most significant first. -/
def ofDigits (base : Nat) (digits : List Nat) : Nat :=
  digits.foldl (fun n d => n * base + d) 0

/-- The most digits that a decimal number may have. -/
def maxDecimalDigits : Nat := 4300

def decimalMagnitude? (cs : List Char) : Option Nat :=
  ((digits? 10 cs).filter (·.length ≤ maxDecimalDigits)).map (ofDigits 10)

/-- What follows the mark of a hexadecimal number and the underscore that may come after it. -/
def dropHexMark : List Char → List Char
  | '0' :: x :: rest =>
    if x = 'x' ∨ x = 'X' then
      match rest with
      | '_' :: rest => rest
      | _ => rest
    else '0' :: x :: rest
  | cs => cs

def hexMagnitude? (cs : List Char) : Option Nat :=
  (digits? 16 (dropHexMark cs)).map (ofDigits 16)

def signed? (magnitude? : List Char → Option Nat) : List Char → Option Int
  | '+' :: rest => (magnitude? rest).map Int.ofNat
  | '-' :: rest => (magnitude? rest).map fun n => -Int.ofNat n
  | cs => (magnitude? cs).map Int.ofNat

def readDecimal (text : Text) : Option Int :=
  signed? decimalMagnitude? (Text.trim text)

def readHex (text : Text) : Option Int :=
  signed? hexMagnitude? (Text.trim text)

example : [" +1_0\n", "-\uff11\u0663"].map (readDecimal ·.toList) = [some 10, some (-13)] := by
  decide
example : ∀ s ∈ ["1__0", "_1", "1_", "", "1.0", "+ 1"], readDecimal s.toList = none := by decide
example : ["0x_ff", "-F_F"].map (readHex ·.toList) = [some 255, some (-255)] := by decide
example : ∀ s ∈ ["0x__1", "0x", "_1"], readHex s.toList = none := by decide

end SwapRelay.Numeral
