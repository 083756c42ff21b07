import SwapRelay.Numeral

/-!
# Integers as requests write them

A request may write an integer as text. The plain form is a minus sign or none and then ASCII
digits, at most 4300, of which the first is no zero unless it stands alone. A text of any other form
is tidied and read once more: the blanks around it go, then a plus sign, the zeros in front, a
fraction that is all zeros, and single underscores. Only a text whose digits are too many as it
stands is told so; one that has too many once it is tidied is simply no integer.
-/

namespace SwapRelay.Numeral

inductive TextFault where
  | malformed
  | tooLong
  deriving DecidableEq, Repr

def plainMagnitude (cs : Text) : Except TextFault Nat :=
  let digits := cs.takeWhile Char.isDigit
  if cs = ['0'] then .ok 0
  else if digits.isEmpty || digits.head? = some '0' then .error .malformed
  else if maxDecimalDigits < digits.length then .error .tooLong
  else if digits.length < cs.length then .error .malformed
  else .ok (ofDigits 10 (digits.map fun d => d.toNat - '0'.toNat))

def readPlain : Text → Except TextFault Int
  | '-' :: cs => (plainMagnitude cs).map fun n => -Int.ofNat n
  | cs => (plainMagnitude cs).map Int.ofNat

/-- What follows zeros and underscores, the last of which is `last`: that one is kept where a digit
would be missing without it. -/
def dropZerosAfter (last : Char) : Text → Option Text
  | [] => some [last]
  | c :: rest =>
    if c = '0' ∨ c = '_' then dropZerosAfter c rest
    else if c = '.' then some (last :: c :: rest)
    else if c = '-' ∨ c.isDigit then some (c :: rest)
    else none

/-- The number without the zeros in front of it, and the underscores among those. -/
def dropZeros : Text → Option Text
  | '0' :: rest => dropZerosAfter '0' rest
  | c :: rest => if c.isDigit then some (c :: rest) else none
  | [] => none

/-- The number without its fraction, where that is one zero or several. -/
def dropZeroFraction (cs : Text) : Text :=
  let part := cs.dropWhile (· ≠ '.')
  if 2 ≤ part.length && part.tail.all (· == '0') then cs.takeWhile (· ≠ '.') else cs

def hasUnderscorePair : Text → Bool
  | '_' :: '_' :: _ => true
  | _ :: rest => hasUnderscorePair rest
  | [] => false

/-- The number without its underscores, where each stands alone and inside. -/
def dropUnderscores (cs : Text) : Text :=
  if cs.head? = some '_' || cs.getLast? = some '_' || hasUnderscorePair cs then cs
  else cs.filter (· ≠ '_')

def tidyMagnitude (cs : Text) : Option Text :=
  (dropZeros cs).map fun cs => dropUnderscores (dropZeroFraction cs)

def tidy (t : Text) : Option Text :=
  match Text.trim t with
  | '+' :: cs => tidyMagnitude cs
  | '-' :: cs => (tidyMagnitude cs).map ('-' :: ·)
  | cs => tidyMagnitude cs

/-- The integer that a text writes, plainly or not. -/
def readLenient (t : Text) : Except TextFault Int :=
  match readPlain t with
  | .error .malformed =>
    match (tidy t).map readPlain with
    | some (.ok n) => .ok n
    | _ => .error .malformed
  | result => result

example : [" +007.00", "0__1_0", "-0", "-0__1"].map (readLenient ·.toList |>.toOption) =
    [some 7, some 10, some 0, some (-1)] := by decide
example : ["0-0", "0-5", "0_-_0"].map (readLenient ·.toList |>.toOption) =
    [some 0, some (-5), some 0] := by decide
example : ∀ s ∈ ["", "+-0", "5.", "1__0", "_1", "0-01", "--1", "0x1", "1.0_0"],
    (readLenient s.toList).toOption = none := by decide

end SwapRelay.Numeral
