/-!
# Numbers of the 64-bit format

A decimal number with a fraction or an exponent stands for the nearest number of the binary format
of 64 bits, a tie going to the even mantissa. The value is kept exactly, as a mantissa and a power
of two, so that "is it an integer" and "the integer part" are questions of integer arithmetic.
-/

namespace SwapRelay

inductive Binary64 where
  /-- The value `mantissa * 2 ^ exponent`. -/
  | finite (mantissa : Int) (exponent : Int)
  | infinite (negative : Bool)
  | undefined
  deriving DecidableEq, Repr, Inhabited

namespace Binary64

/-- The integer nearest to `num / den`, a tie going to the even one. -/
def roundDiv (num den : Nat) : Nat :=
  let q := num / den
  let r := num % den
  if 2 * r < den then q
  else if den < 2 * r then q + 1
  else if q % 2 = 0 then q else q + 1

example : roundDiv 5 2 = 2 ∧ roundDiv 7 2 = 4 ∧ roundDiv 8 3 = 3 := by decide

/-- The quotient `num / den` divided by `2 ^ e`, as a quotient again. -/
def scaleDown (num den : Nat) (e : Int) : Nat × Nat :=
  if 0 ≤ e then (num, den * Nat.pow 2 e.toNat) else (num * Nat.pow 2 (-e).toNat, den)

/-- The greatest `e` with `2 ^ e ≤ num / den`. -/
def floorLog (num den : Nat) : Int :=
  let e : Int := (Nat.log2 num : Int) - Nat.log2 den
  let (n, d) := scaleDown num den e
  if n < d then e - 1 else e

/-- The least exponent of the format, that of the subnormal numbers. -/
def minExponent : Int := -1074

/-- The greatest exponent of a 53-bit mantissa. -/
def maxExponent : Int := 971

/-- The nearest number to `num / den`, with the given sign. -/
def ofQuotient (negative : Bool) (num den : Nat) : Binary64 :=
  if num = 0 then .finite 0 0
  else
    let e := max (floorLog num den - 52) minExponent
    let (n, d) := scaleDown num den e
    let m := roundDiv n d
    if maxExponent < e ∨ (e = maxExponent ∧ Nat.pow 2 53 ≤ m) then .infinite negative
    else .finite (if negative then -(m : Int) else m) e

/-- The nearest number to `digits * 10 ^ exponent`, where `digits` has at most `width` digits.
Numbers far out of range are settled without writing them out. -/
def ofDecimal (negative : Bool) (digits width : Nat) (exponent : Int) : Binary64 :=
  if digits = 0 ∨ exponent + width < -330 then .finite 0 0
  else if 310 < exponent then .infinite negative
  else if 0 ≤ exponent then ofQuotient negative (digits * Nat.pow 10 exponent.toNat) 1
  else ofQuotient negative digits (Nat.pow 10 (-exponent).toNat)

def ofInt (n : Int) : Binary64 :=
  ofQuotient (n < 0) n.natAbs 1

/-- The integer part, toward zero; zero for what is not finite. -/
def truncate : Binary64 → Int
  | .finite m e => if 0 ≤ e then m * Nat.pow 2 e.toNat else m.tdiv (Nat.pow 2 (-e).toNat)
  | _ => 0

def isFinite : Binary64 → Bool
  | .finite _ _ => true
  | _ => false

def isInteger : Binary64 → Bool
  | .finite m e => 0 ≤ e || m % Nat.pow 2 (-e).toNat == 0
  | _ => false

example : (ofDecimal false 170000000099 12 (-2)).truncate = 1700000000 := by decide
example : (ofInt 9007199254740993).truncate = 9007199254740992 ∧ (ofInt (-7)).truncate = -7 := by
  decide +kernel
example : (ofDecimal true 15 2 (-1)).truncate = -1 ∧ (ofDecimal false 50 2 (-1)).isInteger := by
  decide
example : (ofDecimal false 99999999999999999999 20 (-20)).truncate = 1 := by decide +kernel
example : ofDecimal false 1 1 309 = .infinite false ∧
    (ofDecimal false 1 1 25).truncate = 10000000000000000905969664 := by
  decide +kernel

end Binary64

end SwapRelay
