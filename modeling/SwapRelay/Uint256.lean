import SwapRelay.Json.Basic
import SwapRelay.Numeral

/-!
# Amounts as they are sent

A 256-bit amount comes as a JSON integer or as decimal text. An accepted text is kept as it was
sent, and only read as a number where the number is needed. Truth values count as integers here and
are kept by name.
-/

namespace SwapRelay.Uint256

def max : Int := Nat.pow 2 256 - 1

/-- Why a value is no amount; numbers are shown as they were sent. -/
inductive Fault where
  | negative (shown : Text)
  | overflow (shown : Text)
  /-- The value is neither text nor an integer. -/
  | kind (name : String)
  | unreadable (text : Text)
  deriving DecidableEq, Repr

def Fault.message : Fault → String
  | .negative shown => "Uint256 cannot be negative: " ++ shown.shown
  | .overflow shown => "Uint256 overflow: " ++ shown.shown ++ " > 2^256-1"
  | .kind name => "Uint256 must be string or int, got " ++ name
  | .unreadable text => "Uint256 must be a decimal integer string: '" ++ text.shown ++ "'"

/-- The number is in range; `shown` is how it was sent. -/
def inRange (n : Int) (shown : Text) : Except Fault Text :=
  if n < 0 then .error (.negative shown)
  else if max < n then .error (.overflow shown)
  else .ok shown

/-- The text that is kept of an amount. -/
def validate : Json → Except Fault Text
  | .int n => inRange n (toString n).toList
  | .bool b => .ok (if b then "True" else "False").toList
  | .str s =>
    match Numeral.readDecimal s.toList with
    | some n => inRange n s.toList
    | none => .error (.unreadable s.toList)
  | .null => .error (.kind "NoneType")
  | .real _ => .error (.kind "float")
  | .arr _ => .error (.kind "list")
  | .obj _ => .error (.kind "dict")

end SwapRelay.Uint256
