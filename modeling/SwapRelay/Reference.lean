import SwapRelay.Error

/-!
# Chained references

A reference stands in an amount field for an amount that is only known once an earlier call of the
same multicall has run. Its upper 16 bits are a tag, one for a slot that its first read clears and
one for a slot that can be read at will, and the other 240 bits are a key. A literal amount that
carries a tag would be taken for a reference, so no such amount is let through.
-/

namespace SwapRelay

/-- The name of a stored amount. -/
structure Reference where
  key : Int
  /-- The slot is cleared by its first read. -/
  temporary : Bool := true
  deriving DecidableEq, Repr, Inhabited

namespace Reference

def tag (temporary : Bool) : Int :=
  if temporary then 0xBA10 else 0xBA11

def keySpan : Int := Nat.pow 2 240

/-- The value that stands for a reference in call data. -/
def value (r : Reference) : Except Error Int :=
  if 0 ≤ r.key ∧ r.key < keySpan then .ok (tag r.temporary * keySpan + r.key)
  else .error (.keyRange r.key)

/-- The key of a value of the given flavour. -/
def keyOf (temporary : Bool) (value : Int) : Except Error Int :=
  if value / keySpan = tag temporary then .ok (value % keySpan)
  else .error (.otherFlavour temporary value)

/-- The number carries the tag of a reference. -/
def isReference (n : Int) : Bool :=
  0 ≤ n && n ≤ Uint256.max && (n / keySpan == tag true || n / keySpan == tag false)

def ofValue (value : Int) : Except Error Reference :=
  if isReference value then
    let temporary := value / keySpan == tag true
    (keyOf temporary value).map (⟨·, temporary⟩)
  else .error (.notReference value)

/-- The lasting flavour of the same key. -/
def readOnly (r : Reference) : Reference :=
  { r with temporary := false }

end Reference

/-- The amount of a hop. -/
inductive Amount where
  | literal (n : Int)
  | chained (r : Reference)
  deriving DecidableEq, Repr, Inhabited

/-- The number that is written into call data for an amount. A literal is checked here, where it is
written, and nowhere else. -/
def Amount.resolve : Amount → Except Error Int
  | .chained r => r.value
  | .literal n =>
    if n < 0 ∨ Uint256.max < n then .error (.route (.amountRange n))
    else if Reference.isReference n then .error (.route (.amountTagged n))
    else .ok n

end SwapRelay
