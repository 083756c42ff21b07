import SwapRelay.Hex

/-!
# ABI values

The values that a contract call carries, as far as the relayer's calls need them. A value knows its
own form; whether it fits that form is a question of its own, `Value.check`, which is asked before
anything is written.
-/

namespace SwapRelay.Abi

inductive Fault where
  /-- An integer outside its range, or more bytes than a word holds. -/
  | outOfBounds
  /-- An address that is not 20 bytes long. -/
  | addressLength
  deriving DecidableEq, Repr

inductive Value where
  /-- A natural number below `2 ^ bits`. -/
  | uint (bits : Nat) (n : Int)
  /-- An integer of `bits` bits in two's complement. -/
  | sint (bits : Nat) (n : Int)
  | address (bs : Bytes)
  | bool (b : Bool)
  /-- At most 32 bytes, filled up with zeros. -/
  | word (bs : Bytes)
  | bytes (bs : Bytes)
  | array (items : List Value)
  | tuple (items : List Value)
  deriving Repr, Inhabited

namespace Value

mutual

/-- The first fault of a value, its parts taken in order. -/
def check : Value → Except Fault Unit
  | .uint bits n => if 0 ≤ n ∧ n < Nat.pow 2 bits then .ok () else .error .outOfBounds
  | .sint bits n =>
    if -(Nat.pow 2 (bits - 1) : Int) ≤ n ∧ n < Nat.pow 2 (bits - 1) then .ok ()
    else .error .outOfBounds
  | .address bs => if bs.length = 20 then .ok () else .error .addressLength
  | .bool _ => .ok ()
  | .word bs => if bs.length ≤ 32 then .ok () else .error .outOfBounds
  | .bytes _ => .ok ()
  | .array items => checkAll items
  | .tuple items => checkAll items

def checkAll : List Value → Except Fault Unit
  | [] => .ok ()
  | v :: rest =>
    match v.check with
    | .ok () => checkAll rest
    | .error e => .error e

end

mutual

/-- The length of the value's encoding varies, so it is kept apart from the fixed parts. -/
def isDynamic : Value → Bool
  | .bytes _ => true
  | .array _ => true
  | .tuple items => anyDynamic items
  | _ => false

def anyDynamic : List Value → Bool
  | [] => false
  | v :: rest => v.isDynamic || anyDynamic rest

end

end Value

end SwapRelay.Abi
