import SwapRelay.Abi.Encode
import SwapRelay.Error

/-!
# User data of weighted pools

A deposit or a withdrawal carries a message to the pool: a number for its kind, then what that kind
needs. Amounts may be references, which the relayer replaces before the pool sees them.
-/

namespace SwapRelay

/-- The message of a deposit or a withdrawal to its pool. -/
inductive PoolUserData where
  /-- Pay in exactly these amounts, for at least so many shares. -/
  | joinExactIn (amounts : List Int) (minShares : Int)
  /-- Mint exactly so many shares, paid in the token at this place. -/
  | joinExactOut (shares : Int) (token : Int)
  /-- Burn exactly so many shares, paid out in the token at this place. -/
  | exitExactIn (shares : Int) (token : Int)
  /-- Pay out exactly these amounts, for at most so many shares. -/
  | exitExactOut (amounts : List Int) (maxShares : Int)
  deriving DecidableEq, Repr, Inhabited

namespace PoolUserData

def arguments : PoolUserData → List Abi.Value
  | .joinExactIn amounts minShares =>
    [.uint 256 1, .array (amounts.map (.uint 256 ·)), .uint 256 minShares]
  | .joinExactOut shares token => [.uint 256 2, .uint 256 shares, .uint 256 token]
  | .exitExactIn shares token => [.uint 256 0, .uint 256 shares, .uint 256 token]
  | .exitExactOut amounts maxShares =>
    [.uint 256 2, .array (amounts.map (.uint 256 ·)), .uint 256 maxShares]

def encode (data : PoolUserData) : Except Error Bytes :=
  (Abi.write data.arguments).mapError .abi

end PoolUserData

end SwapRelay
