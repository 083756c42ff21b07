import SwapRelay.Kind
import SwapRelay.Pool
import SwapRelay.Reference

/-!
# Hops

A hop is one leg of a route through one pool. It mints shares when its output is the pool's share
token, burns shares when its input is, and is a plain swap otherwise.
-/

namespace SwapRelay

/-- One leg of a route; the tokens are given by their places in the route's list of assets. -/
structure Hop where
  poolId : Text
  assetIn : Nat
  assetOut : Nat
  amount : Amount
  userData : Bytes := []
  deriving DecidableEq, Repr, Inhabited

def assetAt (assets : List Text) (i : Nat) : Except Error Text :=
  match assets[i]? with
  | some token => .ok token
  | none => .error .assetIndex

namespace Hop

/-- What the hop does at a pool of this address. -/
def classify (hop : Hop) (assets : List Text) (poolAddress : Text) :
    Except Error ActionKind := do
  let tokenIn ← assetAt assets hop.assetIn
  let tokenOut ← assetAt assets hop.assetOut
  match Address.same tokenOut poolAddress, Address.same tokenIn poolAddress with
  | true, true => .error (.route (.shareAtBothEnds hop.poolId))
  | true, false => .ok .deposit
  | false, true => .ok .withdrawal
  | false, false => .ok .exchange

/-- The asset at this place is the share token of the pool that the hop's id names. -/
def meetsShareToken (hop : Hop) (assets : List Text) (i : Nat) : Except Error Bool := do
  let token ← assetAt assets i
  let address ← Pool.addressOfId hop.poolId
  return Address.same token address

def isDeposit (hop : Hop) (assets : List Text) : Except Error Bool :=
  hop.meetsShareToken assets hop.assetOut

def isWithdrawal (hop : Hop) (assets : List Text) : Except Error Bool :=
  hop.meetsShareToken assets hop.assetIn

def isPoolOperation (hop : Hop) (assets : List Text) : Except Error Bool := do
  if ← hop.isDeposit assets then return true else hop.isWithdrawal assets

end Hop

/-- A hop of the route mints or burns shares, so that the route needs the relayer. The hops after
the first such one are not looked at. -/
def needsRelayer (assets : List Text) : List Hop → Except Error Bool
  | [] => .ok false
  | hop :: rest => do
    if ← hop.isPoolOperation assets then return true else needsRelayer assets rest

end SwapRelay
