import SwapRelay.Kind
import SwapRelay.Request.Check

/-!
# Requests and results

A request holds a priced route: its tokens, its steps, the pools it uses, and the amounts at its
ends. Every text has a checked form, and amounts are kept as they were sent. The result is one call,
to be sent to the relayer.
-/

namespace SwapRelay

/-- One leg of a route as it is sent. -/
structure SwapStep where
  poolId : Text
  assetIn : Nat
  assetOut : Nat
  amount : Text
  userData : Text
  deriving DecidableEq, Repr, Inhabited

/-- A pool as it is sent; without an address, the one in its id counts. -/
structure PoolInfo where
  id : Text
  address : Option Text
  tokens : List Text
  deriving DecidableEq, Repr, Inhabited

/-- A priced route as it is sent. -/
structure RouteRequest where
  tokenIn : Text
  tokenOut : Text
  tokens : List Text
  swaps : List SwapStep
  swapAmount : Text
  returnAmount : Text
  user : Text
  authorisation : Option Text
  swapType : SwapType
  pools : List PoolInfo
  deriving DecidableEq, Repr, Inhabited

structure CompiledRoute where
  target : Text
  data : Text
  deriving DecidableEq, Repr, Inhabited

/-- A swap type, by its number. A number that does not fit 64 bits is told apart from one that is
merely no swap type. -/
def SwapType.check (j : Json) : Check SwapType :=
  match Check.integer j with
  | .ok n =>
    if -(Nat.pow 2 63 : Int) ≤ n ∧ n < Nat.pow 2 63 then
      match ofCode? n with
      | some t => .good t
      | none => Check.flaw .notSwapType j
    else Check.flaw .longInteger j
  | .error _ => Check.flaw .notSwapType j

namespace SwapStep

def check : Json → Check SwapStep :=
  Check.record "SwapStep" fun fields =>
    mk <$> Check.required fields "poolId" "pool_id" (Check.text .poolId)
      <*> Check.required fields "assetInIndex" "asset_in_index" Check.place
      <*> Check.required fields "assetOutIndex" "asset_out_index" Check.place
      <*> Check.required fields "amount" "amount" Check.amount
      <*> Check.optional fields "userData" "user_data" ['0', 'x'] (Check.text .bytes)

def toJson (s : SwapStep) : Json :=
  .obj [("poolId", .ofText s.poolId), ("assetInIndex", .int s.assetIn),
    ("assetOutIndex", .int s.assetOut), ("amount", .ofText s.amount),
    ("userData", .ofText s.userData)]

end SwapStep

namespace PoolInfo

def check : Json → Check PoolInfo :=
  Check.record "PoolInfo" fun fields =>
    mk <$> Check.required fields "id" "id" (Check.text .poolId)
      <*> Check.optional fields "address" "address" none (Check.nullable (Check.text .address))
      <*> Check.required fields "tokensList" "tokens" (Check.someItems (Check.text .address))

def toJson (p : PoolInfo) : Json :=
  .obj [("id", .ofText p.id), ("address", Json.ofText? p.address),
    ("tokensList", .arr (p.tokens.map Json.ofText))]

end PoolInfo

namespace RouteRequest

def check : Json → Check RouteRequest :=
  Check.record "RouteRequest" fun fields =>
    mk <$> Check.required fields "tokenIn" "token_in" (Check.text .address)
      <*> Check.required fields "tokenOut" "token_out" (Check.text .address)
      <*> Check.required fields "tokenAddresses" "token_addresses"
        (Check.someItems (Check.text .address))
      <*> Check.optional fields "swaps" "swaps" [] (Check.items SwapStep.check)
      <*> Check.required fields "swapAmount" "swap_amount" Check.amount
      <*> Check.required fields "returnAmount" "return_amount" Check.amount
      <*> Check.required fields "user" "user" (Check.text .address)
      <*> Check.optional fields "authorisation" "authorisation" none
        (Check.nullable (Check.text .bytes))
      <*> Check.optional fields "swapType" "swap_type" .exactIn SwapType.check
      <*> Check.optional fields "pools" "pools" [] (Check.items PoolInfo.check)

def toJson (r : RouteRequest) : Json :=
  .obj [("tokenIn", .ofText r.tokenIn), ("tokenOut", .ofText r.tokenOut),
    ("tokenAddresses", .arr (r.tokens.map Json.ofText)),
    ("swaps", .arr (r.swaps.map SwapStep.toJson)),
    ("swapAmount", .ofText r.swapAmount), ("returnAmount", .ofText r.returnAmount),
    ("user", .ofText r.user), ("authorisation", Json.ofText? r.authorisation),
    ("swapType", .int r.swapType.code), ("pools", .arr (r.pools.map PoolInfo.toJson))]

end RouteRequest

namespace CompiledRoute

/-- A result of the given parts, if they match their forms. -/
def ofTexts (target data : Text) : Check CompiledRoute :=
  mk <$> (Check.ofForm .address target).within (.field "to")
    <*> (Check.ofForm .bytes data).within (.field "data")

def check : Json → Check CompiledRoute :=
  Check.record "CompiledRoute" fun fields =>
    mk <$> Check.required fields "to" "to" (Check.text .address)
      <*> Check.required fields "data" "data" (Check.text .bytes)

def toJson (c : CompiledRoute) : Json :=
  .obj [("to", .ofText c.target), ("data", .ofText c.data)]

end CompiledRoute

end SwapRelay
