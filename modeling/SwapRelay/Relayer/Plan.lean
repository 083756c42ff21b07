import SwapRelay.Action
import SwapRelay.Pool
import SwapRelay.Pool.UserData
import SwapRelay.Relayer.Routing
import SwapRelay.Relayer.Written

/-!
# The calls of an action

A scheduled action becomes one call, or two where the vault has to be allowed the share token that a
batch spends. A deposit or a withdrawal lists the tokens of its pool in the pool's own order, and
the one token that moves is named by its place in that order, never by its place among the assets
of the route.
-/

namespace SwapRelay

/-- The kind of pool that deposits and withdrawals go to; the relayer knows weighted pools only. -/
def weightedPoolKind : Int := 0

def maxInt256 : Int := Nat.pow 2 255 - 1

/-- The place of a token among the tokens of its pool. -/
def placeOf (tokens : List Text) (token : Text) : Except Error Nat :=
  match Address.indexOf? tokens token with
  | some i => .ok i
  | none => .error (.route (.unknownToken token))

/-- A list of zeros with an amount at one place. -/
def amountAt (length place : Nat) (amount : Int) : List Int :=
  (List.replicate length 0).set place amount

namespace Action

/-- The least output as it stands in call data. -/
def resolvedMinOut (a : Action) : Except Error Int :=
  (Amount.literal a.minOut).resolve

/-- The amounts and the message of a deposit. -/
def joinAmounts (swapType : SwapType) (length place : Nat) (amount minOut : Int) :
    List Int × PoolUserData :=
  match swapType with
  | .exactIn =>
    let amounts := amountAt length place amount
    (amounts, .joinExactIn amounts minOut)
  | .exactOut => (amountAt length place minOut, .joinExactOut amount place)

/-- The amounts and the message of a withdrawal. -/
def exitAmounts (swapType : SwapType) (length place : Nat) (amount minOut : Int) :
    List Int × PoolUserData :=
  match swapType with
  | .exactIn => (amountAt length place minOut, .exitExactIn amount place)
  | .exactOut =>
    let amounts := amountAt length place amount
    (amounts, .exitExactOut amounts minOut)

/-- The reference under which a deposit stores its shares, or zero. -/
def joinOutput : List OutputReference → Except Error Int
  | [] => .ok 0
  | output :: _ => output.key.value

def joinCall (a : Action) (ctx : Context) : Except Error (Call Bytes) := do
  let hop := a.firstHop
  let pool ← ctx.registry.get hop.poolId
  let tokens ← Pool.sortTokens ctx.config.wrappedNative pool.tokens
  let token ← assetAt ctx.assets hop.assetIn
  let place ← placeOf tokens token
  let amount ← hop.amount.resolve
  let minOut ← a.resolvedMinOut
  let (amounts, message) := joinAmounts ctx.swapType tokens.length place amount minOut
  let userData ← message.encode
  let funds := ctx.joinFunds token pool.address
  let output ← joinOutput a.outputs
  Call.prepare (.joinPool {
    poolId := pool.id
    kind := weightedPoolKind
    sender := funds.sender
    recipient := funds.recipient
    assets := tokens
    maxAmounts := amounts
    userData := userData
    fromInternal := funds.fromInternal
    value := 0
    output := output })

def exitCall (a : Action) (ctx : Context) : Except Error (Call Bytes) := do
  let hop := a.firstHop
  let pool ← ctx.registry.get hop.poolId
  let tokens ← Pool.sortTokens ctx.config.wrappedNative pool.tokens
  let token ← assetAt ctx.assets hop.assetOut
  let place ← placeOf tokens token
  let amount ← hop.amount.resolve
  let minOut ← a.resolvedMinOut
  let (amounts, message) := exitAmounts ctx.swapType tokens.length place amount minOut
  let userData ← message.encode
  let funds := ctx.exitFunds token
  let outputs ← a.outputs.mapM fun output => output.key.value.map ((place : Int), ·)
  Call.prepare (.exitPool {
    poolId := pool.id
    kind := weightedPoolKind
    sender := funds.sender
    recipient := funds.recipient
    assets := tokens
    minAmounts := amounts
    userData := userData
    toInternal := funds.toInternal
    outputs := outputs })

/-- The calls that allow the vault the share token that a batch spends. The amount has to come from
an earlier call, and is read without clearing it. -/
def approvalCalls (a : Action) (ctx : Context) (tokenIn : Text) :
    Except Error (List (Call Bytes)) :=
  if ctx.config.approveShareTokens && ctx.registry.isShareToken tokenIn then
    match a.firstHop.amount with
    | .literal _ => .error (.route (.literalShareInput tokenIn))
    | .chained r => do
      let amount ← r.readOnly.value
      let call ← Call.prepare (.approveVault tokenIn amount)
      return [call]
  else .ok []

/-- The calls that a batch needs before it, and the limit of what it may spend. -/
def inputLimit (a : Action) (ctx : Context) (tokenIn : Text) :
    Except Error (List (Call Bytes) × Int) :=
  if Address.same tokenIn ctx.tokenIn then
    (Amount.literal ctx.swapAmount).resolve.map ([], ·)
  else (a.approvalCalls ctx tokenIn).map (·, maxInt256)

/-- The limit on the output of a batch, which bounds it only where the user is paid. -/
def outputLimit (a : Action) (toInternal : Bool) : Except Error Int :=
  if toInternal then .ok 0 else a.resolvedMinOut.map (-·)

def batchStep (hop : Hop) : Except Error (BatchStep Text) := do
  let amount ← hop.amount.resolve
  return {
    poolId := hop.poolId
    assetIn := hop.assetIn
    assetOut := hop.assetOut
    amount := amount
    userData := hop.userData }

/-- The calls of a batch of swaps. Where input and output are one asset, the limit on the input
stands. -/
def swapCalls (a : Action) (ctx : Context) : Except Error (List (Call Bytes)) := do
  let input := a.firstHop.assetIn
  let output := a.lastHop.assetOut
  let tokenIn ← assetAt ctx.assets input
  let tokenOut ← assetAt ctx.assets output
  let funds := ctx.batchFunds tokenIn tokenOut
  let least ← a.outputLimit funds.toInternal
  let (before, most) ← a.inputLimit ctx tokenIn
  let steps ← a.hops.mapM batchStep
  let outputs ← a.outputs.mapM fun output => output.key.value.map ((output.index : Int), ·)
  let call ← Call.prepare (.batchSwap {
    kind := ctx.swapType.code
    steps := steps
    assets := ctx.assets
    funds := funds
    limits := (amountAt ctx.assets.length output least).set input most
    deadline := ctx.deadline
    value := 0
    outputs := outputs })
  return before ++ [call]

def calls (a : Action) (ctx : Context) : Except Error (List (Call Bytes)) :=
  match a.kind with
  | .deposit => (a.joinCall ctx).map ([·])
  | .withdrawal => (a.exitCall ctx).map ([·])
  | .batchedExchange => a.swapCalls ctx
  | .exchange => .error (.unscheduled a.kind)

end Action

end SwapRelay
