import SwapRelay.Config
import SwapRelay.Kind
import SwapRelay.Pool.Registry
import SwapRelay.Relayer.Call

/-!
# Who pays and who is paid

Between the calls of a route the funds are either the user's own tokens or what the vault keeps for
the relayer. A deposit takes the route's input from the user and everything else from the relayer,
and gives shares to the user only at the end of the route. A withdrawal always burns the user's
shares. A batch of swaps pays share tokens to the user, since they can be neither deposited nor
withdrawn from the vault's books, and spends them from the relayer's own tokens.
-/

namespace SwapRelay

/-- What all the calls of a route have in common. -/
structure Context where
  assets : List Text
  tokenIn : Text
  tokenOut : Text
  swapAmount : Int
  user : Text
  swapType : SwapType
  registry : Registry
  config : Config
  deadline : Int
  deriving DecidableEq, Repr, Inhabited

namespace Context

def relayer (ctx : Context) : Text :=
  ctx.config.relayer

/-- The account of the user, or of the relayer where the funds stay with it. -/
def owner (ctx : Context) (internal : Bool) : Text :=
  if internal then ctx.relayer else ctx.user

/-- The funds of a deposit that pays in `token` and mints the share token of a pool. -/
def joinFunds (ctx : Context) (token poolAddress : Text) : Funds Text :=
  let fromInternal := !Address.same token ctx.tokenIn
  let toInternal := !Address.same poolAddress ctx.tokenOut
  { sender := ctx.owner fromInternal
    fromInternal := fromInternal
    recipient := ctx.owner toInternal
    toInternal := toInternal }

def exitFunds (ctx : Context) (token : Text) : Funds Text :=
  let toInternal := !Address.same token ctx.tokenOut
  { sender := ctx.user
    fromInternal := false
    recipient := ctx.owner toInternal
    toInternal := toInternal }

/-- The funds of a batch of swaps from one token to another. -/
def batchFunds (ctx : Context) (tokenIn tokenOut : Text) : Funds Text :=
  let toInternal := !(Address.same tokenOut ctx.tokenOut || ctx.registry.isShareToken tokenOut)
  let fromUser := Address.same tokenIn ctx.tokenIn
  { sender := ctx.owner !fromUser
    fromInternal := !fromUser && !ctx.registry.isShareToken tokenIn
    recipient := ctx.owner toInternal
    toInternal := toInternal }

end Context

end SwapRelay
