import SwapRelay.Action
import SwapRelay.Pool.Registry

/-!
# From hops to actions

Each hop becomes one action. The hops are walked in order, with a count of the keys handed out. A
hop that does not end the route stores its output under the next key. A hop that does not start from
the route's input reads the key handed out last, whatever its amount was; one that does keeps its
amount.
-/

namespace SwapRelay

/-- The places of the route's input and output in its list of assets. -/
structure Ends where
  input : Nat
  output : Nat
  deriving DecidableEq, Repr, Inhabited

/-- The ends of a route from one token to another. -/
def Ends.find (assets : List Text) (tokenIn tokenOut : Text) : Except Error Ends :=
  match Address.indexOf? assets tokenIn, Address.indexOf? assets tokenOut with
  | some i, some o => .ok ⟨i, o⟩
  | none, _ => .error (.route (.unknownToken tokenIn))
  | some _, none => .error (.route (.unknownToken tokenOut))

namespace Action

/-- What the walk over the hops does not change. -/
structure Frame where
  registry : Registry
  assets : List Text
  ends : Ends
  minOut : Int

/-- The amount of a hop at this position of the route, after `keys` keys were handed out. -/
def chainedAmount (frame : Frame) (position keys : Nat) (hop : Hop) : Except Error Amount :=
  if hop.assetIn = frame.ends.input then .ok hop.amount
  else match keys with
    | 0 => .error (.route (.dangling position))
    | last + 1 => .ok (.chained ⟨last, true⟩)

def Frame.isLast (frame : Frame) (hop : Hop) : Bool :=
  hop.assetOut == frame.ends.output

/-- The action of a hop at this position of the route, after `keys` keys were handed out. -/
def ofHop (frame : Frame) (position keys : Nat) (hop : Hop) : Except Error Action := do
  let pool ← frame.registry.get hop.poolId
  let kind ← hop.classify frame.assets pool.address
  let amount ← chainedAmount frame position keys hop
  let hop := { hop with amount }
  if frame.isLast hop then return single kind hop [] frame.minOut
  else return single kind hop [⟨hop.assetOut, ⟨keys, true⟩⟩] 0

def chain (frame : Frame) : Nat → Nat → List Hop → Except Error (List Action)
  | _, _, [] => .ok []
  | position, keys, hop :: rest => do
    let action ← ofHop frame position keys hop
    let keys := if frame.isLast hop then keys else keys + 1
    let more ← chain frame (position + 1) keys rest
    return action :: more

/-- The actions of a route's hops, one for each, in the same order. -/
def ofHops (registry : Registry) (assets : List Text) (tokenIn tokenOut : Text) (minOut : Int)
    (hops : List Hop) : Except Error (List Action) :=
  if hops.isEmpty then .error (.route .noHops)
  else do
    let ends ← Ends.find assets tokenIn tokenOut
    chain ⟨registry, assets, ends, minOut⟩ 0 0 hops

end Action

end SwapRelay
