import SwapRelay.Event
import SwapRelay.Relayer.Plan
import SwapRelay.Request

/-!
# Routes and their compilation

A route is compiled in three stages: its hops become actions, the actions are put in order, and each
becomes its calls. The result is one multicall of the relayer. A route that a user has signed the
relayer's approval for starts with the call that hands it in.
-/

namespace SwapRelay

/-- A route in the terms of the compiler. -/
structure Route where
  hops : List Hop
  assets : List Text
  tokenIn : Text
  tokenOut : Text
  swapAmount : Int
  minOut : Int
  user : Text
  registry : Registry
  swapType : SwapType := .exactIn
  /-- A signed approval of the relayer, or no text. -/
  authorisation : Option Text := none
  deriving DecidableEq, Repr, Inhabited

def readInteger (text : Text) : Except Error Int :=
  match Numeral.readDecimal text with
  | some n => .ok n
  | none => .error .unreadable

def Hop.ofStep (step : SwapStep) : Except Error Hop := do
  let amount ← readInteger step.amount
  let userData ← Hex.readBytes step.userData
  return {
    poolId := Text.lower step.poolId
    assetIn := step.assetIn
    assetOut := step.assetOut
    amount := .literal amount
    userData := userData }

def Pool.ofInfo (info : PoolInfo) : Except Error Pool := do
  let address ← match info.address with
    | some address => .ok address
    | none => addressOfId info.id
  return {
    id := Text.lower info.id
    address := Address.normalize address
    tokens := info.tokens.map Address.normalize }

def Registry.ofInfosLogged (infos : List PoolInfo) : Logged Registry := do
  let pools ← .ofExcept (infos.mapM Pool.ofInfo)
  let registry ← Registry.ofListLogged pools
  Logged.log (.registryBuilt registry.size)
  return registry

def Registry.ofInfos (infos : List PoolInfo) : Except Error Registry := do
  let pools ← infos.mapM Pool.ofInfo
  return Registry.ofList pools

@[simp]
theorem Registry.result_ofInfosLogged (infos : List PoolInfo) :
    (Registry.ofInfosLogged infos).result = Registry.ofInfos infos := by
  simp only [ofInfosLogged, ofListLogged, Logged.result_bind, Logged.result_ofExcept,
    Logged.result_log, Logged.result_logAll, Logged.result_pure]
  rfl

namespace Route

/-- What all the calls of the route have in common. -/
def context (r : Route) (config : Config) (deadline : Int) : Context where
  assets := r.assets.map Address.normalize
  tokenIn := Address.normalize r.tokenIn
  tokenOut := Address.normalize r.tokenOut
  swapAmount := r.swapAmount
  user := Address.normalize r.user
  swapType := r.swapType
  registry := r.registry
  config := config
  deadline := deadline

/-- The route's actions, one for each hop. -/
def actions (r : Route) : Except Error (List Action) :=
  Action.ofHops r.registry r.assets r.tokenIn r.tokenOut r.minOut r.hops

def schedule (r : Route) : Except Error (List Action) := do
  let actions ← r.actions
  Action.schedule r.assets r.tokenIn r.tokenOut actions

/-- The call that hands in a signed approval, if there is one. -/
def approval (r : Route) (config : Config) : Except Error (List (Call Bytes)) :=
  match r.authorisation with
  | none | some [] => .ok []
  | some signed => (Call.prepare (.setRelayerApproval config.relayer true signed)).map ([·])

def callsOf (ctx : Context) (actions : List Action) : Except Error (List (Call Bytes)) := do
  let calls ← actions.mapM (·.calls ctx)
  return calls.flatten

def calls (r : Route) (config : Config) (deadline : Int) : Except Error (List (Call Bytes)) := do
  let ordered ← r.schedule
  let first ← r.approval config
  let rest ← callsOf (r.context config deadline) ordered
  return first ++ rest

def payload (config : Config) (calls : List (Call Bytes)) : Except Error CompiledRoute :=
  (CompiledRoute.ofTexts config.relayer (Hex.marked (multicall (calls.map Call.data)))).toExcept

def compile (r : Route) (config : Config) (deadline : Int) : Except Error CompiledRoute := do
  let calls ← r.calls config deadline
  payload config calls

def compileLogged (r : Route) (config : Config) (deadline : Int) : Logged CompiledRoute := do
  let actions ← Action.ofHopsLogged r.registry r.assets r.tokenIn r.tokenOut r.minOut r.hops
  let ordered ← Action.scheduleLogged r.assets r.tokenIn r.tokenOut actions
  let first ← .ofExcept (r.approval config)
  let rest ← .ofExcept (callsOf (r.context config deadline) ordered)
  let calls := first ++ rest
  Logged.log (.routeCompiled r.hops.length ordered.length calls.length r.swapType config.relayer)
  .ofExcept (payload config calls)

@[simp]
theorem result_compileLogged (r : Route) (config : Config) (deadline : Int) :
    (r.compileLogged config deadline).result = r.compile config deadline := by
  simp only [compileLogged, compile, calls, schedule, actions, Logged.result_bind,
    Logged.result_ofExcept, Logged.result_log, Action.result_ofHopsLogged,
    Action.result_scheduleLogged, bind_assoc]
  rfl

end Route

namespace RouteRequest

def hops (request : RouteRequest) : Except Error (List Hop) :=
  request.swaps.mapM Hop.ofStep

/-- The route of a request, given its hops, its amounts and its registry. -/
def routeWith (request : RouteRequest) (hops : List Hop) (swapAmount minOut : Int)
    (registry : Registry) : Route where
  hops := hops
  assets := request.tokens
  tokenIn := request.tokenIn
  tokenOut := request.tokenOut
  swapAmount := swapAmount
  minOut := minOut
  user := request.user
  registry := registry
  swapType := request.swapType
  authorisation := request.authorisation

def route (request : RouteRequest) : Except Error Route := do
  let hops ← request.hops
  let swapAmount ← readInteger request.swapAmount
  let minOut ← readInteger request.returnAmount
  let registry ← Registry.ofInfos request.pools
  return request.routeWith hops swapAmount minOut registry

def compile (request : RouteRequest) (config : Config) (deadline : Int) :
    Except Error CompiledRoute := do
  let route ← request.route
  route.compile config deadline

def compileLogged (request : RouteRequest) (config : Config) (deadline : Int) :
    Logged CompiledRoute := do
  let hops ← .ofExcept request.hops
  let swapAmount ← .ofExcept (readInteger request.swapAmount)
  let minOut ← .ofExcept (readInteger request.returnAmount)
  let registry ← Registry.ofInfosLogged request.pools
  (request.routeWith hops swapAmount minOut registry).compileLogged config deadline

@[simp]
theorem result_compileLogged (request : RouteRequest) (config : Config) (deadline : Int) :
    (request.compileLogged config deadline).result = request.compile config deadline := by
  simp only [compileLogged, compile, route, Logged.result_bind, Logged.result_ofExcept,
    Registry.result_ofInfosLogged, Route.result_compileLogged, bind_assoc, pure_bind]

end RouteRequest

end SwapRelay
