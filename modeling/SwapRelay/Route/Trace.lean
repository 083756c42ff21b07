import SwapRelay.Route

/-!
# Compilations stage by stage

A trace shows what every stage of a compilation yields, up to the first one that fails. The calls
are made one action at a time, and the last stage compiles the request as a whole.
-/

namespace SwapRelay.Trace

inductive Yield where
  | request (r : RouteRequest)
  | hops (hops : List Hop)
  | pools (pools : List Pool)
  | needsRelayer (b : Bool)
  | actions (actions : List Action)
  | calls (data : List Bytes)
  | compiled (c : CompiledRoute)

structure Stage where
  name : String
  result : Except Error Yield

/-- Runs a stage, and the stages after it if it succeeds. -/
def stage (name : String) (x : Logged α) (yield : α → Yield) (next : α → Logged (List Stage)) :
    Logged (List Stage) :=
  match x.result with
  | .ok a =>
    let rest := next a
    ⟨x.events ++ rest.events, rest.result.map (⟨name, .ok (yield a)⟩ :: ·)⟩
  | .error e => ⟨x.events, .ok [⟨name, .error e⟩]⟩

/-- The stages that make the calls of the actions from this one on, and the last stage. -/
def callStages (ctx : Context) (last : Logged (List Stage)) : Nat → List Action →
    Logged (List Stage)
  | _, [] => last
  | i, a :: rest =>
    stage ("call" ++ toString i) (.ofExcept (a.calls ctx)) (.calls <| ·.map Call.data)
      fun _ => callStages ctx last (i + 1) rest

def ofRequest (sent : Json) (config : Config) (deadline : Int) : Logged (List Stage) :=
  stage "request" (.ofExcept (RouteRequest.check sent).toExcept) .request fun request =>
  stage "hops" (.ofExcept request.hops) .hops fun hops =>
  stage "pools" (.ofExcept (request.pools.mapM Pool.ofInfo)) .pools fun _ =>
  stage "needs_relayer" (.ofExcept (needsRelayer request.tokens hops)) .needsRelayer fun _ =>
  let build : Logged (List Action) := do
    let minOut ← .ofExcept (readInteger request.returnAmount)
    let registry ← Registry.ofInfosLogged request.pools
    Action.ofHopsLogged registry request.tokens request.tokenIn request.tokenOut minOut hops
  stage "actions" build .actions fun actions =>
  let order := Action.scheduleLogged request.tokens request.tokenIn request.tokenOut actions
  stage "ordered" order .actions fun ordered => do
    let swapAmount ← .ofExcept (readInteger request.swapAmount)
    let registry ← Registry.ofInfosLogged request.pools
    let ctx := (request.routeWith hops swapAmount 0 registry).context config deadline
    let last := stage "compile" (request.compileLogged config deadline) .compiled fun _ => pure []
    callStages ctx last 0 ordered

end SwapRelay.Trace
