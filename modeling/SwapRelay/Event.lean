import SwapRelay.Action.Schedule
import SwapRelay.Kind

/-!
# Events

What the compiler and the service report as they go. A logged computation is its events and its
result, side by side; the events are a record only and never decide anything, which `result_bind`
makes precise.
-/

namespace SwapRelay

inductive Event where
  /-- A pool took the place of an earlier one of the same id. -/
  | poolReplaced (id : Text)
  | registryBuilt (pools : Nat)
  | actionsBuilt (hops : Nat) (kinds : List ActionKind) (keys : Nat)
  | actionsOrdered (enter middle exit calls : Nat)
  | routeCompiled (hops actions calls : Nat) (swapType : SwapType) (relayer : Text)
  | routeReceived (tokenIn tokenOut : Text) (hops pools : Nat)
  | compileRejected (cause : RouteError)
  deriving DecidableEq, Repr

inductive Level where
  | debug
  | info
  | warning
  deriving DecidableEq, Repr

def Level.name : Level → String
  | .debug => "debug"
  | .info => "info"
  | .warning => "warning"

namespace Event

def level : Event → Level
  | .poolReplaced _ | .registryBuilt _ | .actionsBuilt .. | .actionsOrdered .. => .debug
  | .routeCompiled .. | .routeReceived .. => .info
  | .compileRejected _ => .warning

def name : Event → String
  | .poolReplaced _ => "pool_replaced"
  | .registryBuilt _ => "pool_registry_built"
  | .actionsBuilt .. => "actions_built"
  | .actionsOrdered .. => "actions_ordered"
  | .routeCompiled .. => "route_compiled"
  | .routeReceived .. => "received_route"
  | .compileRejected _ => "compile_rejected"

/-- The particulars of an event. Of the id of a replaced pool only the start is told. -/
def particulars : Event → List (String × Json)
  | .poolReplaced id => [("pool_id", .ofText (id.take 10))]
  | .registryBuilt pools => [("pool_count", .int pools)]
  | .actionsBuilt hops kinds keys =>
    [("hop_count", .int hops), ("kinds", .arr (kinds.map fun k => .str k.name)),
      ("chained_keys", .int keys)]
  | .actionsOrdered enter middle exit calls =>
    [("enter", .int enter), ("middle", .int middle), ("exit", .int exit), ("calls", .int calls)]
  | .routeCompiled hops actions calls swapType relayer =>
    [("hops", .int hops), ("actions", .int actions), ("calls", .int calls),
      ("swap_type", .str swapType.name), ("relayer", .ofText relayer)]
  | .routeReceived tokenIn tokenOut hops pools =>
    [("token_in", .ofText tokenIn), ("token_out", .ofText tokenOut), ("hop_count", .int hops),
      ("pool_count", .int pools)]
  | .compileRejected cause =>
    [("error", .str cause.message), ("error_type", .str cause.name)]

def toJson (e : Event) : Json :=
  .obj (("event", .str e.name) :: ("log_level", .str e.level.name) :: e.particulars)

end Event

/-- A computation with the events on its way. -/
structure Logged (α : Type) where
  events : List Event
  result : Except Error α

namespace Logged

def ofExcept (x : Except Error α) : Logged α :=
  ⟨[], x⟩

def log (e : Event) : Logged Unit :=
  ⟨[e], .ok ()⟩

def logAll (es : List Event) : Logged Unit :=
  ⟨es, .ok ()⟩

def andThen (x : Logged α) (f : α → Logged β) : Logged β :=
  match x.result with
  | .ok a => ⟨x.events ++ (f a).events, (f a).result⟩
  | .error e => ⟨x.events, .error e⟩

instance : Monad Logged where
  pure a := ⟨[], .ok a⟩
  bind := andThen

/-- The result does not depend on events. -/
@[simp]
theorem result_bind (x : Logged α) (f : α → Logged β) :
    (x >>= f).result = x.result >>= fun a => (f a).result := by
  show (andThen x f).result = _
  unfold andThen
  cases x.result <;> rfl

@[simp]
theorem result_pure (a : α) : (pure a : Logged α).result = .ok a := rfl

@[simp]
theorem result_ofExcept (x : Except Error α) : (ofExcept x).result = x := rfl

@[simp]
theorem result_log (e : Event) : (log e).result = .ok () := rfl

@[simp]
theorem result_logAll (es : List Event) : (logAll es).result = .ok () := rfl

end Logged

/-- The registry of a list of pools, with a report of each pool that takes another's place. -/
def Registry.ofListLogged (pools : List Pool) : Logged Registry := do
  Logged.logAll ((Registry.replacing [] pools).map fun pool => .poolReplaced pool.id)
  return Registry.ofList pools

namespace Action

def keyCount (actions : List Action) : Nat :=
  (actions.flatMap (·.outputs)).length

def ofHopsLogged (registry : Registry) (assets : List Text) (tokenIn tokenOut : Text)
    (minOut : Int) (hops : List Hop) : Logged (List Action) := do
  let actions ← .ofExcept (ofHops registry assets tokenIn tokenOut minOut hops)
  Logged.log (.actionsBuilt hops.length (actions.map (·.kind)) (keyCount actions))
  return actions

def scheduleLogged (assets : List Text) (tokenIn tokenOut : Text) (actions : List Action) :
    Logged (List Action) := do
  let ends ← .ofExcept (Ends.find assets tokenIn tokenOut)
  let parts := partition ends actions
  let ordered := scheduleAt ends actions
  Logged.log (.actionsOrdered parts.enter.length parts.middle.length parts.exit.length
    ordered.length)
  return ordered

@[simp]
theorem result_ofHopsLogged (registry : Registry) (assets : List Text)
    (tokenIn tokenOut : Text) (minOut : Int) (hops : List Hop) :
    (ofHopsLogged registry assets tokenIn tokenOut minOut hops).result =
      ofHops registry assets tokenIn tokenOut minOut hops := by
  simp only [ofHopsLogged, Logged.result_bind, Logged.result_ofExcept, Logged.result_log,
    Logged.result_pure]
  cases ofHops registry assets tokenIn tokenOut minOut hops <;> rfl

@[simp]
theorem result_scheduleLogged (assets : List Text) (tokenIn tokenOut : Text)
    (actions : List Action) :
    (scheduleLogged assets tokenIn tokenOut actions).result =
      schedule assets tokenIn tokenOut actions := by
  simp only [scheduleLogged, Logged.result_bind, Logged.result_ofExcept, Logged.result_log,
    Logged.result_pure]
  rfl

end Action

end SwapRelay
