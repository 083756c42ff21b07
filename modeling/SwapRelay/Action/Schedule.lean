import SwapRelay.Action.Chain

/-!
# Scheduling

The order of the actions decides how many calls a route takes, since swaps that stand next to each
other share one. Deposits and withdrawals that spend the route's input depend on nothing and go
first; those that yield the route's output feed nothing and go last; all else keeps its order. Then
neighbouring swaps are merged.
-/

namespace SwapRelay.Action

inductive Place where
  | enter
  | middle
  | exit
  deriving DecidableEq, Repr

/-- The place of an action on a route with these ends. -/
def place (ends : Ends) (a : Action) : Place :=
  if a.kind.isPoolOperation then
    if a.firstHop.assetIn = ends.input then .enter
    else if a.firstHop.assetOut = ends.output then .exit
    else .middle
  else .middle

/-- The actions by place, each list in the order of the route. -/
structure Partition where
  enter : List Action
  middle : List Action
  exit : List Action
  deriving DecidableEq, Repr

def partition (ends : Ends) (actions : List Action) : Partition where
  enter := actions.filter (·.place ends = .enter)
  middle := actions.filter (·.place ends = .middle)
  exit := actions.filter (·.place ends = .exit)

def Partition.toList (p : Partition) : List Action :=
  p.enter ++ p.middle ++ p.exit

def toBatch (a : Action) : Action :=
  { a with kind := .batchedExchange, single_of_ne_batched := fun h => absurd rfl h }

/-- Two swaps in one batch, bound by the least output of the later one. -/
def merge (a b : Action) : Action where
  kind := .batchedExchange
  hops := a.hops ++ b.hops
  outputs := a.outputs ++ b.outputs
  minOut := b.minOut
  hops_ne_nil := List.append_ne_nil_of_left_ne_nil a.hops_ne_nil b.hops
  single_of_ne_batched h := absurd rfl h

/-- Puts an action before batched ones: a swap joins the batch that it meets. -/
def pushFront (a : Action) : List Action → List Action
  | [] => [if a.kind.isExchange then a.toBatch else a]
  | b :: rest =>
    if a.kind.isExchange then
      if b.kind.isExchange then a.merge b :: rest else a.toBatch :: b :: rest
    else a :: b :: rest

/-- The actions with each run of neighbouring swaps, be it of one swap, made into one batch. -/
def batch (actions : List Action) : List Action :=
  actions.foldr pushFront []

/-- The actions in the order of the calls, batched, on a route with these ends. -/
def scheduleAt (ends : Ends) (actions : List Action) : List Action :=
  batch (partition ends actions).toList

def schedule (assets : List Text) (tokenIn tokenOut : Text) (actions : List Action) :
    Except Error (List Action) := do
  let ends ← Ends.find assets tokenIn tokenOut
  return scheduleAt ends actions

end SwapRelay.Action
