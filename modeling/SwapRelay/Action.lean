import SwapRelay.Hop

/-!
# Actions

An action is what becomes one call of the relayer: one hop, or several swaps in a batch. It names
the references under which its outputs are stored.
-/

namespace SwapRelay

/-- An output to be stored: the asset at this place, under this reference. -/
structure OutputReference where
  index : Nat
  key : Reference
  deriving DecidableEq, Repr, Inhabited

/-- A call to be made. Only a batch holds more than one hop. -/
structure Action where
  kind : ActionKind
  hops : List Hop
  outputs : List OutputReference := []
  /-- The least acceptable output, zero where there is no bound. -/
  minOut : Int := 0
  hops_ne_nil : hops ≠ []
  single_of_ne_batched : kind ≠ .batchedExchange → hops.length = 1
  deriving DecidableEq, Repr

namespace Action

def single (kind : ActionKind) (hop : Hop) (outputs : List OutputReference) (minOut : Int) :
    Action where
  kind := kind
  hops := [hop]
  outputs := outputs
  minOut := minOut
  hops_ne_nil := List.cons_ne_nil _ _
  single_of_ne_batched _ := rfl

/-- An action of the given parts, if the number of hops fits the kind. -/
def ofParts (kind : ActionKind) (hops : List Hop) (outputs : List OutputReference)
    (minOut : Int) : Except Error Action :=
  if h : hops = [] then .error .noActionHops
  else if h' : kind ≠ .batchedExchange ∧ hops.length ≠ 1 then
    .error (.tooManyActionHops kind hops.length)
  else .ok {
    kind := kind
    hops := hops
    outputs := outputs
    minOut := minOut
    hops_ne_nil := h
    single_of_ne_batched := fun hk => Decidable.not_not.1 fun hl => h' ⟨hk, hl⟩ }

/-- The hop that takes the action's input. -/
def firstHop (a : Action) : Hop :=
  a.hops.head a.hops_ne_nil

/-- The hop that gives the action's output. -/
def lastHop (a : Action) : Hop :=
  a.hops.getLast a.hops_ne_nil

end Action

end SwapRelay
