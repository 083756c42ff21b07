import SwapRelay.Proofs.Action.Congruence
import SwapRelay.Proofs.Pool.Order
import SwapRelay.Proofs.Route.SideBySide

/-!
# The order of the pools is irrelevant

The pools of a request, and the tokens of each pool, can be listed in any order: `compile_relisted`.
The registries that two such lists give answer alike, and a compilation has no other way to learn of
the pools. It takes from a pool its id, its address and its tokens in the order of their keys, so
every place that a deposit or a withdrawal names is one in that order: the place of the amount, the
one in the message to the pool, and the ones of the stored outputs.
-/

namespace SwapRelay

namespace Action

section Calls

variable {a : Action} {ctx : Context} {registry : Registry}
  (h : Registry.Alike ctx.config.wrappedNative ctx.registry registry)

include h

theorem joinCall_eq_of_alike : a.joinCall ctx = a.joinCall { ctx with registry } := by
  apply Except.Rel.eq
  refine (h.get a.firstHop.poolId).bind fun pool other halike => ?_
  rw [halike.sorted, halike.address, halike.id]
  exact .refl _

theorem exitCall_eq_of_alike : a.exitCall ctx = a.exitCall { ctx with registry } := by
  apply Except.Rel.eq
  refine (h.get a.firstHop.poolId).bind fun pool other halike => ?_
  rw [halike.sorted, halike.id]
  exact .refl _

theorem swapCalls_eq_of_alike : a.swapCalls ctx = a.swapCalls { ctx with registry } := by
  have hfunds (tokenIn tokenOut : Text) : ctx.batchFunds tokenIn tokenOut =
      { ctx with registry }.batchFunds tokenIn tokenOut := by
    simp only [Context.batchFunds]
    rw [h.isShareToken, h.isShareToken]
    rfl
  have hlimit (tokenIn : Text) : a.inputLimit ctx tokenIn =
      a.inputLimit { ctx with registry } tokenIn := by
    simp only [inputLimit, approvalCalls]
    rw [h.isShareToken]
  simp only [swapCalls, hfunds, hlimit]

theorem calls_eq_of_alike : a.calls ctx = a.calls { ctx with registry } := by
  simp only [calls]
  rw [joinCall_eq_of_alike h, exitCall_eq_of_alike h, swapCalls_eq_of_alike h]

end Calls

section Walk

variable {wrappedNative : Text} {r s : Registry} (h : Registry.Alike wrappedNative r s)
  (assets : List Text) (ends : Ends) (minOut : Int)

include h

theorem ofHop_eq_of_alike (position keys : Nat) (hop : Hop) :
    ofHop ⟨r, assets, ends, minOut⟩ position keys hop =
      ofHop ⟨s, assets, ends, minOut⟩ position keys hop := by
  apply Except.Rel.eq
  refine (h.get hop.poolId).bind fun pool other halike => ?_
  rw [halike.address]
  exact .refl _

theorem chain_eq_of_alike :
    chain ⟨r, assets, ends, minOut⟩ = chain ⟨s, assets, ends, minOut⟩ :=
  chain_congr rfl (ofHop_eq_of_alike h assets ends minOut)

end Walk

end Action

namespace Route

variable {r : Route} {config : Config} {registry : Registry}
  (h : Registry.Alike config.wrappedNative r.registry registry)

include h

theorem actions_eq_of_alike : r.actions = { r with registry }.actions := by
  simp only [actions, Action.ofHops]
  split
  · rfl
  · apply Except.Rel.eq
    refine .after _ fun ends => ?_
    rw [Action.chain_eq_of_alike h]
    exact .refl _

theorem calls_eq_of_alike (deadline : Int) :
    r.calls config deadline = { r with registry }.calls config deadline := by
  have hcalls : (fun a : Action => a.calls (r.context config deadline)) =
      fun a => a.calls ({ r with registry }.context config deadline) := by
    funext a
    exact @Action.calls_eq_of_alike a (r.context config deadline) registry h
  simp only [calls, schedule, callsOf]
  rw [← actions_eq_of_alike h, hcalls]
  rfl

end Route

namespace RouteRequest

variable {request : RouteRequest}

/-- The pools of a checked request can be listed in another order, and the tokens of each pool too,
as long as no two pools have the same id and no two tokens of a pool the same key. The request
compiles to the same call, or fails with the same error. -/
theorem compile_relisted (hvalid : request.Validated) {config : Config} {pools : List PoolInfo}
    (h : Relisted request.pools pools)
    (hids : (request.pools.map fun info => Text.lower info.id).Nodup)
    (hdistinct : ∀ info ∈ request.pools, Pool.Distinct config.wrappedNative info.tokens)
    (deadline : Int) :
    { request with pools }.compile config deadline = request.compile config deadline := by
  have hregistry := Registry.ofInfos_alike h hvalid.formed.pools hids hdistinct
  have hroute : Except.Rel Eq (fun r s : Route =>
      Registry.Alike config.wrappedNative r.registry s.registry ∧
        s = { r with registry := s.registry })
      request.route { request with pools }.route := by
    refine .after _ fun hops => .after _ fun swapAmount => ?_
    refine .after _ fun minOut => hregistry.bind fun registry other halike => ?_
    exact .ok ⟨halike, rfl⟩
  symm
  apply Except.Rel.eq
  refine hroute.bind ?_
  rintro r s ⟨halike, hs⟩
  have hcalls := Route.calls_eq_of_alike halike deadline
  rw [← hs] at hcalls
  simp only [Route.compile]
  rw [hcalls]
  exact .refl _

/-- The pools of a deposit of the native asset, in one order or the other. The native asset stands
behind the other token of its pool, as its wrapped token does. -/
def nativePools (reversed : Bool) : List PoolInfo :=
  let address (digit : Char) : Text := '0' :: 'x' :: List.replicate 40 digit
  let pool (digit : Char) (t u : Text) : PoolInfo :=
    ⟨'0' :: 'x' :: List.replicate 64 digit, none, if reversed then [u, t] else [t, u]⟩
  let deposit := pool 'c' Address.native (address '1')
  let other := pool 'd' (address 'b') (address '9')
  if reversed then [other, deposit] else [deposit, other]

def nativeDeposit : RouteRequest :=
  let share : Text := '0' :: 'x' :: List.replicate 40 'c'
  { tokenIn := Address.native
    tokenOut := share
    tokens := [Address.native, share]
    swaps := [⟨'0' :: 'x' :: List.replicate 64 'c', 0, 1, "1000".toList, "0x".toList⟩]
    swapAmount := "1000".toList
    returnAmount := "990".toList
    user := '0' :: 'x' :: List.replicate 40 '7'
    authorisation := none
    swapType := .exactIn
    pools := nativePools false }

theorem relisted_nativePools : Relisted (nativePools false) (nativePools true) := by
  refine ⟨(nativePools false).reverse, (List.reverse_perm _).symm, ?_⟩
  exact .cons ⟨rfl, rfl, .swap ..⟩ (.cons ⟨rfl, rfl, .swap ..⟩ .nil)

theorem compile_relisted_nativeDeposit :
    nativeDeposit.Validated ∧ Relisted nativeDeposit.pools (nativePools true) ∧
      (nativeDeposit.pools.map fun info => Text.lower info.id).Nodup ∧
      (∀ info ∈ nativeDeposit.pools,
        Pool.Distinct Config.standard.wrappedNative info.tokens) ∧
      { nativeDeposit with pools := nativePools true }.compile .standard 1700000000 =
        nativeDeposit.compile .standard 1700000000 ∧
      ∃ compiled, nativeDeposit.compile .standard 1700000000 = .ok compiled := by
  have hvalid : nativeDeposit.Validated :=
    validated_of_formed (by decide) (by decide) (by decide) (by decide)
  have hids : (nativeDeposit.pools.map fun info => Text.lower info.id).Nodup := by decide
  have hdistinct : ∀ info ∈ nativeDeposit.pools,
      Pool.Distinct Config.standard.wrappedNative info.tokens := by decide +kernel
  exact ⟨hvalid, relisted_nativePools, hids, hdistinct,
    compile_relisted hvalid relisted_nativePools hids hdistinct 1700000000,
    exists_compiled nativeDeposit .standard 1700000000 (by decide) (by decide +kernel)⟩

end RouteRequest

end SwapRelay
