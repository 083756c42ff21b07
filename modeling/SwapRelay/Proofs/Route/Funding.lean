import SwapRelay.Proofs.Relayer.Custody
import SwapRelay.Proofs.Request.Forms
import SwapRelay.Proofs.Route.References

/-!
# Which hops from the route's input are paid for by the user

A hop from the route's input keeps the number it was given, and that number is the user's to pay.
Who pays for a call is decided once for the call, though, by the place where its first hop starts. A
deposit has one hop, so it is paid for by the user. A batch may start with another token and come
upon the route's input only further on, and then it has nothing to spend there. `funded_iff` says
that this is the only exception.
-/

namespace SwapRelay

/-- If the call is a batch, its first hop starts at this place. -/
def Emitted.StartsFrom (e : Emitted) (input : Nat) : Prop :=
  (∃ b, e.call = .batchSwap b) →
    ∃ first, e.members.head? = some first ∧ first.firstHop.assetIn = input

namespace Route

variable {r : Route} {config : Config} {deadline : Int}

/-- A call that carries out a deposit or a swap from the route's input is paid for by the user if it
is no batch that starts elsewhere, and only then unless there is nothing to pay. -/
theorem funded_of_mem {emitted : List Emitted} {actions : List Action} {ends : Ends}
    (h : r.emitted config deadline = .ok emitted) (hactions : r.actions = .ok actions)
    (hends : Ends.find r.assets r.tokenIn r.tokenOut = .ok ends)
    (hplain : ∀ a ∈ actions, a.kind ≠ .batchedExchange) {e : Emitted} (he : e ∈ emitted)
    {a : Action} (ha : a ∈ e.members) (hkind : a.kind ≠ .withdrawal)
    (hin : a.firstHop.assetIn = ends.input) :
    (e.StartsFrom ends.input →
        e.call.FundedBy (Address.normalize r.user) ends.input r.swapAmount) ∧
      (0 < r.swapAmount → e.call.FundedBy (Address.normalize r.user) ends.input r.swapAmount →
        e.StartsFrom ends.input) := by
  obtain ⟨run, hmembers, hmem, before, hmade⟩ := exists_run_of_mem h hactions hends he ha
  have hinput : assetAt (r.context config deadline).assets ends.input = .ok _ := assetAt_input hends
  cases hexchange : run.head.kind.isExchange with
  | false =>
      -- The call carries out nothing but this action, and it is no batch.
      obtain ⟨halone, haction⟩ := Action.Run.action_of_poolOperation hexchange
      rw [hmembers, halone] at ha
      obtain rfl := List.mem_singleton.1 ha
      rw [haction] at hmade
      refine ⟨fun _ => ?_, fun _ _ hbatch => ?_⟩
      · have hfunded := hmade.funded hkind (by rwa [hin])
        rwa [hin] at hfunded
      · exact absurd (hmade.exists_batch_iff.1 hbatch) (hplain _ (hmem _ run.head_mem))
  | true =>
      -- Who pays for a batch hangs on its first hop, which need not be the one in question.
      have hbatched := Action.Run.kind_action_of_swap hexchange
      have hfirst : e.StartsFrom ends.input ↔ run.action.firstHop.assetIn = ends.input := by
        have hbatch := hmade.exists_batch_iff.2 hbatched
        rw [Emitted.StartsFrom, hmembers, Action.Run.firstHop_action]
        constructor
        · intro hstart
          obtain ⟨first, hhead, hplace⟩ := hstart hbatch
          cases hhead
          exact hplace
        · exact fun hplace _ => ⟨run.head, rfl, hplace⟩
      rw [hfirst]
      refine ⟨fun hplace => ?_, fun hpos hfunded => ?_⟩
      · have hfunded := hmade.funded (by rw [hbatched]; decide) (by rwa [hplace])
        rwa [hplace] at hfunded
      · by_contra hplace
        exact hmade.not_funded_of_batch hbatched hinput hplace hpos hfunded

end Route

namespace RouteRequest

/-- Whatever a request compiles to, the hops that keep their number are those from the route's
input. A deposit or a swap among them is carried out by a call that takes the user's own tokens, and
of the route's input as much as the route spends, exactly if that call is no batch with a first hop
from elsewhere. -/
theorem funded_iff {request : RouteRequest} {config : Config} {deadline : Int}
    {compiled : CompiledRoute} (h : request.compile config deadline = .ok compiled) :
    ∃ route actions ends emitted, request.route = .ok route ∧ route.actions = .ok actions ∧
      Ends.find route.assets route.tokenIn route.tokenOut = .ok ends ∧
      route.emitted config deadline = .ok emitted ∧
      compiled.data = Hex.marked (multicall (emitted.map (·.call.data))) ∧
      (emitted.flatMap Emitted.members).Perm actions ∧
      (∀ a ∈ actions, a.read? = none ↔ a.firstHop.assetIn = ends.input) ∧
      ∀ e ∈ emitted, ∀ a ∈ e.members, a.kind ≠ .withdrawal → a.firstHop.assetIn = ends.input →
        (e.StartsFrom ends.input →
            e.call.FundedBy (Address.normalize route.user) ends.input route.swapAmount) ∧
          (0 < route.swapAmount →
            e.call.FundedBy (Address.normalize route.user) ends.input route.swapAmount →
              e.StartsFrom ends.input) := by
  obtain ⟨route, hroute, h⟩ := Except.bind_eq_ok.1 h
  obtain ⟨emitted, hemitted, hdata⟩ := Route.compile_eq_ok h
  obtain ⟨actions, ends, -, -, hactions, hends, hwalk, -⟩ := Route.emitted_eq_ok hemitted
  obtain ⟨actions', hactions', hmembers⟩ := Route.members_emitted hemitted
  cases hactions.symm.trans hactions'
  refine ⟨route, actions, ends, emitted, hroute, hactions, hends, hemitted, hdata, hmembers,
    fun a ha => hwalk.read?_eq_none_iff (isLiteral_of_route hroute) ha, ?_⟩
  intro e he a ha hkind hin
  have hplain : ∀ b ∈ actions, b.kind ≠ .batchedExchange := fun b hb => hwalk.ne_batched hb
  exact Route.funded_of_mem hemitted hactions hends hplain he ha hkind hin

/-- A token goes to the output directly and by way of the shares of a pool. The direct hop is the
first or the last one; the last two of the three share a batch. -/
def directAndShares (directFirst : Bool) : RouteRequest :=
  let address (digit : Char) : Text := '0' :: 'x' :: List.replicate 40 digit
  let poolId (digit : Char) : Text := '0' :: 'x' :: List.replicate 64 digit
  let step (digit : Char) (i j : Nat) (amount : String) : SwapStep :=
    ⟨poolId digit, i, j, amount.toList, "0x".toList⟩
  let direct := step 'd' 0 1 "400"
  let shares := [step 'c' 0 2 "600", step 'e' 2 1 "0"]
  { tokenIn := address '1'
    tokenOut := address '2'
    tokens := [address '1', address '2', address 'c']
    swaps := if directFirst then direct :: shares else shares ++ [direct]
    swapAmount := "1000".toList
    returnAmount := "990".toList
    user := address '7'
    authorisation := none
    swapType := .exactIn
    pools := [
      ⟨poolId 'c', none, [address '1', address '9']⟩,
      ⟨poolId 'd', none, [address '1', address '2']⟩,
      ⟨poolId 'e', none, [address '2', address 'c']⟩] }

/-- The run has swaps that start from one place and come upon another one, or start from it. -/
def swapsMeet (start input : Nat) (run : Action.Run) : Bool :=
  run.head.kind.isExchange && run.head.firstHop.assetIn == start &&
    run.members.any fun a => a.kind != .withdrawal && a.firstHop.assetIn == input

theorem of_swapsMeet {start input : Nat} {run : Action.Run} (h : swapsMeet start input run = true) :
    run.head.kind.isExchange = true ∧ run.head.firstHop.assetIn = start ∧
      ∃ a ∈ run.members, a.kind ≠ .withdrawal ∧ a.firstHop.assetIn = input := by
  simp only [swapsMeet, Bool.and_eq_true, List.any_eq_true, bne_iff_ne, beq_iff_eq] at h
  exact ⟨h.1.1, h.1.2, h.2⟩

theorem route_directAndShares (directFirst : Bool) :
    ∃ route, (directAndShares directFirst).route = .ok route ∧
      Ends.find route.assets route.tokenIn route.tokenOut = .ok ⟨0, 1⟩ ∧
      route.swapAmount = 1000 := by
  cases directFirst <;> exact ⟨_, rfl, rfl, rfl⟩

/-- With the direct hop first, the batch starts from the input, and the user pays for it. -/
theorem funded_iff_directAndShares :
    ∃ compiled route emitted,
      (directAndShares true).compile .standard 1700000000 = .ok compiled ∧
      (directAndShares true).route = .ok route ∧
      route.emitted .standard 1700000000 = .ok emitted ∧
      (∀ e ∈ emitted, ∀ a ∈ e.members, a.kind ≠ .withdrawal → a.firstHop.assetIn = 0 →
        e.StartsFrom 0 → e.call.FundedBy (Address.normalize route.user) 0 route.swapAmount) ∧
      ∃ e ∈ emitted, (∃ b, e.call = .batchSwap b) ∧
        e.call.FundedBy (Address.normalize route.user) 0 1000 := by
  obtain ⟨compiled, h⟩ := exists_compiled (directAndShares true) .standard 1700000000
    (by decide) (by decide +kernel)
  obtain ⟨route, actions, ends, emitted, hroute, -, hends, hemitted, -, -, -, hiff⟩ := funded_iff h
  obtain ⟨route', hroute', hends', hamount⟩ := route_directAndShares true
  cases hroute.symm.trans hroute'
  cases hends.symm.trans hends'
  obtain ⟨runs, hruns, hmeet⟩ := Except.exists_of_any (x := (directAndShares true).runs)
    (·.any (swapsMeet 0 0)) (by decide)
  obtain ⟨run, hrun, hmeet⟩ := List.any_eq_true.1 hmeet
  obtain ⟨hexchange, hplace, a, ha, hkind, hin⟩ := of_swapsMeet hmeet
  obtain ⟨e, he, hmembers, before, hmade⟩ := exists_emitted_of_run hroute hemitted hruns hrun
  have hbatch := hmade.exists_batch_iff.2 (Action.Run.kind_action_of_swap hexchange)
  have hfunded := (hiff e he a (by rwa [hmembers]) hkind hin).1
    fun _ => ⟨run.head, by rw [hmembers]; rfl, hplace⟩
  exact ⟨compiled, route, emitted, h, hroute, hemitted,
    fun e he a ha hkind hin => (hiff e he a ha hkind hin).1, e, he, hbatch, hamount ▸ hfunded⟩

/-- With the direct hop last, the batch starts with the shares, and may take nothing of the input
when it comes to the direct hop. -/
theorem exists_unfunded_directAndShares :
    ∃ compiled route emitted, (directAndShares false).Validated ∧
      (directAndShares false).compile .standard 1700000000 = .ok compiled ∧
      (directAndShares false).route = .ok route ∧
      Ends.find route.assets route.tokenIn route.tokenOut = .ok ⟨0, 1⟩ ∧
      route.emitted .standard 1700000000 = .ok emitted ∧
      ¬ ∀ e ∈ emitted, ∀ a ∈ e.members, a.kind ≠ .withdrawal → a.firstHop.assetIn = 0 →
        e.call.FundedBy (Address.normalize route.user) 0 route.swapAmount := by
  obtain ⟨compiled, h⟩ := exists_compiled (directAndShares false) .standard 1700000000
    (by decide) (by decide +kernel)
  obtain ⟨route, hroute, hcompile⟩ := Except.bind_eq_ok.1 h
  obtain ⟨emitted, hemitted, -⟩ := Route.compile_eq_ok hcompile
  obtain ⟨route', hroute', hends, hamount⟩ := route_directAndShares false
  cases hroute.symm.trans hroute'
  have hvalidated : (directAndShares false).Validated :=
    validated_of_formed (by decide) (by decide) (by decide) (by decide)
  refine ⟨compiled, route, emitted, hvalidated, h, hroute, hends, hemitted, ?_⟩
  obtain ⟨runs, hruns, hmeet⟩ := Except.exists_of_any (x := (directAndShares false).runs)
    (·.any (swapsMeet 2 0)) (by decide)
  obtain ⟨run, hrun, hmeet⟩ := List.any_eq_true.1 hmeet
  obtain ⟨hexchange, hplace, a, ha, hkind, hin⟩ := of_swapsMeet hmeet
  obtain ⟨e, he, hmembers, before, hmade⟩ := exists_emitted_of_run hroute hemitted hruns hrun
  intro hall
  refine hmade.not_funded_of_batch (Action.Run.kind_action_of_swap hexchange)
    (Route.assetAt_input hends) ?_ ?_ (hall e he a (by rwa [hmembers]) hkind hin)
  · rw [Action.Run.firstHop_action, hplace]
    decide
  · rw [hamount]
    decide

end RouteRequest

end SwapRelay
