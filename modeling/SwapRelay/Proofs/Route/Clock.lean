import SwapRelay.Proofs.Relayer.Deadline
import SwapRelay.Proofs.Route.Faults
import SwapRelay.Proofs.Route.SideBySide

/-!
# The clock shows in one word

Two compilations of one request at different times differ in the deadline only, and `compile_clock`
says how far the difference goes. Neither deadline keeps the request from compiling as long as it
fits a word, and both times the multicall has the same calls, byte for byte, but for the word in
each batch of swaps that is the deadline. A route without swaps is compiled to the same payload at
any time.
-/

namespace SwapRelay

namespace Route

variable {r : Route} {config : Config} {deadline later : Int}

theorem calls_retimed (hdeadline : Uint256.Fits deadline) (hlater : Uint256.Fits later) :
    Except.Rel Eq (List.Forall₂ (Call.Retimed deadline later)) (r.calls config deadline)
      (r.calls config later) := by
  have hschedule : Except.Rel Eq (List.Forall₂ Eq) r.schedule r.schedule := by
    rw [List.forall₂_eq_eq_eq]
    exact .refl _
  refine calls_rel hschedule rfl (fun _ _ => .same rfl) ?_
  rintro a _ rfl
  exact @Action.calls_retimed a (r.context config deadline) later hdeadline hlater

/-- The calls of a route without swaps hold no batch. -/
theorem not_isBatchSwap_of_poolOperations {calls : List (Call Bytes)} {actions : List Action}
    (h : r.calls config deadline = .ok calls) (hactions : r.actions = .ok actions)
    (hnone : ∀ a ∈ actions, a.kind.isExchange = false) : ∀ c ∈ calls, c.isBatchSwap = false := by
  rw [calls_eq] at h
  obtain ⟨emitted, hemitted, rfl⟩ := Except.map_eq_ok.1 h
  rw [List.forall_mem_map]
  intro e he
  obtain ⟨actions', ends, hactions', -, horigin⟩ := mem_emitted hemitted he
  cases hactions.symm.trans hactions'
  rcases horigin with ⟨_, _, rfl, -⟩ | ⟨run, hrun, before, main, hmade, ⟨c, hc, rfl⟩ | rfl⟩
  · rfl
  · obtain ⟨_, _, _, rfl, -⟩ := hmade.approval hc
    rfl
  · have hhead : run.head ∈ actions :=
      (Action.arranged_perm ends actions).mem_iff.1 (Action.mem_of_mem_runs hrun run.head_mem)
    show main.isBatchSwap = false
    rw [hmade.isBatchSwap_eq, Action.Run.kind_action_isExchange]
    exact hnone _ hhead

end Route

namespace RouteRequest

/-- None of the request's hops is a swap. -/
def WithoutSwaps (request : RouteRequest) : Prop :=
  ∀ route actions, request.route = .ok route → route.actions = .ok actions →
    ∀ a ∈ actions, a.kind ≠ .exchange

theorem calls_retimed {request : RouteRequest} {config : Config} {deadline later : Int}
    (hdeadline : Uint256.Fits deadline) (hlater : Uint256.Fits later) :
    Except.Rel Eq (List.Forall₂ (Call.Retimed deadline later)) (request.calls config deadline)
      (request.calls config later) :=
  .after _ fun _ => Route.calls_retimed hdeadline hlater

theorem not_isBatchSwap_of_withoutSwaps {request : RouteRequest} {config : Config}
    {deadline : Int} {calls : List (Call Bytes)} (h : request.calls config deadline = .ok calls)
    (hnone : request.WithoutSwaps) : ∀ c ∈ calls, c.isBatchSwap = false := by
  obtain ⟨route, hroute, hcalls⟩ := Except.bind_eq_ok.1 h
  obtain ⟨ordered, _, _, hordered, -⟩ := Route.calls_eq_ok hcalls
  obtain ⟨actions, ends, hactions, -, hwalk, -⟩ := Route.schedule_eq_ok hordered
  apply Route.not_isBatchSwap_of_poolOperations hcalls hactions
  intro a ha
  have hswap := hnone route actions hroute hactions a ha
  have hbatched := hwalk.ne_batched ha
  cases hkind : a.kind with
  | exchange => exact absurd hkind hswap
  | batchedExchange => exact absurd hkind hbatched
  | deposit => rfl
  | withdrawal => rfl

/-- A request compiles with both deadlines, or fails with one error for both. The calls it compiles
to are the same call for call and byte for byte, except for the deadlines of the batches: these take
up one word each, always the same one, and nothing else of a batch changes. Without swaps nothing
changes at all. -/
theorem compile_clock (request : RouteRequest) (config : Config) {deadline later : Int}
    (hdeadline : Uint256.Fits deadline) (hlater : Uint256.Fits later) :
    ((∃ e, request.compile config deadline = .error e ∧ request.compile config later = .error e) ∨
      ∃ calls others, request.calls config deadline = .ok calls ∧
        request.calls config later = .ok others ∧
        List.Forall₂ (Call.Retimed deadline later) calls others ∧
        request.compile config deadline = .ok (.ofCalls config.relayer calls) ∧
        request.compile config later = .ok (.ofCalls config.relayer others)) ∧
      (request.WithoutSwaps →
        request.compile config deadline = request.compile config later) := by
  have hcalls : Except.Rel Eq (List.Forall₂ (Call.Retimed deadline later))
      (request.calls config deadline) (request.calls config later) := calls_retimed hdeadline hlater
  have hboth := compile_rel rfl hcalls
  refine ⟨hboth, ?_⟩
  intro hnone
  rcases hboth with ⟨e, he, he'⟩ | ⟨calls, others, hcalls, -, hretimed, hok, hok'⟩
  · rw [he, he']
  · have hsame : calls = others := by
      rw [← List.forall₂_eq_eq_eq]
      refine hretimed.imp_of_mem ?_
      intro c hc _ _ h
      exact h.eq (not_isBatchSwap_of_withoutSwaps hcalls hnone c hc)
    rw [hok, hok', hsame]

/-- A token goes into a pool, and the shares may be swapped for another token afterwards. -/
def depositThenSwap (swapped : Bool) : RouteRequest :=
  let address (digit : Char) : Text := '0' :: 'x' :: List.replicate 40 digit
  let poolId (digit : Char) : Text := '0' :: 'x' :: List.replicate 64 digit
  let deposit : SwapStep := ⟨poolId 'c', 0, 1, "1000".toList, "0x".toList⟩
  { tokenIn := address 'a'
    tokenOut := address (if swapped then 'b' else 'c')
    tokens := [address 'a', address 'c', address 'b']
    swaps := if swapped then [deposit, ⟨poolId 'd', 1, 2, "0".toList, "0x".toList⟩] else [deposit]
    swapAmount := "1000".toList
    returnAmount := "990".toList
    user := address '7'
    authorisation := none
    swapType := .exactIn
    pools := [
      ⟨poolId 'c', none, [address 'a', address '9']⟩,
      ⟨poolId 'd', none, [address 'c', address 'b']⟩] }

theorem withoutSwaps_depositThenSwap : (depositThenSwap false).WithoutSwaps := by
  have hkinds : ((depositThenSwap false).route.bind Route.actions).toOption.any
      (·.all (·.kind != .exchange)) = true := by decide +kernel
  obtain ⟨actions, hactions, hall⟩ := Except.exists_of_any _ hkinds
  intro route actions' hroute hactions' a ha
  rw [hroute] at hactions
  cases hactions'.symm.trans hactions
  exact bne_iff_ne.1 (List.all_eq_true.1 hall a ha)

/-- The deposit is the same at any time, and the batch after it has another deadline. -/
theorem compile_clock_depositThenSwap :
    Uint256.Fits 1700000000 ∧ Uint256.Fits 1800000000 ∧ (depositThenSwap false).WithoutSwaps ∧
      (∃ calls others, calls.map Call.isBatchSwap = [false, true] ∧
        List.Forall₂ (Call.Retimed 1700000000 1800000000) calls others ∧
        (depositThenSwap true).compile .standard 1700000000 =
          .ok (.ofCalls Config.standard.relayer calls) ∧
        (depositThenSwap true).compile .standard 1800000000 =
          .ok (.ofCalls Config.standard.relayer others)) ∧
      (depositThenSwap false).compile .standard 1700000000 =
        (depositThenSwap false).compile .standard 1800000000 := by
  have hfirst : Uint256.Fits 1700000000 := by constructor <;> decide
  have hlater : Uint256.Fits 1800000000 := by constructor <;> decide
  refine ⟨hfirst, hlater, withoutSwaps_depositThenSwap, ?_,
    (compile_clock (depositThenSwap false) .standard hfirst hlater).2 withoutSwaps_depositThenSwap⟩
  obtain ⟨calls, hcalls, hkinds⟩ := Except.exists_of_any
    (x := (depositThenSwap true).calls .standard 1700000000)
    (·.map Call.isBatchSwap == [false, true]) (by decide +kernel)
  rcases (compile_clock (depositThenSwap true) .standard hfirst hlater).1 with
    ⟨e, he, -⟩ | ⟨calls', others, hcalls', -, hretimed, hok, hok'⟩
  · have hok := compile_of_calls (by decide) hcalls
    rw [he] at hok
    cases hok
  · cases hcalls.symm.trans hcalls'
    exact ⟨calls, others, beq_iff_eq.1 hkinds, hretimed, hok, hok'⟩

end RouteRequest

end SwapRelay
