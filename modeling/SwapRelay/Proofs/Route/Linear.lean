import SwapRelay.Proofs.Action.Linear
import SwapRelay.Proofs.Route.LeastOutput

/-!
# A linear route from end to end

A linear route compiles to calls in the order of its hops, each hop fed by the one before it. The
first call takes the user's own tokens, and the last one pays the user and insists on the route's
least output: `compile_linear`. The walk tells the hops apart by the places of their tokens, and the
calls by the tokens themselves; that both come to the same is where the tokens have to be addresses
of the form that requests have to match.
-/

namespace SwapRelay

/-- A deposit mints the share token of its pool, which stands at the place of the hop's output. -/
theorem Hop.output_of_classify {hop : Hop} {assets : List Text} {address : Text}
    (h : hop.classify assets address = .ok .deposit) :
    ∃ t, assets[hop.assetOut]? = some t ∧ Address.same t address = true := by
  obtain ⟨tokenIn, -, h⟩ := Except.bind_eq_ok.1 h
  obtain ⟨tokenOut, hout, h⟩ := Except.bind_eq_ok.1 h
  refine ⟨tokenOut, assetAt_eq_ok.1 hout, ?_⟩
  split at h
  · cases h
  · next hsame _ => exact hsame
  · cases h
  · cases h

namespace Route

variable {r : Route} {config : Config} {deadline : Int}

theorem mints_output {ends : Ends} (hends : Ends.find r.assets r.tokenIn r.tokenOut = .ok ends)
    (hform : Form.address.holds r.tokenOut = true) {hop : Hop} {pool : Pool}
    (hkind : hop.classify r.assets pool.address = .ok .deposit)
    (hout : hop.assetOut = ends.output) :
    Address.same pool.address (r.context config deadline).tokenOut = true := by
  obtain ⟨t, ht, hsame⟩ := Hop.output_of_classify hkind
  obtain ⟨t', ht', hsame'⟩ := (Ends.find_eq_ok hends).2
  rw [hout] at ht
  cases ht.symm.trans ht'
  apply Form.same_normalize hform
  rw [Address.same_iff] at hsame hsame' ⊢
  exact hsame.symm.trans hsame'

section Last

variable {ends : Ends} {actions : List Action} {run : Action.Run} {before : List (Call Bytes)}
  {main : Call Bytes}

/-- The first call of actions that start from the route's input takes the user's own tokens. -/
theorem debits_of_head (hends : Ends.find r.assets r.tokenIn r.tokenOut = .ok ends)
    {parts : List (List (Call Bytes))}
    (hparts : List.Forall₂ (fun run part => run.action.calls (r.context config deadline) = .ok part)
      (Action.runs actions) parts) {a : Action} (ha : actions.head? = some a)
    (hin : a.firstHop.assetIn = ends.input) :
    ∃ main, parts.head? = some [main] ∧ main.DebitsTokensOf (r.context config deadline).user := by
  rw [← Action.head?_runs] at ha
  obtain ⟨run, hrun, rfl⟩ := Option.map_eq_some_iff.1 ha
  obtain ⟨part, hpart, hcalls⟩ := hparts.exists_of_head? hrun
  obtain ⟨before, main, rfl, hmade⟩ := Action.made_of_calls hcalls
  have hinput : assetAt (r.context config deadline).assets run.action.firstHop.assetIn =
      .ok (r.context config deadline).tokenIn := by
    rw [Action.Run.firstHop_action, hin]
    exact assetAt_input hends
  obtain ⟨rfl, hdebits⟩ := hmade.debits hinput
  exact ⟨main, hpart, hdebits⟩

theorem pays_of_last (hends : Ends.find r.assets r.tokenIn r.tokenOut = .ok ends)
    (hform : Form.address.holds r.tokenOut = true)
    (hwalk : Action.Walked ⟨r.registry, r.assets, ends, r.minOut⟩ 0 r.hops actions)
    (hmem : ∀ a ∈ run.members, a ∈ actions) (hout : run.last.firstHop.assetOut = ends.output)
    (hmade : Action.Made run.action (r.context config deadline) before main) :
    main.PaysTokensTo (r.context config deadline).user := by
  have hlast : run.action.lastHop = run.last.firstHop := by
    rw [Action.Run.lastHop_action]
    exact Action.lastHop_eq_firstHop (hwalk.ne_batched (hmem _ run.last_mem))
  apply hmade.pays
  · rw [hlast, hout]
    exact assetAt_output hends
  · intro hkind pool hpool
    have hswap : run.head.kind.isExchange = false := by
      rw [← Action.Run.kind_action_isExchange, hkind]
      rfl
    have haction := (Action.Run.action_of_poolOperation hswap).2
    have hhead := Action.Run.last_of_poolOperation hswap
    rw [haction] at hkind hpool
    obtain ⟨pool', hpool', hclassify⟩ := hwalk.classified (hmem _ run.head_mem)
    cases hpool.symm.trans hpool'
    rw [hkind] at hclassify
    rw [hhead] at hout
    exact mints_output hends hform hclassify hout

end Last

/-- A linear route that fixes its input, from end to end. Its calls are those of its actions in the
order of the hops, with each run of swaps in one call. Every hop but the first reads a key of its
own, which the hop before it writes for the place where the two meet, and no other hop writes or
reads. The first call takes the user's own tokens, and the last one pays the user and insists on the
route's least output. -/
theorem compile_linear {compiled : CompiledRoute} {ends : Ends}
    (h : r.compile config deadline = .ok compiled) (hexact : r.swapType = .exactIn)
    (hends : Ends.find r.assets r.tokenIn r.tokenOut = .ok ends) (hne : ends.input ≠ ends.output)
    (hlin : Hop.Linear ends ends.input r.hops) (hform : Form.address.holds r.tokenOut = true) :
    ∃ actions first parts, r.actions = .ok actions ∧
      r.schedule = .ok (Action.batch actions) ∧
      List.Forall₂ (fun a part => a.calls (r.context config deadline) = .ok part)
        (Action.batch actions) parts ∧
      compiled.data = Hex.marked (multicall ((first ++ parts.flatten).map Call.data)) ∧
      (Action.batch actions).flatMap Action.hops = r.hops.mapIdx (fun i hop => hop.reading i) ∧
      (Action.batch actions).flatMap Action.outputs =
        r.hops.tail.mapIdx (fun i next => ⟨next.assetIn, .slot i⟩) ∧
      actions.map Action.outputs =
        r.hops.mapIdx (fun i _ => (r.hops[i + 1]?).toList.map fun next => ⟨next.assetIn, .slot i⟩) ∧
      (Action.batch actions).length =
        actions.countP (·.kind.isPoolOperation) + Action.swapRuns false actions ∧
      (∃ main, parts.head? = some [main] ∧
        main.DebitsTokensOf (r.context config deadline).user) ∧
      ∃ before main, parts.getLast? = some (before ++ [main]) ∧
        main.PaysTokensTo (r.context config deadline).user ∧
        main.Enforces r.minOut ends.output (r.context config deadline).tokenOut := by
  obtain ⟨ordered, first, parts, hordered, hparts, -, hdata⟩ := calls_of_compile h
  obtain ⟨actions, hactions, hschedule⟩ := Except.bind_eq_ok.1 hordered
  obtain ⟨_, hends', hschedule⟩ := Except.bind_eq_ok.1 hschedule
  cases hends.symm.trans hends'
  obtain ⟨_, hends', -, hwalk⟩ := Action.walked_of_ofHops hactions
  cases hends.symm.trans hends'
  obtain rfl : Action.batch actions = ordered := by
    have hbatch := Except.pure_eq_ok.1 hschedule
    have harranged : (Action.partition ends actions).toList = actions := hwalk.arranged_linear hlin
    rwa [Action.scheduleAt, harranged] at hbatch
  obtain ⟨hhops, houtputs⟩ := hwalk.linear hlin (iff_of_true rfl rfl)
  simp only [Nat.zero_add] at hhops houtputs
  refine ⟨actions, first, parts, hactions, hordered, hparts, hdata, ?_, ?_, houtputs, ?_, ?_, ?_⟩
  · rw [Action.flatMap_batch Action.Run.hops_action,
      Action.flatMap_hops_eq_map fun a ha => hwalk.ne_batched ha]
    exact hhops
  · rw [Action.flatMap_batch Action.Run.outputs_action, List.flatMap_def, houtputs,
      flatten_mapIdx_next]
  · rw [Action.batch_eq, List.length_map, Action.length_runs]
  · rw [Action.batch_eq, List.forall₂_map_left_iff] at hparts
    obtain ⟨a, ha, hin⟩ := hwalk.head?_linear hlin
    exact debits_of_head hends hparts ha hin
  · rw [Action.batch_eq, List.forall₂_map_left_iff] at hparts
    obtain ⟨a, ha, hout⟩ := hwalk.getLast?_linear hlin
    rw [← Action.getLast?_runs] at ha
    obtain ⟨run, hrun, rfl⟩ := Option.map_eq_some_iff.1 ha
    obtain ⟨part, hpart, hcalls⟩ := hparts.exists_of_getLast? hrun
    obtain ⟨before, main, rfl, hmade⟩ := Action.made_of_calls hcalls
    have hmem : ∀ a ∈ run.members, a ∈ actions := fun a ha =>
      Action.mem_of_mem_runs (List.mem_of_getLast? hrun) ha
    refine ⟨before, main, hpart, pays_of_last hends hform hwalk hmem hout hmade, ?_⟩
    -- No hop of the route starts from its output, so the batch at the end does not either.
    have hin : run.head.firstHop.assetIn ≠ ends.output := by
      obtain ⟨hop, hhop, _, _, -, heq⟩ := hwalk.exists_link (hmem _ run.head_mem)
      rw [heq]
      exact hlin.assetIn_ne (.inr rfl) hne hop hhop
    cases hkind : run.head.kind.isExchange with
    | true => exact enforces_of_swaps hends hwalk hmem hmade hkind hin hout
    | false =>
        rw [Action.Run.last_of_poolOperation hkind] at hout
        exact enforces_of_poolOperation hexact hends hwalk hmem hmade hkind hout

/-- A token is turned into shares of a pool, these into two other tokens one after the other, and
the last one into shares of another pool. -/
def joinSwapsJoin : Route :=
  let address (digit : Char) : Text := '0' :: 'x' :: List.replicate 40 digit
  let poolId (digit : Char) : Text := '0' :: 'x' :: List.replicate 64 digit
  let hop (digit : Char) (i : Nat) (n : Int) : Hop := ⟨poolId digit, i, i + 1, .literal n, []⟩
  let pool (digit : Char) (tokens : List Text) : Pool := ⟨poolId digit, address digit, tokens⟩
  { hops := [hop 'a' 0 1000, hop 'c' 1 0, hop 'd' 2 0, hop 'b' 3 0]
    assets := [address '1', address 'a', address '2', address '3', address 'b']
    tokenIn := address '1'
    tokenOut := address 'b'
    swapAmount := 1000
    minOut := 990
    user := address '7'
    registry := .ofList [
      pool 'a' [address '1', address '9'], pool 'c' [address 'a', address '2'],
      pool 'd' [address '2', address '3'], pool 'b' [address '3', address '9']] }

theorem compile_linear_joinSwapsJoin :
    ∃ compiled ends actions parts,
      joinSwapsJoin.compile .standard 1700000000 = .ok compiled ∧
      joinSwapsJoin.swapType = .exactIn ∧
      Ends.find joinSwapsJoin.assets joinSwapsJoin.tokenIn joinSwapsJoin.tokenOut = .ok ends ∧
      ends.input ≠ ends.output ∧ Hop.Linear ends ends.input joinSwapsJoin.hops ∧
      Form.address.holds joinSwapsJoin.tokenOut = true ∧
      joinSwapsJoin.actions = .ok actions ∧
      List.Forall₂
        (fun a part => a.calls (joinSwapsJoin.context .standard 1700000000) = .ok part)
        (Action.batch actions) parts ∧
      (Action.batch actions).flatMap Action.hops =
        joinSwapsJoin.hops.mapIdx (fun i hop => hop.reading i) ∧
      (Action.batch actions).length =
        actions.countP (·.kind.isPoolOperation) + Action.swapRuns false actions ∧
      (∃ main, parts.head? = some [main] ∧
        main.DebitsTokensOf (joinSwapsJoin.context .standard 1700000000).user) ∧
      ∃ before main, parts.getLast? = some (before ++ [main]) ∧
        main.PaysTokensTo (joinSwapsJoin.context .standard 1700000000).user ∧
        main.Enforces 990 ends.output (joinSwapsJoin.context .standard 1700000000).tokenOut := by
  obtain ⟨compiled, h⟩ := exists_compiled joinSwapsJoin .standard 1700000000 (by decide)
    (by decide +kernel)
  have hends : Ends.find joinSwapsJoin.assets joinSwapsJoin.tokenIn joinSwapsJoin.tokenOut =
      .ok ⟨0, 4⟩ := by rfl
  have hlin : Hop.Linear ⟨0, 4⟩ 0 joinSwapsJoin.hops := by
    simp [joinSwapsJoin, Hop.Linear]
  have hform : Form.address.holds joinSwapsJoin.tokenOut = true := by decide
  obtain ⟨actions, first, parts, hactions, -, hparts, -, hhops, -, -, hlength, hdebits, hlast⟩ :=
    compile_linear h rfl hends (by decide) hlin hform
  exact ⟨compiled, _, actions, parts, h, rfl, hends, by decide, hlin, hform, hactions, hparts,
    hhops, hlength, hdebits, hlast⟩

end Route

end SwapRelay
