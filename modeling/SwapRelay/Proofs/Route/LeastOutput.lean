import SwapRelay.Proofs.Relayer.Bounds
import SwapRelay.Proofs.Route.Emission

/-!
# Which calls insist on the route's least output

Every action that ends the route carries the route's least output, but an action is not a call yet.
A deposit or a withdrawal hands the bound on. A batch knows only the bound of its last member, and
only the places where it starts and ends, so it insists on the route's least output exactly if it
ends at the route's output and does not start from it: `enforces_minOut_iff`. A route that is split
may therefore yield a part of its output in a batch that insists on nothing.
-/

namespace SwapRelay

namespace Action

/-- An action of a walk that ends the route carries the route's least output. -/
theorem Walked.minOut_eq {frame : Frame} {keys : Nat} {hops : List Hop} {actions : List Action}
    (h : Walked frame keys hops actions) {a : Action} (ha : a ∈ actions)
    (hout : a.firstHop.assetOut = frame.ends.output) : a.minOut = frame.minOut := by
  obtain ⟨hop, -, before, kind, -, rfl⟩ := h.exists_link ha
  exact if_pos (frame.isLast_iff.2 hout)

end Action

namespace Route

variable {r : Route} {config : Config} {deadline : Int}

section Runs

variable {ends : Ends} {actions : List Action} {run : Action.Run} {before : List (Call Bytes)}
  {main : Call Bytes}

/-- The call of a deposit or a withdrawal that ends the route insists on its least output. -/
theorem enforces_of_poolOperation (hexact : r.swapType = .exactIn)
    (hends : Ends.find r.assets r.tokenIn r.tokenOut = .ok ends)
    (hwalk : Action.Walked ⟨r.registry, r.assets, ends, r.minOut⟩ 0 r.hops actions)
    (hmem : ∀ a ∈ run.members, a ∈ actions)
    (hmade : Action.Made run.action (r.context config deadline) before main)
    (hkind : run.head.kind.isExchange = false)
    (hout : run.head.firstHop.assetOut = ends.output) :
    main.Enforces r.minOut ends.output (r.context config deadline).tokenOut := by
  have hhead := hmem _ run.head_mem
  rw [(Action.Run.action_of_poolOperation hkind).2] at hmade
  have henforces := hmade.enforces_of_poolOperation hexact (hwalk.ne_batched hhead)
    (assetAt_output hends) hout
  rwa [hwalk.minOut_eq hhead hout] at henforces

theorem enforces_of_swaps (hends : Ends.find r.assets r.tokenIn r.tokenOut = .ok ends)
    (hwalk : Action.Walked ⟨r.registry, r.assets, ends, r.minOut⟩ 0 r.hops actions)
    (hmem : ∀ a ∈ run.members, a ∈ actions)
    (hmade : Action.Made run.action (r.context config deadline) before main)
    (hkind : run.head.kind.isExchange = true) (hin : run.head.firstHop.assetIn ≠ ends.output)
    (hout : run.last.firstHop.assetOut = ends.output) :
    main.Enforces r.minOut ends.output (r.context config deadline).tokenOut := by
  have hlast := hmem _ run.last_mem
  have henforces := hmade.enforces_of_batch (Action.Run.kind_action_of_swap hkind)
    (assetAt_output hends)
    (by rwa [Action.Run.lastHop_action, Action.lastHop_eq_firstHop (hwalk.ne_batched hlast)])
    (by rwa [Action.Run.firstHop_action])
  rwa [Action.Run.minOut_action, hwalk.minOut_eq hlast hout] at henforces

theorem not_enforces_of_swaps (hpos : 0 < r.minOut)
    (hends : Ends.find r.assets r.tokenIn r.tokenOut = .ok ends)
    (hwalk : Action.Walked ⟨r.registry, r.assets, ends, r.minOut⟩ 0 r.hops actions)
    (hmem : ∀ a ∈ run.members, a ∈ actions)
    (hmade : Action.Made run.action (r.context config deadline) before main)
    (hkind : run.head.kind.isExchange = true)
    (h : ¬(run.head.firstHop.assetIn ≠ ends.output ∧ run.last.firstHop.assetOut = ends.output)) :
    ¬main.Enforces r.minOut ends.output (r.context config deadline).tokenOut := by
  apply hmade.not_enforces_of_batch (Action.Run.kind_action_of_swap hkind)
    (assetAt_output hends) hpos
  rw [Action.Run.lastHop_action, Action.Run.firstHop_action,
    Action.lastHop_eq_firstHop (hwalk.ne_batched (hmem _ run.last_mem))]
  exact fun hboth => h hboth.symm

end Runs

/-- A call that yields the route's output insists on its least amount, unless it is a batch that
ends elsewhere or starts from the output. -/
theorem enforces_iff_of_mem {emitted : List Emitted} {ends : Ends} (hexact : r.swapType = .exactIn)
    (hpos : 0 < r.minOut) (h : r.emitted config deadline = .ok emitted)
    (hends : Ends.find r.assets r.tokenIn r.tokenOut = .ok ends) {e : Emitted} (he : e ∈ emitted)
    {a : Action} (ha : a ∈ e.members) (hout : a.firstHop.assetOut = ends.output) :
    e.call.Enforces r.minOut ends.output (r.context config deadline).tokenOut ↔
      (∀ b, e.call ≠ .batchSwap b) ∨
        ∃ first last, e.members.head? = some first ∧ e.members.getLast? = some last ∧
          first.firstHop.assetIn ≠ ends.output ∧ last.firstHop.assetOut = ends.output := by
  obtain ⟨actions, _, _, _, hactions, hends', hwalk, -⟩ := emitted_eq_ok h
  cases hends.symm.trans hends'
  obtain ⟨run, hmembers, hmem, before, hmade⟩ := exists_run_of_mem h hactions hends he ha
  rw [hmembers] at ha ⊢
  cases hkind : run.head.kind.isExchange with
  | false =>
      obtain ⟨halone, haction⟩ := Action.Run.action_of_poolOperation hkind
      rw [halone] at ha
      obtain rfl := List.mem_singleton.1 ha
      have hne := hwalk.ne_batched (hmem _ run.head_mem)
      refine iff_of_true ?_ (.inl fun b hb => ?_)
      · exact enforces_of_poolOperation hexact hends hwalk hmem hmade hkind hout
      · rw [haction] at hmade
        exact hne (hmade.exists_batch_iff.1 ⟨b, hb⟩)
  | true =>
      constructor
      · intro henforces
        by_contra hneither
        refine not_enforces_of_swaps hpos hends hwalk hmem hmade hkind ?_ henforces
        rintro ⟨hin, hlast⟩
        exact hneither (.inr ⟨run.head, run.last, rfl, run.getLast?_members, hin, hlast⟩)
      · rintro (hno | ⟨first, last, hfirst, hlast, hfirstIn, hlastOut⟩)
        · obtain ⟨b, hb⟩ := hmade.exists_batch_iff.2 (Action.Run.kind_action_of_swap hkind)
          exact absurd hb (hno b)
        · cases hfirst
          cases run.getLast?_members.symm.trans hlast
          exact enforces_of_swaps hends hwalk hmem hmade hkind hfirstIn hlastOut

/-- In a route that fixes its input, a call that carries out a hop to the route's output insists on
the route's least output exactly if it is a deposit or a withdrawal, or a batch whose last hop goes
to the output and whose first one does not come from it. -/
theorem enforces_minOut_iff {compiled : CompiledRoute}
    (h : r.compile config deadline = .ok compiled) (hexact : r.swapType = .exactIn)
    (hpos : 0 < r.minOut) :
    ∃ ends emitted, Ends.find r.assets r.tokenIn r.tokenOut = .ok ends ∧
      r.emitted config deadline = .ok emitted ∧
      compiled.data = Hex.marked (multicall (emitted.map (·.call.data))) ∧
      ∀ e ∈ emitted, (∃ a ∈ e.members, a.firstHop.assetOut = ends.output) →
        (e.call.Enforces r.minOut ends.output (r.context config deadline).tokenOut ↔
          (∀ b, e.call ≠ .batchSwap b) ∨
            ∃ first last, e.members.head? = some first ∧ e.members.getLast? = some last ∧
              first.firstHop.assetIn ≠ ends.output ∧ last.firstHop.assetOut = ends.output) := by
  obtain ⟨emitted, hemitted, hdata⟩ := compile_eq_ok h
  obtain ⟨_, ends, _, _, -, hends, -⟩ := emitted_eq_ok hemitted
  refine ⟨ends, emitted, hends, hemitted, hdata, ?_⟩
  rintro e he ⟨a, ha, hout⟩
  exact enforces_iff_of_mem hexact hpos hemitted hends he ha hout

/-- A route over a token, of which one part goes to the output directly, and the other one to the
shares of a pool that are turned into the output. The direct hop is the first or the second one. -/
def splitRoute (directFirst : Bool) : Route :=
  let address (digit : Char) : Text := '0' :: 'x' :: List.replicate 40 digit
  let pool (digit : Char) (tokens : List Text) : Pool :=
    ⟨'0' :: 'x' :: List.replicate 64 digit, address digit, tokens⟩
  let direct : Hop := ⟨'0' :: 'x' :: List.replicate 64 'd', 0, 1, .literal 600, []⟩
  let toShares : Hop := ⟨'0' :: 'x' :: List.replicate 64 'e', 0, 2, .literal 400, []⟩
  let exit : Hop := ⟨'0' :: 'x' :: List.replicate 64 'c', 2, 1, .literal 0, []⟩
  { hops := if directFirst then [direct, toShares, exit] else [toShares, direct, exit]
    assets := [address '1', address '2', address 'c']
    tokenIn := address '1'
    tokenOut := address '2'
    swapAmount := 1000
    minOut := 990
    user := address '7'
    registry := .ofList [
      pool 'd' [address '1', address '2'], pool 'e' [address '1', address 'c'],
      pool 'c' [address '2', address '9']] }

theorem enforces_minOut_iff_splitRoute :
    ∃ compiled ends emitted,
      (splitRoute false).compile .standard 1700000000 = .ok compiled ∧
      (splitRoute false).swapType = .exactIn ∧ 0 < (splitRoute false).minOut ∧
      Ends.find (splitRoute false).assets (splitRoute false).tokenIn (splitRoute false).tokenOut =
        .ok ends ∧
      (splitRoute false).emitted .standard 1700000000 = .ok emitted ∧
      ∀ e ∈ emitted, (∃ a ∈ e.members, a.firstHop.assetOut = ends.output) →
        (e.call.Enforces 990 ends.output
            ((splitRoute false).context .standard 1700000000).tokenOut ↔
          (∀ b, e.call ≠ .batchSwap b) ∨
            ∃ first last, e.members.head? = some first ∧ e.members.getLast? = some last ∧
              first.firstHop.assetIn ≠ ends.output ∧ last.firstHop.assetOut = ends.output) := by
  obtain ⟨compiled, h⟩ := exists_compiled (splitRoute false) .standard 1700000000 (by decide)
    (by decide)
  obtain ⟨ends, emitted, hends, hemitted, -, hiff⟩ := enforces_minOut_iff h rfl (by decide)
  exact ⟨compiled, ends, emitted, h, rfl, by decide, hends, hemitted, hiff⟩

/-- The call is a batch that carries out a hop to this place and bounds nothing there. -/
def yieldsUnbound (output : Nat) (e : Emitted) : Bool :=
  match e.call with
  | .batchSwap b => e.members.any (·.firstHop.assetOut == output) && b.limits[output]? == some 0
  | _ => false

theorem not_enforces_of_yieldsUnbound {output : Nat} {e : Emitted}
    (h : yieldsUnbound output e = true) {least : Int} (hpos : 0 < least) (token : Text) :
    (∃ a ∈ e.members, a.firstHop.assetOut = output) ∧ ¬e.call.Enforces least output token := by
  simp only [yieldsUnbound] at h
  split at h
  · next b hb =>
      rw [Bool.and_eq_true, List.any_eq_true, beq_iff_eq] at h
      obtain ⟨⟨a, ha, hout⟩, hlimit⟩ := h
      refine ⟨⟨a, ha, beq_iff_eq.1 hout⟩, ?_⟩
      intro henforces
      rw [hb] at henforces
      have hzero : (0 : Int) = -least := Option.some.inj (hlimit.symm.trans henforces)
      omega
  · cases h

/-- With the direct hop first the batch ends at the shares, and what it yields of the output is not
bound. -/
theorem exists_unbound_splitRoute :
    ∃ compiled emitted, (splitRoute true).compile .standard 1700000000 = .ok compiled ∧
      (splitRoute true).swapType = .exactIn ∧ 0 < (splitRoute true).minOut ∧
      Ends.find (splitRoute true).assets (splitRoute true).tokenIn (splitRoute true).tokenOut =
        .ok ⟨0, 1⟩ ∧
      (splitRoute true).emitted .standard 1700000000 = .ok emitted ∧
      ¬ ∀ e ∈ emitted, (∃ a ∈ e.members, a.firstHop.assetOut = 1) →
        e.call.Enforces 990 1 ((splitRoute true).context .standard 1700000000).tokenOut := by
  obtain ⟨compiled, h⟩ := exists_compiled (splitRoute true) .standard 1700000000 (by decide)
    (by decide)
  obtain ⟨emitted, hemitted, -⟩ := compile_eq_ok h
  have hunbound : ((splitRoute true).emitted .standard 1700000000).toOption.any
      (·.any (yieldsUnbound 1)) = true := by decide
  refine ⟨compiled, emitted, h, rfl, by decide, by rfl, hemitted, ?_⟩
  intro hall
  rw [hemitted] at hunbound
  obtain ⟨e, he, hyields⟩ := List.any_eq_true.1 hunbound
  obtain ⟨hout, hnot⟩ := not_enforces_of_yieldsUnbound hyields (show (0 : Int) < 990 by decide)
    ((splitRoute true).context .standard 1700000000).tokenOut
  exact hnot (hall e he hout)

end Route

end SwapRelay
