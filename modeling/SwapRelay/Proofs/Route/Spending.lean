import SwapRelay.Proofs.Relayer.Spending
import SwapRelay.Proofs.Route.Shares

/-!
# Deposits and batches can take nothing from the user but the route's input

A user who lets the relayer act is open to every call of the payload, so what the calls may take has
to be read off the calls themselves. `user_debited_only_input` goes through all of them. A batch or a
deposit that names the user as its sender can take the route's input only, and a batch no more of it
than the route spends; one that starts with any other token names the relayer. Withdrawals burn
shares of the user and are left out.

Sender and relayer are told apart by their bytes, so nothing can be said of a user who is the relayer.
-/

namespace SwapRelay

theorem Call.drawsOnly_of_not_carriesOut {c : Call Bytes} (h : c.carriesOut = false)
    (account token : Bytes) (amount : Int) : c.DrawsOnly account token amount := by
  cases c with
  | batchSwap b => cases h
  | joinPool p => cases h
  | exitPool p => cases h
  | setRelayerApproval relayer approved authorisation => trivial
  | approveVault token amount => trivial
  | peekReference value => trivial

/-- The call starts with a token of the list, and if that token is not this one, the account pays for
the call. -/
def Emitted.ChargesOthersTo (e : Emitted) (account : Bytes) (tokens : List Text) (tokenIn : Text) :
    Prop :=
  ∃ a token, e.members.head? = some a ∧ tokens[a.firstHop.assetIn]? = some token ∧
    (∀ b, e.call = .batchSwap b →
      b.steps.head?.map (·.assetIn) = some (a.firstHop.assetIn : Int)) ∧
    (Address.same token tokenIn = false → e.call.debited? = some account)

namespace Route

variable {r : Route} {config : Config} {deadline : Int} {emitted : List Emitted} {e : Emitted}

theorem drawsOnly_of_mem {user tokenIn : Bytes} (h : r.emitted config deadline = .ok emitted)
    (hrelayer : Address.bytes config.relayer ≠ .ok user)
    (htokenIn : Address.bytes (r.context config deadline).tokenIn = .ok tokenIn)
    (he : e ∈ emitted) : e.call.DrawsOnly user tokenIn r.swapAmount := by
  obtain ⟨_, _, hactions, hends, -⟩ := mem_emitted h he
  rcases origin_of_mem h hactions hends he with ⟨hnone, -⟩ | ⟨run, -, -, before, hmade⟩
  · exact Call.drawsOnly_of_not_carriesOut hnone user tokenIn r.swapAmount
  · exact hmade.drawsOnly hrelayer htokenIn

theorem chargesOthersTo_of_mem {relayer : Bytes} (h : r.emitted config deadline = .ok emitted)
    (hrelayer : Address.bytes config.relayer = .ok relayer)
    (htokens : ∀ token ∈ r.assets, Form.address.holds token = true)
    (hformIn : Form.address.holds r.tokenIn = true) (he : e ∈ emitted)
    (hcall : e.call.carriesOut = true) (hexit : e.call.isExitPool = false) :
    e.ChargesOthersTo relayer r.assets r.tokenIn := by
  obtain ⟨_, _, hactions, hends, -⟩ := mem_emitted h he
  rcases origin_of_mem h hactions hends he with ⟨hnone, -⟩ | ⟨run, -, hmembers, before, hmade⟩
  · rw [hnone] at hcall
    cases hcall
  · obtain ⟨⟨normal, hnormal⟩, hfirst⟩ := hmade.exists_input hexit
    rw [Action.Run.firstHop_action] at hnormal hfirst
    have hplace : r.assets.map Address.normalize = (r.context config deadline).assets := rfl
    have hlisted := assetAt_eq_ok.1 hnormal
    rw [← hplace, List.getElem?_map] at hlisted
    obtain ⟨token, htoken, rfl⟩ := Option.map_eq_some_iff.1 hlisted
    refine ⟨run.head, token, ?_, htoken, hfirst, ?_⟩
    · rw [hmembers]
      rfl
    · intro hother
      have hform := htokens token (List.mem_of_getElem? htoken)
      have hpaid : assetAt (r.context config deadline).assets run.action.firstHop.assetIn =
          .ok (Address.normalize token) := by
        rw [Action.Run.firstHop_action]
        exact hnormal
      obtain ⟨account, haccount, hdebited⟩ := hmade.debited hpaid
        ((Form.same_normalize_normalize hform hformIn).trans hother)
      rw [hexit] at haccount
      cases hrelayer.symm.trans haccount
      exact hdebited

end Route

namespace RouteRequest

theorem swapAmount_of_route {request : RouteRequest} {route : Route}
    (h : request.route = .ok route) : readInteger request.swapAmount = .ok route.swapAmount := by
  obtain ⟨hops, -, h⟩ := Except.bind_eq_ok.1 h
  obtain ⟨swapAmount, hamount, h⟩ := Except.bind_eq_ok.1 h
  obtain ⟨minOut, -, h⟩ := Except.bind_eq_ok.1 h
  obtain ⟨registry, -, h⟩ := Except.bind_eq_ok.1 h
  cases Except.pure_eq_ok.1 h
  exact hamount

/-- Whatever a checked request compiles to, its deposits and its batches take nothing from a user
who is not the relayer but the route's input, and a batch no more than the route spends. Those that
start with another token are paid for by the relayer. -/
theorem user_debited_only_input {request : RouteRequest} {config : Config} {deadline : Int}
    {compiled : CompiledRoute} (hvalid : request.Validated)
    (hparties : Address.same request.user config.relayer = false)
    (h : request.compile config deadline = .ok compiled) :
    ∃ route actions emitted amount user relayer tokenIn, request.route = .ok route ∧
      route.actions = .ok actions ∧ route.emitted config deadline = .ok emitted ∧
      compiled.data = Hex.marked (multicall (emitted.map (·.call.data))) ∧
      (emitted.flatMap Emitted.members).Perm actions ∧
      readInteger request.swapAmount = .ok amount ∧ Address.bytes request.user = .ok user ∧
      Address.bytes config.relayer = .ok relayer ∧
      Address.bytes request.tokenIn = .ok tokenIn ∧
      ∀ e ∈ emitted, e.call.DrawsOnly user tokenIn amount ∧
        (e.call.carriesOut = true → e.call.isExitPool = false →
          e.ChargesOthersTo relayer request.tokens request.tokenIn) := by
  have hformed := hvalid.formed
  obtain ⟨route, hroute, h⟩ := Except.bind_eq_ok.1 h
  obtain ⟨emitted, hemitted, hdata⟩ := Route.compile_eq_ok h
  have hformRelayer : Form.address.holds config.relayer = true := Route.holds_relayer h
  obtain ⟨actions, hactions, hmembers⟩ := Route.members_emitted hemitted
  have hamount := swapAmount_of_route hroute
  obtain ⟨user, huser, -⟩ := Address.exists_bytes hformed.user
  obtain ⟨relayer, hrelayer, -⟩ := Address.exists_bytes hformRelayer
  obtain ⟨tokenIn, htokenIn, -⟩ := Address.exists_bytes hformed.tokenIn
  refine ⟨route, actions, emitted, route.swapAmount, user, relayer, tokenIn, hroute, hactions,
    hemitted, hdata, hmembers, hamount, huser, hrelayer, htokenIn, ?_⟩
  obtain ⟨hops, swapAmount, minOut, registry, -, rfl⟩ := route_eq_ok hroute
  intro e he
  constructor
  · apply Route.drawsOnly_of_mem hemitted _ _ he
    · -- The same bytes would make the user the relayer.
      intro hequal
      have hsame := (Address.bytes_eq_iff hformed.user hformRelayer).1 (huser.trans hequal.symm)
      rw [hparties] at hsame
      cases hsame
    · have hsame : Address.same request.tokenIn (Address.normalize request.tokenIn) = true :=
        Form.same_normalize hformed.tokenIn (Address.same_refl _)
      exact Address.bytes_of_same hsame htokenIn
  · exact Route.chargesOthersTo_of_mem hemitted hrelayer hformed.tokens hformed.tokenIn he

/-- A token goes into a pool both directly and by way of a swap. -/
def depositAndSwap : RouteRequest :=
  let address (digit : Char) : Text := '0' :: 'x' :: List.replicate 40 digit
  let poolId (digit : Char) : Text := '0' :: 'x' :: List.replicate 64 digit
  { tokenIn := address '1'
    tokenOut := address 'e'
    tokens := [address '1', address '9', address 'e']
    swaps := [
      ⟨poolId 'd', 0, 1, "600".toList, "0x".toList⟩,
      ⟨poolId 'e', 1, 2, "0".toList, "0x".toList⟩,
      ⟨poolId 'e', 0, 2, "400".toList, "0x".toList⟩]
    swapAmount := "1000".toList
    returnAmount := "990".toList
    user := address '7'
    authorisation := none
    swapType := .exactIn
    pools := [
      ⟨poolId 'd', none, [address '1', address '9']⟩,
      ⟨poolId 'e', none, [address '1', address '9']⟩] }

/-- The user pays for the batch and for one of the deposits, and the relayer for the other one. -/
theorem user_debited_only_input_depositAndSwap :
    ∃ (compiled : CompiledRoute) (emitted : List Emitted) (tokenIn relayer : Bytes),
      depositAndSwap.Validated ∧
      Address.same depositAndSwap.user Config.standard.relayer = false ∧
      depositAndSwap.compile .standard 1700000000 = .ok compiled ∧
      compiled.data = Hex.marked (multicall (emitted.map (·.call.data))) ∧
      (∀ e ∈ emitted, e.call.DrawsOnly (List.replicate 20 0x77) tokenIn 1000 ∧
        (e.call.carriesOut = true → e.call.isExitPool = false →
          e.ChargesOthersTo relayer depositAndSwap.tokens depositAndSwap.tokenIn)) ∧
      emitted.map (·.call.debited?) =
        [some (List.replicate 20 0x77), some (List.replicate 20 0x77), some relayer] := by
  have hvalid : depositAndSwap.Validated :=
    validated_of_formed (by decide) (by decide) (by decide) (by decide)
  have hparties : Address.same depositAndSwap.user Config.standard.relayer = false := by decide
  obtain ⟨compiled, h⟩ := exists_compiled depositAndSwap .standard 1700000000 (by decide)
    (by decide +kernel)
  obtain ⟨route, actions, emitted, amount, user, relayer, tokenIn, hroute, -, hemitted, hdata, -,
    hamount, huser, hrelayer, -, hall⟩ := user_debited_only_input hvalid hparties h
  have hamountIs : readInteger depositAndSwap.swapAmount = .ok 1000 := rfl
  cases hamountIs.symm.trans hamount
  have huserIs : Address.bytes depositAndSwap.user = .ok (List.replicate 20 0x77) := rfl
  cases huserIs.symm.trans huser
  have hpayers : (depositAndSwap.route.bind (·.emitted .standard 1700000000)).toOption.any
      fun (emitted : List Emitted) => some (emitted.map (·.call.debited?)) ==
        (Address.bytes Config.standard.relayer).toOption.map fun relayer =>
          [some (List.replicate 20 0x77), some (List.replicate 20 0x77), some relayer] := by
    decide +kernel
  rw [hroute, hrelayer] at hpayers
  have hpayers : (route.emitted .standard 1700000000).toOption.any
      fun (emitted : List Emitted) => some (emitted.map (·.call.debited?)) ==
        some [some (List.replicate 20 0x77), some (List.replicate 20 0x77), some relayer] := hpayers
  rw [hemitted] at hpayers
  exact ⟨compiled, emitted, tokenIn, relayer, hvalid, hparties, h, hdata, hall,
    Option.some.inj (beq_iff_eq.1 hpayers)⟩

end RouteRequest

end SwapRelay
