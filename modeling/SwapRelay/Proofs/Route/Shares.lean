import SwapRelay.Proofs.Address.Bytes
import SwapRelay.Proofs.Relayer.Shares
import SwapRelay.Proofs.Route.Custody

/-!
# Share tokens on their way between two calls

Plain tokens go through the vault's books, where every call finds them. Share tokens do not, and each
kind of call has a rule of its own for them, so it takes both calls to tell whether the one pays the
account that the other one takes from. `shares_handed_over_iff` says for which pairs that is so: a
batch hands shares on to a withdrawal by way of the user, and a deposit or a withdrawal hands them on
to a deposit or a batch by way of the relayer. Any other pair goes wrong, such as a batch before a
deposit, unless the user is the relayer.
-/

namespace SwapRelay

/-- The account that the one call credits is the account that the other one debits. -/
def Call.PaysInto (giver taker : Call Bytes) : Prop :=
  ∃ account, giver.credited? = some account ∧ taker.debited? = some account

namespace Route

variable {r : Route} {config : Config} {deadline : Int}

/-- Two accounts of a route's calls are one exactly if both are the user's or both the relayer's, or
the user is the relayer. -/
theorem bytes_owner_eq_iff (huser : Form.address.holds r.user = true)
    (hrelayer : Form.address.holds config.relayer = true) (b c : Bool) :
    Address.bytes ((r.context config deadline).owner b) =
        Address.bytes ((r.context config deadline).owner c) ↔
      b = c ∨ Address.same r.user config.relayer = true := by
  have hnormal : Address.same (Address.normalize r.user) config.relayer =
      Address.same r.user config.relayer := by
    rw [Address.same, Form.lower_normalize huser]
    rfl
  have hparties : Address.bytes (r.context config deadline).user =
      Address.bytes (r.context config deadline).relayer ↔
        Address.same r.user config.relayer = true := by
    rw [← hnormal]
    exact Address.bytes_eq_iff (Form.holds_normalize huser) hrelayer
  cases b <;> cases c <;> simp only [Context.owner, reduceIte, Bool.false_eq_true]
  · simp
  · rw [hparties]
    simp
  · rw [eq_comm, hparties]
    simp
  · simp

section Shares

variable {emitted : List Emitted} {actions : List Action} {ends : Ends} {e : Emitted} {token : Text}
  (h : r.emitted config deadline = .ok emitted) (hactions : r.actions = .ok actions)
  (hends : Ends.find r.assets r.tokenIn r.tokenOut = .ok ends)
  (hwalk : Action.Walked ⟨r.registry, r.assets, ends, r.minOut⟩ 0 r.hops actions)
  (hdistinct : r.assets.Pairwise fun s t => Address.same s t = false)
  (hform : Form.address.holds token = true)

include h hactions hends hwalk hdistinct hform

/-- A call whose last action leaves a share token credits the user if it is a batch, and the relayer
if not. -/
theorem credited_of_mem_outputs (hshare : r.registry.isShareToken token = true)
    (hformOut : Form.address.holds r.tokenOut = true) (he : e ∈ emitted) {a : Action}
    (ha : e.members.getLast? = some a) {output : OutputReference} (houtput : output ∈ a.outputs)
    (htoken : r.assets[output.index]? = some token) :
    ∃ account, Address.bytes ((r.context config deadline).owner (!e.call.isBatchSwap)) =
      .ok account ∧ e.call.credited? = some account := by
  obtain ⟨run, hmembers, hmem, before, hmade⟩ :=
    exists_run_of_mem h hactions hends he (List.mem_of_getLast? ha)
  rw [hmembers, run.getLast?_members] at ha
  cases ha
  have hlast := hmem _ run.last_mem
  obtain ⟨hplace, hne⟩ := hwalk.assetOut_of_mem_outputs hlast houtput
  obtain ⟨t, ht, hout⟩ := (Ends.find_eq_ok hends).2
  have hother : Address.same token r.tokenOut = false :=
    Address.same_eq_false_of_ne hdistinct htoken ht hout hne
  have hpaid : assetAt (r.context config deadline).assets run.action.lastHop.assetOut =
      .ok (Address.normalize token) := by
    rw [Action.Run.lastHop_action, Action.lastHop_eq_firstHop (hwalk.ne_batched hlast), hplace]
    exact assetAt_of_getElem? htoken
  apply hmade.credited_share hpaid
  · exact (Form.same_normalize_normalize hform hformOut).trans hother
  · exact (Registry.isShareToken_normalize hform).trans hshare
  · -- The pool of a deposit goes by the address of the token that the deposit yields.
    intro hdeposit pool hpool
    obtain ⟨haction, heq⟩ := run.eq_head_of_kind_action (by rw [hdeposit]; rfl)
    rw [haction] at hdeposit hpool
    rw [heq] at hplace
    obtain ⟨pool', hpool', hclassify⟩ := hwalk.classified (hmem _ run.head_mem)
    cases hpool.symm.trans hpool'
    rw [hdeposit] at hclassify
    obtain ⟨s, hs, hsame⟩ := Hop.output_of_classify hclassify
    rw [hplace] at hs
    cases hs.symm.trans htoken
    rw [Address.same_iff] at hsame
    have hnormal : Text.lower (r.context config deadline).tokenOut = Text.lower r.tokenOut :=
      Form.lower_normalize hformOut
    rw [Address.same, ← hsame, hnormal]
    exact hother

/-- A call whose first action reads what it takes debits the user if it is a withdrawal, and the
relayer if not. -/
theorem debited_of_read (hlit : ∀ hop ∈ r.hops, hop.amount.isLiteral = true)
    (hformIn : Form.address.holds r.tokenIn = true) (he : e ∈ emitted) {b : Action}
    (hb : e.members.head? = some b) {key : Reference} (hread : b.read? = some key)
    (htoken : r.assets[b.firstHop.assetIn]? = some token) :
    ∃ account, Address.bytes ((r.context config deadline).owner (!e.call.isExitPool)) =
      .ok account ∧ e.call.debited? = some account := by
  obtain ⟨run, hmembers, hmem, before, hmade⟩ :=
    exists_run_of_mem h hactions hends he (List.mem_of_head? hb)
  rw [hmembers] at hb
  cases hb
  have hne : run.head.firstHop.assetIn ≠ ends.input := by
    intro hin
    rw [(hwalk.read?_eq_none_iff hlit (hmem _ run.head_mem)).2 hin] at hread
    cases hread
  have hpaid : assetAt (r.context config deadline).assets run.action.firstHop.assetIn =
      .ok (Address.normalize token) := by
    rw [Action.Run.firstHop_action]
    exact assetAt_of_getElem? htoken
  apply hmade.debited hpaid
  obtain ⟨t, ht, hin⟩ := (Ends.find_eq_ok hends).1
  exact (Form.same_normalize_normalize hform hformIn).trans
    (Address.same_eq_false_of_ne hdistinct htoken ht hin hne)

/-- A call hands a share token on by way of one account exactly if it is a batch before a
withdrawal, or neither is of that kind, or the user is the relayer. -/
theorem paysInto_iff (hshare : r.registry.isShareToken token = true)
    (hlit : ∀ hop ∈ r.hops, hop.amount.isLiteral = true)
    (hformIn : Form.address.holds r.tokenIn = true)
    (hformOut : Form.address.holds r.tokenOut = true) (huser : Form.address.holds r.user = true)
    (hrelayer : Form.address.holds config.relayer = true) {giver taker : Emitted}
    (hgiver : giver ∈ emitted) (htaker : taker ∈ emitted) {place : Nat}
    (hhands : giver.HandsOver place taker) (htoken : r.assets[place]? = some token) :
    giver.call.PaysInto taker.call ↔
      giver.call.isBatchSwap = taker.call.isExitPool ∨
        Address.same r.user config.relayer = true := by
  obtain ⟨a, b, key, ha, hb, houtput, hread, rfl⟩ := hhands
  obtain ⟨given, hgiven, hcredited⟩ := credited_of_mem_outputs h hactions hends hwalk hdistinct
    hform hshare hformOut hgiver ha houtput htoken
  obtain ⟨taken, htaken, hdebited⟩ := debited_of_read h hactions hends hwalk hdistinct hform hlit
    hformIn htaker hb hread htoken
  have hpays : giver.call.PaysInto taker.call ↔ given = taken := by
    simp [Call.PaysInto, hcredited, hdebited, eq_comm]
  rw [hpays, ← Except.ok.injEq, ← hgiven, ← htaken, bytes_owner_eq_iff huser hrelayer,
    Bool.not_inj_iff]

end Shares

end Route

namespace RouteRequest

/-- Whenever one call of a checked request hands a share token on to another one, and no token of the
request is listed twice, the account that is credited is the account that is debited exactly if a
batch hands on to a withdrawal, or neither call is of that kind, or the user is the relayer. -/
theorem shares_handed_over_iff {request : RouteRequest} {config : Config} {deadline : Int}
    {compiled : CompiledRoute} (hvalid : request.Validated)
    (hdistinct : request.tokens.Pairwise fun s t => Address.same s t = false)
    (h : request.compile config deadline = .ok compiled) :
    ∃ route actions emitted, request.route = .ok route ∧ route.actions = .ok actions ∧
      route.emitted config deadline = .ok emitted ∧
      compiled.data = Hex.marked (multicall (emitted.map (·.call.data))) ∧
      (emitted.flatMap Emitted.members).Perm actions ∧
      ∀ giver ∈ emitted, ∀ taker ∈ emitted, ∀ place token,
        Emitted.HandsOver place giver taker → request.tokens[place]? = some token →
          route.registry.isShareToken token = true →
            (giver.call.PaysInto taker.call ↔
              giver.call.isBatchSwap = taker.call.isExitPool ∨
                Address.same request.user config.relayer = true) := by
  have hformed := hvalid.formed
  obtain ⟨route, hroute, h⟩ := Except.bind_eq_ok.1 h
  obtain ⟨emitted, hemitted, hdata⟩ := Route.compile_eq_ok h
  have hrelayer : Form.address.holds config.relayer = true := Route.holds_relayer h
  obtain ⟨actions, ends, -, -, hactions, hends, hwalk, -⟩ := Route.emitted_eq_ok hemitted
  obtain ⟨actions', hactions', hmembers⟩ := Route.members_emitted hemitted
  cases hactions.symm.trans hactions'
  have hlit := isLiteral_of_route hroute
  refine ⟨route, actions, emitted, hroute, hactions, hemitted, hdata, hmembers, ?_⟩
  obtain ⟨hops, swapAmount, minOut, registry, -, rfl⟩ := route_eq_ok hroute
  intro giver hgiver taker htaker place token hhands htoken hshare
  have hform := hformed.tokens token (List.mem_of_getElem? htoken)
  exact Route.paysInto_iff hemitted hactions hends hwalk hdistinct hform hshare hlit hformed.tokenIn
    hformed.tokenOut hformed.user hrelayer hgiver htaker hhands htoken

/-- A token is turned into the shares of a pool, which go into another pool. The shares are minted,
or they are bought from a third pool. -/
def sharesIntoPool (minted : Bool) : RouteRequest :=
  let address (digit : Char) : Text := '0' :: 'x' :: List.replicate 40 digit
  let poolId (digit : Char) : Text := '0' :: 'x' :: List.replicate 64 digit
  { tokenIn := address '1'
    tokenOut := address 'e'
    tokens := [address '1', address 'c', address 'e']
    swaps := [
      ⟨poolId (if minted then 'c' else 'd'), 0, 1, "1000".toList, "0x".toList⟩,
      ⟨poolId 'e', 1, 2, "0".toList, "0x".toList⟩]
    swapAmount := "1000".toList
    returnAmount := "990".toList
    user := address '7'
    authorisation := none
    swapType := .exactIn
    pools := [
      ⟨poolId 'c', none, [address '1', address '9']⟩,
      ⟨poolId 'd', none, [address '1', address 'c']⟩,
      ⟨poolId 'e', none, [address '9', address 'c']⟩] }

theorem validated_sharesIntoPool (minted : Bool) : (sharesIntoPool minted).Validated := by
  cases minted <;>
    exact validated_of_formed (by decide) (by decide) (by decide) (by decide)

theorem distinct_sharesIntoPool (minted : Bool) :
    (sharesIntoPool minted).tokens.Pairwise fun s t => Address.same s t = false := by
  cases minted <;> decide

/-- The first call of the request hands the shares on to the second one, which is a deposit. -/
theorem handsOver_sharesIntoPool {minted : Bool} {route : Route} {emitted : List Emitted}
    (hroute : (sharesIntoPool minted).route = .ok route)
    (hemitted : route.emitted .standard 1700000000 = .ok emitted) :
    route.registry.isShareToken ('0' :: 'x' :: List.replicate 40 'c') = true ∧
      ∃ giver ∈ emitted, ∃ taker ∈ emitted, giver.HandsOver 1 taker ∧
        giver.call.isBatchSwap = !minted ∧ taker.call.isExitPool = false := by
  constructor
  · have hshare : (sharesIntoPool minted).route.toOption.any fun route =>
        route.registry.isShareToken ('0' :: 'x' :: List.replicate 40 'c') := by
      cases minted <;> decide
    rw [hroute] at hshare
    exact hshare
  · obtain ⟨runs, hruns, hgiver⟩ := Except.exists_of_any (x := (sharesIntoPool minted).runs)
      (fun runs => runs.any fun giver => runs.any fun taker =>
        handsOver 1 giver taker && giver.head.kind.isExchange == !minted &&
          taker.head.kind == .deposit) (by cases minted <;> decide)
    obtain ⟨run, hrun, htaker⟩ := List.any_eq_true.1 hgiver
    obtain ⟨run', hrun', htest⟩ := List.any_eq_true.1 htaker
    simp only [Bool.and_eq_true, beq_iff_eq] at htest
    obtain ⟨⟨hhands, hswap⟩, hdeposit⟩ := htest
    obtain ⟨giver, hgiver, hmembers, before, hmade⟩ :=
      exists_emitted_of_run hroute hemitted hruns hrun
    obtain ⟨taker, htaker, hmembers', before', hmade'⟩ :=
      exists_emitted_of_run hroute hemitted hruns hrun'
    refine ⟨giver, hgiver, taker, htaker, handsOver_of_runs hhands hmembers hmembers', ?_, ?_⟩
    · rw [hmade.isBatchSwap_eq, Action.Run.kind_action_isExchange, hswap]
    · have hpool : run'.head.kind.isExchange = false := by
        rw [hdeposit]
        rfl
      have haction := (Action.Run.action_of_poolOperation hpool).2
      rw [hmade'.isExitPool_eq, haction, hdeposit]
      rfl

/-- Minted shares go to the relayer, and that is where the deposit takes them from. -/
theorem shares_handed_over_iff_minted :
    ∃ compiled route emitted, (sharesIntoPool true).Validated ∧
      ((sharesIntoPool true).tokens.Pairwise fun s t => Address.same s t = false) ∧
      (sharesIntoPool true).compile .standard 1700000000 = .ok compiled ∧
      (sharesIntoPool true).route = .ok route ∧
      route.emitted .standard 1700000000 = .ok emitted ∧
      ∃ giver ∈ emitted, ∃ taker ∈ emitted, giver.HandsOver 1 taker ∧
        giver.call.PaysInto taker.call := by
  have hvalid := validated_sharesIntoPool true
  have hdistinct := distinct_sharesIntoPool true
  obtain ⟨compiled, h⟩ := exists_compiled (sharesIntoPool true) .standard 1700000000 (by decide)
    (by decide +kernel)
  obtain ⟨route, actions, emitted, hroute, -, hemitted, -, -, hiff⟩ :=
    shares_handed_over_iff hvalid hdistinct h
  obtain ⟨hshare, giver, hgiver, taker, htaker, hhands, hbatch, hexit⟩ :=
    handsOver_sharesIntoPool hroute hemitted
  refine ⟨compiled, route, emitted, hvalid, hdistinct, h, hroute, hemitted, giver, hgiver, taker,
    htaker, hhands, ?_⟩
  apply (hiff giver hgiver taker htaker 1 _ hhands rfl hshare).2
  left
  rw [hbatch, hexit]
  rfl

/-- Bought shares go to the user, and the deposit looks for them with the relayer. -/
theorem exists_stranded_sharesIntoPool :
    ∃ compiled route emitted, (sharesIntoPool false).Validated ∧
      ((sharesIntoPool false).tokens.Pairwise fun s t => Address.same s t = false) ∧
      (sharesIntoPool false).compile .standard 1700000000 = .ok compiled ∧
      (sharesIntoPool false).route = .ok route ∧
      route.emitted .standard 1700000000 = .ok emitted ∧
      ¬ ∀ giver ∈ emitted, ∀ taker ∈ emitted, ∀ place token, giver.HandsOver place taker →
        (sharesIntoPool false).tokens[place]? = some token →
          route.registry.isShareToken token = true → giver.call.PaysInto taker.call := by
  have hvalid := validated_sharesIntoPool false
  have hdistinct := distinct_sharesIntoPool false
  have hformed := hvalid.formed
  obtain ⟨compiled, h⟩ := exists_compiled (sharesIntoPool false) .standard 1700000000 (by decide)
    (by decide +kernel)
  obtain ⟨route, hroute, hcompile⟩ := Except.bind_eq_ok.1 h
  obtain ⟨emitted, hemitted, -⟩ := Route.compile_eq_ok hcompile
  obtain ⟨actions, ends, -, -, hactions, hends, hwalk, -⟩ := Route.emitted_eq_ok hemitted
  have hlit := isLiteral_of_route hroute
  refine ⟨compiled, route, emitted, hvalid, hdistinct, h, hroute, hemitted, ?_⟩
  obtain ⟨hshare, giver, hgiver, taker, htaker, hhands, hbatch, hexit⟩ :=
    handsOver_sharesIntoPool hroute hemitted
  intro hall
  have hpays := hall giver hgiver taker htaker 1 _ hhands rfl hshare
  obtain ⟨hops, swapAmount, minOut, registry, -, rfl⟩ := route_eq_ok hroute
  have hform : Form.address.holds ('0' :: 'x' :: List.replicate 40 'c') = true := by decide
  rw [Route.paysInto_iff hemitted hactions hends hwalk hdistinct hform hshare hlit hformed.tokenIn
    hformed.tokenOut hformed.user (by decide) hgiver htaker hhands rfl] at hpays
  rcases hpays with hkinds | hsame
  · rw [hbatch, hexit] at hkinds
    exact absurd hkinds (by decide)
  · have hother : Address.same (sharesIntoPool false).user Config.standard.relayer = false := by
      decide
    exact absurd (hother.symm.trans hsame) (by decide)

end RouteRequest

end SwapRelay
