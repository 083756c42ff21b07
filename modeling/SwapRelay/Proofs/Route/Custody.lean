import SwapRelay.Proofs.Pool.Registry
import SwapRelay.Proofs.Relayer.Custody
import SwapRelay.Proofs.Request.Forms
import SwapRelay.Proofs.Route.Linear
import SwapRelay.Proofs.Route.References

/-!
# Where a token is kept between two calls

A call that yields a token and the call that spends it are made apart from each other, each by its
own rule for who pays and who is paid, so it has to be shown that the one leaves the token where the
other takes it from. For a token that is no share token both rules come to the vault's books, kept
for the relayer: `books_handed_over`. The rules go by the addresses of tokens, and the walk by their
places. The two agree if no token of the route is listed twice.

That one call hands on to another rules out two of the three kinds of calls at either end: what a
deposit yields and what a withdrawal spends is the share token of a registered pool.
-/

namespace SwapRelay

/-- The last action of the one call writes a reference that the first action of the other one reads,
and both are about the token at this place. -/
def Emitted.HandsOver (place : Nat) (giver taker : Emitted) : Prop :=
  ∃ a b r, giver.members.getLast? = some a ∧ taker.members.head? = some b ∧
    ⟨place, r⟩ ∈ a.outputs ∧ b.read? = some r ∧ b.firstHop.assetIn = place

namespace Registry

variable {registry : Registry} {token : Text}

theorem isShareToken_of_get {id : Text} {pool : Pool} (h : registry.get id = .ok pool)
    (hsame : Address.same token pool.address = true) : registry.isShareToken token = true := by
  refine List.any_eq_true.2 ⟨pool, mem_of_get h, ?_⟩
  rw [beq_iff_eq]
  exact (Address.normalize_eq_of_same hsame).symm

theorem isShareToken_normalize (hform : Form.address.holds token = true) :
    registry.isShareToken (Address.normalize token) = registry.isShareToken token := by
  simp only [isShareToken]
  rw [Form.normalize_normalize hform]

end Registry

/-- A withdrawal burns the share token of its pool, which stands at the place of the hop's input. -/
theorem Hop.input_of_classify {hop : Hop} {assets : List Text} {address : Text}
    (h : hop.classify assets address = .ok .withdrawal) :
    ∃ t, assets[hop.assetIn]? = some t ∧ Address.same t address = true := by
  obtain ⟨tokenIn, hin, h⟩ := Except.bind_eq_ok.1 h
  obtain ⟨tokenOut, -, h⟩ := Except.bind_eq_ok.1 h
  refine ⟨tokenIn, assetAt_eq_ok.1 hin, ?_⟩
  split at h
  · cases h
  · cases h
  · next hsame => exact hsame
  · cases h

/-- Tokens at different places are different, even if one of them is known by a name in another
case. -/
theorem Address.same_eq_false_of_ne {tokens : List Text}
    (hdistinct : tokens.Pairwise fun s t => same s t = false) {i j : Nat} {s t target : Text}
    (hs : tokens[i]? = some s) (ht : tokens[j]? = some t) (hsame : same t target = true)
    (hne : i ≠ j) : same s target = false := by
  rw [Bool.eq_false_iff]
  intro hboth
  rw [same_iff] at hsame hboth
  obtain ⟨hi, rfl⟩ := List.getElem?_eq_some_iff.1 hs
  obtain ⟨hj, rfl⟩ := List.getElem?_eq_some_iff.1 ht
  rw [List.pairwise_iff_getElem] at hdistinct
  have hequal := hboth.trans hsame.symm
  rcases Nat.lt_or_gt_of_ne hne with hlt | hlt
  · have hno := hdistinct i j hi hj hlt
    rw [same_iff.2 hequal] at hno
    cases hno
  · have hno := hdistinct j i hj hi hlt
    rw [same_iff.2 hequal.symm] at hno
    cases hno

namespace Action

/-- An action leaves its output for others where it is not the route's. -/
theorem Walked.assetOut_of_mem_outputs {frame : Frame} {keys : Nat} {hops : List Hop}
    {actions : List Action} (h : Walked frame keys hops actions) {a : Action} (ha : a ∈ actions)
    {output : OutputReference} (houtput : output ∈ a.outputs) :
    a.firstHop.assetOut = output.index ∧ output.index ≠ frame.ends.output := by
  obtain ⟨hop, -, before, kind, -, rfl⟩ := h.exists_link ha
  rw [frame.outputs_link] at houtput
  split at houtput
  · cases houtput
  · next hlast =>
      cases List.mem_singleton.1 houtput
      exact ⟨rfl, fun hout => hlast (frame.isLast_iff.2 hout)⟩

/-- What a deposit yields is the share token of a registered pool. -/
theorem Walked.ne_deposit {frame : Frame} {keys : Nat} {hops : List Hop} {actions : List Action}
    (h : Walked frame keys hops actions) {a : Action} (ha : a ∈ actions) {token : Text}
    (htoken : frame.assets[a.firstHop.assetOut]? = some token)
    (hshare : frame.registry.isShareToken token = false) : a.kind ≠ .deposit := by
  intro hkind
  obtain ⟨pool, hpool, hclassify⟩ := h.classified ha
  rw [hkind] at hclassify
  obtain ⟨t, ht, hsame⟩ := Hop.output_of_classify hclassify
  cases ht.symm.trans htoken
  rw [Registry.isShareToken_of_get hpool hsame] at hshare
  cases hshare

/-- What a withdrawal spends is the share token of a registered pool. -/
theorem Walked.ne_withdrawal {frame : Frame} {keys : Nat} {hops : List Hop} {actions : List Action}
    (h : Walked frame keys hops actions) {a : Action} (ha : a ∈ actions) {token : Text}
    (htoken : frame.assets[a.firstHop.assetIn]? = some token)
    (hshare : frame.registry.isShareToken token = false) : a.kind ≠ .withdrawal := by
  intro hkind
  obtain ⟨pool, hpool, hclassify⟩ := h.classified ha
  rw [hkind] at hclassify
  obtain ⟨t, ht, hsame⟩ := Hop.input_of_classify hclassify
  cases ht.symm.trans htoken
  rw [Registry.isShareToken_of_get hpool hsame] at hshare
  cases hshare

/-- A run that is no batch is made of one action. -/
theorem Run.eq_head_of_kind_action (run : Run) (h : run.action.kind.isExchange = false) :
    run.action = run.head ∧ run.last = run.head := by
  rw [kind_action_isExchange] at h
  exact ⟨(action_of_poolOperation h).2, last_of_poolOperation h⟩

end Action

namespace Route

variable {r : Route} {config : Config} {deadline : Int}

theorem assetAt_of_getElem? {i : Nat} {token : Text} (h : r.assets[i]? = some token) :
    assetAt (r.context config deadline).assets i = .ok (Address.normalize token) := by
  rw [assetAt_eq_ok]
  unfold context
  rw [List.getElem?_map, h, Option.map_some]

section Books

variable {emitted : List Emitted} {actions : List Action} {ends : Ends} {e : Emitted} {token : Text}
  (h : r.emitted config deadline = .ok emitted) (hactions : r.actions = .ok actions)
  (hends : Ends.find r.assets r.tokenIn r.tokenOut = .ok ends)
  (hwalk : Action.Walked ⟨r.registry, r.assets, ends, r.minOut⟩ 0 r.hops actions)
  (hdistinct : r.assets.Pairwise fun s t => Address.same s t = false)
  (hform : Form.address.holds token = true)
  (hshare : r.registry.isShareToken token = false)

include h hactions hends hwalk hdistinct hform hshare

/-- A call whose last action leaves a token that is no share token credits the vault's books. -/
theorem credits_of_mem_outputs (hformOut : Form.address.holds r.tokenOut = true) (he : e ∈ emitted)
    {a : Action} (ha : e.members.getLast? = some a) {output : OutputReference}
    (houtput : output ∈ a.outputs) (htoken : r.assets[output.index]? = some token) :
    e.call.CreditsBooksOf config.relayer := by
  obtain ⟨run, hmembers, hmem, before, hmade⟩ :=
    exists_run_of_mem h hactions hends he (List.mem_of_getLast? ha)
  rw [hmembers, run.getLast?_members] at ha
  cases ha
  have hlast := hmem _ run.last_mem
  obtain ⟨hplace, hne⟩ := hwalk.assetOut_of_mem_outputs hlast houtput
  have hpaid : assetAt (r.context config deadline).assets run.action.lastHop.assetOut =
      .ok (Address.normalize token) := by
    rw [Action.Run.lastHop_action, Action.lastHop_eq_firstHop (hwalk.ne_batched hlast), hplace]
    exact assetAt_of_getElem? htoken
  -- A deposit would be the only action of its run, so that it would yield the token itself.
  have hkind : run.action.kind ≠ .deposit := by
    intro hdeposit
    obtain ⟨haction, heq⟩ := run.eq_head_of_kind_action (by rw [hdeposit]; rfl)
    rw [haction, ← heq] at hdeposit
    exact hwalk.ne_deposit hlast (by rw [hplace]; exact htoken) hshare hdeposit
  apply hmade.credits hkind hpaid
  · obtain ⟨t, ht, hout⟩ := (Ends.find_eq_ok hends).2
    exact (Form.same_normalize_normalize hform hformOut).trans
      (Address.same_eq_false_of_ne hdistinct htoken ht hout hne)
  · exact (Registry.isShareToken_normalize hform).trans hshare

/-- A call whose first action takes a token that is no share token debits the vault's books. -/
theorem debits_of_read (hlit : ∀ hop ∈ r.hops, hop.amount.isLiteral = true)
    (hformIn : Form.address.holds r.tokenIn = true) (he : e ∈ emitted) {b : Action}
    (hb : e.members.head? = some b) {key : Reference} (hread : b.read? = some key)
    (htoken : r.assets[b.firstHop.assetIn]? = some token) :
    e.call.DebitsBooksOf config.relayer := by
  obtain ⟨run, hmembers, hmem, before, hmade⟩ :=
    exists_run_of_mem h hactions hends he (List.mem_of_head? hb)
  rw [hmembers] at hb
  cases hb
  have hhead := hmem _ run.head_mem
  have hne : run.head.firstHop.assetIn ≠ ends.input := by
    intro hin
    rw [(hwalk.read?_eq_none_iff hlit hhead).2 hin] at hread
    cases hread
  have hkind : run.action.kind ≠ .withdrawal := by
    intro hwithdrawal
    obtain ⟨haction, -⟩ := run.eq_head_of_kind_action (by rw [hwithdrawal]; rfl)
    rw [haction] at hwithdrawal
    exact hwalk.ne_withdrawal hhead htoken hshare hwithdrawal
  have hpaid : assetAt (r.context config deadline).assets run.action.firstHop.assetIn =
      .ok (Address.normalize token) := by
    rw [Action.Run.firstHop_action]
    exact assetAt_of_getElem? htoken
  apply hmade.debitsBooks hkind hpaid
  · obtain ⟨t, ht, hin⟩ := (Ends.find_eq_ok hends).1
    exact (Form.same_normalize_normalize hform hformIn).trans
      (Address.same_eq_false_of_ne hdistinct htoken ht hin hne)
  · exact (Registry.isShareToken_normalize hform).trans hshare

end Books

end Route

namespace RouteRequest

/-- Whenever one call of a checked request hands a token on to another one, the token is no share
token, and no token of the request is listed twice, the first call leaves the token with the vault
for the relayer, and the other one takes it from there. -/
theorem books_handed_over {request : RouteRequest} {config : Config} {deadline : Int}
    {compiled : CompiledRoute} (hvalid : request.Validated)
    (hdistinct : request.tokens.Pairwise fun s t => Address.same s t = false)
    (h : request.compile config deadline = .ok compiled) :
    ∃ route actions emitted, request.route = .ok route ∧ route.actions = .ok actions ∧
      route.emitted config deadline = .ok emitted ∧
      compiled.data = Hex.marked (multicall (emitted.map (·.call.data))) ∧
      (emitted.flatMap Emitted.members).Perm actions ∧
      ∀ giver ∈ emitted, ∀ taker ∈ emitted, ∀ place token,
        Emitted.HandsOver place giver taker → request.tokens[place]? = some token →
          route.registry.isShareToken token = false →
            giver.call.CreditsBooksOf config.relayer ∧ taker.call.DebitsBooksOf config.relayer := by
  have hformed := hvalid.formed
  obtain ⟨route, hroute, h⟩ := Except.bind_eq_ok.1 h
  obtain ⟨emitted, hemitted, hdata⟩ := Route.compile_eq_ok h
  obtain ⟨actions, ends, -, -, hactions, hends, hwalk, -⟩ := Route.emitted_eq_ok hemitted
  obtain ⟨actions', hactions', hmembers⟩ := Route.members_emitted hemitted
  cases hactions.symm.trans hactions'
  have hlit := isLiteral_of_route hroute
  refine ⟨route, actions, emitted, hroute, hactions, hemitted, hdata, hmembers, ?_⟩
  obtain ⟨hops, swapAmount, minOut, registry, -, rfl⟩ := route_eq_ok hroute
  rintro giver hgiver taker htaker place token ⟨a, b, r, ha, hb, houtput, hread, rfl⟩ htoken hshare
  have hform := hformed.tokens token (List.mem_of_getElem? htoken)
  constructor
  · exact Route.credits_of_mem_outputs hemitted hactions hends hwalk hdistinct hform hshare
      hformed.tokenOut hgiver ha houtput htoken
  · exact Route.debits_of_read hemitted hactions hends hwalk hdistinct hform hshare hlit
      hformed.tokenIn htaker hb hread htoken

/-- The test for runs of what `Emitted.HandsOver` says of their calls. -/
def handsOver (place : Nat) (giver taker : Action.Run) : Bool :=
  taker.head.firstHop.assetIn == place &&
    giver.last.outputs.any fun output =>
      output.index == place && taker.head.read? == some output.key

theorem handsOver_of_runs {place : Nat} {giver taker : Action.Run}
    (h : handsOver place giver taker = true) {e₁ e₂ : Emitted} (h₁ : e₁.members = giver.members)
    (h₂ : e₂.members = taker.members) : e₁.HandsOver place e₂ := by
  simp only [handsOver, Bool.and_eq_true, List.any_eq_true, beq_iff_eq] at h
  obtain ⟨hin, ⟨i, r⟩, houtput, rfl, hread⟩ := h
  refine ⟨giver.last, taker.head, r, ?_, ?_, houtput, hread, hin⟩
  · rw [h₁, giver.getLast?_members]
  · rw [h₂]
    rfl

/-- The withdrawal leaves its token with the vault, and the batch of swaps takes it from there. -/
theorem books_handed_over_exitSwapsJoin :
    ∃ compiled route emitted, exitSwapsJoin.Validated ∧
      (exitSwapsJoin.tokens.Pairwise fun s t => Address.same s t = false) ∧
      exitSwapsJoin.compile .standard 1700000000 = .ok compiled ∧
      exitSwapsJoin.route = .ok route ∧ route.emitted .standard 1700000000 = .ok emitted ∧
      ∃ giver ∈ emitted, ∃ taker ∈ emitted, giver.HandsOver 1 taker ∧
        giver.call.CreditsBooksOf Config.standard.relayer ∧
        taker.call.DebitsBooksOf Config.standard.relayer := by
  have hvalid : exitSwapsJoin.Validated :=
    validated_of_formed (by decide) (by decide) (by decide) (by decide)
  have hdistinct : exitSwapsJoin.tokens.Pairwise fun s t => Address.same s t = false := by decide
  obtain ⟨compiled, h⟩ := exists_compiled exitSwapsJoin .standard 1700000000 (by decide)
    (by decide +kernel)
  obtain ⟨route, actions, emitted, hroute, -, hemitted, -, -, hbooks⟩ :=
    books_handed_over hvalid hdistinct h
  refine ⟨compiled, route, emitted, hvalid, hdistinct, h, hroute, hemitted, ?_⟩
  obtain ⟨runs, hruns, hgiver⟩ := Except.exists_of_any (x := exitSwapsJoin.runs)
    (fun runs => runs.any fun giver => runs.any (handsOver 1 giver)) (by decide)
  obtain ⟨run, hrun, htaker⟩ := List.any_eq_true.1 hgiver
  obtain ⟨run', hrun', hhands⟩ := List.any_eq_true.1 htaker
  obtain ⟨giver, hgiver, hmembers, -⟩ := exists_emitted_of_run hroute hemitted hruns hrun
  obtain ⟨taker, htaker, hmembers', -⟩ := exists_emitted_of_run hroute hemitted hruns hrun'
  have hhands := handsOver_of_runs hhands hmembers hmembers'
  have hshare : exitSwapsJoin.route.toOption.any fun route =>
      route.registry.isShareToken ('0' :: 'x' :: List.replicate 40 '1') == false := by decide
  rw [hroute] at hshare
  exact ⟨giver, hgiver, taker, htaker, hhands,
    hbooks giver hgiver taker htaker 1 _ hhands rfl (beq_iff_eq.1 hshare)⟩

end RouteRequest

end SwapRelay
