import SwapRelay.Proofs.Action.Runs
import SwapRelay.Proofs.Pool.Naming

/-!
# When a route needs the relayer

Whoever prices a route wants to know beforehand whether it mints or burns shares, since only then the
relayer has to carry it out. `needsRelayer` answers without a registry: it takes the address of a
pool from the hop's own id, and stops at the first hop that meets it. The compiler goes by the
addresses of its registry and classifies every hop. The two agree hop by hop
(`Hop.isPoolOperation_of_classify`), and so they agree on the route, provided that pools are sent
with the address in their id or with none.

A route without need is one of swaps only. Nothing is moved then and all the swaps stand next to each
other, so the schedule is a single batch of the hops as they were sent: `needsRelayer_agrees`.
-/

namespace SwapRelay

namespace Hop

variable {hop : Hop} {assets : List Text} {named address : Text}

theorem meetsShareToken_eq (hnamed : Pool.addressOfId hop.poolId = .ok named)
    (hsame : Address.same named address = true) {i : Nat} {token : Text}
    (htoken : assetAt assets i = .ok token) :
    hop.meetsShareToken assets i = .ok (Address.same token address) := by
  have heq : Address.same token named = Address.same token address := by
    simp only [Address.same]
    rw [Address.same_iff.1 hsame]
  rw [meetsShareToken, htoken, hnamed, ← heq]
  rfl

/-- A hop that is classified by an address that its own id names is a deposit or a withdrawal for
both. -/
theorem isPoolOperation_of_classify (hnamed : Pool.addressOfId hop.poolId = .ok named)
    (hsame : Address.same named address = true) {kind : ActionKind}
    (h : hop.classify assets address = .ok kind) :
    hop.isPoolOperation assets = .ok kind.isPoolOperation := by
  obtain ⟨tokenIn, hin, h⟩ := Except.bind_eq_ok.1 h
  obtain ⟨tokenOut, hout, h⟩ := Except.bind_eq_ok.1 h
  simp only [isPoolOperation, isDeposit, isWithdrawal]
  rw [meetsShareToken_eq hnamed hsame hin, meetsShareToken_eq hnamed hsame hout]
  cases hmints : Address.same tokenOut address with
  | true =>
      cases hburns : Address.same tokenIn address with
      | true =>
          rw [hmints, hburns] at h
          cases h
      | false =>
          rw [hmints, hburns] at h
          cases h
          rfl
  | false =>
      cases hburns : Address.same tokenIn address with
      | true =>
          rw [hmints, hburns] at h
          cases h
          rfl
      | false =>
          rw [hmints, hburns] at h
          cases h
          rfl

/-- The hop is this one with an amount of its own. -/
def KeptAs (hop kept : Hop) : Prop :=
  kept = { hop with amount := kept.amount }

end Hop

theorem ActionKind.isPoolOperation_iff {kind : ActionKind} :
    kind.isPoolOperation = true ↔ kind = .deposit ∨ kind = .withdrawal := by
  cases kind <;> decide

namespace Action

namespace Walked

variable {frame : Frame} {keys : Nat} {hops : List Hop} {actions : List Action}

/-- The hops after the first deposit or withdrawal are not looked at, but as each of them has been
classified, looking at them would change nothing. -/
theorem needsRelayer_eq (h : Walked frame keys hops actions)
    (hnamed : ∀ hop ∈ hops, ∀ pool, frame.registry.get hop.poolId = .ok pool →
      ∃ named, Pool.addressOfId hop.poolId = .ok named ∧
        Address.same named pool.address = true) :
    needsRelayer frame.assets hops = .ok (actions.any (·.kind.isPoolOperation)) := by
  induction h with
  | nil => rfl
  | @cons keys hop rest actions pool kind known classified _ _ ih =>
      obtain ⟨hhop, hrest⟩ := List.forall_mem_cons.1 hnamed
      obtain ⟨named, haddress, hsame⟩ := hhop pool known
      have hlink : (frame.link keys kind hop).kind = kind := rfl
      rw [needsRelayer, Hop.isPoolOperation_of_classify haddress hsame classified, List.any_cons,
        hlink, ih hrest]
      cases kind.isPoolOperation with
      | true => rfl
      | false => rfl

/-- Each action holds its own hop. -/
theorem forall₂_keptAs (h : Walked frame keys hops actions) :
    List.Forall₂ (fun hop a => hop.KeptAs a.firstHop) hops actions := by
  induction h with
  | nil => exact .nil
  | cons _ _ _ _ ih => exact .cons rfl ih

end Walked

/-- Swaps only are scheduled as one batch, in their own order. -/
theorem scheduleAt_of_swaps (ends : Ends) {actions : List Action} (hne : actions ≠ [])
    (hswaps : ∀ a ∈ actions, a.kind.isExchange = true) :
    ∃ a, scheduleAt ends actions = [a] ∧ a.kind = .batchedExchange ∧
      a.hops = actions.flatMap Action.hops ∧ a.outputs = actions.flatMap Action.outputs ∧
      actions.getLast?.map Action.minOut = some a.minOut := by
  obtain ⟨run, hruns, hmembers⟩ := runs_of_swaps hne hswaps
  have hhead : run.head.kind.isExchange = true :=
    hswaps run.head (by rw [← hmembers]; exact run.head_mem)
  refine ⟨run.action, ?_, Run.kind_action_of_swap hhead, ?_, ?_, ?_⟩
  · have harranged : (partition ends actions).toList = actions := arranged_of_swaps ends hswaps
    rw [scheduleAt, harranged, batch_eq, hruns, List.map_singleton]
  · rw [run.hops_action, hmembers]
  · rw [run.outputs_action, hmembers]
  · rw [← hmembers, run.getLast?_members, Option.map_some, run.minOut_action]

end Action

namespace RouteRequest

/-- The hops of a checked request name their pools by ids of the right form. -/
theorem holds_poolId_of_hops {request : RouteRequest} (hformed : request.Formed) {hops : List Hop}
    (hhops : request.hops = .ok hops) {hop : Hop} (hhop : hop ∈ hops) :
    Form.poolId.holds hop.poolId = true := by
  obtain ⟨step, hstep, hmade⟩ := (List.mapM_eq_ok.1 hhops).flip.exists_of_mem hhop
  obtain ⟨amount, -, hmade⟩ := Except.bind_eq_ok.1 hmade
  obtain ⟨userData, -, hmade⟩ := Except.bind_eq_ok.1 hmade
  cases Except.pure_eq_ok.1 hmade
  exact Form.holds_lower (hformed.swaps step hstep).poolId

/-- The hops of a checked request can be asked whether they need the relayer whenever they become
actions, if its pools are sent with the address in their id or with none. They need it exactly if one
of the actions is a deposit or a withdrawal. And if they do not, all of them are scheduled as one
batch, in the order of the request. -/
theorem needsRelayer_agrees {request : RouteRequest} (hvalid : request.Validated)
    (hnamed : ∀ info ∈ request.pools, ∀ address ∈ info.address,
      Address.same address (info.id.take 42) = true)
    {hops : List Hop} {registry : Registry} {minOut : Int} {actions : List Action}
    (hhops : request.hops = .ok hops) (hregistry : Registry.ofInfos request.pools = .ok registry)
    (hactions : Action.ofHops registry request.tokens request.tokenIn request.tokenOut minOut hops =
      .ok actions) :
    ∃ needed, needsRelayer request.tokens hops = .ok needed ∧
      (needed = true ↔ ∃ a ∈ actions, a.kind = .deposit ∨ a.kind = .withdrawal) ∧
      (needed = false → ∃ batch,
        Action.schedule request.tokens request.tokenIn request.tokenOut actions = .ok [batch] ∧
          batch.kind = .batchedExchange ∧ List.Forall₂ Hop.KeptAs hops batch.hops ∧
          batch.hops = actions.flatMap Action.hops ∧
          batch.outputs = actions.flatMap Action.outputs ∧
          actions.getLast?.map Action.minOut = some batch.minOut) := by
  obtain ⟨ends, hends, hne, hwalk⟩ := Action.walked_of_ofHops hactions
  have hneeds := hwalk.needsRelayer_eq (by
    intro hop hhop pool hpool
    have hid := holds_poolId_of_hops hvalid.formed hhops hhop
    obtain ⟨named, haddress, -⟩ := Pool.exists_addressOfId hid
    exact ⟨named, haddress, Registry.same_address_of_get hvalid.formed.pools hnamed hregistry hid
      hpool haddress⟩)
  refine ⟨_, hneeds, ?_, ?_⟩
  · simp only [List.any_eq_true, ActionKind.isPoolOperation_iff]
  · intro hnone
    rw [List.any_eq_false] at hnone
    have hswaps : ∀ a ∈ actions, a.kind.isExchange = true := by
      intro a ha
      rw [ActionKind.isExchange, Bool.not_eq_true', Bool.eq_false_iff]
      exact hnone a ha
    have hkept := hwalk.forall₂_keptAs
    have hfilled : actions ≠ [] := by
      intro hempty
      rw [hempty] at hkept
      cases hkept
      exact hne rfl
    obtain ⟨batch, hbatch, hkind, hhopsOf, houtputs, hmin⟩ :=
      Action.scheduleAt_of_swaps ends hfilled hswaps
    refine ⟨batch, ?_, hkind, ?_, hhopsOf, houtputs, hmin⟩
    · rw [← hbatch, Action.schedule, hends]
      rfl
    · rw [hhopsOf, Action.flatMap_hops_eq_map fun a ha => hwalk.ne_batched ha,
        List.forall₂_map_right_iff]
      exact hkept

/-- Two hops through pools of which one is sent with its address and the other one without. The last
hop yields a plain token, or shares of its pool. -/
def throughNamedPools (mints : Bool) : RouteRequest :=
  let address (digit : Char) : Text := '0' :: 'x' :: List.replicate 40 digit
  let poolId (digit : Char) : Text := '0' :: 'x' :: List.replicate 64 digit
  let last := address (if mints then 'C' else '8')
  { tokenIn := address '1'
    tokenOut := last
    tokens := [address '1', address '9', last]
    swaps := [
      ⟨poolId 'd', 0, 1, "1000".toList, "0x".toList⟩,
      ⟨poolId 'c', 1, 2, "0".toList, "0x".toList⟩]
    swapAmount := "1000".toList
    returnAmount := "990".toList
    user := address '7'
    authorisation := none
    swapType := .exactIn
    pools := [
      ⟨poolId 'D', some (address 'd'), [address '1', address '9']⟩,
      ⟨poolId 'c', none, [address '8', address '9']⟩] }

theorem validated_throughNamedPools (mints : Bool) : (throughNamedPools mints).Validated := by
  cases mints <;>
    exact validated_of_formed (by decide) (by decide) (by decide) (by decide)

theorem named_throughNamedPools (mints : Bool) : ∀ info ∈ (throughNamedPools mints).pools,
    ∀ address ∈ info.address, Address.same address (info.id.take 42) = true := by
  cases mints <;> decide

/-- The hops, the registry and the actions of a request. -/
def walk (request : RouteRequest) : Except Error (List Hop × Registry × List Action) := do
  let hops ← request.hops
  let registry ← Registry.ofInfos request.pools
  let actions ← Action.ofHops registry request.tokens request.tokenIn request.tokenOut 990 hops
  return (hops, registry, actions)

theorem walk_eq_ok {request : RouteRequest} {hops : List Hop} {registry : Registry}
    {actions : List Action} (h : request.walk = .ok (hops, registry, actions)) :
    request.hops = .ok hops ∧ Registry.ofInfos request.pools = .ok registry ∧
      Action.ofHops registry request.tokens request.tokenIn request.tokenOut 990 hops =
        .ok actions := by
  obtain ⟨_, hhops, h⟩ := Except.bind_eq_ok.1 h
  obtain ⟨_, hregistry, h⟩ := Except.bind_eq_ok.1 h
  obtain ⟨_, hactions, h⟩ := Except.bind_eq_ok.1 h
  cases Except.pure_eq_ok.1 h
  exact ⟨hhops, hregistry, hactions⟩

/-- The plain hops share one batch, and the hop that yields shares needs the relayer. -/
theorem needsRelayer_agrees_throughNamedPools :
    (∃ hops actions batch, (throughNamedPools false).Validated ∧
      (throughNamedPools false).hops = .ok hops ∧
      needsRelayer (throughNamedPools false).tokens hops = .ok false ∧
      Action.schedule (throughNamedPools false).tokens (throughNamedPools false).tokenIn
        (throughNamedPools false).tokenOut actions = .ok [batch] ∧
      List.Forall₂ Hop.KeptAs hops batch.hops) ∧
    ∃ hops, (throughNamedPools true).Validated ∧ (throughNamedPools true).hops = .ok hops ∧
      needsRelayer (throughNamedPools true).tokens hops = .ok true := by
  constructor
  · obtain ⟨⟨hops, registry, actions⟩, hwalk, hswaps⟩ := Except.exists_of_any
      (x := (throughNamedPools false).walk) (fun w => w.2.2.all (·.kind == .exchange))
      (by decide)
    obtain ⟨hhops, hregistry, hactions⟩ := walk_eq_ok hwalk
    obtain ⟨needed, hneeds, hiff, hbatch⟩ := needsRelayer_agrees (validated_throughNamedPools false)
      (named_throughNamedPools false) hhops hregistry hactions
    have hnone : needed = false := by
      rw [Bool.eq_false_iff]
      intro hneeded
      obtain ⟨a, ha, hkind⟩ := hiff.1 hneeded
      have hswap : a.kind = .exchange := beq_iff_eq.1 (List.all_eq_true.1 hswaps a ha)
      rw [hswap] at hkind
      exact absurd hkind (by decide)
    obtain ⟨batch, hschedule, -, hkept, -⟩ := hbatch hnone
    rw [hnone] at hneeds
    exact ⟨hops, actions, batch, validated_throughNamedPools false, hhops, hneeds, hschedule, hkept⟩
  · obtain ⟨⟨hops, registry, actions⟩, hwalk, hmints⟩ := Except.exists_of_any
      (x := (throughNamedPools true).walk) (fun w => w.2.2.any (·.kind == .deposit))
      (by decide)
    obtain ⟨hhops, hregistry, hactions⟩ := walk_eq_ok hwalk
    obtain ⟨needed, hneeds, hiff, -⟩ := needsRelayer_agrees (validated_throughNamedPools true)
      (named_throughNamedPools true) hhops hregistry hactions
    obtain ⟨a, ha, hdeposit⟩ := List.any_eq_true.1 hmints
    have hneeded : needed = true := hiff.2 ⟨a, ha, .inl (beq_iff_eq.1 hdeposit)⟩
    rw [hneeded] at hneeds
    exact ⟨hops, validated_throughNamedPools true, hhops, hneeds⟩

end RouteRequest

end SwapRelay
