import SwapRelay.Proofs.Action.Unread
import SwapRelay.Proofs.Route.Clock

/-!
# Placeholders in a request

Every step of a request has an amount and user data, but most amounts are only known once the steps
before have run, and the message of a deposit or a withdrawal is not for the sender to write. What
stands in these fields is a placeholder: as long as it can be read it has no influence on what the
request compiles to (`compile_placeholders`). An amount that would be turned down anywhere else, one
with the tag of a reference, is as good as any.
-/

namespace SwapRelay

/-- The amount and the user data of the step can be read. -/
structure SwapStep.Readable (s : SwapStep) : Prop where
  amount : (Numeral.readDecimal s.amount).isSome = true
  marked : Form.bytes.holds s.userData = true
  even : s.userData.length % 2 = 0

instance (s : SwapStep) : Decidable s.Readable :=
  decidable_of_iff ((Numeral.readDecimal s.amount).isSome = true ∧
    Form.bytes.holds s.userData = true ∧ s.userData.length % 2 = 0)
    ⟨fun ⟨amount, marked, even⟩ => ⟨amount, marked, even⟩, fun h => ⟨h.amount, h.marked, h.even⟩⟩

theorem SwapStep.Readable.exists_hop {s : SwapStep} (h : s.Readable) :
    ∃ n data, readInteger s.amount = .ok n ∧ Hex.readBytes s.userData = .ok data ∧
      Hop.ofStep s = .ok ⟨Text.lower s.poolId, s.assetIn, s.assetOut, .literal n, data⟩ := by
  obtain ⟨n, hn⟩ := Option.isSome_iff_exists.1 h.amount
  obtain ⟨data, hdata, -⟩ := Hex.readBytes_of_even h.marked h.even
  have hamount := Uint256.readInteger_of_some hn
  refine ⟨n, data, hamount, hdata, ?_⟩
  rw [Hop.ofStep, hamount, hdata]
  rfl

namespace Route

variable {r : Route} {hops : List Hop}
  (h : List.Forall₂ (Hop.Agree r.registry r.assets (Address.indexOf? r.assets r.tokenIn)) r.hops
    hops)

include h

theorem actions_agree :
    Except.Rel Eq (List.Forall₂ Action.Agree) r.actions { r with hops }.actions := by
  have hempty : r.hops.isEmpty = hops.isEmpty := by
    rw [Bool.eq_iff_iff, List.isEmpty_iff_length_eq_zero, List.isEmpty_iff_length_eq_zero,
      h.length_eq]
  simp only [actions, Action.ofHops]
  rw [hempty]
  split
  · exact .error rfl
  · refine .after_eq _ fun ends hends => ?_
    rw [(Ends.indexOf?_of_find hends).1] at h
    exact Action.chain_rel (fun _ _ => Action.isLast_eq)
      (fun position keys _ _ hgh => Action.ofHop_rel hgh position keys) h 0 0

theorem calls_eq_of_agree (config : Config) (deadline : Int) :
    r.calls config deadline = { r with hops }.calls config deadline := by
  have hschedule :
      Except.Rel Eq (List.Forall₂ Action.Agree) r.schedule { r with hops }.schedule := by
    refine (actions_agree h).bind fun actions others hagree => .after _ fun ends => ?_
    exact .ok ((Action.Agree.congruence ends).scheduleAt_rel hagree)
  apply Except.Rel.eq
  refine hschedule.bind fun ordered others hagree => .after _ fun first => ?_
  have hcalls (ctx : Context) : callsOf ctx ordered = callsOf ctx others := by
    rw [callsOf, List.mapM_congr (hagree.imp fun a b hab => hab.calls_eq ctx)]
    rfl
  rw [hcalls]
  exact .refl _

end Route

namespace RouteRequest

/-- The kind of action that the step of the request becomes. -/
def kindOf (request : RouteRequest) (s : SwapStep) : Except Error ActionKind := do
  let hop ← Hop.ofStep s
  let registry ← Registry.ofInfos request.pools
  hop.kindIn registry request.tokens

/-- The steps of the request are the same, but for an amount that is not the one of the route's
input and user data that is not the one of a swap. -/
structure Agree (request : RouteRequest) (s t : SwapStep) : Prop where
  poolId : s.poolId = t.poolId
  assetIn : s.assetIn = t.assetIn
  assetOut : s.assetOut = t.assetOut
  amount : Address.indexOf? request.tokens request.tokenIn = some s.assetIn → s.amount = t.amount
  userData : request.kindOf s = .ok .exchange → s.userData = t.userData

variable {request : RouteRequest}

theorem Agree.hop_rel {s t : SwapStep} (h : request.Agree s t) (hs : s.Readable)
    (ht : t.Readable) :
    Except.Rel Eq (fun g k => ∀ registry, Registry.ofInfos request.pools = .ok registry →
      Hop.Agree registry request.tokens (Address.indexOf? request.tokens request.tokenIn) g k)
      (Hop.ofStep s) (Hop.ofStep t) := by
  obtain ⟨n, data, hn, hdata, hg⟩ := hs.exists_hop
  obtain ⟨m, data', hm, hdata', hk⟩ := ht.exists_hop
  have hkind {registry : Registry} (hregistry : Registry.ofInfos request.pools = .ok registry) :
      request.kindOf s = Hop.kindIn ⟨Text.lower s.poolId, s.assetIn, s.assetOut, .literal n, data⟩
        registry request.tokens := by
    rw [kindOf, hg, hregistry]
    rfl
  rw [hg, hk, ← h.poolId, ← h.assetIn, ← h.assetOut]
  refine .ok fun registry hregistry => .mk (.literal m) data' ?_ ?_
  · intro hin
    rw [h.amount hin, hm] at hn
    rw [Except.ok.inj hn]
  · intro hswap
    rw [h.userData ((hkind hregistry).trans hswap), hdata'] at hdata
    exact Except.ok.inj hdata

/-- The routes differ in their hops only, and in these only in what is not read. -/
theorem route_agree {swaps : List SwapStep} (hsteps : ∀ s ∈ request.swaps, s.Readable)
    (hswaps : ∀ s ∈ swaps, s.Readable) (h : List.Forall₂ request.Agree request.swaps swaps) :
    Except.Rel Eq (fun r s : Route => s = { r with hops := s.hops } ∧
      List.Forall₂ (Hop.Agree r.registry r.assets (Address.indexOf? r.assets r.tokenIn)) r.hops
        s.hops) request.route { request with swaps }.route := by
  have hhops : Except.Rel Eq (List.Forall₂ fun g k => ∀ registry,
      Registry.ofInfos request.pools = .ok registry →
        Hop.Agree registry request.tokens (Address.indexOf? request.tokens request.tokenIn) g k)
      request.hops { request with swaps }.hops :=
    List.rel_mapM (h.imp_of_mem fun s hs t ht hst => hst.hop_rel (hsteps s hs) (hswaps t ht))
  refine hhops.bind fun hops others hagree => .after _ fun swapAmount => ?_
  refine .after _ fun minOut => .after_eq _ fun registry hregistry => ?_
  exact .ok ⟨rfl, hagree.imp fun g k hgk => hgk registry hregistry⟩

/-- The amounts of the steps that do not start from the route's input, and the user data of the
steps that are no swaps, can be replaced by anything else that can be read. The request compiles to
the same call, or fails with the same error. -/
theorem compile_placeholders {swaps : List SwapStep} (hsteps : ∀ s ∈ request.swaps, s.Readable)
    (hswaps : ∀ s ∈ swaps, s.Readable) (h : List.Forall₂ request.Agree request.swaps swaps)
    (config : Config) (deadline : Int) :
    { request with swaps }.compile config deadline = request.compile config deadline := by
  symm
  apply Except.Rel.eq
  refine (route_agree hsteps hswaps h).bind ?_
  rintro r s ⟨hs, hagree⟩
  rw [Route.compile, Route.calls_eq_of_agree hagree, ← hs]
  exact .refl _

/-- The number that stands for the first reference of a route. -/
def firstReference : Text :=
  "84158459389524002386711626555386694745894712975979482213248346579970065170432".toList

/-- The steps of `depositThenSwap` with other placeholders. -/
def otherPlaceholders : List SwapStep :=
  let poolId (digit : Char) : Text := '0' :: 'x' :: List.replicate 64 digit
  [⟨poolId 'c', 0, 1, "1000".toList, "0xBEEF".toList⟩,
    ⟨poolId 'd', 1, 2, firstReference, "0x".toList⟩]

theorem agree_otherPlaceholders :
    List.Forall₂ (depositThenSwap true).Agree (depositThenSwap true).swaps otherPlaceholders := by
  have hkinds : (depositThenSwap true).swaps.map
      (fun s => ((depositThenSwap true).kindOf s).toOption) =
        [some .deposit, some .exchange] := by decide +kernel
  refine .cons ⟨rfl, rfl, rfl, fun _ => rfl, ?_⟩ (.cons ⟨rfl, rfl, rfl, ?_, fun _ => rfl⟩ .nil)
  · intro hswap
    cases (congrArg Except.toOption hswap).symm.trans (List.cons.inj hkinds).1
  · intro hinput
    exact absurd hinput (by decide)

/-- The user data of a deposit and the amount of a swap are replaced, the amount by one that no call
may hold as it is. -/
theorem compile_placeholders_depositThenSwap :
    (∀ s ∈ (depositThenSwap true).swaps, s.Readable) ∧ (∀ s ∈ otherPlaceholders, s.Readable) ∧
      List.Forall₂ (depositThenSwap true).Agree (depositThenSwap true).swaps otherPlaceholders ∧
      (Numeral.readDecimal firstReference).any Reference.isReference = true ∧
      { depositThenSwap true with swaps := otherPlaceholders }.compile .standard 1700000000 =
        (depositThenSwap true).compile .standard 1700000000 ∧
      ∃ compiled, (depositThenSwap true).compile .standard 1700000000 = .ok compiled := by
  have hsteps : ∀ s ∈ (depositThenSwap true).swaps, s.Readable := by decide
  have hother : ∀ s ∈ otherPlaceholders, s.Readable := by decide +kernel
  exact ⟨hsteps, hother, agree_otherPlaceholders, by decide +kernel,
    compile_placeholders hsteps hother agree_otherPlaceholders .standard 1700000000,
    exists_compiled (depositThenSwap true) .standard 1700000000 (by decide) (by decide +kernel)⟩

end RouteRequest

end SwapRelay
