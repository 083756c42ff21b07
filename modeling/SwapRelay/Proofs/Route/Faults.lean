import SwapRelay.Proofs.Action.Runs
import SwapRelay.Proofs.Action.Strays
import SwapRelay.Proofs.Pool.Naming
import SwapRelay.Proofs.Relayer.Faults
import SwapRelay.Proofs.Route.Emission

/-!
# What is left to go wrong once a route is scheduled

A route whose texts passed their checks and whose amounts fit their words has a registry of
well-formed pools, and whatever it schedules is ready for the encoding: pools were looked up,
places lie inside the assets, exchanges were batched, and a hop keeps a literal amount only if it
starts from the route's input. So of all that can go wrong with the calls of an action only two
things are left, `calls_of_checked`: a pool is asked for a token that it does not hold, or a literal
amount carries a tag. The tags begin where the signed words end, so with its own two amounts below
that bound a route has neither a limit out of range nor a tag in them.
-/

namespace SwapRelay

/-! ## Registries -/

theorem Pool.exists_ofInfo {info : PoolInfo} (h : info.Formed)
    (hcount : info.tokens.length < Nat.pow 2 64) :
    ∃ pool, Pool.ofInfo info = .ok pool ∧ pool.Formed := by
  obtain ⟨address, hok, hform⟩ := Pool.exists_sentAddress h
  refine ⟨_, (Pool.ofInfo_eq info).trans (Except.map_eq_ok.2 ⟨address, hok, rfl⟩), ?_⟩
  exact {
    id := Form.holds_lower h.id
    address := Form.holds_normalize hform
    tokens := Form.holds_map_normalize h.tokens
    count := by
      rw [List.length_map]
      exact hcount }

/-- A registry is made from any pools that passed their check. -/
theorem Registry.exists_ofInfos {infos : List PoolInfo}
    (h : ∀ info ∈ infos, info.Formed ∧ info.tokens.length < Nat.pow 2 64) :
    ∃ registry, Registry.ofInfos infos = .ok registry ∧ ∀ pool ∈ registry.pools, pool.Formed := by
  have hpools : (infos.mapM Pool.ofInfo).EndsIn
      (List.Forall₂ (fun _ pool => pool.Formed) infos) fun _ => False := by
    apply List.endsIn_mapM
    intro info hinfo
    obtain ⟨pool, hok, hformed⟩ := Pool.exists_ofInfo (h info hinfo).1 (h info hinfo).2
    exact .of_eq_ok hok hformed
  obtain ⟨pools, hok, hall⟩ := hpools.exists_ok
  refine ⟨_, Except.bind_eq_ok.2 ⟨pools, hok, rfl⟩, ?_⟩
  intro pool hpool
  obtain ⟨-, -, hformed⟩ := hall.flip.exists_of_mem (Registry.mem_of_mem_survivors hpool)
  exact hformed

/-! ## Scheduled actions are ready -/

/-- The texts of a route have their forms, its amounts are literals that fit a word, and its lists
are of a size that can be written. -/
structure Route.Formed (r : Route) : Prop where
  assets : ∀ t ∈ r.assets, Form.address.holds t = true
  count : r.assets.length < Nat.pow 2 64
  hops : ∀ hop ∈ r.hops, Form.poolId.holds hop.poolId = true ∧
    ∃ n, hop.amount = .literal n ∧ Uint256.Fits n
  hopCount : r.hops.length < Nat.pow 2 64
  user : Form.address.holds r.user = true
  pools : ∀ pool ∈ r.registry.pools, pool.Formed
  swapAmount : Uint256.Fits r.swapAmount
  minOut : Uint256.Fits r.minOut

namespace Route

variable {r : Route} {config : Config} {deadline : Int}

theorem Formed.context (h : r.Formed) (hrelayer : Form.address.holds config.relayer = true)
    (hwrapped : Form.address.holds config.wrappedNative = true)
    (hdeadline : Uint256.Fits deadline) : (r.context config deadline).Formed where
  assets := Form.holds_map_normalize h.assets
  count := by
    have hlength : (r.context config deadline).assets.length = r.assets.length := List.length_map _
    rw [hlength]
    exact h.count
  user := Form.holds_normalize h.user
  relayer := hrelayer
  wrappedNative := hwrapped
  pools := h.pools
  swapAmount := h.swapAmount
  deadline := hdeadline

theorem fits_slot {key : Nat} (h : key < Nat.pow 2 64) : (Reference.slot key).Fits := by
  have hspan : (Nat.pow 2 64 : Nat) < Reference.keySpan := by decide
  exact ⟨Int.natCast_nonneg key, Int.lt_trans (Int.ofNat_lt.2 h) hspan⟩

section Ready

variable (h : r.Formed) {actions : List Action} {ends : Ends}
  (hwalk : Action.Walked ⟨r.registry, r.assets, ends, r.minOut⟩ 0 r.hops actions)
  {a : Action} (ha : a ∈ actions)

include h hwalk ha

theorem hop_ready {hop : Hop} (hhop : hop ∈ a.hops) : hop.Ready (r.context config deadline) := by
  obtain ⟨origin, hmem, before, kind, pool, hlt, hpool, hclass, rfl⟩ := hwalk.exists_hop ha
  obtain rfl := List.mem_singleton.1 hhop
  obtain ⟨hin, hout⟩ := Hop.isInside_of_classify hclass
  have hlength : (r.context config deadline).assets.length = r.assets.length := List.length_map _
  refine ⟨(h.hops origin hmem).1, ⟨pool, hpool⟩, ?_, ?_, ?_⟩
  · rw [hlength]
    exact hin
  · rw [hlength]
    exact hout
  · dsimp only
    rw [Action.Frame.fedAmount]
    split
    · obtain ⟨n, hliteral, hfits⟩ := (h.hops origin hmem).2
      rw [hliteral]
      exact hfits
    · have hcount := h.hopCount
      exact fits_slot (by omega)

theorem outputs_ready {output : OutputReference} (houtput : output ∈ a.outputs) :
    output.index < (r.context config deadline).assets.length ∧ output.key.Fits := by
  obtain ⟨origin, hmem, before, kind, pool, hlt, hpool, hclass, rfl⟩ := hwalk.exists_hop ha
  have hlength : (r.context config deadline).assets.length = r.assets.length := List.length_map _
  rw [Action.Frame.outputs_link] at houtput
  split at houtput
  · cases houtput
  · obtain rfl := List.mem_singleton.1 houtput
    rw [hlength]
    have hcount := h.hopCount
    exact ⟨(Hop.isInside_of_classify hclass).2, fits_slot (by omega)⟩

omit h in
theorem minOut_eq_or : a.minOut = r.minOut ∨ a.minOut = 0 := by
  obtain ⟨origin, -, before, kind, -, -, -, -, rfl⟩ := hwalk.exists_hop ha
  let frame : Action.Frame := ⟨r.registry, r.assets, ends, r.minOut⟩
  have hmin : (frame.link before kind origin).minOut =
      if frame.isLast origin then r.minOut else 0 := rfl
  rw [hmin]
  split
  · exact .inl rfl
  · exact .inr rfl

omit h in
/-- A hop that keeps its literal amount starts from the route's input. -/
theorem input_of_literal {n : Int} (hliteral : a.firstHop.amount = .literal n) :
    a.firstHop.assetIn = ends.input := by
  obtain ⟨origin, hmem, before, kind, pool, hlt, hpool, hclass, rfl⟩ := hwalk.exists_hop ha
  rw [Action.Frame.firstHop_link, Action.Frame.fedAmount] at hliteral
  dsimp only at hliteral
  split at hliteral
  · next hin => exact hin
  · cases hliteral

end Ready

/-- The action of a run of a route's actions is ready to become calls. -/
theorem Formed.ready (h : r.Formed) {actions : List Action} {ends : Ends}
    (hends : Ends.find r.assets r.tokenIn r.tokenOut = .ok ends)
    (hwalk : Action.Walked ⟨r.registry, r.assets, ends, r.minOut⟩ 0 r.hops actions)
    {run : Action.Run} (hrun : ∀ a ∈ run.members, a ∈ actions) :
    run.action.Ready (r.context config deadline) where
  scheduled := by
    cases hkind : run.head.kind.isExchange with
    | true =>
        rw [Action.Run.kind_action_of_swap hkind]
        decide
    | false =>
        rw [(Action.Run.action_of_poolOperation hkind).2]
        intro hexchange
        rw [hexchange] at hkind
        cases hkind
  hops := by
    intro hop hhop
    rw [Action.Run.hops_action] at hhop
    obtain ⟨a, ha, hhop⟩ := List.mem_flatMap.1 hhop
    exact hop_ready h hwalk (hrun a ha) hhop
  outputs := by
    intro output houtput
    rw [Action.Run.outputs_action] at houtput
    obtain ⟨a, ha, houtput⟩ := List.mem_flatMap.1 houtput
    exact outputs_ready h hwalk (hrun a ha) houtput
  minOut := by
    rw [Action.Run.minOut_action]
    rcases minOut_eq_or hwalk (hrun _ run.last_mem) with hmin | hmin
    · rw [hmin]
      exact h.minOut
    · rw [hmin]
      exact Uint256.fits_zero
  funded := by
    intro n hliteral
    rw [Action.Run.firstHop_action] at hliteral
    have hin := input_of_literal hwalk (hrun _ run.head_mem) hliteral
    refine ⟨(r.context config deadline).tokenIn, ?_, Address.same_refl _⟩
    rw [Action.Run.firstHop_action, hin]
    exact assetAt_input hends

theorem schedule_eq_ok {ordered : List Action} (h : r.schedule = .ok ordered) :
    ∃ actions ends, r.actions = .ok actions ∧
      Ends.find r.assets r.tokenIn r.tokenOut = .ok ends ∧
      Action.Walked ⟨r.registry, r.assets, ends, r.minOut⟩ 0 r.hops actions ∧
      ordered = (Action.runs (Action.arranged ends actions)).map Action.Run.action := by
  obtain ⟨actions, hactions, h⟩ := Except.bind_eq_ok.1 h
  obtain ⟨ends, hends, h⟩ := Except.bind_eq_ok.1 h
  cases Except.pure_eq_ok.1 h
  obtain ⟨ends', hends', -, hwalk⟩ := Action.walked_of_ofHops hactions
  cases hends.symm.trans hends'
  exact ⟨actions, ends, hactions, hends, hwalk, Action.batch_eq _⟩

section Scheduled

variable {ordered : List Action} (hschedule : r.schedule = .ok ordered) {a : Action}
  (ha : a ∈ ordered)

include hschedule ha

/-- Every action that a route schedules is ready to become calls. -/
theorem Formed.ready_of_mem (h : r.Formed) : a.Ready (r.context config deadline) := by
  obtain ⟨actions, ends, -, hends, hwalk, rfl⟩ := schedule_eq_ok hschedule
  obtain ⟨run, hrun, rfl⟩ := List.mem_map.1 ha
  apply h.ready hends hwalk
  intro b hb
  exact (Action.arranged_perm ends actions).mem_iff.1 (Action.mem_of_mem_runs hrun hb)

theorem minOut_of_mem_schedule : a.minOut = r.minOut ∨ a.minOut = 0 := by
  obtain ⟨actions, ends, -, -, hwalk, rfl⟩ := schedule_eq_ok hschedule
  obtain ⟨run, hrun, rfl⟩ := List.mem_map.1 ha
  rw [Action.Run.minOut_action]
  apply minOut_eq_or hwalk
  exact (Action.arranged_perm ends actions).mem_iff.1 (Action.mem_of_mem_runs hrun run.last_mem)

end Scheduled

/-- Of the two things that may be due to the route's own amounts neither is, as long as both amounts
fit signed words: what is written with a tag is the literal amount of a hop. -/
theorem exists_hop_of_writes {ordered : List Action} (hschedule : r.schedule = .ok ordered)
    {a : Action} (ha : a ∈ ordered) (hswap : r.swapAmount ≤ maxInt256) (hmin : r.minOut ≤ maxInt256)
    {n : Int} (h : a.Writes (r.context config deadline) n) (htag : Reference.isReference n = true) :
    ∃ hop ∈ a.hops, hop.amount = .literal n := by
  have hlarge := Reference.lt_of_isReference htag
  have hmax : 0 ≤ maxInt256 := by decide
  cases h with
  | @amount hop _ hmem hliteral => exact ⟨hop, hmem, hliteral⟩
  | least =>
      rcases minOut_of_mem_schedule hschedule ha with h | h <;> omega
  | most =>
      have hsame : (r.context config deadline).swapAmount = r.swapAmount := rfl
      omega

theorem not_exceedsLimits {ordered : List Action} (hschedule : r.schedule = .ok ordered)
    {a : Action} (ha : a ∈ ordered) (hswap : r.swapAmount ≤ maxInt256)
    (hmin : r.minOut ≤ maxInt256) : ¬ a.ExceedsLimits (r.context config deadline) := by
  intro h
  have hmax : 0 ≤ maxInt256 := by decide
  have hsame : (r.context config deadline).swapAmount = r.swapAmount := rfl
  rcases h.exceeds with ⟨-, hover⟩ | ⟨-, hunder, -⟩
  · omega
  · rcases minOut_of_mem_schedule hschedule ha with h | h <;> omega

/-- The parts of the route passed their checks, its amounts are in range, those at its ends fit
signed words too, and its lists are of a size that can be written. -/
structure Checked (r : Route) (infos : List PoolInfo) : Prop where
  pools : ∀ info ∈ infos, info.Validated ∧ info.tokens.length < Nat.pow 2 64
  registry : Registry.ofInfos infos = .ok r.registry
  assets : ∀ t ∈ r.assets, Form.address.holds t = true
  assetCount : r.assets.length < Nat.pow 2 64
  hops : ∀ hop ∈ r.hops, Form.poolId.holds hop.poolId = true ∧
    ∃ n, hop.amount = .literal n ∧ 0 ≤ n ∧ n < Nat.pow 2 256
  hopCount : r.hops.length < Nat.pow 2 64
  user : Form.address.holds r.user = true
  swapAmount : 0 ≤ r.swapAmount ∧ r.swapAmount < Nat.pow 2 255
  minOut : 0 ≤ r.minOut ∧ r.minOut < Nat.pow 2 255

theorem Checked.formed {infos : List PoolInfo} (h : r.Checked infos) : r.Formed := by
  obtain ⟨registry, hregistry, hpools⟩ := Registry.exists_ofInfos fun info hinfo =>
    ⟨(h.pools info hinfo).1.formed, (h.pools info hinfo).2⟩
  have hsame : r.registry = registry := Except.ok.inj (h.registry.symm.trans hregistry)
  have hwords : (Nat.pow 2 255 : Int) ≤ Nat.pow 2 256 := by decide
  exact {
    assets := h.assets
    count := h.assetCount
    hops := h.hops
    hopCount := h.hopCount
    user := h.user
    pools := hsame ▸ hpools
    swapAmount := ⟨h.swapAmount.1, Int.lt_of_lt_of_le h.swapAmount.2 hwords⟩
    minOut := ⟨h.minOut.1, Int.lt_of_lt_of_le h.minOut.2 hwords⟩ }

/-- Every action that a route of checked parts schedules becomes calls, unless it asks a pool for a
token that the pool does not hold, or one of its hops has a literal amount with a tag. -/
theorem calls_of_checked {infos : List PoolInfo} (h : r.Checked infos)
    (hrelayer : Form.address.holds config.relayer = true)
    (hwrapped : Form.address.holds config.wrappedNative = true)
    (hdeadline : 0 ≤ deadline ∧ deadline < Nat.pow 2 256) {ordered : List Action}
    (hschedule : r.schedule = .ok ordered) :
    ∀ a ∈ ordered,
      (∃ calls, a.calls (r.context config deadline) = .ok calls) ∨
      (∃ pool token, r.registry.get a.firstHop.poolId = .ok pool ∧
        ((a.kind = .deposit ∧
            assetAt (r.context config deadline).assets a.firstHop.assetIn = .ok token) ∨
          (a.kind = .withdrawal ∧
            assetAt (r.context config deadline).assets a.firstHop.assetOut = .ok token)) ∧
        pool.hasToken token = false ∧
        a.calls (r.context config deadline) = .error (.route (.unknownToken token))) ∨
      (∃ hop ∈ a.hops, ∃ n, hop.amount = .literal n ∧ Reference.isReference n = true ∧
        a.calls (r.context config deadline) = .error (.route (.amountTagged n))) := by
  intro a ha
  have hswap : r.swapAmount ≤ maxInt256 := Int.le_sub_one_of_lt h.swapAmount.2
  have hmin : r.minOut ≤ maxInt256 := Int.le_sub_one_of_lt h.minOut.2
  have hctx := h.formed.context hrelayer hwrapped hdeadline
  have hends := Action.endsIn_calls hctx (h.formed.ready_of_mem hschedule ha)
  cases hcalls : a.calls (r.context config deadline) with
  | ok calls => exact .inl ⟨calls, rfl⟩
  | error e =>
      rw [hcalls] at hends
      cases hends with
      | unknownToken known moved missing => exact .inr (.inl ⟨_, _, known, moved, missing, rfl⟩)
      | tagged written htag =>
          obtain ⟨hop, hmem, hliteral⟩ :=
            exists_hop_of_writes hschedule ha hswap hmin written htag
          exact .inr (.inr ⟨hop, hmem, _, hliteral, htag, rfl⟩)
      | limit hexceeds => exact absurd hexceeds (not_exceedsLimits hschedule ha hswap hmin)

/-- The pools of a route from a token by way of shares to another one. The pool of the shares does
not hold the first token. -/
def foreignJoinPools : List PoolInfo :=
  let address (digit : Char) : Text := '0' :: 'x' :: List.replicate 40 digit
  [⟨'0' :: 'x' :: List.replicate 64 'c', none, [address '8', address '9']⟩,
    ⟨'0' :: 'x' :: List.replicate 64 'd', some (address 'e'), [address 'c', address '2']⟩]

def foreignJoin : Route :=
  let address (digit : Char) : Text := '0' :: 'x' :: List.replicate 40 digit
  { hops := [⟨'0' :: 'x' :: List.replicate 64 'c', 0, 1, .literal 1000, []⟩,
      ⟨'0' :: 'x' :: List.replicate 64 'd', 1, 2, .literal 0, []⟩]
    assets := [address '1', address 'c', address '2']
    tokenIn := address '1'
    tokenOut := address '2'
    swapAmount := 1000
    minOut := 990
    user := address '7'
    registry := ⟨[
      ⟨'0' :: 'x' :: List.replicate 64 'c', address 'c', [address '8', address '9']⟩,
      ⟨'0' :: 'x' :: List.replicate 64 'd', address 'e', [address 'c', address '2']⟩]⟩ }

theorem checked_foreignJoin : foreignJoin.Checked foreignJoinPools where
  pools := by
    intro info hinfo
    have hinfos : ∀ info ∈ foreignJoinPools, info.Formed ∧ info.tokens ≠ [] ∧
        info.tokens.length < Nat.pow 2 64 := by decide
    obtain ⟨hformed, hne, hcount⟩ := hinfos info hinfo
    exact ⟨⟨info.toJson, PoolInfo.check_toJson hformed hne⟩, hcount⟩
  registry := by
    have hmade : (Registry.ofInfos foreignJoinPools).toOption.any
        (fun registry => decide (registry = foreignJoin.registry)) = true := by decide +kernel
    obtain ⟨registry, hok, hsame⟩ := Except.exists_of_any _ hmade
    rw [hok, of_decide_eq_true hsame]
  assets := by decide
  assetCount := by decide
  hops := by
    intro hop hhop
    have hhops : ∀ hop ∈ foreignJoin.hops, Form.poolId.holds hop.poolId = true ∧
        (hop.amount = .literal 1000 ∨ hop.amount = .literal 0) := by decide
    obtain ⟨hid, hamount | hamount⟩ := hhops hop hhop
    · exact ⟨hid, 1000, hamount, by decide⟩
    · exact ⟨hid, 0, hamount, by decide⟩
  hopCount := by decide
  user := by decide
  swapAmount := by decide
  minOut := by decide

/-- The join of the first hop fails, as the pool does not hold what is paid in, and the batch after
it has its calls. -/
theorem calls_of_checked_foreignJoin :
    ∃ ordered, foreignJoin.Checked foreignJoinPools ∧
      Form.address.holds Config.standard.relayer = true ∧
      Form.address.holds Config.standard.wrappedNative = true ∧
      (0 ≤ (1700000000 : Int) ∧ (1700000000 : Int) < Nat.pow 2 256) ∧
      foreignJoin.schedule = .ok ordered ∧
      ordered.map (fun a => (a.calls (foreignJoin.context .standard 1700000000)).isOk) =
        [false, true] ∧ ∀ a ∈ ordered,
        (∃ calls, a.calls (foreignJoin.context .standard 1700000000) = .ok calls) ∨
        (∃ pool token, foreignJoin.registry.get a.firstHop.poolId = .ok pool ∧
          ((a.kind = .deposit ∧ assetAt (foreignJoin.context .standard 1700000000).assets
              a.firstHop.assetIn = .ok token) ∨
            (a.kind = .withdrawal ∧ assetAt (foreignJoin.context .standard 1700000000).assets
              a.firstHop.assetOut = .ok token)) ∧
          pool.hasToken token = false ∧ a.calls (foreignJoin.context .standard 1700000000) =
            .error (.route (.unknownToken token))) ∨
        (∃ hop ∈ a.hops, ∃ n, hop.amount = .literal n ∧ Reference.isReference n = true ∧
          a.calls (foreignJoin.context .standard 1700000000) =
            .error (.route (.amountTagged n))) := by
  have houtcome : foreignJoin.schedule.toOption.any (fun ordered =>
      ordered.map (fun a => (a.calls (foreignJoin.context .standard 1700000000)).isOk) ==
        [false, true]) = true := by decide +kernel
  obtain ⟨ordered, h, houtcome⟩ := Except.exists_of_any _ houtcome
  have hrelayer : Form.address.holds Config.standard.relayer = true := by decide
  have hwrapped : Form.address.holds Config.standard.wrappedNative = true := by decide
  have hdeadline : 0 ≤ (1700000000 : Int) ∧ (1700000000 : Int) < Nat.pow 2 256 := by decide
  exact ⟨ordered, checked_foreignJoin, hrelayer, hwrapped, hdeadline, h, beq_iff_eq.1 houtcome,
    calls_of_checked checked_foreignJoin hrelayer hwrapped hdeadline h⟩

end Route

end SwapRelay
