import SwapRelay.Proofs.Action.Walk
import SwapRelay.Proofs.Pool.Registry
import SwapRelay.Proofs.Relayer.Bounds
import SwapRelay.Proofs.Relayer.Writable

/-!
# What can keep an action from becoming calls

Of all the steps by which an action is turned into calls only a few can fail, once the stages before
have done their work. `Action.Ready` is what those stages make sure of, `Action.Fault` lists what is
left: a token that the pool does not hold, a literal amount that carries a tag, and a batch with a
limit that no signed word holds. `Action.endsIn_calls` says that there is nothing else. Each planner
is followed step by step, with what is known of the values so far; where a step may fail, its error
is a fault. For a limit the converse holds too, by `Action.ExceedsLimits.not_ok`.
-/

namespace SwapRelay

open Abi (Value)

/-- The texts and numbers that all calls share have their forms and fit their words. -/
structure Context.Formed (ctx : Context) : Prop where
  assets : ∀ t ∈ ctx.assets, Form.address.holds t = true
  count : ctx.assets.length < Nat.pow 2 64
  user : Form.address.holds ctx.user = true
  relayer : Form.address.holds ctx.config.relayer = true
  wrappedNative : Form.address.holds ctx.config.wrappedNative = true
  pools : ∀ pool ∈ ctx.registry.pools, pool.Formed
  swapAmount : Uint256.Fits ctx.swapAmount
  deadline : Uint256.Fits ctx.deadline

theorem Context.Formed.owner {ctx : Context} (h : ctx.Formed) (internal : Bool) :
    Form.address.holds (ctx.owner internal) = true := by
  cases internal with
  | true => exact h.relayer
  | false => exact h.user

structure Hop.Ready (hop : Hop) (ctx : Context) : Prop where
  poolId : Form.poolId.holds hop.poolId = true
  known : ∃ pool, ctx.registry.get hop.poolId = .ok pool
  assetIn : hop.assetIn < ctx.assets.length
  assetOut : hop.assetOut < ctx.assets.length
  amount : hop.amount.Fits

namespace Action

/-- The action starts from the route's input. -/
def FromInput (a : Action) (ctx : Context) : Prop :=
  ∃ token, assetAt ctx.assets a.firstHop.assetIn = .ok token ∧
    Address.same token ctx.tokenIn = true

/-- The output of the batch goes to the user. -/
def PaysUser (a : Action) (ctx : Context) : Prop :=
  ∃ token, assetAt ctx.assets a.lastHop.assetOut = .ok token ∧
    (Address.same token ctx.tokenOut || ctx.registry.isShareToken token) = true

/-- What the stages before the encoding make sure of. -/
structure Ready (a : Action) (ctx : Context) : Prop where
  scheduled : a.kind ≠ .exchange
  hops : ∀ hop ∈ a.hops, hop.Ready ctx
  outputs : ∀ output ∈ a.outputs, output.index < ctx.assets.length ∧ output.key.Fits
  minOut : Uint256.Fits a.minOut
  funded : ∀ n, a.firstHop.amount = .literal n → a.FromInput ctx

/-- A number that is written as it is into the calls of the action. -/
inductive Writes (a : Action) (ctx : Context) : Int → Prop
  | amount {hop : Hop} {n : Int} (hmem : hop ∈ a.hops) (h : hop.amount = .literal n) :
      Writes a ctx n
  | least (h : a.kind = .batchedExchange → a.PaysUser ctx) : Writes a ctx a.minOut
  | most (hkind : a.kind = .batchedExchange) (h : a.FromInput ctx) : Writes a ctx ctx.swapAmount

/-- A limit of the batch does not fit a signed word: what it may spend, or, unless both are limits
on one asset, what it has to pay to the user. -/
structure ExceedsLimits (a : Action) (ctx : Context) : Prop where
  batched : a.kind = .batchedExchange
  untagged : ∀ n, a.Writes ctx n → Reference.isReference n = false
  exceeds : (a.FromInput ctx ∧ maxInt256 < ctx.swapAmount) ∨
    (a.PaysUser ctx ∧ maxInt256 + 1 < a.minOut ∧ a.firstHop.assetIn ≠ a.lastHop.assetOut)

/-- An error that keeps an action from becoming calls, and what it is due to. -/
inductive Fault (a : Action) (ctx : Context) : Error → Prop
  | unknownToken {pool : Pool} {token : Text}
      (known : ctx.registry.get a.firstHop.poolId = .ok pool)
      (moved : (a.kind = .deposit ∧ assetAt ctx.assets a.firstHop.assetIn = .ok token) ∨
        (a.kind = .withdrawal ∧ assetAt ctx.assets a.firstHop.assetOut = .ok token))
      (missing : pool.hasToken token = false) : Fault a ctx (.route (.unknownToken token))
  | tagged {n : Int} (written : a.Writes ctx n) (tagged : Reference.isReference n = true) :
      Fault a ctx (.route (.amountTagged n))
  | limit (h : a.ExceedsLimits ctx) : Fault a ctx (.abi .outOfBounds)

variable {a : Action} {ctx : Context}

theorem firstHop_mem (a : Action) : a.firstHop ∈ a.hops :=
  List.head_mem a.hops_ne_nil

theorem lastHop_mem (a : Action) : a.lastHop ∈ a.hops :=
  List.getLast_mem a.hops_ne_nil

theorem exists_assetAt {assets : List Text} {i : Nat} (h : i < assets.length) :
    ∃ token ∈ assets, assetAt assets i = .ok token :=
  ⟨assets[i], List.getElem_mem h, assetAt_of_lt h⟩

theorem exists_pool (hctx : ctx.Formed) {hop : Hop} (hhop : hop.Ready ctx) :
    ∃ pool, ctx.registry.get hop.poolId = .ok pool ∧ pool.Formed := by
  obtain ⟨pool, hpool⟩ := hhop.known
  exact ⟨pool, hpool, hctx.pools pool (Registry.mem_of_get hpool)⟩

namespace Ready

variable (ha : a.Ready ctx)

include ha

theorem endsIn_resolve {hop : Hop} (hhop : hop ∈ a.hops) :
    hop.amount.resolve.EndsIn Uint256.Fits (a.Fault ctx) := by
  refine (Amount.endsIn_resolve (ha.hops hop hhop).amount).mono_error ?_
  rintro e ⟨n, hliteral, htag, rfl⟩
  exact .tagged (.amount hhop hliteral) htag

theorem endsIn_resolvedMinOut (h : a.kind = .batchedExchange → a.PaysUser ctx) :
    a.resolvedMinOut.EndsIn Uint256.Fits (a.Fault ctx) := by
  have hfits : (Amount.literal a.minOut).Fits := ha.minOut
  refine (Amount.endsIn_resolve hfits).mono_error ?_
  rintro e ⟨n, hliteral, htag, rfl⟩
  cases hliteral
  exact .tagged (.least h) htag

/-- The reference under which a deposit stores its shares has a value. -/
theorem exists_joinOutput : ∃ v, joinOutput a.outputs = .ok v ∧ Uint256.Fits v := by
  cases houtputs : a.outputs with
  | nil => exact ⟨0, rfl, Uint256.fits_zero⟩
  | cons output rest =>
      have hmem : output ∈ a.outputs := by
        rw [houtputs]
        exact List.mem_cons_self ..
      exact Reference.exists_value (ha.outputs output hmem).2

/-- The references of the outputs have their values. -/
theorem exists_outputs (place : OutputReference → Int) :
    ∃ pairs, (a.outputs.mapM fun output => output.key.value.map (place output, ·)) = .ok pairs ∧
      List.Forall₂ (fun output pair => pair.1 = place output ∧ Uint256.Fits pair.2)
        a.outputs pairs := by
  apply Except.EndsIn.exists_ok
  apply List.endsIn_mapM
  intro output houtput
  obtain ⟨v, hv, hfits⟩ := Reference.exists_value (ha.outputs output houtput).2
  exact .of_eq_ok (Except.map_eq_ok.2 ⟨v, hv, rfl⟩) ⟨rfl, hfits⟩

end Ready

theorem holds_of_perm {pool : Pool} {tokens : List Text} (hformed : pool.Formed)
    (hperm : tokens.Perm (pool.tokens.map Address.normalize)) :
    ∀ t ∈ tokens, Form.address.holds t = true :=
  fun t ht => Form.holds_map_normalize hformed.tokens t (hperm.mem_iff.1 ht)

/-- Of the tokens of a pool, put in order, one has its place, or the pool does not hold it. -/
theorem endsIn_placeOf {pool : Pool} {token : Text} {tokens : List Text}
    (hpool : ctx.registry.get a.firstHop.poolId = .ok pool) (hformed : pool.Formed)
    (hperm : tokens.Perm (pool.tokens.map Address.normalize))
    (hmoved : (a.kind = .deposit ∧ assetAt ctx.assets a.firstHop.assetIn = .ok token) ∨
      (a.kind = .withdrawal ∧ assetAt ctx.assets a.firstHop.assetOut = .ok token)) :
    (placeOf tokens token).EndsIn (· < tokens.length) (a.Fault ctx) := by
  refine (SwapRelay.endsIn_placeOf tokens token).mono_error ?_
  rintro e ⟨rfl, hnone⟩
  refine .unknownToken hpool hmoved ?_
  rw [Pool.hasToken, List.any_eq_false]
  intro t ht
  have hmem : Address.normalize t ∈ tokens := hperm.mem_iff.2 (List.mem_map_of_mem ht)
  have hother := hnone _ hmem
  rw [Address.same, Form.lower_normalize (hformed.tokens t ht)] at hother
  rw [Bool.not_eq_true]
  exact hother

theorem fits_place {pool : Pool} {tokens : List Text} {place : Nat} (hformed : pool.Formed)
    (hperm : tokens.Perm (pool.tokens.map Address.normalize)) (hplace : place < tokens.length) :
    Uint256.Fits place := by
  have hcount : tokens.length < Nat.pow 2 64 := by
    rw [hperm.length_eq, List.length_map]
    exact hformed.count
  exact Uint256.fits_natCast (Nat.lt_trans hplace hcount)

/-! ## Deposits and withdrawals -/

theorem endsIn_joinCall (hctx : ctx.Formed) (ha : a.Ready ctx) (hkind : a.kind = .deposit) :
    (a.joinCall ctx).EndsIn (fun _ => True) (a.Fault ctx) := by
  have hhop := ha.hops a.firstHop a.firstHop_mem
  obtain ⟨pool, hpool, hformed⟩ := exists_pool hctx hhop
  obtain ⟨tokens, htokens, hperm⟩ := Pool.exists_sortTokens hctx.wrappedNative hformed.tokens
  obtain ⟨token, -, htoken⟩ := exists_assetAt hhop.assetIn
  refine .after hpool (.after htokens (.after htoken ?_))
  refine (endsIn_placeOf hpool hformed hperm (.inl ⟨hkind, htoken⟩)).bind fun place _ hplace => ?_
  refine (ha.endsIn_resolve a.firstHop_mem).bind fun amount _ hamount => ?_
  have hleast : a.kind = .batchedExchange → a.PaysUser ctx := by
    rw [hkind]
    intro h
    cases h
  refine (ha.endsIn_resolvedMinOut hleast).bind fun minOut _ hmin => ?_
  have hfits : Uint256.Fits place := fits_place hformed hperm hplace
  obtain ⟨hamounts, hscalars⟩ :=
    fits_joinAmounts ctx.swapType tokens.length hamount hmin hfits
  obtain ⟨userData, hdata⟩ := PoolUserData.exists_encode hscalars
  obtain ⟨output, houtput, hstored⟩ := ha.exists_joinOutput
  refine .after hdata (.after houtput ?_)
  obtain ⟨poolId, hid, hidLength, -⟩ := Pool.exists_idBytes hformed.id
  obtain ⟨sender, hsender, hsenderLength, -⟩ :=
    Address.exists_bytes (hctx.owner (!Address.same token ctx.tokenIn))
  obtain ⟨recipient, hrecipient, hrecipientLength, -⟩ :=
    Address.exists_bytes (hctx.owner (!Address.same pool.address ctx.tokenOut))
  obtain ⟨assets, hassets, hassetLengths⟩ := exists_allBytes (holds_of_perm hformed hperm)
  refine .of_eq_ok (Call.prepare_of_fits (Except.map_eq_ok.2
    ⟨_, PoolJoin.read_eq_ok hid hsender hrecipient hassets, rfl⟩) ?_) trivial
  exact Call.fits_joinPool hidLength rfl hsenderLength hrecipientLength hassetLengths hamounts rfl
    hstored

theorem endsIn_exitCall (hctx : ctx.Formed) (ha : a.Ready ctx) (hkind : a.kind = .withdrawal) :
    (a.exitCall ctx).EndsIn (fun _ => True) (a.Fault ctx) := by
  have hhop := ha.hops a.firstHop a.firstHop_mem
  obtain ⟨pool, hpool, hformed⟩ := exists_pool hctx hhop
  obtain ⟨tokens, htokens, hperm⟩ := Pool.exists_sortTokens hctx.wrappedNative hformed.tokens
  obtain ⟨token, -, htoken⟩ := exists_assetAt hhop.assetOut
  refine .after hpool (.after htokens (.after htoken ?_))
  refine (endsIn_placeOf hpool hformed hperm (.inr ⟨hkind, htoken⟩)).bind fun place _ hplace => ?_
  refine (ha.endsIn_resolve a.firstHop_mem).bind fun amount _ hamount => ?_
  have hleast : a.kind = .batchedExchange → a.PaysUser ctx := by
    rw [hkind]
    intro h
    cases h
  refine (ha.endsIn_resolvedMinOut hleast).bind fun minOut _ hmin => ?_
  have hfits : Uint256.Fits place := fits_place hformed hperm hplace
  obtain ⟨hamounts, hscalars⟩ :=
    fits_exitAmounts ctx.swapType tokens.length hamount hmin hfits
  obtain ⟨userData, hdata⟩ := PoolUserData.exists_encode hscalars
  obtain ⟨outputs, houtputs, hstored⟩ := ha.exists_outputs fun _ => place
  refine .after hdata (.after houtputs ?_)
  have hpairs : ∀ pair ∈ outputs, Uint256.Fits pair.1 ∧ Uint256.Fits pair.2 := by
    intro pair hpair
    obtain ⟨output, -, hindex, hkey⟩ := hstored.flip.exists_of_mem hpair
    rw [hindex]
    exact ⟨hfits, hkey⟩
  obtain ⟨poolId, hid, hidLength, -⟩ := Pool.exists_idBytes hformed.id
  obtain ⟨sender, hsender, hsenderLength, -⟩ := Address.exists_bytes hctx.user
  obtain ⟨recipient, hrecipient, hrecipientLength, -⟩ :=
    Address.exists_bytes (hctx.owner (!Address.same token ctx.tokenOut))
  obtain ⟨assets, hassets, hassetLengths⟩ := exists_allBytes (holds_of_perm hformed hperm)
  refine .of_eq_ok (Call.prepare_of_fits (Except.map_eq_ok.2
    ⟨_, PoolExit.read_eq_ok hid hsender hrecipient hassets, rfl⟩) ?_) trivial
  exact Call.fits_exitPool hidLength rfl hsenderLength hrecipientLength hassetLengths hamounts
    hpairs

/-! ## Batches -/

theorem paysUser_iff {tokenOut : Text}
    (htoken : assetAt ctx.assets a.lastHop.assetOut = .ok tokenOut) (tokenIn : Text) :
    a.PaysUser ctx ↔ (ctx.batchFunds tokenIn tokenOut).toInternal = false := by
  have hfunds : (ctx.batchFunds tokenIn tokenOut).toInternal =
      !(Address.same tokenOut ctx.tokenOut || ctx.registry.isShareToken tokenOut) := rfl
  rw [hfunds, Bool.not_eq_false']
  constructor
  · rintro ⟨token, htoken', hpaid⟩
    cases htoken.symm.trans htoken'
    exact hpaid
  · intro hpaid
    exact ⟨tokenOut, htoken, hpaid⟩

/-- What a batch has to yield, as it stands among the limits. -/
theorem endsIn_outputLimit (ha : a.Ready ctx) {tokenIn tokenOut : Text}
    (htoken : assetAt ctx.assets a.lastHop.assetOut = .ok tokenOut) :
    (a.outputLimit (ctx.batchFunds tokenIn tokenOut).toInternal).EndsIn
      (fun least => (¬ a.PaysUser ctx ∧ least = 0) ∨
        (a.PaysUser ctx ∧ least = -a.minOut ∧ Reference.isReference a.minOut = false))
      (a.Fault ctx) := by
  have hiff := paysUser_iff htoken tokenIn
  cases hinternal : (ctx.batchFunds tokenIn tokenOut).toInternal with
  | true =>
      rw [hinternal] at hiff
      exact .inl ⟨fun hpaid => Bool.noConfusion (hiff.1 hpaid), rfl⟩
  | false =>
      have hpaid := hiff.2 hinternal
      refine (ha.endsIn_resolvedMinOut fun _ => hpaid).map ?_
      intro least hleast _
      obtain ⟨rfl, -, hfree⟩ := Amount.resolve_literal_eq_ok.1 hleast
      exact .inr ⟨hpaid, rfl, hfree⟩

/-- A batch whose input is not the route's reads its amount, and so may be allowed it. -/
theorem exists_approvalCalls (ha : a.Ready ctx) {tokenIn : Text}
    (hform : Form.address.holds tokenIn = true) (hinput : ¬ a.FromInput ctx) :
    ∃ calls, a.approvalCalls ctx tokenIn = .ok calls := by
  simp only [approvalCalls]
  by_cases hneeds : (ctx.config.approveShareTokens && ctx.registry.isShareToken tokenIn) = true
  · rw [if_pos hneeds]
    cases hamount : a.firstHop.amount with
    | literal n => exact absurd (ha.funded n hamount) hinput
    | chained r =>
        have hfits := (ha.hops a.firstHop a.firstHop_mem).amount
        rw [hamount] at hfits
        obtain ⟨v, hv, hvalue⟩ := Reference.exists_value (Reference.Fits.readOnly hfits)
        obtain ⟨account, -, hcall⟩ := Call.exists_approveVault hform hvalue
        exact ⟨_, Except.bind_eq_ok.2 ⟨v, hv, Except.bind_eq_ok.2 ⟨_, hcall, rfl⟩⟩⟩
  · rw [if_neg hneeds]
    exact ⟨[], rfl⟩

/-- What a batch may spend: what the route does, if it starts from the route's input. -/
theorem endsIn_inputLimit (hctx : ctx.Formed) (ha : a.Ready ctx) (hkind : a.kind = .batchedExchange)
    {tokenIn : Text} (htoken : assetAt ctx.assets a.firstHop.assetIn = .ok tokenIn)
    (hform : Form.address.holds tokenIn = true) :
    (a.inputLimit ctx tokenIn).EndsIn
      (fun limit => (¬ a.FromInput ctx ∧ limit.2 = maxInt256) ∨
        (a.FromInput ctx ∧ limit.2 = ctx.swapAmount ∧
          Reference.isReference ctx.swapAmount = false)) (a.Fault ctx) := by
  simp only [inputLimit]
  by_cases hsame : Address.same tokenIn ctx.tokenIn = true
  · rw [if_pos hsame]
    have hinput : a.FromInput ctx := ⟨tokenIn, htoken, hsame⟩
    have hfits : (Amount.literal ctx.swapAmount).Fits := hctx.swapAmount
    have hresolve : (Amount.literal ctx.swapAmount).resolve.EndsIn Uint256.Fits (a.Fault ctx) := by
      refine (Amount.endsIn_resolve hfits).mono_error ?_
      rintro e ⟨n, hliteral, htag, rfl⟩
      cases hliteral
      exact .tagged (.most hkind hinput) htag
    refine hresolve.map ?_
    intro most hmost _
    obtain ⟨rfl, -, hfree⟩ := Amount.resolve_literal_eq_ok.1 hmost
    exact .inr ⟨hinput, rfl, hfree⟩
  · rw [if_neg hsame]
    have hinput : ¬ a.FromInput ctx := by
      rintro ⟨token, htoken', hsame'⟩
      cases htoken.symm.trans htoken'
      exact hsame hsame'
    obtain ⟨calls, hcalls⟩ := exists_approvalCalls ha hform hinput
    exact .of_eq_ok (Except.map_eq_ok.2 ⟨calls, hcalls, rfl⟩) (.inl ⟨hinput, rfl⟩)

/-- Each step of a batch has its amount. -/
theorem endsIn_steps (ha : a.Ready ctx) :
    (a.hops.mapM batchStep).EndsIn
      (List.Forall₂ (fun hop step => hop ∈ a.hops ∧ step.poolId = hop.poolId ∧
        step.assetIn = hop.assetIn ∧ step.assetOut = hop.assetOut ∧ Uint256.Fits step.amount ∧
        hop.amount.resolve = .ok step.amount) a.hops)
      (a.Fault ctx) := by
  apply List.endsIn_mapM
  intro hop hhop
  refine (ha.endsIn_resolve hhop).bind fun amount hamount hfits => ?_
  exact ⟨hhop, rfl, rfl, rfl, hfits, hamount⟩

/-- Of the limits of a batch, only those of its own input and output can be out of range. -/
theorem exceeds_of_limits {length input output : Nat} {least most : Int}
    (h : ¬ ∀ n ∈ (amountAt length output least).set input most,
      -(Nat.pow 2 255 : Int) ≤ n ∧ n < Nat.pow 2 255) (hmost : 0 ≤ most) (hleast : least ≤ 0) :
    maxInt256 < most ∨ (least < -(maxInt256 + 1) ∧ input ≠ output) := by
  have hmax : maxInt256 = Nat.pow 2 255 - 1 := rfl
  have hspan : (0 : Int) < (Nat.pow 2 255 : Nat) := by decide
  by_contra hwithin
  rw [not_or, not_and_or] at hwithin
  apply h
  intro n hn
  obtain ⟨i, hi, rfl⟩ := List.mem_iff_getElem.1 hn
  have hlength : i < length := by
    rwa [List.length_set, length_amountAt] at hi
  have hentry : ((amountAt length output least).set input most)[i]? =
      some (if input = i then most else if output = i then least else 0) :=
    getElem?_limits hlength least most
  rw [List.getElem?_eq_getElem hi, Option.some.injEq] at hentry
  rw [hentry]
  split
  · omega
  · split
    · omega
    · omega

theorem endsIn_swapCalls (hctx : ctx.Formed) (ha : a.Ready ctx)
    (hkind : a.kind = .batchedExchange) :
    (a.swapCalls ctx).EndsIn (fun _ => True) (a.Fault ctx) := by
  have hfirst := ha.hops a.firstHop a.firstHop_mem
  have hlast := ha.hops a.lastHop a.lastHop_mem
  obtain ⟨tokenIn, hmemIn, htokenIn⟩ := exists_assetAt hfirst.assetIn
  obtain ⟨tokenOut, -, htokenOut⟩ := exists_assetAt hlast.assetOut
  refine .after htokenIn (.after htokenOut ?_)
  refine (endsIn_outputLimit ha htokenOut).bind fun least _ hleast => ?_
  refine (endsIn_inputLimit hctx ha hkind htokenIn (hctx.assets tokenIn hmemIn)).bind
    fun limit _ hmost => ?_
  obtain ⟨before, most⟩ := limit
  refine (endsIn_steps ha).bind fun steps _ hsteps => ?_
  obtain ⟨outputs, houtputs, hstored⟩ := ha.exists_outputs fun output => output.index
  refine .after houtputs ?_
  have hplanned : ∀ step ∈ steps, Form.poolId.holds step.poolId = true ∧
      Uint256.Fits step.assetIn ∧ Uint256.Fits step.assetOut ∧ Uint256.Fits step.amount := by
    intro step hstep
    obtain ⟨hop, -, hhop, hid, hin, hout, hamount, -⟩ := hsteps.flip.exists_of_mem hstep
    have hready := ha.hops hop hhop
    rw [hid, hin, hout]
    exact ⟨hready.poolId, Uint256.fits_natCast (Nat.lt_trans hready.assetIn hctx.count),
      Uint256.fits_natCast (Nat.lt_trans hready.assetOut hctx.count), hamount⟩
  have hpairs : ∀ pair ∈ outputs, Uint256.Fits pair.1 ∧ Uint256.Fits pair.2 := by
    intro pair hpair
    obtain ⟨output, houtput, hindex, hkey⟩ := hstored.flip.exists_of_mem hpair
    rw [hindex]
    exact ⟨Uint256.fits_natCast (Nat.lt_trans (ha.outputs output houtput).1 hctx.count), hkey⟩
  obtain ⟨read, hread, hfits⟩ := Call.exists_readSteps hplanned
  obtain ⟨assets, hassets, hlengths⟩ := exists_allBytes hctx.assets
  obtain ⟨sender, hsender, hsenderLength, -⟩ :=
    Address.exists_bytes (hctx.owner (!Address.same tokenIn ctx.tokenIn))
  obtain ⟨recipient, hrecipient, hrecipientLength, -⟩ :=
    Address.exists_bytes (hctx.owner (ctx.batchFunds tokenIn tokenOut).toInternal)
  have hkindFits : 0 ≤ ctx.swapType.code ∧ ctx.swapType.code < Nat.pow 2 8 := by
    cases ctx.swapType <;> decide
  refine .bind (P := fun _ => True) (.mono (Call.endsIn_prepare_batchSwap
    (BatchSwap.read_eq_ok hread hassets hsender hrecipient) hkindFits hfits hlengths hsenderLength
    hrecipientLength hctx.deadline rfl hpairs) (fun _ h => h) ?_) fun _ _ _ => trivial
  -- All arguments but the limits are in range, and of those only the two that were set may not be.
  rintro e ⟨rfl, hlimits⟩
  have hswap := hctx.swapAmount.1
  have hmin := ha.minOut.1
  have hmax : 0 ≤ maxInt256 := by decide
  have hexceeds := exceeds_of_limits hlimits
    (by rcases hmost with ⟨-, h⟩ | ⟨-, h, -⟩ <;> omega)
    (by rcases hleast with ⟨-, h⟩ | ⟨-, h, -⟩ <;> omega)
  refine .limit ⟨hkind, ?_, ?_⟩
  · intro n hn
    cases hn with
    | amount hhop hliteral =>
        obtain ⟨step, -, -, -, -, -, -, hresolved⟩ := hsteps.exists_of_mem hhop
        rw [hliteral] at hresolved
        exact (Amount.resolve_literal_eq_ok.1 hresolved).2.2
    | least hpays =>
        rcases hleast with ⟨hnot, -⟩ | ⟨-, -, hfree⟩
        · exact absurd (hpays hkind) hnot
        · exact hfree
    | most _ hinput =>
        rcases hmost with ⟨hnot, -⟩ | ⟨-, -, hfree⟩
        · exact absurd hinput hnot
        · exact hfree
  · rcases hexceeds with hover | ⟨hunder, hne⟩
    · left
      rcases hmost with ⟨-, h⟩ | ⟨hinput, h, -⟩
      · omega
      · exact ⟨hinput, h ▸ hover⟩
    · right
      rcases hleast with ⟨-, h⟩ | ⟨hpays, h, -⟩
      · omega
      · exact ⟨hpays, by omega, hne⟩

/-- An action that is ready becomes calls, or there is a fault that keeps it from it. -/
theorem endsIn_calls (hctx : ctx.Formed) (ha : a.Ready ctx) :
    (a.calls ctx).EndsIn (fun _ => True) (a.Fault ctx) := by
  rw [Action.calls]
  cases hkind : a.kind with
  | exchange => exact absurd hkind ha.scheduled
  | deposit => exact (endsIn_joinCall hctx ha hkind).map fun _ _ _ => trivial
  | withdrawal => exact (endsIn_exitCall hctx ha hkind).map fun _ _ _ => trivial
  | batchedExchange => exact endsIn_swapCalls hctx ha hkind

/-- A batch whose limits exceed the signed words has no calls. -/
theorem ExceedsLimits.not_ok (h : a.ExceedsLimits ctx) {calls : List (Call Bytes)} :
    a.calls ctx ≠ .ok calls := by
  intro hcalls
  obtain ⟨before, main, -, hmade⟩ := made_of_calls hcalls
  obtain ⟨b, rfl⟩ := hmade.exists_batch_iff.2 h.batched
  cases hmade with
  | swap hkind plan =>
  have hlimits := Call.limits_of_fits plan.fits
  have hin : a.firstHop.assetIn < ctx.assets.length := lt_of_assetAt plan.paidIn
  have hout : a.lastHop.assetOut < ctx.assets.length := lt_of_assetAt plan.paidOut
  have hmax : maxInt256 = Nat.pow 2 255 - 1 := rfl
  have hentry {i : Nat} (hi : i < ctx.assets.length) :
      (if a.firstHop.assetIn = i then plan.most else if a.lastHop.assetOut = i then plan.least
        else 0) ∈ b.limits := by
    rw [plan.limits_eq]
    exact List.mem_of_getElem? (getElem?_limits hi plan.least plan.most)
  rcases h.exceeds with ⟨⟨token, htoken, hsame⟩, hover⟩ | ⟨hpays, hunder, hne⟩
  · cases plan.paidIn.symm.trans htoken
    have hmost := plan.inputLimit
    simp only [inputLimit] at hmost
    rw [if_pos hsame] at hmost
    obtain ⟨n, hn, hpair⟩ := Except.map_eq_ok.1 hmost
    have hswap : ctx.swapAmount = n := (Amount.resolve_literal_eq_ok.1 hn).1
    have hlimit : n = plan.most := (Prod.mk.inj hpair).2
    have hrange := hlimits _ (hentry hin)
    rw [if_pos rfl] at hrange
    omega
  · have hleast := plan.outputLimit
    rw [(paysUser_iff plan.paidOut plan.tokenIn).1 hpays] at hleast
    obtain ⟨n, hn, hlimit⟩ := Except.map_eq_ok.1 hleast
    have hmin : a.minOut = n := (Amount.resolve_literal_eq_ok.1 hn).1
    have hrange := hlimits _ (hentry hout)
    rw [if_neg hne, if_pos rfl] at hrange
    omega

theorem ExceedsLimits.calls_eq (h : a.ExceedsLimits ctx) (hctx : ctx.Formed) (ha : a.Ready ctx) :
    a.calls ctx = .error (.abi .outOfBounds) := by
  have hends := endsIn_calls hctx ha
  cases hcalls : a.calls ctx with
  | ok calls => exact absurd hcalls h.not_ok
  | error e =>
      rw [hcalls] at hends
      cases hends with
      | unknownToken _ moved _ =>
          rcases moved with ⟨hkind, -⟩ | ⟨hkind, -⟩
          · cases h.batched.symm.trans hkind
          · cases h.batched.symm.trans hkind
      | tagged written htag => exact absurd htag (Bool.eq_false_iff.1 (h.untagged _ written))
      | limit _ => rfl

end Action

end SwapRelay
