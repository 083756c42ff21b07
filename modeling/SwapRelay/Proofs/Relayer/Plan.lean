import SwapRelay.Proofs.Reference.Tags
import SwapRelay.Relayer.Plan

/-!
# What a call was made from

A call that was made tells everything that went into it: the pool and the place of the token, the
number that stands for the amount, the funds, and the references of the outputs. The structures here
hold these parts together with what ties them to the call. `Made` gathers the three kinds of calls,
and `made_of_calls` finds the parts of whatever an action was turned into, so that nothing else has
to look into the steps by which a call is made.
-/

namespace SwapRelay

/-- Every argument of the call fits its form, so that its bytes are its value. -/
def Call.Fits (c : Call Bytes) : Prop :=
  Abi.Value.checkAll c.arguments = .ok ()

theorem Call.prepare_eq_ok {c : Call Text} {made : Call Bytes} (h : c.prepare = .ok made) :
    c.read = .ok made ∧ made.Fits := by
  obtain ⟨read, hread, h⟩ := Except.bind_eq_ok.1 h
  simp only [checked] at h
  split at h
  · next hcheck =>
      cases h
      exact ⟨hread, hcheck⟩
  · cases h

structure Hop.WrittenAs (hop : Hop) (step : BatchStep Bytes) : Prop where
  poolId : Hex.readBytes hop.poolId = .ok step.poolId
  assetIn : step.assetIn = hop.assetIn
  assetOut : step.assetOut = hop.assetOut
  amount : hop.amount.resolve = .ok step.amount
  userData : step.userData = hop.userData

namespace Action

variable {a : Action} {ctx : Context}

structure JoinPlan (a : Action) (ctx : Context) (p : PoolJoin Bytes) where
  pool : Pool
  tokens : List Text
  token : Text
  place : Nat
  amount : Int
  known : ctx.registry.get a.firstHop.poolId = .ok pool
  sorted : Pool.sortTokens ctx.config.wrappedNative pool.tokens = .ok tokens
  paid : assetAt ctx.assets a.firstHop.assetIn = .ok token
  placed : placeOf tokens token = .ok place
  resolved : a.firstHop.amount.resolve = .ok amount
  bounded : a.resolvedMinOut = .ok a.minOut
  amounts_eq : p.maxAmounts =
    (joinAmounts ctx.swapType tokens.length place amount a.minOut).1
  encoded : (joinAmounts ctx.swapType tokens.length place amount a.minOut).2.encode = .ok p.userData
  stored : joinOutput a.outputs = .ok p.output
  sender : Address.bytes (ctx.joinFunds token pool.address).sender = .ok p.sender
  recipient : Address.bytes (ctx.joinFunds token pool.address).recipient = .ok p.recipient
  fromInternal : p.fromInternal = (ctx.joinFunds token pool.address).fromInternal
  assets : Address.allBytes tokens = .ok p.assets
  fits : (Call.joinPool p).Fits

structure ExitPlan (a : Action) (ctx : Context) (p : PoolExit Bytes) where
  pool : Pool
  tokens : List Text
  token : Text
  place : Nat
  amount : Int
  known : ctx.registry.get a.firstHop.poolId = .ok pool
  sorted : Pool.sortTokens ctx.config.wrappedNative pool.tokens = .ok tokens
  paid : assetAt ctx.assets a.firstHop.assetOut = .ok token
  placed : placeOf tokens token = .ok place
  resolved : a.firstHop.amount.resolve = .ok amount
  bounded : a.resolvedMinOut = .ok a.minOut
  amounts_eq : p.minAmounts =
    (exitAmounts ctx.swapType tokens.length place amount a.minOut).1
  encoded : (exitAmounts ctx.swapType tokens.length place amount a.minOut).2.encode = .ok p.userData
  stored : List.Forall₂ (fun output pair => output.key.value = .ok pair.2 ∧ pair.1 = (place : Int))
    a.outputs p.outputs
  sender : Address.bytes (ctx.exitFunds token).sender = .ok p.sender
  recipient : Address.bytes (ctx.exitFunds token).recipient = .ok p.recipient
  toInternal : p.toInternal = (ctx.exitFunds token).toInternal
  assets : Address.allBytes tokens = .ok p.assets
  fits : (Call.exitPool p).Fits

/-- The parts of a batch's calls, of which the last one carries out the swaps. -/
structure SwapPlan (a : Action) (ctx : Context) (before : List (Call Bytes))
    (b : BatchSwap Bytes) where
  tokenIn : Text
  tokenOut : Text
  least : Int
  most : Int
  paidIn : assetAt ctx.assets a.firstHop.assetIn = .ok tokenIn
  paidOut : assetAt ctx.assets a.lastHop.assetOut = .ok tokenOut
  outputLimit : a.outputLimit (ctx.batchFunds tokenIn tokenOut).toInternal = .ok least
  inputLimit : a.inputLimit ctx tokenIn = .ok (before, most)
  steps : List.Forall₂ Hop.WrittenAs a.hops b.steps
  limits_eq : b.limits =
    (amountAt ctx.assets.length a.lastHop.assetOut least).set a.firstHop.assetIn most
  stored : List.Forall₂
    (fun output pair => output.key.value = .ok pair.2 ∧ pair.1 = (output.index : Int))
    a.outputs b.outputs
  sender : Address.bytes (ctx.batchFunds tokenIn tokenOut).sender = .ok b.funds.sender
  recipient : Address.bytes (ctx.batchFunds tokenIn tokenOut).recipient = .ok b.funds.recipient
  fromInternal : b.funds.fromInternal = (ctx.batchFunds tokenIn tokenOut).fromInternal
  toInternal : b.funds.toInternal = (ctx.batchFunds tokenIn tokenOut).toInternal
  assets : Address.allBytes ctx.assets = .ok b.assets
  fits : (Call.batchSwap b).Fits

theorem minOut_of_resolvedMinOut {n : Int} (h : a.resolvedMinOut = .ok n) : n = a.minOut :=
  (Amount.resolve_literal_eq_ok.1 h).1.symm

theorem joinCall_eq_ok {c : Call Bytes} (h : a.joinCall ctx = .ok c) :
    ∃ p, c = .joinPool p ∧ Nonempty (JoinPlan a ctx p) := by
  obtain ⟨pool, hpool, h⟩ := Except.bind_eq_ok.1 h
  obtain ⟨tokens, htokens, h⟩ := Except.bind_eq_ok.1 h
  obtain ⟨token, htoken, h⟩ := Except.bind_eq_ok.1 h
  obtain ⟨place, hplace, h⟩ := Except.bind_eq_ok.1 h
  obtain ⟨amount, hamount, h⟩ := Except.bind_eq_ok.1 h
  obtain ⟨minOut, hmin, h⟩ := Except.bind_eq_ok.1 h
  obtain ⟨userData, hdata, h⟩ := Except.bind_eq_ok.1 h
  obtain ⟨output, houtput, h⟩ := Except.bind_eq_ok.1 h
  obtain ⟨hwritten, hfits⟩ := Call.prepare_eq_ok h
  obtain ⟨p, hread, rfl⟩ := Except.map_eq_ok.1 hwritten
  obtain ⟨poolId, hid, hread⟩ := Except.bind_eq_ok.1 hread
  obtain ⟨sender, hsender, hread⟩ := Except.bind_eq_ok.1 hread
  obtain ⟨recipient, hrecipient, hread⟩ := Except.bind_eq_ok.1 hread
  obtain ⟨assets, hassets, hread⟩ := Except.bind_eq_ok.1 hread
  cases Except.pure_eq_ok.1 hread
  cases minOut_of_resolvedMinOut hmin
  exact ⟨_, rfl, ⟨{
    pool := pool, tokens := tokens, token := token, place := place, amount := amount,
    known := hpool, sorted := htokens, paid := htoken, placed := hplace, resolved := hamount,
    bounded := hmin, amounts_eq := rfl, encoded := hdata, stored := houtput, sender := hsender,
    recipient := hrecipient, fromInternal := rfl, assets := hassets,
    fits := hfits }⟩⟩

theorem forall₂_of_mapM_outputs {place : OutputReference → Int} {outputs : List OutputReference}
    {pairs : List (Int × Int)}
    (h : (outputs.mapM fun output => output.key.value.map (place output, ·)) = .ok pairs) :
    List.Forall₂ (fun output pair => output.key.value = .ok pair.2 ∧ pair.1 = place output)
      outputs pairs := by
  refine (List.mapM_eq_ok.1 h).imp ?_
  intro output pair hpair
  obtain ⟨value, hvalue, rfl⟩ := Except.map_eq_ok.1 hpair
  exact ⟨hvalue, rfl⟩

theorem exitCall_eq_ok {c : Call Bytes} (h : a.exitCall ctx = .ok c) :
    ∃ p, c = .exitPool p ∧ Nonempty (ExitPlan a ctx p) := by
  obtain ⟨pool, hpool, h⟩ := Except.bind_eq_ok.1 h
  obtain ⟨tokens, htokens, h⟩ := Except.bind_eq_ok.1 h
  obtain ⟨token, htoken, h⟩ := Except.bind_eq_ok.1 h
  obtain ⟨place, hplace, h⟩ := Except.bind_eq_ok.1 h
  obtain ⟨amount, hamount, h⟩ := Except.bind_eq_ok.1 h
  obtain ⟨minOut, hmin, h⟩ := Except.bind_eq_ok.1 h
  obtain ⟨userData, hdata, h⟩ := Except.bind_eq_ok.1 h
  obtain ⟨outputs, houtputs, h⟩ := Except.bind_eq_ok.1 h
  obtain ⟨hwritten, hfits⟩ := Call.prepare_eq_ok h
  obtain ⟨p, hread, rfl⟩ := Except.map_eq_ok.1 hwritten
  obtain ⟨poolId, hid, hread⟩ := Except.bind_eq_ok.1 hread
  obtain ⟨sender, hsender, hread⟩ := Except.bind_eq_ok.1 hread
  obtain ⟨recipient, hrecipient, hread⟩ := Except.bind_eq_ok.1 hread
  obtain ⟨assets, hassets, hread⟩ := Except.bind_eq_ok.1 hread
  cases Except.pure_eq_ok.1 hread
  cases minOut_of_resolvedMinOut hmin
  exact ⟨_, rfl, ⟨{
    pool := pool, tokens := tokens, token := token, place := place, amount := amount,
    known := hpool, sorted := htokens, paid := htoken, placed := hplace, resolved := hamount,
    bounded := hmin, amounts_eq := rfl, encoded := hdata,
    stored := forall₂_of_mapM_outputs houtputs, sender := hsender,
    recipient := hrecipient, toInternal := rfl, assets := hassets, fits := hfits }⟩⟩

theorem forall₂_of_mapM_steps {hops : List Hop} {planned : List (BatchStep Text)}
    {steps : List (BatchStep Bytes)} (hplan : hops.mapM batchStep = .ok planned)
    (hread : planned.mapM BatchSwap.readStep = .ok steps) :
    List.Forall₂ Hop.WrittenAs hops steps := by
  rw [List.mapM_eq_ok] at hplan hread
  induction hplan generalizing steps with
  | nil =>
      cases hread
      exact .nil
  | cons hstep _ ih =>
      cases hread with
      | cons hid hrest =>
          obtain ⟨amount, hamount, hstep⟩ := Except.bind_eq_ok.1 hstep
          cases Except.pure_eq_ok.1 hstep
          obtain ⟨poolId, hbytes, hid⟩ := Except.bind_eq_ok.1 hid
          cases Except.pure_eq_ok.1 hid
          exact .cons ⟨hbytes, rfl, rfl, hamount, rfl⟩ (ih hrest)

theorem swapCalls_eq_ok {calls : List (Call Bytes)} (h : a.swapCalls ctx = .ok calls) :
    ∃ before b, calls = before ++ [.batchSwap b] ∧ Nonempty (SwapPlan a ctx before b) := by
  obtain ⟨tokenIn, htokenIn, h⟩ := Except.bind_eq_ok.1 h
  obtain ⟨tokenOut, htokenOut, h⟩ := Except.bind_eq_ok.1 h
  obtain ⟨least, hleast, h⟩ := Except.bind_eq_ok.1 h
  obtain ⟨⟨before, most⟩, hmost, h⟩ := Except.bind_eq_ok.1 h
  obtain ⟨steps, hsteps, h⟩ := Except.bind_eq_ok.1 h
  obtain ⟨outputs, houtputs, h⟩ := Except.bind_eq_ok.1 h
  obtain ⟨call, hcall, h⟩ := Except.bind_eq_ok.1 h
  cases Except.pure_eq_ok.1 h
  obtain ⟨hwritten, hfits⟩ := Call.prepare_eq_ok hcall
  obtain ⟨b, hread, rfl⟩ := Except.map_eq_ok.1 hwritten
  obtain ⟨read, hread₁, hread⟩ := Except.bind_eq_ok.1 hread
  obtain ⟨assets, hassets, hread⟩ := Except.bind_eq_ok.1 hread
  obtain ⟨sender, hsender, hread⟩ := Except.bind_eq_ok.1 hread
  obtain ⟨recipient, hrecipient, hread⟩ := Except.bind_eq_ok.1 hread
  cases Except.pure_eq_ok.1 hread
  exact ⟨before, _, rfl, ⟨{
    tokenIn := tokenIn, tokenOut := tokenOut, least := least, most := most, paidIn := htokenIn,
    paidOut := htokenOut, outputLimit := hleast, inputLimit := hmost,
    steps := forall₂_of_mapM_steps hsteps hread₁,
    limits_eq := rfl, stored := forall₂_of_mapM_outputs houtputs, sender := hsender,
    recipient := hrecipient, fromInternal := rfl, toInternal := rfl, assets := hassets,
    fits := hfits }⟩⟩

/-- Before a batch stand calls that allow the vault the amount that the batch reads first. -/
theorem before_of_inputLimit {tokenIn : Text} {before : List (Call Bytes)} {most : Int}
    (h : a.inputLimit ctx tokenIn = .ok (before, most)) {c : Call Bytes} (hc : c ∈ before) :
    c.Fits ∧ ∃ token value r, c = .approveVault token value ∧ a.firstHop.amount = .chained r ∧
      r.readOnly.value = .ok value := by
  simp only [inputLimit] at h
  split at h
  · obtain ⟨n, -, h⟩ := Except.map_eq_ok.1 h
    cases h
    cases hc
  · obtain ⟨calls, hcalls, h⟩ := Except.map_eq_ok.1 h
    cases h
    simp only [approvalCalls] at hcalls
    split at hcalls
    · split at hcalls
      · cases hcalls
      · next r hamount =>
          obtain ⟨value, hvalue, hcalls⟩ := Except.bind_eq_ok.1 hcalls
          obtain ⟨call, hcall, hcalls⟩ := Except.bind_eq_ok.1 hcalls
          cases Except.pure_eq_ok.1 hcalls
          obtain rfl := List.mem_singleton.1 hc
          obtain ⟨hread, hfits⟩ := Call.prepare_eq_ok hcall
          obtain ⟨token, -, hread⟩ := Except.bind_eq_ok.1 hread
          cases Except.pure_eq_ok.1 hread
          exact ⟨hfits, token, value, r, rfl, hamount, hvalue⟩
    · cases hcalls
      cases hc

/-- The calls of an action: one that carries it out, and those before it. -/
inductive Made (a : Action) (ctx : Context) : List (Call Bytes) → Call Bytes → Prop
  | join {p : PoolJoin Bytes} (deposit : a.kind = .deposit) (plan : JoinPlan a ctx p) :
      Made a ctx [] (.joinPool p)
  | exit {p : PoolExit Bytes} (withdrawal : a.kind = .withdrawal) (plan : ExitPlan a ctx p) :
      Made a ctx [] (.exitPool p)
  | swap {before : List (Call Bytes)} {b : BatchSwap Bytes} (batched : a.kind = .batchedExchange)
      (plan : SwapPlan a ctx before b) : Made a ctx before (.batchSwap b)

theorem made_of_calls {calls : List (Call Bytes)} (h : a.calls ctx = .ok calls) :
    ∃ before main, calls = before ++ [main] ∧ Made a ctx before main := by
  simp only [Action.calls] at h
  split at h
  · next hkind =>
      obtain ⟨c, hc, rfl⟩ := Except.map_eq_ok.1 h
      obtain ⟨p, rfl, ⟨plan⟩⟩ := joinCall_eq_ok hc
      exact ⟨[], _, rfl, .join hkind plan⟩
  · next hkind =>
      obtain ⟨c, hc, rfl⟩ := Except.map_eq_ok.1 h
      obtain ⟨p, rfl, ⟨plan⟩⟩ := exitCall_eq_ok hc
      exact ⟨[], _, rfl, .exit hkind plan⟩
  · next hkind =>
      obtain ⟨before, b, rfl, ⟨plan⟩⟩ := swapCalls_eq_ok h
      exact ⟨before, _, rfl, .swap hkind plan⟩
  · cases h

theorem Made.exists_batch_iff {before : List (Call Bytes)} {main : Call Bytes}
    (h : Made a ctx before main) : (∃ b, main = .batchSwap b) ↔ a.kind = .batchedExchange := by
  cases h with
  | join hkind _ => rw [hkind]; exact iff_of_false (by simp) (by decide)
  | exit hkind _ => rw [hkind]; exact iff_of_false (by simp) (by decide)
  | swap hkind _ => exact iff_of_true ⟨_, rfl⟩ hkind

/-- What stands before the main call allows the vault the amount that the action reads first. -/
theorem Made.approval {before : List (Call Bytes)} {main : Call Bytes} (h : Made a ctx before main)
    {c : Call Bytes} (hc : c ∈ before) :
    ∃ token value r, c = .approveVault token value ∧ a.firstHop.amount = .chained r ∧
      r.readOnly.value = .ok value := by
  cases h with
  | join => cases hc
  | exit => cases hc
  | swap _ plan => exact (before_of_inputLimit plan.inputLimit hc).2

theorem Made.fits {before : List (Call Bytes)} {main : Call Bytes} (h : Made a ctx before main) :
    main.Fits ∧ ∀ c ∈ before, c.Fits := by
  cases h with
  | join _ plan => exact ⟨plan.fits, List.forall_mem_nil _⟩
  | exit _ plan => exact ⟨plan.fits, List.forall_mem_nil _⟩
  | swap _ plan => exact ⟨plan.fits, fun c hc => (before_of_inputLimit plan.inputLimit hc).1⟩

/-- Two actions of one kind whose deposits and withdrawals are the same call, and whose batches
belong together. -/
theorem calls_rel {b : Action} {ctx' : Context}
    {P : List (Call Bytes) → List (Call Bytes) → Prop} (hkind : a.kind = b.kind)
    (hjoin : a.joinCall ctx = b.joinCall ctx') (hexit : a.exitCall ctx = b.exitCall ctx')
    (hjoined : ∀ p, P [.joinPool p] [.joinPool p]) (hexited : ∀ p, P [.exitPool p] [.exitPool p])
    (hswap : Except.Rel Eq P (a.swapCalls ctx) (b.swapCalls ctx')) :
    Except.Rel Eq P (a.calls ctx) (b.calls ctx') := by
  simp only [calls]
  rw [← hkind, ← hjoin, ← hexit]
  split
  · refine .map_eq fun c hc => ?_
    obtain ⟨p, rfl, -⟩ := joinCall_eq_ok hc
    exact hjoined p
  · refine .map_eq fun c hc => ?_
    obtain ⟨p, rfl, -⟩ := exitCall_eq_ok hc
    exact hexited p
  · exact hswap
  · exact .error rfl

end Action

end SwapRelay
