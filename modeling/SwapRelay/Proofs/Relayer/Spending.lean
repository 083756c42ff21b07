import SwapRelay.Proofs.Relayer.Shares

/-!
# What a call may take from the user

The account that pays for a batch or a deposit is decided by the token, whereas what the call may
take is written into a list of amounts, by the place of the token among the assets of the call. Where
the user pays, both come to the route's input: the one amount that a batch may spend stands at the
place where its first swap starts, and the only amount of a deposit at the place of the token that it
pays in. Every other entry lets nothing out (`Made.drawsOnly`). A batch that ends at the asset it
started from is no exception, since the entry of the input is written last.
-/

namespace SwapRelay

namespace Call

/-- If the account pays for the call, a batch takes so much of the token at most, at the place where
its first swap starts, and a deposit has an amount for the token alone. -/
def DrawsOnly (account token : Bytes) (amount : Int) : Call Bytes → Prop
  | .batchSwap b => b.funds.sender = account →
      ∃ (step : BatchStep Bytes) (place : Nat), b.steps.head? = some step ∧ step.assetIn = place ∧
        b.assets[place]? = some token ∧ b.limits[place]? = some amount ∧
        ∀ i n, b.limits[i]? = some n → i ≠ place → n ≤ 0
  | .joinPool p => p.sender = account →
      ∃ place : Nat, p.assets[place]? = some token ∧
        ∀ i n, p.maxAmounts[i]? = some n → i ≠ place → n = 0
  | .exitPool _ | .setRelayerApproval .. | .approveVault .. | .peekReference _ => True

end Call

/-- Funds of an account that is not the relayer's are the user's own. -/
theorem Context.same_of_owner {ctx : Context} {same : Bool} {account : Bytes}
    (hrelayer : Address.bytes ctx.relayer ≠ .ok account)
    (h : Address.bytes (ctx.owner !same) = .ok account) : same = true := by
  cases same with
  | true => rfl
  | false => exact absurd h hrelayer

namespace Action

variable {a : Action} {ctx : Context}

/-- Every amount of a deposit but the one at the token's place is zero. -/
theorem eq_zero_of_getElem?_joinAmounts {swapType : SwapType} {length place i : Nat}
    {amount minOut n : Int}
    (h : (joinAmounts swapType length place amount minOut).1[i]? = some n) (hne : i ≠ place) :
    n = 0 := by
  cases swapType with
  | exactIn => exact (eq_of_getElem?_amountAt h).trans (if_neg hne.symm)
  | exactOut => exact (eq_of_getElem?_amountAt h).trans (if_neg hne.symm)

/-- Every limit of a batch but the one of its input lets nothing in. -/
theorem nonpos_of_getElem?_limits {length input output i : Nat} {least most n : Int}
    (hleast : least ≤ 0)
    (h : ((amountAt length output least).set input most)[i]? = some n) (hne : i ≠ input) :
    n ≤ 0 := by
  rw [List.getElem?_set_ne hne.symm] at h
  rw [eq_of_getElem?_amountAt h]
  split
  · exact hleast
  · exact Int.le_refl 0

theorem head?_hops (a : Action) : a.hops.head? = some a.firstHop :=
  List.head?_eq_some_head a.hops_ne_nil

namespace Made

variable {before : List (Call Bytes)} {main : Call Bytes} {account token : Bytes}

/-- A call that an account other than the relayer's pays for takes only the route's input. -/
theorem drawsOnly (h : Made a ctx before main) (hrelayer : Address.bytes ctx.relayer ≠ .ok account)
    (htoken : Address.bytes ctx.tokenIn = .ok token) :
    main.DrawsOnly account token ctx.swapAmount := by
  cases h with
  | join _ plan =>
      intro hpays
      have hsender := plan.sender
      rw [hpays] at hsender
      have hsame : Address.same plan.token ctx.tokenIn = true :=
        Context.same_of_owner hrelayer hsender
      obtain ⟨t, ht, hplace⟩ := placeOf_eq_ok plan.placed
      have hinput : Address.same t ctx.tokenIn = true := by
        rw [Address.same_iff] at hsame hplace ⊢
        exact hplace.trans hsame
      obtain ⟨bs, hbytes, hbs⟩ := Address.exists_getElem?_allBytes plan.assets ht hinput
      cases htoken.symm.trans hbytes
      refine ⟨plan.place, hbs, ?_⟩
      intro i n hn hne
      rw [plan.amounts_eq] at hn
      exact eq_zero_of_getElem?_joinAmounts hn hne
  | exit _ _ => trivial
  | @swap _ b _ plan =>
      intro hpays
      have hsender := plan.sender
      rw [hpays] at hsender
      have hsame : Address.same plan.tokenIn ctx.tokenIn = true :=
        Context.same_of_owner hrelayer hsender
      obtain ⟨step, hstep, hwritten⟩ := plan.steps.exists_of_head? a.head?_hops
      obtain ⟨bs, hbytes, hbs⟩ :=
        Address.exists_getElem?_allBytes plan.assets (assetAt_eq_ok.1 plan.paidIn) hsame
      cases htoken.symm.trans hbytes
      refine ⟨step, a.firstHop.assetIn, hstep, hwritten.assetIn, hbs, ?_, ?_⟩
      · have hlimit := plan.inputLimit
        simp only [inputLimit] at hlimit
        rw [hsame] at hlimit
        obtain ⟨n, hn, hmost⟩ := Except.map_eq_ok.1 hlimit
        cases hmost
        rw [plan.limits_eq, getElem?_limits (lt_of_assetAt plan.paidIn), if_pos rfl,
          (Amount.resolve_literal_eq_ok.1 hn).1]
      · intro i n hn hne
        rw [plan.limits_eq] at hn
        exact nonpos_of_getElem?_limits (nonpos_of_outputLimit plan.outputLimit) hn hne

/-- A batch or a deposit takes its input first, and a batch says so in its first step. -/
theorem exists_input (h : Made a ctx before main) (hexit : main.isExitPool = false) :
    (∃ token, assetAt ctx.assets a.firstHop.assetIn = .ok token) ∧
      ∀ b, main = .batchSwap b → b.steps.head?.map (·.assetIn) = some (a.firstHop.assetIn : Int) := by
  cases h with
  | join _ plan => exact ⟨⟨plan.token, plan.paid⟩, fun b hb => by cases hb⟩
  | exit _ _ => cases hexit
  | swap _ plan =>
      refine ⟨⟨plan.tokenIn, plan.paidIn⟩, ?_⟩
      intro b hb
      cases hb
      obtain ⟨step, hstep, hwritten⟩ := plan.steps.exists_of_head? a.head?_hops
      rw [hstep, Option.map_some, hwritten.assetIn]

end Made

end Action

end SwapRelay
