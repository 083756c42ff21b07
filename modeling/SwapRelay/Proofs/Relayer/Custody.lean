import SwapRelay.Proofs.Relayer.Bounds

/-!
# What the vault keeps between two calls

Between the calls of a route a token is the user's own, or the vault keeps it for the relayer. A
token that is neither an end of the route nor a share token is kept: the call that yields it credits
the vault's books (`Made.credits`), and the call that spends it debits them (`Made.debitsBooks`).
The route's input is the user's own. The call that starts from it takes it from the user
(`Made.funded`), whereas a batch that meets it only further on does not allow for it
(`Made.not_funded_of_batch`).
-/

namespace SwapRelay

namespace Call

/-- The vault keeps the call's output for the account. -/
def CreditsBooksOf (account : Text) : Call Bytes → Prop
  | .batchSwap b => Address.bytes account = .ok b.funds.recipient ∧ b.funds.toInternal = true
  | .exitPool p => Address.bytes account = .ok p.recipient ∧ p.toInternal = true
  | .joinPool _ | .setRelayerApproval .. | .approveVault .. | .peekReference _ => False

/-- The call takes its input from what the vault keeps for the account. -/
def DebitsBooksOf (account : Text) : Call Bytes → Prop
  | .batchSwap b => Address.bytes account = .ok b.funds.sender ∧ b.funds.fromInternal = true
  | .joinPool p => Address.bytes account = .ok p.sender ∧ p.fromInternal = true
  | .exitPool _ | .setRelayerApproval .. | .approveVault .. | .peekReference _ => False

/-- The call is a deposit or a batch that takes the user's own tokens, and a batch may take just so
much of the asset at this place. -/
def FundedBy (user : Text) (input : Nat) (amount : Int) : Call Bytes → Prop
  | .batchSwap b => Address.bytes user = .ok b.funds.sender ∧ b.funds.fromInternal = false ∧
      b.limits[input]? = some amount
  | .joinPool p => Address.bytes user = .ok p.sender ∧ p.fromInternal = false
  | .exitPool _ | .setRelayerApproval .. | .approveVault .. | .peekReference _ => False

end Call

namespace Action

variable {a : Action} {ctx : Context}

theorem nonpos_of_outputLimit {toInternal : Bool} {least : Int}
    (h : a.outputLimit toInternal = .ok least) : least ≤ 0 := by
  simp only [outputLimit] at h
  split at h
  · cases h
    exact Int.le_refl 0
  · obtain ⟨n, hn, rfl⟩ := Except.map_eq_ok.1 h
    obtain ⟨rfl, ⟨hpos, -⟩, -⟩ := Amount.resolve_literal_eq_ok.1 hn
    omega

namespace Made

variable {before : List (Call Bytes)} {main : Call Bytes} {token : Text}

/-- A call other than a deposit leaves a token in between with the vault. -/
theorem credits (h : Made a ctx before main) (hkind : a.kind ≠ .deposit)
    (hpaid : assetAt ctx.assets a.lastHop.assetOut = .ok token)
    (hout : Address.same token ctx.tokenOut = false)
    (hshare : ctx.registry.isShareToken token = false) : main.CreditsBooksOf ctx.relayer := by
  cases h with
  | join hdeposit _ => exact absurd hdeposit hkind
  | exit hwithdrawal plan =>
      rw [lastHop_eq_firstHop (by rw [hwithdrawal]; decide)] at hpaid
      cases plan.paid.symm.trans hpaid
      have hrecipient := plan.recipient
      have hinternal := plan.toInternal
      simp only [Context.exitFunds] at hrecipient hinternal
      rw [hout] at hrecipient hinternal
      exact ⟨hrecipient, hinternal⟩
  | swap _ plan =>
      cases plan.paidOut.symm.trans hpaid
      have hrecipient := plan.recipient
      have hinternal := plan.toInternal
      simp only [Context.batchFunds] at hrecipient hinternal
      rw [hout, hshare] at hrecipient hinternal
      exact ⟨hrecipient, hinternal⟩

/-- A call other than a withdrawal takes a token in between from the vault. -/
theorem debitsBooks (h : Made a ctx before main) (hkind : a.kind ≠ .withdrawal)
    (hpaid : assetAt ctx.assets a.firstHop.assetIn = .ok token)
    (hin : Address.same token ctx.tokenIn = false)
    (hshare : ctx.registry.isShareToken token = false) : main.DebitsBooksOf ctx.relayer := by
  cases h with
  | join _ plan =>
      cases plan.paid.symm.trans hpaid
      have hsender := plan.sender
      have hinternal := plan.fromInternal
      simp only [Context.joinFunds] at hsender hinternal
      rw [hin] at hsender hinternal
      exact ⟨hsender, hinternal⟩
  | exit hwithdrawal _ => exact absurd hwithdrawal hkind
  | swap _ plan =>
      cases plan.paidIn.symm.trans hpaid
      have hsender := plan.sender
      have hinternal := plan.fromInternal
      simp only [Context.batchFunds] at hsender hinternal
      rw [hin] at hsender hinternal
      rw [hshare] at hinternal
      exact ⟨hsender, hinternal⟩

/-- A deposit or a batch that starts from the route's input takes it from the user. -/
theorem funded (h : Made a ctx before main) (hkind : a.kind ≠ .withdrawal)
    (hinput : assetAt ctx.assets a.firstHop.assetIn = .ok ctx.tokenIn) :
    main.FundedBy ctx.user a.firstHop.assetIn ctx.swapAmount := by
  have hdebits := (h.debits hinput).2
  cases h with
  | join _ _ => exact hdebits
  | exit hwithdrawal _ => exact absurd hwithdrawal hkind
  | swap _ plan =>
      refine ⟨hdebits.1, hdebits.2, ?_⟩
      have hlength := lt_of_assetAt hinput
      have hlimit := plan.inputLimit
      rw [← Except.ok.inj (hinput.symm.trans plan.paidIn)] at hlimit
      simp only [inputLimit] at hlimit
      rw [Address.same_refl] at hlimit
      obtain ⟨n, hn, hmost⟩ := Except.map_eq_ok.1 hlimit
      cases hmost
      rw [plan.limits_eq, getElem?_limits hlength, if_pos rfl,
        (Amount.resolve_literal_eq_ok.1 hn).1]

/-- A batch that starts elsewhere may take nothing of the route's input. -/
theorem not_funded_of_batch (h : Made a ctx before main) (hkind : a.kind = .batchedExchange)
    {input : Nat} (hinput : assetAt ctx.assets input = .ok ctx.tokenIn)
    (hin : a.firstHop.assetIn ≠ input) {amount : Int} (hpos : 0 < amount) :
    ¬main.FundedBy ctx.user input amount := by
  cases h with
  | join hdeposit _ => rw [hkind] at hdeposit; cases hdeposit
  | exit hwithdrawal _ => rw [hkind] at hwithdrawal; cases hwithdrawal
  | swap _ plan =>
      rintro ⟨-, -, hlimit⟩
      have hlength := lt_of_assetAt hinput
      rw [plan.limits_eq, getElem?_limits hlength, if_neg hin, Option.some.injEq] at hlimit
      have hleast := nonpos_of_outputLimit plan.outputLimit
      split at hlimit <;> omega

end Made

end Action

end SwapRelay
