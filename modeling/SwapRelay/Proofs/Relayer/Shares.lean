import SwapRelay.Proofs.Relayer.Custody

/-!
# Whose account a share token goes through

A call credits one account with what it yields and debits one for what it spends. Between two calls
of a route that account is the relayer's, with two exceptions: a batch of swaps pays a share token
to the user (`Made.credited_share`), and a withdrawal burns the user's shares
(`Made.debited`). No call asks which kind of call comes before or after it.
-/

namespace SwapRelay

namespace Call

/-- The account that gets what the call yields. -/
def credited? : Call Bytes → Option Bytes
  | .batchSwap b => some b.funds.recipient
  | .joinPool p => some p.recipient
  | .exitPool p => some p.recipient
  | .setRelayerApproval .. | .approveVault .. | .peekReference _ => none

/-- The account that gives what the call spends. -/
def debited? : Call Bytes → Option Bytes
  | .batchSwap b => some b.funds.sender
  | .joinPool p => some p.sender
  | .exitPool p => some p.sender
  | .setRelayerApproval .. | .approveVault .. | .peekReference _ => none

def isBatchSwap : Call Bytes → Bool
  | .batchSwap _ => true
  | _ => false

def isExitPool : Call Bytes → Bool
  | .exitPool _ => true
  | _ => false

end Call

namespace Action.Made

variable {a : Action} {ctx : Context} {before : List (Call Bytes)} {main : Call Bytes}
  {token : Text}

theorem isBatchSwap_eq (h : Made a ctx before main) : main.isBatchSwap = a.kind.isExchange := by
  cases h with
  | join hkind _ => rw [hkind]; rfl
  | exit hkind _ => rw [hkind]; rfl
  | swap hkind _ => rw [hkind]; rfl

theorem isExitPool_eq (h : Made a ctx before main) :
    main.isExitPool = decide (a.kind = .withdrawal) := by
  cases h with
  | join hkind _ => rw [hkind]; rfl
  | exit hkind _ => rw [hkind]; rfl
  | swap hkind _ => rw [hkind]; rfl

/-- A batch pays a share token in between to the user, and any other call pays it to the relayer. -/
theorem credited_share (h : Made a ctx before main)
    (hpaid : assetAt ctx.assets a.lastHop.assetOut = .ok token)
    (hout : Address.same token ctx.tokenOut = false)
    (hshare : ctx.registry.isShareToken token = true)
    (hmints : a.kind = .deposit → ∀ pool, ctx.registry.get a.firstHop.poolId = .ok pool →
      Address.same pool.address ctx.tokenOut = false) :
    ∃ account, Address.bytes (ctx.owner (!main.isBatchSwap)) = .ok account ∧
      main.credited? = some account := by
  cases h with
  | join hdeposit plan =>
      have hrecipient := plan.recipient
      simp only [Context.joinFunds] at hrecipient
      rw [hmints hdeposit plan.pool plan.known] at hrecipient
      exact ⟨_, hrecipient, rfl⟩
  | exit hwithdrawal plan =>
      rw [lastHop_eq_firstHop (by rw [hwithdrawal]; decide)] at hpaid
      cases plan.paid.symm.trans hpaid
      have hrecipient := plan.recipient
      simp only [Context.exitFunds] at hrecipient
      rw [hout] at hrecipient
      exact ⟨_, hrecipient, rfl⟩
  | swap _ plan =>
      cases plan.paidOut.symm.trans hpaid
      have hrecipient := plan.recipient
      simp only [Context.batchFunds] at hrecipient
      rw [hshare, Bool.or_true] at hrecipient
      exact ⟨_, hrecipient, rfl⟩

/-- A withdrawal takes a token in between from the user, and any other call takes it from the
relayer. -/
theorem debited (h : Made a ctx before main)
    (hpaid : assetAt ctx.assets a.firstHop.assetIn = .ok token)
    (hin : Address.same token ctx.tokenIn = false) :
    ∃ account, Address.bytes (ctx.owner (!main.isExitPool)) = .ok account ∧
      main.debited? = some account := by
  cases h with
  | join _ plan =>
      cases plan.paid.symm.trans hpaid
      have hsender := plan.sender
      simp only [Context.joinFunds] at hsender
      rw [hin] at hsender
      exact ⟨_, hsender, rfl⟩
  | exit _ plan => exact ⟨_, plan.sender, rfl⟩
  | swap _ plan =>
      cases plan.paidIn.symm.trans hpaid
      have hsender := plan.sender
      simp only [Context.batchFunds] at hsender
      rw [hin] at hsender
      exact ⟨_, hsender, rfl⟩

end Action.Made

end SwapRelay
