import SwapRelay.Proofs.Action.Walk
import SwapRelay.Proofs.Address
import SwapRelay.Proofs.Relayer.Plan

/-!
# Whom a call debits, whom it pays, and what it insists on

Three questions to a finished call: does it take the user's own tokens, does it pay tokens to the
user, and does it fail when less than some amount of the route's output comes out? For a call that
starts from the route's input the first answer is yes (`Made.debits`), and for one that ends at the
route's output the second is (`Made.pays`). The third depends on where a batch starts and ends:
`Made.enforces_of_batch` and `Made.not_enforces_of_batch`.
-/

namespace SwapRelay

namespace Call

/-- The call takes its input from the user's own tokens. -/
def DebitsTokensOf (user : Text) : Call Bytes → Prop
  | .batchSwap b => Address.bytes user = .ok b.funds.sender ∧ b.funds.fromInternal = false
  | .joinPool p => Address.bytes user = .ok p.sender ∧ p.fromInternal = false
  | .exitPool p => Address.bytes user = .ok p.sender
  | .setRelayerApproval .. | .approveVault .. | .peekReference _ => False

/-- The call pays its output to the user in tokens. -/
def PaysTokensTo (user : Text) : Call Bytes → Prop
  | .batchSwap b => Address.bytes user = .ok b.funds.recipient ∧ b.funds.toInternal = false
  | .joinPool p => Address.bytes user = .ok p.recipient
  | .exitPool p => Address.bytes user = .ok p.recipient ∧ p.toInternal = false
  | .setRelayerApproval .. | .approveVault .. | .peekReference _ => False

/-- The call insists on so much of a token, which stands at this place of the route's assets. A
deposit does so by its message, as the shares that it mints are the token. -/
def Enforces (least : Int) (output : Nat) (token : Text) : Call Bytes → Prop
  | .batchSwap b => b.limits[output]? = some (-least)
  | .joinPool p =>
    ∃ amounts, (PoolUserData.joinExactIn amounts least).encode = .ok p.userData
  | .exitPool p => ∃ (i : Nat) (bs : Bytes), Address.bytes token = .ok bs ∧
      p.assets[i]? = some bs ∧ p.minAmounts[i]? = some least
  | .setRelayerApproval .. | .approveVault .. | .peekReference _ => False

end Call

/-- A token that stands among others, in whatever case, has bytes, and they stand at its place. -/
theorem Address.exists_getElem?_allBytes {tokens : List Text} {assets : List Bytes}
    (h : allBytes tokens = .ok assets) {i : Nat} {t token : Text} (ht : tokens[i]? = some t)
    (hsame : same t token = true) : ∃ bs, bytes token = .ok bs ∧ assets[i]? = some bs := by
  obtain ⟨bs, hbs, hbytes⟩ := (List.mapM_eq_ok.1 h).flip.exists_of_getElem? ht
  exact ⟨bs, bytes_of_same hsame hbytes, hbs⟩

theorem placeOf_eq_ok {tokens : List Text} {token : Text} {place : Nat}
    (h : placeOf tokens token = .ok place) :
    ∃ t, tokens[place]? = some t ∧ Address.same t token = true := by
  simp only [placeOf] at h
  split at h
  · next hindex =>
      cases h
      exact Address.getElem?_of_indexOf? hindex
  · cases h

namespace Action

variable {a : Action} {ctx : Context}

theorem nonneg_of_inputLimit {tokenIn : Text} {before : List (Call Bytes)} {most : Int}
    (h : a.inputLimit ctx tokenIn = .ok (before, most)) : 0 ≤ most := by
  simp only [inputLimit] at h
  split at h
  · obtain ⟨n, hn, h⟩ := Except.map_eq_ok.1 h
    cases h
    obtain ⟨rfl, ⟨hpos, -⟩, -⟩ := Amount.resolve_literal_eq_ok.1 hn
    exact hpos
  · obtain ⟨calls, -, h⟩ := Except.map_eq_ok.1 h
    cases h
    decide

theorem length_amountAt (length place : Nat) (amount : Int) :
    (amountAt length place amount).length = length := by
  rw [amountAt, List.length_set, List.length_replicate]

theorem getElem?_amountAt {length place i : Nat} (hi : i < length) (amount : Int) :
    (amountAt length place amount)[i]? = some (if place = i then amount else 0) := by
  simp only [amountAt]
  rw [List.getElem?_set, List.length_replicate, List.getElem?_replicate, if_pos hi]
  by_cases h : place = i
  · rw [if_pos h, if_pos h, if_pos (h ▸ hi)]
  · rw [if_neg h, if_neg h]

theorem eq_of_getElem?_amountAt {length place i : Nat} {amount n : Int}
    (h : (amountAt length place amount)[i]? = some n) : n = if place = i then amount else 0 := by
  have hi : i < length := by
    obtain ⟨hi, -⟩ := List.getElem?_eq_some_iff.1 h
    rwa [length_amountAt] at hi
  rw [getElem?_amountAt hi] at h
  exact (Option.some.inj h).symm

/-- Of what a batch may spend and has to yield, the entry of the input is written last. -/
theorem getElem?_limits {length input output i : Nat} (hi : i < length) (least most : Int) :
    ((amountAt length output least).set input most)[i]? =
      some (if input = i then most else if output = i then least else 0) := by
  rw [List.getElem?_set, length_amountAt, getElem?_amountAt hi]
  by_cases h : input = i
  · rw [if_pos h, if_pos h, if_pos (h ▸ hi)]
  · rw [if_neg h, if_neg h]

namespace Made

variable {before : List (Call Bytes)} {main : Call Bytes}

/-- A call that starts from the route's input needs no other before it and takes the user's own
tokens. -/
theorem debits (h : Made a ctx before main)
    (hinput : assetAt ctx.assets a.firstHop.assetIn = .ok ctx.tokenIn) :
    before = [] ∧ main.DebitsTokensOf ctx.user := by
  cases h with
  | join _ plan =>
      have htoken : plan.token = ctx.tokenIn := Except.ok.inj (plan.paid.symm.trans hinput)
      have hsender := plan.sender
      have hinternal := plan.fromInternal
      rw [htoken] at hsender hinternal
      simp only [Context.joinFunds] at hsender hinternal
      rw [Address.same_refl] at hsender hinternal
      exact ⟨rfl, hsender, hinternal⟩
  | exit _ plan => exact ⟨rfl, plan.sender⟩
  | swap _ plan =>
      have htoken : plan.tokenIn = ctx.tokenIn := Except.ok.inj (plan.paidIn.symm.trans hinput)
      have hsender := plan.sender
      have hinternal := plan.fromInternal
      have hlimit := plan.inputLimit
      rw [htoken] at hsender hinternal hlimit
      simp only [Context.batchFunds] at hsender hinternal
      simp only [inputLimit] at hlimit
      rw [Address.same_refl] at hsender hinternal hlimit
      obtain ⟨n, -, hlimit⟩ := Except.map_eq_ok.1 hlimit
      cases hlimit
      exact ⟨rfl, hsender, hinternal⟩

/-- A call that ends at the route's output pays the user in tokens. A deposit has to mint the
output. -/
theorem pays (h : Made a ctx before main)
    (houtput : assetAt ctx.assets a.lastHop.assetOut = .ok ctx.tokenOut)
    (hmints : a.kind = .deposit → ∀ pool, ctx.registry.get a.firstHop.poolId = .ok pool →
      Address.same pool.address ctx.tokenOut = true) : main.PaysTokensTo ctx.user := by
  cases h with
  | join hkind plan =>
      have hrecipient := plan.recipient
      simp only [Context.joinFunds] at hrecipient
      rw [hmints hkind plan.pool plan.known] at hrecipient
      exact hrecipient
  | exit hkind plan =>
      rw [lastHop_eq_firstHop (by rw [hkind]; decide)] at houtput
      have htoken : plan.token = ctx.tokenOut := Except.ok.inj (plan.paid.symm.trans houtput)
      have hrecipient := plan.recipient
      have hinternal := plan.toInternal
      rw [htoken] at hrecipient hinternal
      simp only [Context.exitFunds] at hrecipient hinternal
      rw [Address.same_refl] at hrecipient hinternal
      exact ⟨hrecipient, hinternal⟩
  | swap _ plan =>
      have htoken : plan.tokenOut = ctx.tokenOut := Except.ok.inj (plan.paidOut.symm.trans houtput)
      have hrecipient := plan.recipient
      have hinternal := plan.toInternal
      rw [htoken] at hrecipient hinternal
      simp only [Context.batchFunds] at hrecipient hinternal
      rw [Address.same_refl] at hrecipient hinternal
      exact ⟨hrecipient, hinternal⟩

/-- A deposit or a withdrawal of the route's output insists on the action's least output. -/
theorem enforces_of_poolOperation (h : Made a ctx before main) (hexact : ctx.swapType = .exactIn)
    (hkind : a.kind ≠ .batchedExchange) {output : Nat}
    (houtput : assetAt ctx.assets output = .ok ctx.tokenOut)
    (hends : a.firstHop.assetOut = output) : main.Enforces a.minOut output ctx.tokenOut := by
  cases h with
  | join _ plan =>
      have hencoded := plan.encoded
      rw [hexact] at hencoded
      exact ⟨_, hencoded⟩
  | exit _ plan =>
      have hpaid := plan.paid
      rw [hends] at hpaid
      have htoken : plan.token = ctx.tokenOut := Except.ok.inj (hpaid.symm.trans houtput)
      have hamounts := plan.amounts_eq
      rw [hexact] at hamounts
      obtain ⟨t, ht, hsame⟩ := placeOf_eq_ok plan.placed
      rw [htoken] at hsame
      obtain ⟨bs, hbytes, hbs⟩ := Address.exists_getElem?_allBytes plan.assets ht hsame
      refine ⟨_, bs, hbytes, hbs, ?_⟩
      rw [hamounts, exitAmounts, getElem?_amountAt (List.getElem?_eq_some_iff.1 ht).1, if_pos rfl]
  | swap hbatched _ => exact absurd hbatched hkind

/-- What a batch says of the route's output: what it may spend, if it starts from it, or else the
action's least output, if it ends there. -/
theorem exists_limit_of_batch (h : Made a ctx before main) (hkind : a.kind = .batchedExchange)
    {output : Nat} (houtput : assetAt ctx.assets output = .ok ctx.tokenOut) :
    ∃ b most, main = .batchSwap b ∧ 0 ≤ most ∧ b.limits[output]? =
      some (if a.firstHop.assetIn = output then most
        else if a.lastHop.assetOut = output then -a.minOut else 0) := by
  cases h with
  | join hdeposit _ => rw [hkind] at hdeposit; cases hdeposit
  | exit hwithdrawal _ => rw [hkind] at hwithdrawal; cases hwithdrawal
  | @swap _ b _ plan =>
      have hlength := lt_of_assetAt houtput
      refine ⟨b, plan.most, rfl, nonneg_of_inputLimit plan.inputLimit, ?_⟩
      rw [plan.limits_eq, getElem?_limits hlength]
      by_cases hout : a.lastHop.assetOut = output
      · have hpaid := plan.paidOut
        rw [hout] at hpaid
        have htoken : plan.tokenOut = ctx.tokenOut := Except.ok.inj (hpaid.symm.trans houtput)
        have hlimit := plan.outputLimit
        unfold Context.batchFunds outputLimit at hlimit
        rw [htoken, Address.same_refl] at hlimit
        obtain ⟨n, hn, hleast⟩ := Except.map_eq_ok.1 hlimit
        rw [← hleast, minOut_of_resolvedMinOut hn]
      · rw [if_neg hout, if_neg hout]

/-- A batch that ends at the route's output and does not start from it insists on the action's least
output. -/
theorem enforces_of_batch (h : Made a ctx before main) (hkind : a.kind = .batchedExchange)
    {output : Nat} (houtput : assetAt ctx.assets output = .ok ctx.tokenOut)
    (hout : a.lastHop.assetOut = output) (hin : a.firstHop.assetIn ≠ output) :
    main.Enforces a.minOut output ctx.tokenOut := by
  obtain ⟨b, most, rfl, -, hlimit⟩ := h.exists_limit_of_batch hkind houtput
  rw [if_neg hin, if_pos hout] at hlimit
  exact hlimit

theorem not_enforces_of_batch (h : Made a ctx before main) (hkind : a.kind = .batchedExchange)
    {output : Nat} (houtput : assetAt ctx.assets output = .ok ctx.tokenOut) {least : Int}
    (hpos : 0 < least) (hends : ¬(a.lastHop.assetOut = output ∧ a.firstHop.assetIn ≠ output)) :
    ¬main.Enforces least output ctx.tokenOut := by
  obtain ⟨b, most, rfl, hmost, hlimit⟩ := h.exists_limit_of_batch hkind houtput
  intro henforces
  rw [henforces, Option.some.injEq] at hlimit
  by_cases hin : a.firstHop.assetIn = output
  · rw [if_pos hin] at hlimit
    omega
  · rw [if_neg hin, if_neg fun hout => hends ⟨hout, hin⟩] at hlimit
    omega

end Made

end Action

end SwapRelay
