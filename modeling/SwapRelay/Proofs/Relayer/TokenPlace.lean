import SwapRelay.Proofs.Pool.Message
import SwapRelay.Proofs.Relayer.Bounds

/-!
# A deposit or a withdrawal names its token by one place

A deposit or a withdrawal lists the tokens of its pool in the pool's order and moves one of them.
The place of this token in the list is used three times: for the one amount that is not zero, for
the token that the message to the pool names, and for the outputs of a withdrawal. It is neither the
token's place among the assets of the route nor its place in the pool as it was registered.
`JoinedAt` and `ExitedAt` say that it is the same place each time, and where the hop's amount and
the least output go for the two types of swap.
-/

namespace SwapRelay.Action

/-- The call lists the tokens of the pool in their order, has this token at this place, and states
an amount for it and zero for all others. -/
structure Names (config : Config) (pool : Pool) (token : Text) (place : Nat) (moved : Int)
    (assets : List Bytes) (amounts : List Int) : Prop where
  listed : ∃ tokens t, Pool.sortTokens config.wrappedNative pool.tokens = .ok tokens ∧
    Address.allBytes tokens = .ok assets ∧ tokens[place]? = some t ∧ Address.same t token = true
  account : ∃ bs, Address.bytes token = .ok bs ∧ assets[place]? = some bs
  length : amounts.length = assets.length
  moved : amounts[place]? = some moved
  others : ∀ (i : Nat) (n : Int), amounts[i]? = some n → i ≠ place → n = 0

/-- A deposit names its token by this place, and holds the hop's amount and the least output where
the type of the swap has them. -/
structure JoinedAt (a : Action) (ctx : Context) (pool : Pool) (token : Text) (place : Nat)
    (amount : Int) (p : PoolJoin Bytes) : Prop where
  known : ctx.registry.get a.firstHop.poolId = .ok pool
  paid : assetAt ctx.assets a.firstHop.assetIn = .ok token
  resolved : a.firstHop.amount.resolve = .ok amount
  bounded : a.resolvedMinOut = .ok a.minOut
  exactIn : ctx.swapType = .exactIn →
    Names ctx.config pool token place amount p.assets p.maxAmounts ∧
      (PoolUserData.joinExactIn p.maxAmounts a.minOut).encode = .ok p.userData
  exactOut : ctx.swapType = .exactOut →
    Names ctx.config pool token place a.minOut p.assets p.maxAmounts ∧
      (PoolUserData.joinExactOut amount place).encode = .ok p.userData
  output : match a.outputs with
    | [] => p.output = 0
    | first :: _ => first.key.value = .ok p.output

/-- A withdrawal names its token by this place, and holds the hop's amount and the least output
where the type of the swap has them. -/
structure ExitedAt (a : Action) (ctx : Context) (pool : Pool) (token : Text) (place : Nat)
    (amount : Int) (p : PoolExit Bytes) : Prop where
  known : ctx.registry.get a.firstHop.poolId = .ok pool
  paid : assetAt ctx.assets a.firstHop.assetOut = .ok token
  resolved : a.firstHop.amount.resolve = .ok amount
  bounded : a.resolvedMinOut = .ok a.minOut
  exactIn : ctx.swapType = .exactIn →
    Names ctx.config pool token place a.minOut p.assets p.minAmounts ∧
      (PoolUserData.exitExactIn amount place).encode = .ok p.userData
  exactOut : ctx.swapType = .exactOut →
    Names ctx.config pool token place amount p.assets p.minAmounts ∧
      (PoolUserData.exitExactOut p.minAmounts a.minOut).encode = .ok p.userData
  outputs : List.Forall₂ (fun output pair => output.key.value = .ok pair.2 ∧ pair.1 = (place : Int))
    a.outputs p.outputs

variable {a : Action} {ctx : Context}

theorem names_of_placed {config : Config} {pool : Pool} {tokens : List Text} {token : Text}
    {place : Nat} {assets : List Bytes}
    (hsorted : Pool.sortTokens config.wrappedNative pool.tokens = .ok tokens)
    (hassets : Address.allBytes tokens = .ok assets) (hplaced : placeOf tokens token = .ok place)
    (moved : Int) :
    Names config pool token place moved assets (amountAt tokens.length place moved) := by
  obtain ⟨t, ht, hsame⟩ := placeOf_eq_ok hplaced
  have hlength := (List.mapM_eq_ok.1 hassets).length_eq
  refine ⟨⟨tokens, t, hsorted, hassets, ht, hsame⟩,
    Address.exists_getElem?_allBytes hassets ht hsame, ?_, ?_, ?_⟩
  · rw [length_amountAt, hlength]
  · rw [getElem?_amountAt (List.getElem?_eq_some_iff.1 ht).1, if_pos rfl]
  · intro i n hn hne
    exact (eq_of_getElem?_amountAt hn).trans (if_neg hne.symm)

theorem JoinPlan.joinedAt {p : PoolJoin Bytes} (plan : JoinPlan a ctx p) :
    JoinedAt a ctx plan.pool plan.token plan.place plan.amount p := by
  have hnames := names_of_placed plan.sorted plan.assets plan.placed
  have hamounts := plan.amounts_eq
  have hencoded := plan.encoded
  refine ⟨plan.known, plan.paid, plan.resolved, plan.bounded, ?_, ?_, ?_⟩
  · intro hswap
    rw [hswap, joinAmounts] at hamounts hencoded
    rw [hamounts]
    exact ⟨hnames plan.amount, hencoded⟩
  · intro hswap
    rw [hswap, joinAmounts] at hamounts hencoded
    rw [hamounts]
    exact ⟨hnames a.minOut, hencoded⟩
  · have hstored := plan.stored
    cases houtputs : a.outputs with
    | nil =>
        rw [houtputs] at hstored
        exact (Except.ok.inj hstored).symm
    | cons first rest =>
        rw [houtputs] at hstored
        exact hstored

theorem ExitPlan.exitedAt {p : PoolExit Bytes} (plan : ExitPlan a ctx p) :
    ExitedAt a ctx plan.pool plan.token plan.place plan.amount p := by
  have hnames := names_of_placed plan.sorted plan.assets plan.placed
  have hamounts := plan.amounts_eq
  have hencoded := plan.encoded
  refine ⟨plan.known, plan.paid, plan.resolved, plan.bounded, ?_, ?_, plan.stored⟩
  · intro hswap
    rw [hswap, exitAmounts] at hamounts hencoded
    rw [hamounts]
    exact ⟨hnames a.minOut, hencoded⟩
  · intro hswap
    rw [hswap, exitAmounts] at hamounts hencoded
    rw [hamounts]
    exact ⟨hnames plan.amount, hencoded⟩

/-- Whatever the type of the swap, a deposit or a withdrawal that is made has one place for the
token that it moves. -/
theorem poolCall_places (a : Action) (ctx : Context) :
    (∀ c, a.joinCall ctx = .ok c →
      ∃ p pool token place amount, c = .joinPool p ∧ JoinedAt a ctx pool token place amount p) ∧
    ∀ c, a.exitCall ctx = .ok c →
      ∃ p pool token place amount, c = .exitPool p ∧ ExitedAt a ctx pool token place amount p := by
  constructor
  · intro c h
    obtain ⟨p, rfl, ⟨plan⟩⟩ := joinCall_eq_ok h
    exact ⟨p, _, _, _, _, rfl, plan.joinedAt⟩
  · intro c h
    obtain ⟨p, rfl, ⟨plan⟩⟩ := exitCall_eq_ok h
    exact ⟨p, _, _, _, _, rfl, plan.exitedAt⟩

/-- A route through one pool, whose native asset is registered first and stands last in the pool's
order. -/
def nativeContext (swapType : SwapType) : Context :=
  let address (digit : Char) : Text := '0' :: 'x' :: List.replicate 40 digit
  { assets := [Address.native, address 'c']
    tokenIn := Address.native
    tokenOut := address 'c'
    swapAmount := 1000
    user := address '7'
    swapType := swapType
    registry :=
      ⟨[⟨'0' :: 'x' :: List.replicate 64 'c', address 'c', [Address.native, address '1']⟩]⟩
    config := .standard
    deadline := 1700000000 }

def depositNative : Action :=
  .single .deposit ⟨'0' :: 'x' :: List.replicate 64 'c', 0, 1, .literal 1000, []⟩
    [⟨1, .slot 0⟩] 990

def withdrawNative : Action :=
  .single .withdrawal ⟨'0' :: 'x' :: List.replicate 64 'c', 1, 0, .chained (.slot 0), []⟩
    [⟨0, .slot 1⟩] 990

/-- The amounts that a call states for the tokens of a pool. -/
def tokenAmounts : Call Bytes → List Int
  | .joinPool p => p.maxAmounts
  | .exitPool p => p.minAmounts
  | _ => []

theorem poolCall_places_native :
    (∃ p pool token place amount,
      depositNative.joinCall (nativeContext .exactOut) = .ok (.joinPool p) ∧
        p.maxAmounts = [0, 990] ∧
        JoinedAt depositNative (nativeContext .exactOut) pool token place amount p) ∧
    ∃ p pool token place amount,
      withdrawNative.exitCall (nativeContext .exactIn) = .ok (.exitPool p) ∧
        p.minAmounts = [0, 990] ∧
        ExitedAt withdrawNative (nativeContext .exactIn) pool token place amount p := by
  obtain ⟨c, hjoin, htest⟩ := Except.exists_of_any
    (x := depositNative.joinCall (nativeContext .exactOut)) (tokenAmounts · == [0, 990])
    (by decide +kernel)
  obtain ⟨d, hexit, htest'⟩ := Except.exists_of_any
    (x := withdrawNative.exitCall (nativeContext .exactIn)) (tokenAmounts · == [0, 990])
    (by decide +kernel)
  obtain ⟨p, pool, token, place, amount, rfl, hjoined⟩ := (poolCall_places ..).1 c hjoin
  obtain ⟨q, pool', token', place', amount', rfl, hexited⟩ := (poolCall_places ..).2 d hexit
  exact ⟨⟨p, pool, token, place, amount, hjoin, eq_of_beq htest, hjoined⟩,
    ⟨q, pool', token', place', amount', hexit, eq_of_beq htest', hexited⟩⟩

end SwapRelay.Action
