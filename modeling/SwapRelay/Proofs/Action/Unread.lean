import SwapRelay.Proofs.Action.Congruence
import SwapRelay.Relayer.Plan

/-!
# What of a hop is never read

The amount of a hop counts only where the hop starts from the route's input: the walk over the hops
puts a reference in the place of any other. The user data counts only where the hop is a swap: for a
deposit or a withdrawal the message to the pool is written anew. Hops that differ in nothing else
(`Hop.Agree`) are made into actions that differ in the user data of deposits and withdrawals at most
(`Action.Agree`). Such actions are scheduled alike, since a batch is made of swaps only, and their
calls are the same.
-/

namespace SwapRelay

/-- What the hop does at its pool. -/
def Hop.kindIn (hop : Hop) (registry : Registry) (assets : List Text) :
    Except Error ActionKind := do
  let pool ← registry.get hop.poolId
  hop.classify assets pool.address

/-- The hops differ at most in what is not read, given the place of the route's input. -/
inductive Hop.Agree (registry : Registry) (assets : List Text) (input : Option Nat) (hop : Hop) :
    Hop → Prop
  | mk (amount : Amount) (userData : Bytes)
      (hamount : input = some hop.assetIn → amount = hop.amount)
      (hdata : hop.kindIn registry assets = .ok .exchange → userData = hop.userData) :
      Agree registry assets input hop { hop with amount, userData }

namespace Action

/-- The actions are the same but for the user data of a deposit or a withdrawal. -/
inductive Agree : Action → Action → Prop
  | same (a : Action) : Agree a a
  | poolOperation {kind : ActionKind} (h : kind.isPoolOperation = true) (hop : Hop)
      (userData : Bytes) (outputs : List OutputReference) (minOut : Int) :
      Agree (single kind hop outputs minOut) (single kind { hop with userData } outputs minOut)

namespace Agree

variable {a b : Action}

theorem eq_of_isExchange (h : Agree a b) (hswap : a.kind.isExchange = true) : a = b := by
  cases h with
  | same => rfl
  | poolOperation hkind =>
      rw [single, ActionKind.isExchange, hkind] at hswap
      cases hswap

/-- What is batched are swaps, and swaps that agree are the same. -/
theorem congruence (ends : Ends) : Congruence ends ends Agree where
  kind h := by cases h <;> rfl
  place h := by cases h <;> rfl
  toBatch h hswap := by
    rw [h.eq_of_isExchange hswap]
    exact .same _
  merge hab hcd hswap hswap' := by
    rw [hab.eq_of_isExchange hswap, hcd.eq_of_isExchange hswap']
    exact .same _

/-- Neither a deposit nor a withdrawal looks at the user data of its hop. -/
theorem calls_eq (h : Agree a b) (ctx : Context) : a.calls ctx = b.calls ctx := by
  cases h with
  | same => rfl
  | @poolOperation kind hkind hop userData outputs minOut =>
      cases kind with
      | deposit => rfl
      | withdrawal => rfl
      | exchange => cases hkind
      | batchedExchange => cases hkind

end Agree

section Walk

variable {frame : Frame} {g h : Hop}
  (hgh : Hop.Agree frame.registry frame.assets (some frame.ends.input) g h)

include hgh

theorem chainedAmount_eq (position keys : Nat) :
    chainedAmount frame position keys g = chainedAmount frame position keys h := by
  cases hgh with
  | mk amount userData hamount _ =>
      simp only [chainedAmount]
      split
      · next hin => rw [hamount (congrArg some hin.symm)]
      · rfl

theorem agree_single {kind : ActionKind}
    (hkind : g.kindIn frame.registry frame.assets = .ok kind) (hne : kind ≠ .batchedExchange)
    (amount : Amount) (outputs : List OutputReference) (minOut : Int) :
    Agree (single kind { g with amount } outputs minOut)
      (single kind { h with amount } outputs minOut) := by
  cases hgh with
  | mk _ userData _ hdata =>
      cases kind with
      | exchange =>
          rw [hdata hkind]
          exact .same _
      | deposit => exact .poolOperation rfl { g with amount } userData outputs minOut
      | withdrawal => exact .poolOperation rfl { g with amount } userData outputs minOut
      | batchedExchange => exact absurd rfl hne

theorem isLast_eq : frame.isLast g = frame.isLast h := by
  cases hgh
  rfl

theorem ofHop_rel (position keys : Nat) :
    Except.Rel Eq Agree (ofHop frame position keys g) (ofHop frame position keys h) := by
  have hamount := chainedAmount_eq hgh position keys
  have hsingle := @agree_single frame g h hgh
  cases hgh
  -- The kind is asked of the place of the tokens and the pool's id, which both hops have in common.
  refine .after_eq _ fun pool hpool => .after_eq _ fun kind hkind => ?_
  have hagree := hsingle (Except.bind_eq_ok.2 ⟨pool, hpool, hkind⟩) (Hop.classify_ne_batched hkind)
  rw [hamount]
  refine .after _ fun amount => ?_
  show Except.Rel Eq Agree (if frame.isLast g then _ else _) (if frame.isLast g then _ else _)
  split
  · exact .ok (hagree amount [] frame.minOut)
  · exact .ok (hagree amount [⟨g.assetOut, ⟨keys, true⟩⟩] 0)

end Walk

end Action

end SwapRelay
