import SwapRelay.Proofs.Action.Walk
import SwapRelay.Proofs.Pool.Message
import SwapRelay.Proofs.Relayer.Plan

/-!
# The amounts and the references of a call

A call holds numbers in places where the relayer takes a tagged number for a reference, and it names
the values under which it stores what it yields. `HasAmountAt` and `stored` read both off a finished
call. `Made.reads` goes back from a tagged number to the hop whose amount was that reference, and
`Made.stored_values` from the stored values to the references that the action writes.
-/

namespace SwapRelay

namespace Call

/-- The number stands where the call takes an amount: in the step of a batch at this place, or at
place zero of any other call. The amounts in a message to a pool count as well. -/
def HasAmountAt (n : Int) (i : Nat) : Call Bytes → Prop
  | .batchSwap b => ∃ step, b.steps[i]? = some step ∧ step.amount = n
  | .joinPool p => i = 0 ∧
      (n ∈ p.maxAmounts ∨ ∃ m : PoolUserData, m.encode = .ok p.userData ∧ n ∈ m.amounts)
  | .exitPool p => i = 0 ∧
      (n ∈ p.minAmounts ∨ ∃ m : PoolUserData, m.encode = .ok p.userData ∧ n ∈ m.amounts)
  | .approveVault _ amount => i = 0 ∧ amount = n
  | .setRelayerApproval .. | .peekReference _ => False

/-- The values of the references under which the call stores its outputs. -/
def stored : Call Bytes → List Int
  | .batchSwap b => b.outputs.map Prod.snd
  | .joinPool p => if p.output = 0 then [] else [p.output]
  | .exitPool p => p.outputs.map Prod.snd
  | .setRelayerApproval .. | .approveVault .. | .peekReference _ => []

end Call

namespace Action

variable {a : Action} {ctx : Context}

theorem mem_amountAt {length place : Nat} {amount n : Int} (h : n ∈ amountAt length place amount) :
    n = 0 ∨ n = amount := by
  rcases List.mem_or_eq_of_mem_set h with h | h
  · exact .inl (List.eq_of_mem_replicate h)
  · exact .inr h

theorem amounts_join {swapType : SwapType} {length place : Nat} {amount minOut n : Int}
    (h : n ∈ (joinAmounts swapType length place amount minOut).1 ∨
      n ∈ (joinAmounts swapType length place amount minOut).2.amounts) :
    n = 0 ∨ n = minOut ∨ n = amount := by
  cases swapType with
  | exactIn =>
      rcases h with h | h
      · exact (mem_amountAt h).imp_right .inr
      · rcases List.mem_cons.1 h with h | h
        · exact .inr (.inl h)
        · exact (mem_amountAt h).imp_right .inr
  | exactOut =>
      rcases h with h | h
      · exact (mem_amountAt h).imp_right .inl
      · exact .inr (.inr (List.mem_singleton.1 h))

theorem amounts_exit {swapType : SwapType} {length place : Nat} {amount minOut n : Int}
    (h : n ∈ (exitAmounts swapType length place amount minOut).1 ∨
      n ∈ (exitAmounts swapType length place amount minOut).2.amounts) :
    n = 0 ∨ n = minOut ∨ n = amount := by
  cases swapType with
  | exactIn =>
      rcases h with h | h
      · exact (mem_amountAt h).imp_right .inl
      · exact .inr (.inr (List.mem_singleton.1 h))
  | exactOut =>
      rcases h with h | h
      · exact (mem_amountAt h).imp_right .inr
      · rcases List.mem_cons.1 h with h | h
        · exact .inr (.inl h)
        · exact (mem_amountAt h).imp_right .inr

/-- The amounts read off a call are those it was planned with, since a message is known by its
bytes. -/
theorem amounts_of_encoded {planned : List Int × PoolUserData} {amounts : List Int} {data : Bytes}
    (hamounts : amounts = planned.1) (hencoded : planned.2.encode = .ok data) {n : Int}
    (h : n ∈ amounts ∨ ∃ m : PoolUserData, m.encode = .ok data ∧ n ∈ m.amounts) :
    n ∈ planned.1 ∨ n ∈ planned.2.amounts := by
  rcases h with h | ⟨m, hm, h⟩
  · rw [hamounts] at h
    exact .inl h
  · rw [PoolUserData.encode_injective hm hencoded] at h
    exact .inr h

/-- Of zero, a bound and an amount that were written, only the amount can be tagged. -/
theorem chained_of_tagged {amount : Amount} {n written : Int}
    (htag : Reference.isReference n = true) (hbound : a.resolvedMinOut = .ok a.minOut)
    (hresolved : amount.resolve = .ok written) (h : n = 0 ∨ n = a.minOut ∨ n = written) :
    ∃ r, amount = .chained r ∧ r.value = .ok n := by
  rcases h with rfl | rfl | rfl
  · exact absurd htag (by decide)
  · rw [(Amount.resolve_literal_eq_ok.1 hbound).2.2] at htag
    cases htag
  · exact Amount.chained_of_isReference hresolved htag

namespace Made

variable {before : List (Call Bytes)} {main : Call Bytes}

/-- A tagged number in a call is the value of a reference that the hop at its place reads. -/
theorem reads (h : Made a ctx before main) {i : Nat} {n : Int} (hn : main.HasAmountAt n i)
    (htag : Reference.isReference n = true) :
    ∃ hop r, a.hops[i]? = some hop ∧ hop.amount = .chained r ∧ r.value = .ok n := by
  cases h with
  | join hkind plan =>
      obtain ⟨rfl, hn⟩ := hn
      have hne : a.kind ≠ .batchedExchange := by rw [hkind]; decide
      refine ⟨a.firstHop, ?_⟩
      rw [hops_eq_singleton hne]
      have hplanned := amounts_join (amounts_of_encoded plan.amounts_eq plan.encoded hn)
      obtain ⟨r, hr⟩ := chained_of_tagged htag plan.bounded plan.resolved hplanned
      exact ⟨r, rfl, hr⟩
  | exit hkind plan =>
      obtain ⟨rfl, hn⟩ := hn
      have hne : a.kind ≠ .batchedExchange := by rw [hkind]; decide
      refine ⟨a.firstHop, ?_⟩
      rw [hops_eq_singleton hne]
      have hplanned := amounts_exit (amounts_of_encoded plan.amounts_eq plan.encoded hn)
      obtain ⟨r, hr⟩ := chained_of_tagged htag plan.bounded plan.resolved hplanned
      exact ⟨r, rfl, hr⟩
  | swap hkind plan =>
      obtain ⟨step, hstep, rfl⟩ := hn
      obtain ⟨hop, hhop, hwritten⟩ := plan.steps.exists_of_getElem? hstep
      obtain ⟨r, hr⟩ := Amount.chained_of_isReference hwritten.amount htag
      exact ⟨hop, r, hhop, hr⟩

theorem stored_values (h : Made a ctx before main)
    (hone : a.kind = .deposit → a.outputs.length ≤ 1) :
    List.Forall₂ (fun r n => r.value = .ok n) a.keys main.stored := by
  cases h with
  | join hkind plan =>
      have hstored := plan.stored
      have hone := hone hkind
      unfold keys Call.stored
      cases houtputs : a.outputs with
      | nil =>
          rw [houtputs] at hstored
          have hzero := Except.ok.inj hstored
          dsimp only
          rw [if_pos hzero.symm]
          exact .nil
      | cons output rest =>
          rw [houtputs] at hstored hone
          obtain rfl : rest = [] := List.length_eq_zero_iff.1 (by simpa using hone)
          have htag := Reference.isReference_of_value hstored
          dsimp only
          rw [if_neg]
          · exact .cons hstored .nil
          · intro hzero
            rw [hzero] at htag
            exact absurd htag (by decide)
  | exit _ plan =>
      simp only [keys, Call.stored]
      rw [List.forall₂_map_left_iff, List.forall₂_map_right_iff]
      exact plan.stored.imp fun _ _ hpair => hpair.1
  | swap _ plan =>
      simp only [keys, Call.stored]
      rw [List.forall₂_map_left_iff, List.forall₂_map_right_iff]
      exact plan.stored.imp fun _ _ hpair => hpair.1

end Made

end Action

end SwapRelay
