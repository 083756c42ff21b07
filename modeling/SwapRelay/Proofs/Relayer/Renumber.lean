import SwapRelay.Proofs.Action.Renumber
import SwapRelay.Proofs.Relayer.Shares
import SwapRelay.Proofs.Relayer.Writable

/-!
# Calls with new places

Only a batch of swaps names its assets by their places on the route. A deposit or a withdrawal names
the token that moves by its place among the tokens of the pool, and an approval names it by its
address. So when the assets of the route change places, a batch has the new places in its steps and
its outputs, its assets and its limits in the new order, and nothing else is different
(`BatchSwap.Renumbered`); all other calls are the same, byte for byte. If no place is sent beyond
what a word holds, and none is brought back from there, the checks turn down as much as before:
`Action.calls_renumbered`.
-/

namespace SwapRelay

open Abi (Value)

variable {π : Equiv.Perm Nat}

/-- The steps are the same but for the places of their assets. -/
def BatchStep.Renumbered {Id : Type} (π : Equiv.Perm Nat) (s t : BatchStep Id) : Prop :=
  ∃ i o : Nat, s.assetIn = i ∧ s.assetOut = o ∧ t = { s with assetIn := π i, assetOut := π o }

/-- The stored outputs are the same but for the place of their asset. -/
def BatchSwap.OutputRenumbered (π : Equiv.Perm Nat) (p q : Int × Int) : Prop :=
  ∃ i : Nat, p.1 = (i : Int) ∧ q = ((π i : Int), p.2)

/-- The batches are the same but for the places of their assets. -/
structure BatchSwap.Renumbered {Id : Type} (π : Equiv.Perm Nat) (b c : BatchSwap Id) : Prop where
  kind : b.kind = c.kind
  steps : List.Forall₂ (BatchStep.Renumbered π) b.steps c.steps
  assets : Moved π b.assets c.assets
  funds : b.funds = c.funds
  limits : Moved π b.limits c.limits
  deadline : b.deadline = c.deadline
  value : b.value = c.value
  outputs : List.Forall₂ (OutputRenumbered π) b.outputs c.outputs

/-- The calls are one and the same, or they are batches that differ in the places of their assets. -/
inductive Call.Renumbered (π : Equiv.Perm Nat) : Call Bytes → Call Bytes → Prop
  | same {c : Call Bytes} (other : c.isBatchSwap = false) : Renumbered π c c
  | batch {b c : BatchSwap Bytes} (h : b.Renumbered π c) :
      Renumbered π (.batchSwap b) (.batchSwap c)

/-! ## Reading and checking -/

theorem Address.allBytes_moved {l m : List Text} (h : Moved π l m)
    (hform : ∀ t ∈ l, Form.address.holds t = true) :
    Except.Rel Eq (Moved π) (allBytes l) (allBytes m) := by
  obtain ⟨read, hread, -⟩ := exists_allBytes hform
  obtain ⟨moved, hmoved, -⟩ := exists_allBytes fun t ht => hform t (h.mem_iff.1 ht)
  rw [hread, hmoved]
  refine .ok fun i => ?_
  have hitem := (List.mapM_eq_ok.1 hread).rel_getElem? i
  have hitem' := (List.mapM_eq_ok.1 hmoved).rel_getElem? (π i)
  rw [h] at hitem'
  generalize l[i]? = t at hitem hitem'
  generalize read[i]? = bs at hitem
  generalize moved[π i]? = bs' at hitem'
  cases hitem with
  | none => cases hitem'; rfl
  | some hbs =>
      cases hitem' with
      | some hbs' => rw [Except.ok.inj (hbs'.symm.trans hbs)]

namespace BatchSwap

theorem read_renumbered {b c : BatchSwap Text} (h : b.Renumbered π c)
    (hassets : ∀ t ∈ b.assets, Form.address.holds t = true) :
    Except.Rel Eq (Renumbered π) b.read c.read := by
  have hsteps : Except.Rel Eq (List.Forall₂ (BatchStep.Renumbered π)) (b.steps.mapM readStep)
      (c.steps.mapM readStep) := by
    refine List.rel_mapM (h.steps.imp ?_)
    rintro s _ ⟨i, o, hi, ho, rfl⟩
    exact .after _ fun poolId => .ok ⟨i, o, hi, ho, rfl⟩
  refine hsteps.bind fun steps steps' hsteps => ?_
  refine (Address.allBytes_moved h.assets hassets).bind fun assets assets' hassets => ?_
  rw [← h.funds]
  refine .after _ fun sender => .after _ fun recipient => .ok ?_
  exact {
    kind := h.kind
    steps := hsteps
    assets := hassets
    funds := rfl
    limits := h.limits
    deadline := h.deadline
    value := h.value
    outputs := h.outputs }

end BatchSwap

theorem Moved.check_addresses {l m : List Bytes} (h : Moved π l m) :
    (Value.addresses l).check = (Value.addresses m).check := by
  refine Abi.checkAll_eq_of_mem_iff .addressLength ?_ ?_
  · intro v
    exact (h.map Value.address).mem_iff.symm
  · intro v hv fault hfault
    obtain ⟨bs, -, rfl⟩ := List.mem_map.1 hv
    exact Abi.fault_of_check_address hfault

theorem Moved.check_limits {l m : List Int} (h : Moved π l m) :
    (Value.array (l.map (.sint 256))).check = (Value.array (m.map (.sint 256))).check := by
  refine Abi.checkAll_eq_of_mem_iff .outOfBounds ?_ ?_
  · intro v
    exact (h.map (Value.sint 256)).mem_iff.symm
  · intro v hv fault hfault
    obtain ⟨n, -, rfl⟩ := List.mem_map.1 hv
    exact Abi.fault_of_check_sint hfault

section Checks

variable (hπ : ∀ i : Nat, Uint256.Fits (π i) ↔ Uint256.Fits i)

include hπ

theorem Abi.check_place (i : Nat) :
    (Value.uint 256 i).check = (Value.uint 256 (π i)).check :=
  Abi.check_uint_congr (hπ i).symm

theorem BatchStep.Renumbered.check_eq {s t : BatchStep Bytes} (h : s.Renumbered π t) :
    (Value.tuple [.word s.poolId, .uint 256 s.assetIn, .uint 256 s.assetOut, .uint 256 s.amount,
      .bytes s.userData]).check =
    (Value.tuple [.word t.poolId, .uint 256 t.assetIn, .uint 256 t.assetOut, .uint 256 t.amount,
      .bytes t.userData]).check := by
  obtain ⟨i, o, hi, ho, rfl⟩ := h
  rw [hi, ho]
  refine Abi.check_tuple_congr (.cons rfl ?_)
  exact .cons (Abi.check_place hπ i) (.cons (Abi.check_place hπ o) (.cons rfl (.cons rfl .nil)))

theorem BatchSwap.OutputRenumbered.check_eq {p q : Int × Int} (h : OutputRenumbered π p q) :
    (Value.tuple [.uint 256 p.1, .uint 256 p.2]).check =
      (Value.tuple [.uint 256 q.1, .uint 256 q.2]).check := by
  obtain ⟨i, hi, rfl⟩ := h
  rw [hi]
  exact Abi.check_tuple_congr (.cons (Abi.check_place hπ i) (.cons rfl .nil))

/-- The checks of a batch ask of its places whether they fit a word, and nothing of the order of its
assets and limits. -/
theorem BatchSwap.Renumbered.checkAll_eq {b c : BatchSwap Bytes} (h : b.Renumbered π c) :
    Value.checkAll (Call.batchSwap b).arguments = Value.checkAll (Call.batchSwap c).arguments := by
  apply Abi.checkAll_congr
  simp only [Call.arguments]
  rw [← h.kind, ← h.funds, ← h.deadline, ← h.value]
  refine .cons rfl (.cons (Abi.check_array_congr ?_) (.cons h.assets.check_addresses ?_))
  · rw [List.forall₂_map_left_iff, List.forall₂_map_right_iff]
    exact h.steps.imp fun _ _ hstep => hstep.check_eq hπ
  · refine .cons rfl (.cons h.limits.check_limits (.cons rfl (.cons rfl (.cons ?_ .nil))))
    refine Abi.check_array_congr ?_
    rw [List.forall₂_map_left_iff, List.forall₂_map_right_iff]
    exact h.outputs.imp fun _ _ houtput => houtput.check_eq hπ

theorem Call.checked_renumbered {b c : BatchSwap Bytes} (h : b.Renumbered π c) :
    Except.Rel Eq (Call.Renumbered π) (Call.batchSwap b).checked (Call.batchSwap c).checked := by
  simp only [checked]
  rw [← h.checkAll_eq hπ]
  split
  · exact .ok (.batch h)
  · exact .error rfl

theorem Call.prepare_renumbered {b c : BatchSwap Text} (h : b.Renumbered π c)
    (hassets : ∀ t ∈ b.assets, Form.address.holds t = true) :
    Except.Rel Eq (Call.Renumbered π) (Call.prepare (.batchSwap b))
      (Call.prepare (.batchSwap c)) := by
  have hread : Except.Rel Eq (fun made other => ∃ b c : BatchSwap Bytes,
      b.Renumbered π c ∧ made = .batchSwap b ∧ other = .batchSwap c)
      (Call.read (.batchSwap b)) (Call.read (.batchSwap c)) :=
    (BatchSwap.read_renumbered h hassets).map fun b c hbc => ⟨b, c, hbc, rfl, rfl⟩
  refine hread.bind ?_
  rintro _ _ ⟨b, c, hbc, rfl, rfl⟩
  exact checked_renumbered hπ hbc

end Checks

namespace Action

variable {ctx : Context} {assets : List Text} (h : Moved π ctx.assets assets) (a : Action)

include h

/-! ## Deposits and withdrawals -/

theorem joinCall_renumber : (a.renumber π).joinCall { ctx with assets } = a.joinCall ctx := by
  have houtput : joinOutput (a.outputs.map (·.renumber π)) = joinOutput a.outputs := by
    cases a.outputs <;> rfl
  have htoken : assetAt assets (π a.firstHop.assetIn) = assetAt ctx.assets a.firstHop.assetIn :=
    assetAt_moved h _
  simp only [joinCall]
  rw [firstHop_renumber]
  simp only [Hop.renumber, renumber, houtput, htoken]
  rfl

theorem exitCall_renumber : (a.renumber π).exitCall { ctx with assets } = a.exitCall ctx := by
  have htoken : assetAt assets (π a.firstHop.assetOut) = assetAt ctx.assets a.firstHop.assetOut :=
    assetAt_moved h _
  simp only [exitCall]
  rw [firstHop_renumber]
  simp only [Hop.renumber, renumber, htoken, List.mapM_map]
  rfl

/-! ## Batches -/

omit h in
theorem inputLimit_renumber (tokenIn : Text) :
    (a.renumber π).inputLimit { ctx with assets } tokenIn = a.inputLimit ctx tokenIn := by
  simp only [inputLimit, approvalCalls]
  rw [firstHop_renumber]
  rfl

omit h in
theorem mapM_batchStep_renumber (hops : List Hop) :
    Except.Rel Eq (List.Forall₂ (BatchStep.Renumbered π)) (hops.mapM batchStep)
      ((hops.map (·.renumber π)).mapM batchStep) := by
  apply List.rel_mapM
  rw [List.forall₂_map_right_iff, List.forall₂_same]
  intro hop _
  exact .after _ fun amount => .ok ⟨hop.assetIn, hop.assetOut, rfl, rfl, rfl⟩

omit h in
theorem mapM_output_renumber (outputs : List OutputReference) :
    Except.Rel Eq (List.Forall₂ (BatchSwap.OutputRenumbered π))
      (outputs.mapM fun output => output.key.value.map ((output.index : Int), ·))
      ((outputs.map (·.renumber π)).mapM fun output =>
        output.key.value.map ((output.index : Int), ·)) := by
  apply List.rel_mapM
  rw [List.forall₂_map_right_iff, List.forall₂_same]
  intro output _
  exact .map_eq fun key _ => ⟨output.index, rfl, rfl⟩

theorem limits_moved (input output : Nat) (least most : Int) :
    Moved π ((amountAt ctx.assets.length output least).set input most)
      ((amountAt assets.length (π output) least).set (π input) most) := by
  have hzeros : Moved π (List.replicate ctx.assets.length (0 : Int))
      (List.replicate assets.length 0) := by
    rw [← List.map_const', ← List.map_const']
    exact h.map fun _ => 0
  exact (hzeros.set output least).set input most

variable (hassets : ∀ t ∈ ctx.assets, Form.address.holds t = true)
  (hπ : ∀ i : Nat, Uint256.Fits (π i) ↔ Uint256.Fits i)

include hassets hπ

theorem swapCalls_renumbered :
    Except.Rel Eq (List.Forall₂ (Call.Renumbered π)) (a.swapCalls ctx)
      ((a.renumber π).swapCalls { ctx with assets }) := by
  have hin : assetAt assets (π a.firstHop.assetIn) = assetAt ctx.assets a.firstHop.assetIn :=
    assetAt_moved h _
  have hout : assetAt assets (π a.lastHop.assetOut) = assetAt ctx.assets a.lastHop.assetOut :=
    assetAt_moved h _
  simp only [swapCalls]
  rw [firstHop_renumber, lastHop_renumber]
  simp only [Hop.renumber, hin, hout, inputLimit_renumber]
  refine .after _ fun tokenIn => .after _ fun tokenOut => ?_
  refine .after _ fun least => .after_eq _ fun limit hbefore => ?_
  obtain ⟨before, most⟩ := limit
  refine (mapM_batchStep_renumber a.hops).bind fun steps steps' hsteps => ?_
  refine (mapM_output_renumber a.outputs).bind fun outputs outputs' houtputs => ?_
  refine (Call.prepare_renumbered hπ ?_ ?_).bind fun call other hcall => .ok ?_
  · exact {
      kind := rfl
      steps := hsteps
      assets := h
      funds := rfl
      limits := limits_moved h _ _ least most
      deadline := rfl
      value := rfl
      outputs := houtputs }
  · exact hassets
  · refine List.rel_append (List.forall₂_same.2 fun c hc => .same ?_) (.cons hcall .nil)
    obtain ⟨-, token, value, r, rfl, -⟩ := before_of_inputLimit hbefore hc
    rfl

/-- An action with new places has the same calls, but for the new places in its batches, or the same
error. -/
theorem calls_renumbered :
    Except.Rel Eq (List.Forall₂ (Call.Renumbered π)) (a.calls ctx)
      ((a.renumber π).calls { ctx with assets }) := by
  refine calls_rel rfl (joinCall_renumber h a).symm (exitCall_renumber h a).symm (fun _ => ?_)
    (fun _ => ?_) ?_
  · exact .cons (.same rfl) .nil
  · exact .cons (.same rfl) .nil
  · exact swapCalls_renumbered h a hassets hπ

end Action

end SwapRelay
