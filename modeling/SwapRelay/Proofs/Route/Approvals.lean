import SwapRelay.Proofs.Relayer.Approvals
import SwapRelay.Proofs.Route.Clock
import SwapRelay.Proofs.Route.References

/-!
# Approvals of share tokens are a pure addition

With approvals of share tokens on, a route compiles exactly if it does with them off, and to the
same calls but for the ones that allow the vault a share token: `compile_approving`. Each of these
stands right before the batch that spends the token, and it reads the amount from the slot that the
first step of the batch clears. The slot has been filled by an earlier call.

The last part is about one run only. It rests on what is known of any tagged number in a multicall,
that an earlier call stores it unless an earlier step of the same call writes it, and an approval
has no earlier step.
-/

namespace SwapRelay

namespace Route

variable {r : Route} {config : Config} {deadline : Int}

/-- What a scheduled action spends is a literal amount of the route's input, or read from a slot. -/
theorem fed_of_mem_schedule {ordered : List Action} (hschedule : r.schedule = .ok ordered)
    (hlit : ∀ hop ∈ r.hops, hop.amount.isLiteral = true) {a : Action} (ha : a ∈ ordered) :
    a.Fed (r.context config deadline) := by
  obtain ⟨actions, ends, -, hends, hwalk, rfl⟩ := schedule_eq_ok hschedule
  obtain ⟨run, hrun, rfl⟩ := List.mem_map.1 ha
  have hhead : run.head ∈ actions :=
    (Action.arranged_perm ends actions).mem_iff.1 (Action.mem_of_mem_runs hrun run.head_mem)
  constructor
  · intro n hliteral
    rw [Action.Run.firstHop_action] at hliteral ⊢
    rw [input_of_literal hwalk hhead hliteral]
    exact assetAt_input hends
  · intro s hchained
    rw [Action.Run.firstHop_action] at hchained
    exact (hwalk.plain hlit hhead).temporary s (Action.Run.read?_of_firstHop hchained)

theorem calls_announced (hassets : ∀ t ∈ r.assets, Form.address.holds t = true)
    (hlit : ∀ hop ∈ r.hops, hop.amount.isLiteral = true) :
    Except.Rel Eq Announced (r.calls (config.approving true) deadline)
      (r.calls (config.approving false) deadline) := by
  have hforms : ∀ t ∈ (r.context config deadline).assets, Form.address.holds t = true :=
    Form.holds_map_normalize hassets
  refine .after_eq _ fun ordered hordered => ?_
  refine .after_eq _ fun first hfirst => ?_
  have hparts : Except.Rel Eq (List.Forall₂ Announced)
      (ordered.mapM (·.calls (r.context (config.approving true) deadline)))
      (ordered.mapM (·.calls (r.context (config.approving false) deadline))) := by
    apply List.rel_mapM
    rw [List.forall₂_same]
    intro a ha
    have hfed : a.Fed (r.context config deadline) := fed_of_mem_schedule hordered hlit ha
    exact Action.calls_announced hforms hfed
  refine (hparts.bind fun parts others hrest => .ok (Announced.flatten hrest)).bind ?_
  intro rest others hrest
  refine .ok ((Announced.refl ?_).append hrest)
  intro c hc
  obtain ⟨-, relayer, signed, rfl⟩ := approval_eq_ok hfirst hc
  rfl

/-- The amount of an approval is the lasting flavour of a reference that an earlier call stores. -/
theorem stored_of_approveVault {calls front back : List (Call Bytes)} {token : Bytes} {amount : Int}
    (h : r.calls config deadline = .ok calls)
    (hlit : ∀ hop ∈ r.hops, hop.amount.isLiteral = true)
    (hcalls : calls = front ++ .approveVault token amount :: back) {key : Int}
    (hkey : (Reference.mk key false).value = .ok amount) :
    ∃ stored ∈ front.flatMap Call.stored, (Reference.mk key true).value = .ok stored := by
  rw [calls_eq] at h
  obtain ⟨emitted, hemitted, rfl⟩ := Except.map_eq_ok.1 h
  obtain ⟨actions, -, hground, -⟩ := allGrounded_emitted hemitted hlit
  obtain ⟨front', rest, rfl, rfl, hrest⟩ := List.map_eq_append_iff.1 hcalls
  obtain ⟨e, back', rfl, hcall, rfl⟩ := List.map_eq_cons_iff.1 hrest
  have hlater := (Emitted.allGrounded_append.1 hground).2
  rw [List.nil_append] at hlater
  have htag := Reference.isReference_of_value hkey
  have hamount : e.call.HasAmountAt amount 0 := by
    rw [hcall]
    exact ⟨rfl, rfl⟩
  obtain ⟨s, hs, w, hw, -, hsource⟩ := hlater.1 0 amount hamount htag
  cases (Reference.ofValue_of_value hkey).symm.trans hs
  refine ⟨w, ?_, hw⟩
  rw [List.flatMap_map]
  rcases hsource with hstored | ⟨j, hj, -⟩
  · exact hstored
  · exact absurd hj (Nat.not_lt_zero j)

end Route

namespace RouteRequest

theorem calls_announced {request : RouteRequest} (hvalid : request.Validated) (config : Config)
    (deadline : Int) :
    Except.Rel Eq Announced (request.calls (config.approving true) deadline)
      (request.calls (config.approving false) deadline) := by
  refine .after_eq _ fun route hroute => ?_
  have hlit := isLiteral_of_route hroute
  obtain ⟨_, _, _, _, -, rfl⟩ := route_eq_ok hroute
  exact Route.calls_announced hvalid.formed.tokens hlit

/-- With approvals of share tokens on and off, a checked request fails with the same error, or
compiles to the same calls once the approvals are left out. Each approval stands right before a
batch whose first step spends the approved token. It reads the amount from the slot that this step
reads and clears, and an earlier call has stored it there. -/
theorem compile_approving {request : RouteRequest} (hvalid : request.Validated) (config : Config)
    (deadline : Int) :
    (∃ e, request.compile (config.approving true) deadline = .error e ∧
        request.compile (config.approving false) deadline = .error e) ∨
      ∃ calls plain, request.calls (config.approving true) deadline = .ok calls ∧
        request.calls (config.approving false) deadline = .ok plain ∧
        request.compile (config.approving true) deadline = .ok (.ofCalls config.relayer calls) ∧
        request.compile (config.approving false) deadline = .ok (.ofCalls config.relayer plain) ∧
        calls.filter (!·.allowsVault) = plain ∧
        ∀ front token amount back, calls = front ++ .approveVault token amount :: back →
          ∃ b rest step, back = .batchSwap b :: rest ∧ b.steps.head? = some step ∧
            step.Spends b.assets token amount ∧ step.amount ∈ front.flatMap Call.stored := by
  have hrelayer : (config.approving true).relayer = (config.approving false).relayer := rfl
  rcases compile_rel hrelayer (calls_announced hvalid config deadline) with
    hfail | ⟨calls, plain, hcalls, hplain, hannounced, hon, hoff⟩
  · exact .inl hfail
  refine .inr ⟨calls, plain, hcalls, hplain, hon, hoff, hannounced.filter_eq, ?_⟩
  intro front token amount back hsplit
  obtain ⟨b, rest, hback, step, hstep, place, key, hin, htoken, hlasting, hslot⟩ :=
    hannounced.exists_batch hsplit
  obtain ⟨route, hroute, hcalls⟩ := Except.bind_eq_ok.1 hcalls
  obtain ⟨stored, hmem, hvalue⟩ :=
    Route.stored_of_approveVault hcalls (isLiteral_of_route hroute) hsplit hlasting
  obtain rfl : stored = step.amount := Except.ok.inj (hvalue.symm.trans hslot)
  exact ⟨b, rest, step, hback, hstep, ⟨place, key, hin, htoken, hlasting, hslot⟩, hmem⟩

theorem validated_depositThenSwap (swapped : Bool) : (depositThenSwap swapped).Validated := by
  cases swapped <;> exact validated_of_formed (by decide) (by decide) (by decide) (by decide)

/-- The shares of the deposit are approved before they are swapped. -/
theorem compile_approving_depositThenSwap :
    ∃ calls plain, (depositThenSwap true).Validated ∧
      calls.map Call.allowsVault = [false, true, false] ∧
      (depositThenSwap true).compile (Config.standard.approving true) 1700000000 =
        .ok (.ofCalls Config.standard.relayer calls) ∧
      (depositThenSwap true).compile (Config.standard.approving false) 1700000000 =
        .ok (.ofCalls Config.standard.relayer plain) ∧
      calls.filter (!·.allowsVault) = plain ∧
      ∀ front token amount back, calls = front ++ .approveVault token amount :: back →
        ∃ b rest step, back = .batchSwap b :: rest ∧ b.steps.head? = some step ∧
          step.Spends b.assets token amount ∧ step.amount ∈ front.flatMap Call.stored := by
  have hvalid := validated_depositThenSwap true
  obtain ⟨calls, hcalls, hkinds⟩ := Except.exists_of_any
    (x := (depositThenSwap true).calls (Config.standard.approving true) 1700000000)
    (·.map Call.allowsVault == [false, true, false]) (by decide +kernel)
  rcases compile_approving hvalid .standard 1700000000 with
    ⟨e, he, -⟩ | ⟨calls', plain, hcalls', -, hon, hoff, hfilter, hbehind⟩
  · have hok := compile_of_calls (by decide) hcalls
    rw [he] at hok
    cases hok
  · cases hcalls.symm.trans hcalls'
    exact ⟨calls, plain, hvalid, beq_iff_eq.1 hkinds, hon, hoff, hfilter, hbehind⟩

end RouteRequest

end SwapRelay
