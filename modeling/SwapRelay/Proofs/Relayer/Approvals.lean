import SwapRelay.Proofs.Relayer.Bounds
import SwapRelay.Proofs.Relayer.Writable

/-!
# What the approvals of share tokens add

A batch that spends a share token between two calls may be announced: a call in front of it allows
the vault the amount that the batch spends first. Whether this is done is a setting, and nothing but
the announcements depends on it (`Action.calls_announced`). An announcement has two ways to fail. It
fails for a literal amount, but a batch that starts with one starts from the route's input, which is
never announced; and it fails for a key without a value, but then the first step of the batch fails
for the same key.
-/

namespace SwapRelay

/-- The configuration with approvals of share tokens on or off. -/
def Config.approving (config : Config) (on : Bool) : Config :=
  { config with approveShareTokens := on }

def Context.approving (ctx : Context) (on : Bool) : Context :=
  { ctx with config := ctx.config.approving on }

/-- The call allows the vault a token. -/
def Call.allowsVault : Call Bytes → Bool
  | .approveVault .. => true
  | _ => false

/-- The step spends the token, and takes the amount from the slot whose lasting flavour is the given
number. -/
def BatchStep.Spends (step : BatchStep Bytes) (assets : List Bytes) (token : Bytes)
    (amount : Int) : Prop :=
  ∃ (place : Nat) (key : Int), step.assetIn = place ∧ assets[place]? = some token ∧
    (Reference.mk key false).value = .ok amount ∧ (Reference.mk key true).value = .ok step.amount

def BatchSwap.SpendsFirst (b : BatchSwap Bytes) (token : Bytes) (amount : Int) : Prop :=
  ∃ step, b.steps.head? = some step ∧ step.Spends b.assets token amount

/-- The calls on the left are those on the right with some batches announced: right before such a
batch the vault is allowed what the batch spends first. -/
inductive Announced : List (Call Bytes) → List (Call Bytes) → Prop
  | nil : Announced [] []
  | same {c : Call Bytes} {calls plain : List (Call Bytes)} (other : c.allowsVault = false)
    (tail : Announced calls plain) : Announced (c :: calls) (c :: plain)
  | batch {token : Bytes} {amount : Int} {b : BatchSwap Bytes} {calls plain : List (Call Bytes)}
    (spends : b.SpendsFirst token amount) (tail : Announced calls plain) :
    Announced (.approveVault token amount :: .batchSwap b :: calls) (.batchSwap b :: plain)

namespace Announced

theorem refl {calls : List (Call Bytes)} (h : ∀ c ∈ calls, c.allowsVault = false) :
    Announced calls calls := by
  induction calls with
  | nil => exact .nil
  | cons c rest ih =>
      obtain ⟨hc, hrest⟩ := List.forall_mem_cons.1 h
      exact .same hc (ih hrest)

theorem append {front front' back back' : List (Call Bytes)} (hfront : Announced front front')
    (hback : Announced back back') : Announced (front ++ back) (front' ++ back') := by
  induction hfront with
  | nil => exact hback
  | same hc _ ih => exact .same hc ih
  | batch hspends _ ih => exact .batch hspends ih

theorem flatten {parts parts' : List (List (Call Bytes))}
    (h : List.Forall₂ Announced parts parts') : Announced parts.flatten parts'.flatten := by
  induction h with
  | nil => exact .nil
  | cons hpart _ ih => exact hpart.append ih

/-- Without the announcements the calls on the right are left. -/
theorem filter_eq {calls plain : List (Call Bytes)} (h : Announced calls plain) :
    calls.filter (!·.allowsVault) = plain := by
  induction h with
  | nil => rfl
  | same hc _ ih => rw [List.filter_cons_of_pos (by rw [hc]; rfl), ih]
  | batch _ _ ih =>
      rw [List.filter_cons_of_neg Bool.false_ne_true, List.filter_cons_of_pos rfl, ih]

/-- Behind an announcement comes the batch. -/
theorem exists_batch {calls plain front back : List (Call Bytes)} {token : Bytes} {amount : Int}
    (h : Announced calls plain) (hcalls : calls = front ++ .approveVault token amount :: back) :
    ∃ b rest, back = .batchSwap b :: rest ∧ b.SpendsFirst token amount := by
  induction h generalizing front with
  | nil => cases front <;> cases hcalls
  | same hc _ ih =>
      cases front with
      | nil =>
          cases hcalls
          cases hc
      | cons d front => exact ih (List.cons.inj hcalls).2
  | batch hspends _ ih =>
      rcases front with _ | ⟨d, _ | ⟨d', front⟩⟩
      · cases hcalls
        exact ⟨_, _, rfl, hspends⟩
      · cases (List.cons.inj (List.cons.inj hcalls).2).1
      · exact ih (List.cons.inj (List.cons.inj hcalls).2).2

end Announced

/-- A batch that was made has its steps and its assets as they were planned. -/
theorem Call.prepare_batchSwap_eq_ok {c : BatchSwap Text} {made : Call Bytes}
    (h : Call.prepare (.batchSwap c) = .ok made) :
    ∃ b, made = .batchSwap b ∧ c.steps.mapM BatchSwap.readStep = .ok b.steps ∧
      Address.allBytes c.assets = .ok b.assets := by
  have hmap : c.read.map Call.batchSwap = .ok made := (prepare_eq_ok h).1
  obtain ⟨b, hread, rfl⟩ := Except.map_eq_ok.1 hmap
  obtain ⟨steps, hsteps, hread⟩ := Except.bind_eq_ok.1 hread
  obtain ⟨assets, hassets, hread⟩ := Except.bind_eq_ok.1 hread
  obtain ⟨sender, -, hread⟩ := Except.bind_eq_ok.1 hread
  obtain ⟨recipient, -, hread⟩ := Except.bind_eq_ok.1 hread
  cases Except.pure_eq_ok.1 hread
  exact ⟨_, rfl, hsteps, hassets⟩

/-- Both flavours of a reference have a value, or neither has. -/
theorem Reference.value_of_readOnly_eq_error {r : Reference} {e : Error}
    (h : r.readOnly.value = .error e) : r.value = .error e := by
  have hfail : (if 0 ≤ r.key ∧ r.key < keySpan then .ok (tag false * keySpan + r.key)
      else .error (.keyRange r.key) : Except Error Int) = .error e := h
  rw [value]
  split at hfail
  · cases hfail
  · next hrange => rw [if_neg hrange, hfail]

namespace Action

variable {a : Action} {ctx : Context}

/-- What the route makes sure of: a literal amount is only spent from the route's input, and every
other amount is read from a slot. -/
structure Fed (a : Action) (ctx : Context) : Prop where
  literal : ∀ n, a.firstHop.amount = .literal n →
    assetAt ctx.assets a.firstHop.assetIn = .ok ctx.tokenIn
  slot : ∀ r, a.firstHop.amount = .chained r → r.temporary = true

/-- The first step of a batch spends what its first hop does. -/
theorem spendsFirst_of_plan {token : Text} {account : Bytes} {r : Reference} {amount : Int}
    {b : BatchSwap Bytes} {steps : List (BatchStep Text)}
    (hsteps : a.hops.mapM batchStep = .ok steps) (hread : steps.mapM BatchSwap.readStep = .ok b.steps)
    (hassets : Address.allBytes ctx.assets = .ok b.assets)
    (htoken : assetAt ctx.assets a.firstHop.assetIn = .ok token)
    (haccount : Address.bytes token = .ok account) (hamount : a.firstHop.amount = .chained r)
    (hslot : r.temporary = true) (hvalue : r.readOnly.value = .ok amount) :
    b.SpendsFirst account amount := by
  have hhead : a.hops.head? = some a.firstHop := List.head?_eq_some_head a.hops_ne_nil
  obtain ⟨step, hstep, hwritten⟩ := (forall₂_of_mapM_steps hsteps hread).exists_of_head? hhead
  obtain ⟨bs, hbs, hplace⟩ :=
    Address.exists_getElem?_allBytes hassets (assetAt_eq_ok.1 htoken) (Address.same_refl token)
  cases haccount.symm.trans hbs
  have hresolved := hwritten.amount
  rw [hamount] at hresolved
  refine ⟨step, hstep, a.firstHop.assetIn, r.key, hwritten.assetIn, hplace, hvalue, ?_⟩
  rw [← hslot]
  exact hresolved

theorem mapM_batchStep_of_error {e : Error} (h : a.firstHop.amount.resolve = .error e) :
    a.hops.mapM batchStep = .error e := by
  have hhops : a.hops = [] ++ a.firstHop :: a.hops.tail := (List.cons_head_tail a.hops_ne_nil).symm
  have hstep : batchStep a.firstHop = .error e := by
    simp only [batchStep]
    rw [h]
    rfl
  rw [hhops]
  exact List.mapM_append_cons_eq_error (List.forall_mem_nil _) hstep _

/-- With the setting off, nothing stands before a batch. -/
theorem before_eq_nil_of_off {tokenIn : Text} {before : List (Call Bytes)} {most : Int}
    (h : a.inputLimit (ctx.approving false) tokenIn = .ok (before, most)) : before = [] := by
  simp only [inputLimit] at h
  split at h
  · obtain ⟨n, -, h⟩ := Except.map_eq_ok.1 h
    exact (Prod.mk.inj h).1.symm
  · exact (Prod.mk.inj (Except.ok.inj h)).1.symm

theorem approvalCalls_of_chained {tokenIn : Text} {r : Reference}
    (hshare : ctx.registry.isShareToken tokenIn = true) (hamount : a.firstHop.amount = .chained r) :
    a.approvalCalls (ctx.approving true) tokenIn = do
      let amount ← r.readOnly.value
      let call ← Call.prepare (.approveVault tokenIn amount)
      return [call] := by
  have hneeds : ((ctx.approving true).config.approveShareTokens &&
      (ctx.approving true).registry.isShareToken tokenIn) = true := hshare
  simp only [approvalCalls]
  rw [if_pos hneeds, hamount]

section Batch

variable (hassets : ∀ t ∈ ctx.assets, Form.address.holds t = true) (hfed : a.Fed ctx)

include hassets hfed

/-- The setting changes nothing before a batch, or it adds the call that allows the vault what the
batch spends first. That call can only fail with the batch's first step. -/
theorem inputLimit_cases {tokenIn : Text}
    (htoken : assetAt ctx.assets a.firstHop.assetIn = .ok tokenIn) :
    a.inputLimit (ctx.approving true) tokenIn = a.inputLimit (ctx.approving false) tokenIn ∨
      a.inputLimit (ctx.approving false) tokenIn = .ok ([], maxInt256) ∧
        ∃ r, a.firstHop.amount = .chained r ∧
          ((∃ e, r.value = .error e ∧ a.inputLimit (ctx.approving true) tokenIn = .error e) ∨
            ∃ account amount, Address.bytes tokenIn = .ok account ∧
              r.readOnly.value = .ok amount ∧ a.inputLimit (ctx.approving true) tokenIn =
                .ok ([.approveVault account amount], maxInt256)) := by
  have hlimit (on : Bool) : a.inputLimit (ctx.approving on) tokenIn =
      if Address.same tokenIn ctx.tokenIn then (Amount.literal ctx.swapAmount).resolve.map ([], ·)
      else (a.approvalCalls (ctx.approving on) tokenIn).map (·, maxInt256) :=
    rfl
  have hoff : a.approvalCalls (ctx.approving false) tokenIn = .ok [] := rfl
  rw [hlimit true, hlimit false, hoff]
  by_cases hinput : Address.same tokenIn ctx.tokenIn = true
  · rw [if_pos hinput, if_pos hinput]
    exact .inl rfl
  rw [if_neg hinput, if_neg hinput]
  by_cases hshare : ctx.registry.isShareToken tokenIn = true
  · right
    cases hamount : a.firstHop.amount with
    | literal n =>
        cases htoken.symm.trans (hfed.literal n hamount)
        exact absurd (Address.same_refl ctx.tokenIn) hinput
    | chained r =>
        refine ⟨rfl, r, rfl, ?_⟩
        rw [approvalCalls_of_chained hshare hamount]
        cases hvalue : r.readOnly.value with
        | error e => exact .inl ⟨e, Reference.value_of_readOnly_eq_error hvalue, rfl⟩
        | ok amount =>
            have hform : Form.address.holds tokenIn = true :=
              hassets tokenIn (List.mem_of_getElem? (assetAt_eq_ok.1 htoken))
            obtain ⟨account, haccount, hcall⟩ :=
              Call.exists_approveVault hform (Reference.fits_of_value hvalue)
            refine .inr ⟨account, amount, haccount, rfl, ?_⟩
            show Except.map _ ((Call.prepare (.approveVault tokenIn amount)) >>= _) = _
            rw [hcall]
            rfl
  · left
    have hnone : a.approvalCalls (ctx.approving true) tokenIn = .ok [] := if_neg hshare
    rw [hnone]

theorem swapCalls_announced :
    Except.Rel Eq Announced (a.swapCalls (ctx.approving true))
      (a.swapCalls (ctx.approving false)) := by
  refine .after_eq _ fun tokenIn htoken => .after _ fun tokenOut => ?_
  refine .after _ fun least => ?_
  rcases inputLimit_cases hassets hfed htoken with
    hsame | ⟨hoff, r, hamount, ⟨e, he, hon⟩ | ⟨account, amount, haccount, hvalue, hon⟩⟩
  · rw [hsame]
    refine .after_eq _ fun ⟨before, most⟩ hlimit => ?_
    obtain rfl := before_eq_nil_of_off hlimit
    refine .after _ fun steps => .after _ fun outputs => ?_
    refine .after_eq _ fun call hcall => ?_
    obtain ⟨b, rfl, -⟩ := Call.prepare_batchSwap_eq_ok hcall
    exact .ok (.same rfl .nil)
  · have hfail : a.hops.mapM batchStep = .error e := by
      apply mapM_batchStep_of_error
      rw [hamount]
      exact he
    rw [hon, hoff, hfail]
    exact .error rfl
  · rw [hon, hoff]
    refine Except.Rel.after_eq (a.hops.mapM batchStep) fun steps hsteps => ?_
    refine .after _ fun outputs => .after_eq _ fun call hcall => ?_
    obtain ⟨b, rfl, hread, hbytes⟩ := Call.prepare_batchSwap_eq_ok hcall
    refine .ok (.batch ?_ .nil)
    exact spendsFirst_of_plan hsteps hread hbytes htoken haccount hamount (hfed.slot r hamount)
      hvalue

/-- With the setting on, an action has the calls that it has with the setting off, its batches
announced, or the same error. -/
theorem calls_announced :
    Except.Rel Eq Announced (a.calls (ctx.approving true)) (a.calls (ctx.approving false)) := by
  have hjoin (on : Bool) : a.joinCall (ctx.approving on) = a.joinCall ctx := rfl
  have hexit (on : Bool) : a.exitCall (ctx.approving on) = a.exitCall ctx := rfl
  refine calls_rel rfl ((hjoin true).trans (hjoin false).symm)
    ((hexit true).trans (hexit false).symm) (fun _ => ?_) (fun _ => ?_) ?_
  · exact .same rfl .nil
  · exact .same rfl .nil
  · exact swapCalls_announced hassets hfed

end Batch

end Action

end SwapRelay
