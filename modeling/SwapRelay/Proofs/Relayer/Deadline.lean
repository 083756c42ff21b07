import SwapRelay.Proofs.Abi.Layout
import SwapRelay.Proofs.Outcome
import SwapRelay.Proofs.Relayer.Shares
import SwapRelay.Proofs.Uint256

/-!
# Where the deadline goes

Of all that a route's calls have in common, the deadline is looked at last: no call is planned by
it, and only a batch of swaps writes it. Two deadlines that fit a word therefore give the same calls
but for the deadlines of the batches, or the same error (`Action.calls_retimed`). In the data of a
batch the deadline has a word to itself, in front of which stand the selector and eight words of the
head: one for the kind of swap, four for the funds, and an offset for each of the three lists,
whatever they hold (`Call.exists_data`).
-/

namespace SwapRelay

open Abi (Value)

namespace Call

/-- The number of bytes in front of the deadline of a batch. -/
def deadlinePlace : Nat := 260

/-- The data of a batch, with a word left open for the deadline. -/
theorem exists_data {b : BatchSwap Bytes} (h : (Call.batchSwap b).Fits) :
    ∃ front back, front.length = deadlinePlace ∧ ∀ deadline,
      (Call.batchSwap { b with deadline }).data = front ++ Abi.word deadline.toNat ++ back := by
  let args := (Call.batchSwap b).arguments
  obtain ⟨before, after, hlength, hdata⟩ :=
    Abi.exists_encodeArguments (args.take 5) (args.drop 6) 256
  have hfunds : Abi.HasTy (.tuple [.address, .bool, .address, .bool]) (.tuple [
      .address b.funds.sender, .bool b.funds.fromInternal,
      .address b.funds.recipient, .bool b.funds.toInternal]) :=
    .tuple (.cons .address (.cons .bool (.cons .address (.cons .bool .nil))))
  simp only [Fits, arguments, Abi.checkAll_cons] at h
  have hsize := (hfunds.reads h.2.2.2.1).headSize
  refine ⟨(Call.batchSwap b).selector ++ before, after, ?_, ?_⟩
  · rw [List.length_append, hlength]
    show 4 + ((Abi.word b.kind.toNat).length + (32 + (32 + (Abi.Part.headSize _ + (32 + 0))))) =
      deadlinePlace
    rw [Abi.length_word, hsize]
    rfl
  · intro deadline
    show (Call.batchSwap b).selector ++ Abi.encodeArguments
      (args.take 5 ++ .uint 256 deadline :: args.drop 6) = _
    rw [hdata, List.append_assoc, List.append_assoc, List.append_assoc]

/-- The calls are one and the same, or they are batches with these two deadlines whose data is the
same around the word of the deadline. -/
inductive Retimed (deadline later : Int) : Call Bytes → Call Bytes → Prop
  | same {c : Call Bytes} (other : c.isBatchSwap = false) : Retimed deadline later c c
  | batch {b : BatchSwap Bytes} {front back : Bytes} (place : front.length = deadlinePlace)
    (data : (Call.batchSwap { b with deadline }).data =
      front ++ Abi.word deadline.toNat ++ back)
    (dataLater : (Call.batchSwap { b with deadline := later }).data =
      front ++ Abi.word later.toNat ++ back) :
    Retimed deadline later (.batchSwap { b with deadline })
      (.batchSwap { b with deadline := later })

theorem Retimed.eq {deadline later : Int} {c d : Call Bytes} (h : Retimed deadline later c d)
    (hc : c.isBatchSwap = false) : c = d := by
  cases h with
  | same => rfl
  | batch => cases hc

theorem checked_retimed (b : BatchSwap Bytes) {deadline later : Int}
    (hdeadline : Uint256.Fits deadline) (hlater : Uint256.Fits later) :
    Except.Rel Eq (Retimed deadline later) (Call.batchSwap { b with deadline }).checked
      (Call.batchSwap { b with deadline := later }).checked := by
  let args := (Call.batchSwap b).arguments
  have hcheck : Value.checkAll (Call.batchSwap { b with deadline }).arguments =
      Value.checkAll (Call.batchSwap { b with deadline := later }).arguments :=
    Abi.checkAll_exchange (Abi.check_uint.2 hdeadline) (Abi.check_uint.2 hlater) (args.take 5)
      (args.drop 6)
  simp only [checked]
  rw [← hcheck]
  cases hfits : Value.checkAll (Call.batchSwap { b with deadline }).arguments with
  | error fault => exact .error rfl
  | ok _ =>
      obtain ⟨front, back, hplace, hdata⟩ := exists_data hfits
      exact .ok (.batch hplace (hdata deadline) (hdata later))

theorem prepare_retimed (c : BatchSwap Text) {later : Int} (hc : Uint256.Fits c.deadline)
    (hlater : Uint256.Fits later) :
    Except.Rel Eq (Retimed c.deadline later) (Call.prepare (.batchSwap c))
      (Call.prepare (.batchSwap { c with deadline := later })) := by
  have hread : Except.Rel Eq (fun made other => ∃ b : BatchSwap Bytes,
      made = { b with deadline := c.deadline } ∧ other = { b with deadline := later })
      c.read { c with deadline := later }.read := by
    refine .after _ fun steps => .after _ fun assets => ?_
    refine .after _ fun sender => .after _ fun recipient => ?_
    exact .ok ⟨{ c with steps, assets, funds := { c.funds with sender, recipient } }, rfl, rfl⟩
  have hcalls : Except.Rel Eq (fun made other => ∃ b : BatchSwap Bytes,
      made = .batchSwap { b with deadline := c.deadline } ∧
      other = .batchSwap { b with deadline := later })
      (Call.read (.batchSwap c)) (Call.read (.batchSwap { c with deadline := later })) := by
    refine hread.map ?_
    rintro _ _ ⟨b, rfl, rfl⟩
    exact ⟨b, rfl, rfl⟩
  refine hcalls.bind ?_
  rintro _ _ ⟨b, rfl, rfl⟩
  exact checked_retimed b hc hlater

/-- Calls among which there is no batch do not depend on the deadline. -/
theorem forall₂_retimed_same {deadline later : Int} {calls : List (Call Bytes)}
    (h : ∀ c ∈ calls, c.isBatchSwap = false) :
    List.Forall₂ (Retimed deadline later) calls calls :=
  List.forall₂_same.2 fun c hc => .same (h c hc)

end Call

namespace Action

variable {a : Action} {ctx : Context} {later : Int}

theorem swapCalls_retimed (hctx : Uint256.Fits ctx.deadline) (hlater : Uint256.Fits later) :
    Except.Rel Eq (List.Forall₂ (Call.Retimed ctx.deadline later)) (a.swapCalls ctx)
      (a.swapCalls { ctx with deadline := later }) := by
  refine .after _ fun tokenIn => .after _ fun tokenOut => ?_
  refine .after _ fun least => .after_eq _ fun ⟨before, most⟩ h => ?_
  refine .after _ fun steps => .after _ fun outputs => ?_
  refine (Call.prepare_retimed _ hctx hlater).bind fun call other hcall => .ok ?_
  refine List.rel_append (Call.forall₂_retimed_same ?_) (.cons hcall .nil)
  intro c hc
  obtain ⟨-, token, value, r, rfl, -⟩ := before_of_inputLimit h hc
  rfl

/-- With another deadline an action has the same calls but for the deadlines of its batches, or the
same error. -/
theorem calls_retimed (hctx : Uint256.Fits ctx.deadline) (hlater : Uint256.Fits later) :
    Except.Rel Eq (List.Forall₂ (Call.Retimed ctx.deadline later)) (a.calls ctx)
      (a.calls { ctx with deadline := later }) := by
  have hjoin : a.joinCall ctx = a.joinCall { ctx with deadline := later } := rfl
  have hexit : a.exitCall ctx = a.exitCall { ctx with deadline := later } := rfl
  refine calls_rel rfl hjoin hexit (fun _ => ?_) (fun _ => ?_) ?_
  · exact .cons (.same rfl) .nil
  · exact .cons (.same rfl) .nil
  · exact swapCalls_retimed hctx hlater

end Action

end SwapRelay
