import SwapRelay.Proofs.Action.Idempotent

/-!
# How many calls a schedule takes

A call is made of each deposit and withdrawal and of each maximal run of swaps, so the order of the
actions only counts where it keeps two swaps apart. Scheduling takes deposits and withdrawals out
from between the swaps and puts none in. What is left in the middle is therefore the same actions
less some separators, and it has no more runs than there were: `swapRuns_filter_le`.
-/

namespace SwapRelay.Action

theorem swapRuns_cons_of_poolOperation {a : Action} (h : a.kind.isExchange = false) (inside : Bool)
    (rest : List Action) : swapRuns inside (a :: rest) = swapRuns false rest := by
  rw [swapRuns, h, Bool.false_and, if_neg Bool.false_ne_true, Nat.zero_add]

/-- Without a separator two runs of swaps become one, and none is split in two. -/
theorem swapRuns_filter_le {kept : Action → Bool} {actions : List Action}
    (hkept : ∀ a ∈ actions, a.kind.isExchange = true → kept a = true) {inside inside' : Bool}
    (hinside : inside = true → inside' = true) :
    swapRuns inside' (actions.filter kept) ≤ swapRuns inside actions := by
  induction actions generalizing inside inside' with
  | nil => exact Nat.le_refl 0
  | cons a rest ih =>
      obtain ⟨ha, hrest⟩ := List.forall_mem_cons.1 hkept
      cases hswap : a.kind.isExchange with
      | true =>
          have hle : swapRuns true (rest.filter kept) ≤ swapRuns true rest := ih hrest id
          rw [List.filter_cons_of_pos (ha hswap), swapRuns, swapRuns, hswap]
          -- The run of this swap is a new one in both lists, or goes on in the shorter one only.
          cases inside with
          | true =>
              rw [hinside rfl]
              exact Nat.add_le_add_left hle _
          | false => cases inside' <;> simp <;> omega
      | false =>
          have hle (after : Bool) : swapRuns after (rest.filter kept) ≤ swapRuns false rest :=
            ih hrest (absurd · Bool.false_ne_true)
          rw [swapRuns_cons_of_poolOperation hswap, List.filter_cons]
          split
          · rw [swapRuns_cons_of_poolOperation hswap]
            exact hle false
          · exact hle inside'

theorem length_batch (actions : List Action) :
    (batch actions).length = actions.countP (·.kind.isPoolOperation) + swapRuns false actions := by
  rw [batch_eq, List.length_map, length_runs]

theorem length_batch_le (actions : List Action) : (batch actions).length ≤ actions.length := by
  rw [batch_eq, List.length_map]
  conv_rhs => rw [← flatMap_members_runs actions]
  induction runs actions with
  | nil => exact Nat.le_refl 0
  | cons run more ih =>
      have hmember := List.length_pos_iff.2 run.members_ne_nil
      rw [List.flatMap_cons, List.length_append, List.length_cons]
      omega

theorem Run.all_members (run : Run) :
    run.members.all (·.kind.isExchange) = run.head.kind.isExchange := by
  rw [Bool.eq_iff_iff, List.all_eq_true]
  exact ⟨fun h => h _ run.head_mem, swaps_of_head⟩

/-- The runs of swaps among the maximal runs are as many as the swaps that start one. -/
theorem countP_maximalRuns (actions : List Action) :
    (maximalRuns actions).countP (·.all (·.kind.isExchange)) = swapRuns false actions := by
  have hswaps : (·.all (·.kind.isExchange)) ∘ Run.members =
      fun run : Run => run.head.kind.isExchange := funext Run.all_members
  have hpool : (runs actions).countP (fun run => ¬ run.head.kind.isExchange = true) =
      actions.countP (·.kind.isPoolOperation) := by
    rw [List.countP_eq_length_filter (l := actions), ← filter_batch,
      ← List.countP_eq_length_filter, batch_eq, List.countP_map]
    refine List.countP_congr fun run _ => ?_
    rw [Function.comp_apply, decide_eq_true_eq, ← run.kind_action_isExchange, ActionKind.isExchange,
      Bool.not_eq_true', Bool.not_eq_false]
  have hsplit := List.length_eq_countP_add_countP (fun run : Run => run.head.kind.isExchange)
    (l := runs actions)
  rw [length_runs, hpool] at hsplit
  rw [maximalRuns_eq, List.countP_map, hswaps]
  omega

variable (ends : Ends) (actions : List Action)

theorem length_scheduleAt :
    (scheduleAt ends actions).length =
      actions.countP (·.kind.isPoolOperation) +
        swapRuns false (partition ends actions).middle := by
  have hmoved : ∀ p : Place, p ≠ .middle →
      (actions.filter (·.place ends = p)).countP (·.kind.isPoolOperation) =
        (actions.filter (·.place ends = p)).length := by
    intro p hp
    exact List.countP_eq_length.2 (isPoolOperation_of_mem_filter ends hp)
  have henter := hmoved .enter (by decide)
  have hexit := hmoved .exit (by decide)
  rw [← (arranged_perm ends actions).countP_eq, scheduleAt_eq, List.length_append,
    List.length_append, length_batch]
  simp only [arranged, Partition.toList, partition, List.countP_append] at *
  omega

theorem length_scheduleAt_le : (scheduleAt ends actions).length ≤ (batch actions).length := by
  have hmiddle : ∀ a ∈ actions, a.kind.isExchange = true →
      decide (a.place ends = .middle) = true := by
    intro a _ hswap
    rw [ActionKind.isExchange, Bool.not_eq_true'] at hswap
    rw [place, hswap]
    rfl
  rw [length_scheduleAt, length_batch]
  exact Nat.add_le_add_left (swapRuns_filter_le hmiddle id) _

/-- Scheduling takes no more calls than merging the actions as they stand, which takes no more than
there are actions. The calls are the deposits, the withdrawals and the maximal runs of swaps in the
middle. -/
theorem length_schedule {assets : List Text} {tokenIn tokenOut : Text}
    (hin : Address.IsAmong assets tokenIn) (hout : Address.IsAmong assets tokenOut)
    (actions : List Action) :
    ∃ ends ordered, Ends.find assets tokenIn tokenOut = .ok ends ∧
      schedule assets tokenIn tokenOut actions = .ok ordered ∧
      ordered.length ≤ (batch actions).length ∧ (batch actions).length ≤ actions.length ∧
      ordered.length = actions.countP (·.kind.isPoolOperation) +
        (maximalRuns (partition ends actions).middle).countP (·.all (·.kind.isExchange)) := by
  obtain ⟨ends, hends⟩ := Ends.exists_find hin hout
  refine ⟨ends, scheduleAt ends actions, hends, schedule_of_find hends actions,
    length_scheduleAt_le ends actions, length_batch_le actions, ?_⟩
  rw [countP_maximalRuns]
  exact length_scheduleAt ends actions

theorem length_schedule_eachKind :
    let assets : List Text := [['a'], ['b'], ['c'], ['s'], ['t']]
    Address.IsAmong assets ['A'] ∧ Address.IsAmong assets ['C'] ∧
      ∃ ordered, schedule assets ['A'] ['C'] eachKind = .ok ordered ∧ ordered.length = 4 ∧
        (batch eachKind).length = 5 ∧ ordered.length ≤ (batch eachKind).length ∧
        (batch eachKind).length ≤ eachKind.length := by
  have hin : Address.IsAmong [['a'], ['b'], ['c'], ['s'], ['t']] ['A'] := by decide
  have hout : Address.IsAmong [['a'], ['b'], ['c'], ['s'], ['t']] ['C'] := by decide
  obtain ⟨ends, ordered, -, h, hle, hlength, -⟩ := length_schedule hin hout eachKind
  refine ⟨hin, hout, ordered, h, ?_, rfl, hle, hlength⟩
  cases h
  rfl

end SwapRelay.Action
