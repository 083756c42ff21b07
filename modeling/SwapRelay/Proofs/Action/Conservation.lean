import Mathlib.Data.List.Forall2
import Mathlib.Data.List.SplitBy
import SwapRelay.Proofs.Action.Runs

/-!
# What scheduling keeps

Scheduling takes two passes, and each has its own conservation law. The split into what enters the
route, what leaves it and the rest is stable: it makes one list of the same actions, in which those
of one class stand in their old order. The merging then cuts that list into its maximal runs of
swaps, each deposit and withdrawal being a piece of its own (`maximalRuns_eq`), and makes one call
of each piece (`Run.becomes`). `schedule_conserves` puts the two together.
-/

namespace SwapRelay.Action

/-- Two neighbours that end up in one call. -/
def sharesCall (a b : Action) : Bool :=
  a.kind.isExchange && b.kind.isExchange

/-- The actions, cut between each two neighbours that share no call. -/
def maximalRuns (actions : List Action) : List (List Action) :=
  actions.splitBy sharesCall

/-- The call that is made of a run: a deposit or a withdrawal by itself, or a batch of swaps. -/
inductive Becomes : List Action → Action → Prop
  | poolOperation (a : Action) (pool : a.kind.isPoolOperation = true) : Becomes [a] a
  | batch {run : List Action} {a : Action}
      (swaps : ∀ b ∈ run, b.kind.isExchange = true)
      (kind : a.kind = .batchedExchange)
      (hops : a.hops = run.flatMap Action.hops)
      (outputs : a.outputs = run.flatMap Action.outputs)
      (minOut : run.getLast?.map Action.minOut = some a.minOut) : Becomes run a

/-- What becomes of actions that are scheduled on a route with these ends. -/
structure Conserves (ends : Ends) (actions ordered : List Action) : Prop where
  perm : (partition ends actions).toList.Perm actions
  stable : ∀ p : Place,
    (partition ends actions).toList.filter (·.place ends = p) = actions.filter (·.place ends = p)
  hops : ordered.flatMap Action.hops = (partition ends actions).toList.flatMap Action.hops
  outputs : ordered.flatMap Action.outputs = (partition ends actions).toList.flatMap Action.outputs
  batched : ∀ a ∈ ordered, a.kind ≠ .exchange
  apart : ordered.IsChain fun a b => ¬ (a.kind = .batchedExchange ∧ b.kind = .batchedExchange)
  poolOperations : (ordered.filter (·.kind.isPoolOperation)).Perm
    (actions.filter (·.kind.isPoolOperation))
  runs : List.Forall₂ Becomes (maximalRuns (partition ends actions).toList) ordered
  wellFormed : ∀ a ∈ ordered, ofParts a.kind a.hops a.outputs a.minOut = .ok a

theorem ofParts_self (a : Action) : ofParts a.kind a.hops a.outputs a.minOut = .ok a := by
  rw [ofParts, dif_neg a.hops_ne_nil, dif_neg fun h => h.2 (a.single_of_ne_batched h.1)]

/-! ## The split -/

theorem place_of_mem_filter {ends : Ends} {p : Place} {actions : List Action} {a : Action}
    (ha : a ∈ actions.filter (·.place ends = p)) : a.place ends = p :=
  of_decide_eq_true (List.mem_filter.1 ha).2

theorem filter_place_arranged (ends : Ends) (p : Place) (actions : List Action) :
    (arranged ends actions).filter (·.place ends = p) = actions.filter (·.place ends = p) := by
  have hclass : ∀ q : Place, (actions.filter (·.place ends = q)).filter (·.place ends = p) =
      if p = q then actions.filter (·.place ends = q) else [] :=
    fun q => filter_place (fun a ha => place_of_mem_filter ha) p
  simp only [arranged, Partition.toList, partition, List.filter_append, hclass]
  cases p <;> simp

/-! ## The runs -/

namespace Run

theorem becomes (run : Run) : Becomes run.members run.action := by
  cases h : run.head.kind.isExchange with
  | false =>
      obtain ⟨hmembers, haction⟩ := action_of_poolOperation h
      rw [hmembers, haction]
      rw [ActionKind.isExchange, Bool.not_eq_false'] at h
      exact .poolOperation run.head h
  | true =>
      refine .batch (swaps_of_head h) (kind_action_of_swap h) run.hops_action run.outputs_action ?_
      rw [getLast?_members, minOut_action, Option.map_some]

theorem isExchange_last (run : Run) : run.last.kind.isExchange = run.head.kind.isExchange := by
  cases h : run.head.kind.isExchange with
  | false => rw [last_of_poolOperation h, h]
  | true => exact swaps_of_head h _ run.last_mem

theorem isChain_members (run : Run) : run.members.IsChain fun a b => sharesCall a b = true := by
  cases h : run.head.kind.isExchange with
  | false =>
      rw [(action_of_poolOperation h).1]
      exact .singleton _
  | true =>
      have hswap : ∀ a ∈ run.members, ∀ b ∈ run.members, sharesCall a b = true := by
        intro a ha b hb
        rw [sharesCall, swaps_of_head h a ha, swaps_of_head h b hb]
        rfl
      exact (List.pairwise_of_forall_mem_list hswap).isChain

theorem filter_action (run : Run) :
    [run.action].filter (·.kind.isPoolOperation) =
      run.members.filter (·.kind.isPoolOperation) := by
  cases h : run.head.kind.isExchange with
  | false =>
      obtain ⟨hmembers, haction⟩ := action_of_poolOperation h
      rw [hmembers, haction]
  | true =>
      rw [List.filter_eq_nil_iff.2, List.filter_eq_nil_iff.2]
      · intro a ha
        have hswap := swaps_of_head h a ha
        rw [ActionKind.isExchange, Bool.not_eq_true'] at hswap
        rw [hswap]
        exact Bool.false_ne_true
      · intro a ha
        rw [List.mem_singleton.1 ha, kind_action_of_swap h]
        exact Bool.false_ne_true

end Run

/-- No two neighbouring groups consist of swaps, as they would have been one. -/
theorem isChain_runs (actions : List Action) :
    (runs actions).IsChain fun r s => sharesCall r.head s.head = false := by
  induction actions with
  | nil => exact .nil
  | cons a rest ih =>
      rw [runs]
      cases hruns : runs rest with
      | nil => exact .singleton _
      | cons run more =>
          rw [hruns] at ih
          dsimp only
          split
          · next h =>
              rw [List.isChain_cons] at ih ⊢
              refine ⟨fun s hs => ?_, ih.2⟩
              have hrun := ih.1 s hs
              rw [sharesCall, h.2] at hrun
              rw [sharesCall, Run.push, h.1, hrun]
          · next h =>
              rw [List.isChain_cons_cons]
              refine ⟨?_, ih⟩
              rw [sharesCall, ← Bool.not_eq_true, Bool.and_eq_true]
              exact h

/-- The groups are what the maximal runs are by definition. -/
theorem maximalRuns_eq (actions : List Action) :
    maximalRuns actions = (runs actions).map Run.members := by
  refine List.splitBy_eq_iff.2 ⟨?_, ?_, ?_, ?_⟩
  · rw [← List.flatMap_def, flatMap_members_runs]
  · intro hnil
    obtain ⟨run, -, hrun⟩ := List.mem_map.1 hnil
    exact run.members_ne_nil hrun
  · intro members hmembers
    obtain ⟨run, -, rfl⟩ := List.mem_map.1 hmembers
    exact run.isChain_members
  · rw [List.isChain_map]
    refine (isChain_runs actions).imp fun r s h => ?_
    refine ⟨r.members_ne_nil, s.members_ne_nil, ?_⟩
    rw [sharesCall] at h ⊢
    rw [← r.isExchange_last] at h
    exact h

theorem forall₂_becomes (actions : List Action) :
    List.Forall₂ Becomes (maximalRuns actions) (batch actions) := by
  rw [maximalRuns_eq, batch_eq, List.forall₂_map_left_iff, List.forall₂_map_right_iff,
    List.forall₂_same]
  exact fun run _ => run.becomes

/-! ## The calls -/

theorem kind_ne_exchange_of_mem_batch {actions : List Action} {a : Action}
    (ha : a ∈ batch actions) : a.kind ≠ .exchange := by
  rw [batch_eq] at ha
  obtain ⟨run, -, rfl⟩ := List.mem_map.1 ha
  cases h : run.head.kind.isExchange with
  | false =>
      intro hkind
      rw [(Run.action_of_poolOperation h).2] at hkind
      rw [hkind] at h
      cases h
  | true =>
      rw [Run.kind_action_of_swap h]
      exact fun hkind => by cases hkind

theorem isChain_batch (actions : List Action) :
    (batch actions).IsChain fun a b => sharesCall a b = false := by
  rw [batch_eq, List.isChain_map]
  refine (isChain_runs actions).imp fun r s h => ?_
  rw [sharesCall, Run.kind_action_isExchange, Run.kind_action_isExchange]
  exact h

/-- Deposits and withdrawals are left as they are, in their order. -/
theorem filter_batch (actions : List Action) :
    (batch actions).filter (·.kind.isPoolOperation) =
      actions.filter (·.kind.isPoolOperation) := by
  conv_rhs => rw [← flatMap_members_runs actions]
  rw [batch_eq, List.map_eq_flatMap, List.filter_flatMap, List.filter_flatMap]
  simp only [Run.filter_action]

theorem conserves_scheduleAt (ends : Ends) (actions : List Action) :
    Conserves ends actions (scheduleAt ends actions) where
  perm := arranged_perm ends actions
  stable p := filter_place_arranged ends p actions
  hops := flatMap_batch Run.hops_action _
  outputs := flatMap_batch Run.outputs_action _
  batched _ ha := kind_ne_exchange_of_mem_batch ha
  apart := by
    refine (isChain_batch _).imp fun a b h hkinds => ?_
    rw [sharesCall, hkinds.1, hkinds.2] at h
    cases h
  poolOperations := by
    rw [scheduleAt, filter_batch]
    exact (arranged_perm ends actions).filter _
  runs := forall₂_becomes _
  wellFormed a _ := a.ofParts_self

theorem schedule_of_find {assets : List Text} {tokenIn tokenOut : Text} {ends : Ends}
    (h : Ends.find assets tokenIn tokenOut = .ok ends) (actions : List Action) :
    schedule assets tokenIn tokenOut actions = .ok (scheduleAt ends actions) := by
  rw [schedule, h]
  rfl

/-- On a route between two of its assets, scheduling succeeds, and loses, doubles and moves nothing
but as it says. -/
theorem schedule_conserves {assets : List Text} {tokenIn tokenOut : Text}
    (hin : Address.IsAmong assets tokenIn) (hout : Address.IsAmong assets tokenOut)
    (actions : List Action) :
    ∃ ends ordered, Ends.find assets tokenIn tokenOut = .ok ends ∧
      schedule assets tokenIn tokenOut actions = .ok ordered ∧ Conserves ends actions ordered := by
  obtain ⟨ends, hends⟩ := Ends.exists_find hin hout
  exact ⟨ends, scheduleAt ends actions, hends, schedule_of_find hends actions,
    conserves_scheduleAt ends actions⟩

/-- Actions of each kind. The first withdrawal moves to the back and lets the swaps meet, the deposit
moves to the front, and the other withdrawal stays in the middle. -/
def eachKind : List Action := [
  .single .exchange ⟨['x'], 0, 1, .literal 5, []⟩ [⟨1, .slot 0⟩] 0,
  .single .withdrawal ⟨['q'], 3, 2, .chained (.slot 0), []⟩ [] 9,
  .single .exchange ⟨['y'], 1, 4, .chained (.slot 0), []⟩ [⟨4, .slot 1⟩] 0,
  { kind := .batchedExchange
    hops := [⟨['x'], 0, 1, .literal 3, []⟩, ⟨['z'], 1, 2, .chained (.slot 1), []⟩]
    outputs := [⟨1, .slot 2⟩]
    minOut := 4
    hops_ne_nil := List.cons_ne_nil _ _
    single_of_ne_batched := fun h => absurd rfl h },
  .single .withdrawal ⟨['r'], 4, 1, .chained (.slot 1), []⟩ [⟨1, .slot 3⟩] 0,
  .single .deposit ⟨['p'], 0, 3, .literal 7, []⟩ [⟨3, .slot 4⟩] 0]

theorem schedule_conserves_eachKind :
    let assets : List Text := [['a'], ['b'], ['c'], ['s'], ['t']]
    Address.IsAmong assets ['A'] ∧ Address.IsAmong assets ['C'] ∧
      ∃ ends ordered, Ends.find assets ['A'] ['C'] = .ok ends ∧
        schedule assets ['A'] ['C'] eachKind = .ok ordered ∧ Conserves ends eachKind ordered := by
  have hin : Address.IsAmong [['a'], ['b'], ['c'], ['s'], ['t']] ['A'] := by decide
  have hout : Address.IsAmong [['a'], ['b'], ['c'], ['s'], ['t']] ['C'] := by decide
  exact ⟨hin, hout, schedule_conserves hin hout eachKind⟩

end SwapRelay.Action
