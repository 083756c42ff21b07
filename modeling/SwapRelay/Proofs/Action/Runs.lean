import SwapRelay.Proofs.Action.Order

/-!
# Batches are runs of neighbouring swaps

Once actions are merged, it can no longer be read off which of them wrote which reference. So the
merging is taken in two steps here. `runs` groups a list of actions without losing anything: a
deposit or a withdrawal is alone in its group, and swaps that stand next to each other are together.
`Run.action` then makes one action of a group, and `batch_eq` says that the two steps are the
merging. What a scheduled action holds is thereby said in terms of the actions it was made from, and
the number of calls is counted by `length_runs`.
-/

namespace SwapRelay.Action

/-- Actions that share a call: one of any kind, or several swaps. -/
structure Run where
  head : Action
  tail : List Action
  swaps : tail ≠ [] → ∀ a ∈ head :: tail, a.kind.isExchange = true

namespace Run

def members (run : Run) : List Action :=
  run.head :: run.tail

theorem members_ne_nil (run : Run) : run.members ≠ [] :=
  List.cons_ne_nil run.head run.tail

def alone (a : Action) : Run :=
  ⟨a, [], fun h => absurd rfl h⟩

theorem swaps_of_head {run : Run} (h : run.head.kind.isExchange = true) :
    ∀ a ∈ run.members, a.kind.isExchange = true := by
  by_cases htail : run.tail = []
  · intro a ha
    rw [members, htail, List.mem_singleton] at ha
    rw [ha]
    exact h
  · exact run.swaps htail

def push (a : Action) (run : Run) (ha : a.kind.isExchange = true)
    (h : run.head.kind.isExchange = true) : Run where
  head := a
  tail := run.members
  swaps _ := List.forall_mem_cons.2 ⟨ha, swaps_of_head h⟩

/-- An action that no neighbour joins: a swap still becomes a batch. -/
def settle (a : Action) : Action :=
  if a.kind.isExchange then a.toBatch else a

/-- One action of several. -/
def fuse : Action → List Action → Action
  | a, [] => settle a
  | a, b :: rest => a.merge (fuse b rest)

def action (run : Run) : Action :=
  fuse run.head run.tail

end Run

/-- The actions in groups that share a call. -/
def runs : List Action → List Run
  | [] => []
  | a :: rest =>
    match runs rest with
    | [] => [.alone a]
    | run :: more =>
      if h : a.kind.isExchange = true ∧ run.head.kind.isExchange = true then
        run.push a h.1 h.2 :: more
      else .alone a :: run :: more

/-- The number of swaps that no swap stands in front of, which is that of the maximal runs of swaps;
`inside` tells whether a swap stands in front of the list. -/
def swapRuns (inside : Bool) : List Action → Nat
  | [] => 0
  | a :: rest =>
    (if a.kind.isExchange && !inside then 1 else 0) + swapRuns a.kind.isExchange rest

namespace Run

/-! ## What a run becomes

The hops and the outputs are those of the members in order, and the bound is the last one's. -/

theorem action_alone (a : Action) : (alone a).action = settle a := rfl

theorem fuse_eq_flatMap {β : Type} {f : Action → List β} (hbatch : ∀ a, f a.toBatch = f a)
    (hmerge : ∀ a b, f (a.merge b) = f a ++ f b) (a : Action) (rest : List Action) :
    f (fuse a rest) = (a :: rest).flatMap f := by
  induction rest generalizing a with
  | nil =>
      rw [fuse, settle, List.flatMap_singleton]
      split
      · exact hbatch a
      · rfl
  | cons b rest ih => rw [List.flatMap_cons, ← ih b, fuse, hmerge]

theorem minOut_fuse (a : Action) (rest : List Action) :
    (fuse a rest).minOut = ((a :: rest).getLast (List.cons_ne_nil a rest)).minOut := by
  induction rest generalizing a with
  | nil =>
      rw [fuse, settle, List.getLast_singleton]
      split <;> rfl
  | cons b rest ih =>
      rw [fuse, List.getLast_cons (List.cons_ne_nil b rest), ← ih b]
      rfl

def last (run : Run) : Action :=
  run.members.getLast run.members_ne_nil

theorem head_mem (run : Run) : run.head ∈ run.members :=
  List.mem_cons_self ..

theorem last_mem (run : Run) : run.last ∈ run.members :=
  List.getLast_mem run.members_ne_nil

theorem getLast?_members (run : Run) : run.members.getLast? = some run.last :=
  List.getLast?_eq_some_getLast run.members_ne_nil

theorem hops_action (run : Run) : run.action.hops = run.members.flatMap Action.hops :=
  fuse_eq_flatMap (fun _ => rfl) (fun _ _ => rfl) run.head run.tail

theorem outputs_action (run : Run) : run.action.outputs = run.members.flatMap Action.outputs :=
  fuse_eq_flatMap (fun _ => rfl) (fun _ _ => rfl) run.head run.tail

theorem minOut_action (run : Run) : run.action.minOut = run.last.minOut :=
  minOut_fuse ..

theorem keys_action (run : Run) : run.action.keys = run.members.flatMap Action.keys := by
  rw [Action.keys, outputs_action, List.map_flatMap]
  rfl

theorem firstHop_action (run : Run) : run.action.firstHop = run.head.firstHop := by
  have h : run.action.hops = run.head.hops ++ run.tail.flatMap Action.hops := run.hops_action
  simp only [firstHop, h]
  rw [List.head_append_of_ne_nil]

theorem lastHop_action (run : Run) : run.action.lastHop = run.last.lastHop := by
  have h : run.action.hops =
      run.members.dropLast.flatMap Action.hops ++ run.last.hops := by
    rw [hops_action, ← List.flatMap_singleton (f := Action.hops) (x := run.last),
      ← List.flatMap_append, last, List.dropLast_append_getLast]
  simp only [lastHop, h]
  rw [List.getLast_append_of_ne_nil]

theorem action_of_poolOperation {run : Run} (h : run.head.kind.isExchange = false) :
    run.members = [run.head] ∧ run.action = run.head := by
  have htail : run.tail = [] := by
    by_contra hne
    have hswap := run.swaps hne run.head (List.mem_cons_self ..)
    rw [h] at hswap
    cases hswap
  constructor
  · rw [members, htail]
  · rw [action, htail, fuse, settle, h]
    rfl

theorem last_of_poolOperation {run : Run} (h : run.head.kind.isExchange = false) :
    run.last = run.head := by
  have hmem := run.last_mem
  rw [(action_of_poolOperation h).1] at hmem
  exact List.mem_singleton.1 hmem

theorem kind_action_of_swap {run : Run} (h : run.head.kind.isExchange = true) :
    run.action.kind = .batchedExchange := by
  simp only [action]
  cases run.tail with
  | nil => rw [fuse, settle, if_pos h]; rfl
  | cons b rest => rfl

theorem kind_action_isExchange (run : Run) :
    run.action.kind.isExchange = run.head.kind.isExchange := by
  cases h : run.head.kind.isExchange with
  | true => rw [kind_action_of_swap h]; rfl
  | false => rw [(action_of_poolOperation h).2, h]

end Run

/-! ## Grouping -/

theorem batch_cons (a : Action) (rest : List Action) :
    batch (a :: rest) = pushFront a (batch rest) :=
  rfl

theorem batch_eq (actions : List Action) : batch actions = (runs actions).map Run.action := by
  induction actions with
  | nil => rfl
  | cons a rest ih =>
      rw [batch_cons, ih, runs]
      cases runs rest with
      | nil => rfl
      | cons run more =>
          rw [List.map_cons, pushFront, Run.kind_action_isExchange]
          by_cases ha : a.kind.isExchange = true
          · rw [if_pos ha]
            by_cases hrun : run.head.kind.isExchange = true
            · rw [if_pos hrun]
              dsimp only
              rw [dif_pos ⟨ha, hrun⟩]
              rfl
            · rw [if_neg hrun]
              dsimp only
              rw [dif_neg fun h => hrun h.2, List.map_cons, List.map_cons, Run.action_alone,
                Run.settle, if_pos ha]
          · rw [if_neg ha]
            dsimp only
            rw [dif_neg fun h => ha h.1, List.map_cons, List.map_cons, Run.action_alone,
              Run.settle, if_neg ha]

/-- Grouping loses nothing and keeps the order. -/
theorem flatMap_members_runs (actions : List Action) :
    (runs actions).flatMap Run.members = actions := by
  induction actions with
  | nil => rfl
  | cons a rest ih =>
      rw [runs]
      cases hruns : runs rest with
      | nil =>
          rw [hruns] at ih
          rw [← ih]
          rfl
      | cons run more =>
          rw [hruns, List.flatMap_cons] at ih
          dsimp only
          split
          · rw [List.flatMap_cons, ← ih]; rfl
          · rw [List.flatMap_cons, List.flatMap_cons, ih]; rfl

theorem mem_of_mem_runs {actions : List Action} {run : Run} (hrun : run ∈ runs actions) {a : Action}
    (ha : a ∈ run.members) : a ∈ actions := by
  rw [← flatMap_members_runs actions]
  exact List.mem_flatMap.2 ⟨run, hrun, ha⟩

/-- Swaps among themselves share one call. -/
theorem runs_of_swaps {actions : List Action} (hne : actions ≠ [])
    (h : ∀ a ∈ actions, a.kind.isExchange = true) :
    ∃ run, runs actions = [run] ∧ run.members = actions := by
  induction actions with
  | nil => exact absurd rfl hne
  | cons a rest ih =>
      obtain ⟨ha, hrest⟩ := List.forall_mem_cons.1 h
      cases rest with
      | nil => exact ⟨.alone a, rfl, rfl⟩
      | cons b more =>
          obtain ⟨run, hruns, hmembers⟩ := ih (List.cons_ne_nil b more) hrest
          have hhead : run.head.kind.isExchange = true :=
            hrest run.head (by rw [← hmembers]; exact run.head_mem)
          refine ⟨run.push a ha hhead, ?_, ?_⟩
          · rw [runs, hruns]
            dsimp only
            rw [dif_pos ⟨ha, hhead⟩]
          · rw [← hmembers]
            rfl

theorem flatMap_batch {β : Type} {f : Action → List β}
    (h : ∀ run : Run, f run.action = run.members.flatMap f) (actions : List Action) :
    (batch actions).flatMap f = actions.flatMap f := by
  rw [batch_eq, List.flatMap_map]
  simp only [h]
  rw [← List.flatMap_assoc, flatMap_members_runs]

theorem head?_runs (actions : List Action) :
    (runs actions).head?.map Run.head = actions.head? := by
  cases actions with
  | nil => rfl
  | cons a rest =>
      rw [runs]
      cases runs rest with
      | nil => rfl
      | cons run more =>
          dsimp only
          split <;> rfl

theorem getLast?_runs (actions : List Action) :
    (runs actions).getLast?.map Run.last = actions.getLast? := by
  have hmembers := flatMap_members_runs actions
  rcases List.eq_nil_or_concat' (runs actions) with hruns | ⟨front, run, hruns⟩
  · rw [hruns] at hmembers ⊢
    rw [← hmembers]
    rfl
  · rw [hruns] at hmembers ⊢
    rw [← hmembers, List.flatMap_append, List.flatMap_singleton, List.getLast?_append,
      List.getLast?_append, Run.getLast?_members]
    rfl

/-- A swap in front of the list saves the list's first run of swaps, if it starts with one. -/
theorem swapRuns_false (actions : List Action) :
    swapRuns false actions =
      swapRuns true actions + (if actions.head?.any (·.kind.isExchange) then 1 else 0) := by
  cases actions with
  | nil => rfl
  | cons a rest =>
      cases ha : a.kind.isExchange with
      | true => simp [swapRuns, ha]; omega
      | false => simp [swapRuns, ha]

/-- There are as many groups as deposits, withdrawals and maximal runs of swaps. -/
theorem length_runs (actions : List Action) :
    (runs actions).length =
      actions.countP (·.kind.isPoolOperation) + swapRuns false actions := by
  induction actions with
  | nil => rfl
  | cons a rest ih =>
      have hhead := head?_runs rest
      have hfirst := swapRuns_false rest
      have hkind : a.kind.isExchange = !a.kind.isPoolOperation := rfl
      rw [runs, List.countP_cons, swapRuns]
      cases hruns : runs rest with
      | nil =>
          obtain rfl : rest = [] := by
            rw [← flatMap_members_runs rest, hruns]
            rfl
          cases hpool : a.kind.isPoolOperation <;> simp [swapRuns, hkind, hpool]
      | cons run more =>
          rw [hruns, List.length_cons] at ih
          rw [hruns, List.head?_cons, Option.map_some] at hhead
          rw [← hhead, Option.any_some] at hfirst
          dsimp only
          split
          · next h =>
              rw [if_pos h.2] at hfirst
              rw [hkind, Bool.not_eq_true'] at h
              simp only [hkind, h.1, List.length_cons]
              simp
              omega
          · next h =>
              simp only [List.length_cons]
              cases hpool : a.kind.isPoolOperation with
              | true => simp [hkind, hpool]; omega
              | false =>
                  rw [if_neg fun hrun => h ⟨by rw [hkind, hpool]; rfl, hrun⟩] at hfirst
                  simp [hkind, hpool]
                  omega

end SwapRelay.Action
