import SwapRelay.Proofs.Action.Conservation

/-!
# A schedule stays as it is

Scheduling what is scheduled changes nothing. A deposit or a withdrawal cuts the merging in two
(`batch_append_cons`), so the blocks at the ends of a schedule come out of the merging as they went
in, and only the block in the middle is merged (`scheduleAt_eq`). What the middle becomes belongs
to the middle again, for a batch is neither a deposit nor a withdrawal: the three blocks are found
where they are, `arranged_scheduleAt`. And merging finds nothing more to merge, `batch_batch`.
-/

namespace SwapRelay.Action

theorem isExchange_eq_false {a : Action} (h : a.kind.isPoolOperation = true) :
    a.kind.isExchange = false := by
  rw [ActionKind.isExchange, h]
  rfl

/-! ## Merging -/

theorem pushFront_append_cons {p : Action} (hp : p.kind.isPoolOperation = true) (a : Action)
    (front back : List Action) :
    pushFront a (front ++ p :: back) = pushFront a front ++ p :: back := by
  cases front with
  | nil =>
      simp only [List.nil_append, pushFront, isExchange_eq_false hp]
      cases a.kind.isExchange <;> rfl
  | cons b front =>
      simp only [List.cons_append, pushFront]
      cases a.kind.isExchange with
      | false => rfl
      | true => cases b.kind.isExchange <;> rfl

/-- What stands on the two sides of a deposit or a withdrawal is merged by itself. -/
theorem batch_append_cons {p : Action} (hp : p.kind.isPoolOperation = true)
    (front back : List Action) : batch (front ++ p :: back) = batch front ++ p :: batch back := by
  induction front with
  | nil =>
      rw [List.nil_append, batch_cons, pushFront.eq_def, isExchange_eq_false hp]
      cases batch back <;> rfl
  | cons a front ih =>
      rw [List.cons_append, batch_cons, batch_cons, ih, pushFront_append_cons hp]

theorem batch_poolOperations_append {ops : List Action}
    (h : ∀ p ∈ ops, p.kind.isPoolOperation = true) (actions : List Action) :
    batch (ops ++ actions) = ops ++ batch actions := by
  induction ops with
  | nil => rfl
  | cons p ops ih =>
      obtain ⟨hp, hops⟩ := List.forall_mem_cons.1 h
      have hcut : batch (p :: (ops ++ actions)) = p :: batch (ops ++ actions) :=
        batch_append_cons hp [] (ops ++ actions)
      rw [List.cons_append, hcut, ih hops, List.cons_append]

theorem batch_append_poolOperations {ops : List Action}
    (h : ∀ p ∈ ops, p.kind.isPoolOperation = true) (actions : List Action) :
    batch (actions ++ ops) = batch actions ++ ops := by
  cases ops with
  | nil => rw [List.append_nil, List.append_nil]
  | cons p ops =>
      obtain ⟨hp, hops⟩ := List.forall_mem_cons.1 h
      have hrest : batch (ops ++ []) = ops ++ [] := batch_poolOperations_append hops []
      rw [List.append_nil] at hrest
      rw [batch_append_cons hp, hrest]

theorem settle_eq_self {a : Action} (h : a.kind ≠ .exchange) : Run.settle a = a := by
  obtain ⟨kind, hops, outputs, minOut, hne, hsingle⟩ := a
  cases kind with
  | exchange => exact absurd rfl h
  | deposit => rfl
  | withdrawal => rfl
  | batchedExchange => rfl

theorem pushFront_of_apart {a b : Action} (h : sharesCall a b = false) (rest : List Action) :
    pushFront a (b :: rest) = Run.settle a :: b :: rest := by
  rw [sharesCall] at h
  rw [pushFront, Run.settle]
  cases hswap : a.kind.isExchange with
  | false => rfl
  | true =>
      rw [hswap, Bool.true_and] at h
      rw [h]
      rfl

/-- Nothing is merged where each swap is a batch already and no two batches are neighbours. -/
theorem batch_eq_self {actions : List Action} (hkind : ∀ a ∈ actions, a.kind ≠ .exchange)
    (hapart : actions.IsChain fun a b => sharesCall a b = false) : batch actions = actions := by
  induction actions with
  | nil => rfl
  | cons a rest ih =>
      obtain ⟨ha, hrest⟩ := List.forall_mem_cons.1 hkind
      rw [batch_cons, ih hrest hapart.tail]
      cases rest with
      | nil =>
          show [Run.settle a] = [a]
          rw [settle_eq_self ha]
      | cons b more =>
          rw [pushFront_of_apart (List.isChain_cons_cons.1 hapart).1, settle_eq_self ha]

theorem batch_batch (actions : List Action) : batch (batch actions) = batch actions :=
  batch_eq_self (fun _ ha => kind_ne_exchange_of_mem_batch ha) (isChain_batch actions)

/-! ## Splitting -/

section Place

variable (ends : Ends)

theorem isPoolOperation_of_place {a : Action} (h : a.place ends ≠ .middle) :
    a.kind.isPoolOperation = true := by
  by_contra hpool
  rw [place, if_neg hpool] at h
  exact h rfl

/-- A batch is in the middle, and what is not merged stays where it is. -/
theorem place_action (run : Run) : run.action.place ends = run.head.place ends := by
  cases h : run.head.kind.isExchange with
  | false => rw [(Run.action_of_poolOperation h).2]
  | true =>
      rw [ActionKind.isExchange, Bool.not_eq_true'] at h
      rw [place, place, h, Run.kind_action_of_swap (by rw [ActionKind.isExchange, h]; rfl)]
      rfl

theorem place_of_mem_batch {ends : Ends} {p : Place} {actions : List Action}
    (h : ∀ a ∈ actions, a.place ends = p) {b : Action} (hb : b ∈ batch actions) :
    b.place ends = p := by
  rw [batch_eq] at hb
  obtain ⟨run, hrun, rfl⟩ := List.mem_map.1 hb
  rw [place_action]
  exact h _ (mem_of_mem_runs hrun run.head_mem)

theorem isPoolOperation_of_mem_filter {p : Place} (hp : p ≠ .middle) {actions : List Action} :
    ∀ a ∈ actions.filter (·.place ends = p), a.kind.isPoolOperation = true := by
  intro a ha
  apply isPoolOperation_of_place ends
  rw [place_of_mem_filter ha]
  exact hp

/-- Only the middle is merged. -/
theorem scheduleAt_eq (actions : List Action) :
    scheduleAt ends actions =
      (partition ends actions).enter ++ batch (partition ends actions).middle ++
        (partition ends actions).exit := by
  simp only [scheduleAt, Partition.toList, partition]
  rw [batch_append_poolOperations (isPoolOperation_of_mem_filter ends (by decide)),
    batch_poolOperations_append (isPoolOperation_of_mem_filter ends (by decide))]

theorem arranged_scheduleAt (actions : List Action) :
    arranged ends (scheduleAt ends actions) = scheduleAt ends actions := by
  rw [scheduleAt_eq]
  apply arranged_of_blocks
  · exact fun a ha => place_of_mem_filter ha
  · exact fun a ha => place_of_mem_batch (fun b hb => place_of_mem_filter hb) ha
  · exact fun a ha => place_of_mem_filter ha

theorem scheduleAt_scheduleAt (actions : List Action) :
    scheduleAt ends (scheduleAt ends actions) = scheduleAt ends actions := by
  have hagain : scheduleAt ends (scheduleAt ends actions) =
      batch (arranged ends (scheduleAt ends actions)) := rfl
  rw [hagain, arranged_scheduleAt]
  exact batch_batch _

end Place

/-- Scheduled twice is scheduled once. -/
theorem schedule_idempotent {assets : List Text} {tokenIn tokenOut : Text}
    (hin : Address.IsAmong assets tokenIn) (hout : Address.IsAmong assets tokenOut)
    (actions : List Action) :
    ∃ ordered, schedule assets tokenIn tokenOut actions = .ok ordered ∧
      schedule assets tokenIn tokenOut ordered = .ok ordered := by
  obtain ⟨ends, hends⟩ := Ends.exists_find hin hout
  refine ⟨scheduleAt ends actions, schedule_of_find hends actions, ?_⟩
  rw [schedule_of_find hends, scheduleAt_scheduleAt]

theorem schedule_idempotent_eachKind :
    let assets : List Text := [['a'], ['b'], ['c'], ['s'], ['t']]
    Address.IsAmong assets ['A'] ∧ Address.IsAmong assets ['C'] ∧
      ∃ ordered, schedule assets ['A'] ['C'] eachKind = .ok ordered ∧
        ordered.map Action.kind = [.deposit, .batchedExchange, .withdrawal, .withdrawal] ∧
        schedule assets ['A'] ['C'] ordered = .ok ordered := by
  have hin : Address.IsAmong [['a'], ['b'], ['c'], ['s'], ['t']] ['A'] := by decide
  have hout : Address.IsAmong [['a'], ['b'], ['c'], ['s'], ['t']] ['C'] := by decide
  obtain ⟨ordered, h, hagain⟩ := schedule_idempotent hin hout eachKind
  refine ⟨hin, hout, ordered, h, ?_, hagain⟩
  cases h
  rfl

end SwapRelay.Action
