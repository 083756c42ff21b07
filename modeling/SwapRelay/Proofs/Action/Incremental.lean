import SwapRelay.Proofs.Action.Idempotent

/-!
# Merging in pieces

Actions may be merged piece by piece. Two swaps that are put in front of a list one after the other
do the same to it as their batch does (`pushFront_merge`), so what was merged before stands for what
it was merged from, on either side of a cut (`batch_batch_append`, `batch_append_batch`). At a
deposit or a withdrawal no run goes across the cut, and the pieces need no second merging.

This is also why the merging, which is defined from the back of the list, can be done from its front
in one pass. Such a pass has to keep the swaps of the run that is still open, and these are the
piece that is not merged yet: `walk_eq`.
-/

namespace SwapRelay.Action

theorem pushFront_toBatch (a : Action) (h : a.kind.isExchange = true) (actions : List Action) :
    pushFront a.toBatch actions = pushFront a actions := by
  have hbatch : a.toBatch.kind.isExchange = true := rfl
  cases actions with
  | nil =>
      simp only [pushFront, h, hbatch, if_true]
      rfl
  | cons b rest =>
      simp only [pushFront, h, hbatch, if_true]
      rfl

theorem merge_merge (a b c : Action) : (a.merge b).merge c = a.merge (b.merge c) := by
  simp only [merge, List.append_assoc]

/-- A batch of two swaps does to a list what they do one after the other. -/
theorem pushFront_merge {a b : Action} (ha : a.kind.isExchange = true)
    (hb : b.kind.isExchange = true) (actions : List Action) :
    pushFront (a.merge b) actions = pushFront a (pushFront b actions) := by
  have hmerge : ∀ c : Action, (a.merge c).kind.isExchange = true := fun _ => rfl
  have hbatch : b.toBatch.kind.isExchange = true := rfl
  cases actions with
  | nil =>
      simp only [pushFront, ha, hb, hmerge, hbatch, if_true]
      rfl
  | cons c rest =>
      cases hc : c.kind.isExchange with
      | false =>
          simp only [pushFront, ha, hb, hc, hmerge, hbatch, if_true, Bool.false_eq_true, if_false]
          rfl
      | true =>
          have hbc : (b.merge c).kind.isExchange = true := rfl
          simp only [pushFront, ha, hb, hc, hmerge, hbc, if_true, merge_merge]

/-- An action joins what it meets, whether that has been merged with what comes after or not. -/
theorem batch_pushFront_append (a : Action) (front back : List Action) :
    batch (pushFront a front ++ back) = pushFront a (batch (front ++ back)) := by
  cases ha : a.kind.isExchange with
  | false =>
      have hfront : pushFront a front = a :: front := by
        cases front <;> simp [pushFront, ha]
      rw [hfront, List.cons_append, batch_cons]
  | true =>
      cases front with
      | nil =>
          have hlone : pushFront a [] = [a.toBatch] := by simp only [pushFront, ha, if_true]
          rw [hlone, List.singleton_append, List.nil_append, batch_cons, pushFront_toBatch a ha]
      | cons b rest =>
          cases hb : b.kind.isExchange with
          | false =>
              have hapart : pushFront a (b :: rest) = a.toBatch :: b :: rest := by
                simp [pushFront, ha, hb]
              rw [hapart, List.cons_append, batch_cons, pushFront_toBatch a ha]
          | true =>
              have hjoined : pushFront a (b :: rest) = a.merge b :: rest := by
                simp only [pushFront, ha, hb, if_true]
              rw [hjoined, List.cons_append, List.cons_append, batch_cons, batch_cons,
                pushFront_merge ha hb]

theorem batch_batch_append (xs ys : List Action) : batch (batch xs ++ ys) = batch (xs ++ ys) := by
  induction xs with
  | nil => rfl
  | cons a xs ih => rw [batch_cons, batch_pushFront_append, ih, List.cons_append, batch_cons]

theorem batch_append_batch (xs ys : List Action) : batch (xs ++ batch ys) = batch (xs ++ ys) := by
  rw [batch, List.foldr_append, ← batch, batch_batch, batch, ← List.foldr_append, ← batch]

/-- Pieces that were merged by themselves are merged to what the whole is merged to, and at a
deposit or a withdrawal there is nothing left to merge. -/
theorem batch_incremental (xs ys : List Action) :
    batch (batch xs ++ batch ys) = batch (xs ++ ys) ∧
      ∀ p : Action, p.kind.isPoolOperation = true →
        batch (xs ++ [p] ++ ys) = batch xs ++ [p] ++ batch ys := by
  constructor
  · rw [batch_batch_append, batch_append_batch]
  · intro p hp
    rw [List.append_assoc, List.singleton_append, batch_append_cons hp, List.append_assoc,
      List.singleton_append]

/-- Cut between two swaps, the pieces are one action more than the whole. -/
theorem batch_incremental_eachKind :
    let exit : Action := .single .withdrawal ⟨['q'], 3, 2, .chained (.slot 0), []⟩ [] 9
    let front := eachKind.take 3
    let back := eachKind.drop 3
    exit.kind.isPoolOperation = true ∧
      (batch front ++ batch back).length = 6 ∧
      batch (batch front ++ batch back) = batch eachKind ∧ (batch eachKind).length = 5 ∧
      batch (front ++ [exit] ++ back) = batch front ++ [exit] ++ batch back := by
  intro exit front back
  obtain ⟨hcut, hpool⟩ := batch_incremental front back
  have hexit : exit.kind.isPoolOperation = true := rfl
  exact ⟨hexit, rfl, hcut, rfl, hpool exit hexit⟩

/-! ## From the front -/

/-- The swaps of a run as one batch. -/
def close : List Action → List Action
  | [] => []
  | a :: rest => [Run.fuse a rest]

/-- The merging in one pass from the front, where `run` are the swaps of a run that is still open. -/
def walk (run : List Action) : List Action → List Action
  | [] => close run
  | a :: rest =>
    if a.kind.isExchange then walk (run ++ [a]) rest else close run ++ a :: walk [] rest

theorem close_eq {run : List Action} (h : ∀ a ∈ run, a.kind.isExchange = true) :
    close run = batch run := by
  cases run with
  | nil => rfl
  | cons a rest =>
      obtain ⟨group, hruns, hmembers⟩ := runs_of_swaps (List.cons_ne_nil a rest) h
      obtain ⟨hhead, htail⟩ := List.cons.inj hmembers
      rw [batch_eq, hruns, List.map_singleton, Run.action, hhead, htail, close]

/-- The pass goes on as if the open run stood in front of what is left of the list. -/
theorem walk_eq {run : List Action} (h : ∀ a ∈ run, a.kind.isExchange = true)
    (actions : List Action) : walk run actions = batch (run ++ actions) := by
  induction actions generalizing run with
  | nil => rw [walk, close_eq h, List.append_nil]
  | cons a rest ih =>
      rw [walk]
      split
      · next ha =>
          have hrun : ∀ b ∈ run ++ [a], b.kind.isExchange = true :=
            List.forall_mem_append.2 ⟨h, List.forall_mem_singleton.2 ha⟩
          rw [ih hrun, List.append_assoc, List.singleton_append]
      · next ha =>
          have hpool : a.kind.isPoolOperation = true := by
            rwa [ActionKind.isExchange, Bool.not_eq_true', Bool.not_eq_false] at ha
          rw [close_eq h, ih (List.forall_mem_nil _), List.nil_append, batch_append_cons hpool]

end SwapRelay.Action
