import Mathlib.Data.List.Forall2
import SwapRelay.Proofs.Action.Order

/-!
# Two routes side by side

Two routes whose hops are related one by one are walked in lockstep, and it is enough to relate what
the walk makes of one hop to have their actions related (`chain_rel`).

Scheduling asks of an action what kind it is of and where it goes, and changes it by making a batch
of it or by putting a second swap into its batch. A relation between actions that the questions
cannot see through, and that the changes keep, is a congruence: two lists whose actions are related
one by one are scheduled to lists whose actions are related one by one
(`Congruence.scheduleAt_rel`).
-/

namespace SwapRelay.Action

section Walk

variable {frame frame' : Frame}

/-- Walks over hops that end the route together, and whose actions are related or fail alike. -/
theorem chain_rel {Q : Hop → Hop → Prop} {R : Action → Action → Prop} {S : Error → Error → Prop}
    (hlast : ∀ g h, Q g h → frame.isLast g = frame'.isLast h)
    (hstep : ∀ position keys g h, Q g h →
      Except.Rel S R (ofHop frame position keys g) (ofHop frame' position keys h))
    {hops others : List Hop} (h : List.Forall₂ Q hops others) (position keys : Nat) :
    Except.Rel S (List.Forall₂ R) (chain frame position keys hops)
      (chain frame' position keys others) := by
  induction h generalizing position keys with
  | nil => exact .ok .nil
  | cons hgh _ ih =>
      refine (hstep position keys _ _ hgh).bind fun a b hab => ?_
      rw [hlast _ _ hgh]
      exact (ih _ _).bind fun more more' hmore => .ok (.cons hab hmore)

theorem chain_congr (hends : frame.ends = frame'.ends)
    (hstep : ∀ position keys hop, ofHop frame position keys hop = ofHop frame' position keys hop) :
    chain frame = chain frame' := by
  funext position keys hops
  have hrel : Except.Rel Eq (List.Forall₂ Eq) (chain frame position keys hops)
      (chain frame' position keys hops) := by
    refine chain_rel (Q := Eq) ?_ ?_ (List.forall₂_refl hops) position keys
    · rintro g _ rfl
      simp only [Frame.isLast]
      rw [hends]
    · rintro position keys g _ rfl
      rw [hstep]
      exact .refl _
  rw [List.forall₂_eq_eq_eq] at hrel
  exact hrel.eq

end Walk

/-- Related actions are scheduled alike on routes with these ends. -/
structure Congruence (ends ends' : Ends) (R : Action → Action → Prop) : Prop where
  kind {a b : Action} (h : R a b) : a.kind = b.kind
  place {a b : Action} (h : R a b) : a.place ends = b.place ends'
  toBatch {a b : Action} (h : R a b) (hswap : a.kind.isExchange = true) : R a.toBatch b.toBatch
  merge {a b c d : Action} (hab : R a b) (hcd : R c d) (hswap : a.kind.isExchange = true)
    (hswap' : c.kind.isExchange = true) : R (a.merge c) (b.merge d)

namespace Congruence

variable {ends ends' : Ends} {R : Action → Action → Prop} {l m : List Action}

theorem arranged_rel (h : Congruence ends ends' R) (hlm : List.Forall₂ R l m) :
    List.Forall₂ R (arranged ends l) (arranged ends' m) := by
  have hpart (p : Place) :
      List.Forall₂ R (l.filter (·.place ends = p)) (m.filter (·.place ends' = p)) := by
    refine List.rel_filter ?_ hlm
    intro a b hab
    dsimp only
    rw [h.place hab]
  exact List.rel_append (List.rel_append (hpart .enter) (hpart .middle)) (hpart .exit)

theorem pushFront_rel (h : Congruence ends ends' R) {a b : Action} (hab : R a b)
    (hlm : List.Forall₂ R l m) : List.Forall₂ R (a.pushFront l) (b.pushFront m) := by
  have hkind := h.kind hab
  cases hlm with
  | nil =>
      simp only [pushFront]
      rw [← hkind]
      split
      · next hswap => exact .cons (h.toBatch hab hswap) .nil
      · exact .cons hab .nil
  | cons hcd hrest =>
      simp only [pushFront]
      rw [← hkind, ← h.kind hcd]
      split
      · next hswap =>
          split
          · next hswap' => exact .cons (h.merge hab hcd hswap hswap') hrest
          · exact .cons (h.toBatch hab hswap) (.cons hcd hrest)
      · exact .cons hab (.cons hcd hrest)

theorem scheduleAt_rel (h : Congruence ends ends' R) (hlm : List.Forall₂ R l m) :
    List.Forall₂ R (scheduleAt ends l) (scheduleAt ends' m) := by
  have hpush : Relator.LiftFun R (Relator.LiftFun (List.Forall₂ R) (List.Forall₂ R)) pushFront
      pushFront := fun _ _ hab _ _ hrest => h.pushFront_rel hab hrest
  exact List.rel_foldr hpush .nil (h.arranged_rel hlm)

end Congruence

end SwapRelay.Action
