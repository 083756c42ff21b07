import SwapRelay.Action.Schedule
import SwapRelay.Proofs.Action.Walk

/-!
# The order of the calls keeps every read behind its write

Scheduling moves some actions to the front and some to the back. What goes to the front spends the
route's input, so it reads no reference; what goes to the back pays the route's output, so it writes
none. A reference that is read was therefore written by an action that stands in front of the reader
still: `Walked.backed_arranged`. Nothing is lost on the way either, the new order being a
rearrangement of the old one.
-/

namespace SwapRelay.Action

/-- Every reference that is read, going from front to back, is among those known by then. -/
def Backed : List Reference → List Action → Prop
  | _, [] => True
  | known, a :: rest => (∀ r, a.read? = some r → r ∈ known) ∧ Backed (known ++ a.keys) rest

theorem backed_append {known : List Reference} {front back : List Action} :
    Backed known (front ++ back) ↔
      Backed known front ∧ Backed (known ++ front.flatMap Action.keys) back := by
  induction front generalizing known with
  | nil => simp [Backed]
  | cons a rest ih =>
      simp only [List.cons_append, Backed, ih, List.flatMap_cons, List.append_assoc, and_assoc]

theorem backed_of_read?_eq_none {known : List Reference} {actions : List Action}
    (h : ∀ a ∈ actions, a.read? = none) : Backed known actions := by
  induction actions generalizing known with
  | nil => trivial
  | cons a rest ih =>
      refine ⟨fun r hr => ?_, ih fun b hb => h b (List.mem_cons_of_mem _ hb)⟩
      rw [h a (List.mem_cons_self ..)] at hr
      cases hr

namespace Frame

variable (frame : Frame) {keys : Nat} {kind : ActionKind} {hop : Hop}

theorem input_of_place_link (h : (frame.link keys kind hop).place frame.ends = .enter) :
    hop.assetIn = frame.ends.input := by
  simp only [place] at h
  split at h
  · split at h
    · next hin => exact hin
    · split at h <;> cases h
  · cases h

theorem isLast_of_place_link (h : (frame.link keys kind hop).place frame.ends = .exit) :
    frame.isLast hop = true := by
  rw [isLast_iff]
  simp only [place] at h
  split at h
  · split at h
    · cases h
    · split at h
      · next hout => exact hout
      · cases h
  · cases h

end Frame

/-- The actions in the order of the calls, before neighbouring swaps are merged. -/
def arranged (ends : Ends) (actions : List Action) : List Action :=
  (partition ends actions).toList

theorem arranged_perm (ends : Ends) (actions : List Action) :
    (arranged ends actions).Perm actions := by
  induction actions with
  | nil => exact .refl _
  | cons a rest ih =>
      simp only [arranged, partition, Partition.toList] at ih ⊢
      cases hplace : a.place ends with
      | enter => simpa [List.filter_cons, hplace] using ih.cons a
      | middle =>
          simp only [List.filter_cons, hplace, reduceCtorEq, decide_false, decide_true,
            Bool.false_eq_true, if_false, if_true, List.append_assoc, List.cons_append] at ih ⊢
          exact List.perm_middle.trans (ih.cons a)
      | exit =>
          simp only [List.filter_cons, hplace, reduceCtorEq, decide_false, decide_true,
            Bool.false_eq_true, if_false, if_true] at ih ⊢
          exact List.perm_middle.trans (ih.cons a)

theorem filter_place {ends : Ends} {block : List Action} {q : Place}
    (h : ∀ a ∈ block, a.place ends = q) (p : Place) :
    block.filter (·.place ends = p) = if p = q then block else [] := by
  split
  · next hp =>
      rw [List.filter_eq_self]
      exact fun a ha => decide_eq_true ((h a ha).trans hp.symm)
  · next hp =>
      rw [List.filter_eq_nil_iff]
      exact fun a ha hin => hp ((of_decide_eq_true hin).symm.trans (h a ha))

/-- A list of three blocks, of what enters, what stays in the middle and what leaves. -/
theorem arranged_of_blocks {ends : Ends} {enter middle exit : List Action}
    (henter : ∀ a ∈ enter, a.place ends = .enter) (hmiddle : ∀ a ∈ middle, a.place ends = .middle)
    (hexit : ∀ a ∈ exit, a.place ends = .exit) :
    arranged ends (enter ++ middle ++ exit) = enter ++ middle ++ exit := by
  simp only [arranged, partition, Partition.toList, List.filter_append, filter_place henter,
    filter_place hmiddle, filter_place hexit]
  simp

/-- Only deposits and withdrawals are moved. -/
theorem arranged_of_swaps (ends : Ends) {actions : List Action}
    (h : ∀ a ∈ actions, a.kind.isExchange = true) : arranged ends actions = actions := by
  have hplace : ∀ a ∈ actions, a.place ends = .middle := by
    intro a ha
    have hswap := h a ha
    rw [ActionKind.isExchange, Bool.not_eq_true'] at hswap
    rw [place, hswap]
    rfl
  have hnone : ∀ p : Place, ∀ a ∈ ([] : List Action), a.place ends = p :=
    fun _ a ha => absurd ha List.not_mem_nil
  have hblocks := arranged_of_blocks (hnone .enter) hplace (hnone .exit)
  rwa [List.nil_append, List.append_nil] at hblocks

namespace Walked

variable {frame : Frame} {keys : Nat} {hops : List Hop} {actions : List Action}

/-- The induction behind every order: take some actions of a walk out, and the others still find
what they read, provided that what was taken out wrote only what is known already. -/
theorem backed_filter (h : Walked frame keys hops actions)
    (hlit : ∀ hop ∈ hops, hop.amount.isLiteral = true) {p : Action → Bool} {known : List Reference}
    (hbefore : ∀ k < keys, Reference.slot k ∈ known)
    (hskip : ∀ a ∈ actions, p a = false → ∀ r ∈ a.keys, r ∈ known) :
    Backed known (actions.filter p) := by
  induction h generalizing known with
  | nil => trivial
  | @cons keys hop rest actions pool kind _ _ fed tail ih =>
      have hwritten : (frame.link keys kind hop).keys =
          if frame.isLast hop then [] else [.slot keys] := frame.keys_link
      have hlit' : ∀ hop ∈ rest, hop.amount.isLiteral = true :=
        fun other hmem => hlit other (List.mem_cons_of_mem _ hmem)
      rw [List.filter_cons]
      -- The keys known after this action reach as far as the walk has come, be it taken out or not.
      have hafter : ∀ more : List Reference, (∀ r ∈ known, r ∈ more) →
          (∀ r ∈ (frame.link keys kind hop).keys, r ∈ more) →
          ∀ k < frame.keysAfter keys hop, Reference.slot k ∈ more := by
        intro more hknown hkeys k hk
        simp only [Frame.keysAfter] at hk
        rcases Nat.lt_or_ge k keys with hlt | hge
        · exact hknown _ (hbefore k hlt)
        · split at hk
          · omega
          · next hlast =>
              obtain rfl : k = keys := by omega
              apply hkeys
              rw [hwritten, if_neg hlast]
              exact List.mem_singleton_self _
      split
      · refine ⟨?_, ih hlit' ?_ ?_⟩
        · intro r hr
          rw [frame.read?_link (hlit hop (List.mem_cons_self ..))] at hr
          split at hr
          · cases hr
          · next hin =>
              have hpos : 0 < keys := fed.resolve_left hin
              cases hr
              exact hbefore _ (by omega)
        · exact hafter _ (fun r hr => List.mem_append_left _ hr)
            (fun r hr => List.mem_append_right _ hr)
        · intro a ha hp r hr
          exact List.mem_append_left _ (hskip a (List.mem_cons_of_mem _ ha) hp r hr)
      · next hp =>
          rw [Bool.not_eq_true] at hp
          refine ih hlit' ?_ fun a ha => hskip a (List.mem_cons_of_mem _ ha)
          exact hafter known (fun r hr => hr) (hskip _ (List.mem_cons_self ..) hp)

theorem backed (h : Walked frame 0 hops actions)
    (hlit : ∀ hop ∈ hops, hop.amount.isLiteral = true) : Backed [] actions := by
  have hall : Backed [] (actions.filter fun _ => true) := h.backed_filter hlit
    (fun k hk => absurd hk (Nat.not_lt_zero k)) (fun _ _ hp => absurd hp (by decide))
  rwa [List.filter_true] at hall

theorem read?_eq_none_of_enter (h : Walked frame keys hops actions)
    (hlit : ∀ hop ∈ hops, hop.amount.isLiteral = true) {a : Action} (ha : a ∈ actions)
    (hplace : a.place frame.ends = .enter) : a.read? = none := by
  obtain ⟨hop, hmem, before, kind, -, rfl⟩ := h.exists_link ha
  rw [frame.read?_link (hlit hop hmem), if_pos (frame.input_of_place_link hplace)]

theorem keys_eq_nil_of_exit (h : Walked frame keys hops actions) {a : Action} (ha : a ∈ actions)
    (hplace : a.place frame.ends = .exit) : a.keys = [] := by
  obtain ⟨hop, -, before, kind, -, rfl⟩ := h.exists_link ha
  rw [Frame.keys_link, if_pos (frame.isLast_of_place_link hplace)]

/-- In the order of the calls every read still finds its write. -/
theorem backed_arranged (h : Walked frame 0 hops actions)
    (hlit : ∀ hop ∈ hops, hop.amount.isLiteral = true) :
    Backed [] (arranged frame.ends actions) := by
  have hstart : ∀ known : List Reference, ∀ k < 0, Reference.slot k ∈ known :=
    fun _ k hk => absurd hk (Nat.not_lt_zero k)
  have hmem : ∀ (p : Place) (a : Action), a ∈ actions → a.place frame.ends = p →
      ∀ r ∈ a.keys, r ∈ (actions.filter (·.place frame.ends = p)).flatMap Action.keys := by
    intro p a ha hp r hr
    exact List.mem_flatMap.2 ⟨a, List.mem_filter.2 ⟨ha, decide_eq_true hp⟩, hr⟩
  simp only [arranged, Partition.toList, partition]
  rw [List.append_assoc, backed_append, backed_append]
  refine ⟨?_, ?_, ?_⟩
  · apply backed_of_read?_eq_none
    intro a ha
    obtain ⟨ha, hplace⟩ := List.mem_filter.1 ha
    exact h.read?_eq_none_of_enter hlit ha (of_decide_eq_true hplace)
  · apply h.backed_filter hlit (hstart _)
    intro a ha hp r hr
    cases hplace : a.place frame.ends with
    | enter => exact List.mem_append_right _ (hmem .enter a ha hplace r hr)
    | middle => rw [hplace] at hp; exact absurd hp (by decide)
    | exit => rw [h.keys_eq_nil_of_exit ha hplace] at hr; cases hr
  · apply h.backed_filter hlit (hstart _)
    intro a ha hp r hr
    cases hplace : a.place frame.ends with
    | enter =>
        exact List.mem_append_left _ (List.mem_append_right _ (hmem .enter a ha hplace r hr))
    | middle => exact List.mem_append_right _ (hmem .middle a ha hplace r hr)
    | exit => rw [hplace] at hp; exact absurd hp (by decide)

theorem nodup_keys_arranged (h : Walked frame keys hops actions) :
    ((arranged frame.ends actions).flatMap Action.keys).Nodup :=
  ((arranged_perm frame.ends actions).flatMap_right Action.keys).nodup_iff.2 h.nodup_keys

end Walked

end SwapRelay.Action
