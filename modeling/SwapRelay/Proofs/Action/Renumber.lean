import Mathlib.Logic.Equiv.Basic
import SwapRelay.Proofs.Action.Congruence
import SwapRelay.Proofs.Address

/-!
# Renumbering the assets of a route

The hops of a route name their tokens by places in the route's list of assets. If the assets change
places and the hops name the new ones, nothing else should change. The ends of the route are looked
up by name, and found at their new places because no asset is in the list twice
(`Address.indexOf?_moved`); all other questions about places are whether two of them are equal,
which a permutation leaves as it is. So the walk over the hops makes the same actions with new
places, or fails with the same error (`ofHops_renumbered`), and scheduling puts these in the same
order (`schedule_renumbered`).
-/

namespace SwapRelay

/-- The items of the one list at other places: what is at a place of `l` is where `π` sends the
place in `m`. -/
def Moved {α : Type} (π : Equiv.Perm Nat) (l m : List α) : Prop :=
  ∀ i, m[π i]? = l[i]?

namespace Moved

variable {α β : Type} {π : Equiv.Perm Nat} {l m : List α}

theorem symm (h : Moved π l m) : Moved π.symm m l := by
  intro i
  rw [← h, π.apply_symm_apply]

theorem mem (h : Moved π l m) {a : α} (ha : a ∈ l) : a ∈ m := by
  obtain ⟨i, hi⟩ := List.getElem?_of_mem ha
  rw [← h] at hi
  exact List.mem_of_getElem? hi

theorem mem_iff (h : Moved π l m) {a : α} : a ∈ m ↔ a ∈ l :=
  ⟨h.symm.mem, h.mem⟩

theorem lt_iff (h : Moved π l m) {i : Nat} : π i < m.length ↔ i < l.length := by
  rw [← Nat.not_le, ← Nat.not_le, ← List.getElem?_eq_none_iff, ← List.getElem?_eq_none_iff, h]

theorem map (h : Moved π l m) (f : α → β) : Moved π (l.map f) (m.map f) := by
  intro i
  rw [List.getElem?_map, List.getElem?_map, h]

theorem set (h : Moved π l m) (i : Nat) (a : α) : Moved π (l.set i a) (m.set (π i) a) := by
  intro j
  rw [List.getElem?_set, List.getElem?_set, h]
  simp only [π.injective.eq_iff, h.lt_iff]

theorem nodup (h : Moved π l m) (hl : l.Nodup) : m.Nodup := by
  rw [List.nodup_iff_getElem?_ne_getElem?]
  intro i j hij hj heq
  have hlt : π.symm i < l.length := h.symm.lt_iff.2 (Nat.lt_trans hij hj)
  rw [← h.symm i, ← h.symm j] at heq
  exact Nat.ne_of_lt hij (π.symm.injective ((List.getElem?_inj hlt hl).1 heq))

end Moved

def Ends.renumber (π : Equiv.Perm Nat) (ends : Ends) : Ends :=
  ⟨π ends.input, π ends.output⟩

section Tokens

variable {π : Equiv.Perm Nat} {l m : List Text}

theorem assetAt_moved (h : Moved π l m) (i : Nat) : assetAt m (π i) = assetAt l i := by
  simp only [assetAt, h i]

/-- Where no token is in the list twice, a token is found wherever it is. -/
theorem Address.indexOf?_eq_some_iff (hl : (l.map Text.lower).Nodup) {token : Text} {i : Nat} :
    indexOf? l token = some i ↔ ∃ t, l[i]? = some t ∧ same t token = true := by
  refine ⟨getElem?_of_indexOf?, ?_⟩
  rintro ⟨t, ht, hsame⟩
  obtain ⟨j, hj⟩ := Option.isSome_iff_exists.1
    (isSome_indexOf?.2 ⟨t, List.mem_of_getElem? ht, hsame⟩)
  obtain ⟨u, hu, hsame'⟩ := getElem?_of_indexOf? hj
  have hlt : j < (l.map Text.lower).length := by
    rw [List.length_map]
    exact (List.getElem?_eq_some_iff.1 hu).1
  have hlower : (l.map Text.lower)[j]? = (l.map Text.lower)[i]? := by
    rw [List.getElem?_map, List.getElem?_map, hu, ht, Option.map_some, Option.map_some,
      same_iff.1 hsame, same_iff.1 hsame']
  rw [hj, (List.getElem?_inj hlt hl).1 hlower]

variable (hl : (l.map Text.lower).Nodup) (h : Moved π l m)

include hl h

theorem Address.indexOf?_moved (token : Text) :
    indexOf? m token = (indexOf? l token).map π := by
  have hm : (m.map Text.lower).Nodup := (h.map Text.lower).nodup hl
  cases hfound : indexOf? l token with
  | none =>
      apply indexOf?_eq_none
      rintro ⟨t, ht, hsame⟩
      have hamong : IsAmong l token := ⟨t, h.mem_iff.1 ht, hsame⟩
      rw [← isSome_indexOf?, hfound] at hamong
      cases hamong
  | some i =>
      obtain ⟨t, ht, hsame⟩ := getElem?_of_indexOf? hfound
      exact (indexOf?_eq_some_iff hm).2 ⟨t, (h i).trans ht, hsame⟩

theorem Ends.find_moved (tokenIn tokenOut : Text) :
    Except.Rel Eq (fun ends ends' => ends' = ends.renumber π)
      (find l tokenIn tokenOut) (find m tokenIn tokenOut) := by
  simp only [find]
  rw [Address.indexOf?_moved hl h, Address.indexOf?_moved hl h]
  cases Address.indexOf? l tokenIn with
  | none => exact .error rfl
  | some i =>
      cases Address.indexOf? l tokenOut with
      | none => exact .error rfl
      | some o => exact .ok rfl

end Tokens

/-! ## Hops and actions with new places -/

def Hop.renumber (π : Equiv.Perm Nat) (hop : Hop) : Hop :=
  { hop with assetIn := π hop.assetIn, assetOut := π hop.assetOut }

def OutputReference.renumber (π : Equiv.Perm Nat) (output : OutputReference) : OutputReference :=
  { output with index := π output.index }

namespace Action

def renumber (π : Equiv.Perm Nat) (a : Action) : Action where
  kind := a.kind
  hops := a.hops.map (·.renumber π)
  outputs := a.outputs.map (·.renumber π)
  minOut := a.minOut
  hops_ne_nil := mt List.map_eq_nil_iff.1 a.hops_ne_nil
  single_of_ne_batched h := (List.length_map _).trans (a.single_of_ne_batched h)

variable {π : Equiv.Perm Nat}

theorem firstHop_renumber (a : Action) : (a.renumber π).firstHop = a.firstHop.renumber π :=
  List.head_map ..

theorem lastHop_renumber (a : Action) : (a.renumber π).lastHop = a.lastHop.renumber π :=
  List.getLast_map ..

/-- The second action is the first one with new places. -/
def Renumbered (π : Equiv.Perm Nat) (a b : Action) : Prop :=
  b = a.renumber π

section Walk

variable {frame : Frame} {assets : List Text} (h : Moved π frame.assets assets)

include h

theorem ofHop_renumbered (position keys : Nat) (hop : Hop) :
    Except.Rel Eq (Renumbered π) (ofHop frame position keys hop)
      (ofHop { frame with assets, ends := frame.ends.renumber π } position keys
        (hop.renumber π)) := by
  have hkind (address : Text) :
      (hop.renumber π).classify assets address = hop.classify frame.assets address := by
    simp only [Hop.classify, Hop.renumber, assetAt_moved h]
  have hamount : chainedAmount { frame with assets, ends := frame.ends.renumber π } position keys
      (hop.renumber π) = chainedAmount frame position keys hop := by
    simp only [chainedAmount, Hop.renumber, Ends.renumber, π.injective.eq_iff]
  refine .after _ fun pool => ?_
  rw [hkind]
  refine .after _ fun kind => ?_
  rw [hamount]
  refine .after _ fun amount => ?_
  have hlast : Frame.isLast { frame with assets, ends := frame.ends.renumber π }
      { hop.renumber π with amount } = frame.isLast { hop with amount } := by
    rw [Bool.eq_iff_iff, Frame.isLast_iff, Frame.isLast_iff]
    exact π.injective.eq_iff
  dsimp only
  rw [hlast]
  split
  · exact .ok rfl
  · exact .ok rfl

theorem chain_renumbered (position keys : Nat) (hops : List Hop) :
    Except.Rel Eq (List.Forall₂ (Renumbered π)) (chain frame position keys hops)
      (chain { frame with assets, ends := frame.ends.renumber π } position keys
        (hops.map (·.renumber π))) := by
  refine chain_rel (Q := fun g k => k = g.renumber π) ?_ ?_ ?_ position keys
  · rintro g _ rfl
    rw [Bool.eq_iff_iff, Frame.isLast_iff, Frame.isLast_iff]
    exact π.injective.eq_iff.symm
  · rintro position keys g _ rfl
    exact ofHop_renumbered h position keys g
  · rw [List.forall₂_map_right_iff, List.forall₂_same]
    exact fun _ _ => rfl

end Walk

theorem congruence_renumbered (ends : Ends) :
    Congruence ends (ends.renumber π) (Renumbered π) where
  kind := by
    rintro a _ rfl
    rfl
  place := by
    rintro a _ rfl
    rw [place, place, firstHop_renumber]
    simp only [renumber, Hop.renumber, Ends.renumber, π.injective.eq_iff]
  toBatch := by
    rintro a _ rfl -
    rfl
  merge := by
    rintro a _ c _ rfl rfl - -
    simp only [Renumbered, merge, renumber, List.map_append]

section Route

variable {l m : List Text} (hl : (l.map Text.lower).Nodup) (h : Moved π l m)

include hl h

/-- The hops of a route become the same actions with new places, or one of them fails as before. -/
theorem ofHops_renumbered (registry : Registry) (tokenIn tokenOut : Text) (minOut : Int)
    (hops : List Hop) :
    Except.Rel Eq (List.Forall₂ (Renumbered π)) (ofHops registry l tokenIn tokenOut minOut hops)
      (ofHops registry m tokenIn tokenOut minOut (hops.map (·.renumber π))) := by
  simp only [ofHops, List.isEmpty_map]
  split
  · exact .error rfl
  · refine (Ends.find_moved hl h tokenIn tokenOut).bind ?_
    rintro ends _ rfl
    exact @chain_renumbered π ⟨registry, l, ends, minOut⟩ m h 0 0 hops

theorem schedule_renumbered (tokenIn tokenOut : Text) {actions others : List Action}
    (hactions : List.Forall₂ (Renumbered π) actions others) :
    Except.Rel Eq (List.Forall₂ (Renumbered π)) (schedule l tokenIn tokenOut actions)
      (schedule m tokenIn tokenOut others) := by
  refine (Ends.find_moved hl h tokenIn tokenOut).bind ?_
  rintro ends _ rfl
  exact .ok ((congruence_renumbered ends).scheduleAt_rel hactions)

end Route

end Action

end SwapRelay
