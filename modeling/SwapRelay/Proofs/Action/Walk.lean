import Mathlib.Data.List.Nodup
import SwapRelay.Action.Chain
import SwapRelay.Proofs.Outcome

/-!
# What the walk over the hops makes

A walk that succeeds makes one action of each hop, and all that it does to the hop is to decide the
amount, the outputs and the bound by two tests on the hop's places and the number of keys handed
out so far. `Frame.link` is that action, `Walked` is the walk with the failures left out, and
`walked_of_ofHops` gets from the one to the other. What a walk writes follows by induction: the
keys from the first free one on, each once and in order (`Walked.keys_eq`).
-/

namespace SwapRelay

def Amount.isLiteral : Amount → Bool
  | .literal _ => true
  | .chained _ => false

/-- The slot of a key, which the first read clears. -/
def Reference.slot (key : Nat) : Reference :=
  ⟨key, true⟩

theorem Reference.slot_injective : Function.Injective Reference.slot := by
  intro j k h
  exact Int.ofNat.inj (congrArg Reference.key h)

theorem assetAt_eq_ok {assets : List Text} {i : Nat} {token : Text} :
    assetAt assets i = .ok token ↔ assets[i]? = some token := by
  simp only [assetAt]
  split
  · next t ht => rw [ht, Except.ok.injEq, Option.some.injEq]
  · next ht => simp [ht]

theorem assetAt_of_lt {assets : List Text} {i : Nat} (h : i < assets.length) :
    assetAt assets i = .ok assets[i] :=
  assetAt_eq_ok.2 (List.getElem?_eq_getElem h)

theorem assetAt_of_le {assets : List Text} {i : Nat} (h : assets.length ≤ i) :
    assetAt assets i = .error .assetIndex := by
  simp only [assetAt]
  rw [List.getElem?_eq_none h]

theorem lt_of_assetAt {assets : List Text} {i : Nat} {token : Text}
    (h : assetAt assets i = .ok token) : i < assets.length :=
  (List.getElem?_eq_some_iff.1 (assetAt_eq_ok.1 h)).1

/-- The token is one of these, in whatever case. -/
def Address.IsAmong (tokens : List Text) (token : Text) : Prop :=
  ∃ t ∈ tokens, same t token = true

instance (tokens : List Text) (token : Text) : Decidable (Address.IsAmong tokens token) :=
  inferInstanceAs (Decidable (∃ t ∈ tokens, Address.same t token = true))

theorem Address.isSome_indexOf? {tokens : List Text} {token : Text} :
    (indexOf? tokens token).isSome = true ↔ IsAmong tokens token := by
  rw [indexOf?, List.findIdx?_isSome, List.any_eq_true]
  rfl

theorem Address.indexOf?_eq_none {tokens : List Text} {token : Text}
    (h : ¬ IsAmong tokens token) : indexOf? tokens token = none := by
  rw [← isSome_indexOf?] at h
  exact Option.not_isSome_iff_eq_none.1 h

theorem Ends.exists_find {assets : List Text} {tokenIn tokenOut : Text}
    (hin : Address.IsAmong assets tokenIn) (hout : Address.IsAmong assets tokenOut) :
    ∃ ends, Ends.find assets tokenIn tokenOut = .ok ends := by
  obtain ⟨i, hi⟩ := Option.isSome_iff_exists.1 (Address.isSome_indexOf?.2 hin)
  obtain ⟨o, ho⟩ := Option.isSome_iff_exists.1 (Address.isSome_indexOf?.2 hout)
  exact ⟨⟨i, o⟩, by simp only [find, hi, ho]⟩

theorem Ends.indexOf?_of_find {assets : List Text} {tokenIn tokenOut : Text} {ends : Ends}
    (h : Ends.find assets tokenIn tokenOut = .ok ends) :
    Address.indexOf? assets tokenIn = some ends.input ∧
      Address.indexOf? assets tokenOut = some ends.output := by
  simp only [find] at h
  split at h
  · next hin hout =>
      cases h
      exact ⟨hin, hout⟩
  · cases h
  · cases h

theorem Hop.classify_ne_batched {hop : Hop} {assets : List Text} {address : Text}
    {kind : ActionKind} (h : hop.classify assets address = .ok kind) : kind ≠ .batchedExchange := by
  obtain ⟨tokenIn, -, h⟩ := Except.bind_eq_ok.1 h
  obtain ⟨tokenOut, -, h⟩ := Except.bind_eq_ok.1 h
  rintro rfl
  split at h <;> cases h

namespace Action

def keys (a : Action) : List Reference :=
  a.outputs.map (·.key)

/-- The reference that the action's first hop reads. -/
def read? (a : Action) : Option Reference :=
  match a.firstHop.amount with
  | .literal _ => none
  | .chained r => some r

theorem hops_eq_singleton {a : Action} (h : a.kind ≠ .batchedExchange) : a.hops = [a.firstHop] := by
  obtain ⟨hop, hhops⟩ := List.length_eq_one_iff.1 (a.single_of_ne_batched h)
  simp only [firstHop, hhops, List.head_cons]

theorem lastHop_eq_firstHop {a : Action} (h : a.kind ≠ .batchedExchange) :
    a.lastHop = a.firstHop := by
  simp only [lastHop, hops_eq_singleton h, List.getLast_singleton]

theorem flatMap_hops_eq_map {actions : List Action}
    (h : ∀ a ∈ actions, a.kind ≠ .batchedExchange) :
    actions.flatMap hops = actions.map firstHop := by
  rw [List.map_eq_flatMap]
  exact List.flatMap_congr fun a ha => hops_eq_singleton (h a ha)

namespace Frame

variable (frame : Frame)

/-- A hop that does not start from the route's input reads the key handed out last. -/
def fedAmount (keys : Nat) (hop : Hop) : Amount :=
  if hop.assetIn = frame.ends.input then hop.amount else .chained (.slot (keys - 1))

/-- The action of a hop of this kind, after `keys` keys were handed out. -/
def link (keys : Nat) (kind : ActionKind) (hop : Hop) : Action :=
  single kind { hop with amount := frame.fedAmount keys hop }
    (if frame.isLast hop then [] else [⟨hop.assetOut, .slot keys⟩])
    (if frame.isLast hop then frame.minOut else 0)

def keysAfter (keys : Nat) (hop : Hop) : Nat :=
  if frame.isLast hop then keys else keys + 1

variable {keys : Nat} {kind : ActionKind} {hop : Hop}

@[simp]
theorem firstHop_link :
    (frame.link keys kind hop).firstHop = { hop with amount := frame.fedAmount keys hop } := rfl

theorem outputs_link :
    (frame.link keys kind hop).outputs =
      if frame.isLast hop then [] else [⟨hop.assetOut, .slot keys⟩] := rfl

theorem keys_link :
    (frame.link keys kind hop).keys = if frame.isLast hop then [] else [.slot keys] := by
  rw [Action.keys, outputs_link]
  split <;> rfl

theorem read?_link (hlit : hop.amount.isLiteral = true) :
    (frame.link keys kind hop).read? =
      if hop.assetIn = frame.ends.input then none else some (.slot (keys - 1)) := by
  rw [read?, firstHop_link]
  dsimp only
  by_cases hin : hop.assetIn = frame.ends.input
  · rw [if_pos hin, fedAmount, if_pos hin]
    cases hamount : hop.amount with
    | literal n => rfl
    | chained r => rw [hamount] at hlit; cases hlit
  · rw [if_neg hin, fedAmount, if_neg hin]

theorem isLast_iff : frame.isLast hop = true ↔ hop.assetOut = frame.ends.output := by
  simp only [isLast]
  rw [beq_iff_eq]

end Frame

/-- A walk over hops that found every pool and never lacked an amount, from the point on at which
`keys` keys were handed out. -/
inductive Walked (frame : Frame) : Nat → List Hop → List Action → Prop
  | nil {keys : Nat} : Walked frame keys [] []
  | cons {keys : Nat} {hop : Hop} {rest : List Hop} {actions : List Action} {pool : Pool}
      {kind : ActionKind} (known : frame.registry.get hop.poolId = .ok pool)
      (classified : hop.classify frame.assets pool.address = .ok kind)
      (fed : hop.assetIn = frame.ends.input ∨ 0 < keys)
      (tail : Walked frame (frame.keysAfter keys hop) rest actions) :
      Walked frame keys (hop :: rest) (frame.link keys kind hop :: actions)

variable {frame : Frame}

theorem chainedAmount_eq_ok {position keys : Nat} {hop : Hop} {amount : Amount}
    (h : chainedAmount frame position keys hop = .ok amount) :
    (hop.assetIn = frame.ends.input ∨ 0 < keys) ∧ amount = frame.fedAmount keys hop := by
  simp only [chainedAmount] at h
  simp only [Frame.fedAmount]
  split at h
  · next hin =>
      rw [if_pos hin]
      exact ⟨.inl hin, (Except.ok.inj h).symm⟩
  · next hin =>
      rw [if_neg hin]
      cases keys with
      | zero => cases h
      | succ last => exact ⟨.inr (Nat.succ_pos last), (Except.ok.inj h).symm⟩

theorem ofHop_eq_ok {position keys : Nat} {hop : Hop} {a : Action}
    (h : ofHop frame position keys hop = .ok a) :
    ∃ pool kind, frame.registry.get hop.poolId = .ok pool ∧
      hop.classify frame.assets pool.address = .ok kind ∧
      (hop.assetIn = frame.ends.input ∨ 0 < keys) ∧ a = frame.link keys kind hop := by
  obtain ⟨pool, hpool, h⟩ := Except.bind_eq_ok.1 h
  obtain ⟨kind, hkind, h⟩ := Except.bind_eq_ok.1 h
  obtain ⟨amount, hamount, h⟩ := Except.bind_eq_ok.1 h
  obtain ⟨hfed, rfl⟩ := chainedAmount_eq_ok hamount
  refine ⟨pool, kind, hpool, hkind, hfed, ?_⟩
  have hlast :
      frame.isLast { hop with amount := frame.fedAmount keys hop } = frame.isLast hop := rfl
  dsimp only at h
  rw [hlast] at h
  simp only [Frame.link]
  split at h <;> next hl => simp only [hl]; exact (Except.pure_eq_ok.1 h).symm

theorem walked_of_chain {hops : List Hop} {position keys : Nat} {actions : List Action}
    (h : chain frame position keys hops = .ok actions) : Walked frame keys hops actions := by
  induction hops generalizing position keys actions with
  | nil => cases h; exact .nil
  | cons hop rest ih =>
      obtain ⟨a, ha, h⟩ := Except.bind_eq_ok.1 h
      obtain ⟨more, hmore, h⟩ := Except.bind_eq_ok.1 h
      cases Except.pure_eq_ok.1 h
      obtain ⟨pool, kind, hpool, hkind, hfed, rfl⟩ := ofHop_eq_ok ha
      exact .cons hpool hkind hfed (ih hmore)

theorem walked_of_ofHops {registry : Registry} {assets : List Text} {tokenIn tokenOut : Text}
    {minOut : Int} {hops : List Hop} {actions : List Action}
    (h : ofHops registry assets tokenIn tokenOut minOut hops = .ok actions) :
    ∃ ends, Ends.find assets tokenIn tokenOut = .ok ends ∧ hops ≠ [] ∧
      Walked ⟨registry, assets, ends, minOut⟩ 0 hops actions := by
  simp only [ofHops] at h
  split at h
  · cases h
  · next hne =>
      obtain ⟨ends, hends, h⟩ := Except.bind_eq_ok.1 h
      rw [List.isEmpty_iff] at hne
      exact ⟨ends, hends, hne, walked_of_chain h⟩

namespace Walked

variable {keys : Nat} {hops : List Hop} {actions : List Action}

/-- Every action of a walk goes back to a hop whose pool is known and whose places are those of
assets, and its keys are below the number of hops. -/
theorem exists_hop (h : Walked frame keys hops actions) {a : Action} (ha : a ∈ actions) :
    ∃ hop ∈ hops, ∃ before kind pool, before < keys + hops.length ∧
      frame.registry.get hop.poolId = .ok pool ∧
      hop.classify frame.assets pool.address = .ok kind ∧ a = frame.link before kind hop := by
  induction h with
  | nil => cases ha
  | @cons keys hop rest actions pool kind known classified _ _ ih =>
      rcases List.mem_cons.1 ha with rfl | ha
      · refine ⟨hop, List.mem_cons_self .., keys, kind, pool, ?_, known, classified, rfl⟩
        rw [List.length_cons]
        omega
      · obtain ⟨hop', hmem, before, kind', pool', hlt, hrest⟩ := ih ha
        refine ⟨hop', List.mem_cons_of_mem _ hmem, before, kind', pool', ?_, hrest⟩
        have hkeys : frame.keysAfter keys hop ≤ keys + 1 := by
          rw [Frame.keysAfter]
          split <;> omega
        rw [List.length_cons]
        omega

theorem exists_link (h : Walked frame keys hops actions) {a : Action} (ha : a ∈ actions) :
    ∃ hop ∈ hops, ∃ before kind, kind ≠ .batchedExchange ∧ a = frame.link before kind hop := by
  obtain ⟨hop, hmem, before, kind, pool, -, -, classified, rfl⟩ := h.exists_hop ha
  exact ⟨hop, hmem, before, kind, Hop.classify_ne_batched classified, rfl⟩

theorem classified (h : Walked frame keys hops actions) {a : Action} (ha : a ∈ actions) :
    ∃ pool, frame.registry.get a.firstHop.poolId = .ok pool ∧
      a.firstHop.classify frame.assets pool.address = .ok a.kind := by
  obtain ⟨hop, -, before, kind, pool, -, known, classified, rfl⟩ := h.exists_hop ha
  exact ⟨pool, known, classified⟩

theorem ne_batched (h : Walked frame keys hops actions) {a : Action} (ha : a ∈ actions) :
    a.kind ≠ .batchedExchange := by
  obtain ⟨_, _, _, _, hkind, rfl⟩ := h.exists_link ha
  exact hkind

theorem read?_eq_none_iff (h : Walked frame keys hops actions)
    (hlit : ∀ hop ∈ hops, hop.amount.isLiteral = true) {a : Action} (ha : a ∈ actions) :
    a.read? = none ↔ a.firstHop.assetIn = frame.ends.input := by
  obtain ⟨hop, hmem, before, kind, -, rfl⟩ := h.exists_link ha
  rw [frame.read?_link (hlit hop hmem)]
  by_cases hin : hop.assetIn = frame.ends.input
  · rw [if_pos hin]
    exact iff_of_true rfl hin
  · rw [if_neg hin]
    exact iff_of_false (Option.some_ne_none _) hin

/-- The walk hands out keys one after the other, one for each hop that does not end the route. -/
theorem keys_eq (h : Walked frame keys hops actions) :
    actions.flatMap Action.keys =
      (List.range' keys (hops.countP (!frame.isLast ·))).map Reference.slot := by
  induction h with
  | nil => rfl
  | @cons keys hop _ _ _ _ _ _ _ _ ih =>
      rw [List.flatMap_cons, ih, Frame.keys_link, Frame.keysAfter, List.countP_cons]
      cases hlast : frame.isLast hop with
      | true => simp
      | false => simp [List.range'_succ]

theorem nodup_keys (h : Walked frame keys hops actions) : (actions.flatMap Action.keys).Nodup := by
  rw [h.keys_eq]
  exact List.Nodup.map Reference.slot_injective List.nodup_range'

end Walked

end Action

end SwapRelay
