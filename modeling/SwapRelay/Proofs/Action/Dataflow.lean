import SwapRelay.Proofs.Action.Runs

/-!
# The order of the calls keeps the amounts of a route

A route is a program: each hop takes an amount, its own number or what was stored under a key, turns
it into another, and may store that under a key in turn. `evaluate` runs such a program from left to
right, for pools that turn amounts into amounts in any way at all. The order in which the calls are
made is another program over the same hops, and `evaluate_schedule` says that it gives every hop the
amounts it has in the order of the route.

Both orders are compared with something that has no order: the values under which every hop is
settled (`Settled`), which the route's own order provides. Whatever reads behind its writes comes to
these values.
-/

namespace SwapRelay

/-- What a pool gives: by the pool's id, the places of the input and the output, and the amount that
goes in. -/
abbrev PoolRates := Text → Nat → Nat → Int → Int

/-- A hop and the references that its output is stored under. -/
structure Leg where
  hop : Hop
  keys : List Reference

/-- The amounts at the two ends of a hop. -/
structure Flow where
  input : Int
  output : Int
  deriving DecidableEq, Repr

abbrev Store := Int → Option Int

namespace Store

def empty : Store :=
  fun _ => none

def amount? (s : Store) : Amount → Option Int
  | .literal n => some n
  | .chained r => s r.key

/-- The store once an amount is stored under each of these references. -/
def put (s : Store) (keys : List Reference) (n : Int) : Store :=
  fun k => if keys.any (·.key == k) then some n else s k

theorem put_of_mem {s : Store} {keys : List Reference} {n : Int} {r : Reference} (h : r ∈ keys) :
    s.put keys n r.key = some n := by
  simp only [put]
  rw [if_pos]
  exact List.any_eq_true.2 ⟨r, h, beq_self_eq_true _⟩

theorem put_of_forall_ne {s : Store} {keys : List Reference} {n k : Int}
    (h : ∀ r ∈ keys, r.key ≠ k) : s.put keys n k = s k := by
  simp only [put]
  rw [if_neg]
  rw [List.any_eq_true]
  rintro ⟨r, hr, hk⟩
  exact h r hr (beq_iff_eq.1 hk)

end Store

def Leg.output (leg : Leg) (rates : PoolRates) (n : Int) : Int :=
  rates leg.hop.poolId leg.hop.assetIn leg.hop.assetOut n

/-- Runs hops from left to right; a hop whose amount is not stored yet stops the run. -/
def evaluate (rates : PoolRates) : Store → List Leg → Option (List Flow)
  | _, [] => some []
  | s, leg :: rest =>
    (s.amount? leg.hop.amount).bind fun n =>
      (evaluate rates (s.put leg.keys (leg.output rates n)) rest).map
        (⟨n, leg.output rates n⟩ :: ·)

/-- The hop of an action that has one, with the references that the action writes. -/
def Action.leg (a : Action) : Leg :=
  ⟨a.firstHop, a.keys⟩

/-- Under these values the hop takes an amount that is there, and gives what is stored for it. -/
def Settled (rates : PoolRates) (values : Store) (leg : Leg) : Prop :=
  ∃ n, values.amount? leg.hop.amount = some n ∧
    ∀ r ∈ leg.keys, values r.key = some (leg.output rates n)

def Leg.flow (rates : PoolRates) (values : Store) (leg : Leg) : Flow :=
  let n := (values.amount? leg.hop.amount).getD 0
  ⟨n, leg.output rates n⟩

namespace Action

variable {rates : PoolRates}

/-- The walk settles its hops one after the other, and leaves alone what was stored before it. -/
theorem Walked.exists_settled {frame : Frame} {keys : Nat} {hops : List Hop}
    {actions : List Action} (h : Walked frame keys hops actions)
    (hlit : ∀ hop ∈ hops, hop.amount.isLiteral = true) {s : Store}
    (hs : ∀ k < keys, ∃ n, s (Reference.slot k).key = some n) :
    ∃ values : Store,
      (∀ k < keys, values (Reference.slot k).key = s (Reference.slot k).key) ∧
        ∀ a ∈ actions, Settled rates values a.leg := by
  induction h generalizing s with
  | nil => exact ⟨s, fun _ _ => rfl, fun _ ha => absurd ha List.not_mem_nil⟩
  | @cons keys hop rest actions pool kind _ _ fed tail ih =>
      have hread : (frame.link keys kind hop).read? = _ :=
        frame.read?_link (hlit hop (List.mem_cons_self ..))
      -- The amount is a number, or under a key below `keys`, which later writes leave alone.
      obtain ⟨n, hn⟩ : ∃ n, ∀ values : Store,
          (∀ k < keys, values (Reference.slot k).key = s (Reference.slot k).key) →
            values.amount? (frame.link keys kind hop).firstHop.amount = some n := by
        simp only [read?] at hread
        cases hamount : (frame.link keys kind hop).firstHop.amount with
        | literal n => exact ⟨n, fun _ _ => rfl⟩
        | chained r =>
            rw [hamount] at hread
            dsimp only at hread
            split at hread
            · cases hread
            · next hin =>
                obtain rfl := Option.some.inj hread
                have hlt : keys - 1 < keys := by have := fed.resolve_left hin; omega
                obtain ⟨n, hn⟩ := hs _ hlt
                exact ⟨n, fun values hv => (hv _ hlt).trans hn⟩
      let leg := (frame.link keys kind hop).leg
      have hkeys : leg.keys = if frame.isLast hop then [] else [.slot keys] := frame.keys_link
      have hold : ∀ k < keys, s.put leg.keys (leg.output rates n) (Reference.slot k).key =
          s (Reference.slot k).key := by
        intro k hk
        apply Store.put_of_forall_ne
        intro r hr
        rw [hkeys] at hr
        split at hr
        · cases hr
        · rw [List.mem_singleton.1 hr]
          intro heq
          have : keys = k := Int.ofNat.inj heq
          omega
      have hstored : ∀ k < frame.keysAfter keys hop,
          ∃ m, s.put leg.keys (leg.output rates n) (Reference.slot k).key = some m := by
        intro k hk
        rcases Nat.lt_or_ge k keys with hlt | hge
        · rw [hold k hlt]
          exact hs k hlt
        · simp only [Frame.keysAfter] at hk
          split at hk
          · omega
          · next hlast =>
              obtain rfl : k = keys := by omega
              refine ⟨_, Store.put_of_mem ?_⟩
              rw [hkeys, if_neg hlast]
              exact List.mem_singleton_self _
      obtain ⟨values, hagree, hrest⟩ :=
        ih (fun other hmem => hlit other (List.mem_cons_of_mem _ hmem)) hstored
      have hbelow : ∀ k < keys, values (Reference.slot k).key = s (Reference.slot k).key := by
        intro k hk
        have hafter : k < frame.keysAfter keys hop := by
          simp only [Frame.keysAfter]
          split <;> omega
        rw [hagree k hafter, hold k hk]
      refine ⟨values, hbelow, List.forall_mem_cons.2 ⟨⟨n, hn values hbelow, ?_⟩, hrest⟩⟩
      intro r hr
      have hr' := hr
      change r ∈ leg.keys at hr'
      rw [hkeys] at hr'
      split at hr'
      · cases hr'
      · next hlast =>
          obtain rfl := List.mem_singleton.1 hr'
          rw [hagree keys (by unfold Frame.keysAfter; rw [if_neg hlast]; omega)]
          exact Store.put_of_mem hr

/-- An order that reads behind its writes comes to the values under which its hops are settled. -/
theorem evaluate_of_settled {values s : Store} {known : List Reference} {actions : List Action}
    (h : Backed known actions) (hs : ∀ r ∈ known, s r.key = values r.key)
    (hsettled : ∀ a ∈ actions, Settled rates values a.leg) :
    evaluate rates s (actions.map leg) =
      some ((actions.map leg).map (Leg.flow rates values)) := by
  induction actions generalizing known s with
  | nil => rfl
  | cons a rest ih =>
      obtain ⟨hread, hrest⟩ := h
      obtain ⟨⟨n, hn, hstored⟩, hsettled⟩ := List.forall_mem_cons.1 hsettled
      have hamount : s.amount? a.leg.hop.amount = some n := by
        rw [← hn]
        simp only [read?] at hread
        simp only [leg, Store.amount?]
        cases hamount : a.firstHop.amount with
        | literal m => rfl
        | chained r =>
            rw [hamount] at hread
            exact hs r (hread r rfl)
      have hput : ∀ r ∈ known ++ a.keys,
          s.put a.leg.keys (a.leg.output rates n) r.key = values r.key := by
        intro r hr
        by_cases hkey : ∃ w ∈ a.leg.keys, w.key = r.key
        · obtain ⟨w, hw, heq⟩ := hkey
          rw [← heq, Store.put_of_mem hw, hstored w hw]
        · have hne : ∀ w ∈ a.leg.keys, w.key ≠ r.key := fun w hw heq => hkey ⟨w, hw, heq⟩
          rw [Store.put_of_forall_ne hne]
          rcases List.mem_append.1 hr with hr | hr
          · exact hs r hr
          · exact absurd rfl (hne r hr)
      have hflow : a.leg.flow rates values = ⟨n, a.leg.output rates n⟩ := by
        rw [Leg.flow, hn]
        rfl
      rw [List.map_cons, evaluate, hamount, Option.bind_some, ih hrest hput hsettled,
        Option.map_some, List.map_cons, hflow]

/-- The order of the calls is a rearrangement of the route's hops, each with the references that it
had in the route. Whatever the pools give, both orders can be run, and a hop takes in and gives the
same amounts in both. -/
theorem evaluate_schedule {registry : Registry} {assets : List Text} {tokenIn tokenOut : Text}
    {minOut : Int} {hops : List Hop} {actions : List Action}
    (h : ofHops registry assets tokenIn tokenOut minOut hops = .ok actions)
    (hlit : ∀ hop ∈ hops, hop.amount.isLiteral = true) :
    ∃ ordered legs, schedule assets tokenIn tokenOut actions = .ok ordered ∧
      legs.map Leg.hop = ordered.flatMap Action.hops ∧
      legs.flatMap Leg.keys = ordered.flatMap Action.keys ∧
      legs.Perm (actions.map leg) ∧
      ∀ rates : PoolRates, ∃ flow : Leg → Flow,
        evaluate rates .empty (actions.map leg) = some ((actions.map leg).map flow) ∧
        evaluate rates .empty legs = some (legs.map flow) := by
  obtain ⟨ends, hends, -, hwalk⟩ := walked_of_ofHops h
  refine ⟨scheduleAt ends actions, (arranged ends actions).map leg, ?_, ?_, ?_, ?_, ?_⟩
  · simp only [schedule]
    rw [hends]
    rfl
  · have hbatched : (scheduleAt ends actions).flatMap Action.hops = _ :=
      flatMap_batch Run.hops_action _
    rw [hbatched, List.map_map]
    exact (flatMap_hops_eq_map fun a ha =>
      hwalk.ne_batched ((arranged_perm ends actions).mem_iff.1 ha)).symm
  · have hbatched : (scheduleAt ends actions).flatMap Action.keys = _ :=
      flatMap_batch Run.keys_action _
    rw [hbatched, List.flatMap_map]
    rfl
  · exact (arranged_perm ends actions).map leg
  · intro rates
    obtain ⟨values, -, hsettled⟩ :
        ∃ values : Store, _ ∧ ∀ a ∈ actions, Settled rates values a.leg :=
      hwalk.exists_settled hlit (s := .empty) fun k hk => absurd hk (Nat.not_lt_zero k)
    have hnone : ∀ r ∈ ([] : List Reference), Store.empty r.key = values r.key :=
      fun r hr => absurd hr List.not_mem_nil
    refine ⟨Leg.flow rates values, ?_, ?_⟩
    · exact evaluate_of_settled (hwalk.backed hlit) hnone hsettled
    · apply evaluate_of_settled (hwalk.backed_arranged hlit) hnone
      intro a ha
      exact hsettled a ((arranged_perm ends actions).mem_iff.1 ha)

/-- Two swaps and two deposits, of which the first moves to the front and lets the swaps meet. -/
def joinBetweenSwaps : List Hop := [
  ⟨['x'], 0, 2, .literal 5, []⟩, ⟨['p'], 0, 1, .literal 7, []⟩,
  ⟨['y'], 2, 3, .literal 0, []⟩, ⟨['q'], 3, 4, .literal 0, []⟩]

theorem evaluate_schedule_joinBetweenSwaps :
    let registry := Registry.ofList [
      ⟨['x'], ['x'], []⟩, ⟨['y'], ['y'], []⟩, ⟨['p'], ['s'], []⟩, ⟨['q'], ['t'], []⟩]
    let assets : List Text := [['a'], ['s'], ['b'], ['c'], ['t']]
    ∃ actions, ofHops registry assets ['a'] ['t'] 9 joinBetweenSwaps = .ok actions ∧
      (∀ hop ∈ joinBetweenSwaps, hop.amount.isLiteral = true) ∧
      ∃ ordered legs, schedule assets ['a'] ['t'] actions = .ok ordered ∧
        legs.map Leg.hop = ordered.flatMap Action.hops ∧
        legs.flatMap Leg.keys = ordered.flatMap Action.keys ∧
        legs.Perm (actions.map leg) ∧
        ∀ rates : PoolRates, ∃ flow : Leg → Flow,
          evaluate rates .empty (actions.map leg) = some ((actions.map leg).map flow) ∧
          evaluate rates .empty legs = some (legs.map flow) := by
  intro registry assets
  have hlit : ∀ hop ∈ joinBetweenSwaps, hop.amount.isLiteral = true := by decide
  obtain ⟨actions, h⟩ :
      ∃ actions, ofHops registry assets ['a'] ['t'] 9 joinBetweenSwaps = .ok actions := ⟨_, rfl⟩
  exact ⟨actions, h, hlit, evaluate_schedule h hlit⟩

end Action

end SwapRelay
