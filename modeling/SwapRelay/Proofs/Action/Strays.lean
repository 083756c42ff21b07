import SwapRelay.Proofs.Action.Walk

/-!
# Walks that leave the assets

A walk over the hops stops where a pool is not known, where a hop has shares of its own pool at both
ends, and where a hop lacks the output of an earlier one. All that are faults of the route. There is
one more way to stop: a hop may name a place that its list of assets does not have. `Strays` is the
walk up to such a hop, built like `Walked`, and by `endsIn_chain` and `Strays.chain_eq` it is what
ends in an error of another kind.
-/

namespace SwapRelay

/-- The error is a fault of the route, which its sender is told. -/
def Error.IsRoute (e : Error) : Prop :=
  ∃ cause, e = .route cause

/-- Both ends of the hop have their places among the assets. -/
def Hop.IsInside (hop : Hop) (assets : List Text) : Prop :=
  hop.assetIn < assets.length ∧ hop.assetOut < assets.length

instance (hop : Hop) (assets : List Text) : Decidable (hop.IsInside assets) :=
  inferInstanceAs (Decidable (_ ∧ _))

namespace Hop

variable {hop : Hop} {assets : List Text}

theorem classify_of_not_isInside (h : ¬ hop.IsInside assets) (address : Text) :
    hop.classify assets address = .error .assetIndex := by
  simp only [classify]
  by_cases hin : hop.assetIn < assets.length
  · rw [assetAt_of_lt hin, assetAt_of_le (Nat.not_lt.1 fun hout => h ⟨hin, hout⟩)]
    rfl
  · rw [assetAt_of_le (Nat.not_lt.1 hin)]
    rfl

theorem endsIn_classify (h : hop.IsInside assets) (address : Text) :
    (hop.classify assets address).EndsIn (fun _ => True) Error.IsRoute := by
  refine .after (assetAt_of_lt h.1) (.after (assetAt_of_lt h.2) ?_)
  split
  · exact ⟨_, rfl⟩
  · trivial
  · trivial
  · trivial

theorem isInside_of_classify {address : Text} {kind : ActionKind}
    (h : hop.classify assets address = .ok kind) : hop.IsInside assets := by
  by_contra hnot
  cases (classify_of_not_isInside hnot address).symm.trans h

end Hop

namespace Action

variable {frame : Frame} {position keys : Nat} {hop : Hop}

/-- A walk over hops that comes to one with a place outside of the assets. -/
inductive Strays (frame : Frame) : Nat → List Hop → Prop
  | here {keys : Nat} {hop : Hop} {rest : List Hop} {pool : Pool}
      (known : frame.registry.get hop.poolId = .ok pool) (outside : ¬ hop.IsInside frame.assets) :
      Strays frame keys (hop :: rest)
  | later {keys : Nat} {hop : Hop} {rest : List Hop} {pool : Pool} {kind : ActionKind}
      (known : frame.registry.get hop.poolId = .ok pool)
      (classified : hop.classify frame.assets pool.address = .ok kind)
      (fed : hop.assetIn = frame.ends.input ∨ 0 < keys)
      (tail : Strays frame (frame.keysAfter keys hop) rest) : Strays frame keys (hop :: rest)

theorem Strays.exists_outside {hops : List Hop} (h : Strays frame keys hops) :
    ∃ hop ∈ hops, ¬ hop.IsInside frame.assets := by
  induction h with
  | here _ outside => exact ⟨_, List.mem_cons_self .., outside⟩
  | later _ _ _ _ ih =>
      obtain ⟨hop, hmem, outside⟩ := ih
      exact ⟨hop, List.mem_cons_of_mem _ hmem, outside⟩

theorem endsIn_chainedAmount : (chainedAmount frame position keys hop).EndsIn
    (fun _ => hop.assetIn = frame.ends.input ∨ 0 < keys) Error.IsRoute := by
  simp only [chainedAmount]
  by_cases hin : hop.assetIn = frame.ends.input
  · rw [if_pos hin]
    exact .inl hin
  · rw [if_neg hin]
    cases keys with
    | zero => exact ⟨_, rfl⟩
    | succ last => exact .inr (Nat.succ_pos last)

theorem endsIn_get (registry : Registry) (id : Text) :
    (registry.get id).EndsIn (fun _ => True) Error.IsRoute := by
  simp only [Registry.get]
  split
  · trivial
  · exact ⟨_, rfl⟩

/-- One step of the walk: it is a fault of the route, or of the places of a hop whose pool is
known. -/
theorem endsIn_ofHop : (ofHop frame position keys hop).EndsIn (fun _ => True) fun e =>
    e.IsRoute ∨ (e = .assetIndex ∧ ¬ hop.IsInside frame.assets ∧
      ∃ pool, frame.registry.get hop.poolId = .ok pool) := by
  refine ((endsIn_get frame.registry hop.poolId).mono_error fun _ => .inl).bind
    fun pool known _ => ?_
  by_cases inside : hop.IsInside frame.assets
  · refine ((Hop.endsIn_classify inside pool.address).mono_error fun _ => .inl).bind fun kind _ _ => ?_
    refine (endsIn_chainedAmount.mono_error fun _ => .inl).bind fun amount _ _ => ?_
    dsimp only
    split <;> trivial
  · have houtside := Hop.classify_of_not_isInside inside pool.address
    refine .of_eq_error (e := .assetIndex) ?_ (.inr ⟨rfl, inside, pool, known⟩)
    rw [houtside]
    rfl

theorem exists_ofHop (position : Nat) {pool : Pool} {kind : ActionKind}
    (known : frame.registry.get hop.poolId = .ok pool)
    (classified : hop.classify frame.assets pool.address = .ok kind)
    (fed : hop.assetIn = frame.ends.input ∨ 0 < keys) :
    ∃ a, ofHop frame position keys hop = .ok a := by
  have hamount : ∃ amount, chainedAmount frame position keys hop = .ok amount := by
    simp only [chainedAmount]
    rcases fed with hin | hpos
    · exact ⟨hop.amount, if_pos hin⟩
    · obtain ⟨last, rfl⟩ := Nat.exists_eq_succ_of_ne_zero (Nat.ne_of_gt hpos)
      split
      · exact ⟨_, rfl⟩
      · exact ⟨_, rfl⟩
  obtain ⟨amount, hamount⟩ := hamount
  have hends : (ofHop frame position keys hop).EndsIn (fun _ => True) fun _ => False := by
    refine .after known (.after classified (.after hamount ?_))
    dsimp only
    split <;> trivial
  obtain ⟨a, ha, -⟩ := hends.exists_ok
  exact ⟨a, ha⟩

/-- A walk that fails for another reason than a fault of the route strays. -/
theorem endsIn_chain {hops : List Hop} : (chain frame position keys hops).EndsIn (fun _ => True)
    fun e => e.IsRoute ∨ (e = .assetIndex ∧ Strays frame keys hops) := by
  induction hops generalizing position keys with
  | nil => trivial
  | cons hop rest ih =>
      have hfirst : (ofHop frame position keys hop).EndsIn (fun _ => True) fun e =>
          e.IsRoute ∨ (e = .assetIndex ∧ Strays frame keys (hop :: rest)) := by
        refine endsIn_ofHop.mono_error ?_
        rintro e (hroute | ⟨rfl, outside, pool, known⟩)
        · exact .inl hroute
        · exact .inr ⟨rfl, .here known outside⟩
      -- The hop was passed, so if the rest strays the whole walk does.
      refine hfirst.bind fun a ha _ => ?_
      obtain ⟨pool, kind, known, classified, fed, -⟩ := ofHop_eq_ok ha
      have hrest : (chain frame (position + 1) (frame.keysAfter keys hop) rest).EndsIn
          (fun _ => True) fun e =>
            e.IsRoute ∨ (e = .assetIndex ∧ Strays frame keys (hop :: rest)) := by
        refine ih.mono_error ?_
        rintro e (hroute | ⟨rfl, strays⟩)
        · exact .inl hroute
        · exact .inr ⟨rfl, .later known classified fed strays⟩
      exact hrest.bind fun _ _ _ => trivial

theorem Strays.chain_eq {hops : List Hop} (h : Strays frame keys hops) :
    chain frame position keys hops = .error .assetIndex := by
  induction h generalizing position with
  | here known outside =>
      simp only [chain, ofHop, known, Hop.classify_of_not_isInside outside]
      rfl
  | @later keys hop rest _ _ known classified fed _ ih =>
      obtain ⟨a, ha⟩ := exists_ofHop position known classified fed
      have hrest : chain frame (position + 1) (frame.keysAfter keys hop) rest =
          .error .assetIndex := ih
      show (ofHop frame position keys hop >>= fun action =>
        chain frame (position + 1) (frame.keysAfter keys hop) rest >>= fun more =>
          pure (action :: more)) = _
      rw [ha, hrest]
      rfl

end Action

theorem Ends.endsIn_find (assets : List Text) (tokenIn tokenOut : Text) :
    (Ends.find assets tokenIn tokenOut).EndsIn (fun _ => True) Error.IsRoute := by
  simp only [find]
  split
  · trivial
  · exact ⟨_, rfl⟩
  · exact ⟨_, rfl⟩

namespace Action

variable {registry : Registry} {assets : List Text} {tokenIn tokenOut : Text} {minOut : Int}
  {hops : List Hop}

theorem endsIn_ofHops :
    (ofHops registry assets tokenIn tokenOut minOut hops).EndsIn (fun _ => True) fun e =>
      e.IsRoute ∨ (e = .assetIndex ∧ ∃ ends, Ends.find assets tokenIn tokenOut = .ok ends ∧
        Strays ⟨registry, assets, ends, minOut⟩ 0 hops) := by
  simp only [ofHops]
  split
  · exact .inl ⟨_, rfl⟩
  · refine ((Ends.endsIn_find assets tokenIn tokenOut).mono_error fun _ => .inl).bind
      fun ends found _ => ?_
    refine endsIn_chain.mono_error ?_
    rintro e (hroute | ⟨rfl, strays⟩)
    · exact .inl hroute
    · exact .inr ⟨rfl, ends, found, strays⟩

theorem Strays.ofHops_eq {ends : Ends} (found : Ends.find assets tokenIn tokenOut = .ok ends)
    (h : Strays ⟨registry, assets, ends, minOut⟩ 0 hops) :
    ofHops registry assets tokenIn tokenOut minOut hops = .error .assetIndex := by
  have hne : hops.isEmpty = false := by
    cases h <;> rfl
  simp only [ofHops, found]
  rw [hne]
  exact h.chain_eq

end Action

end SwapRelay
