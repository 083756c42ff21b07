import SwapRelay.Proofs.Action.Strays
import SwapRelay.Proofs.Pool.Registry

/-!
# The walk in closed form

The walk over the hops takes two things from one hop to the next: the key to hand out next and the
key handed out last. Both come to a count, that of the hops so far which do not end the route
(`Action.keysBefore`), and with the count known a hop can be looked at by itself. Either it is sound
(`Hop.SoundAt`) and becomes this one action (`Hop.BecomesAt`), or it has a fault (`Hop.Fault`). Place
by place this is all that there is to say about the walk, its failures included:
`Action.ofHops_closed`.
-/

namespace SwapRelay

/-- What a hop between these tokens does at a pool of this address. -/
def ActionKind.between (address tokenIn tokenOut : Text) : ActionKind :=
  if Address.same tokenOut address then .deposit
  else if Address.same tokenIn address then .withdrawal
  else .exchange

namespace Ends

variable {assets : List Text} {tokenIn tokenOut : Text}

theorem isAmong_of_find {ends : Ends} (h : find assets tokenIn tokenOut = .ok ends) :
    Address.IsAmong assets tokenIn ∧ Address.IsAmong assets tokenOut := by
  obtain ⟨hin, hout⟩ := indexOf?_of_find h
  exact ⟨Address.isSome_indexOf?.1 (Option.isSome_of_eq_some hin),
    Address.isSome_indexOf?.1 (Option.isSome_of_eq_some hout)⟩

theorem find_of_unknownInput (hin : ¬ Address.IsAmong assets tokenIn) :
    find assets tokenIn tokenOut = .error (.route (.unknownToken tokenIn)) := by
  simp only [find, Address.indexOf?_eq_none hin]

theorem find_of_unknownOutput (hin : Address.IsAmong assets tokenIn)
    (hout : ¬ Address.IsAmong assets tokenOut) :
    find assets tokenIn tokenOut = .error (.route (.unknownToken tokenOut)) := by
  obtain ⟨i, hi⟩ := Option.isSome_iff_exists.1 (Address.isSome_indexOf?.2 hin)
  simp only [find, hi, Address.indexOf?_eq_none hout]

end Ends

namespace Hop

open SwapRelay.Action (Frame)

/-- The pool that the hop goes through, and the tokens at its two places. -/
structure Meets (hop : Hop) (frame : Frame) (pool : Pool) (tokenIn tokenOut : Text) : Prop where
  known : frame.registry.find? hop.poolId = some pool
  tokenIn : frame.assets[hop.assetIn]? = some tokenIn
  tokenOut : frame.assets[hop.assetOut]? = some tokenOut

/-- The pool's own share token stands at both ends. -/
def SharesOnly (pool : Pool) (tokenIn tokenOut : Text) : Prop :=
  Address.same tokenIn pool.address = true ∧ Address.same tokenOut pool.address = true

/-- The hop can be made an action of, after `keys` keys were handed out. -/
def SoundAt (hop : Hop) (frame : Frame) (keys : Nat) : Prop :=
  ∃ pool tokenIn tokenOut, hop.Meets frame pool tokenIn tokenOut ∧
    ¬ SharesOnly pool tokenIn tokenOut ∧ (hop.assetIn = frame.ends.input ∨ 1 ≤ keys)

/-- Why the hop at this position cannot be made an action of, after `keys` keys were handed out. Each
cause presumes that there is none of those above it. -/
inductive Fault (hop : Hop) (frame : Frame) (position keys : Nat) : Error → Prop
  | unknownPool (unknown : frame.registry.find? hop.poolId = none) :
      Fault hop frame position keys (.route (.unknownPool hop.poolId))
  | assetIndex {pool : Pool} (known : frame.registry.find? hop.poolId = some pool)
      (outside : ¬ hop.IsInside frame.assets) : Fault hop frame position keys .assetIndex
  | shareAtBothEnds {pool : Pool} {tokenIn tokenOut : Text}
      (meets : hop.Meets frame pool tokenIn tokenOut) (shares : SharesOnly pool tokenIn tokenOut) :
      Fault hop frame position keys (.route (.shareAtBothEnds hop.poolId))
  | dangling {pool : Pool} {tokenIn tokenOut : Text}
      (meets : hop.Meets frame pool tokenIn tokenOut)
      (apart : ¬ SharesOnly pool tokenIn tokenOut)
      (unfed : ¬ (hop.assetIn = frame.ends.input ∨ 1 ≤ keys)) :
      Fault hop frame position keys (.route (.dangling position))

/-- The action that the hop becomes, after `keys` keys were handed out. -/
structure BecomesAt (hop : Hop) (frame : Frame) (keys : Nat) (a : Action) : Prop where
  kind : ∀ {pool tokenIn tokenOut}, hop.Meets frame pool tokenIn tokenOut →
    a.kind = .between pool.address tokenIn tokenOut
  hops : a.hops = [{ hop with
    amount := if hop.assetIn = frame.ends.input then hop.amount else .chained (.slot (keys - 1)) }]
  outputs : a.outputs =
    if hop.assetOut = frame.ends.output then [] else [⟨hop.assetOut, .slot keys⟩]
  minOut : a.minOut = if hop.assetOut = frame.ends.output then frame.minOut else 0

variable {hop : Hop} {frame : Frame} {position keys : Nat}

namespace Meets

variable {pool : Pool} {tokenIn tokenOut : Text} (h : hop.Meets frame pool tokenIn tokenOut)

include h

theorem classify_eq_error (shares : SharesOnly pool tokenIn tokenOut) :
    hop.classify frame.assets pool.address = .error (.route (.shareAtBothEnds hop.poolId)) := by
  rw [classify, Except.bind_of_eq_ok (assetAt_eq_ok.2 h.tokenIn),
    Except.bind_of_eq_ok (assetAt_eq_ok.2 h.tokenOut), shares.1, shares.2]

theorem classify_eq_ok (apart : ¬ SharesOnly pool tokenIn tokenOut) :
    hop.classify frame.assets pool.address = .ok (.between pool.address tokenIn tokenOut) := by
  rw [classify, Except.bind_of_eq_ok (assetAt_eq_ok.2 h.tokenIn),
    Except.bind_of_eq_ok (assetAt_eq_ok.2 h.tokenOut), ActionKind.between]
  cases hmints : Address.same tokenOut pool.address with
  | true =>
      cases hburns : Address.same tokenIn pool.address with
      | true => exact absurd ⟨hburns, hmints⟩ apart
      | false => rfl
  | false => cases Address.same tokenIn pool.address <;> rfl

theorem unique {pool' : Pool} {tokenIn' tokenOut' : Text}
    (h' : hop.Meets frame pool' tokenIn' tokenOut') :
    pool' = pool ∧ tokenIn' = tokenIn ∧ tokenOut' = tokenOut :=
  ⟨Option.some.inj (h'.known.symm.trans h.known), Option.some.inj (h'.tokenIn.symm.trans h.tokenIn),
    Option.some.inj (h'.tokenOut.symm.trans h.tokenOut)⟩

end Meets

theorem soundAt_or_fault (hop : Hop) (frame : Frame) (position keys : Nat) :
    hop.SoundAt frame keys ∨ ∃ e, hop.Fault frame position keys e := by
  cases known : frame.registry.find? hop.poolId with
  | none => exact .inr ⟨_, .unknownPool known⟩
  | some pool =>
      by_cases inside : hop.IsInside frame.assets
      · obtain ⟨hin, hout⟩ := inside
        have meets : hop.Meets frame pool frame.assets[hop.assetIn] frame.assets[hop.assetOut] :=
          ⟨known, List.getElem?_eq_getElem hin, List.getElem?_eq_getElem hout⟩
        by_cases shares : SharesOnly pool frame.assets[hop.assetIn] frame.assets[hop.assetOut]
        · exact .inr ⟨_, .shareAtBothEnds meets shares⟩
        · by_cases fed : hop.assetIn = frame.ends.input ∨ 1 ≤ keys
          · exact .inl ⟨pool, _, _, meets, shares, fed⟩
          · exact .inr ⟨_, .dangling meets shares fed⟩
      · exact .inr ⟨_, .assetIndex known inside⟩

theorem Fault.ofHop_eq {e : Error} (h : hop.Fault frame position keys e) :
    Action.ofHop frame position keys hop = .error e := by
  cases h with
  | unknownPool unknown => exact Except.bind_of_eq_error (Registry.get_eq_error.2 ⟨rfl, unknown⟩)
  | assetIndex known outside =>
      rw [Action.ofHop, Except.bind_of_eq_ok (Registry.get_eq_ok.2 known)]
      exact Except.bind_of_eq_error (classify_of_not_isInside outside _)
  | shareAtBothEnds meets shares =>
      rw [Action.ofHop, Except.bind_of_eq_ok (Registry.get_eq_ok.2 meets.known)]
      exact Except.bind_of_eq_error (meets.classify_eq_error shares)
  | dangling meets apart unfed =>
      rw [Action.ofHop, Except.bind_of_eq_ok (Registry.get_eq_ok.2 meets.known),
        Except.bind_of_eq_ok (meets.classify_eq_ok apart)]
      obtain ⟨hin, hkeys⟩ := not_or.1 unfed
      obtain rfl : keys = 0 := by omega
      exact Except.bind_of_eq_error (if_neg hin)

theorem SoundAt.exists_ofHop (h : hop.SoundAt frame keys) (position : Nat) :
    ∃ a, Action.ofHop frame position keys hop = .ok a ∧ hop.BecomesAt frame keys a := by
  obtain ⟨pool, tokenIn, tokenOut, meets, apart, fed⟩ := h
  have hclassify := meets.classify_eq_ok apart
  obtain ⟨a, ha⟩ := Action.exists_ofHop position (Registry.get_eq_ok.2 meets.known) hclassify fed
  refine ⟨a, ha, ?_⟩
  obtain ⟨pool', kind, hget, hkind, -, rfl⟩ := Action.ofHop_eq_ok ha
  cases (Registry.get_eq_ok.2 meets.known).symm.trans hget
  cases hclassify.symm.trans hkind
  exact {
    kind := fun meets' => by
      obtain ⟨rfl, rfl, rfl⟩ := meets.unique meets'
      rfl
    hops := rfl
    outputs := by
      rw [Frame.outputs_link]
      exact if_congr frame.isLast_iff rfl rfl
    minOut := if_congr frame.isLast_iff rfl rfl }

theorem Fault.not_soundAt {e : Error} (h : hop.Fault frame position keys e) :
    ¬ hop.SoundAt frame keys := by
  intro hsound
  obtain ⟨a, ha, -⟩ := hsound.exists_ofHop position
  cases ha.symm.trans h.ofHop_eq

theorem Fault.unique {e e' : Error} (h : hop.Fault frame position keys e)
    (h' : hop.Fault frame position keys e') : e = e' :=
  Except.error.inj (h.ofHop_eq.symm.trans h'.ofHop_eq)

end Hop

namespace Action

/-- The number of keys handed out before the hop at this place is looked at: one for each hop in
front of it that does not end the route. -/
def keysBefore (ends : Ends) (hops : List Hop) (i : Nat) : Nat :=
  (hops.take i).countP (·.assetOut ≠ ends.output)

variable {frame : Frame} {position keys : Nat} {hops : List Hop}

theorem keysAfter_add_keysBefore (hop : Hop) (rest : List Hop) (i : Nat) :
    frame.keysAfter keys hop + keysBefore frame.ends rest i =
      keys + keysBefore frame.ends (hop :: rest) (i + 1) := by
  simp only [keysBefore, Frame.keysAfter, List.take_succ_cons, List.countP_cons, decide_eq_true_eq]
  by_cases hlast : hop.assetOut = frame.ends.output
  · rw [if_pos (frame.isLast_iff.2 hlast), if_neg (not_not_intro hlast)]
    rfl
  · rw [if_neg (mt frame.isLast_iff.1 hlast), if_pos hlast]
    omega

/-- The hops become these actions, each at its place, when `keys` keys were handed out before. -/
structure Become (frame : Frame) (keys : Nat) (hops : List Hop) (actions : List Action) : Prop where
  length_eq : actions.length = hops.length
  sound : ∀ (i : Nat) (hop : Hop), hops[i]? = some hop →
    hop.SoundAt frame (keys + keysBefore frame.ends hops i)
  becomes : ∀ (i : Nat) (hop : Hop), hops[i]? = some hop →
    ∃ a, actions[i]? = some a ∧ hop.BecomesAt frame (keys + keysBefore frame.ends hops i) a

/-- The least of the hops that have a fault has this one. -/
def LeastFault (frame : Frame) (position keys : Nat) (hops : List Hop) (e : Error) : Prop :=
  ∃ (i : Nat) (hop : Hop), hops[i]? = some hop ∧
    hop.Fault frame (position + i) (keys + keysBefore frame.ends hops i) e ∧
    ∀ j < i, ∀ g : Hop, hops[j]? = some g →
      g.SoundAt frame (keys + keysBefore frame.ends hops j)

theorem Become.nil : Become frame keys [] [] where
  length_eq := rfl
  sound _ _ h := by cases h
  becomes _ _ h := by cases h

/-- One step: a sound hop is put in front of what the others become. -/
theorem Become.cons {hop : Hop} {a : Action} {rest : List Hop} {actions : List Action}
    (hsound : hop.SoundAt frame keys) (hbecomes : hop.BecomesAt frame keys a)
    (h : Become frame (frame.keysAfter keys hop) rest actions) :
    Become frame keys (hop :: rest) (a :: actions) where
  length_eq := by rw [List.length_cons, List.length_cons, h.length_eq]
  sound i g hg := by
    cases i with
    | zero => cases hg; exact hsound
    | succ i => rw [← keysAfter_add_keysBefore]; exact h.sound i g hg
  becomes i g hg := by
    cases i with
    | zero => cases hg; exact ⟨a, rfl, hbecomes⟩
    | succ i => rw [← keysAfter_add_keysBefore]; exact h.becomes i g hg

theorem LeastFault.cons {hop : Hop} {rest : List Hop} {e : Error}
    (hsound : hop.SoundAt frame keys)
    (h : LeastFault frame (position + 1) (frame.keysAfter keys hop) rest e) :
    LeastFault frame position keys (hop :: rest) e := by
  obtain ⟨i, g, hg, hfault, hbefore⟩ := h
  rw [keysAfter_add_keysBefore] at hfault
  have hposition : position + 1 + i = position + (i + 1) := by omega
  rw [hposition] at hfault
  refine ⟨i + 1, g, hg, hfault, ?_⟩
  intro j hj f hf
  cases j with
  | zero => cases hf; exact hsound
  | succ j => rw [← keysAfter_add_keysBefore]; exact hbefore j (by omega) f hf

theorem endsIn_chain_places : (chain frame position keys hops).EndsIn (Become frame keys hops)
    (LeastFault frame position keys hops) := by
  induction hops generalizing position keys with
  | nil => exact .of_eq_ok (a := []) rfl .nil
  | cons hop rest ih =>
      rcases hop.soundAt_or_fault frame position keys with hsound | ⟨e, hfault⟩
      · obtain ⟨a, ha, hbecomes⟩ := hsound.exists_ofHop position
        refine .after ha ?_
        exact (ih.mono_error fun e => .cons hsound).bind fun _ _ hrest => .cons hsound hbecomes hrest
      · refine .of_eq_error (Except.bind_of_eq_error hfault.ofHop_eq) ?_
        exact ⟨0, hop, rfl, hfault, fun j hj => absurd hj (Nat.not_lt_zero j)⟩

/-- The walk stops at the least hop that has a fault. -/
theorem LeastFault.chain_eq {e : Error} (h : LeastFault frame position keys hops e) :
    chain frame position keys hops = .error e := by
  obtain ⟨i, hop, hhop, hfault, hbefore⟩ := h
  have hends := @endsIn_chain_places frame position keys hops
  cases hchain : chain frame position keys hops with
  | ok actions =>
      rw [hchain] at hends
      exact absurd (hends.sound i hop hhop) hfault.not_soundAt
  | error e' =>
      rw [hchain] at hends
      obtain ⟨i', hop', hhop', hfault', hbefore'⟩ := hends
      rcases Nat.lt_trichotomy i i' with hlt | rfl | hgt
      · exact absurd (hbefore' i hlt hop hhop) hfault.not_soundAt
      · cases hhop.symm.trans hhop'
        rw [hfault.unique hfault']
      · exact absurd (hbefore i' hgt hop' hhop') hfault'.not_soundAt

/-- Hops that are all sound are walked to the end. -/
theorem exists_chain (position : Nat) (h : ∀ (i : Nat) (hop : Hop), hops[i]? = some hop →
    hop.SoundAt frame (keys + keysBefore frame.ends hops i)) :
    ∃ actions, chain frame position keys hops = .ok actions := by
  have hends : (chain frame position keys hops).EndsIn (Become frame keys hops) fun _ => False := by
    refine endsIn_chain_places.mono_error ?_
    rintro e ⟨i, hop, hhop, hfault, -⟩
    exact hfault.not_soundAt (h i hop hhop)
  obtain ⟨actions, hactions, -⟩ := hends.exists_ok
  exact ⟨actions, hactions⟩

/-- Why hops from one token to another cannot be made actions of. Each cause presumes that there is
none of those above it. -/
inductive Rejected (registry : Registry) (assets : List Text) (tokenIn tokenOut : Text)
    (minOut : Int) (hops : List Hop) : Error → Prop
  | noHops (none : hops = []) :
      Rejected registry assets tokenIn tokenOut minOut hops (.route .noHops)
  | unknownInput (some : hops ≠ []) (unknown : ¬ Address.IsAmong assets tokenIn) :
      Rejected registry assets tokenIn tokenOut minOut hops (.route (.unknownToken tokenIn))
  | unknownOutput (some : hops ≠ []) (known : Address.IsAmong assets tokenIn)
      (unknown : ¬ Address.IsAmong assets tokenOut) :
      Rejected registry assets tokenIn tokenOut minOut hops (.route (.unknownToken tokenOut))
  | hop (some : hops ≠ []) {ends : Ends} (found : Ends.find assets tokenIn tokenOut = .ok ends)
      {e : Error} (fault : LeastFault ⟨registry, assets, ends, minOut⟩ 0 0 hops e) :
      Rejected registry assets tokenIn tokenOut minOut hops e

section Route

variable {registry : Registry} {assets : List Text} {tokenIn tokenOut : Text} {minOut : Int}

theorem ofHops_eq (hsome : hops ≠ []) :
    ofHops registry assets tokenIn tokenOut minOut hops =
      Ends.find assets tokenIn tokenOut >>= fun ends =>
        chain ⟨registry, assets, ends, minOut⟩ 0 0 hops :=
  if_neg (mt List.isEmpty_iff.1 hsome)

theorem endsIn_ofHops_places :
    (ofHops registry assets tokenIn tokenOut minOut hops).EndsIn
      (fun actions => hops ≠ [] ∧ ∃ ends, Ends.find assets tokenIn tokenOut = .ok ends ∧
        Become ⟨registry, assets, ends, minOut⟩ 0 hops actions)
      (Rejected registry assets tokenIn tokenOut minOut hops) := by
  by_cases hnone : hops = []
  · exact .of_eq_error (if_pos (List.isEmpty_iff.2 hnone)) (.noHops hnone)
  rw [ofHops_eq hnone]
  by_cases hin : Address.IsAmong assets tokenIn
  · by_cases hout : Address.IsAmong assets tokenOut
    · obtain ⟨ends, found⟩ := Ends.exists_find hin hout
      refine .after found (endsIn_chain_places.mono ?_ ?_)
      · exact fun actions hbecome => ⟨hnone, ends, found, hbecome⟩
      · exact fun e hfault => .hop hnone found hfault
    · exact .of_eq_error (Except.bind_of_eq_error (Ends.find_of_unknownOutput hin hout))
        (.unknownOutput hnone hin hout)
  · exact .of_eq_error (Except.bind_of_eq_error (Ends.find_of_unknownInput hin))
      (.unknownInput hnone hin)

theorem Rejected.ofHops_eq {e : Error}
    (h : Rejected registry assets tokenIn tokenOut minOut hops e) :
    ofHops registry assets tokenIn tokenOut minOut hops = .error e := by
  cases h with
  | noHops none => exact if_pos (List.isEmpty_iff.2 none)
  | unknownInput some unknown =>
      rw [Action.ofHops_eq some]
      exact Except.bind_of_eq_error (Ends.find_of_unknownInput unknown)
  | unknownOutput some known unknown =>
      rw [Action.ofHops_eq some]
      exact Except.bind_of_eq_error (Ends.find_of_unknownOutput known unknown)
  | hop some found fault =>
      rw [Action.ofHops_eq some, Except.bind_of_eq_ok found]
      exact fault.chain_eq

/-- Hops from one token to another are made actions of exactly if there is a hop, both tokens are
among the assets, and each hop is sound at its place. Each hop then becomes one action, which can be
told from the hop and the number of keys handed out before it. Otherwise the error is the first of
those that apply, in the order of `Rejected` and, for the least hop that has a fault, in the order of
`Hop.Fault`. -/
theorem ofHops_closed (registry : Registry) (assets : List Text) (tokenIn tokenOut : Text)
    (minOut : Int) (hops : List Hop) :
    ((∃ actions, ofHops registry assets tokenIn tokenOut minOut hops = .ok actions) ↔
      hops ≠ [] ∧ Address.IsAmong assets tokenIn ∧ Address.IsAmong assets tokenOut ∧
        ∀ ends, Ends.find assets tokenIn tokenOut = .ok ends →
          ∀ (i : Nat) (hop : Hop), hops[i]? = some hop →
            hop.SoundAt ⟨registry, assets, ends, minOut⟩ (keysBefore ends hops i)) ∧
      (∀ actions ends, ofHops registry assets tokenIn tokenOut minOut hops = .ok actions →
        Ends.find assets tokenIn tokenOut = .ok ends → actions.length = hops.length ∧
          ∀ (i : Nat) (hop : Hop), hops[i]? = some hop → ∃ a, actions[i]? = some a ∧
            hop.BecomesAt ⟨registry, assets, ends, minOut⟩ (keysBefore ends hops i) a) ∧
      ∀ e, ofHops registry assets tokenIn tokenOut minOut hops = .error e ↔
        Rejected registry assets tokenIn tokenOut minOut hops e := by
  have hplaces := @endsIn_ofHops_places hops registry assets tokenIn tokenOut minOut
  have hok : ∀ {actions}, ofHops registry assets tokenIn tokenOut minOut hops = .ok actions →
      hops ≠ [] ∧ ∃ ends, Ends.find assets tokenIn tokenOut = .ok ends ∧
        Become ⟨registry, assets, ends, minOut⟩ 0 hops actions := by
    intro actions h
    rwa [h] at hplaces
  refine ⟨⟨?_, ?_⟩, ?_, fun e => ⟨?_, Rejected.ofHops_eq⟩⟩
  · rintro ⟨actions, h⟩
    obtain ⟨hsome, ends, found, hbecome⟩ := hok h
    obtain ⟨hin, hout⟩ := Ends.isAmong_of_find found
    refine ⟨hsome, hin, hout, ?_⟩
    intro ends' found' i hop hhop
    cases found.symm.trans found'
    have hsound := hbecome.sound i hop hhop
    rwa [Nat.zero_add] at hsound
  · rintro ⟨hsome, hin, hout, hsound⟩
    obtain ⟨ends, found⟩ := Ends.exists_find hin hout
    rw [Action.ofHops_eq hsome, Except.bind_of_eq_ok found]
    refine exists_chain 0 fun i hop hhop => ?_
    rw [Nat.zero_add]
    exact hsound ends found i hop hhop
  · intro actions ends h found
    obtain ⟨-, ends', found', hbecome⟩ := hok h
    cases found'.symm.trans found
    refine ⟨hbecome.length_eq, ?_⟩
    intro i hop hhop
    have hplace := hbecome.becomes i hop hhop
    rwa [Nat.zero_add] at hplace
  · intro h
    rwa [h] at hplaces

end Route

end Action

end SwapRelay
