import Mathlib.Data.Fin.Basic
import Mathlib.Data.Fintype.BigOperators
import SwapRelay.Proofs.Relayer.Renumber
import SwapRelay.Proofs.Route.Approvals

/-!
# The order of the assets is a matter of names

A request may list its assets in any order, as long as its steps name their places in it. Let the
assets change places in whatever way and the steps follow: `compile_renumbered` says that the request
compiles as before, or fails as before. Deposits, withdrawals and approvals are the same byte for
byte, and the batches of swaps have the new places and nothing else that is new.

No asset may be listed twice, since a token that is looked up by name would be found at the first of
its places, whichever that is. This also keeps the places small: there are no more different assets
than addresses, so each place fits a word (`Address.length_le`).
-/

namespace SwapRelay

namespace Address

/-- Lists of twenty bytes that are all different, counted by their codes. -/
theorem length_le_of_nodup {accounts : List Bytes} (hlengths : ∀ bs ∈ accounts, bs.length = 20)
    (hnodup : accounts.Nodup) : accounts.length ≤ 256 ^ 20 := by
  let code (bs : Bytes) (i : Fin 20) : Fin 256 := (bs.getD i 0).toFin
  have hcodes : (accounts.map code).Nodup := by
    refine List.Nodup.map_on ?_ hnodup
    intro as has bs hbs hcode
    apply List.ext_getElem ((hlengths as has).trans (hlengths bs hbs).symm)
    intro i hi hi'
    have hbyte := congrFun hcode ⟨i, hlengths as has ▸ hi⟩
    simp only [code, List.getD_eq_getElem?_getD, List.getElem?_eq_getElem hi,
      List.getElem?_eq_getElem hi', Option.getD_some] at hbyte
    exact UInt8.toFin_inj.1 hbyte
  have hcount := hcodes.length_le_card
  rwa [List.length_map, Fintype.card_fun, Fintype.card_fin, Fintype.card_fin] at hcount

/-- There are only so many addresses. -/
theorem length_le {tokens : List Text} (hform : ∀ t ∈ tokens, Form.address.holds t = true)
    (hdistinct : (tokens.map Text.lower).Nodup) : tokens.length ≤ 256 ^ 20 := by
  obtain ⟨accounts, hread, hlengths⟩ := exists_allBytes hform
  have hbytes := List.mapM_eq_ok.1 hread
  have hmarked : tokens.map Text.lower = accounts.map Hex.marked := by
    refine (hbytes.imp_of_mem fun t ht bs _ hbs => ?_).map_eq_map
    obtain ⟨bs', hbs', -, hmarked⟩ := exists_bytes (hform t ht)
    cases hbs.symm.trans hbs'
    exact hmarked.symm
  rw [hmarked] at hdistinct
  rw [hbytes.length_eq]
  exact length_le_of_nodup hlengths hdistinct.of_map

end Address

/-- The permutation of a list's places, as one of all places: beyond the end of the list nothing
moves. -/
def places {n : Nat} (σ : Equiv.Perm (Fin n)) : Equiv.Perm Nat :=
  σ.extendDomain Fin.equivSubtype

section Places

variable {n : Nat} (σ : Equiv.Perm (Fin n))

theorem places_of_lt {i : Nat} (h : i < n) : places σ i = σ ⟨i, h⟩ :=
  Equiv.Perm.extendDomain_apply_subtype σ Fin.equivSubtype h

theorem places_of_le {i : Nat} (h : n ≤ i) : places σ i = i :=
  Equiv.Perm.extendDomain_apply_not_subtype σ Fin.equivSubtype (Nat.not_lt.2 h)

theorem fits_places (hn : n ≤ 256 ^ 20) (i : Nat) :
    Uint256.Fits (places σ i) ↔ Uint256.Fits i := by
  rcases Nat.lt_or_ge i n with hlt | hge
  · have hspan : 256 ^ 20 ≤ Nat.pow 2 256 := by decide
    have hmoved := (σ ⟨i, hlt⟩).isLt
    rw [places_of_lt σ hlt]
    simp only [Uint256.Fits]
    omega
  · rw [places_of_le σ hge]

/-- The items of a list at other places. -/
theorem moved_ofFn {α : Type} (l : List α) (σ : Equiv.Perm (Fin l.length)) :
    Moved (places σ) l (List.ofFn fun i => l[σ.symm i]) := by
  intro i
  rcases Nat.lt_or_ge i l.length with hlt | hge
  · rw [places_of_lt σ hlt, List.getElem?_ofFn, dif_pos (σ ⟨i, hlt⟩).isLt,
      List.getElem?_eq_getElem hlt]
    simp
  · rw [places_of_le σ hge, List.getElem?_eq_none hge, List.getElem?_eq_none]
    rw [List.length_ofFn]
    exact hge

end Places

section Renumber

variable {π : Equiv.Perm Nat}

def SwapStep.renumber (π : Equiv.Perm Nat) (s : SwapStep) : SwapStep :=
  { s with assetIn := π s.assetIn, assetOut := π s.assetOut }

theorem Hop.ofStep_renumber (s : SwapStep) :
    Except.Rel Eq (fun g k => k = g.renumber π) (ofStep s) (ofStep (s.renumber π)) :=
  .after _ fun _ => .after _ fun _ => .ok rfl

/-- The route of the hops with new places, in a list of assets in the new order. -/
def Route.Renumbered (π : Equiv.Perm Nat) (r s : Route) : Prop :=
  ∃ assets, Moved π r.assets assets ∧ s = { r with assets, hops := r.hops.map (·.renumber π) }

theorem Route.Renumbered.calls_renumbered {r s : Route} (h : r.Renumbered π s)
    (hform : ∀ t ∈ r.assets, Form.address.holds t = true)
    (hdistinct : (r.assets.map Text.lower).Nodup)
    (hπ : ∀ i : Nat, Uint256.Fits (π i) ↔ Uint256.Fits i) (config : Config) (deadline : Int) :
    Except.Rel Eq (List.Forall₂ (Call.Renumbered π)) (r.calls config deadline)
      (s.calls config deadline) := by
  obtain ⟨assets, hmoved, rfl⟩ := h
  have hschedule : Except.Rel Eq (List.Forall₂ (Action.Renumbered π)) r.schedule
      { r with assets, hops := r.hops.map (Hop.renumber π) }.schedule :=
    (Action.ofHops_renumbered hdistinct hmoved r.registry r.tokenIn r.tokenOut r.minOut
      r.hops).bind fun _ _ => Action.schedule_renumbered hdistinct hmoved r.tokenIn r.tokenOut
  have hcontext : ∀ t ∈ (r.context config deadline).assets, Form.address.holds t = true :=
    Form.holds_map_normalize hform
  refine Route.calls_rel hschedule rfl (fun _ _ => .same rfl) ?_
  rintro a _ rfl
  exact Action.calls_renumbered (hmoved.map Address.normalize) a hcontext hπ

namespace RouteRequest

/-- The request with its assets at other places, which its steps name. -/
def renumbered (request : RouteRequest) (σ : Equiv.Perm (Fin request.tokens.length)) :
    RouteRequest :=
  { request with
    tokens := List.ofFn fun i => request.tokens[σ.symm i]
    swaps := request.swaps.map (·.renumber (places σ)) }

theorem route_renumbered (request : RouteRequest) (σ : Equiv.Perm (Fin request.tokens.length)) :
    Except.Rel Eq (fun r s => r.assets = request.tokens ∧ r.Renumbered (places σ) s) request.route
      (request.renumbered σ).route := by
  have hhops : Except.Rel Eq (List.Forall₂ fun g k => k = g.renumber (places σ)) request.hops
      (request.renumbered σ).hops := by
    apply List.rel_mapM
    rw [renumbered, List.forall₂_map_right_iff, List.forall₂_same]
    exact fun s _ => Hop.ofStep_renumber s
  refine hhops.bind fun hops others hrel => ?_
  obtain rfl : others = hops.map (·.renumber (places σ)) := by
    rw [← List.forall₂_eq_eq_eq, List.forall₂_map_right_iff]
    exact hrel.flip
  refine .after _ fun swapAmount => .after _ fun minOut => .after _ fun registry => ?_
  exact .ok ⟨rfl, _, moved_ofFn request.tokens σ, rfl⟩

/-- A checked request whose assets are all different compiles whatever their order is, or fails with
the same error. The calls are the same in number and in kind. A batch of swaps has the new places in
its steps and its outputs, and its assets and its limits in the new order; everything else in it, and
every other call, is as before. -/
theorem compile_renumbered {request : RouteRequest} (hvalid : request.Validated)
    (hdistinct : (request.tokens.map Text.lower).Nodup)
    (σ : Equiv.Perm (Fin request.tokens.length)) (config : Config) (deadline : Int) :
    (∃ e, request.compile config deadline = .error e ∧
        (request.renumbered σ).compile config deadline = .error e) ∨
      ∃ calls others, request.calls config deadline = .ok calls ∧
        (request.renumbered σ).calls config deadline = .ok others ∧
        List.Forall₂ (Call.Renumbered (places σ)) calls others ∧
        request.compile config deadline = .ok (.ofCalls config.relayer calls) ∧
        (request.renumbered σ).compile config deadline = .ok (.ofCalls config.relayer others) := by
  have hform := hvalid.formed.tokens
  have hπ := fits_places σ (Address.length_le hform hdistinct)
  apply compile_rel rfl
  refine (route_renumbered request σ).bind ?_
  rintro route other ⟨hassets, hroute⟩
  rw [← hassets] at hform hdistinct
  exact hroute.calls_renumbered hform hdistinct hπ config deadline

/-- The first asset and the last one change places. -/
theorem compile_renumbered_depositThenSwap :
    let request := depositThenSwap true
    let σ : Equiv.Perm (Fin 3) := Equiv.swap 0 2
    request.Validated ∧ (request.tokens.map Text.lower).Nodup ∧
      request.swaps.map (fun s => (s.assetIn, s.assetOut)) = [(0, 1), (1, 2)] ∧
      (request.renumbered σ).swaps.map (fun s => (s.assetIn, s.assetOut)) = [(2, 1), (1, 0)] ∧
      ∃ calls others, calls.map Call.isBatchSwap = [false, true] ∧
        List.Forall₂ (Call.Renumbered (places σ)) calls others ∧
        request.compile .standard 1700000000 =
          .ok (.ofCalls Config.standard.relayer calls) ∧
        (request.renumbered σ).compile .standard 1700000000 =
          .ok (.ofCalls Config.standard.relayer others) := by
  intro request σ
  have hvalid : request.Validated := validated_depositThenSwap true
  have hdistinct : (request.tokens.map Text.lower).Nodup := by decide
  refine ⟨hvalid, hdistinct, rfl, rfl, ?_⟩
  obtain ⟨calls, hcalls, hkinds⟩ := Except.exists_of_any
    (x := request.calls .standard 1700000000)
    (·.map Call.isBatchSwap == [false, true]) (by decide +kernel)
  rcases compile_renumbered hvalid hdistinct σ .standard 1700000000 with
    ⟨e, he, -⟩ | ⟨calls', others, hcalls', -, hrenumbered, hok, hok'⟩
  · have hok := compile_of_calls (by decide) hcalls
    rw [he] at hok
    cases hok
  · cases hcalls.symm.trans hcalls'
    exact ⟨calls, others, beq_iff_eq.1 hkinds, hrenumbered, hok, hok'⟩

end RouteRequest

end Renumber

end SwapRelay
