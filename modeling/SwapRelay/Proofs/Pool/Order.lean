import Mathlib.Data.List.Find
import Mathlib.Data.List.Pairwise
import SwapRelay.Proofs.Pool.Naming
import SwapRelay.Proofs.Sorting

/-!
# The order in which pools are listed

Pools are listed in some order, and so are the tokens of each of them, but neither order is kept. A
registry is only asked for the pool of an id and for whether a token is a share token, and the
tokens of a pool are put in the order of their keys before they are used. So a list of other order
gives a registry that answers alike (`Registry.ofInfos_alike`), unless the order decides between two
entries: two pools of one id, of which the later one counts, or two tokens of one key, which keep
their order.
-/

namespace SwapRelay

namespace Pool

/-- The two tokens have the same place in the order of a pool's tokens. -/
def SameKey (wrappedNative t u : Text) : Prop :=
  ∃ key, sortKey wrappedNative t = .ok key ∧ sortKey wrappedNative u = .ok key

instance (wrappedNative t u : Text) : Decidable (SameKey wrappedNative t u) :=
  decidable_of_iff
    ((sortKey wrappedNative t).toOption.any fun key =>
      (sortKey wrappedNative u).toOption == some key) <| by
    simp only [SameKey]
    cases sortKey wrappedNative t <;> cases sortKey wrappedNative u <;> simp [Except.toOption]

/-- No two of the tokens have the same place in their order. -/
def Distinct (wrappedNative : Text) (tokens : List Text) : Prop :=
  tokens.Pairwise fun t u => ¬ SameKey wrappedNative t u

instance (wrappedNative : Text) (tokens : List Text) : Decidable (Distinct wrappedNative tokens) :=
  inferInstanceAs (Decidable (tokens.Pairwise _))

variable {wrappedNative : Text}

theorem eq_of_sameKey {tokens : List Text} (h : Distinct wrappedNative tokens) {t u : Text}
    (ht : t ∈ tokens) (hu : u ∈ tokens) (hsame : SameKey wrappedNative t u) : t = u := by
  by_contra hne
  have hsymm : Std.Symm fun t u => ¬ SameKey wrappedNative t u :=
    ⟨fun t u hdiffer ⟨key, hu, ht⟩ => hdiffer ⟨key, ht, hu⟩⟩
  exact h.forall ht hu hne hsame

theorem sortKey_normalize {t : Text} (h : Form.address.holds t = true) :
    sortKey wrappedNative (Address.normalize t) = sortKey wrappedNative t := by
  have hnative : Address.same (Address.normalize t) Address.native =
      Address.same t Address.native := by
    simp only [Address.same]
    rw [Form.lower_normalize h]
  simp only [sortKey]
  rw [hnative]
  by_cases hwraps : Address.same t Address.native = true
  · rw [if_pos hwraps, if_pos hwraps]
  · rw [if_neg hwraps, if_neg hwraps, Form.normalize_normalize h]

/-- In whatever order the tokens come, they are put in the same one. -/
theorem sortTokens_eq_of_perm {tokens others : List Text} (h : tokens.Perm others)
    (hdistinct : Distinct wrappedNative tokens) :
    sortTokens wrappedNative tokens = sortTokens wrappedNative others := by
  let keyed (token : Text) : Except Error (Int × Text) :=
    (sortKey wrappedNative token).map (·, token)
  have herror : ∀ t ∈ tokens, ∀ e, keyed t = .error e → e = .unreadable := by
    intro t _ e he
    simp only [keyed, sortKey] at he
    split at he
    · cases he
    · cases he
      rfl
  have hpairs : Except.Rel Eq List.Perm (tokens.mapM keyed) (others.mapM keyed) :=
    List.rel_mapM_of_perm h herror
  have hsorts (items : List Text) : sortTokens wrappedNative items =
      (items.mapM keyed).map fun pairs =>
        (Sorting.sort (fun a b => decide (a.1 ≤ b.1)) pairs).map (Address.normalize ·.2) := by
    show (items.mapM keyed >>= _) = _
    cases items.mapM keyed <;> rfl
  rw [hsorts, hsorts]
  rcases hpairs.ok_or_error with ⟨pairs, pairs', hl, hm, hperm⟩ | ⟨e, _, hl, hm, rfl⟩
  · have hkeys : ∀ a ∈ pairs, ∀ b ∈ pairs, a.1 = b.1 → a = b := by
      intro a ha b hb hab
      obtain ⟨t, ht, hta⟩ := (List.mapM_eq_ok.1 hl).flip.exists_of_mem ha
      obtain ⟨u, hu, hub⟩ := (List.mapM_eq_ok.1 hl).flip.exists_of_mem hb
      obtain ⟨k, hk, rfl⟩ := Except.map_eq_ok.1 hta
      obtain ⟨k', hk', rfl⟩ := Except.map_eq_ok.1 hub
      obtain rfl : k = k' := hab
      rw [eq_of_sameKey hdistinct ht hu ⟨k, hk, hk'⟩]
    rw [hl, hm]
    simp only [Except.map]
    rw [Sorting.sort_eq_of_perm hperm hkeys]
  · rw [hl, hm]

/-- The pools serve a route alike. -/
structure Alike (wrappedNative : Text) (p q : Pool) : Prop where
  id : p.id = q.id
  address : p.address = q.address
  sorted : sortTokens wrappedNative p.tokens = sortTokens wrappedNative q.tokens

theorem Alike.key {p q : Pool} (h : Alike wrappedNative p q) : p.key = q.key := by
  rw [Pool.key, Pool.key, h.id]

theorem distinct_normalize {tokens : List Text} (h : Distinct wrappedNative tokens)
    (hform : ∀ t ∈ tokens, Form.address.holds t = true) :
    Distinct wrappedNative (tokens.map Address.normalize) := by
  rw [Distinct, List.pairwise_map]
  refine h.imp_of_mem ?_
  rintro t u ht hu hdiffer ⟨key, htkey, hukey⟩
  rw [sortKey_normalize (hform t ht)] at htkey
  rw [sortKey_normalize (hform u hu)] at hukey
  exact hdiffer ⟨key, htkey, hukey⟩

end Pool

/-- The same pool with its tokens in another order. -/
structure PoolInfo.Relisted (p q : PoolInfo) : Prop where
  id : p.id = q.id
  address : p.address = q.address
  tokens : p.tokens.Perm q.tokens

/-- The same pools in another order, and the tokens of each of them in another order too. -/
def Relisted (infos others : List PoolInfo) : Prop :=
  ∃ moved, infos.Perm moved ∧ List.Forall₂ PoolInfo.Relisted moved others

theorem Pool.ofInfo_alike {wrappedNative : Text} {p q : PoolInfo} (h : p.Relisted q)
    (hform : p.Formed) (hdistinct : Distinct wrappedNative p.tokens) :
    Except.Rel Eq (Alike wrappedNative) (ofInfo p) (ofInfo q) := by
  have hsent : sentAddress p = sentAddress q := by
    simp only [sentAddress]
    rw [h.address, h.id]
  rw [ofInfo_eq, ofInfo_eq, hsent, h.id]
  refine .map_eq fun address _ => ⟨rfl, rfl, ?_⟩
  exact sortTokens_eq_of_perm (h.tokens.map _) (distinct_normalize hdistinct hform.tokens)

namespace Registry

variable {wrappedNative : Text}

/-- The registries answer every question of a route alike. -/
structure Alike (wrappedNative : Text) (r s : Registry) : Prop where
  get : ∀ id, Except.Rel Eq (Pool.Alike wrappedNative) (r.get id) (s.get id)
  isShareToken : ∀ token, r.isShareToken token = s.isShareToken token

/-- Where no id comes twice, no entry is replaced. -/
theorem survivors_eq_self {pools : List Pool} (h : (pools.map Pool.key).Nodup) :
    survivors pools = pools := by
  induction pools with
  | nil => rfl
  | cons pool rest ih =>
      rw [List.map_cons, List.nodup_cons] at h
      rw [survivors, if_neg, ih h.2]
      intro hany
      obtain ⟨other, hmem, hkey⟩ := List.any_eq_true.1 hany
      exact h.1 (List.mem_map.2 ⟨other, hmem, beq_iff_eq.1 hkey⟩)

theorem find?_alike {pools others : List Pool}
    (h : List.Forall₂ (Pool.Alike wrappedNative) pools others) (key : Text) :
    Option.Rel (Pool.Alike wrappedNative) (pools.find? (·.key == key))
      (others.find? (·.key == key)) := by
  induction h with
  | nil => exact .none
  | cons hpool _ ih =>
      rw [List.find?_cons, List.find?_cons, hpool.key]
      split
      · exact .some hpool
      · exact ih

/-- Pools of different ids can be rearranged, and each of them replaced by one that is alike. -/
theorem alike_of_perm {pools moved others : List Pool} (hdistinct : (pools.map Pool.key).Nodup)
    (hperm : pools.Perm moved) (h : List.Forall₂ (Pool.Alike wrappedNative) moved others) :
    Alike wrappedNative (ofList pools) (ofList others) := by
  have hkeys : moved.map Pool.key = others.map Pool.key :=
    (h.imp fun _ _ => Pool.Alike.key).map_eq_map
  have hothers : (others.map Pool.key).Nodup := by
    rw [← hkeys]
    exact (hperm.map Pool.key).nodup_iff.1 hdistinct
  simp only [ofList]
  rw [survivors_eq_self hdistinct, survivors_eq_self hothers]
  constructor
  · intro id
    have hone : {pool ∈ pools | pool.key == Text.lower id}.Subsingleton := by
      rintro p ⟨hp, hpkey⟩ q ⟨hq, hqkey⟩
      exact List.inj_on_of_nodup_map hdistinct hp hq
        ((beq_iff_eq.1 hpkey).trans (beq_iff_eq.1 hqkey).symm)
    have hfound := find?_alike h (Text.lower id)
    rw [← List.find?_eq_find?_of_perm hperm hone] at hfound
    simp only [get, find?]
    generalize pools.find? (·.key == Text.lower id) = found at hfound ⊢
    generalize others.find? (·.key == Text.lower id) = found' at hfound ⊢
    cases hfound with
    | none => exact .error rfl
    | some hpool => exact .ok hpool
  · intro token
    have haddresses : moved.map Pool.address = others.map Pool.address :=
      (h.imp fun _ _ => Pool.Alike.address).map_eq_map
    have hany (pools : List Pool) : isShareToken ⟨pools⟩ token = (pools.map Pool.address).any
        (Address.normalize · == Address.normalize token) := by
      rw [List.any_map]
      rfl
    rw [hany, hany, ← haddresses]
    exact (hperm.map Pool.address).any_eq

/-- In whatever order pools of different ids are listed, and in whatever order the tokens of each
of them, the registry answers alike. -/
theorem ofInfos_alike {infos others : List PoolInfo} (h : Relisted infos others)
    (hforms : ∀ info ∈ infos, info.Formed)
    (hids : (infos.map fun info => Text.lower info.id).Nodup)
    (hdistinct : ∀ info ∈ infos, Pool.Distinct wrappedNative info.tokens) :
    Except.Rel Eq (Alike wrappedNative) (ofInfos infos) (ofInfos others) := by
  obtain ⟨moved, hperm, hrelisted⟩ := h
  have hmade : (infos.mapM Pool.ofInfo).EndsIn
      (List.Forall₂ (fun info pool => pool.key = Text.lower info.id) infos) fun _ => False := by
    apply List.endsIn_mapM
    intro info hinfo
    obtain ⟨address, haddress, -⟩ := Pool.exists_sentAddress (hforms info hinfo)
    have hpool := (Pool.ofInfo_eq info).trans (Except.map_eq_ok.2 ⟨address, haddress, rfl⟩)
    exact .of_eq_ok hpool (Pool.key_of_ofInfo (hforms info hinfo) hpool)
  obtain ⟨pools, hpools, hkeys⟩ := hmade.exists_ok
  obtain ⟨movedPools, hmoved, hpoolPerm⟩ :=
    List.perm_comp_forall₂ hperm.symm (List.mapM_eq_ok.1 hpools)
  have hrel : Except.Rel Eq (List.Forall₂ (Pool.Alike wrappedNative)) (moved.mapM Pool.ofInfo)
      (others.mapM Pool.ofInfo) := by
    apply List.rel_mapM
    refine hrelisted.imp_of_mem ?_
    intro p hp q _ hpq
    have hmem := hperm.mem_iff.2 hp
    exact Pool.ofInfo_alike hpq (hforms p hmem) (hdistinct p hmem)
  rw [List.mapM_eq_ok.2 hmoved] at hrel
  simp only [ofInfos]
  rw [hpools]
  cases hother : others.mapM Pool.ofInfo with
  | error e =>
      rw [hother] at hrel
      cases hrel
  | ok otherPools =>
      rw [hother] at hrel
      cases hrel with
      | ok halike =>
          refine .ok (alike_of_perm ?_ hpoolPerm.symm halike)
          rw [← (hkeys.imp fun _ _ => Eq.symm).map_eq_map]
          exact hids

end Registry

end SwapRelay
