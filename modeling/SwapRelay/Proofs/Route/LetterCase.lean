import SwapRelay.Proofs.Action.Congruence
import SwapRelay.Proofs.Pool.Naming
import SwapRelay.Proofs.Route.Emission

/-!
# Letter case never matters

Addresses, pool ids, user data and signatures are written in hexadecimal, where a letter may be a
capital or a small one, and one and the same token may come in both spellings within one request. The
compiler meets these texts in many places, and brings them to small letters or to bytes in some,
while in others it compares them without regard to case. That no place is missed is a statement about
two compilations, of requests that differ in letter case only: `compile_recased`.

The two are followed side by side. Once the requests are read, their hops and their registries are
the same, and so is all that their calls have in common. What still differs are the names of the
tokens on the two routes (`Route.Recased`), and the walk and the schedule only ask of these which
places they stand at and whether they are the same. The spelling shows in one place: an error quotes
the token that it is about.
-/

namespace SwapRelay

/-- The texts differ in the case of their letters only. -/
def Text.Recased (a b : Text) : Prop :=
  a.map Char.toLower = b.map Char.toLower

instance (a b : Text) : Decidable (a.Recased b) :=
  inferInstanceAs (Decidable (a.map Char.toLower = b.map Char.toLower))

namespace Text.Recased

variable {a b : Text}

theorem lower_eq (h : a.Recased b) (ha : Hex.isMarked a = true) (hb : Hex.isMarked b = true) :
    Text.lower a = Text.lower b := by
  rw [Text.lower_ascii (Hex.ascii_of_isMarked ha), Text.lower_ascii (Hex.ascii_of_isMarked hb)]
  exact h

theorem same (h : a.Recased b) (ha : Form.address.holds a = true)
    (hb : Form.address.holds b = true) : Address.same a b = true :=
  Address.same_iff.2 (h.lower_eq (Form.isMarked_of_holds ha) (Form.isMarked_of_holds hb))

/-- The same bytes are read, or none where the digits do not come in pairs. -/
theorem readBytes_eq (h : a.Recased b) (ha : Hex.isMarked a = true) (hb : Hex.isMarked b = true) :
    Hex.readBytes a = Hex.readBytes b := by
  have hlength : a.length = b.length := by
    have hcount := congrArg List.length h
    rwa [List.length_map, List.length_map] at hcount
  rcases Nat.mod_two_eq_zero_or_one a.length with heven | hodd
  · obtain ⟨bs, hread, hmarked⟩ := Hex.readBytes_of_even ha heven
    obtain ⟨cs, hread', hmarked'⟩ := Hex.readBytes_of_even hb (hlength ▸ heven)
    have hwritten : Hex.marked bs = Hex.marked cs := hmarked.trans (h.trans hmarked'.symm)
    rw [hread, hread', Hex.marked_inj.1 hwritten]
  · rw [Hex.readBytes_of_odd ha hodd, Hex.readBytes_of_odd hb (hlength ▸ hodd)]

end Text.Recased

structure SwapStep.Recased (s t : SwapStep) : Prop where
  poolId : s.poolId.Recased t.poolId
  assetIn : s.assetIn = t.assetIn
  assetOut : s.assetOut = t.assetOut
  amount : s.amount = t.amount
  userData : s.userData.Recased t.userData

structure PoolInfo.Recased (p q : PoolInfo) : Prop where
  id : p.id.Recased q.id
  address : Option.Rel Text.Recased p.address q.address
  tokens : List.Forall₂ Text.Recased p.tokens q.tokens

/-- The requests differ in the case of letters only, which may be another one at each place. -/
structure RouteRequest.Recased (r s : RouteRequest) : Prop where
  tokenIn : r.tokenIn.Recased s.tokenIn
  tokenOut : r.tokenOut.Recased s.tokenOut
  tokens : List.Forall₂ Text.Recased r.tokens s.tokens
  swaps : List.Forall₂ SwapStep.Recased r.swaps s.swaps
  swapAmount : r.swapAmount = s.swapAmount
  returnAmount : r.returnAmount = s.returnAmount
  user : r.user.Recased s.user
  authorisation : Option.Rel Text.Recased r.authorisation s.authorisation
  swapType : r.swapType = s.swapType
  pools : List.Forall₂ PoolInfo.Recased r.pools s.pools

/-- Faults of a route are of one kind if they have one name. Other errors are the same or not. -/
inductive Error.SameKind : Error → Error → Prop
  | refl (e : Error) : SameKind e e
  | route {e f : RouteError} (h : e.name = f.name) : SameKind (.route e) (.route f)

instance : Std.Refl Error.SameKind :=
  ⟨.refl⟩

/-! ## Reading a request -/

theorem Hop.ofStep_eq {s t : SwapStep} (h : s.Recased t) (hs : s.Formed) (ht : t.Formed) :
    ofStep s = ofStep t := by
  have hid : Text.lower s.poolId = Text.lower t.poolId :=
    h.poolId.lower_eq (Form.isMarked_of_holds hs.poolId) (Form.isMarked_of_holds ht.poolId)
  have hdata : Hex.readBytes s.userData = Hex.readBytes t.userData :=
    h.userData.readBytes_eq hs.userData ht.userData
  simp only [ofStep]
  rw [h.amount, hdata, hid, h.assetIn, h.assetOut]

namespace Pool

variable {p q : PoolInfo}

theorem sentAddress_rel (h : p.Recased q) (hp : p.Formed) (hq : q.Formed) :
    Except.Rel Eq (fun a b => Address.same a b = true) (sentAddress p) (sentAddress q) := by
  have hid := h.id.lower_eq (Form.isMarked_of_holds hp.id) (Form.isMarked_of_holds hq.id)
  have hgiven := h.address
  have hpform := hp.address
  have hqform := hq.address
  simp only [sentAddress]
  generalize p.address = given at hgiven hpform
  generalize q.address = given' at hgiven hqform
  cases hgiven with
  | none =>
      rw [addressOfId_eq hp.id, addressOfId_eq hq.id]
      refine .ok (Address.same_iff.2 ?_)
      rw [lower_addressOfId hp.id (addressOfId_eq hp.id),
        lower_addressOfId hq.id (addressOfId_eq hq.id), hid]
  | some haddress => exact .ok (haddress.same (hpform _ rfl) (hqform _ rfl))

theorem ofInfo_eq_of_recased (h : p.Recased q) (hp : p.Formed) (hq : q.Formed) :
    ofInfo p = ofInfo q := by
  have hid := h.id.lower_eq (Form.isMarked_of_holds hp.id) (Form.isMarked_of_holds hq.id)
  have htokens : p.tokens.map Address.normalize = q.tokens.map Address.normalize := by
    refine (h.tokens.imp_of_mem ?_).map_eq_map
    intro a ha b hb hab
    exact Address.normalize_eq_of_same (hab.same (hp.tokens a ha) (hq.tokens b hb))
  rw [ofInfo_eq, ofInfo_eq, hid, htokens]
  refine ((sentAddress_rel h hp hq).map ?_).eq
  intro a b hab
  rw [Address.normalize_eq_of_same hab]

end Pool

theorem Registry.ofInfos_eq {infos others : List PoolInfo}
    (h : List.Forall₂ PoolInfo.Recased infos others) (hinfos : ∀ p ∈ infos, p.Formed)
    (hothers : ∀ q ∈ others, q.Formed) : ofInfos infos = ofInfos others := by
  have hpools : infos.mapM Pool.ofInfo = others.mapM Pool.ofInfo := by
    refine List.mapM_congr (h.imp_of_mem ?_)
    intro p hp q hq hpq
    exact Pool.ofInfo_eq_of_recased hpq (hinfos p hp) (hothers q hq)
  simp only [ofInfos]
  rw [hpools]

/-- The routes are the same up to the names of their tokens and of their user, which are the same
without regard to case. -/
structure Route.Recased (r s : Route) : Prop where
  hops : r.hops = s.hops
  registry : r.registry = s.registry
  swapAmount : r.swapAmount = s.swapAmount
  minOut : r.minOut = s.minOut
  swapType : r.swapType = s.swapType
  assets : List.Forall₂ (fun a b => Address.same a b = true) r.assets s.assets
  tokenIn : Address.same r.tokenIn s.tokenIn = true
  tokenOut : Address.same r.tokenOut s.tokenOut = true
  user : Address.same r.user s.user = true
  approval : ∀ config, r.approval config = s.approval config

/-- A signature in another spelling is handed in with the same bytes. -/
theorem Route.approval_eq {r s : Route} (config : Config)
    (h : Option.Rel Text.Recased r.authorisation s.authorisation)
    (hr : ∀ signed ∈ r.authorisation, Form.bytes.holds signed = true)
    (hs : ∀ signed ∈ s.authorisation, Form.bytes.holds signed = true) :
    r.approval config = s.approval config := by
  simp only [approval]
  generalize r.authorisation = given at h hr
  generalize s.authorisation = given' at h hs
  cases h with
  | none => rfl
  | @some a b hab =>
      have ha : Form.bytes.holds a = true := hr a rfl
      have hb : Form.bytes.holds b = true := hs b rfl
      obtain ⟨digits, rfl, -⟩ := Hex.isMarked_iff.1 ha
      obtain ⟨digits', rfl, -⟩ := Hex.isMarked_iff.1 hb
      have hbytes := hab.readBytes_eq ha hb
      have hprepare : Call.prepare (.setRelayerApproval config.relayer true ('0' :: 'x' :: digits)) =
          Call.prepare (.setRelayerApproval config.relayer true ('0' :: 'x' :: digits')) := by
        simp only [Call.prepare, Call.read]
        rw [hbytes]
      show (Call.prepare _).map _ = (Call.prepare _).map _
      rw [hprepare]

/-- Requests that differ in letter case become routes that differ in the names of tokens only. -/
theorem RouteRequest.route_rel {r s : RouteRequest} (h : r.Recased s) (hr : r.Formed)
    (hs : s.Formed) : Except.Rel Error.SameKind Route.Recased r.route s.route := by
  have hhops : r.hops = s.hops := by
    refine List.mapM_congr (h.swaps.imp_of_mem ?_)
    intro a ha b hb hab
    exact Hop.ofStep_eq hab (hr.swaps a ha) (hs.swaps b hb)
  have hregistry : Registry.ofInfos r.pools = Registry.ofInfos s.pools :=
    Registry.ofInfos_eq h.pools hr.pools hs.pools
  simp only [route]
  rw [hhops, hregistry, h.swapAmount, h.returnAmount]
  refine .after _ fun hops => .after _ fun swapAmount => ?_
  refine .after _ fun minOut => .after _ fun registry => .ok ?_
  exact {
    hops := rfl
    registry := rfl
    swapAmount := rfl
    minOut := rfl
    swapType := h.swapType
    assets := h.tokens.imp_of_mem fun a ha b hb hab => hab.same (hr.tokens a ha) (hs.tokens b hb)
    tokenIn := h.tokenIn.same hr.tokenIn hs.tokenIn
    tokenOut := h.tokenOut.same hr.tokenOut hs.tokenOut
    user := h.user.same hr.user hs.user
    approval := fun config =>
      Route.approval_eq config h.authorisation hr.authorisation hs.authorisation }

/-! ## From the hops to the calls -/

section Tokens

variable {l m : List Text} (h : List.Forall₂ (fun a b => Address.same a b = true) l m)

include h

theorem Address.indexOf?_eq {t u : Text} (htu : same t u = true) :
    indexOf? l t = indexOf? m u := by
  simp only [indexOf?]
  induction h with
  | nil => rfl
  | cons hab _ ih => rw [List.findIdx?_cons, List.findIdx?_cons, same_congr hab htu, ih]

/-- The ends of a route are at the same places, or one of them is named by the error. -/
theorem Ends.find_rel {tokenIn tokenIn' tokenOut tokenOut' : Text}
    (hin : Address.same tokenIn tokenIn' = true) (hout : Address.same tokenOut tokenOut' = true) :
    Except.Rel Error.SameKind Eq (find l tokenIn tokenOut) (find m tokenIn' tokenOut') := by
  simp only [find]
  rw [Address.indexOf?_eq h hin, Address.indexOf?_eq h hout]
  cases Address.indexOf? m tokenIn' with
  | none => exact .error (.route rfl)
  | some i =>
      cases Address.indexOf? m tokenOut' with
      | none => exact .error (.route rfl)
      | some o => exact .ok rfl

theorem assetAt_rel (i : Nat) :
    Except.Rel Eq (fun a b => Address.same a b = true) (assetAt l i) (assetAt m i) := by
  have hitem := h.rel_getElem? i
  simp only [assetAt]
  generalize l[i]? = a at hitem
  generalize m[i]? = b at hitem
  cases hitem with
  | none => exact .error rfl
  | some hab => exact .ok hab

/-- A hop is classified by what its tokens are the same as. -/
theorem Hop.classify_eq (hop : Hop) (address : Text) :
    hop.classify l address = hop.classify m address := by
  apply Except.Rel.eq
  refine (assetAt_rel h hop.assetIn).bind fun tokenIn tokenIn' hin => ?_
  refine (assetAt_rel h hop.assetOut).bind fun tokenOut tokenOut' hout => ?_
  rw [Address.same_congr hin (Address.same_refl address),
    Address.same_congr hout (Address.same_refl address)]
  exact .refl _

theorem Action.ofHop_eq (registry : Registry) (ends : Ends) (minOut : Int) (position keys : Nat)
    (hop : Hop) : ofHop ⟨registry, l, ends, minOut⟩ position keys hop =
      ofHop ⟨registry, m, ends, minOut⟩ position keys hop := by
  simp only [ofHop]
  apply Except.Rel.eq
  refine .after _ fun pool => ?_
  rw [Hop.classify_eq h]
  exact .refl _

theorem Action.chain_eq (registry : Registry) (ends : Ends) (minOut : Int) :
    chain ⟨registry, l, ends, minOut⟩ = chain ⟨registry, m, ends, minOut⟩ :=
  chain_congr rfl (Action.ofHop_eq h registry ends minOut)

end Tokens

namespace Route.Recased

variable {r s : Route} (h : r.Recased s)

include h

theorem actions_rel : Except.Rel Error.SameKind Eq r.actions s.actions := by
  simp only [actions, Action.ofHops]
  rw [h.hops, h.registry, h.minOut]
  split
  · exact .error (.refl _)
  · refine (Ends.find_rel h.assets h.tokenIn h.tokenOut).bind ?_
    intro ends _ hends
    rw [← hends, Action.chain_eq h.assets]
    exact .refl _

theorem schedule_rel : Except.Rel Error.SameKind Eq r.schedule s.schedule := by
  refine h.actions_rel.bind ?_
  intro actions _ hactions
  refine (Ends.find_rel h.assets h.tokenIn h.tokenOut).bind ?_
  intro ends _ hends
  rw [hactions, hends]
  exact .refl _

/-- What the calls have in common is in normal form. -/
theorem context_eq (config : Config) (deadline : Int) :
    r.context config deadline = s.context config deadline := by
  have hassets : r.assets.map Address.normalize = s.assets.map Address.normalize :=
    (h.assets.imp fun _ _ => Address.normalize_eq_of_same).map_eq_map
  simp only [context]
  rw [hassets, h.swapAmount, h.swapType, h.registry, Address.normalize_eq_of_same h.tokenIn,
    Address.normalize_eq_of_same h.tokenOut, Address.normalize_eq_of_same h.user]

theorem compile_rel (config : Config) (deadline : Int) :
    Except.Rel Error.SameKind Eq (r.compile config deadline) (s.compile config deadline) := by
  have hcalls : Except.Rel Error.SameKind Eq (r.calls config deadline) (s.calls config deadline) := by
    refine h.schedule_rel.bind ?_
    intro ordered _ hordered
    rw [hordered, h.approval config, h.context_eq config deadline]
    exact .refl _
  refine hcalls.bind ?_
  intro calls _ hequal
  rw [hequal]
  exact .refl _

end Route.Recased

namespace RouteRequest

/-- Of two checked requests that differ in letter case only, either both compile, to one and the same
call, or neither does, for errors of one kind. -/
theorem compile_recased {r s : RouteRequest} (hr : r.Validated) (hs : s.Validated)
    (h : r.Recased s) (config : Config) (deadline : Int) :
    (∃ compiled, r.compile config deadline = .ok compiled ∧
        s.compile config deadline = .ok compiled) ∨
      ∃ e f, r.compile config deadline = .error e ∧ s.compile config deadline = .error f ∧
        e.SameKind f := by
  have hroutes := route_rel h hr.formed hs.formed
  have hcompile : Except.Rel Error.SameKind Eq (r.compile config deadline)
      (s.compile config deadline) :=
    hroutes.bind fun _ _ hroute => hroute.compile_rel config deadline
  rcases hcompile.ok_or_error with ⟨compiled, _, hok, hok', rfl⟩ | hfail
  · exact .inl ⟨compiled, hok, hok'⟩
  · exact .inr hfail

/-- A token is swapped for another one, which goes into a pool. Some of the letters can be made capital
ones, and if the route's output is not to be known, it is none of the tokens. -/
def spelled (capitals known : Bool) : RouteRequest :=
  let address (digit : Char) : Text := '0' :: 'x' :: List.replicate 40 digit
  let poolId (digit : Char) : Text := '0' :: 'x' :: List.replicate 64 digit
  let spell (digit : Char) : Char := if capitals then digit.toUpper else digit
  { tokenIn := address (spell 'a')
    tokenOut := address (spell (if known then 'e' else 'f'))
    tokens := [address 'a', address (spell 'b'), address 'e']
    swaps := [
      ⟨poolId 'd', 0, 1, "1000".toList, ['0', 'x', '0', spell 'c']⟩,
      ⟨poolId (spell 'e'), 1, 2, "0".toList, "0x".toList⟩]
    swapAmount := "1000".toList
    returnAmount := "990".toList
    user := address (spell 'c')
    authorisation := some ['0', 'x', spell 'f', 'f']
    swapType := .exactIn
    pools := [
      ⟨poolId (spell 'd'), none, [address 'a', address 'b']⟩,
      ⟨poolId 'e', some (address (spell 'e')), [address (spell 'a'), address 'b']⟩] }

theorem validated_spelled (capitals known : Bool) : (spelled capitals known).Validated := by
  cases capitals <;> cases known <;>
    exact validated_of_formed (by decide) (by decide) (by decide) (by decide)

theorem recased_spelled (known : Bool) : (spelled false known).Recased (spelled true known) where
  tokenIn := by cases known <;> decide
  tokenOut := by cases known <;> decide
  tokens := .cons rfl (.cons (by decide) (.cons rfl .nil))
  swaps := by
    refine .cons ⟨rfl, rfl, rfl, rfl, by decide⟩ (.cons ⟨?_, rfl, rfl, rfl, rfl⟩ .nil)
    decide
  swapAmount := rfl
  returnAmount := rfl
  user := by cases known <;> decide
  authorisation := .some (by decide)
  swapType := rfl
  pools := by
    refine .cons ⟨?_, .none, .cons rfl (.cons rfl .nil)⟩
      (.cons ⟨rfl, .some ?_, .cons ?_ (.cons rfl .nil)⟩ .nil)
    all_goals decide

/-- The two spellings of one route compile to the same call, and those of another one fail alike. -/
theorem compile_recased_spelled :
    (spelled false true).Validated ∧ (spelled true true).Validated ∧
      (spelled false true).Recased (spelled true true) ∧
      (∃ compiled, (spelled false true).compile .standard 1700000000 = .ok compiled ∧
        (spelled true true).compile .standard 1700000000 = .ok compiled) ∧
      ∃ e f, (spelled false false).compile .standard 1700000000 = .error e ∧
        (spelled true false).compile .standard 1700000000 = .error f ∧ e.SameKind f := by
  refine ⟨validated_spelled false true, validated_spelled true true, recased_spelled true, ?_, ?_⟩
  · obtain ⟨compiled, hok⟩ := exists_compiled (spelled false true) .standard 1700000000 (by decide)
      (by decide +kernel)
    rcases compile_recased (validated_spelled false true) (validated_spelled true true)
      (recased_spelled true) .standard 1700000000 with hboth | ⟨e, _, herror, -⟩
    · exact hboth
    · rw [hok] at herror
      cases herror
  · have hnone : ((spelled false false).compile .standard 1700000000).toOption.isNone := by decide
    rcases compile_recased (validated_spelled false false) (validated_spelled true false)
      (recased_spelled false) .standard 1700000000 with ⟨compiled, hok, -⟩ | hfail
    · rw [hok] at hnone
      cases hnone
    · exact hfail

end RouteRequest

end SwapRelay
