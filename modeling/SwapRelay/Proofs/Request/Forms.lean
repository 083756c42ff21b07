import SwapRelay.Proofs.Uint256

/-!
# What a checked request is made of

A check either lets a value through or lists what is wrong with it, and all that is known of a
request is that it was let through. `Check.Ensures` says what a check is good for, and goes through
lists, fields and defaults. A whole request that passed its check has every text in the form that is
asked for (`RouteRequest.Validated.formed`), and no amounts but such as are let through. And a
request whose texts and amounts are as they should be is one that passed: it is let through once it
is written out (`RouteRequest.check_toJson`).
-/

namespace SwapRelay

namespace Check

variable {α β : Type}

theorem map_eq_good {f : α → β} {x : Check α} {b : β} :
    f <$> x = .good b ↔ ∃ a, x = .good a ∧ f a = b := by
  cases x with
  | good a => simp [Functor.map, Check.map]
  | bad issues => simp [Functor.map, Check.map]

theorem seq_eq_good {f : Check (α → β)} {x : Check α} {b : β} :
    f <*> x = .good b ↔ ∃ g a, f = .good g ∧ x = .good a ∧ g a = b := by
  cases f <;> cases x <;> simp [Seq.seq, both]

theorem within_eq_good {step : Step} {x : Check α} {a : α} :
    x.within step = .good a ↔ x = .good a := by
  cases x <;> simp [within]

/-- Whatever the check lets through has the property. -/
def Ensures (check : Json → Check α) (P : α → Prop) : Prop :=
  ∀ j a, check j = .good a → P a

theorem ensures_text (form : Form) : Ensures (text form) (form.holds · = true) := by
  intro j t h
  simp only [text] at h
  split at h
  · simp only [ofForm] at h
    split at h
    · next hform => cases h; exact hform
    · cases h
  · cases h

theorem ensures_amount : Ensures amount Uint256.Kept := by
  intro j t h
  simp only [amount] at h
  split at h
  · next kept hkept =>
      cases h
      exact ⟨j, hkept⟩
  · cases h

namespace Ensures

variable {check : Json → Check α} {P : α → Prop}

theorem items (h : Ensures check P) : Ensures (Check.items check) (∀ a ∈ ·, P a) := by
  have hfrom : ∀ (js : List Json) (i : Nat) (l : List α),
      itemsFrom check i js = .good l → ∀ a ∈ l, P a := by
    intro js
    induction js with
    | nil =>
        intro i l hl
        cases hl
        exact List.forall_mem_nil P
    | cons j rest ih =>
        intro i l hl
        obtain ⟨g, more, hg, hmore, rfl⟩ := seq_eq_good.1 hl
        obtain ⟨a, ha, rfl⟩ := map_eq_good.1 hg
        exact List.forall_mem_cons.2 ⟨h j a (within_eq_good.1 ha), ih (i + 1) more hmore⟩
  intro j l hl
  simp only [Check.items] at hl
  split at hl
  · exact hfrom _ 0 l hl
  · cases hl

theorem someItems (h : Ensures check P) :
    Ensures (Check.someItems check) fun l => l ≠ [] ∧ ∀ a ∈ l, P a := by
  intro j l hl
  simp only [Check.someItems] at hl
  split at hl
  · cases hl
  · next hsome =>
      refine ⟨?_, h.items j l hl⟩
      simp only [Check.items] at hl
      split at hl
      · next js =>
          cases js with
          | nil => exact absurd rfl hsome
          | cons first rest =>
              obtain ⟨g, more, hg, -, rfl⟩ := seq_eq_good.1 hl
              obtain ⟨a, -, rfl⟩ := map_eq_good.1 hg
              exact List.cons_ne_nil a more
      · cases hl

theorem nullable (h : Ensures check P) : Ensures (Check.nullable check) (∀ a ∈ ·, P a) := by
  intro j o ho
  simp only [Check.nullable] at ho
  split at ho
  · cases ho
    intro a ha
    cases ha
  · obtain ⟨a, ha, rfl⟩ := map_eq_good.1 ho
    intro b hb
    cases hb
    exact h j a ha

theorem required (h : Ensures check P) {fields : List (String × Json)} {wire other : String} {a : α}
    (ha : Check.required fields wire other check = .good a) : P a := by
  simp only [Check.required] at ha
  split at ha
  · exact h _ a (within_eq_good.1 ha)
  · cases ha

theorem optional (h : Ensures check P) {fields : List (String × Json)} {wire other : String}
    {default a : α} (hdefault : P default)
    (ha : Check.optional fields wire other default check = .good a) : P a := by
  simp only [Check.optional] at ha
  split at ha
  · exact h _ a (within_eq_good.1 ha)
  · cases ha
    exact hdefault

theorem record {name : String} {build : List (String × Json) → Check α}
    (h : ∀ fields a, build fields = .good a → P a) : Ensures (Check.record name build) P := by
  intro j a ha
  simp only [Check.record] at ha
  split at ha
  · exact h _ a ha
  · cases ha

end Ensures

/-! ## What is written out is let through -/

section Written

variable {check : Json → Check α} {fields : List (String × Json)} {wire other : String} {j : Json}
  {a : α}

theorem lookup_wire (h : Json.field? wire fields = some j) :
    lookup fields wire other = some (wire, j) := by
  simp only [lookup]
  rw [h]
  rfl

theorem required_eq_good (hfield : Json.field? wire fields = some j) (h : check j = .good a) :
    required fields wire other check = .good a := by
  simp only [required]
  rw [lookup_wire hfield]
  exact within_eq_good.2 h

theorem optional_eq_good {default : α} (hfield : Json.field? wire fields = some j)
    (h : check j = .good a) : optional fields wire other default check = .good a := by
  simp only [optional]
  rw [lookup_wire hfield]
  exact within_eq_good.2 h

theorem items_eq_good {toJson : α → Json} {l : List α} (h : ∀ a ∈ l, check (toJson a) = .good a) :
    items check (.arr (l.map toJson)) = .good l := by
  have hfrom : ∀ i, itemsFrom check i (l.map toJson) = .good l := by
    induction l with
    | nil => exact fun _ => rfl
    | cons a rest ih =>
        intro i
        obtain ⟨ha, hrest⟩ := List.forall_mem_cons.1 h
        refine seq_eq_good.2 ⟨_, rest, map_eq_good.2 ⟨a, within_eq_good.2 ha, rfl⟩, ?_, rfl⟩
        exact ih hrest (i + 1)
  exact hfrom 0

theorem someItems_eq_good {toJson : α → Json} {l : List α} (hne : l ≠ [])
    (h : ∀ a ∈ l, check (toJson a) = .good a) :
    someItems check (.arr (l.map toJson)) = .good l := by
  cases l with
  | nil => exact absurd rfl hne
  | cons a rest => exact items_eq_good h

theorem text_ofText {form : Form} {t : Text} (h : form.holds t = true) :
    text form (Json.ofText t) = .good t := by
  simp only [text, Json.ofText, Text.shown, String.toList_ofList, ofForm]
  rw [if_pos h]

theorem nullable_ofText? {form : Form} {o : Option Text} (h : ∀ t ∈ o, form.holds t = true) :
    nullable (text form) (Json.ofText? o) = .good o := by
  cases o with
  | none => rfl
  | some t => exact map_eq_good.2 ⟨t, text_ofText (h t rfl), rfl⟩

theorem place_int (n : Nat) : place (.int n) = .good n := by
  simp only [place, integer]
  rw [if_neg (Int.not_lt.2 (Int.natCast_nonneg n)), Int.toNat_natCast]

theorem amount_ofText {t : Text} (h : Uint256.validate (Json.ofText t) = .ok t) :
    amount (Json.ofText t) = .good t := by
  simp only [amount]
  rw [h]

end Written

end Check

open Check

structure SwapStep.Formed (s : SwapStep) : Prop where
  poolId : Form.poolId.holds s.poolId = true
  userData : Form.bytes.holds s.userData = true

instance (s : SwapStep) : Decidable s.Formed :=
  decidable_of_iff (Form.poolId.holds s.poolId = true ∧ Form.bytes.holds s.userData = true)
    ⟨fun h => ⟨h.1, h.2⟩, fun h => ⟨h.poolId, h.userData⟩⟩

structure PoolInfo.Formed (p : PoolInfo) : Prop where
  id : Form.poolId.holds p.id = true
  address : ∀ address ∈ p.address, Form.address.holds address = true
  tokens : ∀ token ∈ p.tokens, Form.address.holds token = true

instance (p : PoolInfo) : Decidable p.Formed :=
  decidable_of_iff (Form.poolId.holds p.id = true ∧
      (∀ address ∈ p.address, Form.address.holds address = true) ∧
      ∀ token ∈ p.tokens, Form.address.holds token = true)
    ⟨fun h => ⟨h.1, h.2.1, h.2.2⟩, fun h => ⟨h.id, h.address, h.tokens⟩⟩

/-- Every text of the request has its form. -/
structure RouteRequest.Formed (r : RouteRequest) : Prop where
  tokenIn : Form.address.holds r.tokenIn = true
  tokenOut : Form.address.holds r.tokenOut = true
  tokens : ∀ token ∈ r.tokens, Form.address.holds token = true
  swaps : ∀ step ∈ r.swaps, step.Formed
  user : Form.address.holds r.user = true
  authorisation : ∀ signed ∈ r.authorisation, Form.bytes.holds signed = true
  pools : ∀ pool ∈ r.pools, pool.Formed

instance (r : RouteRequest) : Decidable r.Formed :=
  decidable_of_iff (Form.address.holds r.tokenIn = true ∧ Form.address.holds r.tokenOut = true ∧
      (∀ token ∈ r.tokens, Form.address.holds token = true) ∧ (∀ step ∈ r.swaps, step.Formed) ∧
      Form.address.holds r.user = true ∧
      (∀ signed ∈ r.authorisation, Form.bytes.holds signed = true) ∧ ∀ pool ∈ r.pools, pool.Formed)
    ⟨fun ⟨hin, hout, htokens, hswaps, huser, hsigned, hpools⟩ =>
      ⟨hin, hout, htokens, hswaps, huser, hsigned, hpools⟩,
    fun h => ⟨h.tokenIn, h.tokenOut, h.tokens, h.swaps, h.user, h.authorisation, h.pools⟩⟩

theorem SwapStep.ensures_check : Ensures check fun s => s.Formed ∧ Uint256.Kept s.amount := by
  refine .record fun fields s h => ?_
  obtain ⟨_, userData, h, hdata, heq⟩ := seq_eq_good.1 h
  obtain ⟨_, amount, h, hamount, heq⟩ := seq_eq_good.1 h
  obtain ⟨_, assetOut, h, -, heq⟩ := seq_eq_good.1 h
  obtain ⟨_, assetIn, h, -, heq⟩ := seq_eq_good.1 h
  obtain ⟨poolId, hid, heq⟩ := map_eq_good.1 h
  subst_vars
  exact ⟨⟨(ensures_text .poolId).required hid,
    (ensures_text .bytes).optional (by decide) hdata⟩, ensures_amount.required hamount⟩

theorem PoolInfo.ensures_check : Ensures check fun p => p.Formed ∧ p.tokens ≠ [] := by
  refine .record fun fields p h => ?_
  obtain ⟨_, tokens, h, htokens, heq⟩ := seq_eq_good.1 h
  obtain ⟨_, address, h, haddress, heq⟩ := seq_eq_good.1 h
  obtain ⟨id, hid, heq⟩ := map_eq_good.1 h
  subst_vars
  obtain ⟨hne, hforms⟩ := (ensures_text .address).someItems.required htokens
  exact ⟨{
    id := (ensures_text .poolId).required hid
    address := (ensures_text .address).nullable.optional (fun _ ha => by cases ha) haddress
    tokens := hforms }, hne⟩

/-- The pool passed the check of pools. -/
def PoolInfo.Validated (p : PoolInfo) : Prop :=
  ∃ j, check j = .good p

theorem PoolInfo.Validated.formed {p : PoolInfo} (h : p.Validated) : p.Formed := by
  obtain ⟨j, hj⟩ := h
  exact (ensures_check j p hj).1

namespace RouteRequest

/-- The amounts of the request, at its ends and of its steps. -/
def amounts (r : RouteRequest) : List Text :=
  r.swapAmount :: r.returnAmount :: r.swaps.map (·.amount)

/-- Neither the request nor a pool in it has an empty list of tokens. -/
structure Listed (r : RouteRequest) : Prop where
  tokens : r.tokens ≠ []
  pools : ∀ pool ∈ r.pools, pool.tokens ≠ []

theorem ensures_check :
    Ensures check fun r => r.Formed ∧ r.Listed ∧ ∀ t ∈ r.amounts, Uint256.Kept t := by
  refine .record fun fields r h => ?_
  obtain ⟨_, pools, h, hpools, heq⟩ := seq_eq_good.1 h
  obtain ⟨_, swapType, h, -, heq⟩ := seq_eq_good.1 h
  obtain ⟨_, authorisation, h, hsigned, heq⟩ := seq_eq_good.1 h
  obtain ⟨_, user, h, huser, heq⟩ := seq_eq_good.1 h
  obtain ⟨_, returnAmount, h, hreturn, heq⟩ := seq_eq_good.1 h
  obtain ⟨_, swapAmount, h, hswap, heq⟩ := seq_eq_good.1 h
  obtain ⟨_, swaps, h, hswaps, heq⟩ := seq_eq_good.1 h
  obtain ⟨_, tokens, h, htokens, heq⟩ := seq_eq_good.1 h
  obtain ⟨_, tokenOut, h, hout, heq⟩ := seq_eq_good.1 h
  obtain ⟨tokenIn, hin, heq⟩ := map_eq_good.1 h
  subst_vars
  have hsteps := SwapStep.ensures_check.items.optional (List.forall_mem_nil _) hswaps
  have hinfos := PoolInfo.ensures_check.items.optional (List.forall_mem_nil _) hpools
  obtain ⟨hne, hforms⟩ := (ensures_text .address).someItems.required htokens
  refine ⟨?_, ⟨hne, fun p hp => (hinfos p hp).2⟩, ?_⟩
  · exact {
      tokenIn := (ensures_text .address).required hin
      tokenOut := (ensures_text .address).required hout
      tokens := hforms
      swaps := fun s hs => (hsteps s hs).1
      user := (ensures_text .address).required huser
      authorisation := (ensures_text .bytes).nullable.optional (fun _ ha => by cases ha) hsigned
      pools := fun p hp => (hinfos p hp).1 }
  · simp only [amounts, List.forall_mem_cons, List.forall_mem_map]
    exact ⟨ensures_amount.required hswap, ensures_amount.required hreturn,
      fun s hs => (hsteps s hs).2⟩

/-- The request passed the check of requests. -/
def Validated (r : RouteRequest) : Prop :=
  ∃ j, check j = .good r

theorem Validated.formed {r : RouteRequest} (h : r.Validated) : r.Formed := by
  obtain ⟨j, hj⟩ := h
  exact (ensures_check j r hj).1

theorem Validated.listed {r : RouteRequest} (h : r.Validated) : r.Listed := by
  obtain ⟨j, hj⟩ := h
  exact (ensures_check j r hj).2.1

theorem Validated.kept {r : RouteRequest} (h : r.Validated) : ∀ t ∈ r.amounts, Uint256.Kept t := by
  obtain ⟨j, hj⟩ := h
  exact (ensures_check j r hj).2.2

end RouteRequest

theorem SwapStep.check_toJson {s : SwapStep} (h : s.Formed)
    (hamount : Uint256.validate (Json.ofText s.amount) = .ok s.amount) :
    check s.toJson = .good s := by
  refine seq_eq_good.2 ⟨mk s.poolId s.assetIn s.assetOut s.amount, _, ?_,
    optional_eq_good rfl (text_ofText h.userData), rfl⟩
  refine seq_eq_good.2 ⟨mk s.poolId s.assetIn s.assetOut, _, ?_,
    required_eq_good rfl (amount_ofText hamount), rfl⟩
  refine seq_eq_good.2 ⟨mk s.poolId s.assetIn, _, ?_, required_eq_good rfl (place_int _), rfl⟩
  refine seq_eq_good.2 ⟨mk s.poolId, _, ?_, required_eq_good rfl (place_int _), rfl⟩
  exact map_eq_good.2 ⟨_, required_eq_good rfl (text_ofText h.poolId), rfl⟩

theorem SwapType.check_code (t : SwapType) : check (.int t.code) = .good t := by
  have hrange : -(Nat.pow 2 63 : Int) ≤ t.code ∧ t.code < Nat.pow 2 63 := by
    cases t <;> decide
  simp only [check, integer]
  rw [if_pos hrange, ofCode?_code]

theorem PoolInfo.check_toJson {p : PoolInfo} (h : p.Formed) (hne : p.tokens ≠ []) :
    check p.toJson = .good p := by
  have htokens : someItems (text .address) (.arr (p.tokens.map Json.ofText)) = .good p.tokens :=
    someItems_eq_good hne fun t ht => text_ofText (h.tokens t ht)
  refine seq_eq_good.2 ⟨mk p.id p.address, _, ?_, required_eq_good rfl htokens, rfl⟩
  refine seq_eq_good.2 ⟨mk p.id, _, ?_, optional_eq_good rfl (nullable_ofText? h.address), rfl⟩
  exact map_eq_good.2 ⟨_, required_eq_good rfl (text_ofText h.id), rfl⟩

namespace RouteRequest

theorem check_toJson {r : RouteRequest} (h : r.Formed) (htokens : r.tokens ≠ [])
    (hpools : ∀ pool ∈ r.pools, pool.tokens ≠ [])
    (hamounts : ∀ t ∈ r.amounts, Uint256.validate (Json.ofText t) = .ok t) :
    check r.toJson = .good r := by
  obtain ⟨hswapAmount, hreturnAmount, hsteps⟩ := by
    simpa only [amounts, List.forall_mem_cons, List.forall_mem_map] using hamounts
  have htokenTexts : someItems (text .address) (.arr (r.tokens.map Json.ofText)) = .good r.tokens :=
    someItems_eq_good htokens fun t ht => text_ofText (h.tokens t ht)
  have hswaps : items SwapStep.check (.arr (r.swaps.map SwapStep.toJson)) = .good r.swaps :=
    items_eq_good fun s hs => SwapStep.check_toJson (h.swaps s hs) (hsteps s hs)
  have hpoolInfos : items PoolInfo.check (.arr (r.pools.map PoolInfo.toJson)) = .good r.pools :=
    items_eq_good fun p hp => PoolInfo.check_toJson (h.pools p hp) (hpools p hp)
  let build := mk r.tokenIn r.tokenOut r.tokens r.swaps r.swapAmount r.returnAmount r.user
  refine seq_eq_good.2 ⟨build r.authorisation r.swapType, _, ?_,
    optional_eq_good rfl hpoolInfos, rfl⟩
  refine seq_eq_good.2 ⟨build r.authorisation, _, ?_,
    optional_eq_good rfl (SwapType.check_code r.swapType), rfl⟩
  refine seq_eq_good.2 ⟨build, _, ?_, optional_eq_good rfl (nullable_ofText? h.authorisation), rfl⟩
  refine seq_eq_good.2 ⟨mk r.tokenIn r.tokenOut r.tokens r.swaps r.swapAmount r.returnAmount, _, ?_,
    required_eq_good rfl (text_ofText h.user), rfl⟩
  refine seq_eq_good.2 ⟨mk r.tokenIn r.tokenOut r.tokens r.swaps r.swapAmount, _, ?_,
    required_eq_good rfl (amount_ofText hreturnAmount), rfl⟩
  refine seq_eq_good.2 ⟨mk r.tokenIn r.tokenOut r.tokens r.swaps, _, ?_,
    required_eq_good rfl (amount_ofText hswapAmount), rfl⟩
  refine seq_eq_good.2 ⟨mk r.tokenIn r.tokenOut r.tokens, _, ?_, optional_eq_good rfl hswaps, rfl⟩
  refine seq_eq_good.2 ⟨mk r.tokenIn r.tokenOut, _, ?_, required_eq_good rfl htokenTexts, rfl⟩
  refine seq_eq_good.2 ⟨mk r.tokenIn, _, ?_, required_eq_good rfl (text_ofText h.tokenOut), rfl⟩
  exact map_eq_good.2 ⟨_, required_eq_good rfl (text_ofText h.tokenIn), rfl⟩

theorem validated_of_formed {r : RouteRequest} (h : r.Formed) (htokens : r.tokens ≠ [])
    (hpools : ∀ pool ∈ r.pools, pool.tokens ≠ [])
    (hamounts : ∀ t ∈ r.amounts, Uint256.validate (Json.ofText t) = .ok t) : r.Validated :=
  ⟨r.toJson, check_toJson h htokens hpools hamounts⟩

end RouteRequest

end SwapRelay
