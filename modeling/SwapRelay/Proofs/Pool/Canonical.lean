import SwapRelay.Proofs.Address.Number
import SwapRelay.Proofs.Pool.Order

/-!
# The canonical order of a pool's tokens

The tokens of a pool are put in the order of the numbers that their bytes write, the native asset
taking the number of its wrapped token, and each is written in small letters. As the number is read
off the small letters as well, the result is the sort of the tokens in small letters
(`sortTokens_eq`), and what is known of a stable sort carries over: what it holds, how it is
ordered, what becomes of equal numbers and of a list that is sorted already. Where the numbers
differ, neither the order nor the spelling of the tokens matters.
-/

namespace SwapRelay.Pool

/-- The number that the bytes of a token write, where the native asset counts as its wrapped
token. -/
def rank? (wrappedNative token : Text) : Option Nat :=
  let shown := if Address.same token Address.native then wrappedNative else token
  (Address.bytes shown).toOption.map Abi.ofBigEndian

/-- The list holds the tokens in small letters, by ascending numbers, those of one number in the
order in which they came. Sorting leaves it as it is, and if no two of the tokens have the same
place, it is what every rearrangement of them is sorted to, in whatever case. -/
structure Canonical (wrappedNative : Text) (tokens sorted : List Text) : Prop where
  perm : sorted.Perm (tokens.map Text.lower)
  ascending : sorted.Pairwise fun t u =>
    ∃ m n, rank? wrappedNative t = some m ∧ rank? wrappedNative u = some n ∧ m ≤ n
  stable : ∀ n : Nat, sorted.filter (rank? wrappedNative · = some n) =
    (tokens.map Text.lower).filter (rank? wrappedNative · = some n)
  again : sortTokens wrappedNative sorted = .ok sorted
  unique : Distinct wrappedNative tokens → ∀ wrapped moved others,
    Address.same wrappedNative wrapped = true → tokens.Perm moved →
      List.Forall₂ (fun t u => Address.same t u = true) moved others →
        sortTokens wrapped others = .ok sorted

variable {wrappedNative : Text}

/-! ## The number of a token -/

theorem exists_rank (hwrapped : Form.address.holds wrappedNative = true) {t : Text}
    (h : Form.address.holds t = true) :
    ∃ n : Nat, rank? wrappedNative t = some n ∧ sortKey wrappedNative t = .ok (n : Int) := by
  have hread : ∀ {shown : Text}, Form.address.holds shown = true →
      ∃ n : Nat, (Address.bytes shown).toOption.map Abi.ofBigEndian = some n ∧
        Numeral.readHex (Address.normalize shown) = some (n : Int) := by
    intro shown hshown
    obtain ⟨bs, hbytes, -, -⟩ := Address.exists_bytes hshown
    exact ⟨Abi.ofBigEndian bs, by rw [hbytes]; rfl, Address.readHex_eq hshown hbytes⟩
  simp only [rank?, sortKey]
  split
  · obtain ⟨n, hn, hkey⟩ := hread hwrapped
    exact ⟨n, hn, by rw [hkey]⟩
  · obtain ⟨n, hn, hkey⟩ := hread h
    exact ⟨n, hn, by rw [hkey]⟩

/-- Case matters neither for a token nor for the wrapped one. -/
theorem sortKey_of_same {wrapped t u : Text} (hwrapped : Address.same wrappedNative wrapped = true)
    (h : Address.same t u = true) : sortKey wrapped u = sortKey wrappedNative t := by
  simp only [sortKey]
  rw [← Address.same_congr h (Address.same_refl Address.native)]
  by_cases hnative : Address.same t Address.native = true
  · rw [if_pos hnative, if_pos hnative, Address.normalize_eq_of_same hwrapped]
  · rw [if_neg hnative, if_neg hnative, Address.normalize_eq_of_same h]

/-- The number of a token, or zero where there is none. -/
def rank (wrappedNative token : Text) : Int :=
  ((rank? wrappedNative token).getD 0 : Nat)

theorem sortKey_eq_rank (hwrapped : Form.address.holds wrappedNative = true) {t : Text}
    (h : Form.address.holds t = true) : sortKey wrappedNative t = .ok (rank wrappedNative t) := by
  obtain ⟨n, hn, hkey⟩ := exists_rank hwrapped h
  rw [hkey, rank, hn]
  rfl

theorem rank?_eq_iff (hwrapped : Form.address.holds wrappedNative = true) {t : Text}
    (h : Form.address.holds t = true) (n : Nat) :
    rank? wrappedNative t = some n ↔ rank wrappedNative t = n := by
  obtain ⟨m, hm, -⟩ := exists_rank hwrapped h
  rw [rank, hm, Option.getD_some, Option.some.injEq, Int.natCast_inj]

/-! ## The sort as one of small letters -/

/-- The tokens in small letters, by their numbers. -/
def ordered (wrappedNative : Text) (tokens : List Text) : List Text :=
  Sorting.sort (fun t u => decide (rank wrappedNative t ≤ rank wrappedNative u))
    (tokens.map Text.lower)

theorem ordered_perm (wrappedNative : Text) (tokens : List Text) :
    (ordered wrappedNative tokens).Perm (tokens.map Text.lower) :=
  Sorting.sort_perm _ _

/-- Where the keys are those of the normal forms, it is the normal forms that are sorted. -/
theorem sortTokens_of_key {key : Text → Int} {tokens : List Text}
    (h : ∀ t ∈ tokens, sortKey wrappedNative t = .ok (key (Address.normalize t))) :
    sortTokens wrappedNative tokens =
      .ok (Sorting.sort (fun t u => decide (key t ≤ key u)) (tokens.map Address.normalize)) := by
  have hkeyed : (tokens.mapM fun token => (sortKey wrappedNative token).map (·, token)) =
      .ok (tokens.map fun t => (key (Address.normalize t), t)) := by
    rw [List.mapM_eq_ok, List.forall₂_map_right_iff, List.forall₂_same]
    intro t ht
    rw [h t ht]
    rfl
  rw [sortTokens, Except.bind_of_eq_ok hkeyed, Sorting.sort_map, Sorting.sort_map, List.map_map]
  rfl

section Addresses

variable (hwrapped : Form.address.holds wrappedNative = true) {tokens : List Text}
  (htokens : ∀ t ∈ tokens, Form.address.holds t = true)

include hwrapped htokens

theorem sortTokens_eq_of_same {wrapped : Text} {others : List Text}
    (hsame : Address.same wrappedNative wrapped = true)
    (hothers : List.Forall₂ (fun t u => Address.same t u = true) tokens others) :
    sortTokens wrapped others = .ok (ordered wrappedNative tokens) := by
  have hnormal : others.map Address.normalize = tokens.map Text.lower := by
    refine (List.Forall₂.map_eq_map ?_).symm
    refine hothers.imp_of_mem fun t ht u _ hspelled => ?_
    rw [← Address.normalize_eq_of_same hspelled, Form.normalize_eq (htokens t ht)]
  rw [ordered, ← hnormal]
  apply sortTokens_of_key
  intro u hu
  obtain ⟨t, ht, hspelled⟩ := hothers.flip.exists_of_mem hu
  rw [sortKey_of_same hsame hspelled, ← Address.normalize_eq_of_same hspelled,
    ← sortKey_eq_rank hwrapped (Form.holds_normalize (htokens t ht)),
    sortKey_normalize (htokens t ht)]

theorem sortTokens_eq : sortTokens wrappedNative tokens = .ok (ordered wrappedNative tokens) :=
  sortTokens_eq_of_same hwrapped htokens (Address.same_refl _)
    (List.forall₂_same.2 fun t _ => Address.same_refl t)

/-- The tokens of a pool are put in order, each in normal form. -/
theorem exists_sortTokens :
    ∃ sorted, sortTokens wrappedNative tokens = .ok sorted ∧
      sorted.Perm (tokens.map Address.normalize) := by
  rw [List.map_congr_left fun t ht => Form.normalize_eq (htokens t ht)]
  exact ⟨_, sortTokens_eq hwrapped htokens, ordered_perm wrappedNative tokens⟩

omit hwrapped in
theorem lower_of_mem_ordered {t : Text} (ht : t ∈ ordered wrappedNative tokens) :
    Form.address.holds t = true ∧ Text.lower t = t := by
  obtain ⟨u, hu, rfl⟩ := List.mem_map.1 ((ordered_perm wrappedNative tokens).mem_iff.1 ht)
  exact ⟨Form.holds_lower (htokens u hu), Hex.lower_lower (Form.isMarked_of_holds (htokens u hu))⟩

theorem ascending_ordered :
    (ordered wrappedNative tokens).Pairwise fun t u =>
      ∃ m n, rank? wrappedNative t = some m ∧ rank? wrappedNative u = some n ∧ m ≤ n := by
  have hsorted := Sorting.pairwise_sort (rank wrappedNative) (tokens.map Text.lower)
  refine hsorted.imp_of_mem fun {t u} ht hu hle => ?_
  obtain ⟨m, hm, -⟩ := exists_rank hwrapped (lower_of_mem_ordered htokens ht).1
  obtain ⟨n, hn, -⟩ := exists_rank hwrapped (lower_of_mem_ordered htokens hu).1
  rw [rank, rank, hm, hn] at hle
  exact ⟨m, n, hm, hn, Int.ofNat_le.1 hle⟩

theorem stable_ordered (n : Nat) :
    (ordered wrappedNative tokens).filter (rank? wrappedNative · = some n) =
      (tokens.map Text.lower).filter (rank? wrappedNative · = some n) := by
  have hrank : ∀ {l : List Text}, l.Perm (tokens.map Text.lower) →
      l.filter (rank? wrappedNative · = some n) = l.filter (rank wrappedNative · = n) := by
    intro l hperm
    refine List.filter_congr fun t ht => decide_eq_decide.2 ?_
    obtain ⟨u, hu, rfl⟩ := List.mem_map.1 (hperm.mem_iff.1 ht)
    exact rank?_eq_iff hwrapped (Form.holds_lower (htokens u hu)) n
  rw [hrank (ordered_perm wrappedNative tokens), hrank (.refl _)]
  exact Sorting.filter_sort (rank wrappedNative) _ n

omit hwrapped in
/-- What is in small letters and in order stays as it is. -/
theorem ordered_ordered :
    ordered wrappedNative (ordered wrappedNative tokens) = ordered wrappedNative tokens := by
  have hsmall : (ordered wrappedNative tokens).map Text.lower = ordered wrappedNative tokens :=
    (List.map_congr_left fun t ht => (lower_of_mem_ordered htokens ht).2).trans (List.map_id _)
  rw [ordered, hsmall]
  exact Sorting.sort_eq_self (Sorting.pairwise_sort (rank wrappedNative) _)

/-- Addresses are put in the canonical order. -/
theorem sortTokens_canonical :
    ∃ sorted, sortTokens wrappedNative tokens = .ok sorted ∧
      Canonical wrappedNative tokens sorted := by
  refine ⟨_, sortTokens_eq hwrapped htokens, ?_⟩
  constructor
  case perm => exact ordered_perm wrappedNative tokens
  case ascending => exact ascending_ordered hwrapped htokens
  case stable => exact stable_ordered hwrapped htokens
  case again =>
    have hforms : ∀ t ∈ ordered wrappedNative tokens, Form.address.holds t = true :=
      fun t ht => (lower_of_mem_ordered htokens ht).1
    rw [sortTokens_eq hwrapped hforms, ordered_ordered htokens]
  case unique =>
    intro hdistinct wrapped moved others hsame hmoved hothers
    have hforms : ∀ t ∈ moved, Form.address.holds t = true :=
      fun t ht => htokens t (hmoved.mem_iff.2 ht)
    rw [sortTokens_eq_of_same hwrapped hforms hsame hothers, ← sortTokens_eq hwrapped hforms,
      ← sortTokens_eq_of_perm hmoved hdistinct]
    exact sortTokens_eq hwrapped htokens

end Addresses

/-- Three tokens, and the wrapped token as well or not. -/
def spelledTokens (tied : Bool) : List Text :=
  let address (digit : Char) : Text := '0' :: 'x' :: List.replicate 40 digit
  let wrapped := if tied then [Config.standard.wrappedNative] else []
  address 'D' :: (wrapped ++ [Address.native, address '1'])

/-- The wrapped token and the native asset keep their order among each other. Where only one of them
is there, the tokens may come in any order. -/
theorem sortTokens_canonical_spelledTokens :
    let wrapped := Config.standard.wrappedNative
    let address (digit : Char) : Text := '0' :: 'x' :: List.replicate 40 digit
    Form.address.holds wrapped = true ∧
      (∀ t ∈ spelledTokens true, Form.address.holds t = true) ∧
      (∃ sorted, sortTokens wrapped (spelledTokens true) = .ok sorted ∧
        sorted = [address '1', wrapped, Address.native, address 'd'] ∧
        Canonical wrapped (spelledTokens true) sorted) ∧
      (∀ t ∈ spelledTokens false, Form.address.holds t = true) ∧
      Distinct wrapped (spelledTokens false) ∧
      ∃ sorted, sortTokens wrapped (spelledTokens false) = .ok sorted ∧
        sortTokens wrapped [Address.native, address '1', address 'd'] = .ok sorted := by
  have hwrapped : Form.address.holds Config.standard.wrappedNative = true := by decide
  have htied : ∀ t ∈ spelledTokens true, Form.address.holds t = true := by decide
  have hapart : ∀ t ∈ spelledTokens false, Form.address.holds t = true := by decide
  have hdistinct : Distinct Config.standard.wrappedNative (spelledTokens false) := by
    decide +kernel
  refine ⟨hwrapped, htied, ?_, hapart, hdistinct, ?_⟩
  · obtain ⟨sorted, h, hcanonical⟩ := sortTokens_canonical hwrapped htied
    obtain ⟨found, hfound, htest⟩ := Except.exists_of_any
      (x := sortTokens Config.standard.wrappedNative (spelledTokens true))
      (· == ['0' :: 'x' :: List.replicate 40 '1', Config.standard.wrappedNative, Address.native,
          '0' :: 'x' :: List.replicate 40 'd']) (by decide +kernel)
    cases h.symm.trans hfound
    exact ⟨sorted, h, eq_of_beq htest, hcanonical⟩
  · obtain ⟨sorted, h, hcanonical⟩ := sortTokens_canonical hwrapped hapart
    let last : Text := '0' :: 'x' :: List.replicate 40 'D'
    exact ⟨sorted, h, hcanonical.unique hdistinct _ ((spelledTokens false).tail ++ [last]) _
      (Address.same_refl _) (@List.perm_append_comm _ [last] _)
      (.cons (by decide) (.cons (by decide) (.cons (by decide) .nil)))⟩

end SwapRelay.Pool
