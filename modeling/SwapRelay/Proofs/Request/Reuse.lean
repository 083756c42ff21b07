import SwapRelay.Proofs.Request.Forms

/-!
# What was let through can be used again

An amount is let through once and read later, more than once, and a request that was let through may
be written out and sent again. Both go well for every amount that came as a number or as a text:
what is kept of it is read as a number that fits a word, and is let through again as it is. What is
kept of a truth value is its name, which is neither, and that is the only exception, for an amount
(`usable_iff`) as for a request (`reusable_iff`).
-/

namespace SwapRelay

namespace Uint256

/-- What is kept of a value can be read as a number that fits a word, the very number if the value
was one, and is let through again unchanged. -/
structure Usable (j : Json) (t : Text) : Prop where
  reads : ∃ n, readInteger t = .ok n ∧ Fits n ∧ ∀ m, j = .int m → n = m
  again : validate (Json.ofText t) = .ok t

theorem usable_iff {j : Json} {t : Text} (h : validate j = .ok t) :
    Usable j t ↔ ∀ b, j ≠ .bool b := by
  constructor
  · rintro ⟨⟨n, hread, -⟩, -⟩ b rfl
    exact not_isTruth_of_ok hread (isTruth_of_bool h)
  · intro hbool
    obtain ⟨n, hread, hfits, hsame⟩ := exists_readDecimal h hbool
    exact ⟨⟨n, readInteger_of_some hread, hfits, hsame⟩, validate_ofText hread hfits⟩

theorem Kept.again {t : Text} (h : Kept t) (htruth : ¬ IsTruth t) :
    (∃ n, readInteger t = .ok n ∧ Fits n) ∧ validate (Json.ofText t) = .ok t := by
  obtain ⟨j, hj⟩ := h
  have husable : Usable j t := (usable_iff hj).2 <| by
    rintro b rfl
    exact htruth (isTruth_of_bool hj)
  obtain ⟨n, hread, hfits, -⟩ := husable.reads
  exact ⟨⟨n, hread, hfits⟩, husable.again⟩

end Uint256

namespace RouteRequest

open Uint256 (Usable IsTruth Fits)

/-- The amounts of the request can be read, and it is let through again once it is written out. -/
structure Reusable (r : RouteRequest) : Prop where
  reads : ∀ t ∈ r.amounts, ∃ n, readInteger t = .ok n ∧ Fits n
  again : check r.toJson = .good r

theorem reusable_iff {r : RouteRequest} (h : r.Validated) :
    r.Reusable ↔ ∀ t ∈ r.amounts, ¬ IsTruth t := by
  constructor
  · intro hreusable t ht
    obtain ⟨n, hread, -⟩ := hreusable.reads t ht
    exact Uint256.not_isTruth_of_ok hread
  · intro htruth
    have hagain := fun t ht => (h.kept t ht).again (htruth t ht)
    exact ⟨fun t ht => (hagain t ht).1, check_toJson h.formed h.listed.tokens h.listed.pools
      fun t ht => (hagain t ht).2⟩

/-- What is let through can be used again, an amount unless it is a truth value and a request unless
it has such an amount. -/
theorem usable_and_reusable_iff (j : Json) :
    (∀ t, Uint256.validate j = .ok t → (Usable j t ↔ ∀ b, j ≠ .bool b)) ∧
      ∀ r, check j = .good r → (r.Reusable ↔ ∀ t ∈ r.amounts, ¬ IsTruth t) :=
  ⟨fun _ h => Uint256.usable_iff h, fun _ h => reusable_iff ⟨j, h⟩⟩

/-- One swap of a request, with its amount as it is sent. -/
def oneSwap (amount : Json) : Json :=
  let address (digit : Char) : Json := .ofText ('0' :: 'x' :: List.replicate 40 digit)
  let step : Json := .obj [("poolId", .ofText ('0' :: 'x' :: List.replicate 64 'a')),
    ("assetInIndex", .int 0), ("assetOutIndex", .int 1), ("amount", amount)]
  .obj [("tokenIn", address '1'), ("tokenOut", address '2'),
    ("tokenAddresses", .arr [address '1', address '2']), ("swaps", .arr [step]),
    ("swapAmount", .str " +1_000"), ("returnAmount", .int 990), ("user", address '7')]

def oneSwapKept (amount : Text) : RouteRequest :=
  let address (digit : Char) : Text := '0' :: 'x' :: List.replicate 40 digit
  { tokenIn := address '1'
    tokenOut := address '2'
    tokens := [address '1', address '2']
    swaps := [⟨'0' :: 'x' :: List.replicate 64 'a', 0, 1, amount, ['0', 'x']⟩]
    swapAmount := " +1_000".toList
    returnAmount := "990".toList
    user := address '7'
    authorisation := none
    swapType := .exactIn
    pools := [] }

theorem usable_and_reusable_iff_oneSwap :
    Uint256.validate (.str " +1_000") = .ok " +1_000".toList ∧
      Usable (.str " +1_000") " +1_000".toList ∧
      check (oneSwap (.int 1000)) = .good (oneSwapKept "1000".toList) ∧
      (oneSwapKept "1000".toList).Reusable := by
  have hkept : Uint256.validate (.str " +1_000") = .ok " +1_000".toList := by rfl
  have hcheck : check (oneSwap (.int 1000)) = .good (oneSwapKept "1000".toList) := by rfl
  obtain ⟨husable, -⟩ := usable_and_reusable_iff (.str " +1_000")
  obtain ⟨-, hreusable⟩ := usable_and_reusable_iff (oneSwap (.int 1000))
  refine ⟨hkept, (husable _ hkept).2 (fun b h => by cases h), hcheck, (hreusable _ hcheck).2 ?_⟩
  simp only [IsTruth]
  decide

/-- A truth value is let through, but what is kept of it cannot be read and is not let through. -/
theorem not_usable_oneSwap :
    Uint256.validate (.bool true) = .ok "True".toList ∧ ¬ Usable (.bool true) "True".toList ∧
      check (oneSwap (.bool true)) = .good (oneSwapKept "True".toList) ∧
      readInteger "True".toList = .error .unreadable ∧
      Uint256.validate (.str "True") = .error (.unreadable "True".toList) ∧
      ¬ (oneSwapKept "True".toList).Reusable := by
  have hkept : Uint256.validate (.bool true) = .ok "True".toList := by rfl
  have hcheck : check (oneSwap (.bool true)) = .good (oneSwapKept "True".toList) := by rfl
  refine ⟨hkept, fun h => (Uint256.usable_iff hkept).1 h true rfl, hcheck, rfl, rfl, ?_⟩
  intro h
  exact (reusable_iff ⟨_, hcheck⟩).1 h _ (List.mem_cons_of_mem _ (List.mem_cons_of_mem _
    (List.mem_cons_self ..))) (.inl rfl)

end RouteRequest

end SwapRelay
