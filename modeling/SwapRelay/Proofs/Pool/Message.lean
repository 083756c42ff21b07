import SwapRelay.Pool.UserData
import SwapRelay.Proofs.Abi.Checks
import SwapRelay.Proofs.Abi.Words
import SwapRelay.Proofs.Outcome

/-!
# A message to a pool is known by its bytes

A message is a string of words: its kind and the amounts, and for a list of amounts the place where
the list starts and its length as well. The first word tells a deposit of exact amounts and a
withdrawal of exact shares from the others, and the number of words tells the rest apart, whatever
the length of the lists. So `encode_injective` needs no bound on any length.
-/

namespace SwapRelay

namespace Abi

theorem heads_uints (bits offset : Nat) (ns : List Int) :
    Part.heads offset (Value.parts (ns.map (.uint bits ·))) =
      (ns.map Int.toNat).flatMap word := by
  induction ns with
  | nil => rfl
  | cons n rest ih =>
      rw [List.map_cons, Value.parts, Part.heads, List.map_cons, List.flatMap_cons, ih]
      rfl

theorem tails_uints (bits : Nat) (ns : List Int) :
    Part.tails (Value.parts (ns.map (.uint bits ·))) = [] := by
  induction ns with
  | nil => rfl
  | cons n rest ih =>
      rw [List.map_cons, Value.parts, Part.tails]
      exact ih

theorem layout_uints (bits : Nat) (ns : List Int) :
    Part.layout (Value.parts (ns.map (.uint bits ·))) = (ns.map Int.toNat).flatMap word := by
  rw [Part.layout, heads_uints, tails_uints, List.append_nil]

theorem eq_of_numbers {ns ms : List Int} (hn : ∀ n ∈ ns, 0 ≤ n ∧ n < Nat.pow 2 256)
    (hm : ∀ m ∈ ms, 0 ≤ m ∧ m < Nat.pow 2 256)
    (h : ns.map ((· % Nat.pow 2 256) ∘ Int.toNat) = ms.map ((· % Nat.pow 2 256) ∘ Int.toNat)) :
    ns = ms := by
  induction ns generalizing ms with
  | nil => exact (List.map_eq_nil_iff.1 h.symm).symm
  | cons n rest ih =>
      cases ms with
      | nil => cases h
      | cons m more =>
          rw [List.map_cons, List.map_cons, List.cons.injEq, Function.comp_apply,
            Function.comp_apply] at h
          obtain ⟨hnpos, hnlt⟩ := hn n (List.mem_cons_self ..)
          obtain ⟨hmpos, hmlt⟩ := hm m (List.mem_cons_self ..)
          rw [Nat.mod_eq_of_lt (by omega), Nat.mod_eq_of_lt (by omega)] at h
          rw [ih (fun k hk => hn k (List.mem_cons_of_mem _ hk))
            (fun k hk => hm k (List.mem_cons_of_mem _ hk)) h.2]
          congr 1
          omega

end Abi

namespace PoolUserData

open Abi (Part Value word)

/-- The amounts of a message; the place of a token is none. -/
def amounts : PoolUserData → List Int
  | .joinExactIn amounts minShares => minShares :: amounts
  | .joinExactOut shares _ => [shares]
  | .exitExactIn shares _ => [shares]
  | .exitExactOut amounts maxShares => maxShares :: amounts

/-- The numbers of a message in the order of its words. A list of amounts starts at the fourth word,
with its length. -/
def numbers : PoolUserData → List Int
  | .joinExactIn amounts minShares => 1 :: 96 :: minShares :: (amounts.length : Int) :: amounts
  | .joinExactOut shares token => [2, shares, token]
  | .exitExactIn shares token => [0, shares, token]
  | .exitExactOut amounts maxShares => 2 :: 96 :: maxShares :: (amounts.length : Int) :: amounts

/-- The numbers of a message that are written as they are. -/
def scalars : PoolUserData → List Int
  | .joinExactIn amounts minShares => minShares :: amounts
  | .joinExactOut shares token => [shares, token]
  | .exitExactIn shares token => [shares, token]
  | .exitExactOut amounts maxShares => maxShares :: amounts

theorem encode_list (kind last : Int) (amounts : List Int) :
    Abi.encodeArguments [.uint 256 kind, .array (amounts.map (.uint 256 ·)), .uint 256 last] =
      ((kind :: 96 :: last :: (amounts.length : Int) :: amounts).map Int.toNat).flatMap word := by
  rw [Abi.encodeArguments, Value.encode, Value.parts, Value.parts, Value.parts, Value.parts]
  simp only [Part.layout, Part.headsSize, Part.headSize, Part.heads, Part.tails, Value.isDynamic,
    Value.encode, Abi.heads_uints, Abi.tails_uints, Abi.length_word, Bool.false_eq_true, if_false,
    if_true, List.length_map, List.map_cons, List.flatMap_cons, List.append_nil, List.append_assoc,
    Int.toNat_natCast]
  rfl

theorem encodeArguments_arguments (m : PoolUserData) :
    Abi.encodeArguments m.arguments = (m.numbers.map Int.toNat).flatMap word := by
  cases m with
  | joinExactIn amounts minShares => exact encode_list 1 minShares amounts
  | joinExactOut shares token => exact Abi.layout_uints 256 [2, shares, token]
  | exitExactIn shares token => exact Abi.layout_uints 256 [0, shares, token]
  | exitExactOut amounts maxShares => exact encode_list 2 maxShares amounts

theorem encode_eq_ok_iff {m : PoolUserData} {bs : Bytes} :
    m.encode = .ok bs ↔
      Value.checkAll m.arguments = .ok () ∧ bs = Abi.encodeArguments m.arguments := by
  rw [encode, Except.mapError_eq_ok, Abi.write]
  cases Value.checkAll m.arguments with
  | ok _ => simp [eq_comm]
  | error e => simp

theorem encode_eq_ok {m : PoolUserData} {bs : Bytes} (h : m.encode = .ok bs) :
    (∀ n ∈ m.scalars, 0 ≤ n ∧ n < Nat.pow 2 256) ∧
      bs = (m.numbers.map Int.toNat).flatMap word := by
  obtain ⟨hcheck, rfl⟩ := encode_eq_ok_iff.1 h
  refine ⟨?_, encodeArguments_arguments m⟩
  cases m <;>
    simp only [arguments, Abi.checkAll_cons, Abi.check_uint, Abi.check_array,
      Abi.checkAll_uints] at hcheck <;> simp only [scalars, List.forall_mem_cons]
  case joinExactIn => exact ⟨hcheck.2.2.1, hcheck.2.1⟩
  case joinExactOut => exact ⟨hcheck.2.1, hcheck.2.2.1, List.forall_mem_nil _⟩
  case exitExactIn => exact ⟨hcheck.2.1, hcheck.2.2.1, List.forall_mem_nil _⟩
  case exitExactOut => exact ⟨hcheck.2.2.1, hcheck.2.1⟩

/-- Two messages with the same bytes are the same. -/
theorem encode_injective {m m' : PoolUserData} {bs : Bytes} (h : m.encode = .ok bs)
    (h' : m'.encode = .ok bs) : m = m' := by
  obtain ⟨hscalars, hbs⟩ := encode_eq_ok h
  obtain ⟨hscalars', hbs'⟩ := encode_eq_ok h'
  have hwords := Abi.eq_of_flatMap_word (hbs.symm.trans hbs')
  have hlength := congrArg List.length hwords
  rw [List.map_map, List.map_map] at hwords
  -- The first word and the number of words leave only pairs of one constructor.
  cases m <;> cases m' <;>
    simp only [numbers, List.map_cons, List.map_nil, List.cons.injEq, List.length_cons,
      List.length_map, List.length_nil] at hwords hlength
  all_goals try (revert hwords; simp; done)
  case joinExactIn.joinExactIn =>
    obtain ⟨-, -, hshares, -, hamounts⟩ := hwords
    obtain ⟨rfl, rfl⟩ := List.cons.inj
      (Abi.eq_of_numbers hscalars hscalars' (congrArg₂ List.cons hshares hamounts))
    rfl
  case joinExactOut.joinExactOut =>
    obtain ⟨-, hshares, htoken, -⟩ := hwords
    obtain ⟨rfl, htoken⟩ := List.cons.inj
      (Abi.eq_of_numbers hscalars hscalars'
        (congrArg₂ List.cons hshares (congrArg (· :: []) htoken)))
    obtain ⟨rfl, -⟩ := List.cons.inj htoken
    rfl
  case exitExactIn.exitExactIn =>
    obtain ⟨-, hshares, htoken, -⟩ := hwords
    obtain ⟨rfl, htoken⟩ := List.cons.inj
      (Abi.eq_of_numbers hscalars hscalars'
        (congrArg₂ List.cons hshares (congrArg (· :: []) htoken)))
    obtain ⟨rfl, -⟩ := List.cons.inj htoken
    rfl
  case exitExactOut.exitExactOut =>
    obtain ⟨-, -, hshares, -, hamounts⟩ := hwords
    obtain ⟨rfl, rfl⟩ := List.cons.inj
      (Abi.eq_of_numbers hscalars hscalars' (congrArg₂ List.cons hshares hamounts))
    rfl

end PoolUserData

end SwapRelay
