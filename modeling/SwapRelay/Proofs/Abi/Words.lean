import SwapRelay.Abi.Decode
import Mathlib.Tactic.Ring

/-!
# Words

A word is as good as its number below `2 ^ 256`: `ofBigEndian_word` reads the number back. A string
of words is known word by word, so two strings of words are equal only if they have the same length
and the same numbers, which is `eq_of_flatMap_word`.
-/

namespace SwapRelay.Abi

theorem length_bigEndian (k n : Nat) : (bigEndian k n).length = k := by
  induction k with
  | zero => rfl
  | succ k ih => rw [bigEndian, List.length_cons, ih]

theorem length_word (n : Nat) : (word n).length = 32 :=
  length_bigEndian 32 n

theorem length_flatMap_word (ns : List Nat) : (ns.flatMap word).length = 32 * ns.length := by
  induction ns with
  | nil => rfl
  | cons n rest ih =>
      rw [List.flatMap_cons, List.length_append, length_word, ih, List.length_cons]
      omega

theorem foldl_bigEndian (k n front : Nat) :
    (bigEndian k n).foldl (fun n b => n * 256 + b.toNat) front = front * 256 ^ k + n % 256 ^ k := by
  induction k generalizing front with
  | zero => simp [bigEndian, Nat.mod_one]
  | succ k ih =>
      have hbyte : (UInt8.ofNat (n / 256 ^ k)).toNat = n / 256 ^ k % 256 := by simp
      rw [bigEndian, Nat.pow_eq, List.foldl_cons, ih, hbyte, Nat.mod_pow_succ, Nat.pow_succ]
      ring

theorem ofBigEndian_bigEndian (k n : Nat) : ofBigEndian (bigEndian k n) = n % 256 ^ k := by
  rw [ofBigEndian, foldl_bigEndian, Nat.zero_mul, Nat.zero_add]

theorem wordSpan_eq : 256 ^ 32 = Nat.pow 2 256 := by
  decide

theorem ofBigEndian_word (n : Nat) : ofBigEndian (word n) = n % Nat.pow 2 256 := by
  rw [word, ofBigEndian_bigEndian, wordSpan_eq]

/-- Strings of words are equal only word by word. -/
theorem eq_of_flatMap_word {ns ms : List Nat} (h : ns.flatMap word = ms.flatMap word) :
    ns.map (· % Nat.pow 2 256) = ms.map (· % Nat.pow 2 256) := by
  induction ns generalizing ms with
  | nil =>
      have hlength := congrArg List.length h
      rw [length_flatMap_word, length_flatMap_word, List.length_nil] at hlength
      rw [List.length_eq_zero_iff.1 (by omega : ms.length = 0)]
  | cons n rest ih =>
      cases ms with
      | nil =>
          have hlength := congrArg List.length h
          rw [length_flatMap_word, length_flatMap_word, List.length_cons, List.length_nil]
            at hlength
          omega
      | cons m more =>
          rw [List.flatMap_cons, List.flatMap_cons] at h
          obtain ⟨hword, hrest⟩ :=
            List.append_inj h ((length_word n).trans (length_word m).symm)
          rw [List.map_cons, List.map_cons, ih hrest, ← ofBigEndian_word, hword, ofBigEndian_word]

end SwapRelay.Abi
