import SwapRelay.Proofs.Outcome
import SwapRelay.Route

/-!
# Amounts that were let through

An amount is checked when it comes in and read when it is needed, and in between it is a text. What
is kept of an integer, or of a text that can be read as one, is read back later on as a number that
fits a word. What is kept of a truth value is its name, which is no number. Nothing else is let
through, so `Kept.endsIn_readInteger` leaves one reason for which an amount that passed its check
cannot be read.
-/

namespace SwapRelay

namespace Numeral

/-- A digit of ASCII is a decimal digit, and stands for nothing else in a number. -/
theorem digit?_of_decimal {c : Char} (h : c.isDigit = true) :
    digit? 10 c = some (c.toNat - '0'.toNat) ∧ Text.isBlank c = false ∧ c ≠ '_' ∧ c ≠ '+' ∧
      c ≠ '-' := by
  have hsmall : c.toNat < 0x80 := by
    have hrange : c.toNat ≤ '9'.toNat := by
      simp only [Char.isDigit, Bool.and_eq_true, decide_eq_true_eq] at h
      exact h.2
    exact Nat.lt_of_le_of_lt hrange (by decide)
  exact Text.forall_ascii (P := fun c => c.isDigit = true →
    digit? 10 c = some (c.toNat - '0'.toNat) ∧ Text.isBlank c = false ∧ c ≠ '_' ∧ c ≠ '+' ∧
      c ≠ '-') (by decide) hsmall h

theorem digits?_of_decimal {cs : List Char} (h : ∀ c ∈ cs, c.isDigit = true) (hne : cs ≠ []) :
    digits? 10 cs = some (cs.map fun c => c.toNat - '0'.toNat) := by
  induction cs with
  | nil => exact absurd rfl hne
  | cons c rest ih =>
      obtain ⟨hc, hrest⟩ := List.forall_mem_cons.1 h
      have hdigit := (digit?_of_decimal hc).1
      cases rest with
      | nil => simp [digits?, hdigit]
      | cons d more =>
          have hd := (digit?_of_decimal (hrest d (List.mem_cons_self ..))).2.2.1
          exact digits?_cons hd hdigit (ih hrest (List.cons_ne_nil d more))

/-- A number in decimal digits is read back. -/
theorem readDecimal_toDigits {n : Nat} (hlength : (Nat.toDigits 10 n).length ≤ maxDecimalDigits) :
    readDecimal (Nat.toDigits 10 n) = some (n : Int) := by
  have hdigits : ∀ c ∈ Nat.toDigits 10 n, c.isDigit = true := fun c hc =>
    Nat.isDigit_of_mem_toDigits (by decide) (by decide) hc
  have hvalue : ofDigits 10 ((Nat.toDigits 10 n).map fun c => c.toNat - '0'.toNat) = n := by
    have hback := @Nat.ofDigitChars_toDigits 10 n (by decide) (by decide)
    rw [ofDigits, List.foldl_map]
    simpa only [Nat.ofDigitChars, Nat.mul_comm] using hback
  have hmagnitude : decimalMagnitude? (Nat.toDigits 10 n) = some n := by
    rw [decimalMagnitude?, digits?_of_decimal hdigits Nat.toDigits_ne_nil, Option.filter_some,
      List.length_map, if_pos (decide_eq_true hlength), Option.map_some, hvalue]
  rw [readDecimal, Text.trim_eq_self fun c hc => (digit?_of_decimal (hdigits c hc)).2.1, signed?,
    hmagnitude]
  · rfl
  -- No digit is a sign, so neither of the signed readings applies.
  · intro rest hplus
    have hmem : '+' ∈ Nat.toDigits 10 n := hplus ▸ List.mem_cons_self ..
    exact (digit?_of_decimal (hdigits _ hmem)).2.2.2.1 rfl
  · intro rest hminus
    have hmem : '-' ∈ Nat.toDigits 10 n := hminus ▸ List.mem_cons_self ..
    exact (digit?_of_decimal (hdigits _ hmem)).2.2.2.2 rfl

end Numeral

namespace Uint256

/-- The number fits a word. -/
def Fits (n : Int) : Prop :=
  0 ≤ n ∧ n < Nat.pow 2 256

theorem fits_natCast {n : Nat} (h : n < Nat.pow 2 64) : Fits n := by
  have hspan : Nat.pow 2 64 ≤ Nat.pow 2 256 := by decide
  constructor <;> omega

theorem fits_zero : Fits 0 := by
  constructor <;> decide

theorem lt_iff_le_max {n : Int} : n < Nat.pow 2 256 ↔ n ≤ max := by
  rw [max]
  omega

theorem inRange_eq_ok {n : Int} {shown t : Text} (h : inRange n shown = .ok t) :
    Fits n ∧ shown = t := by
  simp only [inRange] at h
  split at h
  · cases h
  · split at h
    · cases h
    · cases h
      refine ⟨⟨by omega, ?_⟩, rfl⟩
      rw [lt_iff_le_max]
      omega

/-- The text is kept of some value that was let through. -/
def Kept (t : Text) : Prop :=
  ∃ j, validate j = .ok t

/-- The text is the name of a truth value, which passes for an integer. -/
def IsTruth (t : Text) : Prop :=
  t = "True".toList ∨ t = "False".toList

theorem IsTruth.readInteger_eq {t : Text} (h : IsTruth t) : readInteger t = .error .unreadable := by
  rcases h with rfl | rfl <;> rfl

theorem not_isTruth_of_ok {t : Text} {n : Int} (h : readInteger t = .ok n) : ¬ IsTruth t := by
  intro htruth
  cases h.symm.trans htruth.readInteger_eq

theorem readInteger_of_some {t : Text} {n : Int} (h : Numeral.readDecimal t = some n) :
    readInteger t = .ok n := by
  rw [readInteger, h]

/-- An amount is read back from its decimal digits. -/
theorem Fits.readDecimal {n : Int} (h : Fits n) :
    Numeral.readDecimal (toString n).toList = some n := by
  obtain ⟨k, rfl⟩ := Int.eq_ofNat_of_zero_le h.1
  have hwritten : (toString (k : Int)).toList = Nat.toDigits 10 k := Nat.toList_repr
  have hsize : (Nat.pow 2 256 : Nat) < 10 ^ Numeral.maxDecimalDigits := by decide +kernel
  have hlength : (Nat.toDigits 10 k).length ≤ Numeral.maxDecimalDigits :=
    (Nat.length_toDigits_le_iff (by decide) (by decide)).2
      (Nat.lt_trans (Int.ofNat_lt.1 h.2) hsize)
  rw [hwritten]
  exact Numeral.readDecimal_toDigits hlength

/-- What is kept of a value other than a truth value is read as a number that fits a word, and what
is kept of a number is read as that number. -/
theorem exists_readDecimal {j : Json} {t : Text} (h : validate j = .ok t)
    (hbool : ∀ b, j ≠ .bool b) :
    ∃ n, Numeral.readDecimal t = some n ∧ Fits n ∧ ∀ m, j = .int m → n = m := by
  cases j with
  | int n =>
      obtain ⟨hfits, rfl⟩ := inRange_eq_ok h
      refine ⟨n, hfits.readDecimal, hfits, ?_⟩
      rintro m hm
      cases hm
      rfl
  | bool b => exact absurd rfl (hbool b)
  | str s =>
      simp only [validate] at h
      split at h
      · next n hread =>
          obtain ⟨hfits, rfl⟩ := inRange_eq_ok h
          exact ⟨n, hread, hfits, fun m hm => by cases hm⟩
      · cases h
  | null => cases h
  | real x => cases h
  | arr items => cases h
  | obj fields => cases h

theorem isTruth_of_bool {b : Bool} {t : Text} (h : validate (.bool b) = .ok t) : IsTruth t := by
  cases b with
  | true => exact .inl (Except.ok.inj h).symm
  | false => exact .inr (Except.ok.inj h).symm

theorem Kept.endsIn_readInteger {t : Text} (h : Kept t) :
    (readInteger t).EndsIn Fits fun e => e = .unreadable ∧ IsTruth t := by
  obtain ⟨j, hj⟩ := h
  by_cases hbool : ∃ b, j = .bool b
  · obtain ⟨b, rfl⟩ := hbool
    have htruth := isTruth_of_bool hj
    exact .of_eq_error htruth.readInteger_eq ⟨rfl, htruth⟩
  · obtain ⟨n, hread, hfits, -⟩ := exists_readDecimal hj (not_exists.1 hbool)
    exact .of_eq_ok (readInteger_of_some hread) hfits

/-- A text that is read as a number that fits a word is let through as it is. -/
theorem validate_ofText {t : Text} {n : Int} (hread : Numeral.readDecimal t = some n)
    (hfits : Fits n) : validate (Json.ofText t) = .ok t := by
  have hmax : ¬ max < n := Int.not_lt.2 (lt_iff_le_max.1 hfits.2)
  simp only [validate, Json.ofText, Text.shown, String.toList_ofList, hread, inRange,
    if_neg (Int.not_lt.2 hfits.1), if_neg hmax]

end Uint256

end SwapRelay
