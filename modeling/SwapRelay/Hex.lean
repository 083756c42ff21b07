import SwapRelay.Text

/-!
# Bytes as hexadecimal text

Two digits a byte, the high half first. Writing uses small letters. Reading takes letters of either
case and skips ASCII blanks between bytes, never inside one. What was written reads back:
`decode_encode`.
-/

namespace SwapRelay

abbrev Bytes := List UInt8

namespace Hex

def digitValue? (c : Char) : Option Nat :=
  if '0' ≤ c ∧ c ≤ '9' then some (c.toNat - '0'.toNat)
  else if 'a' ≤ c ∧ c ≤ 'f' then some (c.toNat - 'a'.toNat + 10)
  else if 'A' ≤ c ∧ c ≤ 'F' then some (c.toNat - 'A'.toNat + 10)
  else none

def isDigit (c : Char) : Bool :=
  (digitValue? c).isSome

def decode : Text → Option Bytes
  | [] => some []
  | [c] => if Text.isAsciiBlank c then some [] else none
  | c :: d :: rest =>
    if Text.isAsciiBlank c then decode (d :: rest)
    else match digitValue? c, digitValue? d with
      | some high, some low => (decode rest).map (UInt8.ofNat (16 * high + low) :: ·)
      | _, _ => none

def digit (n : Nat) : Char :=
  Nat.digitChar n

def pair (b : UInt8) : List Char :=
  [digit (b.toNat / 16), digit (b.toNat % 16)]

def encode (bytes : Bytes) : Text :=
  bytes.flatMap pair

def marked (bytes : Bytes) : Text :=
  '0' :: 'x' :: encode bytes

/-- The text is `0x` and then hexadecimal digits only. -/
def isMarked : Text → Bool
  | '0' :: 'x' :: digits => digits.all isDigit
  | _ => false

/-- The text is `0x` and then exactly `n` hexadecimal digits. -/
def isMarkedOf (n : Nat) (text : Text) : Bool :=
  isMarked text && text.length == n + 2

/-- Reads the bytes of a text that may carry the mark `0x`. -/
def read : Text → Option Bytes
  | '0' :: 'x' :: digits => decode digits
  | digits => decode digits

example : decode "0a Ff\t".toList = some [10, 255] ∧ decode "0 a".toList = none ∧
    decode "abc".toList = none := by decide
example : (marked [0, 171]).shown = "0x00ab" ∧ read "0X00".toList = none ∧
    read "00".toList = some [0] := by decide

/-- A written digit has its value and is no blank. -/
theorem digitValue?_digit {n : Nat} (h : n < 16) :
    digitValue? (digit n) = some n ∧ Text.isAsciiBlank (digit n) = false := by
  have : ∀ m : Fin 16,
      digitValue? (digit m) = some m.val ∧ Text.isAsciiBlank (digit m) = false := by decide
  exact this ⟨n, h⟩

theorem decode_encode (bytes : Bytes) : decode (encode bytes) = some bytes := by
  induction bytes with
  | nil => rfl
  | cons b rest ih =>
    have hb : b.toNat < 256 := b.toNat_lt
    obtain ⟨hh, hgap⟩ := digitValue?_digit (n := b.toNat / 16) (by omega)
    have hl := (digitValue?_digit (n := b.toNat % 16) (by omega)).1
    have step : decode (encode (b :: rest)) =
        (decode (encode rest)).map (UInt8.ofNat (16 * (b.toNat / 16) + b.toNat % 16) :: ·) := by
      simp only [encode, List.flatMap_cons, pair, List.cons_append, List.nil_append, decode, hgap,
        hh, hl, Bool.false_eq_true, if_false]
    rw [step, ih, Nat.div_add_mod]
    simp

end Hex

end SwapRelay
