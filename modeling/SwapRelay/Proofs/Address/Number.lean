import SwapRelay.Abi.Decode
import SwapRelay.Proofs.Address.Bytes

/-!
# The number of an address

An address is compared as a number and written as bytes, and both are read off the same text: the
number digit by digit in base sixteen, the bytes pair by pair. The two agree, the number being the
one that the bytes write (`Address.readHex_eq`), so addresses in order of their numbers are in order
of their bytes (`Abi.ofBigEndian_lt_iff`).
-/

namespace SwapRelay

namespace Abi

/-! ## The order of bytes -/

/-- Bytes that are read on after two numbers decide between these only where they are equal. -/
theorem foldl_lt_foldl_iff {as bs : Bytes} (hlength : as.length = bs.length) (m n : Nat) :
    as.foldl (fun n b => n * 256 + b.toNat) m < bs.foldl (fun n b => n * 256 + b.toNat) n ↔
      m < n ∨ m = n ∧ List.Lex (·.toNat < ·.toNat) as bs := by
  -- With both numbers free, one byte is moved to the front at a time and its bound is all it needs.
  induction as generalizing bs m n with
  | nil =>
      obtain rfl := List.eq_nil_of_length_eq_zero hlength.symm
      simp
  | cons a more ih =>
      obtain ⟨b, rest, rfl⟩ := List.exists_cons_of_length_eq_add_one hlength.symm
      have ha : a.toNat < 256 := a.toNat_lt
      have hb : b.toNat < 256 := b.toNat_lt
      have hlt : m * 256 + a.toNat < n * 256 + b.toNat ↔ m < n ∨ m = n ∧ a.toNat < b.toNat := by
        omega
      have heq : m * 256 + a.toNat = n * 256 + b.toNat ↔ m = n ∧ a.toNat = b.toNat := by
        omega
      rw [List.foldl_cons, List.foldl_cons, ih (Nat.succ.inj hlength), List.cons_lex_cons_iff,
        ← UInt8.toNat_inj, hlt, heq, and_or_left, or_assoc, and_assoc]

/-- Bytes of one length write numbers in their own order, the first byte counting most. -/
theorem ofBigEndian_lt_iff {as bs : Bytes} (hlength : as.length = bs.length) :
    ofBigEndian as < ofBigEndian bs ↔ List.Lex (·.toNat < ·.toNat) as bs := by
  rw [ofBigEndian, ofBigEndian, foldl_lt_foldl_iff hlength]
  simp

end Abi

namespace Numeral

/-! ## Digits -/

/-- The values of the two digits of a byte. -/
def halves (b : UInt8) : List Nat :=
  [b.toNat / 16, b.toNat % 16]

theorem digit?_digit {n : Nat} (h : n < 16) :
    digit? 16 (Hex.digit n) = some n ∧ Hex.digit n ≠ '_' := by
  have hall : ∀ m : Fin 16, digit? 16 (Hex.digit m) = some m.val ∧ Hex.digit m ≠ '_' := by decide
  exact hall ⟨n, h⟩

theorem digits?_encode (b : UInt8) (rest : Bytes) :
    digits? 16 (Hex.encode (b :: rest)) = some ((b :: rest).flatMap halves) := by
  induction rest generalizing b with
  | nil =>
      have hb : b.toNat < 256 := b.toNat_lt
      obtain ⟨hhigh, -⟩ := digit?_digit (n := b.toNat / 16) (by omega)
      obtain ⟨hlow, hline⟩ := digit?_digit (n := b.toNat % 16) (by omega)
      have hlast : digits? 16 [Hex.digit (b.toNat % 16)] = some [b.toNat % 16] := by
        rw [digits?, hlow]
        rfl
      exact digits?_cons hline hhigh hlast
  | cons c more ih =>
      have hb : b.toNat < 256 := b.toNat_lt
      have hc : c.toNat < 256 := c.toNat_lt
      obtain ⟨hhigh, -⟩ := digit?_digit (n := b.toNat / 16) (by omega)
      obtain ⟨hlow, hline⟩ := digit?_digit (n := b.toNat % 16) (by omega)
      obtain ⟨-, hnext⟩ := digit?_digit (n := c.toNat / 16) (by omega)
      have hmore := ih c
      rw [Hex.encode_cons] at hmore ⊢
      exact digits?_cons hline hhigh (digits?_cons hnext hlow hmore)

/-- Two digits of base sixteen count as much as one byte. -/
theorem foldl_halves (bs : Bytes) (front : Nat) :
    (bs.flatMap halves).foldl (fun n d => n * 16 + d) front =
      bs.foldl (fun n b => n * 256 + b.toNat) front := by
  induction bs generalizing front with
  | nil => rfl
  | cons b rest ih =>
      have hbyte : (front * 16 + b.toNat / 16) * 16 + b.toNat % 16 = front * 256 + b.toNat := by
        omega
      rw [List.flatMap_cons, List.foldl_append, ih, List.foldl_cons, ← hbyte]
      rfl

/-- Bytes in hexadecimal are read as the number that the bytes write. -/
theorem readHex_marked {bs : Bytes} (hne : bs ≠ []) :
    readHex (Hex.marked bs) = some (Abi.ofBigEndian bs : Int) := by
  obtain ⟨b, rest, rfl⟩ := List.exists_cons_of_ne_nil hne
  have hdigits : (Hex.encode (b :: rest)).all Hex.isDigit = true := Hex.isMarked_marked (b :: rest)
  have hsome : Hex.encode (b :: rest) ≠ [] := by
    rw [Hex.encode_cons]
    exact List.cons_ne_nil _ _
  rw [Hex.marked, readHex_of_digits hdigits hsome, digits?_encode, Option.map_some, ofDigits,
    foldl_halves]
  rfl

/-! ## Small letters -/

theorem digit?_toLower {c : Char} (h : Hex.isDigit c = true) :
    digit? 16 c.toLower = digit? 16 c :=
  Hex.forall_isDigit (P := fun c => digit? 16 c.toLower = digit? 16 c) (by decide) h

theorem digits?_map_toLower : ∀ {digits : List Char}, digits.all Hex.isDigit = true →
    digits? 16 (digits.map Char.toLower) = digits? 16 digits
  | [], _ => rfl
  | [c], h => by
      rw [List.all_cons, Bool.and_eq_true] at h
      simp only [List.map_cons, List.map_nil, digits?]
      rw [digit?_toLower h.1]
  | c :: d :: rest, h => by
      rw [List.all_cons, Bool.and_eq_true] at h
      have hsmall := digits?_map_toLower h.2
      obtain ⟨n, hn⟩ := Option.isSome_iff_exists.1 (digit?_of_isDigit h.1)
      obtain ⟨ns, hns⟩ := Option.isSome_iff_exists.1 (isSome_digits? h.2 (List.cons_ne_nil d rest))
      rw [List.all_cons, Bool.and_eq_true] at h
      have hline := Hex.ne_underscore (Hex.isDigit_toLower h.2.1)
      rw [digits?_cons (Hex.ne_underscore h.2.1) hn hns]
      exact digits?_cons hline ((digit?_toLower h.1).trans hn) (hsmall.trans hns)

/-- The case of the digits makes no difference to the number. -/
theorem readHex_lower {t : Text} (h : Hex.isMarked t = true) (hlength : 2 < t.length) :
    readHex (Text.lower t) = readHex t := by
  have hsmall := Hex.isMarked_lower h
  rw [Text.lower_ascii (Hex.ascii_of_isMarked h)] at hsmall ⊢
  obtain ⟨digits, rfl, hdigits, hne⟩ := Hex.exists_digits h hlength
  calc
    _ = (digits? 16 (digits.map Char.toLower)).map fun ns => (ofDigits 16 ns : Int) :=
      readHex_of_digits hsmall (mt List.map_eq_nil_iff.1 hne)
    _ = readHex ('0' :: 'x' :: digits) := by
      rw [digits?_map_toLower hdigits, readHex_of_digits hdigits hne]

end Numeral

/-- The number of an address is the one that its bytes write. -/
theorem Address.readHex_eq {t : Text} (h : Form.address.holds t = true) {bs : Bytes}
    (hbytes : bytes t = .ok bs) :
    Numeral.readHex (normalize t) = some (Abi.ofBigEndian bs : Int) := by
  obtain ⟨read, hread, hlength, hmarked⟩ := exists_bytes h
  cases hbytes.symm.trans hread
  have hne : bs ≠ [] := by
    rintro rfl
    cases hlength
  rw [Form.normalize_eq h, ← hmarked]
  exact Numeral.readHex_marked hne

end SwapRelay
