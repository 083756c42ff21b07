/-!
# Text

Addresses, ids and amounts are taken apart character by character, compared in small letters and
put together again, so they are kept as lists of characters. Wording for people is a `String`.

Two classes of characters matter for written numbers. The blanks that may surround one are the six
of ASCII and the spaces and line separators of the Unicode property `White_Space`; the information
separators of ASCII are not among them, and count as blanks only around a media type. The digits are
the characters of the Unicode category `Nd`. They come in blocks of ten, zero first, so the table
holds the zeros and a digit's value is its distance from the zero of its block. ASCII, whose digits
are the first block, is told apart without the table.
-/

namespace SwapRelay

/-- A text as its characters. -/
abbrev Text := List Char

namespace Text

def shown (t : Text) : String :=
  String.ofList t

/-- Dictionary order, by the numbers of the characters. -/
def le : Text → Text → Bool
  | [], _ => true
  | _ :: _, [] => false
  | a :: s, b :: t => if a.toNat = b.toNat then le s t else a.toNat < b.toNat

/-- What holds of the characters below 128 by their numbers holds of them all. -/
theorem forall_ascii {P : Char → Prop} (hascii : ∀ k < 0x80, P (Char.ofNat k)) {c : Char}
    (h : c.toNat < 0x80) : P c := by
  have hc := hascii c.toNat h
  rwa [Char.ofNat_toNat] at hc

/-! ## White space -/

/-- A blank of ASCII: the space, and tab to carriage return. -/
def isAsciiBlank (c : Char) : Bool :=
  c == ' ' || (0x09 ≤ c.toNat && c.toNat ≤ 0x0D)

def isBlank (c : Char) : Bool :=
  isAsciiBlank c ||
    ([0x85, 0xA0, 0x1680, 0x2028, 0x2029, 0x202F, 0x205F, 0x3000].contains c.toNat ||
      (0x2000 ≤ c.toNat && c.toNat ≤ 0x200A))

/-- The text without the characters of a class at its two ends. -/
def trimOf (isGap : Char → Bool) (t : Text) : Text :=
  ((t.dropWhile isGap).reverse.dropWhile isGap).reverse

def trim (t : Text) : Text :=
  trimOf isBlank t

/-- A blank or one of the information separators of ASCII. -/
def isBlankOrSeparator (c : Char) : Bool :=
  isBlank c || (0x1C ≤ c.toNat && c.toNat ≤ 0x1F)

example : trim " \t12 3\u2003".toList = "12 3".toList := by decide

theorem trim_eq_self {t : Text} (h : ∀ c ∈ t, isBlank c = false) : trim t = t := by
  have hkept : ∀ {u : Text}, (∀ c ∈ u, isBlank c = false) → u.dropWhile isBlank = u := by
    intro u hu
    cases u with
    | nil => rfl
    | cons c rest => rw [List.dropWhile_cons, hu c (List.mem_cons_self ..)]; rfl
  have hback : ∀ c ∈ t.reverse, isBlank c = false := fun c hc => h c (List.mem_reverse.1 hc)
  rw [trim, trimOf, hkept h, hkept hback, List.reverse_reverse]

/-! ## Decimal digits -/

/-- The zeros of the blocks of decimal digits above ASCII, in ascending order. -/
def digitZeros : List Nat :=
  [0x660, 0x6F0, 0x7C0, 0x966, 0x9E6, 0xA66, 0xAE6, 0xB66, 0xBE6, 0xC66, 0xCE6, 0xD66,
   0xDE6, 0xE50, 0xED0, 0xF20, 0x1040, 0x1090, 0x17E0, 0x1810, 0x1946, 0x19D0, 0x1A80, 0x1A90,
   0x1B50, 0x1BB0, 0x1C40, 0x1C50, 0xA620, 0xA8D0, 0xA900, 0xA9D0, 0xA9F0, 0xAA50, 0xABF0,
   0xFF10, 0x104A0, 0x10D30, 0x11066, 0x110F0, 0x11136, 0x111D0, 0x112F0, 0x11450, 0x114D0,
   0x11650, 0x116C0, 0x11730, 0x118E0, 0x11950, 0x11C50, 0x11D50, 0x11DA0, 0x16A60, 0x16AC0,
   0x16B50, 0x1D7CE, 0x1D7D8, 0x1D7E2, 0x1D7EC, 0x1D7F6, 0x1E140, 0x1E2F0, 0x1E950, 0x1FBF0]

/-- The value of a decimal digit of any script, `none` for every other character. -/
def digitValue? (c : Char) : Option Nat :=
  if c.toNat < 0x80 then
    if '0' ≤ c ∧ c ≤ '9' then some (c.toNat - '0'.toNat) else none
  else (digitZeros.find? fun z => z ≤ c.toNat && c.toNat < z + 10).map (c.toNat - ·)

example : digitZeros.length = 65 := by decide
example : digitValue? '7' = some 7 ∧ digitValue? '\u0663' = some 3 := by decide
example : digitValue? '\u00b2' = none := by decide

end Text

end SwapRelay
