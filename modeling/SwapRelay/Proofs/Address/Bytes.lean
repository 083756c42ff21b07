import SwapRelay.Proofs.Address

/-!
# The bytes that a checked text writes

A text of the form that requests have to match is `0x` and digits, so the only thing that can keep it
from being read as bytes is an odd number of digits (`Hex.readBytes_of_even`, `readBytes_of_odd`).
Pool ids and addresses have a fixed even number (`Hex.exists_readBytes`). What is read, written out
again, is the text in small letters. So two addresses have the same bytes exactly if they are the
same in whatever case (`Address.bytes_eq_iff`).
-/

namespace SwapRelay

namespace Hex

/-- Digits are ASCII, so what holds of the digits among its characters holds of all digits. -/
theorem forall_isDigit {P : Char → Prop}
    (hascii : ∀ k < 0x80, isDigit (Char.ofNat k) = true → P (Char.ofNat k)) {c : Char}
    (h : isDigit c = true) : P c :=
  Text.forall_ascii (P := fun c => isDigit c = true → P c) hascii (Form.lt_of_isDigit h) h

/-- A digit has a value below sixteen and is written back in small letters. -/
theorem digitValue?_of_isDigit {c : Char} (h : isDigit c = true) :
    ∃ n < 16, digitValue? c = some n ∧ digit n = c.toLower :=
  forall_isDigit (P := fun c => ∃ n < 16, digitValue? c = some n ∧ digit n = c.toLower)
    (by decide) h

theorem not_isBlank {c : Char} (h : isDigit c = true) :
    Text.isBlank c = false ∧ Text.isAsciiBlank c = false :=
  forall_isDigit (P := fun c => Text.isBlank c = false ∧ Text.isAsciiBlank c = false)
    (by decide) h

theorem exists_digits {t : Text} (h : isMarked t = true) (hlength : 2 < t.length) :
    ∃ digits, t = '0' :: 'x' :: digits ∧ digits.all isDigit = true ∧ digits ≠ [] := by
  obtain ⟨digits, rfl, hdigits⟩ := isMarked_iff.1 h
  refine ⟨digits, rfl, hdigits, ?_⟩
  rintro rfl
  exact absurd hlength (by decide)

theorem ne_underscore {c : Char} (h : isDigit c = true) : c ≠ '_' :=
  forall_isDigit (P := (· ≠ '_')) (by decide) h

theorem encode_cons (b : UInt8) (rest : Bytes) : encode (b :: rest) = pair b ++ encode rest := by
  rw [encode, List.flatMap_cons]
  rfl

theorem length_encode (bytes : Bytes) : (encode bytes).length = 2 * bytes.length := by
  induction bytes with
  | nil => rfl
  | cons b rest ih =>
      rw [encode_cons, List.length_append, ih, List.length_cons]
      simp only [pair, List.length_cons, List.length_nil]
      omega

theorem encode_take (bs : Bytes) (n : Nat) : encode (bs.take n) = (encode bs).take (2 * n) := by
  induction bs generalizing n with
  | nil => rw [List.take_nil, encode, List.flatMap_nil, List.take_nil]
  | cons b rest ih =>
      cases n with
      | zero => rfl
      | succ n =>
          rw [List.take_succ_cons, encode_cons, encode_cons, ih]
          rfl

theorem pair_ofNat {high low : Nat} (hhigh : high < 16) (hlow : low < 16) :
    pair (UInt8.ofNat (16 * high + low)) = [digit high, digit low] := by
  have hbyte : (UInt8.ofNat (16 * high + low)).toNat = 16 * high + low := by
    rw [UInt8.toNat_ofNat']
    omega
  have hdiv : (16 * high + low) / 16 = high := by omega
  have hmod : (16 * high + low) % 16 = low := by omega
  simp only [pair, hbyte, hdiv, hmod]

/-- Digits in pairs are bytes, and the bytes are written with the same digits in small letters. -/
theorem exists_decode : ∀ {digits : List Char}, digits.all isDigit = true →
    digits.length % 2 = 0 → ∃ bs, decode digits = some bs ∧ encode bs = digits.map Char.toLower
  | [], _, _ => ⟨[], rfl, rfl⟩
  | [_], _, heven => absurd heven (by simp)
  | c :: d :: rest, h, heven => by
      simp only [List.all_cons, Bool.and_eq_true] at h
      obtain ⟨hc, hd, hrest⟩ := h
      have hlength : rest.length % 2 = 0 := by
        simp only [List.length_cons] at heven
        omega
      obtain ⟨bs, hdecode, hencode⟩ := exists_decode hrest hlength
      obtain ⟨high, hhighlt, hhigh, hhighdigit⟩ := digitValue?_of_isDigit hc
      obtain ⟨low, hlowlt, hlow, hlowdigit⟩ := digitValue?_of_isDigit hd
      refine ⟨UInt8.ofNat (16 * high + low) :: bs, ?_, ?_⟩
      · rw [decode, (not_isBlank hc).2, hhigh, hlow, hdecode]
        rfl
      · rw [encode_cons, pair_ofNat hhighlt hlowlt, hhighdigit, hlowdigit, hencode]
        rfl

/-- A digit that is left over writes nothing. -/
theorem decode_of_odd : ∀ {digits : List Char}, digits.all isDigit = true →
    digits.length % 2 = 1 → decode digits = none
  | [], _, hodd => absurd hodd (by decide)
  | [c], h, _ => by
      simp only [List.all_cons, List.all_nil, Bool.and_true] at h
      rw [decode, (not_isBlank h).2]
      rfl
  | c :: d :: rest, h, hodd => by
      simp only [List.all_cons, Bool.and_eq_true] at h
      obtain ⟨hc, hd, hrest⟩ := h
      have hlength : rest.length % 2 = 1 := by
        simp only [List.length_cons] at hodd
        omega
      obtain ⟨high, -, hhigh, -⟩ := digitValue?_of_isDigit hc
      obtain ⟨low, -, hlow, -⟩ := digitValue?_of_isDigit hd
      rw [decode, (not_isBlank hc).2, hhigh, hlow, decode_of_odd hrest hlength]
      rfl

theorem readBytes_of_even {t : Text} (h : isMarked t = true) (heven : t.length % 2 = 0) :
    ∃ bs, readBytes t = .ok bs ∧ marked bs = t.map Char.toLower := by
  obtain ⟨digits, rfl, hdigits⟩ := isMarked_iff.1 h
  have hlength : digits.length % 2 = 0 := by
    simp only [List.length_cons] at heven
    omega
  obtain ⟨bs, hdecode, hencode⟩ := exists_decode hdigits hlength
  refine ⟨bs, ?_, ?_⟩
  · rw [readBytes, read, hdecode]
  · rw [marked, hencode]
    rfl

theorem readBytes_of_odd {t : Text} (h : isMarked t = true) (hodd : t.length % 2 = 1) :
    readBytes t = .error .unreadable := by
  obtain ⟨digits, rfl, hdigits⟩ := isMarked_iff.1 h
  have hlength : digits.length % 2 = 1 := by
    simp only [List.length_cons] at hodd
    omega
  rw [readBytes, read, decode_of_odd hdigits hlength]

theorem read_marked (bytes : Bytes) : read (marked bytes) = some bytes :=
  decode_encode bytes

theorem marked_inj {as bs : Bytes} : marked as = marked bs ↔ as = bs := by
  constructor
  · intro h
    have hread := congrArg read h
    rw [read_marked, read_marked] at hread
    exact Option.some.inj hread
  · rintro rfl
    rfl

theorem marked_take (bs : Bytes) (n : Nat) :
    marked (bs.take n) = (marked bs).take (2 * n + 2) := by
  rw [marked, encode_take, marked, List.take_succ_cons, List.take_succ_cons]

theorem isMarked_marked (bytes : Bytes) : isMarked (marked bytes) = true := by
  have hdigit : ∀ m : Fin 16, isDigit (digit m) = true := by decide
  simp only [isMarked, marked, encode]
  rw [List.all_flatMap, List.all_eq_true]
  intro b _
  have hb : b.toNat < 256 := b.toNat_lt
  have hhigh := hdigit ⟨b.toNat / 16, by omega⟩
  have hlow := hdigit ⟨b.toNat % 16, by omega⟩
  simp only [pair, List.all_cons, List.all_nil, hhigh, hlow, Bool.and_true]

theorem length_of_marked {bs : Bytes} {t : Text} (h : marked bs = t.map Char.toLower) :
    t.length = 2 * bs.length + 2 := by
  have hlength := congrArg List.length h
  rw [marked, List.length_cons, List.length_cons, length_encode, List.length_map] at hlength
  omega

/-- A text of a fixed even number of digits has half as many bytes, which write it in small
letters. -/
theorem exists_readBytes {t : Text} {n : Nat} (h : isMarkedOf (2 * n) t = true) :
    ∃ bs, readBytes t = .ok bs ∧ bs.length = n ∧ marked bs = Text.lower t := by
  rw [isMarkedOf, Bool.and_eq_true, beq_iff_eq] at h
  obtain ⟨hmark, hlength⟩ := h
  obtain ⟨bs, hread, hmarked⟩ := readBytes_of_even hmark (by omega)
  have hcount := length_of_marked hmarked
  refine ⟨bs, hread, by omega, ?_⟩
  rw [hmarked, Text.lower_ascii (ascii_of_isMarked hmark)]

/-! ## Small letters -/

theorem isDigit_toLower {c : Char} (h : isDigit c = true) : isDigit c.toLower = true := by
  obtain ⟨n, hn, -, hdigit⟩ := digitValue?_of_isDigit h
  rw [← hdigit, isDigit, (digitValue?_digit hn).1]
  rfl

theorem isMarked_lower {t : Text} (h : isMarked t = true) : isMarked (Text.lower t) = true := by
  rw [Text.lower_ascii (ascii_of_isMarked h)]
  obtain ⟨digits, rfl, hdigits⟩ := isMarked_iff.1 h
  refine isMarked_iff.2 ⟨digits.map Char.toLower, rfl, ?_⟩
  rw [List.all_map, List.all_eq_true]
  intro c hc
  exact isDigit_toLower (List.all_eq_true.1 hdigits c hc)

end Hex

namespace Form

theorem holds_lower {form : Form} {t : Text} (h : form.holds t = true) :
    form.holds (Text.lower t) = true := by
  have hlength : ∀ {t : Text}, Hex.isMarked t = true → (Text.lower t).length = t.length := by
    intro t hmarked
    rw [Text.lower_ascii (Hex.ascii_of_isMarked hmarked), List.length_map]
  cases form with
  | bytes => exact Hex.isMarked_lower h
  | address | poolId =>
      simp only [holds, Hex.isMarkedOf, Bool.and_eq_true] at h ⊢
      exact ⟨Hex.isMarked_lower h.1, by rw [hlength h.1]; exact h.2⟩

theorem length_address {t : Text} (h : Form.address.holds t = true) : t.length = 42 :=
  beq_iff_eq.1 (Bool.and_eq_true_iff.1 h).2

theorem length_poolId {t : Text} (h : Form.poolId.holds t = true) : t.length = 66 :=
  beq_iff_eq.1 (Bool.and_eq_true_iff.1 h).2

theorem holds_normalize {t : Text} (h : Form.address.holds t = true) :
    Form.address.holds (Address.normalize t) = true := by
  rw [normalize_eq h]
  exact holds_lower h

theorem holds_map_normalize {tokens : List Text}
    (h : ∀ t ∈ tokens, Form.address.holds t = true) :
    ∀ t ∈ tokens.map Address.normalize, Form.address.holds t = true :=
  List.forall_mem_map.2 fun t ht => holds_normalize (h t ht)

end Form

namespace Numeral

theorem digit?_of_isDigit {c : Char} (h : Hex.isDigit c = true) : (digit? 16 c).isSome = true :=
  Hex.forall_isDigit (P := fun c => (digit? 16 c).isSome = true) (by decide) h

theorem isSome_digits? {digits : List Char} (h : digits.all Hex.isDigit = true)
    (hne : digits ≠ []) : (digits? 16 digits).isSome = true := by
  induction digits with
  | nil => exact absurd rfl hne
  | cons c rest ih =>
      rw [List.all_cons, Bool.and_eq_true] at h
      obtain ⟨n, hn⟩ := Option.isSome_iff_exists.1 (digit?_of_isDigit h.1)
      cases rest with
      | nil => simp [digits?, hn]
      | cons d more =>
          obtain ⟨ns, hns⟩ := Option.isSome_iff_exists.1 (ih h.2 (List.cons_ne_nil d more))
          rw [List.all_cons, Bool.and_eq_true] at h
          rw [digits?_cons (Hex.ne_underscore h.2.1) hn hns]
          rfl

/-- A marked text is read as its digits are. -/
theorem readHex_of_digits {digits : List Char} (hdigits : digits.all Hex.isDigit = true)
    (hne : digits ≠ []) :
    readHex ('0' :: 'x' :: digits) =
      (digits? 16 digits).map fun ns => (ofDigits 16 ns : Int) := by
  have htrim : Text.trim ('0' :: 'x' :: digits) = '0' :: 'x' :: digits := by
    apply Text.trim_eq_self
    intro c hc
    rcases List.mem_cons.1 hc with rfl | hc
    · decide
    · rcases List.mem_cons.1 hc with rfl | hc
      · decide
      · exact (Hex.not_isBlank (List.all_eq_true.1 hdigits c hc)).1
  have hmark : dropHexMark ('0' :: 'x' :: digits) = digits := by
    cases digits with
    | nil => exact absurd rfl hne
    | cons d rest =>
        rw [List.all_cons, Bool.and_eq_true] at hdigits
        simp [dropHexMark, Hex.ne_underscore hdigits.1]
  rw [readHex, htrim, signed?, hexMagnitude?, hmark, Option.map_map]
  · rfl
  · intro rest hplus
    exact absurd (List.cons.inj hplus).1 (by decide)
  · intro rest hminus
    exact absurd (List.cons.inj hminus).1 (by decide)

/-- A marked text with a digit is read as a number. -/
theorem isSome_readHex {t : Text} (h : Hex.isMarked t = true) (hlength : 2 < t.length) :
    (readHex t).isSome = true := by
  obtain ⟨digits, rfl, hdigits, hne⟩ := Hex.exists_digits h hlength
  rw [readHex_of_digits hdigits hne, Option.isSome_map]
  exact isSome_digits? hdigits hne

end Numeral

namespace Address

theorem isValid_of_holds {t : Text} (h : Form.address.holds t = true) : isValid t = true := by
  have hmarked := Form.isMarked_of_holds h
  have hlength := Form.length_address h
  have hread := Numeral.isSome_readHex hmarked (by omega)
  obtain ⟨digits, rfl, -⟩ := Hex.isMarked_iff.1 hmarked
  simp only [isValid, isMarked, hlength, hread, beq_self_eq_true, Bool.and_self]

/-- An address is read as bytes once it is in small letters. -/
theorem bytes_eq_readBytes {t : Text} (h : Form.address.holds t = true) :
    bytes t = Hex.readBytes (Text.lower t) := by
  have hform := Form.holds_lower h
  obtain ⟨digits, hdigits, -⟩ := Hex.isMarked_iff.1 (Form.isMarked_of_holds hform)
  rw [bytes, normalizeValid, Form.normalize_eq h, if_pos (isValid_of_holds hform), hdigits]
  rfl

/-- An address of the right form has twenty bytes, which write it in small letters. -/
theorem exists_bytes {t : Text} (h : Form.address.holds t = true) :
    ∃ bs, bytes t = .ok bs ∧ bs.length = 20 ∧ Hex.marked bs = Text.lower t := by
  obtain ⟨bs, hread, hlength, hmarked⟩ := Hex.exists_readBytes (n := 20) (Form.holds_lower h)
  rw [Hex.lower_lower (Form.isMarked_of_holds h)] at hmarked
  exact ⟨bs, (bytes_eq_readBytes h).trans hread, hlength, hmarked⟩

/-- Two addresses of the right form have the same bytes exactly if they are the same. -/
theorem bytes_eq_iff {a b : Text} (ha : Form.address.holds a = true)
    (hb : Form.address.holds b = true) : bytes a = bytes b ↔ same a b = true := by
  obtain ⟨as, hread, -, hmarked⟩ := exists_bytes ha
  obtain ⟨bs, hread', -, hmarked'⟩ := exists_bytes hb
  rw [hread, hread', Except.ok.injEq, same_iff, ← hmarked, ← hmarked', Hex.marked_inj]

theorem bytes_normalize {t : Text} (h : Form.address.holds t = true) :
    bytes (normalize t) = bytes t :=
  (bytes_eq_iff (Form.holds_normalize h) h).2 (same_iff.2 (Form.lower_normalize h))

end Address

/-- A pool id of the right form has thirty-two bytes, which write it in small letters. -/
theorem Pool.exists_idBytes {id : Text} (h : Form.poolId.holds id = true) :
    ∃ bs, Hex.readBytes id = .ok bs ∧ bs.length = 32 ∧ Hex.marked bs = Text.lower id :=
  Hex.exists_readBytes (n := 32) h

end SwapRelay
