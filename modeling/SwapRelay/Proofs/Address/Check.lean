import SwapRelay.Config
import SwapRelay.Proofs.Numeral

/-!
# What the check of an address is worth

An address is `0x` and forty hexadecimal digits. The check counts the characters and reads the text
as an integer, and as integers are read leniently it lets more texts through (`isValid_iff`): an
underscore may take the place of a digit, and so may a blank at the end or a digit of another
script. These characters are all that such a text and an address differ in, `isAddress_iff`.

The bytes of an address are read by a strict rule, so it shows only there. A text that was let
through has the twenty bytes that it writes exactly if it has none of these characters
(`hasBytes_iff`), which goes for the addresses of a configuration too.
-/

namespace SwapRelay

namespace Text

theorem toLower_eq_self {c : Char} (h : ¬ ('A'.toNat ≤ c.toNat ∧ c.toNat ≤ 'Z'.toNat)) :
    c.toLower = c :=
  dif_neg fun hupper => h ⟨hupper.1, hupper.2⟩

theorem toLower_ofNat {n : Nat} (h : 'Z'.toNat < n) : (Char.ofNat n).toLower = Char.ofNat n := by
  by_cases hvalid : n.isValidChar
  · refine toLower_eq_self fun hupper => ?_
    have hcode : (Char.ofNat n).toNat = n := congrArg Char.toNat (dif_pos hvalid)
    omega
  · have hnull : Char.ofNat n = '\x00' := dif_neg hvalid
    rw [hnull]
    rfl

theorem toLower_of_mem_smallForm {c d : Char} (h : d ∈ smallForm c) : d.toLower = d := by
  -- No letter above ASCII has a capital letter of ASCII for its small form.
  have hfar : ∀ run ∈ caseRuns, ('Z'.toNat : Int) < run.first + run.shift := by decide +kernel
  have habove : 'Z'.toNat < 0x80 := by decide
  rw [smallForm] at h
  split at h
  · next hascii =>
      rw [List.mem_singleton.1 h]
      exact (Form.toLower_ascii hascii).2
  · split at h
    · rcases List.mem_cons.1 h with rfl | h
      · rfl
      · rw [List.mem_singleton.1 h]
        rfl
    · split at h
      · next run hrun =>
          have hplace := hfar run (List.mem_of_find?_eq_some hrun)
          have hholds := List.find?_some hrun
          simp only [CaseRun.holds, Bool.and_eq_true, decide_eq_true_eq] at hholds
          rw [List.mem_singleton.1 h]
          exact toLower_ofNat (by omega)
      · rw [List.mem_singleton.1 h]
        exact toLower_eq_self (by omega)

/-- A text in small letters has no capital one of ASCII left. -/
theorem toLower_of_mem_lower {t : Text} {c : Char} (h : c ∈ lower t) : c.toLower = c := by
  have hafter : ∀ before, c ∈ lowerAfter before t → c.toLower = c := by
    clear h
    induction t with
    | nil => exact fun _ h => absurd h List.not_mem_nil
    | cons d rest ih =>
        intro before h
        simp only [lowerAfter] at h
        rcases List.mem_append.1 h with h | h
        · split at h
          · rw [List.mem_singleton.1 h, smallSigma]
            split <;> decide
          · exact toLower_of_mem_smallForm h
        · exact ih _ h
  exact hafter [] h

end Text

namespace Address

/-- The text is `0x` and forty hexadecimal digits of ASCII. -/
def IsAddress (t : Text) : Prop :=
  ∃ digits, t = '0' :: 'x' :: digits ∧ digits.length = 40 ∧ ∀ c ∈ digits, Hex.isDigit c = true

/-- The text has the length of an address, and the mark and digits of a lenient reading. -/
def Passes (t : Text) : Prop :=
  ∃ digits blanks, t = '0' :: 'x' :: (digits ++ blanks) ∧ t.length = 42 ∧
    Numeral.Spaced 16 digits ∧ ∀ c ∈ blanks, Text.isBlank c = true

/-- An underscore, a blank, or a character above ASCII. -/
def Lax (c : Char) : Prop :=
  c = '_' ∨ Text.isBlank c = true ∨ 0x80 ≤ c.toNat

/-- The text has twenty bytes, and they are written as `shown`. -/
def HasBytes (t shown : Text) : Prop :=
  ∃ bs, bytes t = .ok bs ∧ bs.length = 20 ∧ Hex.marked bs = shown

/-! ## The check -/

theorem isMarked_iff {t : Text} : isMarked t = true ↔ ∃ rest, t = '0' :: 'x' :: rest := by
  rw [isMarked.eq_def]
  split <;> simp_all

theorem isValid_iff {t : Text} : isValid t = true ↔ Passes t := by
  simp only [isValid, Bool.and_eq_true, beq_iff_eq, isMarked_iff]
  constructor
  · rintro ⟨⟨⟨rest, rfl⟩, hlength⟩, hread⟩
    obtain ⟨digits, blanks, rfl, hdigits, hblanks⟩ := Numeral.isSome_readHex_iff.1 hread
    exact ⟨digits, blanks, rfl, hlength, hdigits, hblanks⟩
  · rintro ⟨digits, blanks, rfl, hlength, hdigits, hblanks⟩
    exact ⟨⟨⟨_, rfl⟩, hlength⟩,
      Numeral.isSome_readHex_iff.2 ⟨digits, blanks, rfl, hdigits, hblanks⟩⟩

theorem not_lax_of_isDigit {c : Char} (h : Hex.isDigit c = true) : ¬ Lax c := by
  rintro (rfl | hblank | hhigh)
  · cases h
  · rw [(Hex.not_isBlank h).1] at hblank
    cases hblank
  · exact Nat.not_lt.2 hhigh (Form.lt_of_isDigit h)

/-- An address is a text of the form that requests have to match. -/
theorem isAddress_iff_holds {t : Text} : IsAddress t ↔ Form.address.holds t = true := by
  simp only [Form.holds, Hex.isMarkedOf, Bool.and_eq_true, beq_iff_eq, Hex.isMarked_iff]
  constructor
  · rintro ⟨digits, rfl, hlength, hdigits⟩
    exact ⟨⟨digits, rfl, List.all_eq_true.2 hdigits⟩, by simp [hlength]⟩
  · rintro ⟨⟨digits, rfl, hdigits⟩, hlength⟩
    exact ⟨digits, rfl, Nat.succ.inj (Nat.succ.inj hlength), List.all_eq_true.1 hdigits⟩

theorem IsAddress.not_lax {t : Text} (h : IsAddress t) : ∀ c ∈ t, ¬ Lax c := by
  obtain ⟨digits, rfl, -, hdigits⟩ := h
  have hmark : ¬ Lax 'x' := by
    rw [Lax]
    decide
  exact List.forall_mem_cons.2 ⟨not_lax_of_isDigit (by decide), List.forall_mem_cons.2
    ⟨hmark, fun c hc => not_lax_of_isDigit (hdigits c hc)⟩⟩

/-- In ASCII the lenient digits are the strict ones. -/
theorem isDigit_of_digit? {c : Char} (hascii : c.toNat < 0x80)
    (h : (Numeral.digit? 16 c).isSome = true) : Hex.isDigit c = true :=
  Text.forall_ascii (P := fun c => (Numeral.digit? 16 c).isSome = true → Hex.isDigit c = true)
    (by decide) hascii h

/-- Of the texts that pass, the addresses are those without a lax character. -/
theorem isAddress_iff {t : Text} : IsAddress t ↔ isValid t = true ∧ ∀ c ∈ t, ¬ Lax c := by
  constructor
  · exact fun h => ⟨isValid_of_holds (isAddress_iff_holds.1 h), h.not_lax⟩
  · rintro ⟨hvalid, hplain⟩
    obtain ⟨digits, blanks, rfl, hlength, hspaced, hblanks⟩ := isValid_iff.1 hvalid
    simp only [List.forall_mem_cons, List.forall_mem_append] at hplain
    obtain ⟨-, -, hdigits, hends⟩ := hplain
    obtain rfl : blanks = [] := List.eq_nil_iff_forall_not_mem.2 fun c hc =>
      hends c hc (.inr (.inl (hblanks c hc)))
    rw [List.append_nil] at hlength ⊢
    refine ⟨digits, rfl, Nat.succ.inj (Nat.succ.inj hlength), fun c hc => ?_⟩
    have hplain := hdigits c hc
    rcases hspaced.chars c hc with rfl | hdigit
    · exact absurd (.inl rfl) hplain
    · exact isDigit_of_digit? (Nat.not_le.1 fun hhigh => hplain (.inr (.inr hhigh))) hdigit

/-! ## The bytes -/

theorem normalizeValid_eq_ok {t n : Text} :
    normalizeValid t = .ok n ↔ isValid n = true ∧ normalize t = n := by
  rw [normalizeValid]
  constructor
  · intro h
    split at h
    · next hvalid =>
        cases h
        exact ⟨hvalid, rfl⟩
    · cases h
  · rintro ⟨hvalid, rfl⟩
    rw [if_pos hvalid]

theorem toLower_of_mem_normalize {t : Text} {c : Char} (h : c ∈ normalize t) : c.toLower = c := by
  rw [normalize, mark] at h
  split at h
  · exact Text.toLower_of_mem_lower h
  · rcases List.mem_cons.1 h with rfl | h
    · decide
    · rcases List.mem_cons.1 h with rfl | h
      · decide
      · exact Text.toLower_of_mem_lower h

theorem isAddress_marked {bs : Bytes} (h : bs.length = 20) : IsAddress (Hex.marked bs) := by
  refine ⟨Hex.encode bs, rfl, ?_, List.all_eq_true.1 (Hex.isMarked_marked bs)⟩
  rw [Hex.length_encode, h]

theorem HasBytes.not_lax {t n : Text} (h : HasBytes t n) : ∀ c ∈ n, ¬ Lax c := by
  obtain ⟨bs, -, hlength, rfl⟩ := h
  exact (isAddress_marked hlength).not_lax

theorem IsAddress.lower_eq {t n : Text} (h : normalizeValid t = .ok n) (haddress : IsAddress n) :
    Text.lower n = n := by
  obtain ⟨-, rfl⟩ := normalizeValid_eq_ok.1 h
  have hmarked := Form.isMarked_of_holds (isAddress_iff_holds.1 haddress)
  rw [Text.lower_ascii (Hex.ascii_of_isMarked hmarked),
    List.map_congr_left fun c => toLower_of_mem_normalize]
  exact List.map_id _

/-- A normal form that passes has the bytes that it writes, if it has no lax character. -/
theorem hasBytes_self_iff {t n : Text} (h : normalizeValid t = .ok n) :
    HasBytes n n ↔ ∀ c ∈ n, ¬ Lax c := by
  refine ⟨HasBytes.not_lax, fun hplain => ?_⟩
  have haddress : IsAddress n := isAddress_iff.2 ⟨(normalizeValid_eq_ok.1 h).1, hplain⟩
  obtain ⟨bs, hread, hlength, hbytes⟩ := exists_bytes (isAddress_iff_holds.1 haddress)
  rw [haddress.lower_eq h] at hbytes
  exact ⟨bs, hread, hlength, hbytes⟩

/-- The text that it is the normal form of has the same bytes. -/
theorem hasBytes_iff {t n : Text} (h : normalizeValid t = .ok n) :
    HasBytes t n ↔ ∀ c ∈ n, ¬ Lax c := by
  refine ⟨HasBytes.not_lax, fun hplain => ?_⟩
  obtain ⟨hvalid, hnormal⟩ := normalizeValid_eq_ok.1 h
  have haddress : IsAddress n := isAddress_iff.2 ⟨hvalid, hplain⟩
  have hself : normalize n = normalize t := by
    rw [Form.normalize_eq (isAddress_iff_holds.1 haddress), haddress.lower_eq h, hnormal]
  obtain ⟨bs, hread, hlength, hbytes⟩ := (hasBytes_self_iff h).2 hplain
  exact ⟨bs, bytes_of_normalize_eq hself hread, hlength, hbytes⟩

/-- Both addresses of a configuration passed the check. -/
theorem exists_of_ofEnvironment {env : Environment} {config : Config}
    (h : Config.ofEnvironment env = .ok config) :
    ∀ n ∈ [config.relayer, config.wrappedNative], ∃ t, normalizeValid t = .ok n := by
  obtain ⟨relayer, hrelayer, h⟩ := Except.bind_eq_ok.1 h
  obtain ⟨wrappedNative, hwrapped, h⟩ := Except.bind_eq_ok.1 h
  obtain ⟨deadlineSeconds, -, h⟩ := Except.bind_eq_ok.1 h
  cases Except.pure_eq_ok.1 h
  exact List.forall_mem_cons.2 ⟨⟨_, hrelayer⟩, List.forall_mem_singleton.2 ⟨_, hwrapped⟩⟩

/-- What passes the check is an address, and has the bytes of one, exactly if it has no lax
character. -/
theorem isValid_exact_iff (t : Text) :
    (isValid t = true ↔ Passes t) ∧ (IsAddress t ↔ isValid t = true ∧ ∀ c ∈ t, ¬ Lax c) ∧
      (∀ n, normalizeValid t = .ok n → (HasBytes t n ↔ ∀ c ∈ n, ¬ Lax c)) ∧
      ∀ env config, Config.ofEnvironment env = .ok config →
        ∀ n ∈ [config.relayer, config.wrappedNative], (HasBytes n n ↔ ∀ c ∈ n, ¬ Lax c) := by
  refine ⟨isValid_iff, isAddress_iff, fun n => hasBytes_iff, ?_⟩
  intro env config hconfig n hn
  obtain ⟨given, hgiven⟩ := exists_of_ofEnvironment hconfig n hn
  exact hasBytes_self_iff hgiven

/-- The wrapped token in capital letters. -/
def capitals : Text :=
  "0XC02AAA39B223FE8D0A0E5C4F27EAD9083C756CC2".toList

theorem isValid_exact_iff_capitals :
    normalizeValid capitals = .ok Config.standard.wrappedNative ∧
      HasBytes capitals Config.standard.wrappedNative ∧
      Config.ofEnvironment [] = .ok .standard ∧
      HasBytes Config.standard.relayer Config.standard.relayer := by
  have hrelayer : IsAddress Config.standard.relayer :=
    ⟨_, rfl, by decide, List.all_eq_true.1 (by decide)⟩
  have hwrapped : IsAddress Config.standard.wrappedNative :=
    ⟨_, rfl, by decide, List.all_eq_true.1 (by decide)⟩
  have hnormal : normalizeValid capitals = .ok Config.standard.wrappedNative :=
    normalizeValid_eq_ok.2 ⟨by decide, by decide⟩
  obtain ⟨config, hconfig, hstandard⟩ := Except.exists_of_any
    (x := Config.ofEnvironment []) (fun config => decide (config = .standard)) (by decide)
  rw [of_decide_eq_true hstandard] at hconfig
  obtain ⟨-, -, hbytes, hconfigured⟩ := isValid_exact_iff capitals
  exact ⟨hnormal, (hbytes _ hnormal).2 hwrapped.not_lax, hconfig,
    (hconfigured _ _ hconfig _ (List.mem_cons_self ..)).2 hrelayer.not_lax⟩

/-- An underscore in the place of the first digit. -/
def underscored : Text :=
  '0' :: 'x' :: '_' :: List.replicate 39 '1'

/-- A text that passes and is no address: its digits cannot be read as bytes. -/
theorem exists_valid_not_isAddress :
    isValid underscored = true ∧ ¬ IsAddress underscored ∧
      normalizeValid underscored = .ok underscored ∧ ¬ HasBytes underscored underscored ∧
      bytes underscored = .error .unreadable := by
  have hvalid : isValid underscored = true := by decide
  have hnormal : normalizeValid underscored = .ok underscored :=
    normalizeValid_eq_ok.2 ⟨hvalid, by decide⟩
  have hlax : ¬ ∀ c ∈ underscored, ¬ Lax c := fun hplain =>
    hplain '_' (by decide) (.inl rfl)
  refine ⟨hvalid, fun h => hlax h.not_lax, hnormal, fun h => hlax h.not_lax, ?_⟩
  rw [bytes, hnormal]
  rfl

end Address

end SwapRelay
