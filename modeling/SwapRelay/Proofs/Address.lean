import SwapRelay.Address
import SwapRelay.Proofs.Outcome
import SwapRelay.Request.Check

/-!
# Addresses in whatever case

Two addresses that are the same in whatever case have one normal form and the same bytes. A text of
the form that requests have to match is not changed any further once it is in small letters, so it
may be compared before or after it is brought into normal form (`same_normalize`).
-/

namespace SwapRelay

namespace Address

theorem same_iff {a b : Text} : same a b = true ↔ Text.lower a = Text.lower b := by
  simp only [same]
  rw [beq_iff_eq]

theorem same_refl (a : Text) : same a a = true :=
  same_iff.2 rfl

theorem same_congr {a b t u : Text} (hab : same a b = true) (htu : same t u = true) :
    same a t = same b u := by
  simp only [same]
  rw [same_iff.1 hab, same_iff.1 htu]

theorem normalize_eq_of_same {a b : Text} (h : same a b = true) : normalize a = normalize b := by
  simp only [normalize]
  rw [same_iff.1 h]

theorem bytes_of_normalize_eq {a b : Text} (h : normalize a = normalize b) {bs : Bytes}
    (ha : bytes a = .ok bs) : bytes b = .ok bs := by
  simp only [bytes, normalizeValid] at *
  rw [h] at ha
  split at ha
  · cases ha
  · next normal hnormal =>
      split at hnormal
      · next hvalid =>
          rw [if_pos hvalid]
          cases hnormal
          exact ha
      · cases hnormal

theorem bytes_of_same {a b : Text} (h : same a b = true) {bs : Bytes} (ha : bytes a = .ok bs) :
    bytes b = .ok bs :=
  bytes_of_normalize_eq (normalize_eq_of_same h) ha

theorem getElem?_of_indexOf? {tokens : List Text} {token : Text} {i : Nat}
    (h : indexOf? tokens token = some i) : ∃ t, tokens[i]? = some t ∧ same t token = true := by
  have hplace := List.of_findIdx?_eq_some h
  split at hplace
  · next t ht => exact ⟨t, ht, hplace⟩
  · cases hplace

end Address

namespace Form

theorem lt_of_isDigit {c : Char} (h : Hex.isDigit c = true) : c.toNat < 0x80 := by
  simp only [Hex.isDigit, Hex.digitValue?] at h
  have hnat : ∀ {a b : Char}, a ≤ b → a.toNat ≤ b.toNat := fun h => h
  split at h
  · next hc => exact Nat.lt_of_le_of_lt (hnat hc.2) (by decide)
  · split at h
    · next hc => exact Nat.lt_of_le_of_lt (hnat hc.2) (by decide)
    · split at h
      · next hc => exact Nat.lt_of_le_of_lt (hnat hc.2) (by decide)
      · cases h

theorem toLower_ascii {c : Char} (h : c.toNat < 0x80) :
    c.toLower.toNat < 0x80 ∧ c.toLower.toLower = c.toLower :=
  Text.forall_ascii (P := fun c => c.toLower.toNat < 0x80 ∧ c.toLower.toLower = c.toLower)
    (by decide) h

theorem isMarked_of_holds {form : Form} {t : Text} (h : form.holds t = true) :
    Hex.isMarked t = true := by
  cases form with
  | bytes => exact h
  | address | poolId => exact (Bool.and_eq_true_iff.1 h).1

end Form

namespace Hex

theorem isMarked_iff {t : Text} :
    isMarked t = true ↔ ∃ digits, t = '0' :: 'x' :: digits ∧ digits.all isDigit = true := by
  constructor
  · intro h
    simp only [isMarked] at h
    split at h
    · next digits => exact ⟨digits, rfl, h⟩
    · cases h
  · rintro ⟨digits, rfl, h⟩
    exact h

theorem ascii_of_isMarked {t : Text} (h : isMarked t = true) : ∀ c ∈ t, c.toNat < 0x80 := by
  obtain ⟨digits, rfl, hdigits⟩ := isMarked_iff.1 h
  intro c hc
  rcases List.mem_cons.1 hc with rfl | hc
  · decide
  · rcases List.mem_cons.1 hc with rfl | hc
    · decide
    · exact Form.lt_of_isDigit (List.all_eq_true.1 hdigits c hc)

/-- Small letters are kept. -/
theorem lower_lower {t : Text} (h : isMarked t = true) :
    Text.lower (Text.lower t) = Text.lower t := by
  have hascii := ascii_of_isMarked h
  have hsmall : ∀ c ∈ t.map Char.toLower, c.toNat < 0x80 :=
    List.forall_mem_map.2 fun c hc => (Form.toLower_ascii (hascii c hc)).1
  rw [Text.lower_ascii hascii, Text.lower_ascii hsmall, List.map_map]
  exact List.map_congr_left fun c hc => (Form.toLower_ascii (hascii c hc)).2

end Hex

namespace Form

/-- A text of the form of an address is in normal form once it is in small letters. -/
theorem normalize_eq {t : Text} (h : Form.address.holds t = true) :
    Address.normalize t = Text.lower t := by
  have hmarked := isMarked_of_holds h
  have hlower := Text.lower_ascii (Hex.ascii_of_isMarked hmarked)
  obtain ⟨digits, rfl, -⟩ := Hex.isMarked_iff.1 hmarked
  rw [Address.normalize, hlower]
  rfl

theorem lower_normalize {t : Text} (h : Form.address.holds t = true) :
    Text.lower (Address.normalize t) = Text.lower t := by
  rw [normalize_eq h, Hex.lower_lower (isMarked_of_holds h)]

/-- An address is the same as one of the form that requests have to match, or as its normal form. -/
theorem same_normalize {a t : Text} (h : Form.address.holds t = true)
    (hsame : Address.same a t = true) : Address.same a (Address.normalize t) = true := by
  rw [Address.same_iff, lower_normalize h]
  exact Address.same_iff.1 hsame

theorem normalize_normalize {t : Text} (h : Form.address.holds t = true) :
    Address.normalize (Address.normalize t) = Address.normalize t := by
  apply Address.normalize_eq_of_same
  rw [Address.same_iff]
  exact lower_normalize h

theorem same_normalize_normalize {a t : Text} (ha : Form.address.holds a = true)
    (ht : Form.address.holds t = true) :
    Address.same (Address.normalize a) (Address.normalize t) = Address.same a t := by
  simp only [Address.same]
  rw [lower_normalize ha, lower_normalize ht]

end Form

end SwapRelay
