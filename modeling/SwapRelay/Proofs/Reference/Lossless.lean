import SwapRelay.Proofs.Reference.Tags
import SwapRelay.Proofs.Uint256

/-!
# A word is one amount

References and plain amounts share the words of call data, and none of them is lost in there. The
tagged numbers are an interval, the keys of the one flavour below those of the other
(`isReference_iff`), and each of them is the value of one reference (`ofValue_eq_ok`). All other
words are literals. So an amount can be told from its word, `Amount.resolve_eq_ok`, from which it
follows that no two amounts are written alike.
-/

namespace SwapRelay

namespace Reference

def Fits (r : Reference) : Prop :=
  0 ≤ r.key ∧ r.key < keySpan

theorem fits_of_value {r : Reference} {v : Int} (h : r.value = .ok v) : Uint256.Fits v := by
  have htag := isReference_of_value h
  simp only [isReference, Bool.and_eq_true, decide_eq_true_eq] at htag
  exact ⟨htag.1.1, Uint256.lt_iff_le_max.2 htag.1.2⟩

theorem exists_value {r : Reference} (h : r.Fits) : ∃ v, r.value = .ok v ∧ Uint256.Fits v :=
  ⟨_, value_eq_ok.2 ⟨h, rfl⟩, fits_of_value (value_eq_ok.2 ⟨h, rfl⟩)⟩

theorem exists_value_iff {r : Reference} : (∃ v, r.value = .ok v) ↔ r.Fits := by
  constructor
  · rintro ⟨v, hv⟩
    exact (value_eq_ok.1 hv).1
  · intro h
    obtain ⟨v, hv, -⟩ := exists_value h
    exact ⟨v, hv⟩

theorem Fits.readOnly {r : Reference} (h : r.Fits) : r.readOnly.Fits := h

/-- A number of the given flavour is the value of the reference whose key is read from it. -/
theorem keyOf_eq_ok {temporary : Bool} {v key : Int} :
    keyOf temporary v = .ok key ↔ value ⟨key, temporary⟩ = .ok v := by
  constructor
  · intro h
    simp only [keyOf] at h
    split at h
    · next htag =>
        cases h
        refine value_eq_ok.2 ⟨⟨?_, Int.emod_lt_of_pos v keySpan_pos⟩, ?_⟩
        · exact Int.emod_nonneg v (Int.ne_of_gt keySpan_pos)
        · rw [← htag]
          exact Int.ediv_mul_add_emod v keySpan
    · cases h
  · intro h
    have htag : v / keySpan = tag temporary := tag_of_value h
    have hkey : v % keySpan = key := key_of_value h
    rw [keyOf, if_pos htag, hkey]

theorem ofValue_eq_ok {r : Reference} {v : Int} : ofValue v = .ok r ↔ r.value = .ok v := by
  refine ⟨fun h => ?_, ofValue_of_value⟩
  simp only [ofValue] at h
  split at h
  · obtain ⟨key, hkey, rfl⟩ := Except.map_eq_ok.1 h
    exact keyOf_eq_ok.1 hkey
  · cases h

theorem isReference_iff_exists {v : Int} :
    isReference v = true ↔ ∃ r : Reference, r.value = .ok v := by
  constructor
  · intro h
    have htag : v / keySpan = tag true ∨ v / keySpan = tag false := by
      simp only [isReference, Bool.and_eq_true, Bool.or_eq_true, beq_iff_eq] at h
      exact h.2
    have hread : ∀ {temporary : Bool}, v / keySpan = tag temporary →
        ∃ r : Reference, r.value = .ok v := by
      intro temporary htag
      exact ⟨⟨v % keySpan, temporary⟩, keyOf_eq_ok.1 (if_pos htag)⟩
    exact htag.elim hread hread
  · rintro ⟨r, hr⟩
    exact isReference_of_value hr

end Reference

namespace Amount

def Fits : Amount → Prop
  | .literal n => Uint256.Fits n
  | .chained r => r.Fits

/-- An amount that fits is written, unless it is a literal that carries a tag. -/
theorem endsIn_resolve {a : Amount} (h : a.Fits) :
    a.resolve.EndsIn Uint256.Fits fun e =>
      ∃ n, a = .literal n ∧ Reference.isReference n = true ∧ e = .route (.amountTagged n) := by
  cases a with
  | chained r =>
      obtain ⟨v, hv, hfits⟩ := Reference.exists_value h
      exact .of_eq_ok hv hfits
  | literal n =>
      have hrange : ¬ (n < 0 ∨ Uint256.max < n) := by
        have hle := Uint256.lt_iff_le_max.1 h.2
        have hpos := h.1
        omega
      cases htag : Reference.isReference n with
      | true =>
          refine .of_eq_error ?_ ⟨n, rfl, htag, rfl⟩
          simp only [resolve, if_neg hrange, htag, if_true]
      | false =>
          refine .of_eq_ok (a := n) ?_ h
          simp only [resolve, if_neg hrange, htag, if_false, Bool.false_eq_true]

/-- The amount that a word of call data stands for. -/
def ofWord (n : Int) : Amount :=
  match Reference.ofValue n with
  | .ok r => .chained r
  | .error _ => .literal n

theorem ofWord_of_value {r : Reference} {v : Int} (h : r.value = .ok v) :
    ofWord v = .chained r := by
  rw [ofWord, Reference.ofValue_of_value h]

theorem ofWord_of_untagged {v : Int} (h : Reference.isReference v = false) :
    ofWord v = .literal v := by
  rw [ofWord, Reference.ofValue, h]
  rfl

/-- What is written for an amount is a word that stands for it, and each word is written for the
amount that it stands for. -/
theorem resolve_eq_ok {a : Amount} {v : Int} :
    a.resolve = .ok v ↔ Uint256.Fits v ∧ ofWord v = a := by
  cases a with
  | chained r =>
      constructor
      · intro h
        exact ⟨Reference.fits_of_value h, ofWord_of_value h⟩
      · rintro ⟨-, h⟩
        rw [ofWord] at h
        split at h
        · next s hs =>
            cases h
            exact Reference.ofValue_eq_ok.1 hs
        · cases h
  | literal n =>
      rw [resolve_literal_eq_ok]
      constructor
      · rintro ⟨rfl, ⟨hlow, hhigh⟩, hfree⟩
        exact ⟨⟨hlow, Uint256.lt_iff_le_max.2 hhigh⟩, ofWord_of_untagged hfree⟩
      · rintro ⟨⟨hlow, hhigh⟩, h⟩
        cases htag : Reference.isReference v with
        | true =>
            obtain ⟨r, hr⟩ := Reference.isReference_iff_exists.1 htag
            rw [ofWord_of_value hr] at h
            cases h
        | false =>
            rw [ofWord_of_untagged htag] at h
            cases h
            exact ⟨rfl, ⟨hlow, Uint256.lt_iff_le_max.1 hhigh⟩, htag⟩

theorem isReference_of_resolve {a : Amount} {v : Int} (h : a.resolve = .ok v) :
    Reference.isReference v = true ↔ ∃ r, a = .chained r := by
  constructor
  · intro htag
    obtain ⟨r, hr, -⟩ := chained_of_isReference h htag
    exact ⟨r, hr⟩
  · rintro ⟨r, rfl⟩
    exact Reference.isReference_of_value h

theorem resolve_literal_eq_error {n : Int} {e : Error} :
    (literal n).resolve = .error e ↔
      (n < 0 ∨ Uint256.max < n) ∧ e = .route (.amountRange n) ∨
        Reference.isReference n = true ∧ e = .route (.amountTagged n) := by
  have hrange : Reference.isReference n = true → ¬ (n < 0 ∨ Uint256.max < n) := by
    intro h
    simp only [Reference.isReference, Bool.and_eq_true, decide_eq_true_eq] at h
    omega
  simp only [resolve]
  split
  · next hout =>
      have hfree : ¬ Reference.isReference n = true := fun htag => hrange htag hout
      simp [hout, hfree, eq_comm]
  · next hin =>
      split
      · next htag => simp [hin, htag, eq_comm]
      · next htag => simp [hin, htag]

end Amount

/-- References are tagged numbers and are read back from them, and no literal is taken for one. -/
theorem Reference.values_lossless :
    (∀ r : Reference, (∃ v, r.value = .ok v) ↔ 0 ≤ r.key ∧ r.key < Nat.pow 2 240) ∧
      (∀ (r : Reference) (v : Int), r.value = .ok v ↔ ofValue v = .ok r) ∧
      (∀ v : Int, isReference v = true ↔ ∃ r : Reference, r.value = .ok v) ∧
      (∀ v : Int, isReference v = true ↔
        0xBA10 * Nat.pow 2 240 ≤ v ∧ v < 0xBA12 * Nat.pow 2 240) ∧
      (∀ (temporary : Bool) (v key : Int),
        keyOf temporary v = .ok key ↔ value ⟨key, temporary⟩ = .ok v) ∧
      (∀ (a : Amount) (v : Int), a.resolve = .ok v →
        Uint256.Fits v ∧ (isReference v = true ↔ ∃ r, a = .chained r)) ∧
      (∀ (a b : Amount) (v : Int), a.resolve = .ok v → b.resolve = .ok v → a = b) ∧
      ∀ (n : Int) (e : Error), (Amount.literal n).resolve = .error e ↔
        (n < 0 ∨ Uint256.max < n) ∧ e = .route (.amountRange n) ∨
          isReference n = true ∧ e = .route (.amountTagged n) := by
  refine ⟨fun r => exists_value_iff, fun r v => ofValue_eq_ok.symm,
    fun v => isReference_iff_exists, fun v => isReference_iff, fun temporary v key => keyOf_eq_ok,
    fun a v h => ?_, fun a b v ha hb => ?_, fun n e => Amount.resolve_literal_eq_error⟩
  · exact ⟨(Amount.resolve_eq_ok.1 h).1, Amount.isReference_of_resolve h⟩
  · exact (Amount.resolve_eq_ok.1 ha).2.symm.trans (Amount.resolve_eq_ok.1 hb).2

/-- The greatest tagged number is a reference, and the next number is a literal. -/
theorem Reference.values_lossless_lastKey :
    let last : Reference := ⟨keySpan - 1, false⟩
    let bound : Int := 0xBA12 * keySpan
    (Amount.chained last).resolve = .ok (bound - 1) ∧ ofValue (bound - 1) = .ok last ∧
      Uint256.Fits (bound - 1) ∧ isReference (bound - 1) = true ∧
      (Amount.literal bound).resolve = .ok bound ∧ isReference bound = false ∧
      ∀ b : Amount, b.resolve = .ok bound → b = .literal bound := by
  obtain ⟨-, hinverse, -, -, -, hword, hunique, -⟩ := values_lossless
  have hlast : (Amount.chained ⟨keySpan - 1, false⟩).resolve = .ok (0xBA12 * keySpan - 1) :=
    value_eq_ok.2 ⟨by decide, by decide⟩
  have hnext : (Amount.literal (0xBA12 * keySpan)).resolve = .ok (0xBA12 * keySpan) :=
    Amount.resolve_literal_eq_ok.2 ⟨rfl, by decide, by decide⟩
  obtain ⟨hfits, htag⟩ := hword _ _ hlast
  exact ⟨hlast, (hinverse _ _).1 hlast, hfits, htag.2 ⟨_, rfl⟩, hnext, by decide,
    fun b hb => hunique _ _ _ hb hnext⟩

end SwapRelay
