import SwapRelay.Proofs.Outcome
import SwapRelay.Reference

/-!
# Tagged values stand for references and for nothing else

The value of a reference carries its tag, and from the value the reference can be read again, so
two references with one value are the same. A literal amount that gets into call data carries no
tag. Taken together, `Amount.chained_of_isReference` holds: where a tagged value was written for an
amount, the amount was a reference.
-/

namespace SwapRelay

namespace Reference

theorem keySpan_eq :
    keySpan = 1766847064778384329583297500742918515827483896875618958121606201292619776 := by decide

theorem keySpan_pos : 0 < keySpan := by
  rw [keySpan_eq]
  decide

/-- Tagged numbers lie between the least key of the one flavour and the greatest of the other. -/
theorem isReference_iff {n : Int} :
    isReference n = true ↔ 0xBA10 * keySpan ≤ n ∧ n < 0xBA12 * keySpan := by
  have hspan := keySpan_pos
  have hmax : Uint256.max = 65536 * keySpan - 1 := by decide
  rw [← Int.le_ediv_iff_mul_le hspan, ← Int.ediv_lt_iff_lt_mul hspan]
  simp only [isReference, tag, Bool.and_eq_true, Bool.or_eq_true, decide_eq_true_eq, beq_iff_eq,
    if_true, Bool.false_eq_true, if_false]
  constructor
  · rintro ⟨-, htag | htag⟩ <;> omega
  · rintro ⟨hlow, hhigh⟩
    have hleast := Int.mul_le_of_le_ediv hspan hlow
    have hmost := Int.lt_mul_of_ediv_lt hspan hhigh
    omega

theorem value_eq_ok {r : Reference} {v : Int} :
    r.value = .ok v ↔ (0 ≤ r.key ∧ r.key < keySpan) ∧ tag r.temporary * keySpan + r.key = v := by
  simp only [value]
  split
  · next h => simp [h]
  · next h => simp [h]

/-- The upper bits of a reference's value are its tag. -/
theorem tag_of_value {r : Reference} {v : Int} (h : r.value = .ok v) :
    v / keySpan = tag r.temporary := by
  obtain ⟨⟨hlow, hhigh⟩, rfl⟩ := value_eq_ok.1 h
  rw [Int.add_comm, Int.add_mul_ediv_right _ _ (Int.ne_of_gt keySpan_pos),
    Int.ediv_eq_zero_of_lt hlow hhigh, Int.zero_add]

theorem key_of_value {r : Reference} {v : Int} (h : r.value = .ok v) : v % keySpan = r.key := by
  obtain ⟨⟨hlow, hhigh⟩, rfl⟩ := value_eq_ok.1 h
  rw [Int.add_comm, Int.add_mul_emod_self_right, Int.emod_eq_of_lt hlow hhigh]

theorem isReference_of_value {r : Reference} {v : Int} (h : r.value = .ok v) :
    isReference v = true := by
  obtain ⟨⟨hlow, hhigh⟩, rfl⟩ := value_eq_ok.1 h
  rw [isReference_iff]
  cases r.temporary <;> simp only [tag, Bool.false_eq_true, if_false, if_true] <;> omega

theorem ofValue_of_value {r : Reference} {v : Int} (h : r.value = .ok v) : ofValue v = .ok r := by
  have htag := tag_of_value h
  have hflavour : (v / keySpan == tag true) = r.temporary := by
    rw [htag]
    cases r.temporary <;> rfl
  unfold ofValue
  rw [if_pos (isReference_of_value h)]
  dsimp only
  rw [hflavour, keyOf, if_pos htag, key_of_value h]
  rfl

theorem eq_of_value {r s : Reference} {v : Int} (hr : r.value = .ok v) (hs : s.value = .ok v) :
    r = s := by
  have h := (ofValue_of_value hr).symm.trans (ofValue_of_value hs)
  exact Except.ok.inj h

end Reference

namespace Amount

/-- A literal is written as it is, and only if it carries no tag. -/
theorem resolve_literal_eq_ok {n v : Int} :
    (literal n).resolve = .ok v ↔
      n = v ∧ (0 ≤ n ∧ n ≤ Uint256.max) ∧ Reference.isReference n = false := by
  unfold resolve
  dsimp only
  split
  · next h =>
      simp only [reduceCtorEq, false_iff, not_and]
      intro _ h'
      omega
  · next h =>
      split
      · next htag => simp [htag]
      · next htag =>
          rw [Except.ok.injEq]
          simp only [Bool.not_eq_true] at htag
          exact ⟨fun hv => ⟨hv, by omega, htag⟩, fun hv => hv.1⟩

theorem chained_of_isReference {a : Amount} {v : Int} (h : a.resolve = .ok v)
    (htag : Reference.isReference v = true) : ∃ r, a = .chained r ∧ r.value = .ok v := by
  cases a with
  | literal n =>
      obtain ⟨rfl, -, hfree⟩ := resolve_literal_eq_ok.1 h
      rw [hfree] at htag
      exact absurd htag (by decide)
  | chained r => exact ⟨r, rfl, h⟩

end Amount

end SwapRelay
