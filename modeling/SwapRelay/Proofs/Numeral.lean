import Mathlib.Data.List.DropRight
import SwapRelay.Proofs.Address.Bytes

/-!
# What is read as a hexadecimal integer

The reading of integers is lenient: blanks around the number are left out, digits may come from any
script, and underscores may stand between them. `Spaced` says what such digits look like without
going through the reader, and `isSome_digits?_iff` says that the reader takes exactly these. Of a
text that starts with the mark `0x`, everything after it counts as digits up to the blanks at the
end, and there an underscore may come first as well: `isSome_readHex_iff`.
-/

namespace SwapRelay

namespace Text

theorem trim_append {front blanks : Text} (hne : front ≠ [])
    (hfirst : isBlank (front.head hne) = false) (hlast : isBlank (front.getLast hne) = false)
    (hblanks : ∀ c ∈ blanks, isBlank c = true) : trim (front ++ blanks) = front := by
  have hkept : (front ++ blanks).dropWhile isBlank = front ++ blanks := by
    cases front with
    | nil => exact absurd rfl hne
    | cons c rest =>
        rw [List.head_cons] at hfirst
        rw [List.cons_append, List.dropWhile_cons, hfirst]
        rfl
  have hself : front.rdropWhile isBlank = front :=
    List.rdropWhile_eq_self_iff.2 fun _ hblank => Bool.false_ne_true (hlast.symm.trans hblank)
  rw [trim, trimOf, hkept, List.reverse_append, List.dropWhile_append_of_pos fun c hc =>
    hblanks c (List.mem_reverse.1 hc)]
  exact hself

end Text

namespace Numeral

/-- Digits, with underscores before some of them: no two underscores stand together, and none at the
end. -/
structure Spaced (base : Nat) (cs : List Char) : Prop where
  chars : ∀ c ∈ cs, c = '_' ∨ (digit? base c).isSome = true
  apart : cs.IsChain fun c d => c ≠ '_' ∨ d ≠ '_'
  last : ∃ c ∈ cs.getLast?, (digit? base c).isSome = true

theorem digit?_underscore (base : Nat) : digit? base '_' = none := by
  rfl

theorem ne_underscore_of_digit? {base : Nat} {c : Char} (h : (digit? base c).isSome = true) :
    c ≠ '_' := by
  rintro rfl
  rw [digit?_underscore] at h
  cases h

theorem not_spaced_nil {base : Nat} : ¬ Spaced base [] := by
  intro h
  obtain ⟨c, hc, -⟩ := h.last
  cases hc

theorem spaced_singleton {base : Nat} {c : Char} :
    Spaced base [c] ↔ (digit? base c).isSome = true := by
  constructor
  · intro h
    obtain ⟨d, hd, hdigit⟩ := h.last
    cases hd
    exact hdigit
  · intro h
    exact ⟨List.forall_mem_singleton.2 (.inr h), .singleton c, c, rfl, h⟩

theorem spaced_cons_cons {base : Nat} {c d : Char} {rest : List Char} :
    Spaced base (c :: d :: rest) ↔
      (c = '_' ∧ d ≠ '_' ∨ (digit? base c).isSome = true) ∧ Spaced base (d :: rest) := by
  constructor
  · intro h
    obtain ⟨hc, hrest⟩ := List.forall_mem_cons.1 h.chars
    obtain ⟨hcd, hchain⟩ := List.isChain_cons_cons.1 h.apart
    refine ⟨?_, hrest, hchain, h.last⟩
    rcases hc with rfl | hc
    · exact .inl ⟨rfl, hcd.resolve_left fun hne => hne rfl⟩
    · exact .inr hc
  · rintro ⟨hc, h⟩
    refine ⟨List.forall_mem_cons.2 ⟨hc.imp_left And.left, h.chars⟩,
      List.isChain_cons_cons.2 ⟨?_, h.apart⟩, h.last⟩
    rcases hc with ⟨-, hd⟩ | hc
    · exact .inr hd
    · exact .inl (ne_underscore_of_digit? hc)

theorem spaced_underscore {base : Nat} {cs : List Char} :
    Spaced base ('_' :: cs) ↔ Spaced base cs ∧ cs.head? ≠ some '_' := by
  cases cs with
  | nil => simp [spaced_singleton, digit?_underscore, not_spaced_nil]
  | cons d rest => simp [spaced_cons_cons, digit?_underscore, and_comm]

theorem isSome_digits?_cons_cons {base : Nat} {c d : Char} {rest : List Char} :
    (digits? base (c :: d :: rest)).isSome =
      ((digit? base c).isSome && (digits? base (if d = '_' then rest else d :: rest)).isSome) := by
  by_cases hd : d = '_'
  · subst hd
    rw [if_pos rfl, digits?]
    cases digit? base c <;> cases digits? base rest <;> rfl
  · rw [if_neg hd, digits?]
    · cases digit? base c <;> cases digits? base (d :: rest) <;> rfl
    · exact List.cons_ne_nil d rest
    · rintro more h
      exact hd (List.cons.inj h).1

/-- The reader takes the digits that are spaced as they should be, unless an underscore is first. -/
theorem isSome_digits?_iff {base : Nat} : ∀ {cs : List Char},
    (digits? base cs).isSome = true ↔ Spaced base cs ∧ cs.head? ≠ some '_'
  | [] => by simp [digits?, not_spaced_nil]
  | [c] => by
      have hne := @ne_underscore_of_digit? base c
      simp only [digits?, Option.isSome_map, spaced_singleton, List.head?_cons, ne_eq,
        Option.some.injEq]
      exact ⟨fun h => ⟨h, hne h⟩, And.left⟩
  | c :: d :: rest => by
      have hne := @ne_underscore_of_digit? base c
      rw [isSome_digits?_cons_cons, Bool.and_eq_true, spaced_cons_cons]
      by_cases hd : d = '_'
      · subst hd
        rw [if_pos rfl, isSome_digits?_iff, spaced_underscore]
        grind
      · rw [if_neg hd, isSome_digits?_iff]
        grind

theorem isSome_hexMagnitude?_iff {cs : List Char} :
    (hexMagnitude? ('0' :: 'x' :: cs)).isSome = true ↔ Spaced 16 cs := by
  rw [hexMagnitude?, Option.isSome_map, isSome_digits?_iff]
  cases cs with
  | nil => simp [dropHexMark, not_spaced_nil]
  | cons c rest =>
      by_cases hc : c = '_'
      · subst hc
        exact spaced_underscore.symm
      · simp [dropHexMark, hc]

/-- No digit of any script is a blank. -/
theorem isBlank_of_digit? {base : Nat} {c : Char} (h : (digit? base c).isSome = true) :
    Text.isBlank c = false := by
  have hblocks : ∀ z ∈ Text.digitZeros, ∀ k < 10, Text.isBlank (Char.ofNat (z + k)) = false := by
    decide +kernel
  obtain ⟨n, hn⟩ := Option.isSome_iff_exists.1 h
  obtain ⟨hvalue, -⟩ := Option.filter_eq_some_iff.1 hn
  by_cases hc : c.toNat < 0x80
  · exact Text.forall_ascii (P := fun c => ((Text.digitValue? c).or (letterValue? c)).isSome = true →
      Text.isBlank c = false) (by decide) hc (hvalue ▸ rfl)
  · -- Above ASCII there are no letters among the digits, and the digits are those of the blocks.
    have hbound : ∀ d : Char, d.toNat < 0x80 → ¬ c ≤ d := fun d hd hle =>
      hc (Nat.lt_of_le_of_lt hle hd)
    have hletter : letterValue? c = none := by
      rw [letterValue?, if_neg fun hcd => hbound 'z' (by decide) hcd.2,
        if_neg fun hcd => hbound 'Z' (by decide) hcd.2]
    rw [hletter, Option.or_none, Text.digitValue?, if_neg hc] at hvalue
    obtain ⟨z, hz, -⟩ := Option.map_eq_some_iff.1 hvalue
    have hin := List.find?_some hz
    simp only [Bool.and_eq_true, decide_eq_true_eq] at hin
    have hplace := hblocks z (List.mem_of_find?_eq_some hz) (c.toNat - z) (by omega)
    rwa [Nat.add_sub_cancel' hin.1, Char.ofNat_toNat] at hplace

/-- A text behind the mark is read up to the blanks at its end, if that leaves spaced digits. -/
theorem isSome_readHex_iff {rest : List Char} :
    (readHex ('0' :: 'x' :: rest)).isSome = true ↔
      ∃ digits blanks, rest = digits ++ blanks ∧ Spaced 16 digits ∧
        ∀ c ∈ blanks, Text.isBlank c = true := by
  have hread : ∀ {digits blanks : List Char}, (∀ c ∈ digits.getLast?, Text.isBlank c = false) →
      (∀ c ∈ blanks, Text.isBlank c = true) →
        ((readHex ('0' :: 'x' :: (digits ++ blanks))).isSome = true ↔ Spaced 16 digits) := by
    intro digits blanks hlast hblanks
    have htrim : Text.trim ('0' :: 'x' :: digits ++ blanks) = '0' :: 'x' :: digits := by
      apply Text.trim_append (List.cons_ne_nil _ _) rfl _ hblanks
      cases digits with
      | nil => decide
      | cons c more => exact hlast _ (List.getLast?_eq_some_getLast (List.cons_ne_nil c more))
    rw [readHex, ← List.cons_append, ← List.cons_append, htrim, ← isSome_hexMagnitude?_iff,
      ← Option.isSome_map (f := Int.ofNat)]
    rfl
  constructor
  · intro h
    have hsplit : rest.rdropWhile Text.isBlank ++ rest.rtakeWhile Text.isBlank = rest :=
      List.rdropWhile_append_rtakeWhile
    have hblanks : ∀ c ∈ rest.rtakeWhile Text.isBlank, Text.isBlank c = true :=
      fun c hc => List.mem_rtakeWhile_imp hc
    refine ⟨_, _, hsplit.symm, (hread ?_ hblanks).1 (hsplit.symm ▸ h), hblanks⟩
    intro c hc
    obtain ⟨hne, rfl⟩ := List.mem_getLast?_eq_getLast hc
    exact Bool.eq_false_iff.2 (List.rdropWhile_last_not Text.isBlank rest hne)
  · rintro ⟨digits, blanks, rfl, hdigits, hblanks⟩
    obtain ⟨last, hlast, hdigit⟩ := hdigits.last
    refine (hread ?_ hblanks).2 hdigits
    intro c hc
    cases hlast.symm.trans hc
    exact isBlank_of_digit? hdigit

end Numeral

end SwapRelay
