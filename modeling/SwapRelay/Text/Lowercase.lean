import SwapRelay.Text
import SwapRelay.Text.Lowercase.Table

/-!
# Small letters

The full lower-casing of Unicode text. Every character has its own small form, of one character or
(for the dotted capital I) two, save the capital sigma, which is written in its final form at the
end of a word. On ASCII text the answer is the ASCII one, character by character:
`lowerAfter_ascii`.
-/

namespace SwapRelay.Text

/-- The small form of a character out of its surroundings. -/
def smallForm (c : Char) : List Char :=
  if c.toNat < 0x80 then [c.toLower]
  else if c = '\u0130' then ['i', '\u0307']
  else match caseRuns.find? (·.holds c.toNat) with
    | some run => [Char.ofNat (c.toNat + run.shift).toNat]
    | none => [c]

def inRanges (ranges : List (Nat × Nat)) (c : Char) : Bool :=
  ranges.any fun (low, high) => low ≤ c.toNat && c.toNat ≤ high

/-- The nearest character that is not passed over is a cased letter. -/
def meetsLetter (t : Text) : Bool :=
  match t.find? fun c => !inRanges ignorableRanges c with
  | some c => inRanges casedRanges c
  | none => false

/-- A capital sigma ends a word when a letter comes before it and none after. -/
def smallSigma (before after : Text) : Char :=
  if meetsLetter before && !meetsLetter after then '\u03c2' else '\u03c3'

/-- Lower-cases a text that follows the characters of `before`, nearest first. -/
def lowerAfter (before : Text) : Text → Text
  | [] => []
  | c :: rest =>
    let small := if c = '\u03a3' then [smallSigma before rest] else smallForm c
    small ++ lowerAfter (c :: before) rest

def lower (t : Text) : Text :=
  lowerAfter [] t

theorem lowerAfter_ascii {t : Text} (h : ∀ c ∈ t, c.toNat < 0x80) (before : Text) :
    lowerAfter before t = t.map Char.toLower := by
  induction t generalizing before with
  | nil => rfl
  | cons c rest ih =>
    have hc : c.toNat < 0x80 := h c (List.mem_cons_self ..)
    have hs : c ≠ '\u03a3' := by
      rintro rfl
      exact absurd hc (by decide)
    simp [lowerAfter, hs, smallForm, hc, ih fun d hd => h d (List.mem_cons_of_mem _ hd)]

/-- ASCII text is lower-cased character by character. -/
theorem lower_ascii {t : Text} (h : ∀ c ∈ t, c.toNat < 0x80) : lower t = t.map Char.toLower :=
  lowerAfter_ascii h []

end SwapRelay.Text
