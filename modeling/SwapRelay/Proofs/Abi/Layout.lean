import SwapRelay.Proofs.Abi.RoundTrip

/-!
# One number among the arguments of a call

A part that is not kept in the tail takes its bytes straight into the head. Where it stands depends
on what is in front of it only, and the offsets behind it depend on how many bytes it takes but not
on what they are. So the arguments of a call can be written once and for all around a number that is
not known yet, as `exists_encodeArguments` says: one word is left open, and nothing else moves.
-/

namespace SwapRelay.Abi

namespace Part

theorem headsSize_append (ps qs : List Part) :
    headsSize (ps ++ qs) = headsSize ps + headsSize qs := by
  induction ps with
  | nil => exact (Nat.zero_add _).symm
  | cons p rest ih => rw [List.cons_append, headsSize, headsSize, ih, Nat.add_assoc]

theorem tails_append (ps qs : List Part) : tails (ps ++ qs) = tails ps ++ tails qs := by
  induction ps with
  | nil => rfl
  | cons p rest ih =>
      rw [List.cons_append, tails, tails, ih]
      split
      · rw [List.append_assoc]
      · rfl

/-- The offsets go on where the tails in front end. -/
theorem heads_append (offset : Nat) (ps qs : List Part) :
    heads offset (ps ++ qs) = heads offset ps ++ heads (offset + (tails ps).length) qs := by
  induction ps generalizing offset with
  | nil => rfl
  | cons p rest ih =>
      rw [List.cons_append, heads, heads, tails]
      split
      · rw [ih, List.append_assoc, List.length_append, Nat.add_assoc]
      · rw [ih, List.append_assoc]

/-- Around a part of a known size in the head, a layout is the same whatever bytes stand there. -/
theorem exists_layout (front back : List Part) (size : Nat) :
    ∃ before after, before.length = headsSize front ∧ ∀ body, body.length = size →
      layout (front ++ ⟨false, body⟩ :: back) = before ++ body ++ after := by
  let start := headsSize front + (size + headsSize back)
  refine ⟨heads start front, heads (start + (tails front).length) back ++
    (tails front ++ tails back), length_heads _ _, ?_⟩
  intro body hsize
  have hstart : headsSize (front ++ ⟨false, body⟩ :: back) = start := by
    rw [headsSize_append, headsSize, headSize, if_neg Bool.false_ne_true, hsize]
  have htails : tails (front ++ ⟨false, body⟩ :: back) = tails front ++ tails back := by
    rw [tails_append, tails, if_neg Bool.false_ne_true]
  rw [layout, hstart, htails, heads_append, heads, if_neg Bool.false_ne_true]
  simp only [List.append_assoc]

end Part

theorem parts_append (vs ws : List Value) :
    Value.parts (vs ++ ws) = Value.parts vs ++ Value.parts ws := by
  induction vs with
  | nil => rfl
  | cons v rest ih => rw [List.cons_append, parts_cons, parts_cons, ih, List.cons_append]

/-- A number among the arguments of a call takes up one word, and shows nowhere else. -/
theorem exists_encodeArguments (front back : List Value) (bits : Nat) :
    ∃ before after, before.length = Part.headsSize (Value.parts front) ∧ ∀ n : Int,
      encodeArguments (front ++ .uint bits n :: back) = before ++ word n.toNat ++ after := by
  obtain ⟨before, after, hlength, hlayout⟩ :=
    Part.exists_layout (Value.parts front) (Value.parts back) 32
  refine ⟨before, after, hlength, ?_⟩
  intro n
  show Part.layout (Value.parts (front ++ .uint bits n :: back)) = _
  rw [parts_append, parts_cons]
  exact hlayout (word n.toNat) (length_word _)

/-- Among the arguments, one that fits its form can stand for another one that does. -/
theorem checkAll_exchange {v w : Value} (hv : v.check = .ok ()) (hw : w.check = .ok ())
    (front back : List Value) :
    Value.checkAll (front ++ v :: back) = Value.checkAll (front ++ w :: back) := by
  induction front with
  | nil =>
      rw [List.nil_append, List.nil_append, checkAll_cons_of_ok hv, checkAll_cons_of_ok hw]
  | cons u rest ih => rw [List.cons_append, List.cons_append, Value.checkAll, Value.checkAll, ih]

end SwapRelay.Abi
