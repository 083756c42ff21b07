import SwapRelay.Proofs.Abi.Checks
import SwapRelay.Proofs.Abi.Words
import Mathlib.Data.List.Forall2

/-!
# Reading undoes writing

Arguments that have their forms and are within range are read back from their bytes:
`decodeArguments?_encodeArguments`. The offsets in a head are words, so this needs a bound on the
size, and the bound is only asked of the arguments as a whole.

`Reads` says of one value all that its surroundings need: whether it is kept in the tail, how much
of a head it takes, and that it is read back, whatever follows it. Each kind of value has a lemma
that gives `Reads` from that of its parts, and the layout of a tuple or an array is read by one
induction along its parts, `decodeAll?_layout`. It follows the cursor through the head. The offset at
the cursor is the place of the tail's next part, and what has been passed never matters again.
-/

namespace SwapRelay.Abi

/-! ## Words -/

theorem wordAt?_word {n : Nat} (h : n < Nat.pow 2 256) (rest : Bytes) :
    wordAt? (word n ++ rest) = some n := by
  have hlength := length_word n
  rw [wordAt?, if_pos (by rw [List.length_append]; omega), List.take_left' hlength,
    ofBigEndian_word, Nat.mod_eq_of_lt h]

theorem foldl_lt (bs : Bytes) (front : Nat) :
    bs.foldl (fun n b => n * 256 + b.toNat) front < (front + 1) * 256 ^ bs.length := by
  induction bs generalizing front with
  | nil => simp
  | cons b rest ih =>
      have hbyte : b.toNat < 256 := b.toNat_lt
      rw [List.foldl_cons, List.length_cons]
      calc
        _ < (front * 256 + b.toNat + 1) * 256 ^ rest.length := ih _
        _ ≤ ((front + 1) * 256) * 256 ^ rest.length := Nat.mul_le_mul_right _ (by omega)
        _ = (front + 1) * 256 ^ (rest.length + 1) := by ring

theorem ofBigEndian_lt (bs : Bytes) : ofBigEndian bs < 256 ^ bs.length := by
  have h := foldl_lt bs 0
  rwa [Nat.zero_add, Nat.one_mul] at h

theorem ofBigEndian_zeros_append (k : Nat) (bs : Bytes) :
    ofBigEndian (zeros k ++ bs) = ofBigEndian bs := by
  induction k with
  | zero => rfl
  | succ k ih =>
      rw [← ih]
      rfl

/-- Two's complement is undone within its range. -/
theorem signedWord_toNat {n : Int} (hlow : -(Nat.pow 2 255 : Int) ≤ n) (hhigh : n < Nat.pow 2 255) :
    signedWord (n % Nat.pow 2 256).toNat = n := by
  have hspan : Nat.pow 2 256 = 2 * Nat.pow 2 255 := by decide
  rw [signedWord, hspan]
  generalize Nat.pow 2 255 = half at *
  by_cases hneg : n < 0
  · have hmod : n % ((2 * half : Nat) : Int) = n + (2 * half : Nat) := by
      rw [← Int.add_emod_right, Int.emod_eq_of_lt (by omega) (by omega)]
    rw [hmod, if_neg (by omega)]
    omega
  · have hmod : n % ((2 * half : Nat) : Int) = n := Int.emod_eq_of_lt (by omega) (by omega)
    rw [hmod, if_pos (by omega)]
    omega

/-! ## Values that have a form -/

mutual

/-- The value has the form. Whether it is in the form's range is for `Value.check` to say, but a word
has to be full, for the zeros that fill it up cannot be told from its own. -/
inductive HasTy : Ty → Value → Prop
  | uint {bits : Nat} {n : Int} (h : bits ≤ 256) : HasTy (.uint bits) (.uint bits n)
  | sint {bits : Nat} {n : Int} (h : bits ≤ 256) : HasTy (.sint bits) (.sint bits n)
  | address {bs : Bytes} : HasTy .address (.address bs)
  | bool {b : Bool} : HasTy .bool (.bool b)
  | word {bs : Bytes} (h : bs.length = 32) : HasTy .word (.word bs)
  | bytes {bs : Bytes} : HasTy .bytes (.bytes bs)
  /-- Items that take up no bytes are left out: their number is bounded by nothing. -/
  | array {t : Ty} {items : List Value} (hsize : 0 < t.headSize) (h : ∀ v ∈ items, HasTy t v) :
    HasTy (.array t) (.array items)
  | tuple {ts : List Ty} {items : List Value} (h : HaveTys ts items) :
    HasTy (.tuple ts) (.tuple items)

inductive HaveTys : List Ty → List Value → Prop
  | nil : HaveTys [] []
  | cons {t : Ty} {v : Value} {ts : List Ty} {rest : List Value} (h : HasTy t v)
    (hrest : HaveTys ts rest) : HaveTys (t :: ts) (v :: rest)

end

/-- What the surroundings of a value have to know of it. -/
structure Reads (t : Ty) (v : Value) : Prop where
  isDynamic : v.isDynamic = t.isDynamic
  length : t.isDynamic = false → v.encode.length = t.headSize
  decode : v.encode.length < Nat.pow 2 256 → ∀ rest, Value.decode? t (v.encode ++ rest) = some v

/-! ## Layouts -/

theorem Ty.headSize_of_isDynamic {t : Ty} (h : t.isDynamic = true) : t.headSize = 32 := by
  cases t with
  | tuple ts =>
      show (if Ty.anyDynamic ts then 32 else Ty.headSizes ts) = 32
      exact if_pos h
  | _ => rfl

namespace Part

theorem length_heads (offset : Nat) (ps : List Part) : (heads offset ps).length = headsSize ps := by
  induction ps generalizing offset with
  | nil => rfl
  | cons p rest ih =>
      rw [heads, headsSize, headSize]
      split
      · rw [List.length_append, length_word, ih]
      · rw [List.length_append, ih]

theorem length_layout (ps : List Part) :
    (layout ps).length = headsSize ps + (tails ps).length := by
  rw [layout, List.length_append, length_heads]

end Part

theorem Reads.headSize {t : Ty} {v : Value} (h : Reads t v) :
    (⟨v.isDynamic, v.encode⟩ : Part).headSize = t.headSize := by
  rw [Part.headSize, h.isDynamic]
  cases hd : t.isDynamic with
  | true => exact (Ty.headSize_of_isDynamic hd).symm
  | false => exact h.length hd

section Layout

variable {ts : List Ty} {vs : List Value}

theorem parts_cons (v : Value) (rest : List Value) :
    Value.parts (v :: rest) = ⟨v.isDynamic, v.encode⟩ :: Value.parts rest :=
  rfl

theorem decodeAll?_cons (t : Ty) (rest : List Ty) (base cursor : Bytes) :
    Value.decodeAll? (t :: rest) base cursor =
      (partAt? t.isDynamic (Value.decode? t) base cursor).bind fun v =>
        (Value.decodeAll? rest base (cursor.drop t.headSize)).map (v :: ·) :=
  rfl

theorem anyDynamic_eq (h : List.Forall₂ Reads ts vs) : Value.anyDynamic vs = Ty.anyDynamic ts := by
  induction h with
  | nil => rfl
  | @cons t v ts vs hv _ ih =>
      show (v.isDynamic || Value.anyDynamic vs) = (t.isDynamic || Ty.anyDynamic ts)
      rw [hv.isDynamic, ih]

theorem headsSize_eq (h : List.Forall₂ Reads ts vs) :
    Part.headsSize (Value.parts vs) = Ty.headSizes ts := by
  induction h with
  | nil => rfl
  | @cons t v ts vs hv _ ih =>
      show (⟨v.isDynamic, v.encode⟩ : Part).headSize + Part.headsSize (Value.parts vs) =
        t.headSize + Ty.headSizes ts
      rw [hv.headSize, ih]

theorem tails_eq_nil (h : Value.anyDynamic vs = false) : Part.tails (Value.parts vs) = [] := by
  induction vs with
  | nil => rfl
  | cons v rest ih =>
      obtain ⟨hv, hrest⟩ := Bool.or_eq_false_iff.1 h
      rw [parts_cons, Part.tails, hv, if_neg Bool.false_ne_true, ih hrest]

/-- The parts of a layout are read back from a cursor at their place in the head, where `base` has
their tails at `offset`. -/
theorem decodeAll?_layout (h : List.Forall₂ Reads ts vs) {base cursor rest more : Bytes}
    {offset : Nat} (hcursor : cursor = Part.heads offset (Value.parts vs) ++ more)
    (hbase : base.drop offset = Part.tails (Value.parts vs) ++ rest)
    (hplace : Part.headsSize (Value.parts vs) ≤ offset)
    (hbound : offset + (Part.tails (Value.parts vs)).length < Nat.pow 2 256) :
    Value.decodeAll? ts base cursor = some vs := by
  induction h generalizing cursor offset with
  | nil => rfl
  | @cons t v ts vs hv _ ih =>
      have hsize := hv.headSize
      rw [parts_cons, Part.headsSize] at hplace
      rw [parts_cons, Part.heads] at hcursor
      rw [parts_cons, Part.tails] at hbase hbound
      rw [decodeAll?_cons, partAt?, ← hv.isDynamic]
      rw [Part.headSize] at hsize hplace
      cases hd : v.isDynamic with
      | true =>
          -- The word at the cursor is the offset of the part, which the tail starts with.
          simp only [hd, if_true] at hcursor hbase hbound hplace hsize ⊢
          rw [List.append_assoc] at hcursor hbase
          rw [List.length_append] at hbound
          have hread : Value.decode? t (base.drop offset) = some v := by
            rw [hbase]
            exact hv.decode (by omega) _
          have hnext : cursor.drop t.headSize =
              Part.heads (offset + v.encode.length) (Value.parts vs) ++ more := by
            rw [hcursor, ← hsize, List.drop_left' (length_word offset)]
          have htail : base.drop (offset + v.encode.length) =
              Part.tails (Value.parts vs) ++ rest := by
            rw [← List.drop_drop, hbase, List.drop_left' rfl]
          have hrest := ih hnext htail (by omega) (by omega)
          rw [hcursor, wordAt?_word (by omega), Option.bind_some, hread, Option.bind_some,
            ← hcursor, hrest, Option.map_some]
      | false =>
          simp only [hd, if_false, Bool.false_eq_true] at hcursor hbase hbound hplace hsize ⊢
          rw [List.append_assoc] at hcursor
          have hread : Value.decode? t cursor = some v := by
            rw [hcursor]
            exact hv.decode (by omega) _
          have hnext : cursor.drop t.headSize =
              Part.heads offset (Value.parts vs) ++ more := by
            rw [hcursor, ← hsize, List.drop_left' rfl]
          have hrest := ih hnext hbase (by omega) hbound
          rw [hread, Option.bind_some, hrest, Option.map_some]

/-- A layout as a whole is read back from its own start. -/
theorem decodeAll?_layout_append (h : List.Forall₂ Reads ts vs)
    (hbound : (Part.layout (Value.parts vs)).length < Nat.pow 2 256) (rest : Bytes) :
    Value.decodeAll? ts (Part.layout (Value.parts vs) ++ rest)
      (Part.layout (Value.parts vs) ++ rest) = some vs := by
  have hbase : (Part.layout (Value.parts vs) ++ rest).drop (Part.headsSize (Value.parts vs)) =
      Part.tails (Value.parts vs) ++ rest := by
    rw [Part.layout, List.append_assoc, List.drop_left' (Part.length_heads _ _)]
  have hcursor : Part.layout (Value.parts vs) ++ rest =
      Part.heads (Part.headsSize (Value.parts vs)) (Value.parts vs) ++
        (Part.tails (Value.parts vs) ++ rest) := by
    rw [Part.layout, List.append_assoc]
  rw [Part.length_layout] at hbound
  exact decodeAll?_layout h hcursor hbase (Nat.le_refl _) hbound

end Layout

/-! ## The kinds of values -/

theorem decode?_uint (bits : Nat) (buffer : Bytes) :
    Value.decode? (.uint bits) buffer =
      (uintAt? bits buffer).map fun n => .uint bits (n : Int) := by
  show (uintAt? bits buffer >>= fun n => pure (n : Int)).map (Value.uint bits) = _
  cases uintAt? bits buffer with
  | none => rfl
  | some n => rfl

theorem uintAt?_word {bits n : Nat} (hbits : bits ≤ 256) (h : n < Nat.pow 2 bits) (rest : Bytes) :
    uintAt? bits (word n ++ rest) = some n := by
  have hspan : Nat.pow 2 bits ≤ Nat.pow 2 256 := Nat.pow_le_pow_right (by decide) hbits
  rw [uintAt?, wordAt?_word (by omega), Option.filter_some, if_pos (decide_eq_true h)]

theorem partsAt?_eq (t : Ty) (base cursor : Bytes) (n : Nat) :
    partsAt? t.isDynamic t.headSize (Value.decode? t) base n cursor =
      Value.decodeAll? (List.replicate n t) base cursor := by
  induction n generalizing cursor with
  | zero => rfl
  | succ n ih => rw [partsAt?, ih, List.replicate_succ, decodeAll?_cons]

theorem length_le_headsSize {t : Ty} {items : List Value} (hsize : 0 < t.headSize)
    (h : ∀ v ∈ items, Reads t v) : items.length ≤ Part.headsSize (Value.parts items) := by
  induction items with
  | nil => exact Nat.zero_le _
  | cons v rest ih =>
      obtain ⟨hv, hrest⟩ := List.forall_mem_cons.1 h
      have hle := ih hrest
      rw [parts_cons, Part.headsSize, hv.headSize, List.length_cons]
      omega

namespace Reads

theorem uint {bits : Nat} {n : Int} (hbits : bits ≤ 256) (h : (Value.uint bits n).check = .ok ()) :
    Reads (.uint bits) (.uint bits n) := by
  obtain ⟨hpos, hlt⟩ := check_uint.1 h
  refine ⟨rfl, fun _ => length_word _, ?_⟩
  intro _ rest
  show Value.decode? (.uint bits) (Abi.word n.toNat ++ rest) = _
  rw [decode?_uint, uintAt?_word hbits (by omega), Option.map_some, Int.toNat_of_nonneg hpos]

theorem sint {bits : Nat} {n : Int} (hbits : bits ≤ 256) (h : (Value.sint bits n).check = .ok ()) :
    Reads (.sint bits) (.sint bits n) := by
  have hrange := check_sint.1 h
  have hspan : Nat.pow 2 (bits - 1) ≤ Nat.pow 2 255 :=
    Nat.pow_le_pow_right (by decide) (by omega)
  refine ⟨rfl, fun _ => length_word _, ?_⟩
  intro _ rest
  have hword : (n % Nat.pow 2 256).toNat < Nat.pow 2 256 := by
    have hpos : (0 : Int) < (Nat.pow 2 256 : Nat) := by decide
    have hlt := Int.emod_lt_of_pos n hpos
    have hnonneg := Int.emod_nonneg n (Int.ne_of_gt hpos)
    omega
  show (sintAt? bits (Abi.word (n % Nat.pow 2 256).toNat ++ rest)).map (Value.sint bits) = _
  rw [sintAt?, wordAt?_word hword, Option.map_some, signedWord_toNat (by omega) (by omega),
    Option.filter_some, if_pos (decide_eq_true hrange), Option.map_some]

theorem address {bs : Bytes} (h : (Value.address bs).check = .ok ()) :
    Reads .address (.address bs) := by
  have hlength := check_address.1 h
  have hencode : (Value.address bs).encode.length = 32 := by
    show (zeros (32 - bs.length) ++ bs).length = 32
    rw [List.length_append, zeros, List.length_replicate, hlength]
  refine ⟨rfl, fun _ => hencode, ?_⟩
  intro _ rest
  have hsmall : ofBigEndian ((Value.address bs).encode) < Nat.pow 2 160 := by
    have hlt := ofBigEndian_lt bs
    rw [hlength] at hlt
    show ofBigEndian (zeros (32 - bs.length) ++ bs) < Nat.pow 2 160
    rw [ofBigEndian_zeros_append]
    exact Nat.lt_of_lt_of_eq hlt (by decide)
  have hword : wordAt? ((Value.address bs).encode ++ rest) =
      some (ofBigEndian (Value.address bs).encode) := by
    rw [wordAt?, List.take_left' hencode, if_pos (by rw [List.length_append]; omega)]
  show (uintAt? 160 _).map (fun _ => Value.address ((List.take 32 _).drop 12)) = _
  rw [uintAt?, hword, Option.filter_some, if_pos (decide_eq_true hsmall), Option.map_some,
    List.take_left' hencode]
  show some (Value.address ((zeros (32 - bs.length) ++ bs).drop 12)) = _
  rw [hlength]
  rfl

theorem bool (b : Bool) : Reads .bool (.bool b) := by
  refine ⟨rfl, fun _ => length_word _, ?_⟩
  intro _ rest
  show (uintAt? 1 (Abi.word b.toNat ++ rest)).map (fun n => Value.bool (n == 1)) = _
  rw [uintAt?_word (by decide) (by cases b <;> decide), Option.map_some]
  cases b <;> rfl

theorem word {bs : Bytes} (h : bs.length = 32) : Reads .word (.word bs) := by
  have hencode : (Value.word bs).encode = bs := by
    show bs ++ zeros (32 - bs.length) = bs
    rw [h]
    exact List.append_nil bs
  refine ⟨rfl, fun _ => (congrArg List.length hencode).trans h, ?_⟩
  intro _ rest
  rw [hencode]
  show (wordAt? (bs ++ rest)).map (fun _ => Value.word ((bs ++ rest).take 32)) = _
  rw [wordAt?, if_pos (by rw [List.length_append]; omega), Option.map_some, List.take_left' h]

theorem bytes (bs : Bytes) : Reads .bytes (.bytes bs) := by
  refine ⟨rfl, fun hstatic => (by cases hstatic), ?_⟩
  intro hbound rest
  have hsize : bs.length < Nat.pow 2 256 := by
    have hbound : (Abi.word bs.length ++ padded bs).length < Nat.pow 2 256 := hbound
    rw [List.length_append, padded, List.length_append] at hbound
    omega
  show (bytesAt? (Abi.word bs.length ++ padded bs ++ rest)).map Value.bytes = _
  rw [bytesAt?, List.append_assoc, wordAt?_word hsize]
  simp only [List.drop_left' (length_word _), padded, List.append_assoc]
  rw [if_pos (by rw [List.length_append]; omega), List.take_left' rfl, Option.map_some]

theorem array {t : Ty} {items : List Value} (hsize : 0 < t.headSize)
    (h : ∀ v ∈ items, Reads t v) : Reads (.array t) (.array items) := by
  refine ⟨rfl, fun hstatic => (by cases hstatic), ?_⟩
  intro hbound rest
  have hall : List.Forall₂ Reads (List.replicate items.length t) items := by
    rw [List.forall₂_iff_get]
    refine ⟨List.length_replicate, ?_⟩
    intro i _ hi
    simp only [List.get_eq_getElem, List.getElem_replicate]
    exact h _ (List.getElem_mem _)
  have hcount := length_le_headsSize hsize h
  have hlayout : (Abi.word items.length ++ Part.layout (Value.parts items)).length <
      Nat.pow 2 256 := hbound
  rw [List.length_append] at hlayout
  have hheads := hlayout
  rw [Part.length_layout] at hheads
  have hencode : (Value.array items).encode ++ rest =
      Abi.word items.length ++ (Part.layout (Value.parts items) ++ rest) :=
    List.append_assoc _ _ _
  rw [hencode]
  show ((wordAt? _).bind fun n => (partsAt? t.isDynamic t.headSize (Value.decode? t)
    (List.drop 32 _) n (List.drop 32 _)).map Value.array) = _
  rw [wordAt?_word (by omega), Option.bind_some, List.drop_left' (length_word _), partsAt?_eq,
    decodeAll?_layout_append hall (by omega), Option.map_some]

theorem tuple {ts : List Ty} {items : List Value} (h : List.Forall₂ Reads ts items) :
    Reads (.tuple ts) (.tuple items) := by
  refine ⟨anyDynamic_eq h, ?_, ?_⟩
  · intro hstatic
    have hstatic : Ty.anyDynamic ts = false := hstatic
    show (Part.layout (Value.parts items)).length =
      if Ty.anyDynamic ts then 32 else Ty.headSizes ts
    rw [Part.length_layout, headsSize_eq h, tails_eq_nil ((anyDynamic_eq h).trans hstatic),
      if_neg (by rw [hstatic]; exact Bool.false_ne_true)]
    rfl
  · intro hbound rest
    show (Value.decodeAll? ts (Part.layout (Value.parts items) ++ rest)
      (Part.layout (Value.parts items) ++ rest)).map Value.tuple = _
    rw [decodeAll?_layout_append h hbound, Option.map_some]

end Reads

/-! ## Values of any form -/

mutual

theorem HasTy.reads {t : Ty} {v : Value} (h : HasTy t v) (hcheck : v.check = .ok ()) :
    Reads t v := by
  cases h with
  | uint hbits => exact .uint hbits hcheck
  | sint hbits => exact .sint hbits hcheck
  | address => exact .address hcheck
  | bool => exact .bool _
  | word hlength => exact .word hlength
  | bytes => exact .bytes _
  | array hsize hitems =>
      have hchecks := checkAll_eq_ok.1 (check_array.1 hcheck)
      exact .array hsize fun v hv => (hitems v hv).reads (hchecks v hv)
  | tuple hitems => exact .tuple (hitems.reads (check_tuple.1 hcheck))

theorem HaveTys.reads {ts : List Ty} {vs : List Value} (h : HaveTys ts vs)
    (hcheck : Value.checkAll vs = .ok ()) : List.Forall₂ Reads ts vs := by
  cases h with
  | nil => exact .nil
  | cons hv hrest =>
      obtain ⟨hfirst, hcheck⟩ := checkAll_cons.1 hcheck
      exact .cons (hv.reads hfirst) (hrest.reads hcheck)

end

/-- The arguments of a call are read back from their bytes. -/
theorem decodeArguments?_encodeArguments {ts : List Ty} {vs : List Value} (h : HaveTys ts vs)
    (hcheck : Value.checkAll vs = .ok ())
    (hbound : (encodeArguments vs).length < Nat.pow 2 256) :
    decodeArguments? ts (encodeArguments vs) = some vs := by
  have hread := decodeAll?_layout_append (h.reads hcheck) hbound []
  rwa [List.append_nil] at hread

end SwapRelay.Abi
