import SwapRelay.Abi.Encode

/-!
# Reading ABI values

The reader that belongs to `Value.encode`: given the form of a value, it takes the value from the
front of some bytes and pays no regard to what follows it. A part of a layout is found at its place
in the head, or, where its form is dynamic, at the offset that stands there, counted from the start
of the head. Words that are out of range for their form are refused.
-/

namespace SwapRelay.Abi

inductive Ty where
  | uint (bits : Nat)
  | sint (bits : Nat)
  | address
  | bool
  | word
  | bytes
  | array (item : Ty)
  | tuple (items : List Ty)
  deriving Repr, Inhabited

namespace Ty

mutual

/-- The lengths of the encodings of this form vary. -/
def isDynamic : Ty → Bool
  | .bytes => true
  | .array _ => true
  | .tuple items => anyDynamic items
  | _ => false

def anyDynamic : List Ty → Bool
  | [] => false
  | t :: rest => t.isDynamic || anyDynamic rest

end

mutual

/-- What a value of this form takes up in a head. -/
def headSize : Ty → Nat
  | .tuple items => if anyDynamic items then 32 else headSizes items
  | _ => 32

def headSizes : List Ty → Nat
  | [] => 0
  | t :: rest => t.headSize + headSizes rest

end

end Ty

/-- The number that bytes write, the most significant first. -/
def ofBigEndian (bs : Bytes) : Nat :=
  bs.foldl (fun n b => n * 256 + b.toNat) 0

def wordAt? (buffer : Bytes) : Option Nat :=
  if 32 ≤ buffer.length then some (ofBigEndian (buffer.take 32)) else none

/-- The integer that a word writes in two's complement. -/
def signedWord (n : Nat) : Int :=
  if n < Nat.pow 2 255 then n else (n : Int) - Nat.pow 2 256

/-- The number in the word at the front, if it has at most so many bits. -/
def uintAt? (bits : Nat) (buffer : Bytes) : Option Nat :=
  (wordAt? buffer).filter (· < Nat.pow 2 bits)

/-- The integer in the word at the front, if it has at most so many bits. -/
def sintAt? (bits : Nat) (buffer : Bytes) : Option Int :=
  ((wordAt? buffer).map signedWord).filter fun n =>
    -(Nat.pow 2 (bits - 1) : Int) ≤ n ∧ n < Nat.pow 2 (bits - 1)

def bytesAt? (buffer : Bytes) : Option Bytes :=
  match wordAt? buffer with
  | some n => if n ≤ (buffer.drop 32).length then some ((buffer.drop 32).take n) else none
  | none => none

/-- The part of a layout whose place in the head is at the front of `cursor`. -/
def partAt? (dynamic : Bool) (read : Bytes → Option α) (base cursor : Bytes) : Option α :=
  if dynamic then (wordAt? cursor).bind fun offset => read (base.drop offset) else read cursor

def partsAt? (dynamic : Bool) (size : Nat) (read : Bytes → Option α) (base : Bytes) :
    Nat → Bytes → Option (List α)
  | 0, _ => some []
  | n + 1, cursor =>
    (partAt? dynamic read base cursor).bind fun v =>
      (partsAt? dynamic size read base n (cursor.drop size)).map (v :: ·)

mutual

def Value.decode? : Ty → Bytes → Option Value
  | .uint bits, buffer => (uintAt? bits buffer).map fun n => .uint bits n
  | .sint bits, buffer => (sintAt? bits buffer).map (.sint bits)
  | .address, buffer => (uintAt? 160 buffer).map fun _ => .address ((buffer.take 32).drop 12)
  | .bool, buffer => (uintAt? 1 buffer).map fun n => .bool (n == 1)
  | .word, buffer => (wordAt? buffer).map fun _ => .word (buffer.take 32)
  | .bytes, buffer => (bytesAt? buffer).map .bytes
  | .array item, buffer =>
    (wordAt? buffer).bind fun n =>
      (partsAt? item.isDynamic item.headSize (Value.decode? item) (buffer.drop 32) n
        (buffer.drop 32)).map .array
  | .tuple items, buffer => (Value.decodeAll? items buffer buffer).map .tuple

/-- The values of several forms, laid out from `base` on, the first of them at `cursor`. -/
def Value.decodeAll? : List Ty → Bytes → Bytes → Option (List Value)
  | [], _, _ => some []
  | t :: rest, base, cursor =>
    (partAt? t.isDynamic (Value.decode? t) base cursor).bind fun v =>
      (Value.decodeAll? rest base (cursor.drop t.headSize)).map (v :: ·)

end

def decodeArguments? (types : List Ty) (data : Bytes) : Option (List Value) :=
  Value.decodeAll? types data data

example : (decodeArguments? [.uint 8, .array (.tuple [.bool, .bytes])]
      (encodeArguments [.uint 8 5, .array [.tuple [.bool true, .bytes [1, 2]]]])).map
        encodeArguments =
    some (encodeArguments [.uint 8 5, .array [.tuple [.bool true, .bytes [1, 2]]]]) := by
  decide +kernel

end SwapRelay.Abi
