import SwapRelay.Abi.Value

/-!
# Writing ABI values

The standard head and tail layout. Every scalar takes a word of 32 bytes. The parts of a tuple, and
the items of an array behind their count, are laid out in two stretches: the head holds the static
parts and, for each dynamic part, the offset of its bytes from the start of the head; the tail holds
the dynamic parts in order.
-/

namespace SwapRelay.Abi

/-- The low `k` bytes of `n`, the most significant first. -/
def bigEndian : Nat → Nat → Bytes
  | 0, _ => []
  | k + 1, n => UInt8.ofNat (n / Nat.pow 256 k) :: bigEndian k n

def word (n : Nat) : Bytes :=
  bigEndian 32 n

def zeros (n : Nat) : Bytes :=
  List.replicate n 0

def padded (bytes : Bytes) : Bytes :=
  bytes ++ zeros ((32 - bytes.length % 32) % 32)

/-- One part of a layout, already written. -/
structure Part where
  dynamic : Bool
  body : Bytes
  deriving DecidableEq, Repr

namespace Part

def headSize (p : Part) : Nat :=
  if p.dynamic then 32 else p.body.length

def headsSize : List Part → Nat
  | [] => 0
  | p :: rest => p.headSize + headsSize rest

/-- The head, where the next dynamic part starts at `offset`. -/
def heads : Nat → List Part → Bytes
  | _, [] => []
  | offset, p :: rest =>
    if p.dynamic then word offset ++ heads (offset + p.body.length) rest
    else p.body ++ heads offset rest

def tails : List Part → Bytes
  | [] => []
  | p :: rest => if p.dynamic then p.body ++ tails rest else tails rest

def layout (parts : List Part) : Bytes :=
  heads (headsSize parts) parts ++ tails parts

end Part

namespace Value

mutual

def encode : Value → Bytes
  | .uint _ n => Abi.word n.toNat
  | .sint _ n => Abi.word (n % Nat.pow 2 256).toNat
  | .address bs => zeros (32 - bs.length) ++ bs
  | .bool b => Abi.word b.toNat
  | .word bs => bs ++ zeros (32 - bs.length)
  | .bytes bs => Abi.word bs.length ++ padded bs
  | .array items => Abi.word items.length ++ Part.layout (parts items)
  | .tuple items => Part.layout (parts items)

def parts : List Value → List Part
  | [] => []
  | v :: rest => ⟨v.isDynamic, v.encode⟩ :: parts rest

end

end Value

def encodeArguments (args : List Value) : Bytes :=
  (Value.tuple args).encode

/-- The bytes of the arguments of a call, if each of them fits its form. -/
def write (args : List Value) : Except Fault Bytes :=
  match Value.checkAll args with
  | .ok () => .ok (encodeArguments args)
  | .error e => .error e

example : encodeArguments [.uint 256 5, .bytes [1]] =
    word 5 ++ word 64 ++ word 1 ++ (1 :: zeros 31) := by decide

end SwapRelay.Abi
