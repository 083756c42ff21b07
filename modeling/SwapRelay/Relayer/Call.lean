import SwapRelay.Abi.Encode
import SwapRelay.Error

/-!
# Calls of the relayer

The functions of the relayer's library that a route uses, each with its arguments in the order of
the contract. Accounts, pool ids and signatures are of type `Id`: a call is planned with `Id` as
text and written with `Id` as bytes. The data of a call is the selector of its function and then its
arguments.
-/

namespace SwapRelay

/-- Where a call takes funds from and where it sends them. -/
structure Funds (Id : Type) where
  sender : Id
  /-- Debit what the vault keeps for the sender, not the sender's own tokens. -/
  fromInternal : Bool
  recipient : Id
  /-- Let the vault keep the output for the recipient. -/
  toInternal : Bool
  deriving DecidableEq, Repr, Inhabited

/-- One swap of a batch; the amount may be a reference. -/
structure BatchStep (Id : Type) where
  poolId : Id
  assetIn : Int
  assetOut : Int
  amount : Int
  userData : Bytes
  deriving DecidableEq, Repr, Inhabited

structure BatchSwap (Id : Type) where
  kind : Int
  steps : List (BatchStep Id)
  assets : List Id
  funds : Funds Id
  /-- For each asset, the most that may go in, or the least that has to come out with its sign
  changed. -/
  limits : List Int
  deadline : Int
  value : Int
  /-- Pairs of an asset's place and the reference under which its amount is stored. -/
  outputs : List (Int × Int)
  deriving DecidableEq, Repr, Inhabited

structure PoolJoin (Id : Type) where
  poolId : Id
  kind : Int
  sender : Id
  recipient : Id
  assets : List Id
  maxAmounts : List Int
  userData : Bytes
  fromInternal : Bool
  value : Int
  /-- The reference under which the shares are stored, or zero. -/
  output : Int
  deriving DecidableEq, Repr, Inhabited

structure PoolExit (Id : Type) where
  poolId : Id
  kind : Int
  sender : Id
  recipient : Id
  assets : List Id
  minAmounts : List Int
  userData : Bytes
  toInternal : Bool
  outputs : List (Int × Int)
  deriving DecidableEq, Repr, Inhabited

/-- A call of the relayer's library. -/
inductive Call (Id : Type) where
  | batchSwap (args : BatchSwap Id)
  | joinPool (args : PoolJoin Id)
  | exitPool (args : PoolExit Id)
  | setRelayerApproval (relayer : Id) (approved : Bool) (authorisation : Id)
  | approveVault (token : Id) (amount : Int)
  | peekReference (value : Int)
  deriving DecidableEq, Repr, Inhabited

open Abi (Value)

def Abi.Value.addresses (accounts : List Bytes) : Value :=
  .array (accounts.map .address)

def Abi.Value.words (ns : List Int) : Value :=
  .array (ns.map (.uint 256))

/-- Places and the references stored for them. -/
def Abi.Value.outputs (pairs : List (Int × Int)) : Value :=
  .array (pairs.map fun (index, key) => .tuple [.uint 256 index, .uint 256 key])

namespace Call

/-- The first four bytes of the data: which function is called. -/
def selector : Call Bytes → Bytes
  | .batchSwap _ => [0x18, 0x36, 0x94, 0x46]
  | .joinPool _ => [0x8f, 0xe4, 0x62, 0x4f]
  | .exitPool _ => [0xd8, 0x09, 0x52, 0xd5]
  | .setRelayerApproval .. => [0x80, 0xdb, 0x15, 0xbd]
  | .approveVault .. => [0xb6, 0xd2, 0x47, 0x37]
  | .peekReference _ => [0xf3, 0xca, 0xb6, 0x85]

def arguments : Call Bytes → List Value
  | .batchSwap c => [
      .uint 8 c.kind,
      .array (c.steps.map fun s => .tuple [
        .word s.poolId, .uint 256 s.assetIn, .uint 256 s.assetOut, .uint 256 s.amount,
        .bytes s.userData]),
      .addresses c.assets,
      .tuple [
        .address c.funds.sender, .bool c.funds.fromInternal,
        .address c.funds.recipient, .bool c.funds.toInternal],
      .array (c.limits.map (.sint 256)),
      .uint 256 c.deadline,
      .uint 256 c.value,
      .outputs c.outputs]
  | .joinPool c => [
      .word c.poolId,
      .uint 8 c.kind,
      .address c.sender,
      .address c.recipient,
      .tuple [.addresses c.assets, .words c.maxAmounts, .bytes c.userData, .bool c.fromInternal],
      .uint 256 c.value,
      .uint 256 c.output]
  | .exitPool c => [
      .word c.poolId,
      .uint 8 c.kind,
      .address c.sender,
      .address c.recipient,
      .tuple [.addresses c.assets, .words c.minAmounts, .bytes c.userData, .bool c.toInternal],
      .outputs c.outputs]
  | .setRelayerApproval relayer approved authorisation =>
    [.address relayer, .bool approved, .bytes authorisation]
  | .approveVault token amount => [.address token, .uint 256 amount]
  | .peekReference value => [.uint 256 value]

def data (c : Call Bytes) : Bytes :=
  c.selector ++ Abi.encodeArguments c.arguments

/-- The call itself, if each of its arguments fits its form. -/
def checked (c : Call Bytes) : Except Error (Call Bytes) :=
  match Value.checkAll c.arguments with
  | .ok () => .ok c
  | .error fault => .error (.abi fault)

end Call

/-- The selector of the relayer's own function that carries out several calls. -/
def multicallSelector : Bytes := [0xac, 0x96, 0x50, 0xd8]

/-- The data of one call that carries out all the given ones, in order. -/
def multicall (calls : List Bytes) : Bytes :=
  multicallSelector ++ Abi.encodeArguments [.array (calls.map .bytes)]

end SwapRelay
