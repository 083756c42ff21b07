import SwapRelay.Abi.Decode
import SwapRelay.Pool.UserData
import SwapRelay.Relayer.Call

/-!
# Reading call data

What the relayer, the vault and the pools see in the bytes that a route is compiled to: the calls of
a multicall, the function and the arguments of each call, and the message that a deposit or a
withdrawal carries to its pool.
-/

namespace SwapRelay

open Abi (Ty Value)

namespace Call

def types : Call Bytes → List Ty
  | .batchSwap _ => [
      .uint 8,
      .array (.tuple [.word, .uint 256, .uint 256, .uint 256, .bytes]),
      .array .address,
      .tuple [.address, .bool, .address, .bool],
      .array (.sint 256),
      .uint 256,
      .uint 256,
      .array (.tuple [.uint 256, .uint 256])]
  | .joinPool _ => [
      .word, .uint 8, .address, .address,
      .tuple [.array .address, .array (.uint 256), .bytes, .bool],
      .uint 256, .uint 256]
  | .exitPool _ => [
      .word, .uint 8, .address, .address,
      .tuple [.array .address, .array (.uint 256), .bytes, .bool],
      .array (.tuple [.uint 256, .uint 256])]
  | .setRelayerApproval .. => [.address, .bool, .bytes]
  | .approveVault .. => [.address, .uint 256]
  | .peekReference _ => [.uint 256]

def account? : Value → Option Bytes
  | .address bs => some bs
  | _ => none

def number? : Value → Option Int
  | .uint _ n => some n
  | .sint _ n => some n
  | _ => none

/-- The asset's place and the reference in a stored output. -/
def output? : Value → Option (Int × Int)
  | .tuple [.uint _ index, .uint _ key] => some (index, key)
  | _ => none

def step? : Value → Option (BatchStep Bytes)
  | .tuple [.word poolId, .uint _ assetIn, .uint _ assetOut, .uint _ amount, .bytes userData] =>
    some { poolId, assetIn, assetOut, amount, userData }
  | _ => none

def batchSwap? : List Value → Option (Call Bytes)
  | [.uint _ kind, .array steps, .array assets,
      .tuple [.address sender, .bool fromInternal, .address recipient, .bool toInternal],
      .array limits, .uint _ deadline, .uint _ value, .array outputs] => do
    let steps ← steps.mapM step?
    let assets ← assets.mapM account?
    let limits ← limits.mapM number?
    let outputs ← outputs.mapM output?
    let funds := { sender, fromInternal, recipient, toInternal }
    return .batchSwap { kind, steps, assets, funds, limits, deadline, value, outputs }
  | _ => none

def joinPool? : List Value → Option (Call Bytes)
  | [.word poolId, .uint _ kind, .address sender, .address recipient,
      .tuple [.array assets, .array maxAmounts, .bytes userData, .bool fromInternal],
      .uint _ value, .uint _ output] => do
    let assets ← assets.mapM account?
    let maxAmounts ← maxAmounts.mapM number?
    return .joinPool {
      poolId, kind, sender, recipient, assets, maxAmounts, userData, fromInternal, value, output }
  | _ => none

def exitPool? : List Value → Option (Call Bytes)
  | [.word poolId, .uint _ kind, .address sender, .address recipient,
      .tuple [.array assets, .array minAmounts, .bytes userData, .bool toInternal],
      .array outputs] => do
    let assets ← assets.mapM account?
    let minAmounts ← minAmounts.mapM number?
    let outputs ← outputs.mapM output?
    return .exitPool {
      poolId, kind, sender, recipient, assets, minAmounts, userData, toInternal, outputs }
  | _ => none

/-- An approval, or a look at a reference, from its arguments. -/
def small? : List Value → Option (Call Bytes)
  | [.address relayer, .bool approved, .bytes authorisation] =>
    some (.setRelayerApproval relayer approved authorisation)
  | [.address token, .uint _ amount] => some (.approveVault token amount)
  | [.uint _ value] => some (.peekReference value)
  | _ => none

/-- A function of the library: a call of it for its selector and its forms, and the reading of its
arguments. -/
def readers : List (Call Bytes × (List Value → Option (Call Bytes))) := [
  (.batchSwap default, batchSwap?),
  (.joinPool default, joinPool?),
  (.exitPool default, exitPool?),
  (.setRelayerApproval [] false [], small?),
  (.approveVault [] 0, small?),
  (.peekReference 0, small?)]

def ofData? (data : Bytes) : Option (Call Bytes) := do
  let (shape, read) ← readers.find? (·.1.selector == data.take 4)
  let args ← Abi.decodeArguments? shape.types (data.drop 4)
  read args

end Call

def multicallParts? (data : Bytes) : Option (List Bytes) := do
  if data.take 4 ≠ multicallSelector then none
  match ← Abi.decodeArguments? [.array .bytes] (data.drop 4) with
  | [.array calls] => calls.mapM fun call =>
    match call with
    | .bytes bs => some bs
    | _ => none
  | _ => none

namespace PoolUserData

def joinOfBytes? (bs : Bytes) : Option PoolUserData := do
  match ← Abi.uintAt? 256 bs with
  | 1 =>
    match ← Abi.decodeArguments? [.uint 256, .array (.uint 256), .uint 256] bs with
    | [_, .array amounts, .uint _ minShares] =>
      return .joinExactIn (← amounts.mapM Call.number?) minShares
    | _ => none
  | 2 =>
    match ← Abi.decodeArguments? [.uint 256, .uint 256, .uint 256] bs with
    | [_, .uint _ shares, .uint _ token] => return .joinExactOut shares token
    | _ => none
  | _ => none

def exitOfBytes? (bs : Bytes) : Option PoolUserData := do
  match ← Abi.uintAt? 256 bs with
  | 0 =>
    match ← Abi.decodeArguments? [.uint 256, .uint 256, .uint 256] bs with
    | [_, .uint _ shares, .uint _ token] => return .exitExactIn shares token
    | _ => none
  | 2 =>
    match ← Abi.decodeArguments? [.uint 256, .array (.uint 256), .uint 256] bs with
    | [_, .array amounts, .uint _ maxShares] =>
      return .exitExactOut (← amounts.mapM Call.number?) maxShares
    | _ => none
  | _ => none

end PoolUserData

end SwapRelay
