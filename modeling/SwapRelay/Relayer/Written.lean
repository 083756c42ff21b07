import SwapRelay.Address
import SwapRelay.Relayer.Call

/-!
# Calls with accounts as text

A call is planned with its accounts, pool ids and signatures as text. To be made it is read, which
turns the texts into bytes, and then checked, which looks at the size of every argument. Reading
comes first as a whole, so an unreadable account hides an amount out of range.
-/

namespace SwapRelay

namespace BatchSwap

def readStep (s : BatchStep Text) : Except Error (BatchStep Bytes) := do
  let poolId ← Hex.readBytes s.poolId
  return { s with poolId }

def read (c : BatchSwap Text) : Except Error (BatchSwap Bytes) := do
  let steps ← c.steps.mapM readStep
  let assets ← Address.allBytes c.assets
  let sender ← Address.bytes c.funds.sender
  let recipient ← Address.bytes c.funds.recipient
  return { c with steps, assets, funds := { c.funds with sender, recipient } }

end BatchSwap

def PoolJoin.read (c : PoolJoin Text) : Except Error (PoolJoin Bytes) := do
  let poolId ← Hex.readBytes c.poolId
  let sender ← Address.bytes c.sender
  let recipient ← Address.bytes c.recipient
  let assets ← Address.allBytes c.assets
  return { c with poolId, sender, recipient, assets }

def PoolExit.read (c : PoolExit Text) : Except Error (PoolExit Bytes) := do
  let poolId ← Hex.readBytes c.poolId
  let sender ← Address.bytes c.sender
  let recipient ← Address.bytes c.recipient
  let assets ← Address.allBytes c.assets
  return { c with poolId, sender, recipient, assets }

namespace Call

def read : Call Text → Except Error (Call Bytes)
  | .batchSwap c => c.read.map .batchSwap
  | .joinPool c => c.read.map .joinPool
  | .exitPool c => c.read.map .exitPool
  | .setRelayerApproval relayer approved authorisation => do
    let relayer ← Address.bytes relayer
    let authorisation ← Hex.readBytes authorisation
    return .setRelayerApproval relayer approved authorisation
  | .approveVault token amount => do
    let token ← Address.bytes token
    return .approveVault token amount
  | .peekReference value => .ok (.peekReference value)

/-- The call as it can be made: read and checked. -/
def prepare (c : Call Text) : Except Error (Call Bytes) := do
  let c ← c.read
  c.checked

end Call

end SwapRelay
