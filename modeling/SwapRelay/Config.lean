import SwapRelay.Address

/-!
# Configuration

The relayer that carries out the calls, the token that stands in for the native asset when a pool's
tokens are ordered, how long batch swaps stay valid, and whether the vault is to be allowed each
share token that a batch spends. All of it can be set by the environment; what is not set has a
default.
-/

namespace SwapRelay

abbrev Environment := List (String × String)

namespace Environment

/-- The value of a variable, or what it counts as when it is not set. -/
def get (env : Environment) (name : String) (default : Text) : Text :=
  ((env.lookup name).map String.toList).getD default

def isOn (env : Environment) (name : String) : Bool :=
  ["true", "1", "yes"].contains (Text.lower (env.get name "false".toList)).shown

def getInt (env : Environment) (name : String) (default : Int) : Except Error Int :=
  match env.lookup name with
  | none => .ok default
  | some value =>
    match Numeral.readDecimal value.toList with
    | some n => .ok n
    | none => .error .unreadable

end Environment

structure Config where
  relayer : Text := "0x2536dfeecb7a0397cf98edada8486254533b1afa".toList
  wrappedNative : Text := "0xc02aaa39b223fe8d0a0e5c4f27ead9083c756cc2".toList
  deadlineSeconds : Int := 3600
  approveShareTokens : Bool := false
  deriving DecidableEq, Repr, Inhabited

namespace Config

def standard : Config := {}

def ofEnvironment (env : Environment) : Except Error Config := do
  let relayer ← Address.normalizeValid (env.get "ROUTE_COMPILER_RELAYER" standard.relayer)
  let wrappedNative ←
    Address.normalizeValid (env.get "ROUTE_COMPILER_WRAPPED_NATIVE" standard.wrappedNative)
  let deadlineSeconds ← env.getInt "ROUTE_COMPILER_DEADLINE_SECONDS" standard.deadlineSeconds
  let approveShareTokens := env.isOn "ROUTE_COMPILER_APPROVE_SHARE_TOKENS"
  return { relayer, wrappedNative, deadlineSeconds, approveShareTokens }

/-- The deadline of a route that names none, when the clock shows `now` seconds. The clock is of the
64-bit format, and fractions of a second do not count. -/
def deadlineAfter (config : Config) (now : Binary64) : Int :=
  now.truncate + config.deadlineSeconds

end Config

structure ServerSettings where
  host : Text
  port : Int
  /-- The service starts anew when its files change. -/
  reload : Bool
  deriving DecidableEq, Repr

def ServerSettings.ofEnvironment (env : Environment) : Except Error ServerSettings := do
  let host := env.get "ROUTE_COMPILER_HOST" "0.0.0.0".toList
  let port ← env.getInt "ROUTE_COMPILER_PORT" 8000
  let reload := env.isOn "ROUTE_COMPILER_DEBUG"
  return { host, port, reload }

end SwapRelay
