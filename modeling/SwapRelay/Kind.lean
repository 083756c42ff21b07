/-!
# Kinds of routes and actions

A route fixes the amount that goes in or the amount that comes out, and requests and call data give
its type by a number. An action is a swap between two tokens of a pool, a deposit that mints the
pool's share token, a withdrawal that burns it, or neighbouring swaps that share one call.
-/

namespace SwapRelay

/-- The amount that a route fixes. -/
inductive SwapType where
  | exactIn
  | exactOut
  deriving DecidableEq, Repr, Inhabited

namespace SwapType

/-- The number of a swap type in requests and in call data. -/
def code : SwapType → Int
  | .exactIn => 0
  | .exactOut => 1

def ofCode? (n : Int) : Option SwapType :=
  [exactIn, exactOut].find? (·.code == n)

def name : SwapType → String
  | .exactIn => "EXACT_IN"
  | .exactOut => "EXACT_OUT"

theorem ofCode?_code (t : SwapType) : ofCode? t.code = some t := by
  cases t <;> decide

end SwapType

inductive ActionKind where
  | exchange
  | deposit
  | withdrawal
  | batchedExchange
  deriving DecidableEq, Repr, Inhabited

namespace ActionKind

def name : ActionKind → String
  | .exchange => "exchange"
  | .deposit => "deposit"
  | .withdrawal => "withdrawal"
  | .batchedExchange => "batched_exchange"

def ofName? (s : String) : Option ActionKind :=
  [exchange, deposit, withdrawal, batchedExchange].find? (·.name == s)

/-- Deposits and withdrawals, which share no call with a swap. -/
def isPoolOperation : ActionKind → Bool
  | .deposit | .withdrawal => true
  | .exchange | .batchedExchange => false

def isExchange (k : ActionKind) : Bool :=
  !k.isPoolOperation

end ActionKind

end SwapRelay
