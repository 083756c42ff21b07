import SwapRelay.Json.Basic
import SwapRelay.Pool

/-!
# The registry of a route's pools

A registry is made from a list of pools. Of several entries with one id, in whatever case, the last
one counts, and the others are gone for every question: look-up, size and share tokens alike.
-/

namespace SwapRelay

/-- The pools that a route may use, one for each id. -/
structure Registry where
  pools : List Pool
  deriving DecidableEq, Repr, Inhabited

namespace Registry

/-- The entries that no later entry replaces. -/
def survivors : List Pool → List Pool
  | [] => []
  | pool :: rest =>
    if rest.any (·.key == pool.key) then survivors rest else pool :: survivors rest

/-- The entries that replace an earlier one, where `seen` are the keys so far. -/
def replacing (seen : List Text) : List Pool → List Pool
  | [] => []
  | pool :: rest =>
    if seen.contains pool.key then pool :: replacing seen rest
    else replacing (pool.key :: seen) rest

def ofList (pools : List Pool) : Registry :=
  ⟨survivors pools⟩

def size (r : Registry) : Nat :=
  r.pools.length

def find? (r : Registry) (id : Text) : Option Pool :=
  r.pools.find? (·.key == Text.lower id)

/-- The pool of an id that has to be known. -/
def get (r : Registry) (id : Text) : Except Error Pool :=
  match r.find? id with
  | some pool => .ok pool
  | none => .error (.route (.unknownPool id))

def contains (r : Registry) : Json → Bool
  | .str id => (r.find? id.toList).isSome
  | _ => false

def isShareToken (r : Registry) (token : Text) : Bool :=
  r.pools.any (Address.normalize ·.address == Address.normalize token)

def shareTokens (r : Registry) : List Text :=
  Sorting.sort Text.le (r.pools.map (Address.normalize ·.address)).eraseDups

end Registry

end SwapRelay
