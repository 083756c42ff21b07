import SwapRelay.Address

/-!
# Pools

A pool is known by an id of 32 bytes, whose first 20 are its address. The address doubles as the
pool's share token.

Deposits and withdrawals list a pool's tokens in the order in which the pool registered them, which
is ascending by address. The native asset has no address of its own and takes the place of its
wrapped token. The lists to be sorted are short, so they are sorted by insertion from the back: an
item goes in front of the first one that it does not come after, and equal items keep their order.
-/

namespace SwapRelay

/-! ## Stable sorting -/

namespace Sorting

variable {α : Type}

/-- Puts an item into a sorted list, in front of its equals. -/
def insert (le : α → α → Bool) (a : α) : List α → List α
  | [] => [a]
  | b :: rest => if le a b then a :: b :: rest else b :: insert le a rest

def sort (le : α → α → Bool) : List α → List α
  | [] => []
  | a :: rest => insert le a (sort le rest)

theorem insert_perm (le : α → α → Bool) (a : α) (l : List α) :
    (insert le a l).Perm (a :: l) := by
  induction l with
  | nil => exact .refl _
  | cons b rest ih =>
    unfold insert
    split
    · exact .refl _
    · exact (ih.cons b).trans (.swap a b rest)

theorem sort_perm (le : α → α → Bool) (l : List α) : (sort le l).Perm l := by
  induction l with
  | nil => exact .refl _
  | cons a rest ih => exact (insert_perm le a _).trans (ih.cons a)

end Sorting

/-! ## Pools and their tokens -/

/-- What the compiler knows of a pool; the tokens may stand in any order. -/
structure Pool where
  id : Text
  address : Text
  tokens : List Text
  deriving DecidableEq, Repr, Inhabited

namespace Pool

def addressOfId (id : Text) : Except Error Text :=
  let marked := Address.mark id
  if marked.length = 66 then .ok (Address.normalize (marked.take 42))
  else .error (.poolIdLength marked)

def hasToken (pool : Pool) (token : Text) : Bool :=
  pool.tokens.any (Address.same · token)

/-- Ids are compared in small letters. -/
def key (pool : Pool) : Text :=
  Text.lower pool.id

/-- The number by which a token is placed. -/
def sortKey (wrappedNative token : Text) : Except Error Int :=
  let shown := if Address.same token Address.native then wrappedNative else token
  match Numeral.readHex (Address.normalize shown) with
  | some n => .ok n
  | none => .error .unreadable

/-- The tokens in normal form, ascending by key; equal keys keep their order. -/
def sortTokens (wrappedNative : Text) (tokens : List Text) : Except Error (List Text) := do
  let keyed ← tokens.mapM fun token => (sortKey wrappedNative token).map (·, token)
  return (Sorting.sort (fun a b => decide (a.1 ≤ b.1)) keyed).map (Address.normalize ·.2)

end Pool

end SwapRelay
