import SwapRelay.Error
import SwapRelay.Hex
import SwapRelay.Numeral.Lenient

/-!
# Checking requests

Requests are checked part by part, and every part is checked whatever the others hold: where two
parts fail, the issues of both are kept, in the order of the parts. That makes checks an applicative
structure and no monad.
-/

namespace SwapRelay

inductive Check (α : Type) where
  | good (value : α)
  | bad (issues : List Issue)
  deriving Repr

namespace Check

def flaw (f : Flaw) (input : Json) : Check α :=
  .bad [⟨[], f, input⟩]

def map (f : α → β) : Check α → Check β
  | .good a => .good (f a)
  | .bad issues => .bad issues

def both : Check (α → β) → Check α → Check β
  | .good f, .good a => .good (f a)
  | .good _, .bad issues => .bad issues
  | .bad issues, .good _ => .bad issues
  | .bad first, .bad second => .bad (first ++ second)

instance : Applicative Check where
  pure := .good
  map := map
  seq f a := both f (a ())

def within (step : Step) : Check α → Check α
  | .good a => .good a
  | .bad issues => .bad (issues.map (·.within step))

def toExcept : Check α → Except Error α
  | .good a => .ok a
  | .bad issues => .error (.issues issues)

end Check

def Form.holds : Form → Text → Bool
  | .address, text => Hex.isMarkedOf 40 text
  | .poolId, text => Hex.isMarkedOf 64 text
  | .bytes, text => Hex.isMarked text

namespace Check

def ofForm (form : Form) (t : Text) : Check Text :=
  if form.holds t then .good t else flaw (.notOfForm form) (Json.ofText t)

def text (form : Form) : Json → Check Text
  | .str s => ofForm form s.toList
  | j => flaw .notText j

def amount (j : Json) : Check Text :=
  match Uint256.validate j with
  | .ok s => .good s
  | .error fault => flaw (.notAmount fault) j

def integerText (t : Text) : Except Flaw Int :=
  match Numeral.readLenient t with
  | .ok n => .ok n
  | .error .malformed => .error .unreadableInteger
  | .error .tooLong => .error .longInteger

def integer : Json → Except Flaw Int
  | .int n => .ok n
  | .bool b => .ok (if b then 1 else 0)
  | .real x =>
    if !x.isFinite then .error .notFinite
    else if !x.isInteger then .error .notWhole
    else if -(Nat.pow 2 63 : Int) < x.truncate ∧ x.truncate < Nat.pow 2 63 then .ok x.truncate
    else .error .longInteger
  | .str s => integerText s.toList
  | _ => .error .notInteger

def place (j : Json) : Check Nat :=
  match integer j with
  | .ok n => if n < 0 then flaw .negative j else .good n.toNat
  | .error f => flaw f j

/-- The items of a list from this index on. -/
def itemsFrom (check : Json → Check α) : Nat → List Json → Check (List α)
  | _, [] => .good []
  | i, j :: rest => (· :: ·) <$> (check j).within (.index i) <*> itemsFrom check (i + 1) rest

def items (check : Json → Check α) : Json → Check (List α)
  | .arr items => itemsFrom check 0 items
  | j => flaw .notList j

def someItems (check : Json → Check α) : Json → Check (List α)
  | .arr [] => flaw .emptyList (.arr [])
  | j => items check j

def nullable (check : Json → Check α) : Json → Check (Option α)
  | .null => .good none
  | j => some <$> check j

/-- The fields of a record of this name. -/
def record (name : String) (check : List (String × Json) → Check α) : Json → Check α
  | .obj fields => check fields
  | j => flaw (.notRecord name) j

/-- A field under its wire name or its other name, with the name it was found by; the wire name
wins. -/
def lookup (fields : List (String × Json)) (wire other : String) : Option (String × Json) :=
  ((Json.field? wire fields).map (wire, ·)).or ((Json.field? other fields).map (other, ·))

/-- A field that has to be there. An issue tells the name that the field was found by. -/
def required (fields : List (String × Json)) (wire other : String) (check : Json → Check α) :
    Check α :=
  match lookup fields wire other with
  | some (name, j) => (check j).within (.field name)
  | none => (flaw .missing (.obj fields)).within (.field wire)

/-- A field with a value for when it is not there. -/
def optional (fields : List (String × Json)) (wire other : String) (default : α)
    (check : Json → Check α) : Check α :=
  match lookup fields wire other with
  | some (name, j) => (check j).within (.field name)
  | none => .good default

end Check

end SwapRelay
