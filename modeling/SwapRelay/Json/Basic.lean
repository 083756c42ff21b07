import SwapRelay.Numeral.Binary64
import SwapRelay.Text

/-!
# JSON values

A number written with a fraction or an exponent is a value of its own kind, since requests are read
by kind and not only by size. An object keeps its fields as they stand; of two fields with one name
the later one counts.
-/

namespace SwapRelay

inductive Json where
  | null
  | bool (b : Bool)
  | int (n : Int)
  | real (x : Binary64)
  | str (s : String)
  | arr (items : List Json)
  | obj (fields : List (String × Json))
  deriving Repr, Inhabited

namespace Json

def ofText (t : Text) : Json :=
  .str t.shown

def ofText? : Option Text → Json
  | some t => ofText t
  | none => .null

/-- The value of a field: the last one of that name. -/
def field? (name : String) (fields : List (String × Json)) : Option Json :=
  fields.reverse.lookup name

/-- The value of a field of an object; nothing for any other value. -/
def get? (j : Json) (name : String) : Option Json :=
  match j with
  | .obj fields => field? name fields
  | _ => none

/-- A number in the 64-bit format; nothing for any other value. -/
def toBinary64? : Json → Option Binary64
  | .int n => some (.ofInt n)
  | .real x => some x
  | _ => none

mutual

/-- Every number in the value is finite, so that it can be written as JSON. -/
def isWritable : Json → Bool
  | .real x => x.isFinite
  | .arr items => areWritable items
  | .obj fields => fieldsWritable fields
  | _ => true

def areWritable : List Json → Bool
  | [] => true
  | j :: rest => j.isWritable && areWritable rest

def fieldsWritable : List (String × Json) → Bool
  | [] => true
  | (_, j) :: rest => j.isWritable && fieldsWritable rest

end

end Json

end SwapRelay
