import SwapRelay.Uint256

/-!
# Issues of a request

What is wrong with a request, and where. An issue names the place by the path to it, keeps the value
that was found there, and has a fixed code and wording for each flaw.
-/

namespace SwapRelay

/-- One step of the path to a place in a request. -/
inductive Step where
  | field (name : String)
  | index (n : Nat)
  deriving DecidableEq, Repr

def Step.toJson : Step → Json
  | .field name => .str name
  | .index n => .int n

/-- The written forms that text fields have to match. -/
inductive Form where
  | address
  | poolId
  | bytes
  deriving DecidableEq, Repr

def Form.pattern : Form → String
  | .address => "^0x[a-fA-F0-9]\x7b40\x7d$"
  | .poolId => "^0x[a-fA-F0-9]\x7b64\x7d$"
  | .bytes => "^0x[a-fA-F0-9]*$"

inductive Flaw where
  | missing
  /-- A record of this name was expected. -/
  | notRecord (name : String)
  /-- An object was expected. -/
  | notObject
  | notText
  | notOfForm (form : Form)
  | notAmount (fault : Uint256.Fault)
  | notList
  | emptyList
  | notInteger
  | notWhole
  | notFinite
  | unreadableInteger
  | longInteger
  | negative
  | notSwapType
  deriving DecidableEq, Repr

namespace Flaw

def code : Flaw → String
  | .missing => "missing"
  | .notRecord _ => "model_type"
  | .notObject => "model_attributes_type"
  | .notText => "string_type"
  | .notOfForm _ => "string_pattern_mismatch"
  | .notAmount _ => "value_error"
  | .notList => "list_type"
  | .emptyList => "too_short"
  | .notInteger => "int_type"
  | .notWhole => "int_from_float"
  | .notFinite => "finite_number"
  | .unreadableInteger => "int_parsing"
  | .longInteger => "int_parsing_size"
  | .negative => "greater_than_equal"
  | .notSwapType => "enum"

def message : Flaw → String
  | .missing => "Field required"
  | .notRecord name => "Input should be a valid dictionary or instance of " ++ name
  | .notObject => "Input should be a valid dictionary or object to extract fields from"
  | .notText => "Input should be a valid string"
  | .notOfForm form => "String should match pattern '" ++ form.pattern ++ "'"
  | .notAmount fault => "Value error, " ++ fault.message
  | .notList => "Input should be a valid list"
  | .emptyList => "List should have at least 1 item after validation, not 0"
  | .notInteger => "Input should be a valid integer"
  | .notWhole => "Input should be a valid integer, got a number with a fractional part"
  | .notFinite => "Input should be a finite number"
  | .unreadableInteger => "Input should be a valid integer, unable to parse string as an integer"
  | .longInteger => "Unable to parse input string as an integer, exceeded maximum size"
  | .negative => "Input should be greater than or equal to 0"
  | .notSwapType => "Input should be 0 or 1"

end Flaw

structure Issue where
  path : List Step
  flaw : Flaw
  /-- The value that was found; for a missing field, the object that lacks it. -/
  input : Json
  deriving Repr

def Issue.within (step : Step) (issue : Issue) : Issue :=
  { issue with path := step :: issue.path }

/-- The issue as one of the body of a call. Any object would do there for a record, so none is
named. -/
def Issue.inBody (issue : Issue) : Issue :=
  let flaw := match issue.flaw with
    | .notRecord _ => .notObject
    | flaw => flaw
  { issue with flaw := flaw, path := .field "body" :: issue.path }

def Issue.toJson (issue : Issue) : Json :=
  .obj [("loc", .arr (issue.path.map Step.toJson)), ("type", .str issue.flaw.code),
    ("msg", .str issue.flaw.message)]

end SwapRelay
