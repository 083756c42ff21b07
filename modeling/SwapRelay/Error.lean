import SwapRelay.Abi.Value
import SwapRelay.Kind
import SwapRelay.Request.Issue

/-!
# Errors

The causes for which the compiler gives up. A `RouteError` is a fault of the route that its sender
can mend, and is answered with its message. Any other `Error` is a value that breaks the rules of
one of the layers below.
-/

namespace SwapRelay

inductive RouteError where
  | noHops
  | unknownPool (id : Text)
  | unknownToken (token : Text)
  /-- A hop has the share token of its own pool at both ends. -/
  | shareAtBothEnds (poolId : Text)
  /-- A literal amount does not fit 256 bits. -/
  | amountRange (n : Int)
  /-- A literal amount would be read as a reference. -/
  | amountTagged (n : Int)
  /-- A batch that needs an approval spends a literal amount of a share token. -/
  | literalShareInput (token : Text)
  /-- A hop needs an earlier hop's output and there is none. -/
  | dangling (hop : Nat)
  deriving DecidableEq, Repr

/-- An integer in hexadecimal digits behind `0x`, the sign in front. -/
def hexInteger (n : Int) : String :=
  (if n < 0 then "-0x" else "0x") ++ String.ofList (Nat.toDigits 16 n.natAbs)

namespace RouteError

/-- The name of a fault; faults of one nature share it. -/
def name : RouteError → String
  | .noHops => "EmptyRoute"
  | .unknownPool _ => "UnknownPool"
  | .unknownToken _ => "UnknownToken"
  | .shareAtBothEnds _ => "InvalidHopClassification"
  | .amountRange _ | .amountTagged _ | .literalShareInput _ => "InvalidAmount"
  | .dangling _ => "DanglingReference"

def message : RouteError → String
  | .noHops => "Route has no hops"
  | .unknownPool id => "Pool does not exist: " ++ id.shown
  | .unknownToken token => "Token not in route assets: " ++ token.shown
  | .shareAtBothEnds id =>
    "Hop through " ++ id.shown ++ " has the pool share token as both input and output"
  | .amountRange n => "Amount outside uint256: " ++ toString n
  | .amountTagged n => "Literal amount collides with chained reference range: " ++ hexInteger n
  | .literalShareInput token =>
    "Share token input " ++ token.shown ++ " must come from an earlier call"
  | .dangling hop => "Hop " ++ toString hop ++ " has no earlier hop to read its amount from"

end RouteError

inductive Error where
  | route (e : RouteError)
  /-- A text is no integer, or no bytes in hexadecimal. -/
  | unreadable
  /-- An asset index lies outside the list of assets. -/
  | assetIndex
  | abi (fault : Abi.Fault)
  | issues (found : List Issue)
  /-- A reference key does not fit its 240 bits. -/
  | keyRange (key : Int)
  | notReference (value : Int)
  /-- A value is no reference of the expected flavour. -/
  | otherFlavour (temporary : Bool) (value : Int)
  | poolIdLength (id : Text)
  | noActionHops
  | tooManyActionHops (kind : ActionKind) (count : Nat)
  /-- A swap that was not batched reached the encoding. -/
  | unscheduled (kind : ActionKind)
  | address (text : Text)
  /-- A well-known address is written wrongly. -/
  | namedAddress (name : String) (text : Text)
  | amount (fault : Uint256.Fault)
  deriving Repr

/-- The wording of an error, where it has one of its own. -/
def Error.message? : Error → Option String
  | .route e => some e.message
  | .unreadable | .assetIndex | .abi _ | .issues _ => none
  | .keyRange key => some ("Chained reference key out of range: " ++ toString key)
  | .notReference value => some ("Not a chained reference: " ++ hexInteger value)
  | .otherFlavour temporary value =>
    some ("Not a " ++ (if temporary then "temporary" else "read-only") ++ " reference: " ++
      hexInteger value)
  | .poolIdLength id => some ("Invalid pool id length: " ++ id.shown)
  | .noActionHops => some "Action must hold at least one hop"
  | .tooManyActionHops kind count =>
    some (kind.name ++ " action cannot hold " ++ toString count ++ " hops")
  | .unscheduled kind =>
    some ("Unscheduled " ++ kind.name ++ " action; run order_actions first")
  | .address text => some ("Invalid address: " ++ text.shown)
  | .namedAddress name text =>
    some ("Invalid " ++ name ++ " address: " ++ text.shown ++ " (must be 0x + 40 hex chars)")
  | .amount fault => some fault.message

example : hexInteger (-255) = "-0xff" ∧ hexInteger 0 = "0x0" := by decide

end SwapRelay
