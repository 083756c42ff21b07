import SwapRelay.Hex
import SwapRelay.Json.Basic
import SwapRelay.Json.Encoding

/-!
# Reading JSON

A reader that says where a malformed text goes wrong. Besides the numbers of the format it takes
`NaN`, `Infinity` and `-Infinity`. A fault keeps what is left of the text where it was found, so
that its offset is a difference of two lengths and no reader has to count.

The readers of values run on fuel. Every value takes up at least one character and a list of values
one step more, so twice the length of the text is always enough.
-/

namespace SwapRelay.Json

inductive Fault where
  /-- The text stops being JSON where `rest` begins. -/
  | malformed (rest : List Char)
  /-- An integer has more than 4300 digits. -/
  | longInteger
  /-- Arrays and objects are nested too deep. -/
  | tooDeep
  deriving DecidableEq, Repr

/-- What was read, and the text after it. -/
abbrev Reading (α : Type) := Except Fault (α × List Char)

namespace Reader

def isGap (c : Char) : Bool :=
  c == ' ' || c == '\t' || c == '\n' || c == '\r'

/-- The text from its first character that is no gap. -/
def skip (cs : List Char) : List Char :=
  cs.dropWhile isGap

def unit? (a b c d : Char) : Option Nat :=
  match Hex.digitValue? a, Hex.digitValue? b, Hex.digitValue? c, Hex.digitValue? d with
  | some w, some x, some y, some z => some (((w * 16 + x) * 16 + y) * 16 + z)
  | _, _, _, _ => none

def escaped? : Char → Option Char
  | '"' => some '"'
  | '\\' => some '\\'
  | '/' => some '/'
  | 'b' => some '\x08'
  | 'f' => some '\x0c'
  | 'n' => some '\n'
  | 'r' => some '\r'
  | 't' => some '\t'
  | _ => none

def push (c : Char) : Reading (List Char) → Reading (List Char)
  | .ok (cs, rest) => .ok (c :: cs, rest)
  | .error e => .error e

/-- Reads a string after its opening quote; `opening` is the text from that quote on, where a
string without an end is reported. -/
def chars (opening : List Char) : List Char → Reading (List Char)
  | [] => .error (.malformed opening)
  | '"' :: rest => .ok ([], rest)
  | '\\' :: 'u' :: a :: b :: c :: d :: '\\' :: 'u' :: e :: f :: g :: h :: x :: rest =>
    match unit? a b c d, unit? e f g h with
    | none, _ =>
      .error (.malformed ('u' :: a :: b :: c :: d :: '\\' :: 'u' :: e :: f :: g :: h :: x :: rest))
    | some u, low =>
      if Encoding.isHighHalf u then
        match low with
        | none => .error (.malformed ('u' :: e :: f :: g :: h :: x :: rest))
        | some v =>
          if Encoding.isLowHalf v then push (Encoding.ofHalves u v) (chars opening (x :: rest))
          else
            push (Encoding.ofUnit u)
              (chars opening ('\\' :: 'u' :: e :: f :: g :: h :: x :: rest))
      else
        push (Encoding.ofUnit u) (chars opening ('\\' :: 'u' :: e :: f :: g :: h :: x :: rest))
  | '\\' :: 'u' :: a :: b :: c :: d :: x :: rest =>
    match unit? a b c d with
    | none => .error (.malformed ('u' :: a :: b :: c :: d :: x :: rest))
    | some u => push (Encoding.ofUnit u) (chars opening (x :: rest))
  | '\\' :: 'u' :: rest => .error (.malformed ('u' :: rest))
  | '\\' :: c :: rest =>
    match escaped? c with
    | some e => push e (chars opening rest)
    | none => .error (.malformed ('\\' :: c :: rest))
  | '\\' :: [] => .error (.malformed opening)
  | c :: rest =>
    if c.toNat < 0x20 then .error (.malformed (c :: rest)) else push c (chars opening rest)

def string (rest : List Char) : Reading String :=
  match chars ('"' :: rest) rest with
  | .ok (cs, rest) => .ok (String.ofList cs, rest)
  | .error e => .error e

/-- The fraction of a number, without its point: digits, one or more, after a point. -/
def fraction : List Char → List Char × List Char
  | '.' :: rest =>
    let digits := rest.takeWhile Char.isDigit
    if digits.isEmpty then ([], '.' :: rest) else (digits, rest.dropWhile Char.isDigit)
  | cs => ([], cs)

/-- The exponent of a number, if one with digits is there. -/
def exponent (cs : List Char) : Option Int × List Char :=
  match cs with
  | e :: rest =>
    if e = 'e' ∨ e = 'E' then
      let (negative, digits) := match rest with
        | '-' :: r => (true, r)
        | '+' :: r => (false, r)
        | r => (false, r)
      let ds := digits.takeWhile Char.isDigit
      if ds.isEmpty then (none, cs)
      else
        let n : Int := ofDigits ds
        (some (if negative then -n else n), digits.dropWhile Char.isDigit)
    else (none, cs)
  | [] => (none, [])
where
  ofDigits (ds : List Char) : Nat :=
    ds.foldl (fun n d => n * 10 + (d.toNat - '0'.toNat)) 0

/-- The integer digits of a number: one zero, or digits that start with another. -/
def wholeDigits (cs : List Char) : List Char :=
  match cs with
  | '0' :: _ => ['0']
  | _ => cs.takeWhile Char.isDigit

/-- Reads a number without its sign; `start` is the text from the sign on, where the lack of a
number is reported. -/
def magnitude (start : List Char) (negative : Bool) (cs : List Char) : Reading Json :=
  let whole := wholeDigits cs
  if whole.isEmpty then .error (.malformed start)
  else
    let (part, rest) := fraction (cs.drop whole.length)
    let (power, rest) := exponent rest
    if part.isEmpty && power.isNone then
      if 4300 < whole.length then .error .longInteger
      else
        let n : Int := exponent.ofDigits whole
        .ok (.int (if negative then -n else n), rest)
    else
      let digits := whole ++ part
      .ok (.real (Binary64.ofDecimal negative (exponent.ofDigits digits) digits.length
        (power.getD 0 - part.length)), rest)

/-- Reads a literal or a number, whatever is no string, object or array. -/
def scalar : List Char → Reading Json
  | 'n' :: 'u' :: 'l' :: 'l' :: rest => .ok (.null, rest)
  | 't' :: 'r' :: 'u' :: 'e' :: rest => .ok (.bool true, rest)
  | 'f' :: 'a' :: 'l' :: 's' :: 'e' :: rest => .ok (.bool false, rest)
  | 'N' :: 'a' :: 'N' :: rest => .ok (.real .undefined, rest)
  | 'I' :: 'n' :: 'f' :: 'i' :: 'n' :: 'i' :: 't' :: 'y' :: rest =>
    .ok (.real (.infinite false), rest)
  | '-' :: 'I' :: 'n' :: 'f' :: 'i' :: 'n' :: 'i' :: 't' :: 'y' :: rest =>
    .ok (.real (.infinite true), rest)
  | '-' :: rest => magnitude ('-' :: rest) true rest
  | cs => magnitude cs false cs

def andThen (reading : Reading α) (next : α → List Char → Reading β) : Reading β :=
  match reading with
  | .ok (a, rest) => next a rest
  | .error e => .error e

def as (f : α → β) (reading : Reading α) : Reading β :=
  andThen reading fun a rest => .ok (f a, rest)

mutual

/-- Reads a value that may nest arrays and objects `room` deep. -/
def value : Nat → Nat → List Char → Reading Json
  | 0, _, cs => .error (.malformed cs)
  | fuel + 1, room, cs =>
    match cs with
    | '"' :: rest => as .str (string rest)
    | '[' :: rest =>
      if room = 0 then .error .tooDeep
      else match skip rest with
        | ']' :: rest => .ok (.arr [], rest)
        | rest => as .arr (items fuel (room - 1) rest)
    | '\x7b' :: rest =>
      if room = 0 then .error .tooDeep
      else match skip rest with
        | '\x7d' :: rest => .ok (.obj [], rest)
        | rest => as .obj (fields fuel (room - 1) rest)
    | cs => scalar cs

def items : Nat → Nat → List Char → Reading (List Json)
  | 0, _, cs => .error (.malformed cs)
  | fuel + 1, room, cs =>
    andThen (value fuel room cs) fun item rest =>
      match skip rest with
      | ']' :: rest => .ok ([item], rest)
      | ',' :: rest => as (item :: ·) (items fuel room (skip rest))
      | rest => .error (.malformed rest)

def fields : Nat → Nat → List Char → Reading (List (String × Json))
  | 0, _, cs => .error (.malformed cs)
  | fuel + 1, room, cs =>
    match cs with
    | '"' :: rest =>
      andThen (string rest) fun name rest =>
        match skip rest with
        | ':' :: rest =>
          andThen (value fuel room (skip rest)) fun item rest =>
            match skip rest with
            | '\x7d' :: rest => .ok ([(name, item)], rest)
            | ',' :: rest => as ((name, item) :: ·) (fields fuel room (skip rest))
            | rest => .error (.malformed rest)
        | rest => .error (.malformed rest)
    | cs => .error (.malformed cs)

end

/-- Reads a text that holds one value, nested `room` deep at most, and nothing else but gaps. -/
def document (room : Nat) (cs : List Char) : Except Fault Json :=
  match value (2 * cs.length + 2) room (skip cs) with
  | .error e => .error e
  | .ok (j, rest) =>
    match skip rest with
    | [] => .ok j
    | rest => .error (.malformed rest)

end Reader

inductive ReadError where
  /-- The text stops being JSON at this offset, counted in characters. -/
  | malformed (offset : Nat)
  | longInteger
  | tooDeep
  | undecodable
  deriving DecidableEq, Repr

/-- The value that a text writes, nested `room` deep at most. A byte order mark before it is passed
over and not counted. -/
def read (room : Nat) (text : String) : Except ReadError Json :=
  match decodeBody text with
  | none => .error .undecodable
  | some cs =>
    match Reader.document room cs with
    | .ok j => .ok j
    | .error (.malformed rest) => .error (.malformed (cs.length - rest.length))
    | .error .longInteger => .error .longInteger
    | .error .tooDeep => .error .tooDeep

end SwapRelay.Json
