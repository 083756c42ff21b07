import SwapRelay.Error
import SwapRelay.Text.Lowercase

/-!
# Addresses

An address is text: `0x` and 40 hexadecimal digits. Addresses are compared without regard to case,
and their normal form is in small letters with the mark in front. The check of an address goes by
length and by whether the text can be read as a hexadecimal integer, so it is wider than the form
that a request has to match; the bytes are read by the stricter rule of `Hex.decode`.
-/

namespace SwapRelay.Address

def isMarked : Text → Bool
  | '0' :: 'x' :: _ => true
  | _ => false

def mark (text : Text) : Text :=
  if isMarked text then text else '0' :: 'x' :: text

/-- The text passes for an address. -/
def isValid (text : Text) : Bool :=
  isMarked text && text.length == 42 && (Numeral.readHex text).isSome

def isValidJson : Json → Bool
  | .str s => isValid s.toList
  | _ => false

def normalize (text : Text) : Text :=
  mark (Text.lower text)

def normalizeValid (text : Text) : Except Error Text :=
  if isValid (normalize text) then .ok (normalize text) else .error (.address text)

def same (a b : Text) : Bool :=
  Text.lower a == Text.lower b

def bytes (text : Text) : Except Error Bytes :=
  match normalizeValid text with
  | .error e => .error e
  | .ok normal =>
    match Hex.decode (normal.drop 2) with
    | some bytes => .ok bytes
    | none => .error .unreadable

/-- The bytes of several addresses, up to the first that has none. -/
def allBytes (texts : List Text) : Except Error (List Bytes) :=
  texts.mapM bytes

/-- A well-known address, checked under its name. -/
def named (name : String) (text : Text) : Except Error Text :=
  if isValid text then .ok text else .error (.namedAddress name text)

def indexOf? (tokens : List Text) (token : Text) : Option Nat :=
  tokens.findIdx? (same · token)

def native : Text :=
  '0' :: 'x' :: List.replicate 40 '0'

end SwapRelay.Address

namespace SwapRelay

/-- The bytes of a text in hexadecimal, as pool ids, user data and signatures are written. -/
def Hex.readBytes (text : Text) : Except Error Bytes :=
  match Hex.read text with
  | some bytes => .ok bytes
  | none => .error .unreadable

end SwapRelay
