import SwapRelay.Hex

/-!
# Paths

Where a call of the service goes. What follows a question mark or a hash is not part of the path.
Segments of one dot are passed over, a segment of two dots takes the one before it away, and then
the escapes are resolved. One line break at the end does not count. Every path that is served is
ASCII, so an escape for a byte beyond it only has to stand for something that is not.
-/

namespace SwapRelay.Service

def splitAt (mark : Char) : Text → List Text
  | [] => [[]]
  | c :: rest =>
    if c = mark then [] :: splitAt mark rest
    else match splitAt mark rest with
      | [] => [[c]]
      | part :: parts => (c :: part) :: parts

/-- Adds a segment to those before it, the nearest first. The root is never taken away. -/
def addSegment (before : List Text) (segment : Text) : List Text :=
  if segment = ['.'] then before
  else if segment = ['.', '.'] then if before = [[]] then before else before.tail
  else segment :: before

def dropDots (path : Text) : Text :=
  ['/'].intercalate ((splitAt '/' path).foldl addSegment []).reverse

def ofByte (n : Nat) : Char :=
  if n < 0x80 then Char.ofNat n else '\ufffd'

def unescape : Text → Text
  | '%' :: a :: b :: rest =>
    match Hex.digitValue? a, Hex.digitValue? b with
    | some high, some low => ofByte (16 * high + low) :: unescape rest
    | _, _ => '%' :: unescape (a :: b :: rest)
  | c :: rest => c :: unescape rest
  | [] => []

def dropLineBreak (path : Text) : Text :=
  if path.getLast? = some '\n' then path.dropLast else path

def pathOf (target : Text) : Text :=
  dropLineBreak (unescape (dropDots (target.takeWhile fun c => c ≠ '?' && c ≠ '#')))

example : ["/health?x=1", "/a/../%68ealth", "/./health#top"].map (pathOf ·.toList) =
    List.replicate 3 "/health".toList := by decide
example : pathOf "/%zz".toList = "/%zz".toList ∧ pathOf "/..".toList = [] := by decide

end SwapRelay.Service
