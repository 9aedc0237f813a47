import Runbook.Number.Text
import Runbook.Text.Character
import Runbook.Text.Bytes
import Runbook.Text.Search

/-! # Addresses

Paths and queries as they are written in a request. A percent sign and two hexadecimal digits stand
for a byte.
-/

namespace Runbook.Web

/-- The bytes of a text with percent signs. -/
def percentBytes : List Char → Bytes
  | [] => []
  | '%' :: a :: b :: rest =>
    match Text.hexValue? a, Text.hexValue? b with
    | some m, some n => UInt8.ofNat (16 * m + n) :: percentBytes rest
    | _, _ => 37 :: percentBytes (a :: b :: rest)
  | c :: rest => Text.encodeChar c ++ percentBytes rest

/-- A text with percent signs decoded. -/
def percentDecode (s : String) : String := Text.decode (percentBytes s.toList)

/-- A character that stands for itself in an address. -/
def isPlain (c : Char) : Bool :=
  c.isAlphanum || "_.-~:/%#?=@[]!$&'()*+,;".toList.contains c

/-- A hexadecimal digit in capitals. -/
def hexDigit (n : Nat) : Char := "0123456789ABCDEF".toList.getD n '0'

/-- A text as it is written in an address. -/
def percentEncode (s : String) : String :=
  String.ofList (s.toList.flatMap fun c =>
    if isPlain c then [c]
    else (Text.encodeChar c).flatMap fun b =>
      ['%', hexDigit (b.toNat / 16), hexDigit (b.toNat % 16)])

/-- The path and query of a target. -/
def splitTarget (target : String) : String × String :=
  let cs := target.toList
  (String.ofList (cs.takeWhile (· != '?')), String.ofList ((cs.dropWhile (· != '?')).drop 1))

/-- A part of a query decoded, where a plus sign stands for a blank. -/
def decodePart (cs : List Char) : String :=
  percentDecode (String.ofList (cs.map fun c => if c == '+' then ' ' else c))

/-- The parameters of a query, in order. -/
def queryParameters (query : String) : List (String × String) :=
  ((Text.splitAt '&' query.toList).filter (!·.isEmpty)).map fun part =>
    (decodePart (part.takeWhile (· != '=')), decodePart ((part.dropWhile (· != '=')).drop 1))

/-- The last value of a parameter in a query. -/
def queryValue? (query name : String) : Option String :=
  ((queryParameters query).reverse.find? (·.1 == name)).map (·.2)

example : percentDecode "a%20%C3%A9%zz" = "a é%zz" := by decide +kernel

example : queryValue? "limit=1&a=b&limit=%32" "limit" = some "2" := by decide +kernel

end Runbook.Web
