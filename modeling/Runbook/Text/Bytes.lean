/-! # Texts as bytes

The bytes that stand for a text: one to four for each character. Reading is forgiving: bytes that
stand for no character are read as the replacement character, one for each longest beginning of a
character and one for each byte that no character begins with.
-/

namespace Runbook

/-- What a file or a stream holds. -/
abbrev Bytes := List UInt8

namespace Text

/-- A continuation byte: two marker bits and the lowest six bits of a number. -/
def continuation (n : Nat) : UInt8 := UInt8.ofNat (0x80 + n % 0x40)

/-- The bytes of a character. -/
def encodeChar (c : Char) : Bytes :=
  let n := c.toNat
  if n < 0x80 then [UInt8.ofNat n]
  else if n < 0x800 then [UInt8.ofNat (0xc0 + n / 0x40), continuation n]
  else if n < 0x10000 then
    [UInt8.ofNat (0xe0 + n / 0x1000), continuation (n / 0x40), continuation n]
  else
    [UInt8.ofNat (0xf0 + n / 0x40000), continuation (n / 0x1000), continuation (n / 0x40),
      continuation n]

/-- The bytes of characters. -/
def encodeChars (cs : List Char) : Bytes := cs.flatMap encodeChar

/-- The bytes of a text. -/
def encode (s : String) : Bytes := encodeChars s.toList

/-- The character that stands for bytes that no text has. -/
def replacement : Char := '\uFFFD'

/-- A character of which some bytes are still to come. -/
structure Beginning where
  /-- How many bytes are to come. -/
  left : Nat
  /-- The least and greatest value of the next one. -/
  low : Nat
  high : Nat
  /-- The number that the bytes so far give. -/
  code : Nat

/-- What a first byte says. -/
inductive Lead where
  | whole (c : Char)
  | begins (b : Beginning)
  | stray

/-- What a byte says that begins a character. Overlong forms, surrogates and numbers above the last
character are excluded by the bounds of the second byte. -/
def lead (byte : UInt8) : Lead :=
  let b := byte.toNat
  if b < 0x80 then .whole (Char.ofNat b)
  else if b < 0xc2 then .stray
  else if b < 0xe0 then .begins ⟨1, 0x80, 0xbf, b - 0xc0⟩
  else if b < 0xf0 then
    .begins ⟨2, if b == 0xe0 then 0xa0 else 0x80, if b == 0xed then 0x9f else 0xbf, b - 0xe0⟩
  else if b < 0xf5 then
    .begins ⟨3, if b == 0xf0 then 0x90 else 0x80, if b == 0xf4 then 0x8f else 0xbf, b - 0xf0⟩
  else .stray

/-- A byte after a beginning: `none` if it does not go on with it. -/
def Beginning.next (p : Beginning) (byte : UInt8) : Option Lead :=
  let b := byte.toNat
  if p.low ≤ b && b ≤ p.high then
    let code := p.code * 0x40 + (b - 0x80)
    some (if p.left ≤ 1 then .whole (Char.ofNat code) else .begins ⟨p.left - 1, 0x80, 0xbf, code⟩)
  else none

/-- The characters that bytes stand for after the beginning of one. -/
def decodeFrom : Option Beginning → Bytes → List Char
  | none, [] => []
  | some _, [] => [replacement]
  | pending, byte :: rest =>
    let fresh (word : Lead) : List Char := match word with
      | .whole c => c :: decodeFrom none rest
      | .begins b => decodeFrom (some b) rest
      | .stray => replacement :: decodeFrom none rest
    match pending with
    | none => fresh (lead byte)
    | some p =>
      match p.next byte with
      | some word => fresh word
      | none => replacement :: fresh (lead byte)

/-- The characters that bytes stand for. -/
def decodeChars (bytes : Bytes) : List Char := decodeFrom none bytes

/-- The text that bytes stand for. -/
def decode (bytes : Bytes) : String := String.ofList (decodeChars bytes)

example : encode "é漢" = [0xc3, 0xa9, 0xe6, 0xbc, 0xa2] := by decide +kernel

example : decodeChars [0xe0, 0xa0, 0xc3, 0xa9, 0xff] = [replacement, 'é', replacement] := by
  decide +kernel

/-! ## Lines

Where a text breaks into lines. Files are read with every kind of line end turned into a line feed.
-/

/-- A character that ends a line. -/
def endsLine (c : Char) : Bool :=
  let n := c.toNat
  (10 ≤ n && n ≤ 13) || (28 ≤ n && n ≤ 30) || n == 0x85 || n == 0x2028 || n == 0x2029

/-- The number of lines, where a carriage return and the line feed behind it end one line, and a last
line need not be ended. -/
def countLines : List Char → Nat
  | [] => 0
  | '\r' :: '\n' :: rest => countLines rest + 1
  | c :: rest =>
    if endsLine c || rest.isEmpty then countLines rest + 1
    else countLines rest

/-- Every line end of a carriage return, alone or with a line feed, is a line feed. -/
def unifyLines : List Char → List Char
  | [] => []
  | '\r' :: '\n' :: rest => '\n' :: unifyLines rest
  | '\r' :: rest => '\n' :: unifyLines rest
  | c :: rest => c :: unifyLines rest

/-- The text of a file. -/
def readFile (bytes : Bytes) : String := String.ofList (unifyLines (decodeChars bytes))

example : countLines "a\r\nb\rc\x0b".toList = 3 ∧ countLines "".toList = 0 := by decide +kernel

example : unifyLines "a\r\nb\rc".toList = "a\nb\nc".toList := by decide +kernel

end Text

end Runbook
