import Runbook.Value.Text

/-! # Values as documents

The text of a value as a document of the usual interchange format, in ASCII, with a blank after each
comma and colon. Infinity and not-a-number have words of their own, tuples are written as lists, and
a value that the format does not know is written as its text. A table one of whose keys is a
container has no document.
-/

namespace Runbook.Value

/-- Four hexadecimal digits after a backslash. -/
def escapeUnit (n : Nat) : List Char := '\\' :: 'u' :: Text.hex 4 n

/-- A character inside a document's text. -/
def escapeChar (c : Char) : List Char :=
  if c == '"' || c == '\\' then ['\\', c]
  else if c == '\n' then ['\\', 'n']
  else if c == '\r' then ['\\', 'r']
  else if c == '\t' then ['\\', 't']
  else if c == '\x0c' then ['\\', 'f']
  else if c == '\x08' then ['\\', 'b']
  else if 0x20 ≤ c.toNat && c.toNat ≤ 0x7e then [c]
  else if c.toNat < 0x10000 then escapeUnit c.toNat
  else
    let n := c.toNat - 0x10000
    escapeUnit (0xd800 + n / 0x400) ++ escapeUnit (0xdc00 + n % 0x400)

/-- A text inside a document. -/
def documentText (s : String) : String :=
  String.ofList ('"' :: s.toList.flatMap escapeChar ++ ['"'])

/-- A key of a table inside a document, if it is no container. -/
def documentKey? : Value → Option String
  | null => some "null"
  | bool b => some (if b then "true" else "false")
  | int n => some (Number.intText n)
  | float x => some (Number.Layout.document.render x)
  | text s => some s
  | status s => some s.label
  | _ => none

mutual

/-- The document of a value, if its tables have keys that a document can hold. -/
def document? : Value → Option String
  | null => some "null"
  | bool b => some (if b then "true" else "false")
  | int n => some (Number.intText n)
  | float x => some (Number.Layout.document.render x)
  | text s => some (documentText s)
  | status s => some (documentText s.label)
  | list items => (documentItems? items).map fun parts => "[" ++ ", ".intercalate parts ++ "]"
  | tuple items => (documentItems? items).map fun parts => "[" ++ ", ".intercalate parts ++ "]"
  | dict entries =>
    (documentEntries? entries).map fun parts => "\x7b" ++ ", ".intercalate parts ++ "\x7d"
  | object fields => some (documentText (object fields).display)
  | condition subject operator comparand =>
    some (documentText (condition subject operator comparand).display)
  | report i s ok outputs error ms details =>
    some (documentText (report i s ok outputs error ms details).display)

/-- The documents of a list's items. -/
def documentItems? : List Value → Option (List String)
  | [] => some []
  | v :: rest => do
    let part ← document? v
    let parts ← documentItems? rest
    return part :: parts

/-- The documents of a table's entries. -/
def documentEntries? : List (Value × Value) → Option (List String)
  | [] => some []
  | (k, v) :: rest => do
    let key ← documentKey? k
    let part ← document? v
    let parts ← documentEntries? rest
    return (documentText key ++ ": " ++ part) :: parts

end

/-- A value inside a larger text: a text or status stands for itself, a truth value, null or container is
written as a document where it has one, and everything else as its own text. -/
def embed : Value → String
  | text s => s
  | status s => s.label
  | v@(bool _) | v@null | v@(list _) | v@(tuple _) | v@(dict _) => (document? v).getD v.toText
  | v => v.toText

example : document? (list [null, text "é\n", bool true]) = some "[null, \"\\u00e9\\n\", true]" := by
  decide +kernel

end Runbook.Value
