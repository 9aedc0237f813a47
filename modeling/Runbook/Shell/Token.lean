/-! # Tokens of a command line

A command line is cut into words and operators. A word is made of pieces: characters as they stand,
characters in quotes, and places where the value of a variable or expression or the output of another
command line goes in.
-/

namespace Runbook.Shell

/-- A piece of a word. In double quotes what goes in is not cut into fields. -/
inductive Piece where
  | plain (c : Char)
  | quoted (cs : List Char)
  /-- The value of a variable, or the text to use if it has none. -/
  | value (name : String) (fallback : Option String) (whole : Bool)
  | output (source : List Char) (whole : Bool)
  /-- The value of an arithmetic expression. -/
  | number (source : List Char)
deriving Repr, DecidableEq

/-- A word. -/
abbrev Word := List Piece

/-- What a redirection does with a stream. -/
inductive Direction where
  | fromFile
  | toFile
  | onto
  /-- The same stream as another one. -/
  | duplicate
deriving Repr, DecidableEq

/-- A token. -/
inductive Token where
  | word (w : Word)
  | operator (text : String)
  | redirect (stream : Nat) (direction : Direction)
deriving Repr, DecidableEq

/-- Why a command line cannot be read. -/
abbrev Flaw := String

/-- The back quote. -/
def backQuote : Char := Char.ofNat 96

/-- A character that ends a word. -/
def endsWord (c : Char) : Bool := " \t\n;&|<>()".toList.contains c

/-- A character of a variable's name. -/
def isNameChar (c : Char) : Bool := c.isAlphanum || c == '_'

/-- The characters before the first of a kind and those after it. -/
def upTo (stop : Char) : List Char → Option (List Char × List Char)
  | [] => none
  | c :: rest =>
    if c == stop then some ([], rest)
    else (upTo stop rest).map fun (before, after) => (c :: before, after)

/-- The characters before the parenthesis that closes `depth` open ones and those after it. -/
def upToClosing : (depth : Nat) → List Char → Option (List Char × List Char)
  | _, [] => none
  | depth, c :: rest =>
    if c == ')' && depth ≤ 1 then some ([], rest)
    else
      let depth := if c == '(' then depth + 1 else if c == ')' then depth - 1 else depth
      (upToClosing depth rest).map fun (before, after) => (c :: before, after)

/-- The variable between braces. -/
def bracedValue (inside : List Char) (whole : Bool) : Piece :=
  let name := inside.takeWhile isNameChar
  match inside.dropWhile isNameChar with
  | ':' :: '-' :: fallback => .value (String.ofList name) (some (String.ofList fallback)) whole
  | _ => .value (String.ofList (if name.isEmpty then inside else name)) none whole

/-- What a dollar sign stands for, by the characters behind it, and the rest. -/
def readDollar (whole : Bool) : List Char → Except Flaw (Piece × List Char)
  | '(' :: '(' :: rest =>
    match upToClosing 2 rest with
    | some (source, rest) => .ok (.number source.dropLast, rest)
    | none => .error "end of file unexpected (expecting \")\")"
  | '(' :: rest =>
    match upToClosing 1 rest with
    | some (source, rest) => .ok (.output source whole, rest)
    | none => .error "end of file unexpected (expecting \")\")"
  | '\x7b' :: rest =>
    match upTo '\x7d' rest with
    | some (inside, rest) => .ok (bracedValue inside whole, rest)
    | none => .error "Missing '\x7d'"
  | c :: rest =>
    if c.isAlpha || c == '_' then
      .ok (.value (String.ofList (c :: rest.takeWhile isNameChar)) none whole,
        rest.dropWhile isNameChar)
    else if c.isDigit || "?$#!@*-".toList.contains c then
      .ok (.value (String.singleton c) none whole, rest)
    else .ok (.quoted ['$'], c :: rest)
  | [] => .ok (.quoted ['$'], [])

/-- A piece that is the output of another command line, up to the closing back quote. -/
def readBackQuoted (whole : Bool) (rest : List Char) : Except Flaw (Piece × List Char) :=
  match upTo backQuote rest with
  | some (source, rest) => .ok (.output source whole, rest)
  | none => .error "EOF in backquote substitution"

/-- Pieces in double quotes, in reverse, and what is behind the closing quote. -/
def readDouble (pieces : Word) : (fuel : Nat) → List Char → Except Flaw (Word × List Char)
  | 0, _ | _, [] => .error "Unterminated quoted string"
  | fuel + 1, c :: rest =>
    if c == '"' then .ok (pieces, rest)
    else if c == '\\' then
      match rest with
      | '\n' :: rest => readDouble pieces fuel rest
      | d :: rest =>
        if ['$', '"', '\\', backQuote].contains d then readDouble (.quoted [d] :: pieces) fuel rest
        else readDouble (.quoted ['\\', d] :: pieces) fuel rest
      | [] => .error "Unterminated quoted string"
    else if c == '$' then do
      let (piece, rest) ← readDollar true rest
      readDouble (piece :: pieces) fuel rest
    else if c == backQuote then do
      let (piece, rest) ← readBackQuoted true rest
      readDouble (piece :: pieces) fuel rest
    else readDouble (.quoted [c] :: pieces) fuel rest

/-- The pieces of a word, in reverse, and what is behind it. -/
def readWord (pieces : Word) : (fuel : Nat) → List Char → Except Flaw (Word × List Char)
  | 0, rest => .ok (pieces, rest)
  | _, [] => .ok (pieces, [])
  | fuel + 1, c :: rest =>
    if endsWord c then .ok (pieces, c :: rest)
    else if c == '\\' then
      match rest with
      | '\n' :: rest => readWord pieces fuel rest
      | d :: rest => readWord (.quoted [d] :: pieces) fuel rest
      | [] => .ok (.quoted ['\\'] :: pieces, [])
    else if c == '\'' then
      match upTo '\'' rest with
      | some (inside, rest) => readWord (.quoted inside :: pieces) fuel rest
      | none => .error "Unterminated quoted string"
    else if c == '"' then do
      let (pieces, rest) ← readDouble (.quoted [] :: pieces) fuel rest
      readWord pieces fuel rest
    else if c == '$' then do
      let (piece, rest) ← readDollar false rest
      readWord (piece :: pieces) fuel rest
    else if c == backQuote then do
      let (piece, rest) ← readBackQuoted false rest
      readWord (piece :: pieces) fuel rest
    else readWord (.plain c :: pieces) fuel rest

/-- The number of a stream in front of a redirection. -/
def streamNumber? : Word → Option Nat
  | [.plain c] => if c.isDigit then some (c.toNat - '0'.toNat) else none
  | _ => none

/-- An operator at the front and what is behind it. -/
def readOperator (stream : Option Nat) : List Char → Option (Token × List Char)
  | '>' :: '>' :: rest => some (.redirect (stream.getD 1) .onto, rest)
  | '>' :: '&' :: rest => some (.redirect (stream.getD 1) .duplicate, rest)
  | '>' :: '|' :: rest => some (.redirect (stream.getD 1) .toFile, rest)
  | '>' :: rest => some (.redirect (stream.getD 1) .toFile, rest)
  | '<' :: '&' :: rest => some (.redirect (stream.getD 0) .duplicate, rest)
  | '<' :: rest => some (.redirect (stream.getD 0) .fromFile, rest)
  | '&' :: '&' :: rest => some (.operator "&&", rest)
  | '|' :: '|' :: rest => some (.operator "||", rest)
  | ';' :: ';' :: rest => some (.operator ";;", rest)
  | c :: rest =>
    if c == '\n' then some (.operator ";", rest)
    else if endsWord c && c != ' ' && c != '\t' then some (.operator (String.singleton c), rest)
    else none
  | [] => none

/-- The tokens of a command line, in reverse. -/
def tokensOnto (tokens : List Token) : (fuel : Nat) → List Char → Except Flaw (List Token)
  | 0, _ | _, [] => .ok tokens
  | fuel + 1, c :: rest =>
    if c == ' ' || c == '\t' then tokensOnto tokens fuel rest
    else if c == '#' then tokensOnto tokens fuel (rest.dropWhile (· != '\n'))
    else
      match readOperator none (c :: rest) with
      | some (token, rest) => tokensOnto (token :: tokens) fuel rest
      | none => do
        let (pieces, rest) ← readWord [] (fuel + 1) (c :: rest)
        let redirected := rest.head? == some '>' || rest.head? == some '<'
        match if redirected then streamNumber? pieces else none with
        | some n =>
          match readOperator (some n) rest with
          | some (token, rest) => tokensOnto (token :: tokens) fuel rest
          | none => .ok tokens
        | none => tokensOnto (.word pieces.reverse :: tokens) fuel rest

/-- The tokens of a command line. -/
def tokens (source : List Char) : Except Flaw (List Token) :=
  (tokensOnto [] (source.length + 1) source).map List.reverse

example : (tokens "a 'b c'2>&1;d".toList).toOption =
    some [.word [.plain 'a'], .word [.quoted ['b', ' ', 'c'], .plain '2'], .redirect 1 .duplicate,
      .word [.plain '1'], .operator ";", .word [.plain 'd']] := by
  decide +kernel

end Runbook.Shell
