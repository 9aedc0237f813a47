import Runbook.Shell.Token

/-! # Scripts

What a command line says: commands joined into pipelines, pipelines joined by success or failure, and
one after the other. A command can have scripts inside, which it runs under a condition or repeats.
-/

namespace Runbook.Shell

/-- A redirection of a stream, with the file or stream that it names. -/
structure Redirection where
  stream : Nat
  direction : Direction
  target : Word
deriving Repr

/-- Commands of which each reads what the one before it writes. -/
structure Pipeline (α : Type) where
  /-- Success and failure are exchanged. -/
  negated : Bool
  commands : List α
deriving Repr

/-- Pipelines of which each runs only if those before it succeed, or only if they fail. -/
structure Chain (α : Type) where
  first : Pipeline α
  rest : List (Bool × Pipeline α)
deriving Repr

/-- A command. -/
inductive Command where
  | simple (assignments : List (String × Word)) (words : List Word)
      (redirections : List Redirection)
  /-- A script of its own; what it does to variables and the directory is forgotten behind it if it
  is `apart`. -/
  | group (apart : Bool) (script : List (Chain Command)) (redirections : List Redirection)
  /-- The script of the first of some conditions that succeeds, or else another one. -/
  | choice (branches : List (List (Chain Command) × List (Chain Command)))
      (otherwise : List (Chain Command)) (redirections : List Redirection)
  /-- A script for every field of some words. -/
  | each (name : String) (words : List Word) (script : List (Chain Command))
      (redirections : List Redirection)
  /-- A script as long as a condition succeeds, or fails. -/
  | loop (onSuccess : Bool) (condition script : List (Chain Command))
      (redirections : List Redirection)
deriving Inhabited

/-- A script. -/
abbrev Script := List (Chain Command)

/-- The word is written without quotes and with these characters. -/
def isWord (text : String) (w : Word) : Bool := w == text.toList.map Piece.plain

/-- The words that end a script inside a command. -/
def closingWords : List String := ["then", "elif", "else", "fi", "do", "done", "\x7d"]

/-- The word among some that a word is, written without quotes. -/
def keyword? (w : Word) (among : List String) : Option String := among.find? (isWord · w)

/-- A token as a message shows it. -/
def Token.shown : Token → String
  | .operator text => if text == ";" then "\";\"" else "\"" ++ text ++ "\""
  | .redirect _ .fromFile => "\"<\""
  | .redirect _ .toFile => "\">\""
  | .redirect _ .onto => "\">>\""
  | .redirect _ .duplicate => "\">&\""
  | .word w =>
    match keyword? w closingWords with
    | some keyword => "\"" ++ keyword ++ "\""
    | none => "word"

/-- The flaw of a token that cannot stand where it does. -/
def unexpected : List Token → Flaw
  | [] => "end of file unexpected"
  | token :: _ => token.shown ++ " unexpected"

/-- The flaw of a token that stands where a word is missing. -/
def missing (expected : String) (tokens : List Token) : Flaw :=
  unexpected tokens ++ " (expecting \"" ++ expected ++ "\")"

/-- What is behind a word that has to be there. -/
def expectWord (expected : String) : List Token → Except Flaw (List Token)
  | .word w :: rest => if isWord expected w then .ok rest else .error (missing expected (.word w :: rest))
  | tokens => .error (missing expected tokens)

/-- The words at the front of tokens and what is behind them. -/
def readWords : List Token → List Word × List Token
  | .word w :: rest => let (words, rest) := readWords rest; (w :: words, rest)
  | rest => ([], rest)

/-- The name that a word is, if it is one. -/
def nameOf? (w : Word) : Option String :=
  let cs := w.filterMap fun
    | .plain c => if isNameChar c then some c else none
    | _ => none
  if cs.length == w.length && !cs.isEmpty && !(cs.head?.any Char.isDigit) then
    some (String.ofList cs)
  else none

/-- What is behind the separators at the front of tokens. -/
def skipSeparators : List Token → List Token
  | .operator ";" :: rest => skipSeparators rest
  | rest => rest
/-- The variable that a word assigns, and what to. -/
def assignment? (w : Word) : Option (String × Word) :=
  let name := w.takeWhile fun
    | .plain c => isNameChar c
    | _ => false
  let text := name.filterMap fun
    | .plain c => some c
    | _ => none
  match w.drop name.length with
  | .plain '=' :: value =>
    if text.isEmpty || (text.head?.any Char.isDigit) then none else some (String.ofList text, value)
  | _ => none

/-- Redirections and what is behind them. -/
def readRedirections : List Token → List Redirection × List Token
  | .redirect stream direction :: .word target :: rest =>
    let (others, rest) := readRedirections rest
    (⟨stream, direction, target⟩ :: others, rest)
  | rest => ([], rest)

/-- A simple command and what is behind it. -/
def readSimple (assignments : List (String × Word)) (words : List Word)
    (redirections : List Redirection) : List Token → Except Flaw (Command × List Token)
  | .redirect stream direction :: .word target :: rest =>
    readSimple assignments words (⟨stream, direction, target⟩ :: redirections) rest
  | .word w :: rest =>
    match if words.isEmpty then assignment? w else none with
    | some a => readSimple (a :: assignments) words redirections rest
    | none => readSimple assignments (w :: words) redirections rest
  | .redirect .. :: rest => .error (unexpected rest)
  | rest =>
    if words.isEmpty && assignments.isEmpty && redirections.isEmpty then .error (unexpected rest)
    else .ok (.simple assignments.reverse words.reverse redirections.reverse, rest)

mutual

/-- A command and what is behind it. -/
def readCommand : (fuel : Nat) → List Token → Except Flaw (Command × List Token)
  | 0, tokens => .error (unexpected tokens)
  | fuel + 1, tokens =>
    match tokens with
    | .operator "(" :: rest => do
      let (script, rest) ← readScript fuel [] rest
      match rest with
      | .operator ")" :: rest =>
        let (redirections, rest) := readRedirections rest
        return (.group true script redirections, rest)
      | _ => .error (missing ")" rest)
    | .word w :: rest =>
      match keyword? w ["\x7b", "if", "for", "while", "until"] with
      | some "if" => readChoice fuel [] rest
      | some "for" => readEach fuel rest
      | some "while" => readLoop fuel true rest
      | some "until" => readLoop fuel false rest
      | some _ => do
        let (script, rest) ← readScript fuel [] rest
        let (redirections, rest) := readRedirections (← expectWord "\x7d" rest)
        return (.group false script redirections, rest)
      | none => readSimple [] [] [] tokens
    | _ => readSimple [] [] [] tokens

/-- A choice after the word for its next condition, and what is behind it. -/
def readChoice : (fuel : Nat) → List (Script × Script) → List Token →
    Except Flaw (Command × List Token)
  | 0, _, tokens => .error (unexpected tokens)
  | fuel + 1, branches, tokens => do
    let (condition, rest) ← readScript fuel [] tokens
    let (script, rest) ← readScript fuel [] (← expectWord "then" rest)
    let branches := branches ++ [(condition, script)]
    match rest with
    | .word w :: tail =>
      match keyword? w ["elif", "else"] with
      | some "elif" => readChoice fuel branches tail
      | some _ => do
        let (otherwise, rest) ← readScript fuel [] tail
        let (redirections, rest) := readRedirections (← expectWord "fi" rest)
        return (.choice branches otherwise redirections, rest)
      | none => do
        let (redirections, rest) := readRedirections (← expectWord "fi" rest)
        return (.choice branches [] redirections, rest)
    | _ => .error (missing "fi" rest)

/-- The part of a command from `do` to `done`, and what is behind it. -/
def readBody : (fuel : Nat) → List Token → Except Flaw (Script × List Redirection × List Token)
  | 0, tokens => .error (unexpected tokens)
  | fuel + 1, tokens => do
    let (script, rest) ← readScript fuel [] (← expectWord "do" tokens)
    let (redirections, rest) := readRedirections (← expectWord "done" rest)
    return (script, redirections, rest)

/-- A command for every field after its first word, and what is behind it. -/
def readEach : (fuel : Nat) → List Token → Except Flaw (Command × List Token)
  | 0, tokens => .error (unexpected tokens)
  | fuel + 1, tokens =>
    match tokens with
    | .word w :: rest =>
      match nameOf? w with
      | none => .error "Bad for loop variable"
      | some name => do
        let (words, rest) ← match rest with
          | .word inWord :: more =>
            if isWord "in" inWord then pure (readWords more) else pure ([], rest)
          | _ => pure ([], rest)
        let (script, redirections, rest) ← readBody fuel (skipSeparators rest)
        return (.each name words script redirections, rest)
    | _ => .error "Bad for loop variable"

/-- A loop after its first word, and what is behind it. -/
def readLoop : (fuel : Nat) → (onSuccess : Bool) → List Token →
    Except Flaw (Command × List Token)
  | 0, _, tokens => .error (unexpected tokens)
  | fuel + 1, onSuccess, tokens => do
    let (condition, rest) ← readScript fuel [] tokens
    let (script, redirections, rest) ← readBody fuel rest
    return (.loop onSuccess condition script redirections, rest)

/-- A pipeline and what is behind it. The commands before it are in reverse. -/
def readPipeline : (fuel : Nat) → (negated : Bool) → List Command → List Token →
    Except Flaw (Pipeline Command × List Token)
  | 0, _, _, tokens => .error (unexpected tokens)
  | fuel + 1, negated, commands, tokens => do
    let (command, rest) ← readCommand fuel tokens
    match rest with
    | .operator "|" :: rest => readPipeline fuel negated (command :: commands) rest
    | _ => return (⟨negated, (command :: commands).reverse⟩, rest)

/-- A pipeline with a word in front that may negate it, and what is behind it. -/
def readNegated : (fuel : Nat) → List Token → Except Flaw (Pipeline Command × List Token)
  | 0, tokens => .error (unexpected tokens)
  | fuel + 1, tokens =>
    match tokens with
    | .word w :: rest =>
      if isWord "!" w then readPipeline fuel true [] rest else readPipeline fuel false [] tokens
    | _ => readPipeline fuel false [] tokens

/-- The pipelines that follow in a chain, in reverse, and what is behind them. -/
def readChain : (fuel : Nat) → List (Bool × Pipeline Command) → List Token →
    Except Flaw (List (Bool × Pipeline Command) × List Token)
  | 0, _, tokens => .error (unexpected tokens)
  | fuel + 1, chain, tokens =>
    match tokens with
    | .operator "&&" :: rest => do
      let (pipeline, rest) ← readNegated fuel rest
      readChain fuel ((true, pipeline) :: chain) rest
    | .operator "||" :: rest => do
      let (pipeline, rest) ← readNegated fuel rest
      readChain fuel ((false, pipeline) :: chain) rest
    | _ => return (chain, tokens)

/-- A script and what is behind it. The chains before it are in reverse. -/
def readScript : (fuel : Nat) → Script → List Token → Except Flaw (Script × List Token)
  | 0, _, tokens => .error (unexpected tokens)
  | fuel + 1, script, tokens =>
    match tokens with
    | [] => return (script.reverse, [])
    | .operator ";" :: rest => readScript fuel script rest
    | .operator ")" :: _ => return (script.reverse, tokens)
    | .word w :: _ =>
      if (keyword? w closingWords).isSome then return (script.reverse, tokens)
      else chain fuel script tokens
    | _ => chain fuel script tokens

/-- A script that begins with a chain, and what is behind it. -/
def chain : (fuel : Nat) → Script → List Token → Except Flaw (Script × List Token)
  | 0, _, tokens => .error (unexpected tokens)
  | fuel + 1, script, tokens => do
    let (first, rest) ← readNegated fuel tokens
    let (others, rest) ← readChain fuel [] rest
    let script := ⟨first, others.reverse⟩ :: script
    match rest with
    | .operator ";" :: rest => readScript fuel script rest
    | .operator "&" :: rest => readScript fuel script rest
    | _ => return (script.reverse, rest)

end

/-- The script that a command line is. -/
def parse (source : List Char) : Except Flaw Script := do
  let tokens ← tokens source
  if tokens matches .operator ";" :: _ && source.head? != some '\n' then throw (unexpected tokens)
  let (script, rest) ← readScript (8 * tokens.length + 8) [] tokens
  if rest.isEmpty then return script else .error (unexpected rest)

end Runbook.Shell
