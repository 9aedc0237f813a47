import Runbook.Number.Reading

/-! # Arithmetic of a shell

Expressions over integers and variables, whose values are integers too. Comparisons and connectives
are one where they hold and zero elsewhere.
-/

namespace Runbook.Shell

/-- The operators from those that bind least to those that bind most. A longer one stands before
its beginning. -/
def operatorLevels : List (List String) :=
  [["||"], ["&&"], ["==", "!="], ["<=", ">=", "<", ">"], ["+", "-"], ["*", "/", "%"]]

/-- One for a truth and zero for anything else. -/
def truthNumber (b : Bool) : Int := if b then 1 else 0

/-- The value of an operator. -/
def operate (operator : String) (a b : Int) : Except String Int :=
  match operator with
  | "||" => .ok (truthNumber (a != 0 || b != 0))
  | "&&" => .ok (truthNumber (a != 0 && b != 0))
  | "==" => .ok (truthNumber (a == b))
  | "!=" => .ok (truthNumber (a != b))
  | "<=" => .ok (truthNumber (a ≤ b))
  | ">=" => .ok (truthNumber (b ≤ a))
  | "<" => .ok (truthNumber (a < b))
  | ">" => .ok (truthNumber (b < a))
  | "+" => .ok (a + b)
  | "-" => .ok (a - b)
  | "*" => .ok (a * b)
  | "/" => if b == 0 then .error "division by zero" else .ok (a.tdiv b)
  | _ => if b == 0 then .error "division by zero" else .ok (a.tmod b)

/-- An expression without the blanks in front. -/
def skipBlanks (cs : List Char) : List Char := cs.dropWhile fun c => c == ' ' || c == '\t' || c == '\n'

/-- The operator of some at the front of an expression and what is behind it. -/
def operatorAt? (operators : List String) (cs : List Char) : Option (String × List Char) :=
  (operators.find? fun o => o.toList.isPrefixOf cs).map fun o => (o, cs.drop o.length)

mutual

/-- The value of an expression of some levels, and what is behind it. -/
def valueOf (numberOf : String → Int) :
    (fuel : Nat) → List (List String) → List Char → Except String (Int × List Char)
  | 0, _, _ => .error "expecting primary"
  | fuel + 1, [], cs =>
    match skipBlanks cs with
    | '(' :: rest => do
      let (n, rest) ← valueOf numberOf fuel operatorLevels rest
      match skipBlanks rest with
      | ')' :: rest => return (n, rest)
      | _ => throw "expecting ')'"
    | '-' :: rest => do
      let (n, rest) ← valueOf numberOf fuel [] rest
      return (-n, rest)
    | '+' :: rest => valueOf numberOf fuel [] rest
    | '!' :: rest => do
      let (n, rest) ← valueOf numberOf fuel [] rest
      return (truthNumber (n == 0), rest)
    | c :: rest =>
      let digits := (c :: rest).takeWhile Char.isDigit
      let name := (c :: rest).takeWhile fun c => c.isAlphanum || c == '_'
      if !digits.isEmpty then
        .ok (Number.ofDigits (digits.map fun d => d.toNat - '0'.toNat), (c :: rest).drop digits.length)
      else if !name.isEmpty then
        .ok (numberOf (String.ofList name), (c :: rest).drop name.length)
      else .error "expecting primary"
    | [] => .error "expecting primary"
  | fuel + 1, level :: levels, cs => do
    let (first, rest) ← valueOf numberOf fuel levels cs
    operands numberOf fuel level levels first rest

/-- The value of a first operand with the operators of a level that follow, and what is behind. -/
def operands (numberOf : String → Int) :
    (fuel : Nat) → List String → List (List String) → Int → List Char →
      Except String (Int × List Char)
  | 0, _, _, first, cs => .ok (first, cs)
  | fuel + 1, level, levels, first, cs =>
    match operatorAt? level (skipBlanks cs) with
    | none => .ok (first, cs)
    | some (operator, rest) => do
      let (second, rest) ← valueOf numberOf fuel levels rest
      operands numberOf fuel level levels (← operate operator first second) rest

end

/-- The value of an expression. -/
def evaluate (numberOf : String → Int) (cs : List Char) : Except String Int := do
  if (skipBlanks cs).isEmpty then return 0
  let (n, rest) ← valueOf numberOf (16 * (cs.length + 1)) operatorLevels cs
  if (skipBlanks rest).isEmpty then return n else throw "expecting EOF"

example : (evaluate (fun _ => 4) "1 + 2*(n-1) <= 7".toList).toOption = some 1 := by decide +kernel

end Runbook.Shell
