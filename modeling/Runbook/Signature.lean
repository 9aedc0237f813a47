import Runbook.Value.Coercion

/-! # Signatures

The named parameters that a constructor or operation takes, some with a default. Arguments are bound
to them by position or by name; what does not fit is a fault that names the owner of the signature.
-/

namespace Runbook

/-- One parameter; without a default it has to be given. -/
structure Parameter where
  name : String
  default? : Option Value := none

/-- The parameters of an owner, in order. The owner's own first argument counts in messages if
`bound`. -/
structure Signature where
  owner : String
  parameters : List Parameter
  bound : Bool := true

namespace Signature

/-- The parameters that have to be given. -/
def required (s : Signature) : List String :=
  (s.parameters.filter (·.default?.isNone)).map (·.name)

/-- The value of each parameter: the argument under its name, else its default. -/
def complete (s : Signature) (given : List (String × Value)) :
    Except Fault (List (String × Value)) :=
  let missing := s.required.filter fun name => !given.any (·.1 == name)
  if missing.isEmpty then
    .ok (s.parameters.map fun p =>
      (p.name, ((given.find? (·.1 == p.name)).map (·.2)).getD (p.default?.getD .null)))
  else .error (.missingArguments s.owner missing)

/-- Arguments bound by position. -/
def byPosition (s : Signature) (arguments : List Value) :
    Except Fault (List (String × Value)) :=
  let extra := if s.bound then 1 else 0
  if s.parameters.length < arguments.length then
    .error (.tooManyArguments s.owner (s.required.length + extra) (s.parameters.length + extra)
      (arguments.length + extra))
  else s.complete ((s.parameters.map (·.name)).zip arguments)

/-- The arguments whose names are texts, each of a parameter. -/
def named (s : Signature) : Entries → Except Fault (List (String × Value))
  | [] => .ok []
  | (.text name, v) :: rest =>
    if s.parameters.any (·.name == name) then (s.named rest).map ((name, v) :: ·)
    else .error (.unexpectedArgument s.owner name)
  | _ :: _ => .error .argumentNames

/-- Arguments bound by name. -/
def byName (s : Signature) (arguments : Entries) : Except Fault (List (String × Value)) :=
  if arguments.any fun e => !(e.1 matches .text _) then .error .argumentNames
  else do s.complete (← s.named arguments)

end Signature

/-- The value bound to a parameter. -/
def boundValue (arguments : List (String × Value)) (name : String) : Value :=
  ((arguments.find? (·.1 == name)).map (·.2)).getD .null

end Runbook
