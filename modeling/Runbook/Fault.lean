import Runbook.Value.Text

/-! # Faults

What can go wrong while a workflow is read or run, as causes. `Fault.message` has the wording of
every cause and `Fault.family` its kind: a refusal of the engine, which carries a status for the
management interface, or one of the faults that come from values of the wrong kind or size.
-/

namespace Runbook

/-- A cause of failure. -/
inductive Fault where
  /-- The engine refused, for a reason that has no cause of its own here. -/
  | refused (message : String) (status : Value)
  | notFound (message : String)
  /-- A malformed workflow definition. -/
  | invalid (message : String)
  /-- As many executions are running as may run at once. -/
  | atCapacity (limit : Value)
  | unknownStepType (tag : Value)
  | unknownTool (name : Value)
  | notPermitted (message : String) (tool mode : Value)
  /-- A mode lets its edit tools change matching files only. -/
  | fileRestricted (mode pattern description path tool : Value)
  /-- Loop items that are no list. -/
  | notItems (kind : Value)
  /-- The time budget of an execution is used up. -/
  | timedOut (limit : Value)
  /-- The step cursor would stand still, go back, or leave the workflow. -/
  | badCursor (target current total : Value)
  | notIterable (kind : String)
  /-- The search for a part in a value that has no parts. -/
  | notSearchable (kind : String)
  | notMapping (kind : String)
  /-- An entry of a table given as a list is no pair, since it has no items at all. -/
  | entryNotSequence (index : Nat)
  /-- An entry of a table given as a list is no pair, since it has another number of items. -/
  | entryLength (index length : Nat)
  | unhashable (kind : String)
  | noAttribute (kind name : String)
  /-- A value that no integer can be made of. -/
  | notInteger (kind : String)
  | malformedInteger (text : String)
  | integerTooLong (digits : Nat)
  /-- An integer with more digits than are written. -/
  | integerUnwritable
  | nanAsInteger
  | infinityAsInteger
  /-- An integer beyond the largest floating-point number. -/
  | integerTooLarge
  /-- An integer beyond the largest length. -/
  | lengthTooLarge
  /-- A count in a pattern that no repetition may reach. -/
  | repetitionTooLarge
  | notComparable (operator left right : String)
  /-- An item of a list of texts to be joined is no text. -/
  | notJoinable (index : Nat) (kind : String)
  | notSlice
  | notMember (value kind : String)
  | negativeLength
  | integerRequired
  | argumentsNotMapping (owner kind : String)
  | argumentNames
  | unexpectedArgument (owner name : String)
  | missingArguments (owner : String) (names : List String)
  | tooManyArguments (owner : String) (least most given : Nat)
  | outsideWorkspace (path : String)
  | notPath (kind : String)
  | notCommand
  | nulByte
  | notReal (kind : String)
  | malformedNumber (text : String)
  /-- A text given where an encoder wants another one, as for the names and values of variables. -/
  | notEncodable (kind : String)
  /-- A name that no variable of a command can have. -/
  | variableName
  | pathMissing (path : String)
  | pathIsDirectory (path : String)
  | pathBlocked (path : String)
  | pathExists (path : String)
  | pathTooLong (path : String)
  | pathLoops (path : String)
  /-- A record that the interface has no form for. -/
  | unpresentable (message : String)
  /-- Raised by a tool or an observer with a text of its own. -/
  | raised (name message : String)
deriving Inhabited

/-- The kinds of faults, by what the management interface does about them. -/
inductive Fault.Family where
  /-- A refusal of the engine with its status. -/
  | refusal (status : Value)
  /-- A value of the right kind that is not acceptable. -/
  | value
  /-- A value of the wrong kind. -/
  | type
  | attribute
  | overflow
  | system (name : String)
  /-- A kind that the raiser named. -/
  | other (name : String)

namespace Fault

/-- The kind of a fault. -/
def family : Fault → Family
  | refused _ status => .refusal status
  | notFound _ => .refusal (.int 404)
  | invalid _ => .refusal (.int 422)
  | atCapacity _ => .refusal (.int 429)
  | unknownStepType _ => .refusal (.int 422)
  | unknownTool _ => .refusal (.int 404)
  | notPermitted .. => .refusal (.int 403)
  | fileRestricted .. => .refusal (.int 403)
  | notItems _ => .refusal (.int 422)
  | timedOut _ => .refusal (.int 408)
  | badCursor .. | entryLength .. | malformedInteger _ | integerTooLong _ | integerUnwritable
  | nanAsInteger | notMember .. | negativeLength | outsideWorkspace _ | notCommand | nulByte
  | malformedNumber _ | variableName | unpresentable _ => .value
  | notIterable _ | notSearchable _ | notMapping _ | entryNotSequence _ | unhashable _
  | notInteger _ | notComparable .. | notJoinable .. | notSlice | integerRequired
  | argumentsNotMapping .. | argumentNames | unexpectedArgument .. | missingArguments ..
  | tooManyArguments .. | notPath _ | notReal _ | notEncodable _ => .type
  | noAttribute .. => .attribute
  | infinityAsInteger | integerTooLarge | lengthTooLarge | repetitionTooLarge => .overflow
  | pathMissing _ => .system "FileNotFoundError"
  | pathIsDirectory _ => .system "IsADirectoryError"
  | pathBlocked _ => .system "NotADirectoryError"
  | pathExists _ => .system "FileExistsError"
  | pathTooLong _ => .system "OSError"
  | pathLoops _ => .system "RuntimeError"
  | raised name _ => .other name

/-- Names in quotes, as an enumeration of two or more ends in "and". -/
def enumerate : List String → String
  | [] => ""
  | [a] => Text.quoted a
  | [a, b] => Text.quoted a ++ " and " ++ Text.quoted b
  | names =>
    ", ".intercalate ((names.dropLast).map Text.quoted) ++ ", and " ++
      Text.quoted (names.getLast?.getD "")

/-- The largest part of a text that a message shows in quotes. -/
def excerpt (s : String) : String := String.ofList ((Text.quoted s).toList.take 200)

/-- The wording of a cause. -/
def message : Fault → String
  | refused m _ => m
  | notFound m => m
  | invalid m => m
  | atCapacity limit => "Maximum concurrent workflow executions reached (" ++ limit.toText ++ ")"
  | unknownStepType tag => "Unknown step type: " ++ tag.toText
  | unknownTool name => "Tool '" ++ name.toText ++ "' not found"
  | notPermitted m _ _ => m
  | fileRestricted mode pattern description path tool =>
    let who :=
      if tool.truthy then "Tool '" ++ tool.toText ++ "' in mode '" ++ mode.toText ++ "'"
      else "This mode (" ++ mode.toText ++ ")"
    let note := if description.truthy then " (" ++ description.toText ++ ")" else ""
    who ++ " can only edit files matching pattern: " ++ pattern.toText ++ note ++ ". Got: " ++
      path.toText
  | notItems kind => "Loop step requires a list of items, got " ++ kind.toText
  | timedOut limit => "Workflow execution timed out after " ++ limit.toText ++ "s"
  | badCursor target current total =>
    "Invalid step cursor " ++ target.toText ++ " (current " ++ current.toText ++ ", total " ++
      total.toText ++ ")"
  | notIterable kind => "'" ++ kind ++ "' object is not iterable"
  | notSearchable kind => "argument of type '" ++ kind ++ "' is not iterable"
  | notMapping kind => "'" ++ kind ++ "' object is not a mapping"
  | entryNotSequence i =>
    "cannot convert dictionary update sequence element #" ++ Number.intText i ++ " to a sequence"
  | entryLength i n =>
    "dictionary update sequence element #" ++ Number.intText i ++ " has length " ++
      Number.intText n ++ "; 2 is required"
  | unhashable kind => "unhashable type: '" ++ kind ++ "'"
  | noAttribute kind name => "'" ++ kind ++ "' object has no attribute '" ++ name ++ "'"
  | notInteger kind =>
    "int() argument must be a string, a bytes-like object or a real number, not '" ++ kind ++ "'"
  | malformedInteger s => "invalid literal for int() with base 10: " ++ excerpt s
  | integerTooLong n =>
    "Exceeds the limit (4300 digits) for integer string conversion: value has " ++
      Number.intText n ++ " digits; use sys.set_int_max_str_digits() to increase the limit"
  | integerUnwritable =>
    "Exceeds the limit (4300 digits) for integer string conversion; use " ++
      "sys.set_int_max_str_digits() to increase the limit"
  | nanAsInteger => "cannot convert float NaN to integer"
  | infinityAsInteger => "cannot convert float infinity to integer"
  | integerTooLarge => "int too large to convert to float"
  | lengthTooLarge => "Python int too large to convert to C ssize_t"
  | repetitionTooLarge => "the repetition number is too large"
  | notComparable operator left right =>
    "'" ++ operator ++ "' not supported between instances of '" ++ left ++ "' and '" ++ right ++ "'"
  | notJoinable i kind =>
    "sequence item " ++ Number.intText i ++ ": expected str instance, " ++ kind ++ " found"
  | notSlice => "slice indices must be integers or None or have an __index__ method"
  | notMember v kind => v ++ " is not a valid " ++ kind
  | negativeLength => "maxlen must be non-negative"
  | integerRequired => "an integer is required"
  | argumentsNotMapping owner kind =>
    owner ++ "() argument after ** must be a mapping, not " ++ kind
  | argumentNames => "keywords must be strings"
  | unexpectedArgument owner name =>
    owner ++ "() got an unexpected keyword argument '" ++ name ++ "'"
  | missingArguments owner names =>
    owner ++ "() missing " ++ Number.intText names.length ++ " required positional argument" ++
      (if names.length == 1 then "" else "s") ++ ": " ++ enumerate names
  | tooManyArguments owner least most given =>
    owner ++ "() takes " ++
      (if least == most then Number.intText most
        else "from " ++ Number.intText least ++ " to " ++ Number.intText most) ++
      " positional argument" ++ (if most == 1 then "" else "s") ++ " but " ++
      Number.intText given ++ (if given == 1 then " was given" else " were given")
  | outsideWorkspace path => "Path is outside the workspace: " ++ path
  | notPath kind => "expected str, bytes or os.PathLike object, not " ++ kind
  | notCommand => "cmd must be a string"
  | nulByte => "embedded null byte"
  | notReal kind => "float() argument must be a string or a real number, not '" ++ kind ++ "'"
  | malformedNumber s => "could not convert string to float: " ++ excerpt s
  | notEncodable kind => "expected str, bytes or os.PathLike object, not " ++ kind
  | variableName => "illegal environment variable name"
  | pathMissing path => "[Errno 2] No such file or directory: " ++ Text.quoted path
  | pathIsDirectory path => "[Errno 21] Is a directory: " ++ Text.quoted path
  | pathBlocked path => "[Errno 20] Not a directory: " ++ Text.quoted path
  | pathExists path => "[Errno 17] File exists: " ++ Text.quoted path
  | pathTooLong path => "[Errno 36] File name too long: " ++ Text.quoted path
  | pathLoops path => "Symlink loop from " ++ Text.quoted path
  | unpresentable m => m
  | raised name m => if name == "KeyError" then Text.quoted m else m

end Fault

/-- What ends a computation early: a fault, or the cancellation of the task it runs in. -/
inductive Interrupt where
  | fault (cause : Fault)
  | cancelled (message : String)
deriving Inhabited

end Runbook
