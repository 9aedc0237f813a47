import Runbook.Document.Reader
import Runbook.Form.Field
import Runbook.Web.Message

/-! # Entries

What a caller fills in: the workflow to run with its options, the answer to a manual step, how much of
the history to list. All that is wrong with an entry is told at once.
-/

namespace Runbook.Web

/-- What a request carries. -/
inductive Cargo where
  | nothing
  /-- Something that is not said to be a document. -/
  | other
  | document (v : Value)

/-- Why the cargo of a request cannot be used. -/
inductive Spoilt where
  | malformed (problems : List Form.Problem)
  | unreadable

/-- A content type is one of a document. -/
def isDocumentType (kind : String) : Bool :=
  let plain := Text.trim (headerName (String.ofList (kind.toList.takeWhile (· != ';'))))
  match Text.split '/' plain with
  | ["application", sub] => sub == "json" || "+json".toList.isSuffixOf sub.toList
  | _ => false

/-- A text without the mark of byte order that it may begin with. -/
def withoutMark (s : String) : String :=
  match s.toList with
  | '\ufeff' :: rest => String.ofList rest
  | _ => s

/-- What a request carries. -/
def cargo (r : Request) : Except Spoilt Cargo :=
  if r.body.isEmpty then .ok .nothing
  else if isDocumentType ((r.header? "content-type").getD "") then
    match Document.read (withoutMark r.body) with
    | .ok v => .ok (.document v)
    | .error (.stopped position) =>
      .error (.malformed [⟨[.text "body", .int position], .notDocument⟩])
    | .error .tooLong => .error .unreadable
  else .ok .other

/-- The place of a field of the body. -/
def bodyPlace (name : String) : List Value := [.text "body", .text name]

/-- Read one field; a flaw is noted and the default stands in. -/
def entry {α : Type} (entries : Entries) (field : Value → Except Form.Flaw α) (name : String)
    (fallback : α) : StateM (List Form.Problem) α := do
  match entries.get? name with
  | none => return fallback
  | some v =>
    match field v with
    | .ok a => return a
    | .error flaw =>
      modify (· ++ [⟨bodyPlace name, flaw⟩])
      return fallback

/-- Read one field that has to be there. -/
def requiredEntry {α : Type} (entries : Entries) (field : Value → Except Form.Flaw α)
    (name : String) (fallback : α) : StateM (List Form.Problem) α := do
  if !entries.has name then modify (· ++ [⟨bodyPlace name, .missing⟩])
  entry entries field name fallback

/-- An entry that is read from cargo. -/
def ofCargo {α : Type} (read : Entries → StateM (List Form.Problem) α) :
    Cargo → Except (List Form.Problem) α
  | .nothing => .error [⟨[.text "body"], .missing⟩]
  | .document (.dict entries) =>
    match (read entries).run [] with
    | (a, []) => .ok a
    | (_, problems) => .error problems
  | _ => .error [⟨[.text "body"], .notForm⟩]

/-- A workflow that is to be run. -/
structure Submission where
  workflow : Entries
  scope : Entries
  timeout : Option Float
  triggeredBy : String
  userId : Option String

/-- The submission in cargo. -/
def Submission.ofCargo : Cargo → Except (List Form.Problem) Submission :=
  Web.ofCargo fun entries => do
    let workflow ← requiredEntry entries Form.table "workflow" []
    let scope ← entry entries Form.table "variables" []
    let timeout ← entry entries (Form.optional (Form.numberAbove 0.0)) "timeout" none
    let triggeredBy ← entry entries Form.text "triggered_by" "api"
    let userId ← entry entries (Form.optional Form.text) "user_id" none
    return { workflow, scope, timeout, triggeredBy, userId }

/-- The options that a submission gives. -/
def Submission.options (s : Submission) : Value :=
  Value.record [("variables", .dict s.scope),
    ("timeout", (s.timeout.map Value.float).getD .null), ("triggered_by", .text s.triggeredBy),
    ("user_id", Value.ofText? s.userId)]

/-- The answer to a manual step. -/
structure Verdict where
  approved : Bool
  note : Option String
  token : Option String

/-- The verdict in cargo. -/
def Verdict.ofCargo : Cargo → Except (List Form.Problem) Verdict :=
  Web.ofCargo fun entries => do
    let approved ← entry entries Form.bool "approved" true
    let note ← entry entries (Form.optional Form.text) "note" none
    let token ← entry entries (Form.optional Form.text) "token" none
    return { approved, note, token }

/-- How much of the history a query asks for. -/
def historyLimit (query : String) : Except (List Form.Problem) Int :=
  let place := [Value.text "query", Value.text "limit"]
  match queryValue? query "limit" with
  | none => .ok 50
  | some text =>
    match Form.integerOfText text with
    | .error flaw => .error [⟨place, flaw⟩]
    | .ok n => if n < 1 then .error [⟨place, .belowLeast⟩] else .ok n

end Runbook.Web
